import RithmicNt.Gateway.Failures
import RithmicNt.Host.Restore
import RithmicNt.Lib.Machine

/-! One round of the event pump: a task for each plant takes its events and publishes them, until one
fails for good; the pump then stops the others and waits for each to finish what it has in hand. -/

namespace RithmicNt.Host.PumpStreams

open RithmicNt.Lib RithmicNt.Gateway.Failures

/-- The most events that a task publishes at once. -/
def batch : Nat := 1024

structure Issue where
  recovery : Recovery
  cause : String
  deriving DecidableEq, Repr

def Issue.requested : Issue := ⟨.login, "host requested login recovery"⟩

def Issue.stoppedUnexpectedly : Issue := ⟨.login, "plant pump stopped unexpectedly"⟩

/-- The recovery that an error of a plant asks for; `none` where its task backs off and goes on. -/
def recoveryOf (stream : Stream) : Error → Option Recovery
  | .transport _ => some .login
  | .rithmic _ | .channelClosed _ => some (.plant stream)
  | _ => none

/-- Where `serve_stream` is: `coalescing` and `publishing` have events in hand, `publishing` and
`raising` an error that was taken behind them. -/
inductive Task (ε : Type)
  | idle
  | polling
  | coalescing (events : List ε)
  | publishing (events : List ε) (pending : Option Error)
  | raising (e : Error)
  | backingOff
  | ended (issue : Option Issue)
  | panicked
  deriving DecidableEq, Repr

namespace Task

variable {ε : Type}

def hand : Task ε → List ε
  | coalescing events | publishing events _ => events
  | _ => []

def pending : Task ε → Option Error
  | publishing _ pending => pending
  | raising e => some e
  | _ => none

def isOver : Task ε → Bool
  | ended _ | panicked => true
  | _ => false

/-- The error arm of the loop. -/
def fail (stream : Stream) (e : Error) : Task ε :=
  match recoveryOf stream e with
  | some recovery => ended (some ⟨recovery, e.text⟩)
  | none => backingOff

end Task

/-- The task of one plant, with what it has taken from the venue, published and raised so far. -/
structure Lane (ε : Type) where
  task : Task ε := .idle
  joined : Bool := false
  taken : List ε := []
  published : List ε := []
  raised : List Error := []

/-- `native`: the hub has native sessions. -/
inductive LaneEvent (ε : Type)
  | next (native : Bool) (answer : Except Error (List ε))
  | more (answer : Except Error (List ε))
  | publish
  | raise
  | wake
  | stop
  | panic

namespace Lane

variable {ε : Type}

def take (l : Lane ε) (events : List ε) (task : Task ε) : Lane ε :=
  { l with taken := l.taken ++ events, task := task }

def raise (l : Lane ε) (e : Error) (task : Task ε) : Lane ε :=
  { l with raised := l.raised ++ [e], task := task }

/-- A burst is drained while there is more of it, up to a batch. -/
def drain (events : List ε) : Task ε :=
  if events ≠ [] ∧ events.length < batch then .coalescing events else .publishing events none

def act (l : Lane ε) (stream : Stream) (stopped : Bool) : LaneEvent ε → Option (Lane ε)
  | .next native answer =>
    -- The select looks at the stop first, and the stop may be sent between that look and the next.
    match l.task, answer with
    | .polling, .ok events =>
      some (l.take events (if native then drain events else .publishing events none))
    | .polling, .error e => some (l.raise e (.fail stream e))
    | _, _ => none
  | .more answer =>
    match l.task, answer with
    | .coalescing events, .ok [] => some { l with task := .publishing events none }
    | .coalescing events, .ok more => some (l.take more (drain (events ++ more)))
    | .coalescing events, .error e => some (l.raise e (.publishing events (some e)))
    | _, _ => none
  | .publish =>
    match l.task with
    | .publishing (event :: rest) pending =>
      some { l with published := l.published ++ [event], task := .publishing rest pending }
    | .publishing [] (some e) => some { l with task := .raising e }
    | .publishing [] none => some { l with task := .polling }
    | _ => none
  | .raise =>
    match l.task with
    | .raising e => some { l with task := .fail stream e }
    | _ => none
  | .wake =>
    match l.task with
    | .backingOff => some { l with task := .polling }
    | _ => none
  | .stop =>
    match l.task, stopped with
    | .polling, true | .backingOff, true => some { l with task := .ended none }
    | _, _ => none
  | .panic =>
    match l.task with
    | .idle | .ended _ | .panicked => none
    | _ => some { l with task := .panicked }

end Lane

inductive Pump
  | checking
  | serving
  | quiescing (issue : Issue)
  | done (issue : Issue)
  deriving DecidableEq, Repr

structure State (ε : Type) where
  forceReconnect : Bool
  recovering : Bool
  ready : Bool
  stopped : Bool := false
  lane : Stream → Lane ε := fun _ => {}
  pump : Pump := .checking

/-- `request`: another task asks for a reconnect; `notified`: the pump hears of it. -/
inductive Event (ε : Type)
  | serve
  | lane (stream : Stream) (e : LaneEvent ε)
  | request
  | notified
  | join (stream : Stream)
  | allJoined

namespace State

variable {ε : Type}

def interrupt (s : State ε) : State ε := { s with recovering := true, ready := false }

def setLane (s : State ε) (stream : Stream) (l : Lane ε) : State ε :=
  { s with lane := Function.update s.lane stream l }

def setJoined (s : State ε) (stream : Stream) : State ε :=
  s.setLane stream { s.lane stream with joined := true }

/-- `interrupt`, then the stop of the other tasks. -/
def quiesce (s : State ε) (issue : Issue) : State ε :=
  { s.interrupt with stopped := true, pump := .quiescing issue }

def allJoined (s : State ε) : Bool :=
  [Stream.ticker, .history, .pnl, .order].all fun x => (s.lane x).joined

def serve (s : State ε) : State ε :=
  if s.forceReconnect then { s.interrupt with forceReconnect := false, pump := .done .requested }
  else { s with lane := fun x => { s.lane x with task := .polling }, pump := .serving }

def join (s : State ε) (stream : Stream) : Option (State ε) :=
  if (s.lane stream).joined then none
  else
    let s := s.setJoined stream
    match s.pump, (s.lane stream).task with
    | .serving, .ended (some issue) => some (s.quiesce issue)
    | .serving, .panicked => some (s.quiesce .stoppedUnexpectedly)
    | .serving, .ended none | .quiescing _, .ended none => some s
    | .quiescing issue, .ended (some _) | .quiescing issue, .panicked =>
      some { s with pump := .quiescing { issue with recovery := .login } }
    | _, _ => none

end State

def step {ε : Type} (s : State ε) : Event ε → Option (State ε)
  | .serve => if s.pump = .checking then some s.serve else none
  | .lane x e => ((s.lane x).act x s.stopped e).map (s.setLane x)
  | .request => some { s with forceReconnect := true }
  | .notified =>
    if s.pump = .serving ∧ s.forceReconnect = true then
      some ({ s with forceReconnect := false }.quiesce .requested)
    else none
  | .join x => s.join x
  | .allJoined =>
    if s.allJoined then
      match s.pump with
      | .serving => some (s.quiesce .stoppedUnexpectedly)
      | .quiescing issue => some { s with pump := .done issue }
      | _ => none
    else none

def machine (ε : Type) : Machine (State ε) (Event ε) where
  Start s := ∃ forced recovering ready, s = { forceReconnect := forced, recovering, ready }
  step := step

/-! ### Tasks -/

section Tasks

variable {ε : Type} {l m : Lane ε} {x : Stream} {stopped : Bool}

/-- What a task took it published or has in hand, and a failure that it took is in hand or is what it
ended with. -/
structure Lane.Sound (x : Stream) (l : Lane ε) : Prop where
  flow : l.task ≠ .panicked → l.taken = l.published ++ l.task.hand
  failures : ∀ e ∈ l.raised, ∀ r, recoveryOf x e = some r → l.task ≠ .panicked →
    l.task.pending = some e ∨ l.task = .ended (some ⟨r, e.text⟩)
  issue : ∀ i, l.task = .ended (some i) →
    ∃ e ∈ l.raised, recoveryOf x e = some i.recovery ∧ i.cause = e.text
  joined : l.joined = true → l.task.isOver = true
  taken : ∀ e, l.task.pending = some e → e ∈ l.raised

/-- No failure was taken while the task still takes events. -/
theorem Lane.Sound.quiet (h : l.Sound x) (hpending : l.task.pending = none)
    (hover : l.task.isOver = false)
    {e : Error} (he : e ∈ l.raised) : recoveryOf x e = none := by
  by_contra hne
  obtain ⟨r, hr⟩ := Option.ne_none_iff_exists'.mp hne
  have hpanic : l.task ≠ .panicked := by
    rintro hp
    simp [hp, Task.isOver] at hover
  rcases h.failures e he r hr hpanic with hp | hp
  · exact absurd (hpending.symm.trans hp) (by simp)
  · simp [hp, Task.isOver] at hover

theorem Lane.Sound.joined_eq (h : l.Sound x) (hover : l.task.isOver = false) : l.joined = false := by
  by_contra hj
  have := h.joined (by simpa using hj)
  simp [hover] at this

theorem sound_of_quiet (hpending : m.task.pending = none) (hover : m.task.isOver = false)
    (hjoined : m.joined = false) (hflow : m.taken = m.published ++ m.task.hand)
    (hquiet : ∀ e ∈ m.raised, recoveryOf x e = none) : m.Sound x := by
  refine ⟨fun _ => hflow, ?_, ?_, ?_, ?_⟩
  · intro e he r hr
    rw [hquiet e he] at hr
    cases hr
  · intro i hi
    simp [hi, Task.isOver] at hover
  · intro hj
    simp [hjoined] at hj
  · intro e he
    rw [hpending] at he
    cases he

theorem sound_of_pending {e : Error} (hpending : m.task.pending = some e)
    (hover : m.task.isOver = false)
    (hjoined : m.joined = false) (hflow : m.taken = m.published ++ m.task.hand) (hmem : e ∈ m.raised)
    (hquiet : ∀ f ∈ m.raised, f ≠ e → recoveryOf x f = none) : m.Sound x := by
  refine ⟨fun _ => hflow, ?_, ?_, ?_, ?_⟩
  · intro f hf r hr _
    by_cases hfe : f = e
    · rw [hfe]
      exact .inl hpending
    · rw [hquiet f hf hfe] at hr
      cases hr
  · intro i hi
    simp [hi, Task.isOver] at hover
  · intro hj
    simp [hjoined] at hj
  · intro f hf
    rw [hpending] at hf
    rw [← Option.some.inj hf]
    exact hmem

/-- The task takes the error arm of its loop. -/
theorem sound_of_fail {e : Error} (htask : m.task = .fail x e) (hjoined : m.joined = false)
    (hflow : m.taken = m.published) (hmem : e ∈ m.raised)
    (hquiet : ∀ f ∈ m.raised, f ≠ e → recoveryOf x f = none) : m.Sound x := by
  unfold Task.fail at htask
  split at htask
  · next r hr =>
    refine ⟨?_, ?_, ?_, ?_, ?_⟩
    · intro _
      simpa [htask, Task.hand] using hflow
    · intro f hf r' hr' _
      by_cases hfe : f = e
      · subst hfe
        rw [hr] at hr'
        rw [← Option.some.inj hr']
        exact .inr htask
      · rw [hquiet f hf hfe] at hr'
        cases hr'
    · intro i hi
      obtain rfl : ⟨r, e.text⟩ = i := by simpa [htask] using hi
      exact ⟨e, hmem, hr, rfl⟩
    · intro hj
      simp [hjoined] at hj
    · intro f hf
      simp [htask, Task.pending] at hf
  · next hr =>
    apply sound_of_quiet
    · simp [htask, Task.pending]
    · simp [htask, Task.isOver]
    · exact hjoined
    · simpa [htask, Task.hand] using hflow
    · intro f hf
      by_cases hfe : f = e
      · rw [hfe]
        exact hr
      · exact hquiet f hf hfe

theorem drain_facts (events : List ε) : (Lane.drain events).pending = none ∧
    (Lane.drain events).isOver = false ∧ (Lane.drain events).hand = events := by
  unfold Lane.drain
  split <;> exact ⟨rfl, rfl, rfl⟩

/-- A task that takes events, and has not failed. -/
theorem Lane.Sound.take (h : l.Sound x) (hpending : l.task.pending = none)
    (hover : l.task.isOver = false) {events : List ε} {task : Task ε}
    (htask : task.pending = none ∧ task.isOver = false ∧ task.hand = l.task.hand ++ events) :
    (l.take events task).Sound x := by
  obtain ⟨htp, hto, hth⟩ := htask
  refine sound_of_quiet (m := l.take events task) htp hto (h.joined_eq hover) ?_ ?_
  · have hpanic : l.task ≠ .panicked := by
      intro hp
      simp [hp, Task.isOver] at hover
    show l.taken ++ events = l.published ++ task.hand
    rw [h.flow hpanic, hth, List.append_assoc]
  · intro e he
    exact h.quiet hpending hover he

/-- A step of a task that has taken no failure, and goes on without one. -/
theorem Lane.Sound.go (h : l.Sound x) (hpending : l.task.pending = none)
    (hover : l.task.isOver = false)
    {task : Task ε} (htask : task.pending = none ∧ task.isOver = false ∧ task.hand = l.task.hand) :
    ({ l with task := task } : Lane ε).Sound x := by
  have hnone : task.pending = none ∧ task.isOver = false ∧ task.hand = l.task.hand ++ [] := by
    simpa using htask
  have htake := h.take hpending hover hnone
  simpa [Lane.take] using htake

theorem Lane.Sound.publish (h : l.Sound x) {event : ε} {rest : List ε} {pending : Option Error}
    (htask : l.task = .publishing (event :: rest) pending) :
    ({ l with
        published := l.published ++ [event]
        task := .publishing rest pending } : Lane ε).Sound x := by
  refine ⟨?_, ?_, by simp, ?_, ?_⟩
  · intro _
    have hflow := h.flow (by simp [htask])
    simpa [htask, Task.hand] using hflow
  · intro e he r hr _
    have hfailed := h.failures e he r hr (by simp [htask])
    simpa [htask, Task.pending] using hfailed
  · intro hj
    have hover := h.joined hj
    simp [htask, Task.isOver] at hover
  · intro e he
    exact h.taken e (by simpa [htask, Task.pending] using he)

/-- A task goes on with the failure that it has taken behind its events. -/
theorem Lane.Sound.carry (h : l.Sound x) {e : Error} (hpending : l.task.pending = some e) {f : Error}
    (hf : f ∈ l.raised) (hne : f ≠ e) : recoveryOf x f = none := by
  by_contra hr
  obtain ⟨r, hr⟩ := Option.ne_none_iff_exists'.mp hr
  have hpanic : l.task ≠ .panicked := by
    intro hp
    simp [hp, Task.pending] at hpending
  rcases h.failures f hf r hr hpanic with hp | hp
  · rw [hpending] at hp
    exact hne (Option.some.inj hp).symm
  · simp [hp, Task.pending] at hpending

theorem Lane.Sound.act (h : l.Sound x) {e : LaneEvent ε} (hact : l.act x stopped e = some m) :
    m.Sound x := by
  have hraised : ∀ {err : Error}, l.task.pending = none → l.task.isOver = false →
      ∀ f ∈ l.raised ++ [err], f ≠ err → recoveryOf x f = none := by
    intro err hpending hover f hf hne
    rcases List.mem_append.mp hf with hf | hf
    · exact h.quiet hpending hover hf
    · exact absurd (List.mem_singleton.mp hf) hne
  obtain ⟨task, joined, taken, published, raised⟩ := l
  cases e with
  | next native answer =>
    cases task with
    | polling =>
      cases answer with
      | ok events =>
        obtain rfl := Option.some.inj hact
        apply h.take rfl rfl
        cases native with
        | true => exact drain_facts events
        | false => exact ⟨rfl, rfl, rfl⟩
      | error err =>
        obtain rfl := Option.some.inj hact
        refine sound_of_fail rfl (h.joined_eq rfl) ?_ (by simp [Lane.raise]) (hraised rfl rfl)
        simpa [Task.hand, Lane.raise] using h.flow
    | _ => cases hact
  | more answer =>
    cases task with
    | coalescing events =>
      cases answer with
      | ok more =>
        cases more with
        | nil =>
          obtain rfl := Option.some.inj hact
          exact h.go rfl rfl ⟨rfl, rfl, rfl⟩
        | cons event more =>
          obtain rfl := Option.some.inj hact
          exact h.take rfl rfl (drain_facts _)
      | error err =>
        obtain rfl := Option.some.inj hact
        refine sound_of_pending (e := err) rfl rfl (h.joined_eq rfl) ?_ (by simp [Lane.raise])
          (hraised rfl rfl)
        simpa [Task.hand, Lane.raise] using h.flow
    | _ => cases hact
  | publish =>
    cases task with
    | publishing events pending =>
      cases events with
      | cons event rest =>
        obtain rfl := Option.some.inj hact
        exact h.publish rfl
      | nil =>
        cases pending with
        | none =>
          obtain rfl := Option.some.inj hact
          exact h.go rfl rfl ⟨rfl, rfl, rfl⟩
        | some err =>
          obtain rfl := Option.some.inj hact
          refine sound_of_pending (e := err) rfl rfl (h.joined_eq rfl) ?_ (h.taken err rfl) ?_
          · simpa [Task.hand] using h.flow
          · intro f hf hne
            exact h.carry rfl hf hne
    | _ => cases hact
  | raise =>
    cases task with
    | raising err =>
      obtain rfl := Option.some.inj hact
      refine sound_of_fail rfl (h.joined_eq rfl) ?_ (h.taken err rfl) ?_
      · simpa [Task.hand] using h.flow
      · intro f hf hne
        exact h.carry rfl hf hne
    | _ => cases hact
  | wake =>
    cases task with
    | backingOff =>
      obtain rfl := Option.some.inj hact
      exact h.go rfl rfl ⟨rfl, rfl, rfl⟩
    | _ => cases hact
  | stop =>
    cases stopped with
    | false => cases task <;> cases hact
    | true =>
      have hend : ∀ {t : Task ε}, t.pending = none → t.isOver = false → t.hand = [] →
          Lane.Sound x ⟨t, joined, taken, published, raised⟩ →
          Lane.Sound x ⟨.ended none, joined, taken, published, raised⟩ := by
        intro t hpending hover hhand h
        refine ⟨?_, ?_, by simp, fun _ => rfl, by simp [Task.pending]⟩
        · intro _
          have hflow := h.flow (by rintro rfl; simp [Task.isOver] at hover)
          rw [hhand] at hflow
          exact hflow
        · intro f hf r hr _
          rw [h.quiet hpending hover hf] at hr
          cases hr
      cases task with
      | polling | backingOff =>
        obtain rfl := Option.some.inj hact
        exact hend rfl rfl rfl h
      | _ => cases hact
  | panic =>
    have hpanic : Lane.Sound x ⟨.panicked, joined, taken, published, raised⟩ :=
      ⟨by simp, by simp, by simp, fun _ => rfl, by simp [Task.pending]⟩
    cases task with
    | idle | ended _ | panicked => cases hact
    | _ =>
      obtain rfl := Option.some.inj hact
      exact hpanic

/-- A task that is over is not stepped again. -/
theorem over_of_act {e : LaneEvent ε} (hact : l.act x stopped e = some m) : l.task.isOver = false := by
  by_contra hover
  obtain ⟨task, joined, taken, published, raised⟩ := l
  cases task with
  | ended _ | panicked => cases e <;> cases hact
  | _ => exact hover rfl

theorem idle_of_act {e : LaneEvent ε} (hact : l.act x stopped e = some m) : l.task ≠ .idle := by
  intro hidle
  obtain ⟨task, joined, taken, published, raised⟩ := l
  obtain rfl : task = .idle := hidle
  cases e <;> cases hact

theorem over_facts {task : Task ε} (hover : task.isOver = true) :
    task.hand = [] ∧ task.pending = none := by
  cases task <;> simp_all [Task.isOver, Task.hand, Task.pending]

theorem joined_of_act {e : LaneEvent ε} (hact : l.act x stopped e = some m) : m.joined = l.joined := by
  cases e <;> simp only [Lane.act] at hact <;> split at hact <;> cases hact <;> rfl

end Tasks

/-! ### Rounds -/

variable {ε : Type} {s t : State ε} {x y : Stream} {issue : Issue}

/-- Some task has reported the issue to the pump, or its recovery is the login. -/
structure Sound (s : State ε) : Prop where
  lanes : ∀ x, (s.lane x).Sound x
  serving : s.pump = .serving → ∀ x, (s.lane x).joined = true → (s.lane x).task = .ended none
  covers : ∀ issue, s.pump = .quiescing issue ∨ s.pump = .done issue → ∀ x,
    (s.lane x).joined = true → (s.lane x).task ≠ .ended none →
      issue.recovery = .login ∨ (s.lane x).task = .ended (some issue)
  narrow : ∀ issue x, s.pump = .quiescing issue ∨ s.pump = .done issue →
    issue.recovery = .plant x → (s.lane x).joined = true ∧ (s.lane x).task = .ended (some issue) ∧
      ∀ y, y ≠ x → (s.lane y).joined = true → (s.lane y).task = .ended none
  done : ∀ issue, s.pump = .done issue →
    (∀ x, (s.lane x).joined = true) ∨ ∀ x, (s.lane x).task = .idle
  checking : s.pump = .checking → ∀ x, (s.lane x).task = .idle

theorem Sound.congr (h : Sound s) (hlane : t.lane = s.lane) (hpump : t.pump = s.pump) : Sound t := by
  refine ⟨?_, ?_, ?_, ?_, ?_, ?_⟩ <;> rw [hlane] <;> try rw [hpump]
  · exact h.lanes
  · exact h.serving
  · exact h.covers
  · exact h.narrow
  · exact h.done
  · exact h.checking

/-- Where the recovery is the login there is nothing to ask of the tasks. -/
theorem sound_of_login (hlanes : ∀ x, (t.lane x).Sound x) (hpump : t.pump = .quiescing issue)
    (hlogin : issue.recovery = .login) : Sound t := by
  refine ⟨hlanes, by simp [hpump], ?_, ?_, by simp [hpump], by simp [hpump]⟩
  · rintro i (hi | hi) y _ _
    · obtain rfl : issue = i := by simpa [hpump] using hi
      exact .inl hlogin
    · simp [hpump] at hi
  · rintro i y (hi | hi) hy
    · obtain rfl : issue = i := by simpa [hpump] using hi
      rw [hlogin] at hy
      cases hy
    · simp [hpump] at hi

theorem setLane_self (s : State ε) (x : Stream) (l : Lane ε) : (s.setLane x l).lane x = l :=
  Function.update_self ..

theorem setLane_of_ne (s : State ε) {x y : Stream} (l : Lane ε) (hy : y ≠ x) :
    (s.setLane x l).lane y = s.lane y :=
  Function.update_of_ne hy ..

theorem sound_lane (h : Sound s) {e : LaneEvent ε} {m : Lane ε}
    (hact : (s.lane x).act x s.stopped e = some m) : Sound (s.setLane x m) := by
  have hover := over_of_act hact
  have hjoined : (s.lane x).joined = false := (h.lanes x).joined_eq hover
  have hm : m.joined = false := (joined_of_act hact).trans hjoined
  have hne : ∀ {y}, ((s.setLane x m).lane y).joined = true → y ≠ x := by
    rintro y hy rfl
    rw [setLane_self, hm] at hy
    cases hy
  refine ⟨?_, ?_, ?_, ?_, ?_, ?_⟩
  · intro y
    by_cases hy : y = x
    · rw [hy, setLane_self]
      exact (h.lanes x).act hact
    · rw [setLane_of_ne s m hy]
      exact h.lanes y
  · intro hs y hy
    have hyx := hne hy
    rw [setLane_of_ne s m hyx] at hy ⊢
    exact h.serving hs y hy
  · intro i hi y hy
    have hyx := hne hy
    rw [setLane_of_ne s m hyx] at hy ⊢
    exact h.covers i hi y hy
  · intro i z hi hz
    obtain ⟨hjz, htz, hothers⟩ := h.narrow i z hi hz
    have hzx : z ≠ x := by
      rintro rfl
      rw [hjoined] at hjz
      cases hjz
    rw [setLane_of_ne s m hzx]
    refine ⟨hjz, htz, ?_⟩
    intro y hyz hy
    have hyx := hne hy
    rw [setLane_of_ne s m hyx] at hy ⊢
    exact hothers y hyz hy
  · intro i hi
    rcases h.done i hi with hall | hidle
    · rw [hall x] at hjoined
      cases hjoined
    · exact absurd (hidle x) (idle_of_act hact)
  · intro hc
    exact absurd (h.checking hc x) (idle_of_act hact)

theorem sound_serve (h : Sound s) (hc : s.pump = .checking) : Sound s.serve := by
  have hidle := h.checking hc
  have hjoined : ∀ x, (s.lane x).joined = false := by
    intro x
    apply (h.lanes x).joined_eq
    simp [hidle x, Task.isOver]
  unfold State.serve
  split
  · refine ⟨h.lanes, by simp, ?_, ?_, ?_, by simp⟩
    · intro i _ x hx
      have hx : (s.lane x).joined = true := hx
      rw [hjoined x] at hx
      cases hx
    · rintro i x (hi | hi) hx
      · cases hi
      · cases hi
        cases hx
    · intro i _
      exact .inr hidle
  · refine ⟨?_, ?_, by simp, by simp, by simp, by simp⟩
    · intro x
      exact (h.lanes x).go (by simp [hidle x, Task.pending]) (by simp [hidle x, Task.isOver])
        ⟨rfl, rfl, by simp [hidle x, Task.hand]⟩
    · intro _ x hx
      have hx : (s.lane x).joined = true := hx
      rw [hjoined x] at hx
      cases hx

/-- A task that is over is joined. -/
theorem sound_joined (h : Sound s) (hover : (s.lane x).task.isOver = true) :
    ∀ y, ((s.setJoined x).lane y).Sound y := by
  intro y
  unfold State.setJoined
  by_cases hy : y = x
  · subst hy
    rw [setLane_self]
    exact { h.lanes y with joined := fun _ => hover }
  · rw [setLane_of_ne _ _ hy]
    exact h.lanes y

theorem task_setJoined (s : State ε) (x y : Stream) :
    ((s.setJoined x).lane y).task = (s.lane y).task := by
  unfold State.setJoined
  by_cases hy : y = x
  · rw [hy, setLane_self]
  · rw [setLane_of_ne _ _ hy]

theorem joined_setJoined (s : State ε) (x y : Stream) :
    ((s.setJoined x).lane y).joined = true ↔ y = x ∨ (s.lane y).joined = true := by
  unfold State.setJoined
  by_cases hy : y = x
  · simp [hy, setLane_self]
  · simp [hy, setLane_of_ne s _ hy]

/-- The first issue, from a task that reports it. -/
theorem sound_first (h : Sound s) (hs : s.pump = .serving)
    (htask : (s.lane x).task = .ended (some issue)) : Sound ((s.setJoined x).quiesce issue) := by
  have hlanes := sound_joined h (x := x) (by simp [htask, Task.isOver])
  have hothers : ∀ y, y ≠ x → ((s.setJoined x).lane y).joined = true →
      ((s.setJoined x).lane y).task = .ended none := by
    intro y hy hjy
    rw [task_setJoined]
    exact h.serving hs y (((joined_setJoined s x y).mp hjy).resolve_left hy)
  refine ⟨hlanes, by simp [State.quiesce], ?_, ?_, by simp [State.quiesce], by simp [State.quiesce]⟩
  · rintro i (hi | hi) y hjy hty
    · cases hi
      by_cases hy : y = x
      · refine .inr ?_
        rw [hy]
        exact (task_setJoined s x x).trans htask
      · exact absurd (hothers y hy hjy) hty
    · cases hi
  · rintro i y (hi | hi) hy
    · cases hi
      obtain ⟨e, -, hr, -⟩ := (h.lanes x).issue issue htask
      obtain rfl : x = y := by
        rw [hy] at hr
        unfold recoveryOf at hr
        split at hr <;> simp at hr
        · exact hr
        · exact hr
      exact ⟨(joined_setJoined s x x).mpr (.inl rfl), (task_setJoined s x x).trans htask, hothers⟩
    · cases hi

/-- A task that ended without an issue changes nothing for the pump. -/
theorem sound_quiet (h : Sound s) (htask : (s.lane x).task = .ended none) : Sound (s.setJoined x) := by
  refine ⟨sound_joined h (by simp [htask, Task.isOver]), ?_, ?_, ?_, ?_, ?_⟩
  · intro hs y hy
    rw [task_setJoined]
    rcases (joined_setJoined s x y).mp hy with rfl | hy
    · exact htask
    · exact h.serving hs y hy
  · intro i hi y hy hty
    rw [task_setJoined] at hty ⊢
    rcases (joined_setJoined s x y).mp hy with rfl | hy
    · exact absurd htask hty
    · exact h.covers i hi y hy hty
  · intro i z hi hz
    obtain ⟨hjz, htz, hothers⟩ := h.narrow i z hi hz
    rw [task_setJoined]
    refine ⟨(joined_setJoined s x z).mpr (.inr hjz), htz, ?_⟩
    intro y hyz hy
    rw [task_setJoined]
    rcases (joined_setJoined s x y).mp hy with rfl | hy
    · exact htask
    · exact hothers y hyz hy
  · intro i hi
    rcases h.done i hi with hall | hidle
    · exact .inl fun y => (joined_setJoined s x y).mpr (.inr (hall y))
    · simp [hidle x] at htask
  · intro hc
    simp [h.checking hc x] at htask

theorem sound_join (h : Sound s) (hj : s.join x = some t) : Sound t := by
  unfold State.join at hj
  split at hj
  · cases hj
  · simp only [task_setJoined] at hj
    split at hj
    · next hs htask =>
      obtain rfl := Option.some.inj hj
      exact sound_first h hs htask
    · next hs htask =>
      obtain rfl := Option.some.inj hj
      exact sound_of_login (sound_joined h (by simp [htask, Task.isOver])) rfl rfl
    · next htask =>
      obtain rfl := Option.some.inj hj
      exact sound_quiet h htask
    · next htask =>
      obtain rfl := Option.some.inj hj
      exact sound_quiet h htask
    · next htask =>
      obtain rfl := Option.some.inj hj
      exact sound_of_login (sound_joined h (by simp [htask, Task.isOver])) rfl rfl
    · next htask =>
      obtain rfl := Option.some.inj hj
      exact sound_of_login (sound_joined h (by simp [htask, Task.isOver])) rfl rfl
    · cases hj

theorem sound_step {e : Event ε} (h : Sound s) (hstep : step s e = some t) : Sound t := by
  cases e with
  | serve =>
    simp only [step] at hstep
    split at hstep
    · next hc =>
      obtain rfl := Option.some.inj hstep
      exact sound_serve h hc
    · cases hstep
  | lane x e =>
    obtain ⟨m, hact, rfl⟩ := Option.map_eq_some_iff.mp hstep
    exact sound_lane h hact
  | request =>
    obtain rfl := Option.some.inj hstep
    exact h.congr rfl rfl
  | notified =>
    simp only [step] at hstep
    split at hstep
    · obtain rfl := Option.some.inj hstep
      exact sound_of_login h.lanes rfl rfl
    · cases hstep
  | join x => exact sound_join h hstep
  | allJoined =>
    simp only [step] at hstep
    split at hstep
    · next hall =>
      have hall : ∀ x, (s.lane x).joined = true := by
        intro x
        simp only [State.allJoined, List.all_cons, List.all_nil, Bool.and_true, Bool.and_eq_true] at hall
        cases x <;> simp [hall]
      split at hstep
      · obtain rfl := Option.some.inj hstep
        exact sound_of_login h.lanes rfl rfl
      · next issue hq =>
        obtain rfl := Option.some.inj hstep
        refine ⟨h.lanes, by simp, ?_, ?_, fun _ _ => .inl hall, by simp⟩
        · rintro i (hi | hi)
          · cases hi
          · cases hi
            exact h.covers issue (.inl hq)
        · rintro i z (hi | hi)
          · cases hi
          · cases hi
            exact h.narrow issue z (.inl hq)
      · cases hstep
    · cases hstep

theorem sound_of_run {trace : List (Event ε)} (h : (machine ε).Run Machine.Free trace s) : Sound s := by
  refine h.invariant (I := Sound) ?_ fun _ _ _ hs _ hstep => sound_step hs hstep
  rintro s ⟨forced, recovering, ready, rfl⟩
  refine ⟨?_, by simp, by simp, by simp, by simp, fun _ _ => rfl⟩
  intro x
  exact sound_of_quiet rfl rfl rfl rfl (by simp)

/-- What the task of a plant takes it publishes, once and in order, also when another plant fails, unless
it panics; and the recovery of the round carries every plant that failed, and is the login where more
than one did. -/
theorem round_loses_nothing {trace : List (Event ε)} (h : (machine ε).Run Machine.Free trace s) :
    (∀ x, (s.lane x).task ≠ .panicked →
      (s.lane x).taken = (s.lane x).published ++ (s.lane x).task.hand) ∧
    ∀ issue, s.pump = .done issue →
      (∀ x, (s.lane x).task ≠ .panicked → (s.lane x).published = (s.lane x).taken ∧
        ∀ e ∈ (s.lane x).raised, ∀ r, recoveryOf x e = some r →
          issue.recovery = .login ∨ issue.recovery = r ∧ issue.cause = e.text) ∧
      (∀ x, (s.lane x).task = .panicked → issue.recovery = .login) ∧
      ∀ x, issue.recovery = .plant x →
        (∃ e ∈ (s.lane x).raised, recoveryOf x e = some (.plant x) ∧ issue.cause = e.text) ∧
        ∀ y, y ≠ x → ∀ e ∈ (s.lane y).raised, recoveryOf y e = none := by
  have hs := sound_of_run h
  refine ⟨fun x hx => (hs.lanes x).flow hx, ?_⟩
  intro issue hdone
  have hcovers := hs.covers issue (.inr hdone)
  have hnarrow := hs.narrow issue
  refine ⟨?_, ?_, ?_⟩
  · intro x hpanic
    rcases hs.done issue hdone with hall | hidle
    · obtain ⟨hhand, hpending⟩ := over_facts ((hs.lanes x).joined (hall x))
      refine ⟨?_, ?_⟩
      · have hflow := (hs.lanes x).flow hpanic
        rw [hhand, List.append_nil] at hflow
        exact hflow.symm
      · intro e he r hr
        have hended : (s.lane x).task = .ended (some ⟨r, e.text⟩) := by
          apply ((hs.lanes x).failures e he r hr hpanic).resolve_left
          simp [hpending]
        refine (hcovers x (hall x) (by simp [hended])).imp_right ?_
        intro hissue
        obtain rfl : ⟨r, e.text⟩ = issue := by simpa [hended] using hissue
        exact ⟨rfl, rfl⟩
    · refine ⟨?_, ?_⟩
      · have hflow := (hs.lanes x).flow hpanic
        simpa [hidle x, Task.hand] using hflow.symm
      · intro e he r hr
        have hquiet := (hs.lanes x).quiet (by simp [hidle x, Task.pending])
          (by simp [hidle x, Task.isOver]) he
        rw [hquiet] at hr
        cases hr
  · intro x hpanic
    rcases hs.done issue hdone with hall | hidle
    · apply (hcovers x (hall x) (by simp [hpanic])).resolve_right
      simp [hpanic]
    · simp [hidle x] at hpanic
  · intro x hx
    obtain ⟨-, htask, hothers⟩ := hnarrow x (.inr hdone) hx
    obtain ⟨e, he, hr, hcause⟩ := (hs.lanes x).issue issue htask
    refine ⟨⟨e, he, hx ▸ hr, hcause⟩, ?_⟩
    intro y hyx f hf
    rcases hs.done issue hdone with hall | hidle
    · have hended := hothers y hyx (hall y)
      by_contra hne
      obtain ⟨r, hr⟩ := Option.ne_none_iff_exists'.mp hne
      rcases (hs.lanes y).failures f hf r hr (by simp [hended]) with h | h
      · simp [hended, Task.pending] at h
      · simp [hended] at h
    · simp [hidle x] at htask

/-- The PnL plant fails while the ticker has a burst in hand, with a failure of its own behind it. -/
def twoFailures : List (Event Nat) :=
  [.serve, .lane .ticker (.next true (.ok [1, 2])), .lane .pnl (.next true (.error (.rithmic "pnl"))),
    .join .pnl, .lane .ticker (.more (.error (.channelClosed "ticker"))), .lane .history .stop,
    .lane .ticker .publish, .lane .ticker .publish, .lane .order .stop, .lane .ticker .publish,
    .lane .ticker .raise, .join .ticker, .join .history, .join .order, .allJoined]

theorem round_loses_nothing_twoFailures :
    ∃ s issue, (machine Nat).Run Machine.Free twoFailures s ∧ s.pump = .done issue ∧
      issue.recovery = .login ∧ (s.lane .ticker).published = [1, 2] := by
  have hexec : ((machine Nat).exec Machine.Free
      { forceReconnect := false, recovering := false, ready := true } twoFailures).map (fun s =>
        (s.pump, (s.lane .ticker).taken, (s.lane .ticker).raised, (s.lane .ticker).task)) =
      some (.done ⟨.login, "rithmic error: pnl"⟩, [1, 2], [.channelClosed "ticker"],
        .ended (some ⟨.plant .ticker, "channel closed: ticker"⟩)) := by decide +kernel
  obtain ⟨s, hexec, hfacts⟩ := Option.map_eq_some_iff.mp hexec
  simp only [Prod.mk.injEq] at hfacts
  obtain ⟨hdone, htaken, hraised, htask⟩ := hfacts
  have hrun : (machine Nat).Run Machine.Free twoFailures s :=
    Machine.run_of_exec ⟨false, false, true, rfl⟩ hexec
  obtain ⟨hpublished, hcovered⟩ := ((round_loses_nothing hrun).2 _ hdone).1 .ticker (by simp [htask])
  refine ⟨s, _, hrun, hdone, ?_, hpublished.trans htaken⟩
  have hticker := hcovered (.channelClosed "ticker") (by simp [hraised]) (.plant .ticker) rfl
  apply hticker.resolve_right
  rintro ⟨h, -⟩
  cases h

end RithmicNt.Host.PumpStreams
