import RithmicNt.Lib.Machine

/-! `TransportRecoveryBridge`: session events arrive on the transport thread of an attachment, hop
onto the client's loop as queued callbacks, and start, delay or stop one restore task.  Each step
below is one delivery on the transport thread, one loop callback, one call of `attach` or `detach`,
or the code of a restore task between two awaits. -/

namespace RithmicNt.Adapter.Bridge

open RithmicNt.Lib

inductive SessionEvent
  | interrupted
  | resumed (generation : Nat)
  | recoveryFailed
  deriving DecidableEq, Repr

/-- `Interrupted` and `RecoveryFailed` stop a restore; `Resumed` asks for one. -/
def SessionEvent.isBreak : SessionEvent → Bool
  | .interrupted | .recoveryFailed => true
  | .resumed _ => false

def SessionEvent.generation : SessionEvent → Nat
  | .resumed generation => generation
  | .interrupted | .recoveryFailed => 0

/-- What `get_loop` answers: a loop that runs callbacks, none, or one that is closed. -/
inductive Loop
  | running
  | missing
  | closed
  deriving DecidableEq, Repr

/-- Where the task of `_run` is: not yet started, inside `restore(generation, attempt)`, asleep after
a failed attempt, returned, or cancelled.  A cancelled task runs no more code of the bridge. -/
inductive Phase
  | created (generation : Nat)
  | restoring (generation attempt : Nat)
  | backoff (generation attempt : Nat)
  | done
  | cancelled
  deriving DecidableEq, Repr

/-- The generation of a task that is neither done nor cancelled. -/
def Phase.generation : Phase → Option Nat
  | .created g | .restoring g _ | .backoff g _ => some g
  | .done | .cancelled => none

/-- The fields of the bridge, the events on their way to the loop, and a record of the current
attachment: the events received and handled on it, and the generations restored or given up. -/
structure State where
  attachment : Option Nat := none
  nextAttachment : Nat := 0
  /-- Calls of `on_event` in progress, at most one for each attachment. -/
  delivering : List (Nat × SessionEvent) := []
  /-- The callbacks that the loop has yet to run, oldest first. -/
  queue : List (Nat × SessionEvent) := []
  /-- Every restore task spawned so far. -/
  tasks : List Phase := []
  task : Option Nat := none
  pendingGeneration : Nat := 0
  lastGeneration : Nat := 0
  received : List SessionEvent := []
  handled : List SessionEvent := []
  succeeded : List Nat := []
  spent : List Nat := []
  /-- The generation whose `restore` the last step started. -/
  started : Option Nat := none
  deriving DecidableEq, Repr

inductive Event
  | attach
  | detach
  /-- The transport thread of the current attachment enters `on_event`. -/
  | deliver (event : SessionEvent)
  /-- A call of `on_event` hops onto the loop. -/
  | hop (attachment : Nat) (loop : Loop)
  | runCallback
  | runTask (i : Nat)
  | restored (i : Nat) (ok : Bool)
  | wake (i : Nat)
  deriving DecidableEq, Repr

namespace State

/-- The generation of `self.task`, when it is set and not done. -/
def running (s : State) : Option Nat :=
  s.task.bind fun i => s.tasks[i]?.bind Phase.generation

def cancelTask (s : State) : State :=
  match s.task with
  | none => s
  | some i => { s with task := none, tasks := s.tasks.set i .cancelled }

def setPhase (s : State) (i : Nat) (phase : Phase) : State :=
  { s with tasks := s.tasks.set i phase }

def forgetRecord (s : State) : State :=
  { s with received := [], handled := [], succeeded := [], spent := [] }

def attach (s : State) : State :=
  { s.forgetRecord with
    attachment := some s.nextAttachment
    nextAttachment := s.nextAttachment + 1 }

def detach (s : State) : State :=
  let s := if s.running.isSome then s.cancelTask else { s with task := none }
  { s.forgetRecord with attachment := none, pendingGeneration := 0, lastGeneration := 0 }

/-- `_stop_restore`: a break invalidates any older re-arm, even one still queued. -/
def stopRestore (s : State) : State :=
  let s := { s with pendingGeneration := 0 }
  if s.running.isSome then s.cancelTask else s

/-- `_start`, the callback of `schedule`. -/
def start (s : State) (generation : Nat) : State :=
  if generation ≤ s.lastGeneration then s
  else if s.running.isSome then
    { s with pendingGeneration := max s.pendingGeneration generation }
  else
    { s with tasks := s.tasks ++ [Phase.created generation], task := some s.tasks.length }

def handle (s : State) : SessionEvent → State
  | .resumed generation => s.start generation
  | .interrupted | .recoveryFailed => s.stopRestore

def callRestore (s : State) (i generation attempt : Nat) : State :=
  { s.setPhase i (.restoring generation attempt) with started := some generation }

/-- The end of the body of `_run`'s loop: the pending generation, if it is newer, is next. -/
def nextGeneration (s : State) (i generation : Nat) : State :=
  let pending := s.pendingGeneration
  let s := { s with pendingGeneration := 0 }
  if pending ≤ max generation s.lastGeneration then s.setPhase i .done
  else s.callRestore i pending 1

/-- The record of an event that a callback of attachment `a` handled. -/
def noteHandled (s : State) (a : Nat) (event : SessionEvent) : State :=
  if s.attachment = some a then { s with handled := s.handled ++ [event] } else s

end State

/-- `max_attempts`, which both clients leave at its default. -/
def maxAttempts : Nat := 5

def step (s : State) (event : Event) : Option State :=
  let s : State := { s with started := none }
  match event with
  | .attach => some s.attach
  | .detach => some s.detach
  | .deliver event =>
    match s.attachment with
    | none => none
    | some a =>
      if s.delivering.any (·.1 == a) then none
      else some { s with
        received := s.received ++ [event], delivering := s.delivering ++ [(a, event)] }
  | .hop a loop =>
    match s.delivering.find? (·.1 == a) with
    | none => none
    | some (_, event) =>
      let s : State := { s with delivering := s.delivering.filter (·.1 != a) }
      match loop with
      | .running => some { s with queue := s.queue ++ [(a, event)] }
      | .closed => some s
      | .missing =>
        -- Without a loop a break is handled inline and a `Resumed` is dropped.
        if event.isBreak then some ((s.handle event).noteHandled a event) else some s
  | .runCallback =>
    match s.queue with
    | [] => none
    | (a, event) :: rest =>
      some ((({ s with queue := rest } : State).handle event).noteHandled a event)
  | .runTask i =>
    match s.tasks[i]? with
    | some (.created g) =>
      if s.lastGeneration < g then some (s.callRestore i g 1) else some (s.nextGeneration i g)
    | _ => none
  | .restored i ok =>
    match s.tasks[i]? with
    | some (.restoring g attempt) =>
      if ok then
        some ({ s with lastGeneration := g, succeeded := s.succeeded ++ [g] }.nextGeneration i g)
      else if attempt < maxAttempts then some (s.setPhase i (.backoff g attempt))
      else some ({ s with spent := s.spent ++ [g] }.nextGeneration i g)
    | _ => none
  | .wake i =>
    match s.tasks[i]? with
    | some (.backoff g attempt) => some (s.callRestore i g (attempt + 1))
    | _ => none

/-- A bridge from its construction on. -/
def machine : Machine State Event where
  Start s := s = {}
  step := step

/-- Everything that a step can do, from the state in which no `restore` was started yet. -/
inductive Step (s : State) : Event → State → Prop
  | attach : Step s .attach s.attach
  | detach : Step s .detach s.detach
  | deliver {a : Nat} (e : SessionEvent) (hatt : s.attachment = some a)
      (hnone : s.delivering.any (·.1 == a) = false) : Step s (.deliver e)
      { s with received := s.received ++ [e], delivering := s.delivering ++ [(a, e)] }
  | hop {a : Nat} {x : Nat × SessionEvent} (hx : s.delivering.find? (·.1 == a) = some x) :
      Step s (.hop a .running)
        { s with delivering := s.delivering.filter (·.1 != a), queue := s.queue ++ [(a, x.2)] }
  | lost (a : Nat) {loop : Loop} (hloop : loop ≠ .running) : Step s (.hop a loop)
      { s with delivering := s.delivering.filter (·.1 != a) }
  | inline (a : Nat) {loop : Loop} (e : SessionEvent) (hloop : loop ≠ .running) : Step s (.hop a loop)
      ((({ s with delivering := s.delivering.filter (·.1 != a) } : State).handle e).noteHandled a e)
  | runCallback {a : Nat} {e : SessionEvent} {rest : List (Nat × SessionEvent)}
      (hqueue : s.queue = (a, e) :: rest) : Step s .runCallback
      ((({ s with queue := rest } : State).handle e).noteHandled a e)
  | runTask {i g : Nat} (hi : s.tasks[i]? = some (.created g)) (hlt : s.lastGeneration < g) :
      Step s (.runTask i) (s.callRestore i g 1)
  | skipTask {i g : Nat} (hi : s.tasks[i]? = some (.created g)) (hle : g ≤ s.lastGeneration) :
      Step s (.runTask i) (s.nextGeneration i g)
  | succeeds {i g attempt : Nat} (hi : s.tasks[i]? = some (.restoring g attempt)) :
      Step s (.restored i true)
        ({ s with lastGeneration := g, succeeded := s.succeeded ++ [g] }.nextGeneration i g)
  | fails {i g attempt : Nat} (hi : s.tasks[i]? = some (.restoring g attempt)) :
      Step s (.restored i false) (s.setPhase i (.backoff g attempt))
  | givesUp {i g attempt : Nat} (hi : s.tasks[i]? = some (.restoring g attempt)) :
      Step s (.restored i false) ({ s with spent := s.spent ++ [g] }.nextGeneration i g)
  | wake {i g attempt : Nat} (hi : s.tasks[i]? = some (.backoff g attempt)) :
      Step s (.wake i) (s.callRestore i g (attempt + 1))

theorem step_cases {s t : State} {event : Event} (h : step s event = some t) :
    Step { s with started := none } event t := by
  unfold step at h
  generalize ({ s with started := none } : State) = s' at h ⊢
  dsimp only at h
  cases event with
  | attach =>
    obtain rfl := Option.some.inj h
    exact .attach
  | detach =>
    obtain rfl := Option.some.inj h
    exact .detach
  | deliver e =>
    dsimp only at h
    split at h
    · cases h
    · next a hatt =>
      split at h
      · cases h
      · next hnone =>
        obtain rfl := Option.some.inj h
        exact .deliver e hatt (Bool.eq_false_iff.mpr hnone)
  | hop a loop =>
    dsimp only at h
    split at h
    · cases h
    · next _ event hx =>
      cases loop with
      | running =>
        obtain rfl := Option.some.inj h
        exact .hop hx
      | closed =>
        obtain rfl := Option.some.inj h
        exact .lost a (by decide)
      | missing =>
        dsimp only at h
        split at h
        · obtain rfl := Option.some.inj h
          exact .inline a event (by decide)
        · obtain rfl := Option.some.inj h
          exact .lost a (by decide)
  | runCallback =>
    dsimp only at h
    split at h
    · cases h
    · next hqueue =>
      obtain rfl := Option.some.inj h
      exact .runCallback hqueue
  | runTask i =>
    dsimp only at h
    split at h
    · next g hi =>
      split at h
      · next hlt =>
        obtain rfl := Option.some.inj h
        exact .runTask hi hlt
      · next hle =>
        obtain rfl := Option.some.inj h
        exact .skipTask hi (Nat.not_lt.mp hle)
    · cases h
  | restored i ok =>
    dsimp only at h
    split at h
    · next g attempt hi =>
      cases ok with
      | true =>
        obtain rfl := Option.some.inj h
        exact .succeeds hi
      | false =>
        rw [if_neg Bool.false_ne_true] at h
        split at h
        · obtain rfl := Option.some.inj h
          exact .fails hi
        · obtain rfl := Option.some.inj h
          exact .givesUp hi
    · cases h
  | wake i =>
    dsimp only at h
    split at h
    · next g attempt hi =>
      obtain rfl := Option.some.inj h
      exact .wake hi
    · cases h

/-! ### What the bridge promises -/

/-- Every task that is neither done nor cancelled is `self.task`. -/
def Owned (s : State) : Prop :=
  ∀ i phase, s.tasks[i]? = some phase → phase.generation.isSome → s.task = some i

/-- `Resumed(g)` was handled, and no break was handled after it. -/
def Unbroken (handled : List SessionEvent) (g : Nat) : Prop :=
  ∃ before after, handled = before ++ SessionEvent.resumed g :: after ∧
    ∀ e ∈ after, e.isBreak = false

/-- The restore of `g` succeeded, runs, waits behind the one that runs, or spent its attempts. -/
def Served (s : State) (g : Nat) : Prop :=
  g ∈ s.succeeded ∨ s.running = some g ∨ (s.pendingGeneration = g ∧ s.running.isSome) ∨ g ∈ s.spent

/-- The steps under which the bridge keeps its promises: it attaches only when detached, generations
do not decrease within an attachment, events hop onto a running loop, and a callback runs only while
the attachment that queued it is the current one. -/
def Orderly (s : State) : Event → Prop
  | .attach => s.attachment = none
  | .deliver (.resumed g) => 0 < g ∧ ∀ e ∈ s.received, e.generation ≤ g
  | .hop _ loop => loop = .running
  | .runCallback => ∀ a ∈ s.queue.head?, s.attachment = some a.1
  | _ => True

instance (s : State) (event : Event) : Decidable (Orderly s event) := by
  unfold Orderly
  split <;> infer_instance

/-! ### Tasks -/

theorem Owned.running {s : State} (h : Owned s) {i : Nat} {phase : Phase} {g : Nat}
    (hi : s.tasks[i]? = some phase) (hg : phase.generation = some g) :
    s.task = some i ∧ s.running = some g := by
  have htask := h i phase hi (by simp [hg])
  exact ⟨htask, by simp [State.running, htask, hi, hg]⟩

theorem Owned.setPhase {s : State} (h : Owned s) {i : Nat} (htask : s.task = some i)
    (phase : Phase) : Owned (s.setPhase i phase) := by
  intro j q hj hq
  by_cases hij : i = j
  · exact hij ▸ htask
  · have hj' : s.tasks[j]? = some q := by simpa [State.setPhase, List.getElem?_set, hij] using hj
    exact h j q hj' hq

theorem running_setPhase {s : State} {i : Nat} {old : Phase} (htask : s.task = some i)
    (hi : s.tasks[i]? = some old) (phase : Phase) :
    (s.setPhase i phase).running = phase.generation := by
  have hlt : i < s.tasks.length := (List.getElem?_eq_some_iff.mp hi).1
  simp [State.running, State.setPhase, htask, hlt]

theorem Owned.cancelTask {s : State} (h : Owned s) :
    Owned s.cancelTask ∧ s.cancelTask.running = none := by
  unfold State.cancelTask
  split
  · next hnone => exact ⟨h, by simp [State.running, hnone]⟩
  · next i hi =>
    refine ⟨fun j q hj hq => ?_, by simp [State.running]⟩
    by_cases hij : i = j
    · subst hij
      rw [List.getElem?_set] at hj
      split at hj
      · split at hj
        · cases hj
          simp [Phase.generation] at hq
        · cases hj
      · exact absurd rfl ‹_›
    · have hj' : s.tasks[j]? = some q := by simpa [List.getElem?_set, hij] using hj
      have := hi.symm.trans (h j q hj' hq)
      exact absurd (Option.some.inj this) hij

theorem Owned.of_tasks {s t : State} (h : Owned s) (htasks : t.tasks = s.tasks)
    (htask : t.task = s.task) : Owned t := by
  intro i phase hi hg
  rw [htask]
  exact h i phase (htasks ▸ hi) hg

theorem running_congr {s t : State} (htasks : t.tasks = s.tasks) (htask : t.task = s.task) :
    t.running = s.running := by
  simp [State.running, htasks, htask]

theorem Owned.spawn {s t : State} (h : Owned s) (hrun : s.running = none) (g : Nat)
    (htasks : t.tasks = s.tasks ++ [Phase.created g]) (htask : t.task = some s.tasks.length) :
    Owned t ∧ t.running = some g := by
  refine ⟨fun i phase hi hg => ?_, by simp [State.running, htasks, htask, Phase.generation]⟩
  rw [htasks, List.getElem?_append] at hi
  split at hi
  · obtain ⟨g', hg'⟩ := Option.isSome_iff_exists.mp hg
    have := (h.running hi hg').2
    simp [hrun] at this
  · next hlt =>
    have hi0 : i - s.tasks.length = 0 := by
      by_contra hne
      rw [List.getElem?_eq_none (by simp; omega)] at hi
      cases hi
    rw [htask, show i = s.tasks.length by omega]

theorem Owned.nextGeneration {s : State} (h : Owned s) {i g : Nat} {phase : Phase}
    (hi : s.tasks[i]? = some phase) (hg : phase.generation = some g) :
    Owned (s.nextGeneration i g) := by
  obtain ⟨htask, -⟩ := h.running hi hg
  have h0 : Owned { s with pendingGeneration := 0 } := h.of_tasks rfl rfl
  unfold State.nextGeneration
  dsimp only
  split
  · exact h0.setPhase htask _
  · exact (h0.setPhase htask _).of_tasks rfl rfl

theorem Owned.stopRestore {s : State} (h : Owned s) : Owned s.stopRestore := by
  have h0 : Owned { s with pendingGeneration := 0 } := h.of_tasks rfl rfl
  unfold State.stopRestore
  dsimp only
  split
  · exact h0.cancelTask.1
  · exact h0

theorem Owned.handle {s : State} (h : Owned s) (e : SessionEvent) : Owned (s.handle e) := by
  cases e with
  | interrupted => exact h.stopRestore
  | recoveryFailed => exact h.stopRestore
  | resumed g =>
    show Owned (s.start g)
    unfold State.start
    split
    · exact h
    · split
      · exact h.of_tasks rfl rfl
      · next hrun => exact (h.spawn (by simpa using hrun) g rfl rfl).1

theorem Owned.noteHandled {s : State} (h : Owned s) (a : Nat) (e : SessionEvent) :
    Owned (s.noteHandled a e) := by
  unfold State.noteHandled
  split
  · exact h.of_tasks rfl rfl
  · exact h

theorem Owned.detach {s : State} (h : Owned s) : Owned s.detach ∧ s.detach.running = none := by
  unfold State.detach
  dsimp only
  split
  · exact ⟨h.cancelTask.1.of_tasks rfl rfl, (running_congr rfl rfl).trans h.cancelTask.2⟩
  · next hrun =>
    refine ⟨fun i phase hi hg => ?_, rfl⟩
    obtain ⟨g, hg⟩ := Option.isSome_iff_exists.mp hg
    have := (h.running hi hg).2
    simp [this] at hrun

theorem step_owned {s t : State} {event : Event} (h : Owned s) (hstep : step s event = some t) :
    Owned t := by
  have hs : Owned { s with started := none } := h.of_tasks rfl rfl
  cases step_cases hstep with
  | attach => exact hs.of_tasks rfl rfl
  | detach => exact hs.detach.1
  | deliver => exact hs.of_tasks rfl rfl
  | hop => exact hs.of_tasks rfl rfl
  | lost => exact hs.of_tasks rfl rfl
  | inline a e =>
    refine Owned.noteHandled (Owned.handle ?_ e) a e
    exact hs.of_tasks rfl rfl
  | runCallback =>
    refine Owned.noteHandled (Owned.handle ?_ _) _ _
    exact hs.of_tasks rfl rfl
  | runTask hi => exact (hs.setPhase (hs.running hi rfl).1 _).of_tasks rfl rfl
  | skipTask hi => exact hs.nextGeneration hi rfl
  | succeeds hi =>
    refine Owned.nextGeneration ?_ hi rfl
    exact hs.of_tasks rfl rfl
  | fails hi => exact hs.setPhase (hs.running hi rfl).1 _
  | givesUp hi =>
    refine Owned.nextGeneration ?_ hi rfl
    exact hs.of_tasks rfl rfl
  | wake hi => exact (hs.setPhase (hs.running hi rfl).1 _).of_tasks rfl rfl

/-- In every run, whatever the order of its steps, at most one restore task is neither done nor
cancelled. -/
theorem run_owned {trace : List Event} {s : State} (h : machine.Run Machine.Free trace s) :
    Owned s := by
  refine h.invariant (I := Owned) ?_ fun _ _ _ ho _ => step_owned ho
  rintro _ rfl i phase hi -
  simp at hi

end RithmicNt.Adapter.Bridge
