import Mathlib.Data.Finset.Card
import Mathlib.Logic.Function.Basic
import RithmicNt.Lib.Machine

/-! The exit of an idle gateway.  Connections attach and detach under a lock, and a waiter claims the exit
under it once the grace after the last detach has passed.  A step is the code from one lock or await to the
next; time passes as it likes. -/

namespace RithmicNt.Gateway.IdleExit

open RithmicNt.Lib

/-- `IdleExitPolicy`. -/
inductive Policy
  | never
  | after (grace : Nat)
  deriving DecidableEq, Repr

/-- Where a connection is: `checked` has seen the flag down and waits for the lock of `peer_attached`,
`counted` has left it, `attached` has the answer `true`; `leaving` waits for the lock of `peer_detached`,
`uncounted` has left it. -/
inductive Peer
  | absent
  | checked
  | counted
  | attached
  | leaving
  | uncounted
  | gone
  | refused
  deriving DecidableEq, Repr

def Peer.isIn : Peer → Bool
  | .counted | .attached | .leaving => true
  | _ => false

/-- Where `wait_until_should_exit` is: `registered` waits for the lock to read the deadline, `read` has it,
`sleeping` waits for the deadline or a wakeup, `claiming` waits for the lock to claim the exit. -/
inductive Waiter
  | idle
  | pending
  | registered
  | read (deadline : Option Nat)
  | sleeping (deadline : Option Nat)
  | claiming
  | returned
  deriving DecidableEq, Repr

/-- What happened to the peer count. -/
inductive Happening
  | attached (i : Nat)
  | detached (i : Nat)
  deriving DecidableEq, Repr

/-- `notified`: the waiter's registration was woken; `history`: the attaches and detaches with their times,
the newest first. -/
structure State where
  policy : Policy
  now : Nat := 0
  peers : Nat := 0
  armedDeadline : Option Nat := none
  shuttingDown : Bool := false
  notified : Bool := false
  peer : Nat → Peer := fun _ => .absent
  waiter : Waiter := .idle
  history : List (Nat × Happening) := []

inductive Event
  | tick (d : Nat)
  /-- `peer_attached` is called and reads the flag. -/
  | attach (i : Nat)
  | attachLock (i : Nat)
  | attachReturn (i : Nat)
  /-- A call of `peer_attached` is dropped at the lock. -/
  | drop (i : Nat)
  | detach (i : Nat)
  | detachLock (i : Nat)
  | detachReturn (i : Nat)
  | wait
  | readDeadline
  | decide
  | wake
  | claim
  /-- The accept loop drops its waiter for a new connection. -/
  | dropWait
  deriving DecidableEq, Repr

namespace State

variable (s : State)

def put (i : Nat) (p : Peer) : State := { s with peer := Function.update s.peer i p }

/-- The locked part of `peer_attached`. -/
def attachLocked (i : Nat) : State :=
  if s.shuttingDown then s.put i .refused
  else { s.put i .counted with
    peers := s.peers + 1, armedDeadline := none, history := (s.now, .attached i) :: s.history }

/-- The locked part of `peer_detached`. -/
def detachLocked (i : Nat) : State :=
  { s.put i .uncounted with
    peers := s.peers - 1
    armedDeadline :=
      if s.peers - 1 = 0 then
        match s.policy with
        | .after grace => some (s.now + grace)
        | .never => s.armedDeadline
      else s.armedDeadline
    history := (s.now, .detached i) :: s.history }

/-- The top of the waiter's loop. -/
def register : State := { s with waiter := .registered, notified := false }

/-- The locked part of the waiter's claim, with its second look at the count. -/
def claimLocked : State :=
  if s.peers ≠ 0 then { s with armedDeadline := none }.register
  else match s.armedDeadline with
    | some d =>
      if d ≤ s.now then
        let s := { s with armedDeadline := none, shuttingDown := true }
        if s.peers ≠ 0 then { s with shuttingDown := false }.register
        else { s with waiter := .returned }
      else s.register
    | none => s.register

def step : Event → Option State
  | .tick d => some { s with now := s.now + d }
  | .attach i =>
    if s.peer i = .absent then some (s.put i (if s.shuttingDown then .refused else .checked)) else none
  | .attachLock i => if s.peer i = .checked then some (s.attachLocked i) else none
  | .attachReturn i =>
    if s.peer i = .counted then some { s.put i .attached with notified := true } else none
  | .drop i => if s.peer i = .checked then some (s.put i .gone) else none
  | .detach i => if s.peer i = .attached then some (s.put i .leaving) else none
  | .detachLock i => if s.peer i = .leaving then some (s.detachLocked i) else none
  | .detachReturn i =>
    if s.peer i = .uncounted then some { s.put i .gone with notified := true } else none
  | .wait =>
    if s.waiter = .idle then
      some (match s.policy with
        | .never => { s with waiter := .pending }
        | .after _ => s.register)
    else none
  | .readDeadline =>
    if s.waiter = .registered then some { s with waiter := .read s.armedDeadline } else none
  | .decide =>
    match s.waiter with
    | .read none => some { s with waiter := .sleeping none }
    | .read (some d) =>
      some { s with waiter := if s.now < d then .sleeping (some d) else .claiming }
    | _ => none
  | .wake =>
    match s.waiter with
    | .sleeping deadline =>
      if s.notified ∨ ∃ d ∈ deadline, d ≤ s.now then some s.register else none
    | _ => none
  | .claim => if s.waiter = .claiming then some s.claimLocked else none
  | .dropWait => if s.waiter = .returned then none else some { s with waiter := .idle }

end State

def machine (policy : Policy) : Machine State Event where
  Start s := s = { policy }
  step := State.step

/-! ### What the lock guards -/

/-- The newest thing that happened is a detach, a grace ago at `deadline`. -/
def State.DueAt (s : State) (deadline : Nat) : Prop :=
  ∃ grace t i rest, s.policy = .after grace ∧ s.history = (t, .detached i) :: rest ∧
    deadline = t + grace

structure Sound (s : State) : Prop where
  count : ∃ inside : Finset Nat, inside.card = s.peers ∧ ∀ i, i ∈ inside ↔ (s.peer i).isIn = true
  armed : ∀ d, s.armedDeadline = some d → s.peers = 0 ∧ s.DueAt d
  flag : s.shuttingDown = true ↔ s.waiter = .returned
  empty : s.waiter = .returned → s.peers = 0

variable {s t : State} {i : Nat} {p : Peer}

/-- No connection is in where the count is zero. -/
theorem Sound.not_isIn (h : Sound s) (hzero : s.peers = 0) (i : Nat) : (s.peer i).isIn = false := by
  obtain ⟨inside, hcard, hmem⟩ := h.count
  rw [hzero, Finset.card_eq_zero] at hcard
  rw [← Bool.not_eq_true, ← hmem i, hcard]
  exact Finset.notMem_empty i

/-- A step of a connection outside the lock. -/
theorem Sound.put (h : Sound s) (hp : p.isIn = (s.peer i).isIn) : Sound (s.put i p) := by
  refine ⟨?_, h.armed, h.flag, h.empty⟩
  obtain ⟨inside, hcard, hmem⟩ := h.count
  refine ⟨inside, hcard, fun j => ?_⟩
  rw [hmem j]
  by_cases hj : j = i
  · subst hj
    simp [State.put, hp]
  · simp [State.put, Function.update_of_ne hj]

/-- A step of the waiter that leaves the deadline or takes it away. -/
theorem Sound.move (h : Sound s) (hpeers : t.peers = s.peers) (hpeer : t.peer = s.peer)
    (hpolicy : t.policy = s.policy) (hhistory : t.history = s.history)
    (harmed : t.armedDeadline = s.armedDeadline ∨ t.armedDeadline = none)
    (hflag : t.shuttingDown = s.shuttingDown) (hwaiter : s.waiter ≠ .returned)
    (hwaiter' : t.waiter ≠ .returned) : Sound t := by
  refine ⟨by rw [hpeers, hpeer]; exact h.count, fun d hd => ?_, ?_, fun hr => absurd hr hwaiter'⟩
  · rcases harmed with hsame | hnone
    · rw [hpeers, State.DueAt, hpolicy, hhistory]
      exact h.armed d (hsame ▸ hd)
    · rw [hnone] at hd
      cases hd
  · rw [hflag, h.flag]
    exact ⟨fun hr => absurd hr hwaiter, fun hr => absurd hr hwaiter'⟩

theorem Sound.attachLocked (h : Sound s) (hi : s.peer i = .checked) : Sound (s.attachLocked i) := by
  unfold State.attachLocked
  split
  · exact h.put (by rw [hi]; rfl)
  · next hflag =>
    have hwaiter : s.waiter ≠ .returned := fun hr => hflag (h.flag.mpr hr)
    refine ⟨?_, nofun, h.flag, fun hr => absurd hr hwaiter⟩
    obtain ⟨inside, hcard, hmem⟩ := h.count
    have hout : i ∉ inside := by
      rw [hmem i, hi]
      exact nofun
    refine ⟨insert i inside, by rw [Finset.card_insert_of_notMem hout, hcard], fun j => ?_⟩
    rw [Finset.mem_insert, hmem j]
    by_cases hj : j = i
    · subst hj
      simp [State.put, Peer.isIn]
    · simp [State.put, hj]

theorem Sound.detachLocked (h : Sound s) (hi : s.peer i = .leaving) : Sound (s.detachLocked i) := by
  obtain ⟨inside, hcard, hmem⟩ := h.count
  have hin : i ∈ inside := by
    rw [hmem i, hi]
    rfl
  have hpos : 0 < s.peers := hcard ▸ Finset.card_pos.mpr ⟨i, hin⟩
  have hunarmed : s.armedDeadline = none := by
    rw [Option.eq_none_iff_forall_not_mem]
    intro d hd
    have := (h.armed d hd).1
    omega
  have hwaiter : s.waiter ≠ .returned := fun hr => by
    have := h.empty hr
    omega
  refine ⟨?_, fun d hd => ?_, h.flag, fun hr => absurd hr hwaiter⟩
  · refine ⟨inside.erase i, by rw [Finset.card_erase_of_mem hin, hcard]; rfl, fun j => ?_⟩
    rw [Finset.mem_erase, hmem j]
    by_cases hj : j = i
    · subst hj
      simp [State.detachLocked, State.put, Peer.isIn]
    · simp [State.detachLocked, State.put, hj]
  · simp only [State.detachLocked] at hd
    split at hd
    · next hzero =>
      split at hd
      · next grace hpolicy =>
        exact ⟨hzero, grace, s.now, i, s.history, hpolicy, rfl, (Option.some.inj hd).symm⟩
      · rw [hunarmed] at hd
        cases hd
    · rw [hunarmed] at hd
      cases hd

/-- What a claim does: it returns with nobody in and the grace over, or takes the loop from its top. -/
theorem State.claimLocked_cases (s : State) :
    ((s.claimLocked = s.register ∨ s.claimLocked = { s with armedDeadline := none }.register)) ∨
    (∃ d, s.peers = 0 ∧ s.armedDeadline = some d ∧ d ≤ s.now ∧ s.claimLocked =
      { s with armedDeadline := none, shuttingDown := true, waiter := .returned }) := by
  unfold State.claimLocked
  by_cases hpeers : s.peers = 0
  · rw [if_neg (by simp [hpeers])]
    cases harmed : s.armedDeadline with
    | none => exact .inl (.inl rfl)
    | some d =>
      simp only
      by_cases hdue : d ≤ s.now
      · rw [if_pos hdue, if_neg (by simp [hpeers])]
        exact .inr ⟨d, hpeers, rfl, hdue, rfl⟩
      · rw [if_neg hdue]
        exact .inl (.inl rfl)
  · rw [if_pos hpeers]
    exact .inl (.inr rfl)

/-- The waiter's look at the deadline it read moves the waiter alone. -/
theorem State.decide_cases (hstep : s.step .decide = some t) :
    s.waiter ≠ .returned ∧ ∃ w, w ≠ Waiter.returned ∧ { s with waiter := w } = t := by
  simp only [State.step] at hstep
  split at hstep
  · next hread => exact ⟨by simp [hread], .sleeping none, nofun, Option.some.inj hstep⟩
  · next d hread =>
    refine ⟨by simp [hread], _, ?_, Option.some.inj hstep⟩
    split
    · exact nofun
    · exact nofun
  · cases hstep

theorem State.wake_cases (hstep : s.step .wake = some t) :
    s.waiter ≠ .returned ∧ s.register = t := by
  simp only [State.step] at hstep
  split at hstep
  · next hsleep =>
    obtain ⟨-, ht⟩ := Option.ite_none_right_eq_some.mp hstep
    exact ⟨by simp [hsleep], Option.some.inj ht⟩
  · cases hstep

theorem Sound.claimLocked (h : Sound s) (hi : s.waiter = .claiming) : Sound s.claimLocked := by
  have hwaiter : s.waiter ≠ .returned := by simp [hi]
  rcases s.claimLocked_cases with (heq | heq) | ⟨d, hpeers, -, -, heq⟩ <;> rw [heq]
  · exact h.move rfl rfl rfl rfl (.inl rfl) rfl hwaiter nofun
  · exact h.move rfl rfl rfl rfl (.inr rfl) rfl hwaiter nofun
  · exact ⟨h.count, nofun, ⟨fun _ => rfl, fun _ => rfl⟩, fun _ => hpeers⟩

/-- Every step keeps what the lock guards: one case for each place the code can be in. -/
theorem Sound.step {e : Event} (h : Sound s) (hstep : s.step e = some t) : Sound t := by
  cases e with
  | tick d =>
    cases hstep
    exact ⟨h.count, h.armed, h.flag, h.empty⟩
  | attach i =>
    obtain ⟨hi, ht⟩ := Option.ite_none_right_eq_some.mp hstep
    cases ht
    refine h.put ?_
    rw [hi]
    split <;> rfl
  | attachLock i =>
    obtain ⟨hi, ht⟩ := Option.ite_none_right_eq_some.mp hstep
    cases ht
    exact h.attachLocked hi
  | attachReturn i =>
    obtain ⟨hi, ht⟩ := Option.ite_none_right_eq_some.mp hstep
    cases ht
    have hput : Sound (s.put i .attached) := h.put (by rw [hi]; rfl)
    exact ⟨hput.count, hput.armed, hput.flag, hput.empty⟩
  | drop i =>
    obtain ⟨hi, ht⟩ := Option.ite_none_right_eq_some.mp hstep
    cases ht
    exact h.put (by rw [hi]; rfl)
  | detach i =>
    obtain ⟨hi, ht⟩ := Option.ite_none_right_eq_some.mp hstep
    cases ht
    exact h.put (by rw [hi]; rfl)
  | detachLock i =>
    obtain ⟨hi, ht⟩ := Option.ite_none_right_eq_some.mp hstep
    cases ht
    exact h.detachLocked hi
  | detachReturn i =>
    obtain ⟨hi, ht⟩ := Option.ite_none_right_eq_some.mp hstep
    cases ht
    have hput : Sound (s.put i .gone) := h.put (by rw [hi]; rfl)
    exact ⟨hput.count, hput.armed, hput.flag, hput.empty⟩
  | wait =>
    obtain ⟨hi, ht⟩ := Option.ite_none_right_eq_some.mp hstep
    cases ht
    have hwaiter : s.waiter ≠ .returned := by simp [hi]
    split
    · exact h.move rfl rfl rfl rfl (.inl rfl) rfl hwaiter nofun
    · exact h.move rfl rfl rfl rfl (.inl rfl) rfl hwaiter nofun
  | readDeadline =>
    obtain ⟨hi, ht⟩ := Option.ite_none_right_eq_some.mp hstep
    cases ht
    exact h.move rfl rfl rfl rfl (.inl rfl) rfl (by simp [hi]) nofun
  | decide =>
    obtain ⟨hi, w, hw, ht⟩ := State.decide_cases hstep
    cases ht
    exact h.move rfl rfl rfl rfl (.inl rfl) rfl hi hw
  | wake =>
    obtain ⟨hi, ht⟩ := State.wake_cases hstep
    cases ht
    exact h.move rfl rfl rfl rfl (.inl rfl) rfl hi nofun
  | claim =>
    obtain ⟨hi, ht⟩ := Option.ite_none_right_eq_some.mp hstep
    cases ht
    exact h.claimLocked hi
  | dropWait =>
    obtain ⟨hi, ht⟩ := Option.ite_none_left_eq_some.mp hstep
    cases ht
    exact h.move rfl rfl rfl rfl (.inl rfl) rfl hi nofun

theorem sound_of_run {policy : Policy} {trace : List Event}
    (hrun : (machine policy).Run Machine.Free trace s) : Sound s := by
  refine hrun.invariant (fun s hs => ?_) (fun s e t h _ hstep => h.step hstep)
  cases hs
  exact ⟨⟨∅, rfl, by simp [Peer.isIn]⟩, nofun, by simp, nofun⟩

/-! ### The exit -/

/-- Nobody is in, the count is zero and the waiter has returned. -/
structure Exited (s : State) : Prop where
  returned : s.waiter = .returned
  peers : s.peers = 0
  out : ∀ i, (s.peer i).isIn = false

theorem Sound.exited (h : Sound s) (hr : s.waiter = .returned) : Exited s :=
  ⟨hr, h.empty hr, h.not_isIn (h.empty hr)⟩

/-- A step leaves the policy, and leaves the waiter where it is or moves one that has not returned; only the
claim returns. -/
theorem State.step_frame {e : Event} (hstep : s.step e = some t) :
    t.policy = s.policy ∧
    (t.waiter = s.waiter ∨
      (s.waiter ≠ .returned ∧ (t.waiter ≠ .returned ∨ e = .claim ∧ s.claimLocked = t))) := by
  cases e with
  | tick d =>
    cases hstep
    exact ⟨rfl, .inl rfl⟩
  | attachLock i =>
    obtain ⟨-, ht⟩ := Option.ite_none_right_eq_some.mp hstep
    rw [← Option.some.inj ht, State.attachLocked]
    split
    · exact ⟨rfl, .inl rfl⟩
    · exact ⟨rfl, .inl rfl⟩
  | attach i | attachReturn i | drop i | detach i | detachLock i | detachReturn i =>
    obtain ⟨-, ht⟩ := Option.ite_none_right_eq_some.mp hstep
    cases ht
    exact ⟨rfl, .inl rfl⟩
  | wait =>
    obtain ⟨hi, ht⟩ := Option.ite_none_right_eq_some.mp hstep
    cases ht
    have hwaiter : s.waiter ≠ .returned := by simp [hi]
    split
    · exact ⟨rfl, .inr ⟨hwaiter, .inl nofun⟩⟩
    · exact ⟨rfl, .inr ⟨hwaiter, .inl nofun⟩⟩
  | readDeadline =>
    obtain ⟨hi, ht⟩ := Option.ite_none_right_eq_some.mp hstep
    cases ht
    exact ⟨rfl, .inr ⟨by simp [hi], .inl nofun⟩⟩
  | decide =>
    obtain ⟨hi, w, hw, ht⟩ := State.decide_cases hstep
    cases ht
    exact ⟨rfl, .inr ⟨hi, .inl hw⟩⟩
  | wake =>
    obtain ⟨hi, ht⟩ := State.wake_cases hstep
    cases ht
    exact ⟨rfl, .inr ⟨hi, .inl nofun⟩⟩
  | claim =>
    obtain ⟨hi, ht⟩ := Option.ite_none_right_eq_some.mp hstep
    refine ⟨?_, .inr ⟨by simp [hi], .inr ⟨rfl, Option.some.inj ht⟩⟩⟩
    rw [← Option.some.inj ht]
    rcases s.claimLocked_cases with (heq | heq) | ⟨d, -, -, -, heq⟩ <;> rw [heq] <;> rfl
  | dropWait =>
    obtain ⟨hi, ht⟩ := Option.ite_none_left_eq_some.mp hstep
    cases ht
    exact ⟨rfl, .inr ⟨hi, .inl nofun⟩⟩

theorem policy_of_run {policy : Policy} {trace : List Event}
    (hrun : (machine policy).Run Machine.Free trace s) : s.policy = policy := by
  refine hrun.invariant (I := fun s => s.policy = policy) (fun s hs => ?_) (fun s e t h _ hstep => ?_)
  · cases hs
    rfl
  · rw [(State.step_frame hstep).1, h]

/-- The waiter returns through its claim alone, a grace after the last detach. -/
theorem Sound.due_of_returned {e : Event} (h : Sound s) (hstep : s.step e = some t)
    (hr : s.waiter ≠ .returned) (hr' : t.waiter = .returned) :
    e = .claim ∧ ∃ deadline, t.DueAt deadline ∧ deadline ≤ t.now := by
  rcases (State.step_frame hstep).2 with hsame | ⟨-, hnot | ⟨he, hclaim⟩⟩
  · exact absurd (hsame ▸ hr') hr
  · exact absurd hr' hnot
  · refine ⟨he, ?_⟩
    rcases s.claimLocked_cases with (heq | heq) | ⟨d, -, harmed, hdue, heq⟩
    · rw [← hclaim, heq] at hr'
      cases hr'
    · rw [← hclaim, heq] at hr'
      cases hr'
    · rw [← hclaim, heq]
      exact ⟨d, (h.armed d harmed).2, hdue⟩

/-- A waiter that has returned stays so. -/
theorem exec_exited {policy : Policy} {rest : List Event} (h : Sound s) (hr : s.waiter = .returned)
    (he : (machine policy).exec Machine.Free s rest = some t) : Exited t := by
  induction rest generalizing s with
  | nil =>
    cases he
    exact h.exited hr
  | cons e rest ih =>
    simp only [Machine.exec, if_true] at he
    obtain ⟨u, hu, hrest⟩ := Option.bind_eq_some_iff.mp he
    have hu' : u.waiter = .returned := by
      rcases (State.step_frame hu).2 with hsame | ⟨hnot, -⟩
      · rw [hsame, hr]
      · exact absurd hr hnot
    exact ih (h.step hu) hu' hrest

/-- In every run, the exit is taken by the claim alone, with nobody in and with the grace over since the
newest happening, a detach.  From then on the gateway is empty, and no `peer_attached`, begun before or
after, comes back with `true`. -/
theorem idle_exit_final {policy : Policy} {trace : List Event}
    (hrun : (machine policy).Run Machine.Free trace s) :
    (∀ e t, s.step e = some t → s.waiter ≠ .returned → t.waiter = .returned →
      e = .claim ∧ Exited t ∧ ∃ grace time i rest, policy = .after grace ∧
        t.history = (time, .detached i) :: rest ∧ time + grace ≤ t.now) ∧
    (s.waiter = .returned → ∀ rest t, (machine policy).exec Machine.Free s rest = some t →
      Exited t ∧ ∀ i, t.step (.attachReturn i) = none) := by
  have hsound := sound_of_run hrun
  have hpolicy : s.policy = policy := policy_of_run hrun
  refine ⟨fun e t hstep hr hr' => ?_, fun hr rest t he => ?_⟩
  · obtain ⟨hclaim, d, ⟨grace, time, i, rest, hgrace, hhistory, rfl⟩, hdue⟩ :=
      hsound.due_of_returned hstep hr hr'
    refine ⟨hclaim, (hsound.step hstep).exited hr', grace, time, i, rest, ?_, hhistory, hdue⟩
    rw [← hgrace, (State.step_frame hstep).1, hpolicy]
  · have hexited := exec_exited hsound hr he
    refine ⟨hexited, fun i => if_neg fun hi => ?_⟩
    have hout := hexited.out i
    rw [hi] at hout
    cases hout

/-- A connection comes and goes, and the waiter, asleep since before, takes the exit five seconds on. -/
theorem idle_exit_final_once :
    ∃ trace s, (machine (.after 5)).Run Machine.Free trace s ∧
      (s.waiter = .returned → Exited s) ∧ s.waiter = .returned := by
  let trace : List Event :=
    [.wait, .readDeadline, .decide, .attach 0, .attachLock 0, .attachReturn 0, .wake, .readDeadline,
      .decide, .detach 0, .detachLock 0, .detachReturn 0, .wake, .readDeadline, .decide, .tick 5, .wake,
      .readDeadline, .decide, .claim]
  have hexec : ∃ s, (machine (.after 5)).exec Machine.Free { policy := .after 5 } trace = some s ∧
      s.waiter = .returned := ⟨_, rfl, rfl⟩
  obtain ⟨s, he, hr⟩ := hexec
  have hrun := Machine.run_of_exec (M := machine (.after 5)) rfl he
  exact ⟨trace, s, hrun, fun hr => ((idle_exit_final hrun).2 hr [] s rfl).1, hr⟩

end RithmicNt.Gateway.IdleExit
