import RithmicNt.Exec.Plant
import RithmicNt.Lib.Machine

/-! The re-arm barriers of the execution client.  A cold connect, a transport restore and an order
gap each enter `connecting`, read the working orders, pass the PnL gate and call `rearm`.  Each step
below is the code of one barrier between two awaits, or one event of the rest of the client. -/

namespace RithmicNt.Adapter.Rearm

open RithmicNt.Exec RithmicNt.Lib

/-- The three callers of `_rearm_after_reconnect`. -/
inductive Kind
  /-- `_connect_attempt`. -/
  | coldConnect
  /-- `_restore_plants_after_transport_up`, run by the recovery bridge. -/
  | transportRestore
  /-- `_recover_order_gap`, run by the order poller. -/
  | orderGap
  deriving DecidableEq, Repr

/-- Where a barrier awaits.  `began` is the step at which its working-orders drain began. -/
inductive Phase
  | subscribing
  | draining (began : Nat)
  | gated (began : Nat)
  deriving DecidableEq, Repr

structure Barrier where
  id : Nat
  kind : Kind
  phase : Phase
  deriving DecidableEq, Repr

def Barrier.began (b : Barrier) : Option Nat :=
  match b.phase with
  | .subscribing => none
  | .draining began | .gated began => some began

/-- The plant, the barriers in flight, the number of steps taken, and the step of the most recent
latch, resync start or disconnect. -/
structure State where
  plant : PlantPolicy := {}
  barriers : List Barrier := []
  nextId : Nat := 0
  now : Nat := 0
  lastBreak : Nat := 0
  deriving DecidableEq, Repr

inductive Event
  | beginConnect (kind : Kind)
  | drainStart (i : Nat)
  | drainEnd (i : Nat)
  | rearm (i : Nat) (pollAlive : Bool)
  | fail (i : Nat)
  /-- The task of the barrier ends at its await without touching the plant. -/
  | cancel (i : Nat)
  | latch
  | resyncStart
  | resyncComplete
  | resyncFailed
  | disconnect
  deriving DecidableEq, Repr

namespace State

def barrier? (s : State) (i : Nat) : Option Barrier := s.barriers.find? (·.id == i)

def setPhase (s : State) (i : Nat) (phase : Phase) : State :=
  { s with barriers := s.barriers.map fun b => if b.id = i then { b with phase } else b }

def remove (s : State) (i : Nat) : State :=
  { s with barriers := s.barriers.filter (·.id != i) }

def tick (s : State) : State := { s with now := s.now + 1 }

def break_ (s : State) (plant : PlantPolicy) : State := { s with plant, lastBreak := s.now }

/-- The first step of a barrier.  A gap recovery calls `load_orders` in the same step as
`begin_connect`; the other two re-subscribe first. -/
def begin_ (s : State) (kind : Kind) : State :=
  let phase : Phase := if kind = .orderGap then .draining s.now else .subscribing
  { s with
    plant := s.plant.beginConnect
    barriers := s.barriers ++ [⟨s.nextId, kind, phase⟩]
    nextId := s.nextId + 1 }

/-- What the caller of a barrier does to the plant when the barrier raises: a cold connect tears the
plant down if it was subscribing and latches otherwise, the recovery bridge latches, and the order
poller runs `resync_failed`. -/
def onRaise (s : State) (kind : Kind) (phase : Phase) : State :=
  match kind, phase with
  | .coldConnect, .subscribing => s.break_ s.plant.disconnect
  | .coldConnect, _ => s.break_ s.plant.latch
  | .transportRestore, _ => s.break_ s.plant.latch
  | .orderGap, _ => { s with plant := s.plant.resyncFailed }

/-- The last step of a barrier.  A refused re-arm is logged by a cold connect and raised by the other
two; a gap recovery passes `poll_alive=True`. -/
def rearm (s : State) (b : Barrier) (pollAlive : Bool) : State :=
  let result := s.plant.rearm (if b.kind = .orderGap then true else pollAlive)
  let after := { s with plant := result.1 }.remove b.id
  if result.2 = false ∧ b.kind ≠ .coldConnect then after.onRaise b.kind b.phase else after

end State

/-- One step.  Steps are numbered from 1. -/
def step (s : State) (event : Event) : Option State :=
  let s := s.tick
  match event with
  | .beginConnect kind => some (s.begin_ kind)
  | .drainStart i =>
    match s.barrier? i with
    | some ⟨_, _, .subscribing⟩ => some (s.setPhase i (.draining s.now))
    | _ => none
  | .drainEnd i =>
    match s.barrier? i with
    | some ⟨_, _, .draining began⟩ => some (s.setPhase i (.gated began))
    | _ => none
  | .rearm i pollAlive =>
    match s.barrier? i with
    | some ⟨id, kind, .gated began⟩ => some (s.rearm ⟨id, kind, .gated began⟩ pollAlive)
    | _ => none
  | .fail i => (s.barrier? i).map fun b => (s.remove i).onRaise b.kind b.phase
  | .cancel i => (s.barrier? i).map fun _ => s.remove i
  | .latch => some (s.break_ s.plant.latch)
  | .resyncStart => some (s.break_ s.plant.resyncStart)
  | .resyncComplete => some { s with plant := s.plant.resyncComplete }
  | .resyncFailed => some { s with plant := s.plant.resyncFailed }
  | .disconnect => some (s.break_ s.plant.disconnect)

def machine : Machine State Event where
  Start s := s = {}
  step := step

/-- The drain of barrier `i` began after the most recent latch, resync start or disconnect. -/
def DrainIsFresh (s : State) (i : Nat) : Prop :=
  ∃ b ∈ s.barriers, b.id = i ∧ ∃ began, b.began = some began ∧ s.lastBreak < began

/-- No barrier in flight has a drain that predates the most recent latch, resync start or
disconnect. -/
def NoStaleDrain (s : State) : Prop :=
  ∀ b ∈ s.barriers, ∀ began ∈ b.began, s.lastBreak < began

instance (s : State) : Decidable (NoStaleDrain s) :=
  inferInstanceAs (Decidable (∀ b ∈ s.barriers, ∀ began ∈ b.began, s.lastBreak < began))

/-- A barrier begins only while no other one holds a stale drain. -/
def BeginsAlone (s : State) : Event → Prop
  | .beginConnect _ => NoStaleDrain s
  | _ => True

instance (s : State) (event : Event) : Decidable (BeginsAlone s event) := by
  unfold BeginsAlone
  split <;> infer_instance

/-! ### The invariant -/

/-- While the plant is in the barrier, no drain in flight is stale, and no break is in the
future. -/
structure Inv (s : State) : Prop where
  fresh : s.plant.state = .connecting → NoStaleDrain s
  past : s.lastBreak ≤ s.now

theorem Inv.of_not_connecting {s : State} (hne : s.plant.state ≠ .connecting)
    (hpast : s.lastBreak ≤ s.now) : Inv s :=
  ⟨fun h => absurd h hne, hpast⟩

theorem Inv.break_ {s : State} {plant : PlantPolicy} (hne : plant.state ≠ .connecting) :
    Inv (s.break_ plant) :=
  .of_not_connecting hne (Nat.le_refl s.now)

theorem onRaise_not_connecting (s : State) (kind : Kind) (phase : Phase) :
    (s.onRaise kind phase).plant.state ≠ .connecting := by
  cases kind with
  | coldConnect => cases phase <;> simp [State.onRaise, State.break_]
  | transportRestore => simp [State.onRaise, State.break_]
  | orderGap => exact PlantPolicy.resyncFailed_ne_connecting s.plant

theorem onRaise_past (s : State) (kind : Kind) (phase : Phase) (h : s.lastBreak ≤ s.now) :
    (s.onRaise kind phase).lastBreak ≤ (s.onRaise kind phase).now := by
  cases kind with
  | coldConnect => cases phase <;> simp [State.onRaise, State.break_]
  | transportRestore => simp [State.onRaise, State.break_]
  | orderGap => simpa [State.onRaise] using h

theorem NoStaleDrain.setPhase {s : State} (h : NoStaleDrain s) (i : Nat) (phase : Phase)
    (hphase : ∀ id kind began, (Barrier.mk id kind phase).began = some began →
      s.lastBreak < began) :
    NoStaleDrain (s.setPhase i phase) := by
  intro b hb began hbegan
  obtain ⟨a, ha, rfl⟩ := List.mem_map.mp hb
  by_cases hi : a.id = i
  · simp only [hi, if_true] at hbegan
    exact hphase _ _ _ hbegan
  · simp only [hi, if_false] at hbegan
    exact h a ha began hbegan

theorem NoStaleDrain.remove {s : State} (h : NoStaleDrain s) (i : Nat) :
    NoStaleDrain (s.remove i) :=
  fun b hb => h b (List.mem_filter.mp hb).1

theorem NoStaleDrain.begin_ {s : State} (h : NoStaleDrain s) (hlt : s.lastBreak < s.now)
    (kind : Kind) : NoStaleDrain (s.begin_ kind) := by
  intro b hb began hbegan
  rcases List.mem_append.mp hb with hold | hnew
  · exact h b hold began hbegan
  · obtain rfl := List.mem_singleton.mp hnew
    by_cases hgap : kind = .orderGap
    · simp only [Barrier.began, hgap, if_true, Option.mem_some_iff] at hbegan
      exact hbegan ▸ hlt
    · simp [Barrier.began, hgap] at hbegan

theorem barrier?_mem {s : State} {i : Nat} {b : Barrier} (h : s.barrier? i = some b) :
    b ∈ s.barriers ∧ b.id = i :=
  ⟨List.mem_of_find?_eq_some h, by simpa using List.find?_some h⟩

theorem rearm_inv {s : State} (h : s.lastBreak ≤ s.now) (b : Barrier) (alive : Bool) :
    Inv (s.rearm b alive) := by
  unfold State.rearm
  generalize (if b.kind = .orderGap then true else alive) = poll
  by_cases hraise : (s.plant.rearm poll).2 = false ∧ b.kind ≠ .coldConnect
  · rw [if_pos hraise]
    exact .of_not_connecting (onRaise_not_connecting _ _ _) (onRaise_past _ _ _ h)
  · rw [if_neg hraise]
    exact .of_not_connecting (PlantPolicy.rearm_ne_connecting _ _) h

theorem step_inv {s t : State} {event : Event} (hinv : Inv s) (hok : BeginsAlone s event)
    (hstep : step s event = some t) : Inv t := by
  have hlt : s.tick.lastBreak < s.tick.now := Nat.lt_succ_of_le hinv.past
  have hle : s.tick.lastBreak ≤ s.tick.now := Nat.le_of_lt hlt
  have hfresh : s.tick.plant.state = .connecting → NoStaleDrain s.tick := hinv.fresh
  cases event with
  | beginConnect kind =>
    obtain rfl := Option.some.inj hstep
    have hnone : NoStaleDrain s.tick := hok
    exact ⟨fun _ => hnone.begin_ hlt kind, hle⟩
  | drainStart i =>
    simp only [step] at hstep
    split at hstep
    · obtain rfl := Option.some.inj hstep
      refine ⟨fun hc => (hfresh hc).setPhase i _ ?_, hle⟩
      intro id kind began hbegan
      obtain rfl := Option.some.inj hbegan
      exact hlt
    · cases hstep
  | drainEnd i =>
    simp only [step] at hstep
    split at hstep
    · next id kind began hb =>
      obtain rfl := Option.some.inj hstep
      refine ⟨fun hc => (hfresh hc).setPhase i _ ?_, hle⟩
      intro _ _ began' hbegan
      obtain rfl := Option.some.inj hbegan
      exact hfresh hc _ (barrier?_mem hb).1 _ rfl
    · cases hstep
  | rearm i alive =>
    simp only [step] at hstep
    split at hstep
    · obtain rfl := Option.some.inj hstep
      exact rearm_inv hle _ alive
    · cases hstep
  | fail i =>
    obtain ⟨b, -, rfl⟩ := Option.map_eq_some_iff.mp hstep
    exact .of_not_connecting (onRaise_not_connecting _ _ _) (onRaise_past _ _ _ hle)
  | cancel i =>
    obtain ⟨b, -, rfl⟩ := Option.map_eq_some_iff.mp hstep
    exact ⟨fun hc => (hfresh hc).remove i, hle⟩
  | latch =>
    obtain rfl := Option.some.inj hstep
    exact .break_ (by simp)
  | resyncStart =>
    obtain rfl := Option.some.inj hstep
    exact .break_ (PlantPolicy.resyncStart_ne_connecting _)
  | resyncComplete =>
    obtain rfl := Option.some.inj hstep
    exact ⟨fun hc => hfresh (PlantPolicy.resyncComplete_connecting hc), hle⟩
  | resyncFailed =>
    obtain rfl := Option.some.inj hstep
    exact .of_not_connecting (PlantPolicy.resyncFailed_ne_connecting _) hle
  | disconnect =>
    obtain rfl := Option.some.inj hstep
    exact .break_ (by simp)

theorem run_inv {trace : List Event} {s : State} (h : machine.Run BeginsAlone trace s) : Inv s :=
  h.invariant (fun _ hs => hs ▸ .of_not_connecting (by decide) (Nat.le_refl _))
    fun _ _ _ => step_inv

/-! ### What re-arms the plant -/

/-- In a run whose barriers begin only while no stale drain is in flight, a `rearm` that takes the
plant from `connecting` to `live` belongs to a barrier whose drain began after the most recent
latch, resync start or disconnect. -/
theorem rearm_drain_is_fresh {trace : List Event} {s t : State} {i : Nat} {alive : Bool}
    (h : machine.Run BeginsAlone trace s) (hstep : machine.step s (.rearm i alive) = some t)
    (hfrom : s.plant.state = .connecting) : t.plant.state = .live → DrainIsFresh s i := by
  intro _
  have hfresh := (run_inv h).fresh hfrom
  simp only [machine, step] at hstep
  split at hstep
  · next id kind began hb =>
    obtain ⟨hmem, hid⟩ := barrier?_mem hb
    exact ⟨_, hmem, hid, began, rfl, hfresh _ hmem _ rfl⟩
  · cases hstep

/-- A gap recovery is latched in its drain and fails; the transport restore after it drains anew. -/
def restoredAfterLatch : List Event :=
  [.beginConnect .coldConnect, .drainStart 0, .drainEnd 0, .rearm 0 true, .beginConnect .orderGap,
    .latch, .fail 1, .beginConnect .transportRestore, .drainStart 2, .drainEnd 2]

theorem rearm_drain_is_fresh_restored : ∃ s t,
    machine.exec BeginsAlone {} restoredAfterLatch = some s ∧
      machine.step s (.rearm 2 true) = some t ∧ t.plant.state = .live ∧ DrainIsFresh s 2 := by
  obtain ⟨s, t, hs, hfrom, hstep, hlive⟩ : ∃ s t,
      machine.exec BeginsAlone {} restoredAfterLatch = some s ∧ s.plant.state = .connecting ∧
        machine.step s (.rearm 2 true) = some t ∧ t.plant.state = .live := ⟨_, _, rfl, rfl, rfl, rfl⟩
  exact ⟨s, t, hs, hstep, hlive,
    rearm_drain_is_fresh (Machine.run_of_exec rfl hs) hstep hfrom hlive⟩

/-- A gap recovery drains, the transport breaks, the restore enters the barrier, and the gap
recovery re-arms the plant on the drain from before the break. -/
theorem rearm_on_stale_drain : ¬ ∀ (trace : List Event) (s t : State) (i : Nat) (alive : Bool),
    machine.Run Machine.Free trace s → machine.step s (.rearm i alive) = some t →
      s.plant.state = .connecting → t.plant.state = .live → DrainIsFresh s i := by
  intro h
  have hrun : machine.Run Machine.Free
      [.beginConnect .orderGap, .drainEnd 0, .latch, .beginConnect .transportRestore] _ :=
    Machine.run_of_exec rfl rfl
  obtain ⟨b, hmem, hid, began, hbegan, hlt⟩ := h _ _ _ 0 true hrun rfl rfl rfl
  simp only [State.begin_, State.break_, State.setPhase, State.tick] at hmem hlt
  simp at hmem
  rcases hmem with rfl | rfl
  · simp [Barrier.began] at hbegan
    omega
  · simp at hid

end RithmicNt.Adapter.Rearm
