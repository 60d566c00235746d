import RithmicNt.Gateway.Runtime
import RithmicNt.Host.Commands
import RithmicNt.Host.Sessions

/-! The order plant of one gateway connection, as the facades of a process open and close it: each
facade has a flag of its own, the parent's session of the connection has one for all of them, and the
shared intents decide which releases the parent is sent. -/

namespace RithmicNt.Gateway.OrderFlags

open RithmicNt.Lib RithmicNt.Host RithmicNt.Gateway.Runtime

/-- The parent's session of the connection. -/
structure Parent where
  scope : Scope
  cancelAll : Bool := true
  orderClosed : Bool := false

inductive OrderOp
  | ensure
  | subscribe (brackets : Bool)
  | disconnect
  deriving DecidableEq, Repr

/-- The facades of the process.  `completed` is a record: the last order-plant operation of a facade
that was answered without an error. -/
structure State where
  parent : Parent
  facades : Finset Nat := ∅
  orderClosed : Nat → Bool := fun _ => false
  held : Finset (IntentKey × Nat) := ∅
  completed : Nat → Option OrderOp := fun _ => none

/-- `others`: what the other sessions of the host leave of its state between two operations. -/
inductive Event
  | register (facade : Nat)
  | op (facade : Nat) (o : OrderOp)
  | others (host : HostState)

def explicitlyDisconnected : String := "order plant explicitly disconnected"

namespace Parent

def gates (p : Parent) : Gates := ⟨p.scope.state.trading, p.cancelAll⟩

def ensureOrderPlant (p : Parent) : Parent × Except Error Unit :=
  let checked : Except Error Unit := do
    p.scope.state.checkReady
    requireGate p.gates .ensureOrderPlant
    if p.scope.state.session then .ok () else .error noVenue
  match checked with
  | .ok () => ({ p with orderClosed := false }, .ok ())
  | .error e => (p, .error e)

def subscribeOrders (p : Parent) (brackets : Bool) : Parent × Except Error Unit :=
  match p.scope.state.checkReady with
  | .error e => (p, .error e)
  | .ok () =>
    match subscribeOrderPlantStream {} (deniedMsg brackets) brackets p.scope with
    | (scope, .ok ()) => ({ p with scope, orderClosed := false }, .ok ())
    | (scope, .error e) => ({ p with scope }, .error e)

/-- The flag is set before the venue is asked, and stays whatever it answers. -/
def disconnectOrderPlant (p : Parent) : Parent × Except Error Unit :=
  match p.scope.state.checkReady with
  | .error e => (p, .error e)
  | .ok () =>
    let r := disconnectOrder {} p.scope
    ({ p with scope := r.1, orderClosed := true }, r.2)

def commandGuard (p : Parent) (c : Commands.Command) : Except Error Unit := do
  p.scope.state.checkReady
  requireGate p.gates c.method
  if p.orderClosed then .error (.notSent Commands.orderPlantClosed)

/-- The host is ready, has its venue, and both gates are open. -/
structure Serves (p : Parent) : Prop where
  ready : p.scope.state.ready = true
  session : p.scope.state.session = true
  trading : p.scope.state.trading = true
  cancelAll : p.cancelAll = true

end Parent

namespace State

def setClosed (s : State) (facade : Nat) (closed : Bool) : State :=
  { s with orderClosed := Function.update s.orderClosed facade closed }

def orderGroupHeld (held : Finset (IntentKey × Nat)) : Bool :=
  ∃ h ∈ held, h.1 = .order ∨ h.1 = .brackets

/-- What the other facades hold, of the order and bracket intents and of all others. -/
def withoutOrder (s : State) (facade : Nat) : Finset (IntentKey × Nat) :=
  (s.held.erase (.order, facade)).erase (.brackets, facade)

def requireOrderOpen (s : State) (facade : Nat) : Except Error Unit :=
  if s.orderClosed facade then .error (.notSent explicitlyDisconnected) else .ok ()

def ensureOrderPlant (s : State) (facade : Nat) : State × Except Error Unit :=
  match s.parent.ensureOrderPlant with
  | (parent, .ok ()) => ({ s with parent }.setClosed facade false, .ok ())
  | (parent, .error e) => ({ s with parent }, .error e)

/-- The request is sent whoever holds the intent already. -/
def subscribeOrders (s : State) (facade : Nat) (brackets : Bool) : State × Except Error Unit :=
  match s.parent.subscribeOrders brackets with
  | (parent, .ok ()) =>
    let key := if brackets then IntentKey.brackets else .order
    ({ s with parent, held := insert (key, facade) s.held }.setClosed facade false, .ok ())
  | (parent, .error e) => ({ s with parent }, .error e)

/-- `release_order`: the parent is told only where no other facade holds either intent. -/
def releaseOrder (s : State) (facade : Nat) : State × Except Error Unit :=
  if orderGroupHeld (s.withoutOrder facade) then
    ({ s with held := s.withoutOrder facade }, .ok ())
  else
    match s.parent.disconnectOrderPlant with
    | (parent, .ok ()) => ({ s with parent, held := s.withoutOrder facade }, .ok ())
    | (parent, .error e) => ({ s with parent }, .error e)

def disconnectOrderPlant (s : State) (facade : Nat) : State × Except Error Unit :=
  (s.setClosed facade true).releaseOrder facade

/-- An order command of a facade, up to its call of the venue. -/
def command (s : State) (facade : Nat) (c : Commands.Command) : Except Error Unit := do
  s.requireOrderOpen facade
  s.parent.commandGuard c

def op (s : State) (facade : Nat) : OrderOp → State × Except Error Unit
  | .ensure => s.ensureOrderPlant facade
  | .subscribe brackets => s.subscribeOrders facade brackets
  | .disconnect => s.disconnectOrderPlant facade

def complete (s : State) (facade : Nat) (o : OrderOp) : Except Error Unit → State
  | .ok () => { s with completed := Function.update s.completed facade (some o) }
  | .error _ => s

def step (s : State) : Event → Option State
  | .register facade =>
    if facade ∈ s.facades then none
    else some { s.setClosed facade false with
      facades := insert facade s.facades
      completed := Function.update s.completed facade none }
  | .op facade o =>
    if facade ∈ s.facades then some ((s.op facade o).1.complete facade o (s.op facade o).2)
    else none
  | .others host =>
    if host.ready && host.session && host.trading then
      some { s with parent := { s.parent with scope := { s.parent.scope with state := host } } }
    else none

/-- The command is refused because the order plant is disconnected, here or at the parent. -/
def Refused (s : State) (facade : Nat) (c : Commands.Command) : Prop :=
  s.command facade c = .error (.notSent explicitlyDisconnected) ∨
    s.command facade c = .error (.notSent Commands.orderPlantClosed)

instance (s : State) (facade : Nat) (c : Commands.Command) : Decidable (s.Refused facade c) :=
  inferInstanceAs (Decidable (_ ∨ _))

/-- A facade's commands are refused exactly when its own last operation was the disconnect. -/
def Independent (s : State) : Prop :=
  ∀ facade ∈ s.facades, ∀ c, s.Refused facade c ↔ s.completed facade = some .disconnect

end State

def machine : Machine State Event where
  Start s := ∃ parent : Parent, parent.Serves ∧ parent.orderClosed = false ∧ s = { parent }
  step := State.step

/-- A disconnect leaves another facade with an order or bracket intent, or none that has not
disconnected itself; and a facade registers while the parent's session has the plant open. -/
def Alone (s : State) : Event → Prop
  | .register _ => s.parent.orderClosed = false
  | .op facade .disconnect => State.orderGroupHeld (s.withoutOrder facade) = true ∨
      ∀ other ∈ s.facades, other ≠ facade → s.completed other = some .disconnect
  | _ => True

instance (s : State) : DecidablePred (Alone s)
  | .register _ => inferInstanceAs (Decidable (_ = _))
  | .op _ .disconnect => inferInstanceAs (Decidable (_ ∨ _))
  | .op _ .ensure | .op _ (.subscribe _) | .others _ => isTrue trivial

section

variable {p : Parent}

theorem checkReady_of_ready {h : HostState} (hr : h.ready = true) : h.checkReady = .ok () := by
  simp [HostState.checkReady, hr]

theorem Parent.Serves.gate (h : p.Serves) (m : Method) : requireGate p.gates m = .ok () := by
  apply requireGate_ok_iff.mpr
  cases m.gate with
  | none => rfl
  | trading => exact h.trading
  | cancelAll => exact h.cancelAll

theorem Parent.Serves.ensureOrderPlant (h : p.Serves) :
    p.ensureOrderPlant = ({ p with orderClosed := false }, .ok ()) := by
  unfold Parent.ensureOrderPlant
  rw [checkReady_of_ready h.ready, h.gate, h.session]
  rfl

theorem Parent.Serves.commandGuard (h : p.Serves) (c : Commands.Command) :
    p.commandGuard c =
      if p.orderClosed then .error (.notSent Commands.orderPlantClosed) else .ok () := by
  unfold Parent.commandGuard
  rw [checkReady_of_ready h.ready, h.gate]
  cases p.orderClosed <;> rfl

/-- What the order operations of a session leave alone of its host, whose venue answers them. -/
structure SameHost (s t : Scope) : Prop where
  ready : t.state.ready = s.state.ready
  session : t.state.session = s.state.session
  trading : t.state.trading = s.state.trading

theorem SameHost.trans {s t u : Scope} (h : SameHost s t) (h' : SameHost t u) : SameHost s u :=
  ⟨h'.ready.trans h.ready, h'.session.trans h.session, h'.trading.trans h.trading⟩

theorem sameHost_attachSharedTopic (s : Scope) (key : SubKey) :
    SameHost s (attachSharedTopic s key) := by
  unfold attachSharedTopic
  dsimp only
  split <;> exact ⟨rfl, rfl, rfl⟩

theorem sameHost_noteStreams (s : Scope) (order brackets : Bool) :
    SameHost s (noteStreams order brackets s) := by
  cases order <;> cases brackets <;> exact ⟨rfl, rfl, rfl⟩

theorem subscribeOrderPlantStream_answered {s : Scope} (msg : String) (brackets : Bool)
    (ht : s.state.trading = true) (hs : s.state.session = true) :
    ∃ t, subscribeOrderPlantStream {} msg brackets s = (t, .ok ()) ∧ SameHost s t := by
  unfold subscribeOrderPlantStream
  rw [if_neg (by simp [ht])]
  dsimp only
  split
  · exact ⟨s, rfl, rfl, rfl, rfl⟩
  · have hsame := (sameHost_attachSharedTopic s orderKey).trans
      (sameHost_noteStreams (attachSharedTopic s orderKey) (!s.client.order)
        (brackets && !s.client.brackets))
    rw [if_neg (by rw [hsame.session, hs]; simp)]
    have hjoin : ∀ order brackets, joinOrderPlant {} order brackets = .ok () := by decide
    rw [hjoin]
    exact ⟨_, rfl, hsame⟩

theorem sameHost_forgetOrderStreams (s : Scope) : SameHost s (forgetOrderStreams s) := by
  unfold forgetOrderStreams clearClientBrackets
  split
  · dsimp only
    split <;> exact ⟨rfl, rfl, rfl⟩
  · dsimp only
    split <;> exact ⟨rfl, rfl, rfl⟩

theorem sameHost_releaseTopic (s : Scope) (key : SubKey) : SameHost s (releaseTopic s key) := by
  unfold releaseTopic
  split <;> exact ⟨rfl, rfl, rfl⟩

theorem leaveOrder_answered (s : Scope) :
    ∃ t, leaveOrder {} true s = (t, .ok ()) ∧ SameHost s t := by
  unfold leaveOrder
  split
  · exact ⟨s, rfl, rfl, rfl, rfl⟩
  · have hplant : (if (lastOrder s && s.state.session) = true then
        ({} : Answers).disconnectOrderPlant else .ok ()) = .ok () := by
      split <;> rfl
    have hseat : reseatOrderPlantWithoutBrackets {} s = .ok () := by
      unfold reseatOrderPlantWithoutBrackets
      split <;> rfl
    dsimp only
    rw [hplant, hseat]
    refine ⟨forgetOrderStreams s, ?_, sameHost_forgetOrderStreams s⟩
    dsimp only
    split <;> rfl

theorem disconnectOrder_answered (s : Scope) :
    ∃ t, disconnectOrder {} s = (t, .ok ()) ∧ SameHost s t := by
  obtain ⟨t, ht, hsame⟩ := leaveOrder_answered s
  refine ⟨releaseTopic t orderKey, ?_, hsame.trans (sameHost_releaseTopic t orderKey)⟩
  unfold disconnectOrder
  rw [ht]

theorem Parent.Serves.of_sameHost {scope : Scope} {closed : Bool} (h : p.Serves)
    (hs : SameHost p.scope scope) : ({ p with scope, orderClosed := closed } : Parent).Serves :=
  ⟨hs.ready.trans h.ready, hs.session.trans h.session, hs.trading.trans h.trading, h.cancelAll⟩

theorem Parent.Serves.subscribeOrders (h : p.Serves) (brackets : Bool) :
    ∃ q : Parent, p.subscribeOrders brackets = (q, .ok ()) ∧ q.Serves ∧ q.orderClosed = false := by
  obtain ⟨t, ht, hsame⟩ := subscribeOrderPlantStream_answered (deniedMsg brackets) brackets
    h.trading h.session
  refine ⟨{ p with scope := t, orderClosed := false }, ?_, h.of_sameHost hsame, rfl⟩
  unfold Parent.subscribeOrders
  rw [checkReady_of_ready h.ready, ht]

theorem Parent.Serves.disconnectOrderPlant (h : p.Serves) :
    ∃ q : Parent, p.disconnectOrderPlant = (q, .ok ()) ∧ q.Serves ∧ q.orderClosed = true := by
  obtain ⟨t, ht, hsame⟩ := disconnectOrder_answered p.scope
  refine ⟨{ p with scope := t, orderClosed := true }, ?_, h.of_sameHost hsame, rfl⟩
  unfold Parent.disconnectOrderPlant
  rw [checkReady_of_ready h.ready, ht]

end

namespace State

variable {s t : State}

/-- What every run keeps: all requests are served, and a facade's flag is its last operation. -/
structure Flagged (s : State) : Prop where
  serves : s.parent.Serves
  flags : ∀ facade ∈ s.facades, s.orderClosed facade = true ↔
    s.completed facade = some .disconnect

/-- The parent's session has the plant closed only where every facade has. -/
def Shut (s : State) : Prop :=
  s.parent.orderClosed = true → ∀ facade ∈ s.facades, s.orderClosed facade = true

/-- Everything that an operation of a facade can do: it completes, sets the facade's own flag, and
leaves the parent's flag, opens it, or closes it. -/
theorem op_cases (h : s.Flagged) (facade : Nat) (o : OrderOp) :
    ∃ t : State, s.op facade o = (t, .ok ()) ∧ t.parent.Serves ∧ t.facades = s.facades ∧
      t.completed = s.completed ∧
      t.orderClosed = Function.update s.orderClosed facade (decide (o = .disconnect)) ∧
      t.parent.orderClosed =
        (decide (o = .disconnect) &&
          (s.parent.orderClosed || !orderGroupHeld (s.withoutOrder facade))) := by
  cases o with
  | ensure =>
    refine ⟨{ s with parent := { s.parent with orderClosed := false } }.setClosed facade false, ?_,
      ⟨h.serves.ready, h.serves.session, h.serves.trading, h.serves.cancelAll⟩, rfl, rfl, rfl, rfl⟩
    show s.ensureOrderPlant facade = _
    unfold ensureOrderPlant
    rw [h.serves.ensureOrderPlant]
  | subscribe brackets =>
    obtain ⟨q, hq, hserves, hopen⟩ := h.serves.subscribeOrders brackets
    let key := if brackets then IntentKey.brackets else .order
    refine ⟨{ s with parent := q, held := insert (key, facade) s.held }.setClosed facade false, ?_,
      hserves, rfl, rfl, rfl, hopen⟩
    show s.subscribeOrders facade brackets = _
    unfold subscribeOrders
    rw [hq]
  | disconnect =>
    show ∃ t : State, (s.setClosed facade true).releaseOrder facade = (t, .ok ()) ∧ _
    unfold releaseOrder
    by_cases hgroup : orderGroupHeld ((s.setClosed facade true).withoutOrder facade)
    · rw [if_pos hgroup]
      refine ⟨_, rfl, h.serves, rfl, rfl, rfl, ?_⟩
      have hgroup : orderGroupHeld (s.withoutOrder facade) = true := hgroup
      simp [hgroup, setClosed]
    · obtain ⟨q, hq, hserves, hclosed⟩ := h.serves.disconnectOrderPlant
      have hq : (s.setClosed facade true).parent.disconnectOrderPlant = (q, .ok ()) := hq
      rw [if_neg hgroup, hq]
      refine ⟨_, rfl, hserves, rfl, rfl, rfl, ?_⟩
      have hgroup : ¬ orderGroupHeld (s.withoutOrder facade) = true := hgroup
      simp [hgroup, hclosed]

theorem command_eq (h : s.parent.Serves) (facade : Nat) (c : Commands.Command) :
    s.command facade c =
      if s.orderClosed facade then .error (.notSent explicitlyDisconnected)
      else if s.parent.orderClosed then .error (.notSent Commands.orderPlantClosed)
      else .ok () := by
  unfold command requireOrderOpen
  rw [h.commandGuard c]
  cases s.orderClosed facade <;> rfl

theorem command_refused_iff (h : s.parent.Serves) (facade : Nat) (c : Commands.Command) :
    s.Refused facade c ↔ s.orderClosed facade = true ∨ s.parent.orderClosed = true := by
  unfold Refused
  rw [command_eq h]
  by_cases hown : s.orderClosed facade = true
  · simp [hown]
  · by_cases hparent : s.parent.orderClosed = true
    · simp [hown, hparent]
    · simp [hown, hparent]

theorem Flagged.independent_iff (h : s.Flagged) : s.Independent ↔ s.Shut := by
  unfold Independent Shut
  simp only [command_refused_iff h.serves]
  constructor
  · intro hind hclosed facade hmem
    exact (h.flags facade hmem).mpr ((hind facade hmem .placeOrder).mp (.inr hclosed))
  · intro hshut facade hmem _
    rw [← h.flags facade hmem]
    constructor
    · rintro (hown | hparent)
      · exact hown
      · exact hshut hparent facade hmem
    · exact .inl

theorem Flagged.step {e : Event} (h : s.Flagged) (hstep : s.step e = some t) : t.Flagged := by
  cases e with
  | register facade =>
    simp only [State.step] at hstep
    split at hstep
    · cases hstep
    · cases hstep
      refine ⟨h.serves, ?_⟩
      intro other hother
      by_cases hne : other = facade
      · subst hne
        simp [setClosed]
      · have hmem : other ∈ s.facades := by simpa [hne] using hother
        simpa [setClosed, hne] using h.flags other hmem
  | op facade o =>
    simp only [State.step] at hstep
    split at hstep
    · obtain ⟨u, hu, hserves, hfacades, hcompleted, hclosed, -⟩ := op_cases h facade o
      rw [hu] at hstep
      cases hstep
      refine ⟨hserves, ?_⟩
      intro other hother
      show u.orderClosed other = true ↔ Function.update u.completed facade (some o) other = _
      rw [hclosed, hcompleted]
      by_cases hne : other = facade
      · subst hne
        simp
      · have hmem : other ∈ s.facades := hfacades ▸ hother
        simpa [hne] using h.flags other hmem
    · cases hstep
  | others host =>
    simp only [State.step] at hstep
    split at hstep
    · next hserves =>
      cases hstep
      simp only [Bool.and_eq_true] at hserves
      obtain ⟨⟨hready, hsession⟩, htrading⟩ := hserves
      exact ⟨⟨hready, hsession, htrading, h.serves.cancelAll⟩, h.flags⟩
    · cases hstep

/-- The plant is shut for all after a disconnect exactly when it met the condition. -/
theorem shut_disconnect_iff {facade : Nat} (h : s.Flagged) (hs : s.Shut)
    (hstep : s.step (.op facade .disconnect) = some t) :
    t.Shut ↔ Alone s (.op facade .disconnect) := by
  simp only [State.step] at hstep
  split at hstep
  · next hmem =>
    obtain ⟨u, hu, -, hfacades, -, hclosed, hparent⟩ := op_cases h facade .disconnect
    rw [hu] at hstep
    cases hstep
    show (u.parent.orderClosed = true → ∀ other ∈ u.facades, u.orderClosed other = true) ↔ _
    rw [hparent, hfacades, hclosed]
    have hothers : (∀ other ∈ s.facades,
        Function.update s.orderClosed facade (decide (OrderOp.disconnect = .disconnect)) other =
          true) ↔
        ∀ other ∈ s.facades, other ≠ facade → s.completed other = some .disconnect := by
      refine forall₂_congr fun other hother => ?_
      by_cases hne : other = facade
      · subst hne
        simp
      · simpa [hne] using h.flags other hother
    rw [hothers]
    constructor
    · intro himp
      by_cases hgroup : orderGroupHeld (s.withoutOrder facade) = true
      · exact .inl hgroup
      · exact .inr (himp (by simp [hgroup]))
    · rintro (hgroup | hall) hclosed
      · intro other hother _
        have hclosed : s.parent.orderClosed = true := by simpa [hgroup] using hclosed
        exact (h.flags other hother).mp (hs hclosed other hother)
      · exact hall
  · cases hstep

theorem Shut.step {e : Event} (h : s.Flagged) (hs : s.Shut) (ha : Alone s e)
    (hstep : s.step e = some t) : t.Shut := by
  cases e with
  | register facade =>
    simp only [State.step] at hstep
    split at hstep
    · cases hstep
    · cases hstep
      have hopen : s.parent.orderClosed = false := ha
      intro hclosed
      exact absurd (hopen.symm.trans hclosed) (by decide)
  | op facade o =>
    by_cases ho : o = .disconnect
    · subst ho
      exact (shut_disconnect_iff h hs hstep).mpr ha
    · simp only [State.step] at hstep
      split at hstep
      · obtain ⟨u, hu, -, -, -, -, hparent⟩ := op_cases h facade o
        rw [hu] at hstep
        cases hstep
        intro hclosed
        have hclosed : u.parent.orderClosed = true := hclosed
        simp [hparent, ho] at hclosed
      · cases hstep
  | others host =>
    simp only [State.step] at hstep
    split at hstep
    · cases hstep
      exact hs
    · cases hstep

end State

/-- Where no disconnect reaches the parent beside a facade that has the plant open, the facades are
independent. -/
theorem independent_of_run {trace : List Event} {s : State} (h : machine.Run Alone trace s) :
    s.Independent := by
  have hinv : s.Flagged ∧ s.Shut := by
    refine h.invariant (I := fun s => s.Flagged ∧ s.Shut) ?_ ?_
    · rintro s ⟨parent, hserves, hopen, rfl⟩
      refine ⟨⟨hserves, fun facade hmem => by simp at hmem⟩, ?_⟩
      intro hclosed
      exact absurd (hopen.symm.trans hclosed) (by decide)
    · rintro s e t ⟨hf, hs⟩ ha hstep
      exact ⟨hf.step hstep, hs.step hf ha hstep⟩
  exact hinv.1.independent_iff.mpr hinv.2

/-- A host that serves, with nothing subscribed. -/
def attached : State := { parent := { scope := ⟨{}, {}⟩ } }

theorem attached_start : machine.Start attached :=
  ⟨{ scope := ⟨{}, {}⟩ }, ⟨rfl, rfl, rfl, rfl⟩, rfl, rfl⟩

/-- Two facades that hold the order intent, of which one disconnects. -/
def oneLeft : List Event :=
  [.register 1, .register 2, .op 1 (.subscribe false), .op 2 (.subscribe true), .op 1 .disconnect]

theorem independent_oneLeft :
    ∃ s, machine.Run Alone oneLeft s ∧ s.Independent ∧
      s.Refused 1 .placeOrder ∧ ¬ s.Refused 2 .placeOrder := by
  have hexec : ∃ s, machine.exec Alone attached oneLeft = some s ∧
      s.Refused 1 .placeOrder ∧ ¬ s.Refused 2 .placeOrder := ⟨_, rfl, by decide, by decide⟩
  obtain ⟨s, hexec, hrefused⟩ := hexec
  have hrun : machine.Run Alone _ s := Machine.run_of_exec attached_start hexec
  exact ⟨s, hrun, independent_of_run hrun, hrefused⟩

/-- A facade that has only ensured the plant is refused after its peer has disconnected. -/
theorem not_independent_ensured :
    ∃ s, machine.Run Machine.Free
        [.register 1, .register 2, .op 1 .ensure, .op 2 .ensure, .op 1 .disconnect] s ∧
      s.completed 2 = some .ensure ∧ s.Refused 2 .placeOrder ∧ ¬ s.Independent := by
  have hexec : ∃ s, machine.exec Machine.Free attached
      [.register 1, .register 2, .op 1 .ensure, .op 2 .ensure, .op 1 .disconnect] = some s ∧
      2 ∈ s.facades ∧ s.completed 2 = some .ensure ∧ s.Refused 2 .placeOrder :=
    ⟨_, rfl, by decide, rfl, by decide⟩
  obtain ⟨s, hexec, hmem, hlast, hrefused⟩ := hexec
  refine ⟨s, Machine.run_of_exec attached_start hexec, hlast, hrefused, ?_⟩
  intro h
  have := (h 2 hmem .placeOrder).mp hrefused
  rw [hlast] at this
  cases this

end RithmicNt.Gateway.OrderFlags
