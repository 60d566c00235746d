import RithmicNt.Lib.Machine
import RithmicNt.Adapter.IntakeFills

/-! The acceptance and the trigger of one tracked order.  Both guards of the intake read the status of
the cached order, and the engine applies what the intake emits later: the runs of this module let the
engine fall behind by any number of notifications. -/

namespace RithmicNt.Adapter.Announcements

open RithmicNt.Lib RithmicNt.Exec

/-! ### What a notification emits for an order -/

/-- The events of one order among what a handler emits. -/
def eventsOf (id : String) (emitted : List Emission) : List OrderEvent :=
  emitted.filterMap fun
    | .order clientOrderId event _ => if clientOrderId = id then some event else none
    | _ => none

def isAccepted : OrderEvent → Bool
  | .accepted _ => true
  | _ => false

def isTriggered : OrderEvent → Bool
  | .triggered _ => true
  | _ => false

/-- What the guards ask of the order whose acceptance or trigger is announced. -/
structure Guarded (f : OrderFields) (order : TrackedOrder) (event : OrderEvent) : Prop where
  accepted : isAccepted event = true → f.kind = some .accepted ∧ order.status = .submitted
  triggered : isTriggered event = true →
    f.kind = some .triggered ∧ order.orderType.isTriggerable = true ∧ order.status ≠ .triggered

theorem Guarded.of_neither {f : OrderFields} {order : TrackedOrder} {event : OrderEvent}
    (haccepted : isAccepted event = false) (htriggered : isTriggered event = false) :
    Guarded f order event := by
  constructor
  · intro h
    rw [haccepted] at h
    cases h
  · intro h
    rw [htriggered] at h
    cases h

/-- At most one event, and that for the order and under the guards. -/
def Emits (f : OrderFields) (id : String) (order : TrackedOrder) (emitted : List Emission) : Prop :=
  emitted = [] ∨ ∃ event ts, emitted = [.order id event ts] ∧ Guarded f order event

section

variable (env : Live) (s : Host) (f : OrderFields) (id : String) (order : TrackedOrder)

theorem emit_emits {event : OrderEvent} {ts : Int} (h : Guarded f order event) :
    Emits f id order (env.emit s id event ts).emitted := by
  unfold Live.emit
  split
  · exact .inr ⟨event, ts, rfl, h⟩
  · exact .inl rfl

theorem handleTrackedFill_emits (venueId trade : String) (size : Int) :
    Emits f id order (env.handleTrackedFill s f id order venueId size trade).emitted := by
  unfold Live.handleTrackedFill
  split
  · exact .inl rfl
  · dsimp only
    split
    · exact .inl rfl
    · split
      · exact .inl rfl
      · exact .inl rfl
      · split
        · exact .inl rfl
        · exact .inr ⟨_, _, rfl, .of_neither rfl rfl⟩

/-- The kinds that announce an acceptance or a trigger are those of their names. -/
theorem kind_of_notificationAction {kind : OrderKind} {text reportText status reason : Option String}
    {action : ActionKind} (h : notificationAction kind text reportText status = some (action, reason)) :
    (action = .accepted → kind = .accepted) ∧ (action = .triggered → kind = .triggered) := by
  cases kind <;> simp [notificationAction] at h <;> simp [← h.1]

theorem handleAction_emits (venueId reason : String) {action : ActionKind}
    (haccepted : action = .accepted → f.kind = some .accepted)
    (htriggered : action = .triggered → f.kind = some .triggered) :
    Emits f id order (env.handleAction s f id order venueId action reason).emitted := by
  unfold Live.handleAction
  cases action with
  | accepted =>
    dsimp only
    split
    · next hstatus =>
      exact emit_emits env s f id order ⟨fun _ => ⟨haccepted rfl, hstatus⟩, nofun⟩
    · exact .inl rfl
  | triggered =>
    dsimp only
    split
    · exact .inl rfl
    · next hguard =>
      simp only [not_or, Bool.not_eq_false] at hguard
      exact emit_emits env s f id order
        ⟨nofun, fun _ => ⟨htriggered rfl, hguard.1, hguard.2⟩⟩
  | updated =>
    dsimp only
    split
    · exact .inl rfl
    · exact emit_emits env s f id order (.of_neither rfl rfl)
  | filled =>
    dsimp only
    split
    · exact .inl rfl
    · split
      · exact .inl rfl
      · exact handleTrackedFill_emits ..
  | rejected => exact emit_emits env s f id order (.of_neither rfl rfl)
  | modifyRejected => exact emit_emits env s f id order (.of_neither rfl rfl)
  | cancelRejected => exact emit_emits env s f id order (.of_neither rfl rfl)
  | canceled => exact emit_emits env s f id order (.of_neither rfl rfl)

theorem handleTracked_emits : Emits f id order (env.handleTracked s f id order).emitted := by
  unfold Live.handleTracked
  split
  · exact .inl rfl
  · dsimp only
    split
    · exact .inl rfl
    · split
      · exact .inl rfl
      · next action reason haction =>
        obtain ⟨kind, hkind, haction⟩ := Option.bind_eq_some_iff.mp haction
        obtain ⟨haccepted, htriggered⟩ := kind_of_notificationAction haction
        exact handleAction_emits env s f id order _ _
          (fun h => by rw [hkind, haccepted h]) (fun h => by rw [hkind, htriggered h])

/-- Reports are no events of an order. -/
theorem eventsOf_untracked : eventsOf id (env.handleUntrackedNotification s f).emitted = [] := by
  have hstatus : ∀ s, eventsOf id (env.publishUntrackedStatus s f).2.1 = [] := by
    intro s
    unfold Live.publishUntrackedStatus
    dsimp only
    repeat' split
    all_goals rfl
  have hfill : ∀ s, eventsOf id (env.publishUntrackedFill s f).emitted = [] := by
    intro s
    unfold Live.publishUntrackedFill
    dsimp only
    repeat' split
    all_goals rfl
  unfold Live.handleUntrackedNotification
  dsimp only
  split
  · rfl
  · split
    · rfl
    · split
      · rfl
      · have hseeded := hstatus { s with account := (env.engine.seed s.account f.accountId).1 }
        split
        · next hsent =>
          rw [hsent] at hseeded
          exact hseeded
        · next hsent =>
          rw [hsent] at hseeded
          exact hseeded
        · next s' sent hsent =>
          rw [hsent] at hseeded
          rw [eventsOf, List.filterMap_append]
          exact List.append_eq_nil_iff.mpr ⟨hseeded, hfill s'⟩

/-- The fields of a notification that is about the order `id`. -/
def concerning (event : OrderNotification) : Option OrderFields :=
  (orderNotificationToFields env.engine.upper event).filter fun f =>
    env.engine.resolveClientOrderId env.cache f = .ok (some id)

/-- One notification makes at most one event for an order, of which it is then, under the guards. -/
theorem eventsOf_dispatch (event : OrderNotification) (horder : env.cache.order id = some order) :
    eventsOf id (env.dispatchOrderEvent s event).emitted = [] ∨
    ∃ f announced, concerning env id event = some f ∧
      eventsOf id (env.dispatchOrderEvent s event).emitted = [announced] ∧
      Guarded f order announced := by
  unfold Live.dispatchOrderEvent
  split
  · exact .inl rfl
  next f hread =>
    unfold Live.handleOrderNotification
    dsimp only
    split
    · exact .inl rfl
    · split
      · exact .inl rfl
      · exact .inl (eventsOf_untracked ..)
      · next resolved hresolved =>
        split
        · exact .inl rfl
        · next cached hcached =>
          rcases handleTracked_emits env _ f resolved cached with hnone | ⟨announced, ts, hone, hguarded⟩
          · exact .inl (by rw [hnone]; rfl)
          · by_cases hid : resolved = id
            · subst hid
              obtain rfl := Option.some.inj (hcached.symm.trans horder)
              refine .inr ⟨f, announced, ?_, ?_, hguarded⟩
              · simp [concerning, hread, hresolved]
              · rw [hone]
                simp [eventsOf]
            · left
              rw [hone]
              simp [eventsOf, hid]

end

/-! ### The engine's order -/

/-- What happens to the cached order: an event of this client that the engine applies, or something
else (a command that makes it pending, a reconciliation report). -/
inductive Change
  | applied (event : OrderEvent)
  | other (tag : Nat)
  deriving DecidableEq, Repr

/-- The states of an order that has not left the engine yet. -/
def isLocal : OrderStatus → Bool
  | .initialized | .emulated | .released => true
  | _ => false

/-- The engine's order as what happened to it makes it.  Both laws are of the order's life cycle: once
submitted it is never local again, and once its acceptance is applied it is never `SUBMITTED` again. -/
structure OrderRecord where
  view : List Change → TrackedOrder
  not_local : ∀ before after, isLocal (view before).status = false →
    isLocal (view (before ++ after)).status = false
  not_submitted : ∀ before after venueId, isLocal (view before).status = false →
    (view (before ++ Change.applied (.accepted venueId) :: after)).status ≠ .submitted

/-! ### Runs -/

/-- `waiting` are the emitted events that the engine has not applied; `called` logs every
`generate_order_…` call for the order. -/
structure State where
  host : Host
  changes : List Change
  waiting : List OrderEvent
  called : List OrderEvent

inductive Step
  | notify (env : Live) (event : OrderNotification)
  | apply
  | change (tag : Nat)

/-- The notification with an engine that never raises: it makes the calls of the real one, for each
handler makes at most one, as its last act. -/
def calling (env : Live) : Live := { env with emits := fun _ => true }

def machine (record : OrderRecord) (id : String) : Machine State Step where
  Start s := s.waiting = [] ∧ s.called = []
  step s
    | .notify env event =>
      if env.cache.order id = some (record.view s.changes) then
        let handled := env.dispatchOrderEvent s.host event
        some { s with
          host := handled.host
          waiting := s.waiting ++ eventsOf id handled.emitted
          called := s.called ++ eventsOf id ((calling env).dispatchOrderEvent s.host event).emitted }
      else none
    | .apply =>
      match s.waiting with
      | [] => none
      | event :: waiting =>
        some { s with changes := s.changes ++ [Change.applied event], waiting := waiting }
    | .change tag => some { s with changes := s.changes ++ [Change.other tag] }

section

variable (record : OrderRecord) (id : String)

/-- The engine keeps up with the announcements: an acceptance of an order that is still `SUBMITTED` finds
none to be applied; a trigger of an order that is not `TRIGGERED` finds none to be applied and none
applied before, after which the order moved on; and the calls return. -/
def KeepsUp (s : State) : Step → Prop
  | .notify env event =>
    (∀ event, env.emits event = true) ∧
    ∀ f, concerning env id event = some f →
      (f.kind = some .accepted → (record.view s.changes).status = .submitted →
        ∀ venueId, .accepted venueId ∉ s.waiting) ∧
      (f.kind = some .triggered → (record.view s.changes).orderType.isTriggerable = true →
        (record.view s.changes).status ≠ .triggered →
        ∀ venueId, .triggered venueId ∉ s.waiting ∧ .applied (.triggered venueId) ∉ s.changes)
  | _ => True

end

/-- The acceptance is announced at most once, and so is the trigger. -/
structure Once (s : State) : Prop where
  accepted : s.called.countP isAccepted ≤ 1
  triggered : s.called.countP isTriggered ≤ 1

/-! ### The invariant -/

section

variable {record : OrderRecord} {id : String} {s t : State}

/-- The acceptance was applied to an order that had been submitted. -/
def Landed (record : OrderRecord) (s : State) : Prop :=
  ∃ before after venueId, s.changes = before ++ Change.applied (.accepted venueId) :: after ∧
    isLocal (record.view before).status = false

/-- Every announcement waits for the engine or has been applied. -/
structure Inv (record : OrderRecord) (s : State) : Prop extends Once s where
  submitted : ∀ event ∈ s.called, isAccepted event = true →
    isLocal (record.view s.changes).status = false
  acceptance : ∀ event ∈ s.called, isAccepted event = true → event ∈ s.waiting ∨ Landed record s
  trigger : ∀ event ∈ s.called, isTriggered event = true →
    event ∈ s.waiting ∨ .applied event ∈ s.changes

theorem Landed.status_ne (h : Landed record s) : (record.view s.changes).status ≠ .submitted := by
  obtain ⟨before, after, venueId, hchanges, hlocal⟩ := h
  rw [hchanges]
  exact record.not_submitted before after venueId hlocal

/-- A change that is no announcement moves the order on and leaves all else as it was. -/
theorem Inv.change (hinv : Inv record s) (change : Change) :
    Inv record { s with changes := s.changes ++ [change] } where
  toOnce := ⟨hinv.accepted, hinv.triggered⟩
  submitted event hcalled haccepted :=
    record.not_local _ _ (hinv.submitted event hcalled haccepted)
  acceptance event hcalled haccepted := by
    rcases hinv.acceptance event hcalled haccepted with hwaiting | ⟨before, after, v, hchanges, hlocal⟩
    · exact .inl hwaiting
    · exact .inr ⟨before, after ++ [change], v, by simp [hchanges], hlocal⟩
  trigger event hcalled htriggered := by
    rcases hinv.trigger event hcalled htriggered with hwaiting | happlied
    · exact .inl hwaiting
    · exact .inr (List.mem_append_left _ happlied)

/-- The engine applies the event that has waited longest. -/
theorem Inv.apply {event : OrderEvent} {waiting : List OrderEvent} (hinv : Inv record s)
    (hwaiting : s.waiting = event :: waiting) :
    Inv record { s with changes := s.changes ++ [Change.applied event], waiting := waiting } where
  toOnce := ⟨hinv.accepted, hinv.triggered⟩
  submitted announced hcalled haccepted :=
    record.not_local _ _ (hinv.submitted announced hcalled haccepted)
  acceptance announced hcalled haccepted := by
    have hlocal := hinv.submitted announced hcalled haccepted
    rcases hinv.acceptance announced hcalled haccepted with hmem | ⟨before, after, v, hchanges, hbefore⟩
    · rw [hwaiting] at hmem
      rcases List.mem_cons.mp hmem with rfl | hmem
      · cases announced with
        | accepted v => exact .inr ⟨s.changes, [], v, rfl, hlocal⟩
        | _ => cases haccepted
      · exact .inl hmem
    · exact .inr ⟨before, after ++ [Change.applied event], v, by simp [hchanges], hbefore⟩
  trigger announced hcalled htriggered := by
    rcases hinv.trigger announced hcalled htriggered with hmem | happlied
    · rw [hwaiting] at hmem
      rcases List.mem_cons.mp hmem with rfl | hmem
      · exact .inr (by simp)
      · exact .inl hmem
    · exact .inr (List.mem_append_left _ happlied)

/-- One announcement more, where its kind has not been announced yet. -/
theorem Inv.announce {event : OrderEvent} (hinv : Inv record s)
    (haccepted : isAccepted event = true → (∀ e ∈ s.called, isAccepted e = false) ∧
      isLocal (record.view s.changes).status = false)
    (htriggered : isTriggered event = true → ∀ e ∈ s.called, isTriggered e = false) (host : Host) :
    Inv record { s with
      host := host, waiting := s.waiting ++ [event], called := s.called ++ [event] } where
  accepted := by
    have hle := hinv.accepted
    simp only [List.countP_append, List.countP_singleton]
    split
    · next h =>
      have hzero : s.called.countP isAccepted = 0 :=
        List.countP_eq_zero.mpr fun e he => by simp [(haccepted h).1 e he]
      omega
    · omega
  triggered := by
    have hle := hinv.triggered
    simp only [List.countP_append, List.countP_singleton]
    split
    · next h =>
      have hzero : s.called.countP isTriggered = 0 :=
        List.countP_eq_zero.mpr fun e he => by simp [htriggered h e he]
      omega
    · omega
  submitted e hcalled he := by
    rcases List.mem_append.mp hcalled with hcalled | hnew
    · exact hinv.submitted e hcalled he
    · obtain rfl := List.mem_singleton.mp hnew
      exact (haccepted he).2
  acceptance e hcalled he := by
    rcases List.mem_append.mp hcalled with hcalled | hnew
    · exact (hinv.acceptance e hcalled he).imp (List.mem_append_left _) id
    · exact .inl (List.mem_append_right _ hnew)
  trigger e hcalled he := by
    rcases List.mem_append.mp hcalled with hcalled | hnew
    · exact (hinv.trigger e hcalled he).imp (List.mem_append_left _) id
    · exact .inl (List.mem_append_right _ hnew)

theorem calling_eq {env : Live} (h : ∀ event, env.emits event = true) : calling env = env := by
  unfold calling
  congr 1
  exact (funext h).symm

theorem Inv.step {step : Step} (hinv : Inv record s) (hkeeps : KeepsUp record id s step)
    (h : (machine record id).step s step = some t) : Inv record t := by
  cases step with
  | notify env event =>
    obtain ⟨hemits, hup⟩ := hkeeps
    simp only [machine, calling_eq hemits] at h
    split at h
    next horder =>
      cases h
      rcases eventsOf_dispatch env s.host id _ event horder with
        hnone | ⟨f, announced, hconcerning, hone, hguarded⟩
      · rw [hnone]
        exact ⟨⟨by simpa using hinv.accepted, by simpa using hinv.triggered⟩,
          by simpa using hinv.submitted, by simpa [Landed] using hinv.acceptance,
          by simpa using hinv.trigger⟩
      · rw [hone]
        obtain ⟨hacceptance, htrigger⟩ := hup f hconcerning
        refine hinv.announce (fun haccepted => ?_) (fun htriggered e hcalled => ?_) _
        · obtain ⟨hkind, hstatus⟩ := hguarded.accepted haccepted
          refine ⟨fun e hcalled => ?_, by rw [hstatus]; rfl⟩
          by_contra he
          have he : isAccepted e = true := by simpa using he
          rcases hinv.acceptance e hcalled he with hwaiting | hlanded
          · cases e with
            | accepted v => exact hacceptance hkind hstatus v hwaiting
            | _ => cases he
          · exact hlanded.status_ne hstatus
        · obtain ⟨hkind, htriggerable, hstatus⟩ := hguarded.triggered htriggered
          by_contra he
          have he : isTriggered e = true := by simpa using he
          cases e with
          | triggered v =>
            obtain ⟨hnotWaiting, hnotApplied⟩ := htrigger hkind htriggerable hstatus v
            exact (hinv.trigger _ hcalled he).elim hnotWaiting hnotApplied
          | _ => cases he
    next => cases h
  | apply =>
    simp only [machine] at h
    split at h
    · cases h
    · next event waiting hwaiting =>
      cases h
      exact hinv.apply hwaiting
  | change tag =>
    cases h
    exact hinv.change _

/-- Where the engine keeps up with the announcements of an order, each is made at most once. -/
theorem once_of_run {trace : List Step}
    (hrun : (machine record id).Run (KeepsUp record id) trace s) : Once s := by
  have hinv : Inv record s := by
    refine hrun.invariant (I := Inv record) ?_ ?_
    · rintro s ⟨hwaiting, hcalled⟩
      have hnone : ∀ event, event ∉ s.called := by simp [hcalled]
      exact ⟨⟨by simp [hcalled], by simp [hcalled]⟩, fun e he => (hnone e he).elim,
        fun e he => (hnone e he).elim, fun e he => (hnone e he).elim⟩
    · intro s step t hinv hkeeps hstep
      exact hinv.step hkeeps hstep
  exact hinv.toOnce

end

/-! ### A stop-limit order of two contracts -/

def submittedStop : TrackedOrder :=
  ⟨.submitted, "MNQZ6-CME.RITHMIC", .buy, .stopLimit, 2, some "21000.25", some "21000.00", some 2, 3⟩

/-- The engine's order under one change, for the statuses that the runs below go through. -/
def advance (o : TrackedOrder) : Change → TrackedOrder
  | .applied (.accepted _) => if o.status = .submitted then { o with status := .accepted } else o
  | .applied (.rejected _) => if o.status = .submitted then { o with status := .rejected } else o
  | .applied (.triggered _) => if o.status = .accepted then { o with status := .triggered } else o
  | .applied (.canceled _) => if o.status.isClosed then o else { o with status := .canceled }
  | .applied (.filled _ _ _ _ quantity _) =>
    if o.status.isClosed then o
    else
      let leaves := o.leavesQty.getD 0 - quantity
      { o with status := if leaves = 0 then .filled else .partiallyFilled, leavesQty := some leaves }
  | _ => o

theorem advance_not_local {o : TrackedOrder} {change : Change} (h : isLocal o.status = false) :
    isLocal (advance o change).status = false := by
  unfold advance
  repeat' split
  all_goals first | exact h | rfl | (dsimp only; split <;> rfl)

theorem advance_ne_submitted {o : TrackedOrder} {change : Change} (h : o.status ≠ .submitted) :
    (advance o change).status ≠ .submitted := by
  unfold advance
  repeat' split
  all_goals first | exact h | (dsimp only; split <;> simp) | simp

theorem advance_accepted_ne {o : TrackedOrder} {venueId : String} :
    (advance o (.applied (.accepted venueId))).status ≠ .submitted := by
  unfold advance
  dsimp only
  split
  · simp
  · next h => exact h

theorem foldl_advance {P : TrackedOrder → Prop} (hadvance : ∀ o change, P o → P (advance o change))
    (changes : List Change) {o : TrackedOrder} (h : P o) : P (changes.foldl advance o) := by
  induction changes generalizing o with
  | nil => exact h
  | cons change changes ih => exact ih (hadvance o change h)

def stopRecord : OrderRecord where
  view changes := changes.foldl advance submittedStop
  not_local before after hbefore := by
    rw [List.foldl_append]
    exact foldl_advance (P := fun o => isLocal o.status = false) (fun _ _ => advance_not_local)
      after hbefore
  not_submitted before after venueId _ := by
    rw [List.foldl_append]
    exact foldl_advance (P := fun o => o.status ≠ .submitted) (fun _ _ => advance_ne_submitted)
      after advance_accepted_ne

def cacheOf (order : TrackedOrder) : Cache where
  order id := if id = "T1" then some order else none
  clientOrderId basket := if basket = "B1" then some "T1" else none
  venueOrderId id := if id = "T1" then some "B1" else none

/-- A notification about the order while the engine has applied `changes`. -/
def notified (changes : List Change) (event : OrderNotification) : Step :=
  .notify (.accepting (cacheOf (stopRecord.view changes))) event

def stateNotice (source : Source) (name : String) : OrderNotification :=
  { source := source, notifyTypeName := some name, basketId := some "B1", userTag := some "T1"
    accountId := some "ACC", symbol := some "MNQZ6", exchange := some "CME", tsEventNs := some 5 }

def openNotice : OrderNotification := stateNotice .rithmic "OPEN"

def triggerNotice : OrderNotification := stateNotice .exchange "TRIGGER"

def untouched : State := ⟨.armed, [], [], []⟩

/-- The fill that `sampleFill` becomes. -/
def firstFill : OrderEvent := .filled "B1" "F1" .buy .stopLimit 1 "21000.25"

/-- Two `OPEN`s before the engine applies the first acceptance. -/
def doubledOpen : List Step := [notified [] openNotice, notified [] openNotice]

/-- A trigger, a partial fill, and the trigger again, each applied before the next comes. -/
def doubledTrigger : List Step :=
  let accepted : Change := .applied (.accepted "B1")
  let triggered : Change := .applied (.triggered "B1")
  [notified [] openNotice, .apply, notified [accepted] triggerNotice, .apply,
    notified [accepted, triggered] sampleFill, .apply,
    notified [accepted, triggered, .applied firstFill] triggerNotice]

/-- Both announcements are made twice: the acceptance while the engine falls behind, the trigger
although it keeps up. -/
theorem announced_twice :
    (∃ s, (machine stopRecord "T1").Run Machine.Free doubledOpen s ∧
      s.called.countP isAccepted = 2) ∧
    ∃ s, (machine stopRecord "T1").Run Machine.Free doubledTrigger s ∧
      s.called.countP isTriggered = 2 := by
  have hopen : ((machine stopRecord "T1").exec Machine.Free untouched doubledOpen).map
      (·.called.countP isAccepted) = some 2 := rfl
  have htrigger : ((machine stopRecord "T1").exec Machine.Free untouched doubledTrigger).map
      (·.called.countP isTriggered) = some 2 := rfl
  obtain ⟨s, hs, hcount⟩ := Option.map_eq_some_iff.mp hopen
  obtain ⟨t, ht, hcount'⟩ := Option.map_eq_some_iff.mp htrigger
  exact ⟨⟨s, Machine.run_of_exec ⟨rfl, rfl⟩ hs, hcount⟩,
    ⟨t, Machine.run_of_exec ⟨rfl, rfl⟩ ht, hcount'⟩⟩

/-- With nothing to apply, and no trigger applied that the order has moved on from, the engine has kept
up. -/
theorem keepsUp_of_idle {s : State} {changes : List Change} {event : OrderNotification}
    (hwaiting : s.waiting = []) (htrigger : (stopRecord.view s.changes).status = .triggered ∨
      ∀ venueId, .applied (.triggered venueId) ∉ s.changes) :
    KeepsUp stopRecord "T1" s (notified changes event) := by
  refine ⟨fun _ => rfl, fun f _ => ⟨fun _ _ v => ?_, fun _ _ hstatus v => ⟨?_, ?_⟩⟩⟩
  · simp [hwaiting]
  · simp [hwaiting]
  · exact (htrigger.resolve_left hstatus) v

/-- The `OPEN` and the trigger each come again when they have been applied. -/
def repeatedNotices : List Step :=
  let accepted : Change := .applied (.accepted "B1")
  let triggered : Change := .applied (.triggered "B1")
  [notified [] openNotice, .apply, notified [accepted] openNotice, notified [accepted] triggerNotice,
    .apply, notified [accepted, triggered] triggerNotice]

theorem once_repeatedNotices : ∃ s,
    (machine stopRecord "T1").Run (KeepsUp stopRecord "T1") repeatedNotices s ∧
      s.called = [.accepted "B1", .triggered "B1"] ∧ Once s := by
  obtain ⟨s₁, s₂, s₃, s₄, s₅, s₆, hopen, happly, hagain, htrigger, happly', hagain', hidle, hidle',
      hlast, hcalled⟩ : ∃ s₁ s₂ s₃ s₄ s₅ s₆,
      (machine stopRecord "T1").step untouched (notified [] openNotice) = some s₁ ∧
      (machine stopRecord "T1").step s₁ .apply = some s₂ ∧
      (machine stopRecord "T1").step s₂ (notified [.applied (.accepted "B1")] openNotice) = some s₃ ∧
      (machine stopRecord "T1").step s₃ (notified [.applied (.accepted "B1")] triggerNotice) =
        some s₄ ∧
      (machine stopRecord "T1").step s₄ .apply = some s₅ ∧
      (machine stopRecord "T1").step s₅
        (notified [.applied (.accepted "B1"), .applied (.triggered "B1")] triggerNotice) = some s₆ ∧
      (s₂.waiting = [] ∧ s₂.changes = [.applied (.accepted "B1")]) ∧
      (s₃.waiting = [] ∧ s₃.changes = [.applied (.accepted "B1")]) ∧
      (s₅.waiting = [] ∧ (stopRecord.view s₅.changes).status = .triggered) ∧
      s₆.called = [.accepted "B1", .triggered "B1"] :=
    ⟨_, _, _, _, _, _, rfl, rfl, rfl, rfl, rfl, rfl, ⟨rfl, rfl⟩, ⟨rfl, rfl⟩, ⟨rfl, rfl⟩, rfl⟩
  have hstart : (machine stopRecord "T1").Run (KeepsUp stopRecord "T1") [] untouched :=
    .start ⟨rfl, rfl⟩
  have hopened := hstart.next (keepsUp_of_idle rfl (.inr fun v => by simp [untouched])) hopen
  have hreopened := (hopened.next (a := Step.apply) trivial happly).next
    (keepsUp_of_idle hidle.1 (.inr fun v => by simp [hidle.2])) hagain
  have htriggered := hreopened.next
    (keepsUp_of_idle hidle'.1 (.inr fun v => by simp [hidle'.2])) htrigger
  have hrun : (machine stopRecord "T1").Run (KeepsUp stopRecord "T1") repeatedNotices s₆ :=
    (htriggered.next (a := Step.apply) trivial happly').next
      (keepsUp_of_idle hlast.1 (.inl hlast.2)) hagain'
  exact ⟨s₆, hrun, hcalled, once_of_run hrun⟩

end RithmicNt.Adapter.Announcements
