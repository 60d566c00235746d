import RithmicNt.Gateway.Failures
import RithmicNt.Host.Commands
import RithmicNt.Lib.Results

/-! The errors that an order command of the host can end with: those of the host's own checks, of the
venue's, of the terms of the order, and of the answer of the order plant.  They are few, and every one
of them has one class in both connection modes. -/

namespace RithmicNt.Gateway.OrderFailures

open RithmicNt.Lib RithmicNt.Gateway.Failures RithmicNt.Host.Commands

/-- `rithmic_rs::RithmicError`, by its printed form. -/
inductive RithmicError
  | requestRejected (text : String)
  | noTradeRoute (text : String)
  | invalidArgument (text : String)
  | other (text : String)
  deriving DecidableEq, Repr

def RithmicError.text : RithmicError → String
  | .requestRejected text | .noTradeRoute text | .invalidArgument text | .other text => text

structure RithmicResponse where
  error : Option RithmicError
  deriving DecidableEq, Repr

/-- Prices are the bits of their floats. -/
structure PlaceOrder where
  symbol : String
  exchange : String
  side : String
  priceType : String
  quantity : Int
  userTag : String
  price : Option UInt64
  triggerPrice : Option UInt64
  duration : String
  trailByTicks : Option Int
  trailByPriceId : Option Int
  deriving DecidableEq, Repr

structure PlaceBracketOrder where
  symbol : String
  exchange : String
  side : String
  priceType : String
  quantity : Int
  localid : String
  price : Option UInt64
  triggerPrice : Option UInt64
  duration : String
  stopTicks : Option Int
  targetTicks : Option Int
  deriving DecidableEq, Repr

structure ModifyOrder where
  basketId : String
  symbol : String
  exchange : String
  quantity : Int
  priceType : String
  price : Option UInt64
  triggerPrice : Option UInt64
  trailByTicks : Option Int
  deriving DecidableEq, Repr

inductive BracketLeg
  | stop
  | target
  deriving DecidableEq, Repr

/-- What a builder of `rithmic-rs` is given. -/
inductive Request
  | place (o : PlaceOrder)
  | bracket (o : PlaceBracketOrder)
  | adjust (leg : BracketLeg) (basketId : String) (ticks : Int) (level : Option Int)
  | cancel (basketId : String)
  | modify (o : ModifyOrder)
  | cancelAll
  deriving DecidableEq, Repr

/-- `rithmic-rs`, as far as an order command sees it: whether a name parses and a request builds, and
what the order plant answers, once or in several parts. -/
structure Crate where
  orderSide : String → Except String Unit
  orderType : String → Except String Unit
  timeInForce : String → Except String Unit
  build : Request → Except String Unit
  one : Request → Except RithmicError RithmicResponse
  many : Request → Except RithmicError (List RithmicResponse)

/-! ### The answer of the order plant -/

def orderFailure (e : RithmicError) : Error :=
  match e with
  | .requestRejected _ => .rejected e.text
  | .noTradeRoute _ | .invalidArgument _ => .notSent e.text
  | .other _ => .outcomeUnknown e.text

def orderResponseFailure (resp : RithmicResponse) (ctx : String) : Option Error :=
  resp.error.map fun e =>
    let message := ctx ++ ": " ++ e.text
    match orderFailure e with
    | .rejected _ => .rejected message
    | .notSent _ => .notSent message
    | _ => .outcomeUnknown message

def orderResultMany (result : Except RithmicError (List RithmicResponse)) (ctx : String) :
    Except Error Unit := do
  let responses ← result.mapError orderFailure
  match responses.findSome? (orderResponseFailure · ctx) with
  | some err => .error err
  | none => .ok ()

def orderResultOne (result : Except RithmicError RithmicResponse) (ctx : String) :
    Except Error Unit := do
  let response ← result.mapError orderFailure
  match orderResponseFailure response ctx with
  | some err => .error err
  | none => .ok ()

/-! ### The orders -/

namespace Crate

variable (r : Crate)

def parseOrderTerms (side priceType duration : String) : Except Error Unit := do
  (r.orderSide side).mapError fun e => .notSent ("invalid order side: " ++ e)
  (r.orderType priceType).mapError fun e => .notSent ("invalid price type: " ++ e)
  if duration = "" then .ok ()
  else (r.timeInForce duration).mapError fun e => .notSent ("invalid duration: " ++ e)

def built (request : Request) : Except Error Unit := (r.build request).mapError .notSent

def placeOrderOn (o : PlaceOrder) : Except Error Unit := do
  r.parseOrderTerms o.side o.priceType o.duration
  r.built (.place o)
  orderResultMany (r.many (.place o)) "place_order"

def cancelOrderOn (basketId : String) : Except Error Unit := do
  r.built (.cancel basketId)
  orderResultMany (r.many (.cancel basketId)) "cancel_order"

def placeBracketOrderOn (o : PlaceBracketOrder) : Except Error Unit :=
  if o.stopTicks = none ∧ o.targetTicks = none then
    .error (.notSent "place_bracket_order requires stop_ticks and/or target_ticks")
  else do
    r.parseOrderTerms o.side o.priceType o.duration
    r.built (.bracket o)
    orderResultMany (r.many (.bracket o)) "place_bracket_order"

def adjustBracketOn (leg : BracketLeg) (basketId : String) (ticks : Int) (level : Option Int) :
    Except Error Unit := do
  r.built (.adjust leg basketId ticks level)
  match leg with
  | .stop => orderResultOne (r.one (.adjust leg basketId ticks level)) "adjust_bracket_stop"
  | .target => orderResultOne (r.one (.adjust leg basketId ticks level)) "adjust_bracket_target"

def modifyOrderOn (o : ModifyOrder) : Except Error Unit := do
  (r.orderType o.priceType).mapError fun e => .notSent ("invalid price type: " ++ e)
  r.built (.modify o)
  orderResultMany (r.many (.modify o)) "modify_order"

def cancelAllOrdersOn : Except Error Unit := do
  r.built .cancelAll
  orderResultOne (r.one .cancelAll) "cancel_all_orders"

end Crate

/-! ### The plant venue -/

/-- What the checks of one order command meet: the gates, the disconnects in progress before and behind
the wait for `session_ops`, the closed flag, and the order plant, or what ensuring it failed with. -/
structure RithmicVenue where
  tradingEnabled : Bool
  cancelAllEnabled : Bool
  disconnecting : Nat
  disconnectingThen : Nat
  orderClosed : Bool
  orderHandle : Except Error Unit

namespace RithmicVenue

variable (v : RithmicVenue) (r : Crate)

def requireTrading (what : String) : Except Error Unit :=
  if v.tradingEnabled then .ok ()
  else .error (.gateway "trading_disabled" (what ++ " denied: trading disabled"))

def requireCancelAll : Except Error Unit :=
  if v.cancelAllEnabled then .ok ()
  else .error (.gateway "cancel_all_denied" "cancel_all_orders denied: cancel_all disabled")

def beginOrderOp : Except Error Unit :=
  if 0 < v.disconnecting ∨ 0 < v.disconnectingThen then .error (.notSent disconnectInProgress)
  else .ok ()

def commandHandle : Except Error Unit :=
  if v.orderClosed then .error (.notSent orderPlantClosed)
  else v.orderHandle.mapError fun e => .notSent e.text

/-- The wait for the order plant, behind the gate. -/
def begun : Except Error Unit := do
  v.beginOrderOp
  v.commandHandle

def placeOrder (o : PlaceOrder) : Except Error Unit := do
  v.requireTrading "place_order"
  v.begun
  r.placeOrderOn o

def placeBracketOrder (o : PlaceBracketOrder) : Except Error Unit := do
  v.requireTrading "place_bracket_order"
  v.begun
  r.placeBracketOrderOn o

def adjustBracketStop (basketId : String) (ticks : Int) (level : Option Int) :
    Except Error Unit := do
  v.requireTrading "adjust_bracket_stop"
  v.begun
  r.adjustBracketOn .stop basketId ticks level

def adjustBracketTarget (basketId : String) (ticks : Int) (level : Option Int) :
    Except Error Unit := do
  v.requireTrading "adjust_bracket_target"
  v.begun
  r.adjustBracketOn .target basketId ticks level

def cancelOrder (basketId : String) : Except Error Unit := do
  v.requireTrading "cancel_order"
  v.begun
  r.cancelOrderOn basketId

def modifyOrder (o : ModifyOrder) : Except Error Unit := do
  v.requireTrading "modify_order"
  v.begun
  r.modifyOrderOn o

def cancelAllOrders : Except Error Unit := do
  v.requireCancelAll
  v.begun
  r.cancelAllOrdersOn

/-- The command of a request. -/
def command : Request → Except Error Unit
  | .place o => v.placeOrder r o
  | .bracket o => v.placeBracketOrder r o
  | .adjust .stop basketId ticks level => v.adjustBracketStop r basketId ticks level
  | .adjust .target basketId ticks level => v.adjustBracketTarget r basketId ticks level
  | .cancel basketId => v.cancelOrder r basketId
  | .modify o => v.modifyOrder r o
  | .cancelAll => v.cancelAllOrders r

end RithmicVenue

/-! ### The errors -/

/-- The errors of the order commands. -/
def OrderError : Error → Prop
  | .rejected _ | .notSent _ | .outcomeUnknown _ => True
  | .gateway code _ => code ∈ ["trading_disabled", "cancel_all_denied", "no_session"]
  | _ => False

theorem orderFailure_kind (e : RithmicError) : OrderError (orderFailure e) := by
  cases e with
  | requestRejected text => trivial
  | noTradeRoute text => trivial
  | invalidArgument text => trivial
  | other text => trivial

theorem orderResponseFailure_kind {resp : RithmicResponse} {ctx : String} {e : Error}
    (h : orderResponseFailure resp ctx = some e) : OrderError e := by
  obtain ⟨cause, -, rfl⟩ := Option.map_eq_some_iff.mp h
  cases cause with
  | requestRejected text => trivial
  | noTradeRoute text => trivial
  | invalidArgument text => trivial
  | other text => trivial

theorem orderResultMany_fails (result : Except RithmicError (List RithmicResponse)) (ctx : String) :
    FailsWith OrderError (orderResultMany result ctx) := by
  refine (failsWith_mapError orderFailure_kind result).bind fun responses => ?_
  split
  · next err herr =>
    obtain ⟨resp, -, hresp⟩ := List.exists_of_findSome?_eq_some herr
    exact failsWith_error (orderResponseFailure_kind hresp)
  · exact failsWith_ok ()

theorem orderResultOne_fails (result : Except RithmicError RithmicResponse) (ctx : String) :
    FailsWith OrderError (orderResultOne result ctx) := by
  refine (failsWith_mapError orderFailure_kind result).bind fun response => ?_
  split
  · next err herr => exact failsWith_error (orderResponseFailure_kind herr)
  · exact failsWith_ok ()

section

variable (v : RithmicVenue) (r : Crate)

theorem built_fails (request : Request) : FailsWith OrderError (r.built request) :=
  failsWith_mapError (fun _ => trivial) _

theorem parseOrderTerms_fails (side priceType duration : String) :
    FailsWith OrderError (r.parseOrderTerms side priceType duration) := by
  refine (failsWith_mapError (fun _ => trivial) _).bind fun _ => ?_
  refine (failsWith_mapError (fun _ => trivial) _).bind fun _ => ?_
  exact failsWith_ite (failsWith_ok ()) (failsWith_mapError (fun _ => trivial) _)

theorem requireTrading_fails (what : String) : FailsWith OrderError (v.requireTrading what) :=
  failsWith_ite (failsWith_ok ()) (failsWith_error (by simp [OrderError]))

theorem requireCancelAll_fails : FailsWith OrderError v.requireCancelAll :=
  failsWith_ite (failsWith_ok ()) (failsWith_error (by simp [OrderError]))

/-- A missing or unreachable order plant is an order that was not sent, whatever ensuring it failed
with. -/
theorem begun_fails : FailsWith OrderError v.begun := by
  refine (failsWith_ite (failsWith_error trivial) (failsWith_ok ())).bind fun _ => ?_
  exact failsWith_ite (failsWith_error trivial) (failsWith_mapError (fun _ => trivial) _)

/-- Whatever the crate answers, an order command of the venue fails with one of the order errors. -/
theorem command_fails (request : Request) : FailsWith OrderError (v.command r request) := by
  cases request with
  | place o =>
    refine (requireTrading_fails v _).bind fun _ => (begun_fails v).bind fun _ => ?_
    refine (parseOrderTerms_fails r _ _ _).bind fun _ => (built_fails r _).bind fun _ => ?_
    exact orderResultMany_fails _ _
  | bracket o =>
    refine (requireTrading_fails v _).bind fun _ => (begun_fails v).bind fun _ => ?_
    refine failsWith_ite (failsWith_error trivial) ?_
    refine (parseOrderTerms_fails r _ _ _).bind fun _ => (built_fails r _).bind fun _ => ?_
    exact orderResultMany_fails _ _
  | adjust leg basketId ticks level =>
    cases leg with
    | stop =>
      refine (requireTrading_fails v _).bind fun _ => (begun_fails v).bind fun _ => ?_
      exact (built_fails r _).bind fun _ => orderResultOne_fails _ _
    | target =>
      refine (requireTrading_fails v _).bind fun _ => (begun_fails v).bind fun _ => ?_
      exact (built_fails r _).bind fun _ => orderResultOne_fails _ _
  | cancel basketId =>
    refine (requireTrading_fails v _).bind fun _ => (begun_fails v).bind fun _ => ?_
    exact (built_fails r _).bind fun _ => orderResultMany_fails _ _
  | modify o =>
    refine (requireTrading_fails v _).bind fun _ => (begun_fails v).bind fun _ => ?_
    refine (failsWith_mapError (fun _ => trivial) _).bind fun _ => ?_
    exact (built_fails r _).bind fun _ => orderResultMany_fails _ _
  | cancelAll =>
    refine (requireCancelAll_fails v).bind fun _ => (begun_fails v).bind fun _ => ?_
    exact (built_fails r _).bind fun _ => orderResultOne_fails _ _

end

/-! ### The host -/

/-- An error of the host's own checks, which have no other kinds than the first two. -/
def ofHost : Host.Error → Error
  | .gateway code message => .gateway code message
  | .notSent message => .notSent message
  | .other text => .session text

/-- The error that an order command of a session returns. -/
def returned : Answer (Except Error Unit) → Option Error
  | .refused e => some (ofHost e)
  | .outcomeUnknown message => some (.outcomeUnknown message)
  | .venue (.error e) => some e
  | .venue (.ok ()) => none

/-- What the venue's future of a command ends with, in a move that polls it. -/
def polled : Move Call (Act (Except Error Unit)) → Option (Except Error Unit)
  | .run _ (.poll result) => result
  | _ => none

/-- The venue's futures end as its order commands do. -/
def FromVenue (_ : Pool (State (Except Error Unit)) (Place (Except Error Unit)))
    (m : Move Call (Act (Except Error Unit))) : Prop :=
  ∀ result, polled m = some result → ∃ v r request, result = RithmicVenue.command v r request

section

variable {s : State (Except Error Unit)} {session : Nat}

theorem active_fails : FailsWith (OrderError ∘ ofHost) (s.active session) :=
  failsWith_ite (failsWith_error trivial) (failsWith_ite (failsWith_ok ()) (failsWith_error trivial))

theorem notDisconnecting_fails : FailsWith (OrderError ∘ ofHost) (s.notDisconnecting session) :=
  failsWith_ite (failsWith_error trivial) (failsWith_ok ())

theorem requireGate_fails (g : Host.Gates) (m : Host.Method) :
    FailsWith (OrderError ∘ ofHost) (Host.requireGate g m) := by
  unfold Host.requireGate
  split
  · exact failsWith_ite (failsWith_ok ()) (failsWith_error (by simp [OrderError, ofHost]))
  · exact failsWith_ite (failsWith_ok ()) (failsWith_error (by simp [OrderError, ofHost]))
  · exact failsWith_ok ()

theorem guard_fails (c : Command) : FailsWith (OrderError ∘ ofHost) (s.guard session c) :=
  active_fails.bind fun _ => (requireGate_fails _ _).bind fun _ => notDisconnecting_fails

theorem guarded_fails : FailsWith (OrderError ∘ ofHost) (s.guarded session) := by
  have hvenue : FailsWith (OrderError ∘ ofHost) (if s.venue then .ok () else .error Host.noVenue) :=
    failsWith_ite (failsWith_ok ()) (failsWith_error (by simp [OrderError, ofHost, Host.noVenue]))
  refine active_fails.bind fun _ => notDisconnecting_fails.bind fun _ => ?_
  refine failsWith_ite (FailsWith.bind (failsWith_error ?_) fun _ => hvenue) hvenue
  trivial

end

/-! ### Runs -/

/-- How an order command that runs comes to an answer. -/
inductive Answers (s : State (Except Error Unit)) (act : Act (Except Error Unit)) :
    Answer (Except Error Unit) → Prop
  | unguarded {session : Nat} {e : Host.Error} : s.guarded session = .error e →
      Answers s act (.refused e)
  | inactive {session : Nat} {e : Host.Error} : s.active session = .error e →
      Answers s act (.refused e)
  | interrupted : Answers s act (.outcomeUnknown interruptedMsg)
  | venue {x : Except Error Unit} : act = .poll (some x) → Answers s act (.venue x)

theorem answers_of_run {i : Nat} {s t : State (Except Error Unit)} {p : Place (Except Error Unit)}
    {act : Act (Except Error Unit)} {a : Answer (Except Error Unit)}
    (hr : State.run i s p act = some (t, .answered a)) : Answers s act a := by
  unfold State.run at hr
  split at hr
  -- all other steps lead to a place that is no answer
  all_goals (try simp [State.leave, State.alone] at hr)
  · split at hr
    · next e he =>
      cases hr
      exact .unguarded he
    · cases hr
  · split at hr
    · next e he =>
      cases hr
      exact .inactive he
    · cases hr
  · unfold State.watch at hr
    split at hr
    · cases hr
      exact .interrupted
    · cases hr
  · unfold State.pollVenue at hr
    split at hr
    · cases hr
      exact .venue rfl
    · cases hr
  · obtain ⟨-, hr⟩ := hr
    split at hr
    · cases hr
    · split at hr
      · cases hr
      · cases hr

/-- What a command that has ended returns is one of the order errors. -/
def Returns (p : Place (Except Error Unit)) : Prop :=
  ∀ a, p = .answered a → ∀ e, returned a = some e → OrderError e

theorem returns_spawn {i : Nat} {s : State (Except Error Unit)} {c : Call}
    {r : State (Except Error Unit) × Place (Except Error Unit)} (hr : State.spawn i s c = some r) :
    Returns r.2 := by
  intro a ha e he
  cases c with
  | command session c =>
    simp only [State.spawn] at hr
    split at hr
    · next cause hguard =>
      cases hr
      cases ha
      cases he
      exact guard_fails c cause hguard
    · cases hr
      cases ha
  | _ =>
    cases hr
    cases ha

theorem returns_run {i : Nat} {s : State (Except Error Unit)} {p : Place (Except Error Unit)}
    {act : Act (Except Error Unit)} {r : State (Except Error Unit) × Place (Except Error Unit)}
    (hvenue : ∀ x, act = .poll (some x) → FailsWith OrderError x)
    (hr : State.run i s p act = some r) : Returns r.2 := by
  obtain ⟨t, q⟩ := r
  rintro a rfl e he
  cases answers_of_run hr with
  | unguarded h =>
    cases he
    exact guarded_fails _ h
  | inactive h =>
    cases he
    exact active_fails _ h
  | interrupted =>
    cases he
    trivial
  | @venue x h =>
    cases x with
    | error e' =>
      cases he
      exact hvenue _ h e rfl
    | ok u => cases he

theorem orderError_of_run {trace : List (Move Call (Act (Except Error Unit)))}
    {P : Pool (State (Except Error Unit)) (Place (Except Error Unit))}
    (h : (machine (Except Error Unit)).Run FromVenue trace P) {i : Nat}
    {a : Answer (Except Error Unit)} {e : Error} (hi : P.At i (.answered a))
    (he : returned a = some e) : OrderError e := by
  have hP : P.Holds (fun _ => True) (fun _ p _ => Returns p) := by
    refine Program.holds_of_run (fun _ _ => trivial) ?_ ?_ h
    · intro P c r hP hr _
      exact ⟨trivial, returns_spawn (i := 0) hr, fun j q _ hq => hP.places j q hq⟩
    · intro P i act p r hP _ hr hfrom
      refine ⟨trivial, returns_run ?_ hr, fun j q _ hq => hP.places j q hq⟩
      rintro x rfl
      obtain ⟨v, crate, request, rfl⟩ := hfrom x rfl
      exact command_fails v crate request
  exact hP.places i _ hi a rfl e he

theorem carried_of_orderError {e : Error} (h : OrderError e) : Carried e := by
  cases e with
  | gateway code message =>
    intro hcode
    have hcodes : code ∈ ["trading_disabled", "cancel_all_denied", "no_session"] := h
    rw [hcode] at hcodes
    exact absurd hcodes (by decide)
  | rejected message => trivial
  | notSent message => trivial
  | outcomeUnknown message => trivial
  | _ => exact h.elim

/-- Every error that an order command of the host returns, in any interleaving with the host's
interruptions and whatever the order plant answers, has one class in both connection modes; and the
typed errors are the same behind any number of gateways. -/
theorem failureClass_of_run {trace : List (Move Call (Act (Except Error Unit)))}
    {P : Pool (State (Except Error Unit)) (Place (Except Error Unit))}
    (h : (machine (Except Error Unit)).Run FromVenue trace P) :
    (∀ i a e, P.At i (.answered a) → returned a = some e →
      failureClass (toPyErr e) = failureClass (toPyErr (hop e))) ∧
    ∀ e : Error, e.Typed → ∀ n, hop^[n] e = e := by
  refine ⟨?_, fun e he n => iterate_hop_of_typed he n⟩
  intro i a e hi he
  exact ((sameFailure_iff e).mpr (carried_of_orderError (orderError_of_run h hi he))).1

/-- An order plant that rejects every order. -/
def rejecting : Crate where
  orderSide _ := .ok ()
  orderType _ := .ok ()
  timeInForce _ := .ok ()
  build _ := .ok ()
  one _ := .ok ⟨some (.requestRejected "limit exceeded")⟩
  many _ := .ok [⟨none⟩, ⟨some (.requestRejected "limit exceeded")⟩]

def openVenue : RithmicVenue where
  tradingEnabled := true
  cancelAllEnabled := false
  disconnecting := 0
  disconnectingThen := 0
  orderClosed := false
  orderHandle := .ok ()

def rejected : Except Error Unit := openVenue.command rejecting (.cancel "B1")

/-- A command while the host is not connected, one behind the closed gate, and one that the venue
rejects. -/
def rejectedOnce : List (Move Call (Act (Except Error Unit))) :=
  [.spawn (.command 0 .cancelOrder), .spawn .connect, .run 1 .go, .run 1 (.answer true),
    .spawn (.command 0 .cancelAllOrders), .spawn (.command 0 .cancelOrder), .run 3 .go, .run 3 .go,
    .run 3 .go, .run 3 .go, .run 3 .go, .run 3 (.poll (some rejected))]

/-- The three commands return errors of three kinds, each of one class in both modes. -/
theorem failureClass_rejectedOnce : ∃ P, (machine (Except Error Unit)).Run FromVenue rejectedOnce P ∧
    P.At 0 (.answered (.refused (.notSent
      "gateway not ready (plants reconnecting); request not sent"))) ∧
    P.At 2 (.answered (.refused (.gateway "cancel_all_denied"
      "cancel_all_orders denied: parent cancel_all disabled"))) ∧
    P.At 3 (.answered (.venue rejected)) ∧
    failureClass (toPyErr (.rejected "cancel_order: limit exceeded")) =
      failureClass (toPyErr (hop (.rejected "cancel_order: limit exceeded"))) := by
  have hexec : ∃ P, (machine (Except Error Unit)).exec
        (fun _ m => polled m = none ∨ polled m = some rejected) ⟨{ gates := ⟨true, false⟩ }, []⟩ rejectedOnce = some P ∧
      P.At 0 (.answered (.refused (.notSent
        "gateway not ready (plants reconnecting); request not sent"))) ∧
      P.At 2 (.answered (.refused (.gateway "cancel_all_denied"
        "cancel_all_orders denied: parent cancel_all disabled"))) ∧
      P.At 3 (.answered (.venue rejected)) := ⟨_, rfl, rfl, rfl, rfl⟩
  obtain ⟨P, hexec, hunready, hclosed, hrejected⟩ := hexec
  have hrun : (machine (Except Error Unit)).Run FromVenue rejectedOnce P := by
    refine Machine.Run.mono ?_ (Machine.run_of_exec ⟨⟨rfl, rfl, rfl, rfl⟩, rfl⟩ hexec)
    intro _ m hpolled result hresult
    rcases hpolled with hnone | hrejected
    · rw [hnone] at hresult
      cases hresult
    · exact ⟨openVenue, rejecting, .cancel "B1", Option.some.inj (hresult.symm.trans hrejected)⟩
  exact ⟨P, hrun, hunready, hclosed, hrejected,
    (failureClass_of_run hrun).1 3 _ _ hrejected rfl⟩

end RithmicNt.Gateway.OrderFailures
