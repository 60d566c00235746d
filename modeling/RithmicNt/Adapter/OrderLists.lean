import Mathlib.Logic.Relation
import RithmicNt.Exec.Plant
import RithmicNt.Adapter.Rows

/-! `_submit_order` and `_submit_order_list`: what the client announces to the engine and what it sends
to the venue, for one order and for a list of them.  A list of three orders that name one another may
become one plant bracket; every other list is taken apart. -/

namespace RithmicNt.Adapter.OrderLists

open RithmicNt.Exec

/-! ### Orders -/

inductive OrderSide
  | noOrderSide
  | buy
  | sell
  deriving DecidableEq, Repr

inductive TimeInForce
  | gtc
  | ioc
  | fok
  | gtd
  | day
  | atTheOpen
  | atTheClose
  deriving DecidableEq, Repr

inductive TrailingOffsetType
  | noTrailingOffset
  | price
  | basisPoints
  | ticks
  | priceTier
  deriving DecidableEq, Repr

/-- An order as the engine hands it over: `π` are its prices, `δ` its trailing offset.  `has_price` and
`has_trigger_price` are the presence of the two prices. -/
structure Order (π δ : Type) where
  clientOrderId : String
  parentOrderId : Option String := none
  linkedOrderIds : List String := []
  instrumentId : String
  side : OrderSide
  orderType : OrderType
  timeInForce : TimeInForce
  quantity : Int
  price : Option π := none
  triggerPrice : Option π := none
  trailingOffsetType : Option TrailingOffsetType := none
  trailingOffset : Option δ := none
  deriving DecidableEq, Repr

/-- What the language supplies: float arithmetic, the readings of an offset, and `repr`.  `ticksBetween a
b tick` is `round(abs(a - b) / tick)`, where it does not raise. -/
structure Runtime (π δ : Type) where
  positive : π → Bool
  ticksBetween : π → π → π → Option Int
  intOf : δ → Int
  wholeTicks : δ → Bool
  reprSide : OrderSide → String
  reprType : OrderType → String
  reprTif : TimeInForce → String
  reprOffsetType : Option TrailingOffsetType → String
  reprOffset : δ → String

variable {π δ : Type} (r : Runtime π δ)

/-! ### Translation: every error is a `ValueError`, with its text -/

def nautilusSideToRithmic : OrderSide → Except String String
  | .buy => .ok "BUY"
  | .sell => .ok "SELL"
  | side => .error ("unsupported order side: " ++ r.reprSide side)

def nautilusOrderTypeToRithmic : OrderType → Except String String
  | .market => .ok "MARKET"
  | .limit => .ok "LIMIT"
  | .stopMarket => .ok "STOP_MARKET"
  | .stopLimit => .ok "STOP_LIMIT"
  | .marketIfTouched => .ok "MARKET_IF_TOUCHED"
  | .limitIfTouched => .ok "LIMIT_IF_TOUCHED"
  | .trailingStopMarket => .ok "STOP_MARKET"
  | .trailingStopLimit => .ok "STOP_LIMIT"
  | type => .error ("unsupported order type for Rithmic: " ++ r.reprType type)

def nautilusTifToRithmic : TimeInForce → Except String String
  | .day => .ok "DAY"
  | .gtc => .ok "GTC"
  | .ioc => .ok "IOC"
  | .fok => .ok "FOK"
  | tif => .error ("unsupported time in force for Rithmic: " ++ r.reprTif tif)

def isTrailingOrderType (type : OrderType) : Bool :=
  type == .trailingStopMarket || type == .trailingStopLimit

def trailingTicksFromOrder (o : Order π δ) : Except String (Option Int) :=
  if !isTrailingOrderType o.orderType then .ok none
  else if o.trailingOffsetType ≠ some .ticks then
    .error ("Rithmic trailing stops require TrailingOffsetType.TICKS; got " ++
      r.reprOffsetType o.trailingOffsetType)
  else match o.trailingOffset with
    | none => .error "trailing stop missing trailing_offset"
    | some offset =>
      if r.intOf offset < 1 then
        .error ("trailing_offset must be >= 1 tick; got " ++ r.reprOffset offset)
      else if !r.wholeTicks offset then
        .error ("trailing_offset must be a whole tick count; got " ++ r.reprOffset offset)
      else .ok (some (r.intOf offset))

/-! ### The client -/

/-- A contract of the engine's cache: its tick and the two route fields of its `info`. -/
structure Instrument (π : Type) where
  priceIncrement : π
  rithmicSymbol : Option String
  rithmicExchange : Option String
  deriving DecidableEq, Repr

/-- How the call to the session ends. -/
inductive Outcome
  | returned
  | raised (code : Option String) (text : String)
  deriving DecidableEq, Repr

/-- What the client reads from one await to the next, and how the session call made there ends. -/
structure World (π : Type) where
  instrument : String → Option (Instrument π)
  sessionTradingEnabled : Bool
  plant : PlantPolicy
  outcome : Outcome

/-- `rithmicBrackets` is the environment variable. -/
structure Client where
  enableTrading : Bool
  rithmicBrackets : Option String
  allowBrackets : Bool
  deriving DecidableEq, Repr

/-- The arguments of `place_order` after the route. -/
structure OrderCall (π : Type) where
  symbol : String
  exchange : String
  side : String
  priceType : String
  quantity : Int
  userTag : String
  price : Option π
  trigger : Option π
  duration : String
  trailByTicks : Option Int
  trailByPriceId : Option Int
  deriving DecidableEq, Repr

/-- The arguments of `place_bracket_order`. -/
structure BracketCall (π : Type) where
  symbol : String
  exchange : String
  side : String
  priceType : String
  quantity : Int
  localid : String
  price : Option π
  trigger : Option π
  duration : String
  stopTicks : Int
  targetTicks : Int
  deriving DecidableEq, Repr

/-- What the client does, in order: the first three are events for the engine, the next two go to the
venue with the orders that they carry. -/
inductive Action (π δ : Type)
  | denied (o : Order π δ) (reason : String)
  | submitted (o : Order π δ)
  | rejected (o : Order π δ) (reason : String)
  | placeOrder (o : Order π δ) (call : OrderCall π)
  | placeBracketOrder (entry stop target : Order π δ) (call : BracketCall π)
  | latched (action reason : String)
  deriving DecidableEq, Repr

def tradingDisabledReason : String := "Rithmic trading disabled (enable_trading=False)"

/-- `_failure_class` and `_failure_reason`: the reason to reject with, `none` where the outcome is
unknown. -/
def failureReason (code : Option String) (text : String) : Option String :=
  if code = some "venue_rejected" then some ("venue rejected: " ++ text)
  else if code ∈ [some "not_sent", some "not_ready", some "trading_disabled",
      some "cancel_all_denied"] then some ("not sent: " ++ text)
  else none

/-- The end of a session call: nothing on success, else `_order_command_failed`. -/
def Outcome.ends (orders : List (Order π δ)) (action : String) : Outcome → List (Action π δ)
  | .returned => []
  | .raised code text =>
    match failureReason code text with
    | some reason => orders.map (.rejected · reason)
    | none => [.latched action ("transport outcome unknown: " ++ text)]

def denyAll (orders : List (Order π δ)) (reason : String) : List (Action π δ) :=
  orders.map (.denied · reason)

/-- `_command_refusal("submit")`. -/
def Client.commandRefusal (c : Client) (w : World π) : Option String :=
  if !c.enableTrading then some tradingDisabledReason
  else if !w.sessionTradingEnabled then some "Rithmic parent gateway trading disabled"
  else if !w.plant.allowSubmit then some (w.plant.rejectReason "submit")
  else none

def World.route (w : World π) (instrumentId : String) : Except String (String × String) :=
  match w.instrument instrumentId with
  | none => .error ("instrument not in cache: " ++ instrumentId)
  | some instrument =>
    match Account.truthy instrument.rithmicSymbol, Account.truthy instrument.rithmicExchange with
    | some symbol, some exchange => .ok (symbol, exchange)
    | _, _ => .error ("instrument " ++ instrumentId ++
        " missing rithmic_symbol/rithmic_exchange in info")

/-- The call that `_submit_order` makes for an order, or the text of the `ValueError`. -/
def World.orderCall (w : World π) (o : Order π δ) : Except String (OrderCall π) := do
  let (symbol, exchange) ← w.route o.instrumentId
  let side ← nautilusSideToRithmic r o.side
  let priceType ← nautilusOrderTypeToRithmic r o.orderType
  let duration ← nautilusTifToRithmic r o.timeInForce
  let trailByTicks ← trailingTicksFromOrder r o
  return {
    symbol, exchange, side, priceType, duration, trailByTicks
    quantity := o.quantity
    userTag := o.clientOrderId
    price := o.price
    trigger := o.triggerPrice
    trailByPriceId := trailByTicks.map fun _ => 1 }

def Client.submitOrder (c : Client) (w : World π) (o : Order π δ) : List (Action π δ) :=
  match c.commandRefusal w with
  | some refused => denyAll [o] refused
  | none =>
    match w.orderCall r o with
    | .error reason => denyAll [o] reason
    | .ok call => .submitted o :: .placeOrder o call :: w.outcome.ends [o] "place_order"

/-! ### Brackets -/

/-- The order names one of the list, as its parent or among its linked ids. -/
def Order.namesOneOf (o : Order π δ) (orders : List (Order π δ)) : Bool :=
  o.parentOrderId.any (orders.map Order.clientOrderId).contains ||
    o.linkedOrderIds.any (orders.map Order.clientOrderId).contains

def isBracketOrderList (orders : List (Order π δ)) : Bool :=
  orders.length == 3 && orders.any (·.namesOneOf orders)

def Order.isStop (o : Order π δ) : Bool := o.orderType == .stopMarket || o.orderType == .stopLimit

/-- `_bracket_legs`.  The one order without a parent is the entry, so the others are those with one.
Orders are equal when their client ids are. -/
def bracketLegs (orders : List (Order π δ)) : Option (Order π δ × Order π δ × Order π δ) :=
  match orders.filter (·.parentOrderId.isNone) with
  | [entry] =>
    let exits := orders.filter (·.parentOrderId.isSome)
    if exits.any (·.parentOrderId != some entry.clientOrderId) then none
    else
      let stops := exits.filter Order.isStop
      match stops, exits.filter fun o => !stops.any (·.clientOrderId == o.clientOrderId) with
      | [stop], [target] => some (entry, stop, target)
      | _, _ => none
  | _ => none

/-- The distance of a leg's price in ticks, where it is a positive number of them; raised where the
arithmetic raises. -/
def legTicks (tickSize entryPrice : π) (price : Option π) : Except Unit (Option Int) :=
  match price with
  | none => .ok none
  | some price =>
    match r.ticksBetween entryPrice price tickSize with
    | none => .error ()
    | some ticks => .ok (if ticks ≤ 0 then none else some ticks)

def bracketTicks (w : World π) (entry stop target : Order π δ) : Option Int × Option Int :=
  match w.instrument entry.instrumentId with
  | none => (none, none)
  | some instrument =>
    if !r.positive instrument.priceIncrement then (none, none)
    else match entry.price with
      | none => (none, none)
      | some entryPrice =>
        match legTicks r instrument.priceIncrement entryPrice (stop.triggerPrice <|> stop.price),
            legTicks r instrument.priceIncrement entryPrice target.price with
        | .ok stopTicks, .ok targetTicks => (stopTicks, targetTicks)
        | _, _ => (none, none)

def World.bracketCall (w : World π) (entry : Order π δ) (stopTicks targetTicks : Int) :
    Except String (BracketCall π) := do
  let (symbol, exchange) ← w.route entry.instrumentId
  let side ← nautilusSideToRithmic r entry.side
  let priceType ← nautilusOrderTypeToRithmic r entry.orderType
  let duration ← nautilusTifToRithmic r entry.timeInForce
  return {
    symbol, exchange, side, priceType, duration, stopTicks, targetTicks
    quantity := entry.quantity
    localid := entry.clientOrderId
    price := entry.price
    trigger := entry.triggerPrice }

def Client.bracketsEnabled (c : Client) : Bool :=
  (Account.truthy c.rithmicBrackets).isSome || c.allowBrackets

/-- The bracket branch of `_submit_order_list`. -/
def Client.submitBracket (c : Client) (w : World π) (orders : List (Order π δ)) :
    List (Action π δ) :=
  if !c.bracketsEnabled then
    denyAll orders "Rithmic brackets not enabled (RITHMIC_BRACKETS=1 required)"
  else match bracketLegs orders with
    | none => denyAll orders
        "bracket needs one entry and a stop and a target exit whose parent is the entry"
    | some (entry, stop, target) =>
      match bracketTicks r w entry stop target with
      | (some stopTicks, some targetTicks) =>
        match w.bracketCall r entry stopTicks targetTicks with
        | .error reason => denyAll orders reason
        | .ok call =>
          match c.commandRefusal w with
          | some refused => denyAll orders refused
          | none => orders.map .submitted ++ .placeBracketOrder entry stop target call ::
              w.outcome.ends orders "place_bracket_order"
      | _ => denyAll orders ("bracket not losslessly representable as stop_ticks/target_ticks " ++
          "(need entry limit price + stop/target absolute prices a whole number of ticks away)")

/-- `_submit_order_list`.  The order at index `i` of a list that is taken apart is submitted in the
`i`-th world: every submission ends in an await. -/
def Client.submitOrderList (c : Client) (worlds : Nat → World π) (orders : List (Order π δ)) :
    List (Action π δ) :=
  if !c.enableTrading then denyAll orders tradingDisabledReason
  else if isBracketOrderList orders then c.submitBracket r (worlds 0) orders
  else (orders.mapIdx fun i o => c.submitOrder r (worlds i) o).flatten

/-! ### Linked orders -/

/-- `o` names `p`, as its parent or among its linked ids. -/
def Order.Names (o p : Order π δ) : Prop :=
  o.parentOrderId = some p.clientOrderId ∨ p.clientOrderId ∈ o.linkedOrderIds

/-- Two orders of one list, one of which names the other. -/
def Joined (orders : List (Order π δ)) (o p : Order π δ) : Prop :=
  o ∈ orders ∧ p ∈ orders ∧ (o.Names p ∨ p.Names o)

def Linked (orders : List (Order π δ)) (o : Order π δ) : Prop := ∃ p, Joined orders o p

/-- `p` belongs to the linked group of `o`. -/
def Grouped (orders : List (Order π δ)) : Order π δ → Order π δ → Prop :=
  Relation.ReflTransGen (Joined orders)

/-- The orders that an action carries to the venue. -/
def Action.sends : Action π δ → List (Order π δ)
  | .placeOrder o _ => [o]
  | .placeBracketOrder entry stop target _ => [entry, stop, target]
  | _ => []

def Action.isSend : Action π δ → Bool
  | .placeOrder .. | .placeBracketOrder .. => true
  | _ => false

/-- The one thing that goes to the venue is a bracket with the whole group of `o` as its legs. -/
def Bracketed (orders : List (Order π δ)) (log : List (Action π δ)) (o : Order π δ) : Prop :=
  ∃ entry stop target call, log.filter Action.isSend = [.placeBracketOrder entry stop target call] ∧
    ∀ p, Grouped orders o p → p ∈ [entry, stop, target]

/-- The order is denied and nothing of it is sent. -/
def Withheld (log : List (Action π δ)) (o : Order π δ) : Prop :=
  (∃ reason, Action.denied o reason ∈ log) ∧ ∀ action ∈ log, o ∉ action.sends

/-- No linked order of the list is sent on its own. -/
def KeepsTogether (orders : List (Order π δ)) (log : List (Action π δ)) : Prop :=
  ∀ o, Linked orders o → Bracketed orders log o ∨ Withheld log o

theorem Order.namesOneOf_iff {o : Order π δ} {orders : List (Order π δ)} :
    o.namesOneOf orders = true ↔ ∃ p ∈ orders, o.Names p := by
  simp only [namesOneOf, Names, Bool.or_eq_true, Option.any_eq_true, List.any_eq_true,
    List.contains_iff_mem, List.mem_map]
  constructor
  · rintro (⟨id, hparent, p, hp, rfl⟩ | ⟨id, hlinked, p, hp, rfl⟩)
    · exact ⟨p, hp, .inl hparent⟩
    · exact ⟨p, hp, .inr hlinked⟩
  · rintro ⟨p, hp, hparent | hlinked⟩
    · exact .inl ⟨_, hparent, p, hp, rfl⟩
    · exact .inr ⟨_, hlinked, p, hp, rfl⟩

theorem Grouped.mem {orders : List (Order π δ)} {o p : Order π δ} (h : Grouped orders o p)
    (ho : o ∈ orders) : p ∈ orders := by
  induction h with
  | refl => exact ho
  | tail _ hjoined _ => exact hjoined.2.1

/-- A list of three with a linked order takes the bracket branch. -/
theorem Linked.isBracketOrderList {orders : List (Order π δ)} {o : Order π δ}
    (h : Linked orders o) (hthree : orders.length = 3) : isBracketOrderList orders = true := by
  obtain ⟨p, ho, hp, hnames⟩ := h
  have hany : orders.any (·.namesOneOf orders) = true := by
    rw [List.any_eq_true]
    cases hnames with
    | inl hnames => exact ⟨o, ho, Order.namesOneOf_iff.mpr ⟨p, hp, hnames⟩⟩
    | inr hnames => exact ⟨p, hp, Order.namesOneOf_iff.mpr ⟨o, ho, hnames⟩⟩
  simp [OrderLists.isBracketOrderList, hthree, hany]

/-- A linked order that is placed by itself breaks its group. -/
theorem not_keepsTogether_of_placeOrder {orders : List (Order π δ)} {log : List (Action π δ)}
    {o : Order π δ} {call : OrderCall π} (hlinked : Linked orders o)
    (hplaced : Action.placeOrder o call ∈ log) : ¬ KeepsTogether orders log := by
  intro hkeeps
  rcases hkeeps o hlinked with ⟨entry, stop, target, bracket, hsends, -⟩ | ⟨-, hnone⟩
  · have hmem : Action.placeOrder o call ∈ log.filter Action.isSend :=
      List.mem_filter.mpr ⟨hplaced, rfl⟩
    rw [hsends] at hmem
    cases List.mem_singleton.mp hmem
  · exact hnone _ hplaced (by simp [Action.sends])

/-! ### What each branch sends -/

theorem withheld_denyAll {orders : List (Order π δ)} {o : Order π δ} (ho : o ∈ orders)
    (reason : String) : Withheld (denyAll orders reason) o := by
  refine ⟨⟨reason, List.mem_map_of_mem ho⟩, fun action haction => ?_⟩
  obtain ⟨_, _, rfl⟩ := List.mem_map.mp haction
  simp [Action.sends]

theorem isSend_of_mem_ends {orders : List (Order π δ)} {name : String} {outcome : Outcome}
    {action : Action π δ} (h : action ∈ outcome.ends orders name) : action.isSend = false := by
  unfold Outcome.ends at h
  split at h
  · cases h
  · split at h
    · obtain ⟨_, _, rfl⟩ := List.mem_map.mp h
      rfl
    · cases List.mem_singleton.mp h
      rfl

/-- The legs are all there is of their kind: orders without a parent, stops, and exits that equal no
stop. -/
theorem bracketLegs_eq_some {orders : List (Order π δ)} {entry stop target : Order π δ}
    (h : bracketLegs orders = some (entry, stop, target)) :
    orders.filter (·.parentOrderId.isNone) = [entry] ∧
      (orders.filter (·.parentOrderId.isSome)).filter Order.isStop = [stop] ∧
      (orders.filter (·.parentOrderId.isSome)).filter (fun o =>
        !((orders.filter (·.parentOrderId.isSome)).filter Order.isStop).any
          (·.clientOrderId == o.clientOrderId)) = [target] := by
  unfold bracketLegs at h
  split at h
  next entry' hentries =>
    dsimp only at h
    split at h
    · cases h
    · split at h
      next stop' target' hstops htargets =>
        cases h
        exact ⟨hentries, hstops, htargets⟩
      · cases h
  · cases h

/-- An exit that equals no stop is no stop. -/
theorem targets_sublist (exits : List (Order π δ)) :
    (exits.filter fun o => !(exits.filter Order.isStop).any
      (·.clientOrderId == o.clientOrderId)).Sublist (exits.filter fun o => !o.isStop) := by
  have hnested : (exits.filter fun o => !o.isStop).filter
      (fun o => !(exits.filter Order.isStop).any (·.clientOrderId == o.clientOrderId)) =
        exits.filter fun o => !(exits.filter Order.isStop).any
          (·.clientOrderId == o.clientOrderId) := by
    rw [List.filter_filter]
    refine List.filter_congr fun p hp => ?_
    cases hstop : p.isStop with
    | false => simp
    | true =>
      -- a stop is among the stops, so it is no target either way
      have hfound : (exits.filter Order.isStop).any (·.clientOrderId == p.clientOrderId) = true :=
        List.any_eq_true.mpr ⟨p, List.mem_filter.mpr ⟨hp, hstop⟩, by simp⟩
      simp [hfound]
  rw [← hnested]
  exact List.filter_sublist

/-- The legs of a list of three are the whole list: a target that equals the stop would leave too few
targets. -/
theorem mem_legs_of_bracketLegs {orders : List (Order π δ)} {entry stop target : Order π δ}
    (hthree : orders.length = 3) (h : bracketLegs orders = some (entry, stop, target))
    {o : Order π δ} (ho : o ∈ orders) : o ∈ [entry, stop, target] := by
  obtain ⟨hentries, hstops, htargets⟩ := bracketLegs_eq_some h
  have hsub := targets_sublist (orders.filter (·.parentOrderId.isSome))
  rw [htargets] at hsub
  set exits := orders.filter (·.parentOrderId.isSome) with hexits
  have hsome : exits = orders.filter fun o => !o.parentOrderId.isNone := by
    rw [hexits]
    exact List.filter_congr fun o _ => by simp
  have htwo : exits.length = 2 := by
    have := List.length_eq_length_filter_add (l := orders) (·.parentOrderId.isNone)
    rw [hentries, ← hsome] at this
    simp only [List.length_singleton] at this
    omega
  have hone : (exits.filter fun o => !o.isStop).length = 1 := by
    have := List.length_eq_length_filter_add (l := exits) Order.isStop
    rw [hstops] at this
    simp only [List.length_singleton] at this
    omega
  have hrest : [target] = exits.filter fun o => !o.isStop := hsub.eq_of_length (by simp [hone])
  by_cases hparent : o.parentOrderId.isNone
  · have hmem : o ∈ orders.filter (·.parentOrderId.isNone) := List.mem_filter.mpr ⟨ho, hparent⟩
    rw [hentries] at hmem
    simp [List.mem_singleton.mp hmem]
  · have hexit : o ∈ exits := by
      rw [hsome]
      exact List.mem_filter.mpr ⟨ho, by rw [Bool.eq_false_iff.mpr hparent]; rfl⟩
    by_cases hstop : o.isStop
    · have hmem : o ∈ exits.filter Order.isStop := List.mem_filter.mpr ⟨hexit, hstop⟩
      rw [hstops] at hmem
      simp [List.mem_singleton.mp hmem]
    · have hmem : o ∈ exits.filter fun o => !o.isStop :=
        List.mem_filter.mpr ⟨hexit, by simpa using hstop⟩
      rw [← hrest] at hmem
      simp [List.mem_singleton.mp hmem]

section

variable (c : Client) {w : World π} {worlds : Nat → World π} {orders : List (Order π δ)}
  {o : Order π δ} {action : Action π δ}

/-- Why `_submit_order` refuses an order, if it does: the gates first, then the translation. -/
def Client.refuses (w : World π) (o : Order π δ) : Option String :=
  match c.commandRefusal w with
  | some refused => some refused
  | none =>
    match w.orderCall r o with
    | .error reason => some reason
    | .ok _ => none

theorem submitOrder_of_refuses {reason : String} (h : c.refuses r w o = some reason) :
    c.submitOrder r w o = denyAll [o] reason := by
  unfold Client.refuses at h
  unfold Client.submitOrder
  split at h
  · cases h
    simp_all
  · split at h
    · cases h
      simp_all
    · cases h

theorem submitOrder_of_passes (h : c.refuses r w o = none) : ∃ call, c.submitOrder r w o =
    .submitted o :: .placeOrder o call :: w.outcome.ends [o] "place_order" := by
  unfold Client.refuses at h
  unfold Client.submitOrder
  split at h
  · cases h
  · split at h
    · cases h
    · next call hcall =>
      exact ⟨call, by simp_all⟩

/-- One submission sends nothing but the order, and that only where it does not refuse it. -/
theorem send_of_mem_submitOrder (hmem : action ∈ c.submitOrder r w o)
    (hsend : action.isSend = true) :
    c.refuses r w o = none ∧ ∃ call, action = .placeOrder o call := by
  cases hrefuses : c.refuses r w o with
  | some reason =>
    rw [submitOrder_of_refuses r c hrefuses] at hmem
    cases List.mem_singleton.mp hmem
    cases hsend
  | none =>
    obtain ⟨call, hsubmit⟩ := submitOrder_of_passes r c hrefuses
    rw [hsubmit] at hmem
    refine ⟨rfl, call, ?_⟩
    rcases List.mem_cons.mp hmem with rfl | hmem
    · cases hsend
    · rcases List.mem_cons.mp hmem with rfl | hends
      · rfl
      · rw [isSend_of_mem_ends hends] at hsend
        cases hsend

theorem sends_of_not_isSend (h : action.isSend = false) : action.sends = [] := by
  cases action <;> first | rfl | cases h

/-- The bracket branch denies the whole list or places one bracket whose legs are the list's. -/
theorem submitBracket_cases (w : World π) (orders : List (Order π δ)) :
    (∃ reason, c.submitBracket r w orders = denyAll orders reason) ∨
    ∃ entry stop target call, bracketLegs orders = some (entry, stop, target) ∧
      c.submitBracket r w orders = orders.map .submitted ++
        .placeBracketOrder entry stop target call ::
          w.outcome.ends orders "place_bracket_order" := by
  unfold Client.submitBracket
  split
  · exact .inl ⟨_, rfl⟩
  · split
    · exact .inl ⟨_, rfl⟩
    · next entry stop target hlegs =>
      split
      · split
        · exact .inl ⟨_, rfl⟩
        · next call _ =>
          split
          · exact .inl ⟨_, rfl⟩
          · exact .inr ⟨entry, stop, target, call, hlegs, rfl⟩
      · exact .inl ⟨_, rfl⟩

theorem submitBracket_keepsTogether (hthree : orders.length = 3) :
    KeepsTogether orders (c.submitBracket r w orders) := by
  intro o hlinked
  have ho : o ∈ orders := by
    obtain ⟨p, ho, -, -⟩ := hlinked
    exact ho
  rcases submitBracket_cases r c w orders with ⟨reason, hdeny⟩ | ⟨entry, stop, target, call, hlegs, hlog⟩
  · rw [hdeny]
    exact .inr (withheld_denyAll ho reason)
  · left
    refine ⟨entry, stop, target, call, ?_, fun p hp =>
      mem_legs_of_bracketLegs hthree hlegs (hp.mem ho)⟩
    have hsubmitted : (orders.map Action.submitted).filter Action.isSend = [] := by
      simp [List.filter_eq_nil_iff, Action.isSend]
    have hends : (w.outcome.ends orders "place_bracket_order").filter Action.isSend = [] := by
      rw [List.filter_eq_nil_iff]
      intro action hmem
      simp [isSend_of_mem_ends hmem]
    rw [hlog, List.filter_append, hsubmitted, List.filter_cons_of_pos (by rfl), hends]
    rfl

/-! ### A list that is taken apart -/

theorem mem_apart : action ∈ (orders.mapIdx fun i o => c.submitOrder r (worlds i) o).flatten ↔
    ∃ i o, orders[i]? = some o ∧ action ∈ c.submitOrder r (worlds i) o := by
  simp only [List.mem_flatten, List.mem_mapIdx]
  constructor
  · rintro ⟨_, ⟨i, hi, rfl⟩, haction⟩
    exact ⟨i, orders[i], List.getElem?_eq_getElem hi, haction⟩
  · rintro ⟨i, o, ho, haction⟩
    obtain ⟨hi, rfl⟩ := List.getElem?_eq_some_iff.mp ho
    exact ⟨_, ⟨i, hi, rfl⟩, haction⟩

/-- Taken apart, a list keeps its linked orders off the market exactly where each of them is refused
when its turn comes. -/
theorem apart_keepsTogether_iff :
    KeepsTogether orders (orders.mapIdx fun i o => c.submitOrder r (worlds i) o).flatten ↔
      ∀ i o, orders[i]? = some o → Linked orders o → (c.refuses r (worlds i) o).isSome := by
  constructor
  · intro hkeeps i o hi hlinked
    by_contra hpasses
    obtain ⟨call, hsubmit⟩ := submitOrder_of_passes r c (Option.not_isSome_iff_eq_none.mp hpasses)
    have hplaced : Action.placeOrder o call ∈ c.submitOrder r (worlds i) o := by
      rw [hsubmit]
      simp
    exact not_keepsTogether_of_placeOrder hlinked ((mem_apart r c).mpr ⟨i, o, hi, hplaced⟩) hkeeps
  · intro hrefused o hlinked
    right
    have ho : o ∈ orders := by
      obtain ⟨p, ho, -, -⟩ := hlinked
      exact ho
    obtain ⟨i, hi⟩ := List.mem_iff_getElem?.mp ho
    obtain ⟨reason, hreason⟩ := Option.isSome_iff_exists.mp (hrefused i o hi hlinked)
    refine ⟨⟨reason, (mem_apart r c).mpr ⟨i, o, hi, ?_⟩⟩, fun action haction hsent => ?_⟩
    · rw [submitOrder_of_refuses r c hreason]
      simp [denyAll]
    · obtain ⟨j, p, hj, hmem⟩ := (mem_apart r c).mp haction
      by_cases hsend : action.isSend = true
      · obtain ⟨hpasses, call, rfl⟩ := send_of_mem_submitOrder r c hmem hsend
        cases List.mem_singleton.mp hsent
        have := hrefused j o hj hlinked
        rw [hpasses] at this
        cases this
      · rw [sends_of_not_isSend (Bool.eq_false_iff.mpr hsend)] at hsent
        cases hsent

/-- `_submit_order_list` keeps linked orders together, exactly for lists of three and for those in which
every linked order is refused on its own. -/
theorem submitOrderList_keepsTogether_iff :
    KeepsTogether orders (c.submitOrderList r worlds orders) ↔
      orders.length = 3 ∨
        ∀ i o, orders[i]? = some o → Linked orders o → (c.refuses r (worlds i) o).isSome := by
  unfold Client.submitOrderList
  split
  next hdisabled =>
    refine iff_of_true (fun o hlinked => ?_) (.inr fun i o _ _ => ?_)
    · obtain ⟨p, ho, -, -⟩ := hlinked
      exact .inr (withheld_denyAll ho _)
    · simp [Client.refuses, Client.commandRefusal, hdisabled]
  next =>
    split
    next hbracket =>
      have hthree : orders.length = 3 := by
        simp only [isBracketOrderList, Bool.and_eq_true, beq_iff_eq] at hbracket
        exact hbracket.1
      exact iff_of_true (submitBracket_keepsTogether r c hthree) (.inl hthree)
    next hapart =>
      constructor
      · exact fun hkeeps => .inr ((apart_keepsTogether_iff r c).mp hkeeps)
      · rintro (hthree | hrefused)
        · exact fun o hlinked => (hapart (hlinked.isBracketOrderList hthree)).elim
        · exact (apart_keepsTogether_iff r c).mpr hrefused

end

/-! ### A protective stop without its position -/

/-- A client with trading and brackets on, over a live plant that takes every order. -/
def tradingClient : Client where
  enableTrading := true
  rithmicBrackets := some "1"
  allowBrackets := false

def tradingWorld : World Nat where
  instrument _ := some ⟨1, some "NQU6", some "CME"⟩
  sessionTradingEnabled := true
  plant := ⟨.live⟩
  outcome := .returned

/-- Prices and offsets in whole ticks of one. -/
def tickRuntime : Runtime Nat Nat where
  positive tick := decide (0 < tick)
  ticksBetween a b tick := some (((a - b) + (b - a)) / tick : Nat)
  intOf offset := offset
  wholeTicks _ := true
  reprSide _ := "NO_ORDER_SIDE"
  reprType _ := "MARKET_TO_LIMIT"
  reprTif _ := "GTD"
  reprOffsetType _ := "None"
  reprOffset offset := toString offset

def entryLimit : Order Nat Nat where
  clientOrderId := "E"
  instrumentId := "NQU6.CME"
  side := .buy
  orderType := .limit
  timeInForce := .gtc
  quantity := 1
  price := some 21000

def protectiveStop : Order Nat Nat where
  clientOrderId := "SL"
  parentOrderId := some "E"
  instrumentId := "NQU6.CME"
  side := .sell
  orderType := .stopMarket
  timeInForce := .gtc
  quantity := 1
  triggerPrice := some 20990

/-- The call that places `protectiveStop` by itself. -/
def stopCall : OrderCall Nat where
  symbol := "NQU6"
  exchange := "CME"
  side := "SELL"
  priceType := "STOP_MARKET"
  quantity := 1
  userTag := "SL"
  price := none
  trigger := some 20990
  duration := "GTC"
  trailByTicks := none
  trailByPriceId := none

/-- An entry and the stop that protects it, in a list of two: the stop is placed by itself. -/
theorem submitOrderList_pair_apart :
    Action.placeOrder protectiveStop stopCall ∈
      tradingClient.submitOrderList tickRuntime (fun _ => tradingWorld) [entryLimit, protectiveStop] ∧
    ¬ KeepsTogether [entryLimit, protectiveStop]
      (tradingClient.submitOrderList tickRuntime (fun _ => tradingWorld)
        [entryLimit, protectiveStop]) := by
  have hplaced : Action.placeOrder protectiveStop stopCall ∈
      tradingClient.submitOrderList tickRuntime (fun _ => tradingWorld)
        [entryLimit, protectiveStop] := by decide
  have hlinked : Linked [entryLimit, protectiveStop] protectiveStop :=
    ⟨entryLimit, by simp, by simp, .inl (.inl rfl)⟩
  exact ⟨hplaced, not_keepsTogether_of_placeOrder hlinked hplaced⟩

end RithmicNt.Adapter.OrderLists
