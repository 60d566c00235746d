import RithmicNt.Exec.Lru
import RithmicNt.Exec.Plant
import RithmicNt.Adapter.Cache

/-! The intake of live order notifications: events for the orders of the cache, reports for all
others, and one dedup store for their fills. -/

namespace RithmicNt.Adapter

open RithmicNt.Lib RithmicNt.Exec

/-- What makes the status of an untracked order news. -/
structure StatusKey where
  venueOrderId : String
  status : OrderStatus
  quantity : Nat
  price : Option String
  triggerPrice : Option String
  filledQty : Nat
  avgPx : Option String
  deriving DecidableEq, Repr

def StatusReport.key (r : StatusReport) : StatusKey :=
  ⟨r.venueOrderId, r.status, r.quantity, r.price, r.triggerPrice, r.filledQty, r.avgPx⟩

/-- What the handlers read and write.  `uses` and `handed` are not in the source: the lookups and
marks of the fill store so far, and the keys of the fills that reached the engine. -/
structure Host where
  account : Account := {}
  fills : Lru Unit
  book : Lru StatusKey
  plant : PlantPolicy := {}
  uses : List (Recency.Use String) := []
  handed : List String := []

namespace Host

def fillKeySeen (s : Host) (key : String) : Host × Bool :=
  let (fills, hit) := s.fills.has key
  ({ s with fills := fills, uses := s.uses ++ [Recency.Use.look key hit] }, hit)

def markFillKey (s : Host) (key : String) : Host :=
  { s with fills := s.fills.insert key (), uses := s.uses ++ [Recency.Use.mark key] }

def latch (s : Host) : Host := { s with plant := s.plant.latch }

def hand (s : Host) (key : String) : Host := { s with handed := s.handed ++ [key] }

end Host

/-- The events that the client generates for a tracked order. -/
inductive OrderEvent
  | accepted (venueId : String)
  | rejected (reason : String)
  | modifyRejected (venueId reason : String)
  | cancelRejected (venueId reason : String)
  | updated (venueId : String) (quantity : Nat) (price trigger : Option String)
  | canceled (venueId : String)
  | triggered (venueId : String)
  | filled (venueId tradeId : String) (side : OrderSide) (orderType : OrderType) (quantity : Nat)
      (price : String)
  deriving DecidableEq, Repr

inductive Emission
  | order (clientOrderId : String) (event : OrderEvent) (ts : Int)
  | status (report : StatusReport)
  | fill (report : FillReport)
  deriving DecidableEq, Repr

/-- It hands the fill of a trade to the engine. -/
def Emission.isFillOf (trade : Option String) : Emission → Bool
  | .order _ (.filled _ tradeId ..) _ => trade = some tradeId
  | .fill report => trade = some report.tradeId
  | _ => false

/-- How the engine, its cache and its bus answer during one notification. -/
structure Live where
  engine : Engine
  cache : Cache
  bindOk : String → String → Bool
  /-- `price_from_wire` with the precision of an order's price. -/
  wirePriceLike : Option String → WirePrice → Except Fault String
  emits : OrderEvent → Bool

/-- What a handler leaves behind. -/
structure Handled where
  host : Host
  emitted : List Emission
  outcome : Outcome

def Handled.returned (s : Host) (emitted : List Emission) : Handled := ⟨s, emitted, .returned⟩

def Handled.raised (s : Host) (emitted : List Emission) : Handled := ⟨s, emitted, .raised⟩

namespace Live

variable (env : Live)

def eventTs (f : OrderFields) : Int := f.tsEvent.getD env.engine.clock

def emit (s : Host) (id : String) (event : OrderEvent) (ts : Int) : Handled :=
  if env.emits event then .returned s [.order id event ts] else .raised s []

/-! ### Tracked orders -/

def venueIdFor (f : OrderFields) (id : String) : String :=
  match Account.truthy f.basketId with
  | some basket => basket
  | none => (env.cache.venueOrderId id).getD ((Account.truthy f.userTag).getD id)

def resolveUpdatedTerms (f : OrderFields) (order : TrackedOrder) :
    Except Fault (Nat × Option String × Option String) := do
  let quantity ← env.engine.quantityFromInt (f.quantity.getD order.quantity)
  let price ← match f.price with
    | some price => (env.wirePriceLike order.price price).map some
    | none => pure order.price
  let trigger ← match f.triggerPrice with
    | some trigger => (env.wirePriceLike order.price trigger).map some
    | none => pure order.triggerPrice
  return (quantity, price, trigger)

def fillTerms (f : OrderFields) (order : TrackedOrder) (size : Int) : Except Fault (Nat × String) := do
  let quantity ← env.engine.quantityFromInt size
  match f.fillPrice with
  | none => .error .value
  | some price =>
    let price ← env.engine.instrumentPrice order.instrumentId price
    return (quantity, price)

/-- `handle_tracked_fill`, for an action with a size and a trade id. -/
def handleTrackedFill (s : Host) (f : OrderFields) (id : String) (order : TrackedOrder)
    (venueId : String) (size : Int) (trade : String) : Handled :=
  match f.fillDedupKey env.engine.reprFloat f.fillIdentityTs with
  | none => .raised s []
  | some key =>
    let (s, seen) := s.fillKeySeen key
    if seen then .returned s []
    else match env.fillTerms f order size with
      | .error .value => .returned s.latch []
      | .error .other => .raised s []
      | .ok (quantity, price) =>
        -- An overfill latches the plant and is still emitted.
        let s := if order.leavesQty.any (· < quantity) then s.latch else s
        let event : OrderEvent := .filled venueId trade order.side order.orderType quantity price
        if env.engine.tradeIdOk trade = false ∨ env.emits event = false then .raised s []
        else .returned ((s.hand key).markFillKey key) [.order id event (env.eventTs f)]

/-- What `handle_order_notification` does with the action of a kind. -/
def handleAction (s : Host) (f : OrderFields) (id : String) (order : TrackedOrder)
    (venueId : String) (action : ActionKind) (reason : String) : Handled :=
  let ts := env.eventTs f
  match action with
  | .accepted =>
    if order.status = .submitted then env.emit s id (.accepted venueId) ts else .returned s []
  | .rejected => env.emit s id (.rejected reason) ts
  | .modifyRejected => env.emit s id (.modifyRejected venueId reason) ts
  | .cancelRejected => env.emit s id (.cancelRejected venueId reason) ts
  | .updated =>
    match env.resolveUpdatedTerms f order with
    | .error _ => .raised s []
    | .ok (quantity, price, trigger) => env.emit s id (.updated venueId quantity price trigger) ts
  | .canceled => env.emit s id (.canceled venueId) ts
  | .triggered =>
    if order.orderType.isTriggerable = false ∨ order.status = .triggered then .returned s []
    else env.emit s id (.triggered venueId) ts
  | .filled =>
    match f.fillSize with
    | none => .returned s []
    | some size =>
      match f.fillTradeId env.engine.reprFloat f.fillIdentityTs with
      | none => .raised s []
      | some trade => env.handleTrackedFill s f id order venueId size trade

def bindRaises (f : OrderFields) (id : String) : Bool :=
  (Account.truthy f.basketId).any fun basket => !env.bindOk id basket

/-- The part of `handle_order_notification` for an order of the cache. -/
def handleTracked (s : Host) (f : OrderFields) (id : String) (order : TrackedOrder) : Handled :=
  if env.bindRaises f id then .raised s []
  else
    let venueId := env.venueIdFor f id
    if env.engine.venueIdOk venueId = false then .raised s []
    else match f.kind.bind fun kind => notificationAction kind f.text f.reportText f.status with
      | none => .returned s []
      | some (action, reason) => env.handleAction s f id order venueId action (reason.getD "")

/-! ### Untracked orders -/

/-- `publish_untracked_status`: the host, what was sent, and whether the fill may follow; `none`
where it raises. -/
def publishUntrackedStatus (s : Host) (f : OrderFields) : Host × List Emission × Option Bool :=
  match env.engine.drainRowFromFields s.account f (env.eventTs f) with
  | (account, .error _) => ({ s with account := account }, [], none)
  | (account, .ok none) =>
    let s := { s with account := account }
    match env.engine.basketClientId env.cache f with
    | .error _ => (s, [], none)
    | .ok _ => (s, [], some true)
  | (account, .ok (some row)) =>
    let report := row.report
    let (book, last) := s.book.get report.venueOrderId
    let s := { s with account := account, book := book }
    if last = some report.key then (s, [], some true)
    else if env.engine.sendStatus report = false then (s, [], some false)
    else ({ s with book := s.book.insert report.venueOrderId report.key }, [.status report], some true)

end Live

namespace Engine

variable (e : Engine)

def reportTerms (f : OrderFields) (size : Int) (price : WirePrice) : Except Fault (Nat × String) := do
  let quantity ← e.quantityFromInt size
  let price ← e.instrumentPrice f.instrumentId price
  return (quantity, price)

/-- The last part of `_fill_report_from_fields`. -/
def buildFillReport (accountId basket : String) (f : OrderFields) (tsEvent : Int) :
    Except Fault (Option FillReport) :=
  match f.fillPrice, f.fillSize, f.orderSide with
  | some price, some size, some side =>
    match e.reportTerms f size price with
    | .error .value => .ok none
    | .error .other => .error .other
    | .ok (quantity, price) =>
      match f.fillTradeId e.reprFloat tsEvent with
      | none => .error .value
      | some trade => do
        check (e.venueIdOk basket) .value
        check (e.tradeIdOk trade) .value
        let report : FillReport :=
          { accountId := accountId
            instrumentId := f.instrumentId
            venueOrderId := basket
            tradeId := trade
            side := side
            lastQty := quantity
            lastPx := price
            tsEvent := if tsEvent = 0 then e.clock else tsEvent }
        e.fillReport report
        return some report
  | _, _, _ => .ok none

def fillReportFromFields (a : Account) (f : OrderFields) (tsEvent : Int) :
    Account × Except Fault (Option FillReport) :=
  match Account.truthy f.basketId with
  | none => (a, .ok none)
  | some basket =>
    if e.instrumentIdOk f.instrumentId = false then (a, .ok none)
    else
      let (a, outcome) := e.seed a f.accountId
      if outcome = .raised then (a, .error .other)
      else match a.id with
        | none => (a, .ok none)
        | some accountId => (a, e.buildFillReport accountId basket f tsEvent)

end Engine

namespace Live

variable (env : Live)

def publishUntrackedFill (s : Host) (f : OrderFields) : Handled :=
  if f.kind ≠ some .filled then .returned s []
  else match f.fillDedupKey env.engine.reprFloat f.fillIdentityTs with
    | none => .raised s []
    | some key =>
      let (s, seen) := s.fillKeySeen key
      if seen then .returned s []
      else match env.engine.fillReportFromFields s.account f f.fillIdentityTs with
        | (account, .error _) => .raised { s with account := account } []
        | (account, .ok none) => .returned { s with account := account } []
        | (account, .ok (some report)) =>
          let s := { s with account := account }
          if env.engine.sendFill report = false then .raised s []
          else .returned ((s.hand key).markFillKey key) [.fill report]

/-- `handle_untracked_notification`.  A normalized notification always has a symbol. -/
def handleUntrackedNotification (s : Host) (f : OrderFields) : Handled :=
  match Account.truthy f.basketId with
  | none => .returned s []
  | some _ =>
    let (account, outcome) := env.engine.seed s.account f.accountId
    let s := { s with account := account }
    if outcome = .raised then .raised s []
    else if s.account.id = none then .returned s []
    else match env.publishUntrackedStatus s f with
      | (s, sent, none) => .raised s sent
      | (s, sent, some false) => .returned s sent
      | (s, sent, some true) =>
        let handled := env.publishUntrackedFill s f
        { handled with emitted := sent ++ handled.emitted }

/-! ### Dispatch -/

def handleOrderNotification (s : Host) (f : OrderFields) : Handled :=
  let (account, outcome) := env.engine.seed s.account f.accountId
  let s := { s with account := account }
  if outcome = .raised then .raised s []
  else match env.engine.resolveClientOrderId env.cache f with
    | .error _ => .raised s []
    | .ok none => env.handleUntrackedNotification s f
    | .ok (some id) =>
      match env.cache.order id with
      | none => .returned s []
      | some order => env.handleTracked s f id order

/-- `_dispatch_order_event`, for an `order_notification`: an event that cannot be read raises. -/
def dispatchOrderEvent (s : Host) (event : OrderNotification) : Handled :=
  match orderNotificationToFields env.engine.upper event with
  | none => .raised s []
  | some f => env.handleOrderNotification s f

end Live

end RithmicNt.Adapter
