import RithmicNt.Adapter.Drain

/-! The engine's cache as the adapter reads it, and the identity of a row: the client order id of the
tracked order that a notification or a drain row is about. -/

namespace RithmicNt.Adapter

open RithmicNt.Exec

structure TrackedOrder where
  status : OrderStatus
  instrumentId : String
  side : OrderSide
  orderType : OrderType
  quantity : Nat
  price : Option String
  triggerPrice : Option String
  leavesQty : Option Nat
  tsLast : Int
  deriving DecidableEq, Repr

/-- Orders by client order id, and the two indexes between client and venue ids. -/
structure Cache where
  order : String → Option TrackedOrder
  clientOrderId : String → Option String
  venueOrderId : String → Option String

/-- A client id that names an order which the cache holds as closed. -/
def Cache.Closed (cache : Cache) (id : String) : Prop :=
  ∃ order, cache.order id = some order ∧ order.status.isClosed = true

namespace Engine

variable (e : Engine)

/-- The tag of a row, where it names an order that is still open. -/
def openTag (cache : Cache) (f : OrderFields) : Except Fault (Option String) :=
  match Account.truthy f.userTag with
  | none => .ok none
  | some tag => do
    check (e.clientIdOk tag) .value
    match cache.order tag with
    | some order => return if order.status.isClosed then none else some tag
    | none => return none

def basketClientId (cache : Cache) (f : OrderFields) : Except Fault (Option String) :=
  match Account.truthy f.basketId with
  | none => .ok none
  | some basket => do
    check (e.venueIdOk basket) .value
    return cache.clientOrderId basket

/-- `_resolve_client_order_id`: by basket, then by tag, and never to a closed order. -/
def resolveClientOrderId (cache : Cache) (f : OrderFields) : Except Fault (Option String) := do
  match ← e.basketClientId cache f with
  | some cached =>
    match cache.order cached with
    | some order => if order.status.isClosed then e.openTag cache f else return some cached
    | none => return some cached
  | none => e.openTag cache f

/-- `_drain_client_order_id`: the order of the basket first, closed or not. -/
def drainClientOrderId (cache : Cache) (f : OrderFields) : Except Fault (Option String) := do
  match ← e.basketClientId cache f with
  | some cached => return some cached
  | none => e.resolveClientOrderId cache f

end Engine

def rowStaleReason (cache : Cache) (clientOrderId : Option String) (row : DrainRow)
    (liveStreamAuthoritative : Bool) : Option String :=
  match clientOrderId.bind cache.order with
  | none => none
  | some order =>
    let closed := order.status.isClosed
    let needsAge := !closed && liveStreamAuthoritative && row.tsEvent ≠ 0
    staleReason
      { orderClosed := closed
        liveStreamAuthoritative := liveStreamAuthoritative
        reportNonTerminal := !row.report.status.isTerminal
        rowTsNs := row.tsEvent
        orderTsLastNs := if needsAge then order.tsLast else 0 }

end RithmicNt.Adapter
