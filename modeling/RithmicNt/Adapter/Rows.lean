import Mathlib.Data.Option.Basic
import RithmicNt.Exec.Drain
import RithmicNt.Exec.Fills
import RithmicNt.Exec.Ident
import RithmicNt.Exec.Inventory
import RithmicNt.Adapter.Account

/-! Order rows: the notifications of the order plant as they arrive, their normalized fields, and
what a row says about its order. -/

namespace RithmicNt.Adapter

open RithmicNt.Exec

/-- A wire price, as the bits of its float. -/
abbrev WirePrice := UInt64

/-- The bits of `-1.0`, which some payloads send for a price that is not known yet. -/
def pendingPrice : WirePrice := 0xBFF0000000000000

/-- An `order_notification` as the extension hands it over. -/
structure OrderNotification where
  source : Source := .exchange
  kind : Option OrderKind := none
  notifyTypeName : Option String := none
  status : Option String := none
  basketId : Option String := none
  exchangeOrderId : Option String := none
  userTag : Option String := none
  accountId : Option String := none
  symbol : Option String := none
  exchange : Option String := none
  quantity : Option Int := none
  totalFillSize : Option Int := none
  totalUnfilledSize : Option Int := none
  fillSize : Option Int := none
  price : Option WirePrice := none
  triggerPrice : Option WirePrice := none
  avgFillPrice : Option WirePrice := none
  fillPrice : Option WirePrice := none
  transactionType : Option Int := none
  priceType : Option Int := none
  duration : Option Int := none
  fillId : Option String := none
  text : Option String := none
  reportText : Option String := none
  ssboe : Option Int := none
  usecs : Option Int := none
  tsEventNs : Option Nat := none
  deriving DecidableEq, Repr

structure OrderFields where
  source : Source
  kind : Option OrderKind
  notifyTypeName : Option String
  status : Option String
  basketId : Option String
  exchangeOrderId : Option String
  userTag : Option String
  accountId : Option String
  symbol : String
  instrumentId : String
  quantity : Option Int
  totalFillSize : Option Int
  totalUnfilledSize : Option Int
  fillSize : Option Int
  price : Option WirePrice
  triggerPrice : Option WirePrice
  avgFillPrice : Option WirePrice
  fillPrice : Option WirePrice
  transactionType : Option Int
  priceType : Option Int
  duration : Option Int
  fillId : Option String
  text : Option String
  reportText : Option String
  tsEvent : Option Int
  deriving DecidableEq, Repr

def sentinelNone (price : Option WirePrice) : Option WirePrice := price.filter (· ≠ pendingPrice)

/-- `_ts_ns`: the time of an event in unix nanoseconds. -/
def tsNs (d : OrderNotification) : Option Int :=
  match d.tsEventNs with
  | some ts => some ts
  | none => d.ssboe.map fun s => s * 1000000000 + d.usecs.getD 0 * 1000

/-- The kind of a notification: its own, else the one of its `notify_type_name`. -/
def OrderNotification.effectiveKind (upper : Char → List Char) (d : OrderNotification) :
    Option OrderKind :=
  d.kind.or (d.notifyTypeName.bind fun name =>
    kindFromNotify upper d.source name (d.status.getD "") (d.text.getD ""))

/-- `order_notification_to_fields`; `none` where it raises. -/
def orderNotificationToFields (upper : Char → List Char) (d : OrderNotification) :
    Option OrderFields := do
  guard (d.source = .rithmic ∨ d.source = .exchange)
  let symbol ← Account.truthy d.symbol
  let id ← (instrumentId upper symbol d.exchange venue).toOption
  return {
    source := d.source
    kind := d.effectiveKind upper
    notifyTypeName := d.notifyTypeName
    status := d.status
    basketId := d.basketId
    exchangeOrderId := d.exchangeOrderId
    userTag := d.userTag
    accountId := d.accountId
    symbol := symbol
    instrumentId := id
    quantity := d.quantity
    totalFillSize := d.totalFillSize
    totalUnfilledSize := d.totalUnfilledSize
    fillSize := d.fillSize
    price := sentinelNone d.price
    triggerPrice := sentinelNone d.triggerPrice
    avgFillPrice := sentinelNone d.avgFillPrice
    fillPrice := sentinelNone d.fillPrice
    transactionType := d.transactionType
    priceType := d.priceType
    duration := d.duration
    fillId := d.fillId
    text := d.text
    reportText := d.reportText
    tsEvent := tsNs d }

/-! ### What a row says about its order -/

inductive OrderStatus
  | initialized
  | denied
  | emulated
  | released
  | submitted
  | accepted
  | rejected
  | canceled
  | expired
  | triggered
  | pendingUpdate
  | pendingCancel
  | partiallyFilled
  | filled
  deriving DecidableEq, Repr

/-- `Order.is_closed` of the engine. -/
def OrderStatus.isClosed : OrderStatus → Bool
  | .denied | .rejected | .canceled | .expired | .filled => true
  | _ => false

def OrderStatus.isTerminal : OrderStatus → Bool
  | .filled | .canceled | .rejected | .expired => true
  | _ => false

inductive OrderSide
  | buy
  | sell
  deriving DecidableEq, Repr

inductive OrderType
  | market
  | limit
  | stopMarket
  | stopLimit
  | marketToLimit
  | marketIfTouched
  | limitIfTouched
  | trailingStopMarket
  | trailingStopLimit
  deriving DecidableEq, Repr

/-- `TRIGGERABLE_ORDER_TYPES`: a market-style stop executes as it is triggered. -/
def OrderType.isTriggerable : OrderType → Bool
  | .stopLimit | .trailingStopLimit | .limitIfTouched => true
  | _ => false

inductive TimeInForce
  | day
  | gtc
  | ioc
  | fok
  deriving DecidableEq, Repr

namespace OrderFields

def orderSide (f : OrderFields) : Option OrderSide :=
  match f.transactionType with
  | some 1 => some .buy
  | some 2 => some .sell
  | _ => none

def orderType (f : OrderFields) : OrderType :=
  match f.priceType with
  | some 1 => .limit
  | some 2 => .market
  | some 3 => .stopLimit
  | some 4 => .stopMarket
  | _ => .market

def timeInForce (f : OrderFields) : TimeInForce :=
  match f.duration with
  | some 1 => .day
  | some 2 => .gtc
  | some 3 => .ioc
  | some 4 => .fok
  | _ => .gtc

/-- `trigger_type_from_fields`: whether the price type carries a trigger. -/
def hasTrigger (f : OrderFields) : Bool :=
  f.priceType = some 3 ∨ f.priceType = some 4

/-- `order_status_from_fields`: what is not recognizably terminal is an open order. -/
def orderStatus (upper : Char → List Char) (f : OrderFields) : OrderStatus :=
  let status := toUppercase upper (f.status.getD "")
  let qty := f.quantity.getD 0
  let filled := f.totalFillSize.getD 0
  let partly := qty > 0 ∧ 0 < filled ∧ filled < qty
  if f.kind = some .filled ∨ (qty > 0 ∧ filled ≥ qty) then .filled
  else if f.kind = some .modifyRejected ∨ f.kind = some .cancelRejected then
    if partly then .partiallyFilled else .accepted
  else if f.kind = some .rejected ∨ hasPart status "REJECT" then .rejected
  else if f.kind = some .canceled ∨ status = "CANCELLED" ∨ status = "CANCELED" then .canceled
  else if f.kind = some .expired ∨ hasPart status "EXPIRED" then .expired
  else if partly then .partiallyFilled
  else if f.kind = some .triggered then
    if f.orderType.isTriggerable then .triggered else .accepted
  else .accepted

def isTrustworthy (upper : Char → List Char) (f : OrderFields) : Bool :=
  rowIsTrustworthy upper
    ⟨f.orderSide.isSome, f.priceType, f.duration, f.kind, f.status.getD ""⟩

/-- `_is_gone` of the inventory: the class of the status, and whether a fill is complete. -/
def isGone (upper : Char → List Char) (f : OrderFields) : Bool :=
  let status := f.orderStatus upper
  let statusClass : StatusClass :=
    if status.isTerminal = false then .working
    else if status = .filled then .filled
    else .otherTerminal
  orderIsGone statusClass f.totalUnfilledSize f.quantity f.totalFillSize

/-- `fill_identity_ts`: the venue's own time stamp, 0 when it sent none. -/
def fillIdentityTs (f : OrderFields) : Int := f.tsEvent.getD 0

/-- `_fill_parts`, with the printed form of a float. -/
def fillParts (reprFloat : WirePrice → String) (f : OrderFields) : FillParts where
  fillId := Account.truthy f.fillId
  basketId := f.basketId.getD ""
  exchangeOrderId := f.exchangeOrderId.getD ""
  fillSize := (f.fillSize.map toString).getD "None"
  fillPrice := (f.fillPrice.map reprFloat).getD "None"

/-- An argument of the extension that has to fit an `i64`. -/
def fitsI64 (n : Int) : Bool := -9223372036854775808 ≤ n ∧ n ≤ 9223372036854775807

/-- `fill_dedup_key`; `none` where the extension refuses the time stamp. -/
def fillDedupKey (reprFloat : WirePrice → String) (f : OrderFields) (tsEvent : Int) :
    Option String :=
  if fitsI64 tsEvent then
    some (dedupKey (f.accountId.getD "") f.instrumentId (f.fillParts reprFloat) tsEvent)
  else none

def fillTradeId (reprFloat : WirePrice → String) (f : OrderFields) (tsEvent : Int) :
    Option String :=
  if fitsI64 tsEvent then some (tradeId (f.fillParts reprFloat) tsEvent) else none

end OrderFields

/-! ### The identity of a fill -/

/-- Two order fields of one venue fill. -/
def SameFill (reprFloat : WirePrice → String) (f g : OrderFields) : Prop :=
  f.accountId.getD "" = g.accountId.getD "" ∧ f.instrumentId = g.instrumentId ∧
    SameTrade (f.fillParts reprFloat) (g.fillParts reprFloat) f.fillIdentityTs g.fillIdentityTs

/-- The texts that enter the identity hold none of its separators. -/
structure OrderFields.Plain (reprFloat : WirePrice → String) (f : OrderFields) : Prop where
  accountId : Exec.Plain (f.accountId.getD "")
  instrumentId : Exec.Plain f.instrumentId
  parts : (f.fillParts reprFloat).Plain

/-- Fill identity is injective, for the parts that the extension takes and for the order fields that the
adapter takes them from. -/
theorem dedupKey_injective :
    (∀ (account instrument account' instrument' : String) (p q : FillParts) (t u : Int),
      Plain account → Plain instrument → Plain account' → Plain instrument' → p.Plain → q.Plain →
      (dedupKey account instrument p t = dedupKey account' instrument' q u ↔
        account = account' ∧ instrument = instrument' ∧ SameTrade p q t u)) ∧
    (∀ (reprFloat : WirePrice → String) (f g : OrderFields) (key key' : String),
      f.Plain reprFloat → g.Plain reprFloat →
      f.fillDedupKey reprFloat f.fillIdentityTs = some key →
      g.fillDedupKey reprFloat g.fillIdentityTs = some key' →
      (key = key' ↔ SameFill reprFloat f g)) := by
  refine ⟨fun account instrument account' instrument' p q t u ha hi ha' hi' hp hq =>
    dedupKey_eq_iff ha hi ha' hi' hp hq, ?_⟩
  intro reprFloat f g key key' hf hg hkey hkey'
  have hread : ∀ {f : OrderFields} {key : String},
      f.fillDedupKey reprFloat f.fillIdentityTs = some key →
      key = dedupKey (f.accountId.getD "") f.instrumentId (f.fillParts reprFloat)
        f.fillIdentityTs := by
    intro f key h
    unfold OrderFields.fillDedupKey at h
    split at h
    · exact (Option.some.inj h).symm
    · cases h
  rw [hread hkey, hread hkey']
  exact dedupKey_eq_iff hf.accountId hf.instrumentId hg.accountId hg.instrumentId hf.parts hg.parts

/-- Two partial fills of one order, at the same size and price, at two times. -/
theorem dedupKey_injective_partials :
    dedupKey "ACC" "MNQZ6-CME.RITHMIC" ⟨none, "B1", "X9", "2", "21000.25"⟩ 5 ≠
      dedupKey "ACC" "MNQZ6-CME.RITHMIC" ⟨none, "B1", "X9", "2", "21000.25"⟩ 6 := by
  have haccount : Plain "ACC" := ⟨by decide, by decide⟩
  have hinstrument : Plain "MNQZ6-CME.RITHMIC" := ⟨by decide, by decide⟩
  have hparts : FillParts.Plain ⟨none, "B1", "X9", "2", "21000.25"⟩ :=
    ⟨nofun, ⟨by decide, by decide⟩, ⟨by decide, by decide⟩, ⟨by decide, by decide⟩,
      ⟨by decide, by decide⟩⟩
  intro hkeys
  obtain ⟨-, -, hsame⟩ := (dedupKey_injective.1 _ _ _ _ _ _ 5 6 haccount hinstrument haccount
    hinstrument hparts hparts).mp hkeys
  rcases hsame with ⟨id, htag, -⟩ | ⟨-, -, -, -, htime, -⟩
  · cases htag
  · cases htime

end RithmicNt.Adapter
