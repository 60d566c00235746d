import Mathlib.Algebra.GroupWithZero.Nat
import Mathlib.Algebra.Ring.Int.Defs
import Mathlib.Data.Finset.Insert
import RithmicNt.Lib.Dict
import RithmicNt.Lib.Machine
import RithmicNt.Adapter.Rows

/-! `Inventory`: the working orders and net positions that the tools outside a node read, reduced from
order rows and PnL rows in the order they come. -/

namespace RithmicNt.Adapter.Inventory

open RithmicNt.Lib RithmicNt.Exec

/-- An event as the session hands it over: `row` holds what an order row has, its symbol and exchange
also for a PnL row, and `netQuantity` is the text of the raw net. -/
structure Event where
  type : Option String := none
  row : OrderNotification := {}
  netQuantity : Option String := none
  deriving DecidableEq, Repr

/-- What the language supplies: the uppercase table; `int(text)`; and `int(float(text))`, `none` where the
text is no number, `some none` where the number is infinite and `int` overflows. -/
structure Env where
  upper : Char → List Char
  int : String → Option Int
  float : String → Option (Option Int)

structure WorkingOrder where
  basketId : String
  symbol : String
  exchange : String
  side : Option OrderSide
  qty : Option Int
  unfilled : Option Int
  status : Option String
  kind : Option OrderKind
  userTag : Option String
  price : Option WirePrice
  deriving DecidableEq, Repr

structure OpenPosition where
  symbol : String
  exchange : String
  netQty : Int
  deriving DecidableEq, Repr

/-- The fields of an `Inventory`, with times in `τ`. -/
structure Book (τ : Type) where
  orders : Dict String WorkingOrder := .empty
  positions : Dict String OpenPosition := .empty
  pnlEvents : Nat := 0
  pnlFirst : Option τ := none
  observedUntil : Option τ := none
  doneBaskets : Finset String := ∅
  unknownPositions : Finset String := ∅

/-! ### Readings of a row -/

section

variable (env : Env)

/-- `_as_int`; an error where `int` overflows. -/
def asInt (raw : Option String) : Except Unit (Option Int) :=
  match Account.truthy raw with
  | none => .ok none
  | some text =>
    match env.int text with
    | some n => .ok (some n)
    | none =>
      match env.float text with
      | none => .ok none
      | some none => .error ()
      | some (some n) => .ok (some n)

inductive PositionChange
  | unknown
  | flat
  | net (n : Int)
  deriving DecidableEq, Repr

/-- `position_change`, behind the conversion of its argument to 64 bits. -/
def positionChange : Option Int → Except Unit PositionChange
  | none => .ok .unknown
  | some n =>
    if n < -2 ^ 63 ∨ 2 ^ 63 ≤ n then .error ()
    else if n = 0 then .ok .flat
    else .ok (.net n)

def Event.change (e : Event) : Except Unit PositionChange :=
  asInt env e.netQuantity >>= positionChange

def Event.basket (e : Event) : String := strip (e.row.basketId.getD "")

/-- The fields of an order row, where it is readable. -/
def Event.fields (e : Event) : Option OrderFields :=
  if e.type = none ∨ e.type = some "order_notification" then
    orderNotificationToFields env.upper e.row
  else none

/-- A row that shows its order finished. -/
def Event.isGone (e : Event) : Bool := (e.fields env).any (·.isGone env.upper)

def Event.isOrder (e : Event) : Bool :=
  let etype := e.type.getD ""
  let fromOrderStream := etype == "order_notification" &&
    (e.row.source == .rithmic || e.row.source == .exchange)
  (etype == "" || etype == "order_notification") &&
    ((Account.truthy e.row.basketId).isSome || fromOrderStream)

def Event.isPnl (e : Event) : Bool :=
  e.type == some "account_pnl" || e.type == some "instrument_pnl"

def Event.isPosition (e : Event) : Bool := e.type == some "instrument_pnl"

/-- The contract that a position row is about, its symbol and exchange. -/
def Event.contract (e : Event) : Option (String × String) :=
  let symbol := strip (e.row.symbol.getD "")
  if symbol = "" then none else some (symbol, (Account.truthy e.row.exchange).getD "CME")

/-- The key of a contract in the two position fields. -/
def contractKey (contract : String × String) : String := contract.1 ++ "." ++ contract.2

/-- `_side_from_txn`, for a code: the text of any other code names no side. -/
def sideFromTxn : Option Int → Option OrderSide
  | some 1 => some .buy
  | some 2 => some .sell
  | _ => none

end

/-! ### Ingestion -/

namespace Book

variable {τ : Type} (env : Env) (s : Book τ)

/-- The order that a row makes of the one before it, where it knows a symbol. -/
def reviseOrder (e : Event) (prev : Option WorkingOrder) : Option WorkingOrder :=
  let symbol := strip (((Account.truthy e.row.symbol).or (prev.map (·.symbol))).getD "")
  if symbol = "" then none
  else some {
    basketId := e.basket
    symbol := symbol
    exchange := ((Account.truthy e.row.exchange).or
      (Account.truthy (prev.map (·.exchange)))).getD "CME"
    side := (sideFromTxn e.row.transactionType).or (prev.bind (·.side))
    qty := e.row.quantity.or (prev.bind (·.qty))
    unfilled := e.row.totalUnfilledSize.or (prev.bind (·.unfilled))
    status := Account.truthy (e.row.status.map (toUppercase env.upper))
    kind := (match e.fields env with
      | some f => f.kind
      | none => e.row.kind).or (prev.bind (·.kind))
    userTag := e.row.userTag.or (prev.bind (·.userTag))
    price := e.row.price.or (prev.bind (·.price)) }

def ingestOrder (e : Event) : Book τ :=
  if e.basket = "" ∨ e.basket ∈ s.doneBaskets then s
  else if e.isGone env then
    { s with
      orders := s.orders.filter (·.1 ≠ e.basket)
      doneBaskets := insert e.basket s.doneBaskets }
  else match reviseOrder env e (s.orders.get? e.basket) with
    | none => s
    | some order => { s with orders := s.orders.set e.basket order }

/-- `_ingest_position`; where a reading raises, nothing has been written. -/
def ingestPosition (e : Event) : Book τ :=
  match e.contract with
  | none => s
  | some contract =>
    let key := contractKey contract
    match e.change env with
    | .error _ => s
    | .ok .unknown =>
      { s with
        positions := s.positions.filter (·.1 ≠ key)
        unknownPositions := insert key s.unknownPositions }
    | .ok .flat =>
      { s with
        positions := s.positions.filter (·.1 ≠ key)
        unknownPositions := s.unknownPositions.erase key }
    | .ok (.net n) =>
      { s with
        positions := s.positions.set key ⟨contract.1, contract.2, n⟩
        unknownPositions := s.unknownPositions.erase key }

variable [LinearOrder τ] [Zero τ]

def markObserved (now : τ) : Book τ := { s with observedUntil := some now }

/-- The counters and times that any PnL row moves. -/
def notePnl (now : τ) : Book τ :=
  { s with
    pnlEvents := s.pnlEvents + 1
    pnlFirst := s.pnlFirst.or (some now)
    observedUntil := some (max now ((s.observedUntil.filter (· ≠ 0)).getD now)) }

def ingest (e : Event) (now : τ) : Book τ :=
  if e.isOrder then s.ingestOrder env e
  else
    let s := if e.isPnl then s.notePnl now else s
    if e.isPosition then s.ingestPosition env e else s

/-! ### Readings of the inventory -/

/-- `pnl_live`: `settled first until` is `until - first >= PNL_SETTLE_S`. -/
def pnlLive (settled : τ → τ → Bool) : Bool :=
  match s.pnlFirst, s.observedUntil with
  | some first, some observed => s.unknownPositions = ∅ && settled first observed
  | _, _ => false

def working : List WorkingOrder :=
  (s.orders.keys.mergeSort fun a b => decide (a ≤ b)).filterMap s.orders.get?

def openPositions : List OpenPosition :=
  (s.positions.keys.mergeSort fun a b => decide (a ≤ b)).filterMap s.positions.get?

end Book

/-! ### What was ingested -/

/-- The last event of a log that satisfies `p`. -/
def latest (p : Event → Bool) (log : List Event) : Option Event := (log.filter p).getLast?

/-- The latest row of a contract. -/
def latestRow (log : List Event) (contract : String × String) : Option Event :=
  latest (fun e => e.isPosition && e.contract == some contract) log

/-- The basket appears in some order row. -/
def Appeared (log : List Event) (basket : String) : Prop :=
  basket ≠ "" ∧ ∃ e ∈ log, e.isOrder = true ∧ e.basket = basket

/-- Some row shows the basket finished. -/
def Finished (env : Env) (log : List Event) (basket : String) : Prop :=
  basket ≠ "" ∧ ∃ e ∈ log, e.isOrder = true ∧ e.basket = basket ∧ e.isGone env = true

/-- Every position row is of a contract, the latest row of each contract is readable, and the open
positions are the nets that are not zero, each once. -/
structure PositionsExact {τ : Type} (env : Env) (s : Book τ) (log : List Event) : Prop where
  attributed : ∀ e ∈ log, e.isPosition = true → e.contract.isSome = true
  readable : ∀ contract e, latestRow log contract = some e →
    ∃ change, e.change env = .ok change ∧ change ≠ .unknown
  exact : ∀ p, p ∈ s.openPositions ↔ ∃ e, latestRow log (p.symbol, p.exchange) = some e ∧
    e.change env = .ok (.net p.netQty)
  once : (s.openPositions.map fun p => (p.symbol, p.exchange)).Nodup

/-- The working baskets are those that appeared and are not finished. -/
def WorkingExact {τ : Type} (env : Env) (s : Book τ) (log : List Event) : Prop :=
  ∀ basket, (∃ order ∈ s.working, order.basketId = basket) ↔
    Appeared log basket ∧ ¬ Finished env log basket

/-! ### Runs -/

/-- The inventory, and all that it ingested. -/
structure State (τ : Type) where
  book : Book τ := {}
  log : List Event := []

inductive Step (τ : Type)
  | ingest (e : Event) (now : τ)
  | markObserved (now : τ)

section

variable {τ : Type} [LinearOrder τ] [Zero τ] (env : Env) (settled : τ → τ → Bool)

def machine : Machine (State τ) (Step τ) where
  Start s := s = {}
  step s
    | .ingest e now => some ⟨s.book.ingest env e now, s.log ++ [e]⟩
    | .markObserved now => some { s with book := s.book.markObserved now }

structure Sound (s : State τ) : Prop where
  positions : s.book.pnlLive settled = true → PositionsExact env s.book s.log
  working : WorkingExact env s.book s.log

/-- A position row has a symbol, its net does not overflow, and no other contract ingested so far has
its key; a row of a basket that is neither working nor finished knows a symbol, or finishes it. -/
def Legible (s : State τ) : Step τ → Prop
  | .ingest e _ =>
    (e.isPosition = true → ∃ contract change, e.contract = some contract ∧
      e.change env = .ok change ∧
      ∀ other ∈ s.log, ∀ contract', other.isPosition = true → other.contract = some contract' →
        contractKey contract' = contractKey contract → contract' = contract) ∧
    (e.isOrder = true → e.basket ≠ "" → e.basket ∉ s.book.doneBaskets →
      s.book.orders.get? e.basket = none → e.isGone env = false → strip (e.row.symbol.getD "") ≠ "")
  | .markObserved _ => True

end

/-! ### One event more -/

theorem latest_append (p : Event → Bool) (log : List Event) (e : Event) :
    latest p (log ++ [e]) = if p e then some e else latest p log := by
  unfold latest
  rw [List.filter_append]
  by_cases h : p e = true
  · rw [List.filter_cons_of_pos h, if_pos h]
    exact List.getLast?_concat
  · rw [List.filter_cons_of_neg h, if_neg h, List.filter_nil, List.append_nil]

theorem latest_spec {p : Event → Bool} {log : List Event} {e : Event} (h : latest p log = some e) :
    e ∈ log ∧ p e = true :=
  List.mem_filter.mp (List.mem_of_getLast? h)

theorem appeared_append {log : List Event} {e : Event} {basket : String} :
    Appeared (log ++ [e]) basket ↔
      Appeared log basket ∨ basket ≠ "" ∧ e.isOrder = true ∧ e.basket = basket := by
  simp only [Appeared, List.mem_append, List.mem_singleton]
  constructor
  · rintro ⟨hne, x, hx | rfl, horder, hbasket⟩
    · exact .inl ⟨hne, x, hx, horder, hbasket⟩
    · exact .inr ⟨hne, horder, hbasket⟩
  · rintro (⟨hne, x, hx, horder, hbasket⟩ | ⟨hne, horder, hbasket⟩)
    · exact ⟨hne, x, .inl hx, horder, hbasket⟩
    · exact ⟨hne, e, .inr rfl, horder, hbasket⟩

theorem finished_append {env : Env} {log : List Event} {e : Event} {basket : String} :
    Finished env (log ++ [e]) basket ↔ Finished env log basket ∨
      basket ≠ "" ∧ e.isOrder = true ∧ e.basket = basket ∧ e.isGone env = true := by
  simp only [Finished, List.mem_append, List.mem_singleton]
  constructor
  · rintro ⟨hne, x, hx | rfl, hrow⟩
    · exact .inl ⟨hne, x, hx, hrow⟩
    · exact .inr ⟨hne, hrow⟩
  · rintro (⟨hne, x, hx, hrow⟩ | ⟨hne, hrow⟩)
    · exact ⟨hne, x, .inl hx, hrow⟩
    · exact ⟨hne, e, .inr rfl, hrow⟩

/-- A position row is no order row. -/
theorem isOrder_of_isPosition {e : Event} (h : e.isPosition = true) : e.isOrder = false := by
  have htype : e.type = some "instrument_pnl" := by simpa [Event.isPosition] using h
  simp [Event.isOrder, htype]

/-! ### What one step does to a book -/

/-- What a change of a contract leaves under its key. -/
def PositionChange.leaves (contract : String × String) : PositionChange → Option OpenPosition
  | .net n => some ⟨contract.1, contract.2, n⟩
  | _ => none

namespace Book

variable {τ : Type} {env : Env} (s : Book τ) {e : Event} {contract : String × String}
  {change : PositionChange}

/-- The position fields after a row of a contract. -/
theorem ingestPosition_positions (hcontract : e.contract = some contract)
    (hchange : e.change env = .ok change) (key : String) :
    (s.ingestPosition env e).positions.get? key =
      if key = contractKey contract then change.leaves contract else s.positions.get? key := by
  unfold ingestPosition
  rw [hcontract]
  dsimp only
  rw [hchange]
  cases change with
  | unknown => exact Dict.get?_filter_ne ..
  | flat => exact Dict.get?_filter_ne ..
  | net n => exact Dict.get?_set ..

theorem ingestPosition_unknown (hcontract : e.contract = some contract)
    (hchange : e.change env = .ok change) (key : String) :
    key ∈ (s.ingestPosition env e).unknownPositions ↔
      if key = contractKey contract then change = .unknown else key ∈ s.unknownPositions := by
  unfold ingestPosition
  rw [hcontract]
  dsimp only
  rw [hchange]
  by_cases hkey : key = contractKey contract
  · cases change <;> simp [hkey]
  · cases change <;> simp [hkey]

theorem ingestPosition_orders (env : Env) (e : Event) :
    (s.ingestPosition env e).orders = s.orders ∧
      (s.ingestPosition env e).doneBaskets = s.doneBaskets := by
  unfold ingestPosition
  repeat' split
  all_goals exact ⟨rfl, rfl⟩

theorem ingestOrder_positions (env : Env) (e : Event) :
    (s.ingestOrder env e).positions = s.positions ∧
      (s.ingestOrder env e).unknownPositions = s.unknownPositions := by
  unfold ingestOrder
  repeat' split
  all_goals exact ⟨rfl, rfl⟩

/-- The order under a basket keeps its id. -/
theorem basketId_of_reviseOrder {prev : Option WorkingOrder} {order : WorkingOrder}
    (h : reviseOrder env e prev = some order) : order.basketId = e.basket := by
  unfold reviseOrder at h
  dsimp only at h
  split at h
  · cases h
  · cases h
    rfl

theorem truthy_getD_empty (text : Option String) : (Account.truthy text).getD "" = text.getD "" := by
  cases text with
  | none => rfl
  | some text => by_cases h : text = "" <;> simp [Account.truthy, Option.filter, h]

/-- A row that knows a symbol, or follows one that did, keeps its order. -/
theorem ingestOrder_kept (hbasket : e.basket ≠ "") (hdone : e.basket ∉ s.doneBaskets)
    (hgone : e.isGone env = false)
    (hsymbol : s.orders.get? e.basket = none → strip (e.row.symbol.getD "") ≠ "")
    (hid : ∀ order, s.orders.get? e.basket = some order → order.basketId = e.basket) :
    (s.ingestOrder env e).doneBaskets = s.doneBaskets ∧
      (∃ order, (s.ingestOrder env e).orders.get? e.basket = some order ∧
        order.basketId = e.basket) ∧
      ∀ basket ≠ e.basket, (s.ingestOrder env e).orders.get? basket = s.orders.get? basket := by
  unfold ingestOrder
  rw [if_neg (by simp [hdone, hbasket]), if_neg (by simp [hgone])]
  split
  next hrevise =>
    cases hprev : s.orders.get? e.basket with
    | some prev => exact ⟨rfl, ⟨prev, rfl, hid prev hprev⟩, fun _ _ => rfl⟩
    | none =>
      -- without an order before it the row's own symbol decides
      have hblank : strip (e.row.symbol.getD "") = "" := by
        rw [hprev] at hrevise
        unfold reviseOrder at hrevise
        simpa [truthy_getD_empty] using hrevise
      exact (hsymbol hprev hblank).elim
  next order hrevise =>
    refine ⟨rfl, ⟨order, Dict.get?_set_self .., basketId_of_reviseOrder hrevise⟩, fun basket hne => ?_⟩
    exact Dict.get?_set_of_ne _ hne _

/-- A finished row takes its order out for good. -/
theorem ingestOrder_gone (hbasket : e.basket ≠ "") (hdone : e.basket ∉ s.doneBaskets)
    (hgone : e.isGone env = true) :
    (s.ingestOrder env e).doneBaskets = insert e.basket s.doneBaskets ∧
      ∀ basket, (s.ingestOrder env e).orders.get? basket =
        if basket = e.basket then none else s.orders.get? basket := by
  unfold ingestOrder
  rw [if_neg (by simp [hdone, hbasket]), if_pos hgone]
  exact ⟨rfl, fun basket => Dict.get?_filter_ne ..⟩

theorem ingestOrder_skipped (h : e.basket = "" ∨ e.basket ∈ s.doneBaskets) :
    s.ingestOrder env e = s := by
  unfold ingestOrder
  rw [if_pos h]

end Book

/-! ### The invariant -/

section

variable {τ : Type} {env : Env} {s : State τ} {e : Event}

/-- The latest row whose contract has the key. -/
def latestKeyed (log : List Event) (key : String) : Option Event :=
  latest (fun e => e.isPosition && e.contract.map contractKey == some key) log

/-- A key holds what the latest row under it says. -/
def Keyed (env : Env) (book : Book τ) (key : String) : Option Event → Prop
  | none => book.positions.get? key = none ∧ key ∉ book.unknownPositions
  | some e => ∃ contract change, e.contract = some contract ∧ contractKey contract = key ∧
      e.change env = .ok change ∧ book.positions.get? key = change.leaves contract ∧
      (key ∈ book.unknownPositions ↔ change = .unknown)

/-- The position half of the invariant. -/
structure PositionInv (env : Env) (s : State τ) : Prop where
  attributed : ∀ e ∈ s.log, e.isPosition = true → e.contract.isSome = true
  apart : ∀ e ∈ s.log, ∀ e' ∈ s.log, ∀ contract contract', e.isPosition = true →
    e'.isPosition = true → e.contract = some contract → e'.contract = some contract' →
      contractKey contract = contractKey contract' → contract = contract'
  keyed : ∀ key, Keyed env s.book key (latestKeyed s.log key)

/-- The order half: what is done is what is finished, and an order is held under its own basket. -/
structure OrderInv (env : Env) (s : State τ) : Prop where
  done : ∀ basket, basket ∈ s.book.doneBaskets ↔ Finished env s.log basket
  held : ∀ basket, (s.book.orders.get? basket).isSome = true ↔
    Appeared s.log basket ∧ ¬ Finished env s.log basket
  ids : ∀ basket order, s.book.orders.get? basket = some order → order.basketId = basket

/-- An event that is no position row moves no position. -/
theorem PositionInv.other (hinv : PositionInv env s) (hposition : e.isPosition = false)
    {book : Book τ} (hpositions : book.positions = s.book.positions)
    (hunknown : book.unknownPositions = s.book.unknownPositions) :
    PositionInv env ⟨book, s.log ++ [e]⟩ where
  attributed x hx hrow := by
    rcases List.mem_append.mp hx with hx | hx
    · exact hinv.attributed x hx hrow
    · rw [List.mem_singleton.mp hx, hposition] at hrow
      cases hrow
  apart x hx x' hx' contract contract' hrow hrow' := by
    rcases List.mem_append.mp hx with hx | hx
    · rcases List.mem_append.mp hx' with hx' | hx'
      · exact hinv.apart x hx x' hx' contract contract' hrow hrow'
      · rw [List.mem_singleton.mp hx', hposition] at hrow'
        cases hrow'
    · rw [List.mem_singleton.mp hx, hposition] at hrow
      cases hrow
  keyed key := by
    have hkeyed := hinv.keyed key
    rw [latestKeyed, latest_append, if_neg (by simp [hposition])]
    rw [latestKeyed] at hkeyed
    revert hkeyed
    cases latest _ s.log <;> simp only [Keyed, hpositions, hunknown] <;> exact id

/-- A legible position row decides its key and leaves the others. -/
theorem PositionInv.position (hinv : PositionInv env s) {contract : String × String}
    {change : PositionChange} (hrow : e.isPosition = true) (hcontract : e.contract = some contract)
    (hchange : e.change env = .ok change)
    (hapart : ∀ other ∈ s.log, ∀ contract', other.isPosition = true →
      other.contract = some contract' → contractKey contract' = contractKey contract →
        contract' = contract)
    {book : Book τ} (hpositions : book.positions = s.book.positions)
    (hunknown : book.unknownPositions = s.book.unknownPositions) :
    PositionInv env ⟨book.ingestPosition env e, s.log ++ [e]⟩ where
  attributed x hx hx' := by
    rcases List.mem_append.mp hx with hx | hx
    · exact hinv.attributed x hx hx'
    · rw [List.mem_singleton.mp hx, hcontract]
      rfl
  apart x hx x' hx' c c' hposition hposition' hc hc' hkey := by
    rcases List.mem_append.mp hx with hx | hx <;> rcases List.mem_append.mp hx' with hx' | hx'
    · exact hinv.apart x hx x' hx' c c' hposition hposition' hc hc' hkey
    · rw [List.mem_singleton.mp hx', hcontract] at hc'
      obtain rfl := Option.some.inj hc'
      exact hapart x hx c hposition hc hkey
    · rw [List.mem_singleton.mp hx, hcontract] at hc
      obtain rfl := Option.some.inj hc
      exact (hapart x' hx' c' hposition' hc' hkey.symm).symm
    · rw [List.mem_singleton.mp hx, hcontract] at hc
      rw [List.mem_singleton.mp hx', hcontract] at hc'
      exact Option.some.inj (hc.symm.trans hc')
  keyed key := by
    rw [latestKeyed, latest_append]
    by_cases hkey : contractKey contract = key
    · rw [if_pos (by simp [hrow, hcontract, hkey])]
      refine ⟨contract, change, hcontract, hkey, hchange, ?_, ?_⟩
      · rw [book.ingestPosition_positions hcontract hchange, if_pos hkey.symm]
      · rw [book.ingestPosition_unknown hcontract hchange, if_pos hkey.symm]
    · rw [if_neg (by simp [hcontract, hkey])]
      have hkeyed := hinv.keyed key
      rw [latestKeyed] at hkeyed
      revert hkeyed
      have hne : key ≠ contractKey contract := fun h => hkey h.symm
      cases latest _ s.log <;>
        simp only [Keyed, book.ingestPosition_positions hcontract hchange,
          book.ingestPosition_unknown hcontract hchange, if_neg hne, hpositions, hunknown] <;>
        exact id

/-- An event that is no order row moves no order. -/
theorem OrderInv.other (hinv : OrderInv env s) (horder : e.isOrder = false) {book : Book τ}
    (horders : book.orders = s.book.orders) (hdone : book.doneBaskets = s.book.doneBaskets) :
    OrderInv env ⟨book, s.log ++ [e]⟩ where
  done basket := by simp [hdone, hinv.done, finished_append, horder]
  held basket := by simp [horders, hinv.held, appeared_append, finished_append, horder]
  ids basket order h := hinv.ids basket order (by rw [← horders]; exact h)

/-- A row of no basket, or of one that is finished already. -/
theorem OrderInv.skipped (hinv : OrderInv env s)
    (hskip : e.basket = "" ∨ e.basket ∈ s.book.doneBaskets) :
    OrderInv env ⟨s.book.ingestOrder env e, s.log ++ [e]⟩ := by
  rw [s.book.ingestOrder_skipped hskip]
  have hsame : ∀ basket, Finished env (s.log ++ [e]) basket ↔ Finished env s.log basket := by
    intro basket
    rw [finished_append]
    refine or_iff_left_of_imp ?_
    rintro ⟨hne, -, rfl, -⟩
    exact (hinv.done e.basket).mp (hskip.resolve_left hne)
  refine ⟨fun basket => by rw [hsame, hinv.done], fun basket => ?_, hinv.ids⟩
  rw [hinv.held, hsame, appeared_append]
  constructor
  · exact fun ⟨happeared, hfinished⟩ => ⟨.inl happeared, hfinished⟩
  · rintro ⟨happeared | ⟨hne, -, rfl⟩, hfinished⟩
    · exact ⟨happeared, hfinished⟩
    · exact (hfinished ((hinv.done e.basket).mp (hskip.resolve_left hne))).elim

/-- A row that finishes its basket. -/
theorem OrderInv.gone (hinv : OrderInv env s) (horder : e.isOrder = true) (hbasket : e.basket ≠ "")
    (hdone : e.basket ∉ s.book.doneBaskets) (hgone : e.isGone env = true) :
    OrderInv env ⟨s.book.ingestOrder env e, s.log ++ [e]⟩ := by
  obtain ⟨hdones, horders⟩ := s.book.ingestOrder_gone hbasket hdone hgone
  have hfinished : ∀ basket, Finished env (s.log ++ [e]) basket ↔
      basket = e.basket ∨ Finished env s.log basket := by
    intro basket
    rw [finished_append]
    constructor
    · rintro (h | ⟨-, -, rfl, -⟩)
      · exact .inr h
      · exact .inl rfl
    · rintro (rfl | h)
      · exact .inr ⟨hbasket, horder, rfl, hgone⟩
      · exact .inl h
  refine ⟨fun basket => ?_, fun basket => ?_, fun basket order hget => ?_⟩
  · rw [hdones, Finset.mem_insert, hinv.done, hfinished]
  · rw [horders, hfinished, appeared_append]
    by_cases hb : basket = e.basket
    · simp [hb]
    · rw [if_neg hb, hinv.held]
      simp [hb, Ne.symm hb]
  · rw [horders] at hget
    split at hget
    · cases hget
    · exact hinv.ids basket order hget

/-- A row of a basket that goes on working. -/
theorem OrderInv.kept (hinv : OrderInv env s) (horder : e.isOrder = true) (hbasket : e.basket ≠ "")
    (hdone : e.basket ∉ s.book.doneBaskets) (hgone : e.isGone env = false)
    (hsymbol : s.book.orders.get? e.basket = none → strip (e.row.symbol.getD "") ≠ "") :
    OrderInv env ⟨s.book.ingestOrder env e, s.log ++ [e]⟩ := by
  have hopen : ¬ Finished env s.log e.basket := fun h => hdone ((hinv.done _).mpr h)
  obtain ⟨hdones, ⟨order, hget, hid⟩, hothers⟩ := s.book.ingestOrder_kept hbasket hdone hgone
    hsymbol (hinv.ids e.basket)
  have hsame : ∀ basket, Finished env (s.log ++ [e]) basket ↔ Finished env s.log basket := by
    intro basket
    simp [finished_append, hgone]
  refine ⟨fun basket => by rw [hdones, hsame, hinv.done], fun basket => ?_,
    fun basket order' hget' => ?_⟩
  · rw [hsame, appeared_append]
    by_cases hb : basket = e.basket
    · rw [hb, hget]
      simp [hbasket, horder, hopen]
    · rw [hothers basket hb, hinv.held]
      simp [Ne.symm hb]
  · by_cases hb : basket = e.basket
    · rw [hb, hget] at hget'
      rw [hb, ← Option.some.inj hget', hid]
    · rw [hothers basket hb] at hget'
      exact hinv.ids basket order' hget'

/-- An order row files its basket as working or as done. -/
theorem OrderInv.order (hinv : OrderInv env s) (horder : e.isOrder = true)
    (hsymbol : e.basket ≠ "" → e.basket ∉ s.book.doneBaskets →
      s.book.orders.get? e.basket = none → e.isGone env = false → strip (e.row.symbol.getD "") ≠ "") :
    OrderInv env ⟨s.book.ingestOrder env e, s.log ++ [e]⟩ := by
  by_cases hskip : e.basket = "" ∨ e.basket ∈ s.book.doneBaskets
  · exact hinv.skipped hskip
  · obtain ⟨hbasket, hdone⟩ := not_or.mp hskip
    cases hgone : e.isGone env with
    | true => exact hinv.gone horder hbasket hdone hgone
    | false =>
      exact hinv.kept horder hbasket hdone hgone fun hnone => hsymbol hbasket hdone hnone hgone

/-! ### What the invariant says of the readings -/

theorem mem_sortedValues {α : Type} {d : Dict String α} {v : α} :
    v ∈ (d.keys.mergeSort fun a b => decide (a ≤ b)).filterMap d.get? ↔
      ∃ key, d.get? key = some v := by
  rw [List.mem_filterMap]
  constructor
  · rintro ⟨key, -, hget⟩
    exact ⟨key, hget⟩
  · rintro ⟨key, hget⟩
    exact ⟨key, List.mem_mergeSort.mpr (Dict.mem_keys_iff.mpr (by rw [hget]; rfl)), hget⟩

/-- Values that name their keys are listed once each. -/
theorem nodup_sortedValues {α : Type} (d : Dict String α) (f : α → String)
    (h : ∀ key v, d.get? key = some v → f v = key) :
    (((d.keys.mergeSort fun a b => decide (a ≤ b)).filterMap d.get?).map f).Nodup := by
  have hkeys : (d.keys.mergeSort fun a b => decide (a ≤ b)).Nodup :=
    (List.mergeSort_perm _ _).nodup_iff.mpr d.nodup
  rw [List.map_filterMap]
  refine hkeys.filterMap ?_
  intro key key' id hid hid'
  obtain ⟨v, hv, rfl⟩ := Option.map_eq_some_iff.mp hid
  obtain ⟨v', hv', heq⟩ := Option.map_eq_some_iff.mp hid'
  rw [← h key v hv, ← h key' v' hv', heq]

/-- A contract that has a row has the latest row of its key. -/
theorem PositionInv.latestRow_eq (hinv : PositionInv env s) (he : e ∈ s.log)
    (hrow : e.isPosition = true) {contract : String × String} (hcontract : e.contract = some contract) :
    latestRow s.log contract = latestKeyed s.log (contractKey contract) := by
  unfold latestRow latestKeyed latest
  refine congrArg List.getLast? (List.filter_congr fun x hx => ?_)
  cases hposition : x.isPosition with
  | false => simp
  | true =>
    rw [Bool.true_and, Bool.true_and, Bool.eq_iff_iff, beq_iff_eq, beq_iff_eq]
    constructor
    · intro hx'
      rw [hx', Option.map_some]
    · intro hkey
      obtain ⟨contract', hcontract', hkey⟩ := Option.map_eq_some_iff.mp hkey
      rw [hcontract', hinv.apart x hx e he contract' contract hposition hrow hcontract' hcontract hkey]

theorem PositionInv.keyed_of_latestRow (hinv : PositionInv env s) {contract : String × String}
    (h : latestRow s.log contract = some e) :
    Keyed env s.book (contractKey contract) (some e) ∧ e.contract = some contract := by
  obtain ⟨he, hspec⟩ := latest_spec h
  simp only [Bool.and_eq_true, beq_iff_eq] at hspec
  have hkeyed := hinv.keyed (contractKey contract)
  rw [← hinv.latestRow_eq he hspec.1 hspec.2, h] at hkeyed
  exact ⟨hkeyed, hspec.2⟩

/-- An open position is what the latest row of its contract says. -/
theorem PositionInv.latestRow_of_get? (hinv : PositionInv env s) {key : String} {p : OpenPosition}
    (hget : s.book.positions.get? key = some p) :
    contractKey (p.symbol, p.exchange) = key ∧
      ∃ e, latestRow s.log (p.symbol, p.exchange) = some e ∧ e.change env = .ok (.net p.netQty) := by
  have hkeyed := hinv.keyed key
  cases hlatest : latestKeyed s.log key with
  | none =>
    rw [hlatest] at hkeyed
    rw [hkeyed.1] at hget
    cases hget
  | some e =>
    rw [hlatest] at hkeyed
    obtain ⟨contract, change, hcontract, rfl, hchange, hpositions, -⟩ := hkeyed
    rw [hpositions] at hget
    cases change with
    | unknown => cases hget
    | flat => cases hget
    | net n =>
      cases hget
      obtain ⟨he, hspec⟩ := latest_spec hlatest
      simp only [Bool.and_eq_true] at hspec
      exact ⟨rfl, e, (hinv.latestRow_eq he hspec.1 hcontract).trans hlatest, hchange⟩

theorem PositionInv.exact (hinv : PositionInv env s) (hknown : s.book.unknownPositions = ∅) :
    PositionsExact env s.book s.log where
  attributed := hinv.attributed
  readable contract e h := by
    obtain ⟨⟨_, change, -, -, hchange, -, hunknown⟩, -⟩ := hinv.keyed_of_latestRow h
    refine ⟨change, hchange, fun heq => ?_⟩
    have hmem := hunknown.mpr heq
    rw [hknown] at hmem
    cases hmem
  exact p := by
    unfold Book.openPositions
    rw [mem_sortedValues]
    constructor
    · rintro ⟨key, hget⟩
      exact (hinv.latestRow_of_get? hget).2
    · rintro ⟨e, hlatest, hnet⟩
      obtain ⟨⟨contract, change, hcontract, hkey, hchange, hpositions, -⟩, hcontract'⟩ :=
        hinv.keyed_of_latestRow hlatest
      cases hcontract.symm.trans hcontract'
      cases hchange.symm.trans hnet
      exact ⟨_, hpositions⟩
  once := by
    have hnodup := nodup_sortedValues s.book.positions
      (fun p => contractKey (p.symbol, p.exchange))
      fun key p hget => (hinv.latestRow_of_get? hget).1
    refine List.Nodup.of_map contractKey ?_
    rw [List.map_map]
    exact hnodup

theorem OrderInv.exact (hinv : OrderInv env s) : WorkingExact env s.book s.log := by
  intro basket
  rw [← hinv.held]
  unfold Book.working
  simp only [mem_sortedValues]
  constructor
  · rintro ⟨order, ⟨key, hget⟩, rfl⟩
    rw [hinv.ids key order hget, hget]
    rfl
  · intro hsome
    obtain ⟨order, hget⟩ := Option.isSome_iff_exists.mp hsome
    exact ⟨order, ⟨basket, hget⟩, hinv.ids basket order hget⟩

end

/-! ### Runs keep the invariant -/

section

variable {τ : Type} [LinearOrder τ] [Zero τ] {env : Env} {settled : τ → τ → Bool} {s t : State τ}

theorem inv_step {step : Step τ} (hpositions : PositionInv env s) (horders : OrderInv env s)
    (hlegible : Legible env s step) (h : (machine env).step s step = some t) :
    PositionInv env t ∧ OrderInv env t := by
  cases step with
  | markObserved now =>
    cases h
    exact ⟨⟨hpositions.attributed, hpositions.apart, hpositions.keyed⟩,
      ⟨horders.done, horders.held, horders.ids⟩⟩
  | ingest e now =>
    cases h
    obtain ⟨hposition, horder⟩ := hlegible
    unfold Book.ingest
    split
    next hisOrder =>
      have hnot : e.isPosition = false := by
        by_contra h
        rw [isOrder_of_isPosition (by simpa using h)] at hisOrder
        cases hisOrder
      obtain ⟨hsame, hsame'⟩ := s.book.ingestOrder_positions env e
      exact ⟨hpositions.other hnot hsame hsame', horders.order hisOrder (horder hisOrder)⟩
    next hisOrder =>
      have hisOrder : e.isOrder = false := by simpa using hisOrder
      dsimp only
      obtain ⟨book, hbook, hp, hu, ho, hd⟩ : ∃ book : Book τ,
          (if e.isPnl = true then s.book.notePnl now else s.book) = book ∧
          book.positions = s.book.positions ∧ book.unknownPositions = s.book.unknownPositions ∧
          book.orders = s.book.orders ∧ book.doneBaskets = s.book.doneBaskets := by
        split <;> exact ⟨_, rfl, rfl, rfl, rfl, rfl⟩
      rw [hbook]
      split
      next hisPosition =>
        obtain ⟨contract, change, hcontract, hchange, hapart⟩ := hposition hisPosition
        obtain ⟨ho', hd'⟩ := book.ingestPosition_orders env e
        exact ⟨hpositions.position hisPosition hcontract hchange hapart hp hu,
          horders.other hisOrder (ho'.trans ho) (hd'.trans hd)⟩
      next hisPosition =>
        exact ⟨hpositions.other (by simpa using hisPosition) hp hu, horders.other hisOrder ho hd⟩

/-- In every run of legible rows the inventory is sound. -/
theorem inventory_sound {trace : List (Step τ)} (hrun : (machine env).Run (Legible env) trace s) :
    Sound env settled s := by
  have hinv : PositionInv env s ∧ OrderInv env s := by
    refine hrun.invariant (I := fun s => PositionInv env s ∧ OrderInv env s) ?_ ?_
    · rintro s rfl
      refine ⟨⟨by simp, by simp, fun key => ⟨rfl, by simp⟩⟩, ⟨?_, ?_, ?_⟩⟩
      · simp [Finished]
      · simp [Appeared]
      · simp
    · rintro s step t ⟨hpositions, horders⟩ hlegible hstep
      exact inv_step hpositions horders hlegible hstep
  refine ⟨fun hlive => hinv.1.exact ?_, hinv.2.exact⟩
  unfold Book.pnlLive at hlive
  split at hlive
  · simp only [Bool.and_eq_true, decide_eq_true_eq] at hlive
    exact hlive.1
  · cases hlive

end

/-! ### Rows without a symbol -/

/-- The readings of the texts of this section. -/
def plainEnv : Env where
  upper := asciiUpper
  int text := if text = "2" then some 2 else none
  float text := if text = "2" then some (some 2) else none

/-- Five seconds after the first row the stream has settled. -/
def fiveSeconds (first observed : Nat) : Bool := first + 5 ≤ observed

def accountRow : Event := { type := some "account_pnl" }

def positionRow (symbol : Option String) (net : String) : Event where
  type := some "instrument_pnl"
  row := { symbol := symbol, exchange := some "CME" }
  netQuantity := some net

def openRow (symbol : Option String) : Event where
  type := some "order_notification"
  row := { source := .rithmic, notifyTypeName := some "OPEN", basketId := some "B1", symbol := symbol
           exchange := some "CME", quantity := some 1, totalUnfilledSize := some 1 }

/-- A position of two contracts in a row without a symbol leaves no trace: the stream counts as live and
the book as flat.  A working order without a symbol is not listed. -/
theorem nameless_rows_dropped :
    (∃ s, (machine plainEnv).Run Machine.Free
        [.ingest accountRow 100, .ingest (positionRow none "2") 100, .markObserved 105] s ∧
      s.book.pnlLive fiveSeconds = true ∧ s.book.openPositions = [] ∧
      ¬ Sound plainEnv fiveSeconds s) ∧
    ∃ s, (machine plainEnv).Run Machine.Free [.ingest (openRow none) 100] s ∧
      s.book.working = [] ∧ ¬ Sound plainEnv fiveSeconds s := by
  refine ⟨⟨⟨⟨.empty, .empty, 2, some 100, some 105, ∅, ∅⟩, [accountRow, positionRow none "2"]⟩,
    Machine.run_of_exec rfl rfl, rfl, ?_, fun hsound => ?_⟩,
    ⟨⟨{}, [openRow none]⟩, Machine.run_of_exec rfl rfl, ?_, fun hsound => ?_⟩⟩
  · simp [Book.openPositions, Dict.keys, Dict.empty]
  · have hattributed := (hsound.positions rfl).attributed (positionRow none "2") (by simp) rfl
    cases hattributed
  · simp [Book.working, Dict.keys, Dict.empty]
  · have happeared : Appeared [openRow none] "B1" := ⟨by decide, openRow none, by simp, rfl, rfl⟩
    have hopen : ¬ Finished plainEnv [openRow none] "B1" := by
      rintro ⟨-, e, he, -, -, hgone⟩
      rw [List.mem_singleton.mp he] at hgone
      cases hgone
    obtain ⟨order, horder, -⟩ := (hsound.working "B1").mpr ⟨happeared, hopen⟩
    simp [Book.working, Dict.keys, Dict.empty] at horder

/-- The same rows with a symbol: the order works and the position is open. -/
theorem sound_named : ∃ s, (machine plainEnv).Run (Legible plainEnv)
      [.ingest (openRow (some "MNQU6")) 100, .ingest (positionRow (some "MNQU6") "2") 100,
        .markObserved 105] s ∧
    s.book.pnlLive fiveSeconds = true ∧ s.book.openPositions = [⟨"MNQU6", "CME", 2⟩] ∧
    Sound plainEnv fiveSeconds s := by
  obtain ⟨s₁, s₂, s₃, hopen, hposition, hobserved, hlog, hlive, hentries⟩ : ∃ s₁ s₂ s₃,
      (machine plainEnv).step {} (.ingest (openRow (some "MNQU6")) 100) = some s₁ ∧
      (machine plainEnv).step s₁ (.ingest (positionRow (some "MNQU6") "2") 100) = some s₂ ∧
      (machine plainEnv).step s₂ (.markObserved 105) = some s₃ ∧
      s₁.log = [openRow (some "MNQU6")] ∧ s₃.book.pnlLive fiveSeconds = true ∧
      s₃.book.positions.entries = [("MNQU6.CME", ⟨"MNQU6", "CME", 2⟩)] :=
    ⟨_, _, _, rfl, rfl, rfl, rfl, rfl, rfl⟩
  have hstart : (machine plainEnv).Run (Legible plainEnv) [] ({} : State Nat) := .start rfl
  have hfirst : Legible plainEnv ({} : State Nat) (.ingest (openRow (some "MNQU6")) 100) :=
    ⟨nofun, fun _ _ _ _ _ => by decide⟩
  have hlegible : Legible plainEnv s₁ (.ingest (positionRow (some "MNQU6") "2") 100) := by
    refine ⟨fun _ => ⟨("MNQU6", "CME"), .net 2, rfl, rfl, ?_⟩, fun h => by cases h⟩
    intro other hother contract' hother'
    rw [hlog] at hother
    rw [List.mem_singleton.mp hother] at hother'
    cases hother'
  have hrun : (machine plainEnv).Run (Legible plainEnv) [.ingest (openRow (some "MNQU6")) 100,
      .ingest (positionRow (some "MNQU6") "2") 100, .markObserved 105] s₃ :=
    ((hstart.next hfirst hopen).next hlegible hposition).next (a := Step.markObserved 105) trivial hobserved
  refine ⟨s₃, hrun, hlive, ?_, inventory_sound hrun⟩
  simp [Book.openPositions, Dict.keys, Dict.get?, hentries]

end RithmicNt.Adapter.Inventory
