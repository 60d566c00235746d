import RithmicNt.Adapter.Rows
import RithmicNt.Lib.Results

/-! The working-orders drain: one interpretation of a row, the rows of a drain, and the freshest row
of each basket. -/

namespace RithmicNt.Adapter

open RithmicNt.Lib RithmicNt.Exec

/-- What a call of the engine, or of its types, raises: an error that the builders catch
(`TypeError`, `ValueError`, `OverflowError`), or any other. -/
inductive Fault
  | value
  | other
  deriving DecidableEq, Repr

/-- An `OrderStatusReport`, less its ids. -/
structure StatusReport where
  accountId : String
  instrumentId : String
  venueOrderId : String
  side : OrderSide
  orderType : OrderType
  timeInForce : TimeInForce
  status : OrderStatus
  quantity : Nat
  filledQty : Nat
  tsLast : Int
  clientOrderId : Option String
  price : Option String
  triggerPrice : Option String
  hasTrigger : Bool
  avgPx : Option String
  deriving DecidableEq, Repr

/-- A `FillReport`, less its ids and commission. -/
structure FillReport where
  accountId : String
  instrumentId : String
  venueOrderId : String
  tradeId : String
  side : OrderSide
  lastQty : Nat
  lastPx : String
  tsEvent : Int
  deriving DecidableEq, Repr

/-- How the engine and its types answer during one call of the adapter. -/
structure Engine where
  upper : Char → List Char
  /-- The printed form of a float. -/
  reprFloat : WirePrice → String
  accepts : Accepts
  source : AccountSource
  seedPublishes : Bool
  clock : Nat
  quantityMax : Nat
  instrumentIdOk : String → Bool
  venueIdOk : String → Bool
  clientIdOk : String → Bool
  tradeIdOk : String → Bool
  wirePrice : WirePrice → Except Fault String
  instrumentPrice : String → WirePrice → Except Fault String
  /-- The constructors of the two reports. -/
  statusReport : StatusReport → Except Fault Unit
  fillReport : FillReport → Except Fault Unit
  /-- `_send_order_status_report` and `_send_fill_report` return. -/
  sendStatus : StatusReport → Bool
  sendFill : FillReport → Bool

def samplePrice : WirePrice := 0x40D4821000000000

/-- An engine that accepts what it is given, for rows whose prices are all `21000.25`. -/
def Engine.accepting (clock : Nat) : Engine where
  upper := asciiUpper
  reprFloat _ := "21000.25"
  accepts := ⟨fun _ => true, fun _ => true⟩
  source := {}
  seedPublishes := true
  clock := clock
  quantityMax := 18446744073
  instrumentIdOk _ := true
  venueIdOk _ := true
  clientIdOk _ := true
  tradeIdOk _ := true
  wirePrice _ := .ok "21000.25"
  instrumentPrice _ _ := .ok "21000.25"
  statusReport _ := .ok ()
  fillReport _ := .ok ()
  sendStatus _ := true
  sendFill _ := true

/-- A row of the drain and its interpretation. -/
structure DrainRow where
  fields : OrderFields
  tsEvent : Int
  report : StatusReport
  bindable : Bool

def check (ok : Bool) (fault : Fault) : Except Fault Unit :=
  if ok then .ok () else .error fault

namespace Engine

variable (e : Engine)

def quantityFromInt (n : Int) : Except Fault Nat :=
  if 0 ≤ n ∧ n ≤ e.quantityMax then .ok n.toNat else .error .value

/-- `_seed_account_if_needed` with the account of a row; nothing without one. -/
def seed (a : Account) (accountId : Option String) : Account × Outcome :=
  match Account.truthy accountId with
  | none => (a, .returned)
  | some raw => a.seedIfNeeded e.accepts e.source (some raw) e.seedPublishes

/-- The part of `order_status_report_from_fields` whose value errors make the row malformed. -/
def buildStatusReport (accountId basket : String) (f : OrderFields) (tsEvent : Int) :
    Except Fault (Option StatusReport) := do
  let quantity ← e.quantityFromInt (max 0 (f.quantity.getD 0))
  let filled ← e.quantityFromInt (max 0 (f.totalFillSize.getD 0))
  let price ← f.price.mapM e.wirePrice
  let trigger ← f.triggerPrice.mapM e.wirePrice
  if quantity = 0 then return none
  check (e.venueIdOk basket) .value
  let tag := Account.truthy f.userTag
  check (tag.all e.clientIdOk) .value
  let report : StatusReport :=
    { accountId := accountId
      instrumentId := f.instrumentId
      venueOrderId := basket
      side := f.orderSide.getD .buy
      orderType := f.orderType
      timeInForce := f.timeInForce
      status := f.orderStatus e.upper
      quantity := quantity
      filledQty := filled
      tsLast := if tsEvent = 0 then e.clock else tsEvent
      clientOrderId := tag
      price := price
      triggerPrice := trigger
      hasTrigger := f.hasTrigger
      avgPx := f.avgFillPrice.map e.reprFloat }
  e.statusReport report
  return some report

/-- `order_status_report_from_fields`: the account after the seeding, and the report, `none` for a
malformed row. -/
def orderStatusReportFromFields (a : Account) (f : OrderFields) (tsEvent : Int) :
    Account × Except Fault (Option StatusReport) :=
  match Account.truthy f.basketId with
  | none => (a, .ok none)
  | some basket =>
    if e.instrumentIdOk f.instrumentId = false then (a, .ok none)
    else
      let (a, outcome) := e.seed a f.accountId
      if outcome = .raised then (a, .error .other)
      else match a.id with
        | none => (a, .ok none)
        | some accountId =>
          match e.buildStatusReport accountId basket f tsEvent with
          | .error .value => (a, .ok none)
          | result => (a, result)

def drainRowFromFields (a : Account) (f : OrderFields) (tsEvent : Int) :
    Account × Except Fault (Option DrainRow) :=
  let (a, result) := e.orderStatusReportFromFields a f tsEvent
  (a, result.map fun report => report.map fun report =>
    ⟨f, tsEvent, report, f.isTrustworthy e.upper⟩)

/-- One row of `iter_drain_rows`: `none` for a row that it skips. -/
def interpretRow (a : Account) (raw : OrderNotification) :
    Account × Except Fault (Option DrainRow) :=
  match orderNotificationToFields e.upper raw with
  | none => (a, .ok none)
  | some f =>
    match Account.truthy f.basketId with
    | none => (a, .ok none)
    | some _ => e.drainRowFromFields a f (f.tsEvent.getD 0)

/-- `iter_drain_rows`, with the rows that it skips. -/
def iterDrainRows (a : Account) : List OrderNotification →
    Account × Except Fault (List (Option DrainRow))
  | [] => (a, .ok [])
  | raw :: rest =>
    match e.interpretRow a raw with
    | (a, .error fault) => (a, .error fault)
    | (a, .ok row) =>
      let (a, rows) := iterDrainRows a rest
      (a, rows.map fun rows => row :: rows)

def matchesInstrument (f : OrderFields) (instrumentId venueOrderId : Option String) : Bool :=
  match venueOrderId, instrumentId with
  | some want, _ => Account.truthy f.basketId = some want
  | none, none => true
  | none, some want =>
    if f.instrumentId = want then true
    else match splitInstrumentId e.upper want venue, splitInstrumentId e.upper f.instrumentId venue with
      | .ok (wantSym, wantExch), .ok (evSym, evExch) =>
        wantSym = evSym ∧ (wantExch = none ∨ evExch = none ∨ wantExch = evExch)
      | _, _ => false

end Engine

namespace DrainRow

def basket (row : DrainRow) : String := row.fields.basketId.getD ""

def key (row : DrainRow) : String × Int := (row.basket, row.tsEvent)

def latest (candidates : List DrainRow) : Dict String DrainRow :=
  (freshestPerKey (candidates.map key)).foldl
    (fun d i => match candidates[i]? with
      | some row => d.set row.basket row
      | none => d) .empty

end DrainRow

/-- `latest_drain_rows`: the freshest usable row per basket, of one instrument or of all. -/
def Engine.latestDrainRows (e : Engine) (a : Account) (events : List OrderNotification)
    (instrumentId : Option String) : Account × Except Fault (Dict String DrainRow) :=
  let (a, rows) := e.iterDrainRows a events
  (a, rows.map fun rows => DrainRow.latest
    ((rows.filterMap id).filter fun row => e.matchesInstrument row.fields instrumentId none))

/-! ### The freshest row of a basket -/

namespace DrainRow

/-- The freshest row of a basket: no row of the basket is later, and none that is as late follows. -/
def Freshest (rows : List DrainRow) (basket : String) (row : DrainRow) : Prop :=
  ∃ before after, rows = before ++ row :: after ∧ row.basket = basket ∧
    (∀ x ∈ before, x.basket = basket → x.tsEvent ≤ row.tsEvent) ∧
    ∀ x ∈ after, x.basket = basket → x.tsEvent < row.tsEvent

theorem freshest_of_index {rows : List DrainRow} {basket : String} {i : Nat} {row : DrainRow}
    (h : Exec.Freshest (rows.map key) basket i) (hrow : rows[i]? = some row) :
    Freshest rows basket row := by
  obtain ⟨ts, hi, hmax⟩ := h
  have hkey : row.basket = basket ∧ row.tsEvent = ts := by
    simpa [List.getElem?_map, hrow, key] using hi
  obtain ⟨hlt, hget⟩ := List.getElem?_eq_some_iff.mp hrow
  refine ⟨rows.take i, rows.drop (i + 1), ?_, hkey.1, ?_, ?_⟩
  · rw [← hget, List.getElem_cons_drop, List.take_append_drop]
  · intro x hx hbasket
    obtain ⟨j, hj⟩ := List.mem_iff_getElem?.mp hx
    rw [List.getElem?_take] at hj
    split at hj
    · have := hmax j x.tsEvent (by simp [hj, key, hbasket])
      omega
    · cases hj
  · intro x hx hbasket
    obtain ⟨j, hj⟩ := List.mem_iff_getElem?.mp hx
    rw [List.getElem?_drop] at hj
    have := hmax (i + 1 + j) x.tsEvent (by simp [hj, key, hbasket])
    omega

theorem index_of_freshest {rows : List DrainRow} {basket : String} {row : DrainRow}
    (h : Freshest rows basket row) :
    ∃ i, rows[i]? = some row ∧ Exec.Freshest (rows.map key) basket i := by
  obtain ⟨before, after, rfl, hbasket, hbefore, hafter⟩ := h
  refine ⟨before.length, by simp, row.tsEvent, by simp [key, hbasket], ?_⟩
  intro j ts hj
  obtain ⟨x, hx, hkey⟩ : ∃ x, (before ++ row :: after)[j]? = some x ∧ x.key = (basket, ts) := by
    rw [List.getElem?_map] at hj
    exact Option.map_eq_some_iff.mp hj
  obtain ⟨hxbasket, rfl⟩ := Prod.mk.inj hkey
  rcases Nat.lt_trichotomy j before.length with hlt | heq | hgt
  · rw [List.getElem?_append_left hlt] at hx
    have := hbefore x (List.mem_of_getElem? hx) hxbasket
    omega
  · subst heq
    obtain rfl : row = x := by simpa using hx
    omega
  · rw [List.getElem?_append_right (by omega), List.getElem?_cons] at hx
    split at hx
    · omega
    · exact .inl (hafter x (List.mem_of_getElem? hx) hxbasket)

theorem get?_foldl_set (rows : List DrainRow) (indexes : List Nat) (d : Dict String DrainRow)
    {basket : String} {i : Nat}
    (honly : ∀ j ∈ indexes, ∀ x, rows[j]? = some x → x.basket = basket → j = i) :
    (indexes.foldl (fun d i => match rows[i]? with
      | some row => d.set row.basket row
      | none => d) d).get? basket =
      if i ∈ indexes ∧ (rows[i]?.map DrainRow.basket) = some basket then rows[i]?
      else d.get? basket := by
  induction indexes generalizing d with
  | nil => simp
  | cons j indexes ih =>
    rw [List.foldl_cons, ih _ fun k hk => honly k (List.mem_cons_of_mem _ hk)]
    by_cases hj : rows[j]?.map DrainRow.basket = some basket
    · obtain ⟨x, hx, hbasket⟩ := Option.map_eq_some_iff.mp hj
      obtain rfl := honly j List.mem_cons_self x hx hbasket
      simp [hx, hbasket, Dict.get?_set]
    · have hkeep : (match rows[j]? with
          | some row => d.set row.basket row
          | none => d).get? basket = d.get? basket := by
        cases hrow : rows[j]? with
        | none => rfl
        | some x =>
          have hne : basket ≠ x.basket := fun h => hj (by simp [hrow, h])
          simp [Dict.get?_set, hne]
      rw [hkeep]
      by_cases hij : i = j
      · subst hij
        simp [hj]
      · simp [hij]

/-- `latest` holds, for each basket, its freshest row. -/
theorem get?_latest {rows : List DrainRow} {basket : String} {row : DrainRow} :
    (latest rows).get? basket = some row ↔ Freshest rows basket row := by
  have hwin : ∀ j ∈ freshestPerKey (rows.map key), ∀ x, rows[j]? = some x → x.basket = basket →
      Exec.Freshest (rows.map key) basket j := by
    intro j hj x hx hbasket
    obtain ⟨k, hk⟩ := mem_freshestPerKey_iff.mp hj
    obtain ⟨ts, hget, -⟩ := id hk
    have : x.key = (k, ts) := by simpa [List.getElem?_map, hx] using hget
    obtain ⟨rfl, -⟩ := Prod.mk.inj this
    exact hbasket ▸ hk
  constructor
  · intro h
    by_cases hex : ∃ i, Exec.Freshest (rows.map key) basket i
    · obtain ⟨i, hfresh⟩ := hex
      unfold latest at h
      rw [get?_foldl_set rows _ _ fun j hj x hx hb => (hwin j hj x hx hb).unique hfresh] at h
      split at h
      · exact freshest_of_index hfresh h
      · simp at h
    · unfold latest at h
      rw [get?_foldl_set rows _ _ (i := rows.length)
        fun j hj x hx hb => absurd ⟨j, hwin j hj x hx hb⟩ hex] at h
      simp at h
  · intro h
    obtain ⟨i, hi, hfresh⟩ := index_of_freshest h
    unfold latest
    rw [get?_foldl_set rows _ _ fun j hj x hx hb => (hwin j hj x hx hb).unique hfresh]
    have hmem := mem_freshestPerKey_iff.mpr ⟨basket, hfresh⟩
    obtain ⟨-, -, -, hbasket, -⟩ := h
    rw [if_pos ⟨hmem, by simp [hi, hbasket]⟩, hi]

theorem Freshest.mem {rows : List DrainRow} {basket : String} {row : DrainRow}
    (h : Freshest rows basket row) : row ∈ rows := by
  obtain ⟨before, after, rfl, -⟩ := h
  simp

theorem Freshest.unique {rows : List DrainRow} {basket : String} {row row' : DrainRow}
    (h : Freshest rows basket row) (h' : Freshest rows basket row') : row = row' :=
  Option.some.inj ((get?_latest.mpr h).symm.trans (get?_latest.mpr h'))

end DrainRow

/-! ### What an interpreted row keeps of its event -/

namespace Engine

variable {e : Engine} {a : Account}

theorem fields_of_convert {upper : Char → List Char} {d : OrderNotification} {f : OrderFields}
    (h : orderNotificationToFields upper d = some f) :
    Account.truthy d.symbol = some f.symbol ∧ f.basketId = d.basketId := by
  unfold orderNotificationToFields at h
  simp only [Option.bind_eq_bind, Option.bind_eq_some_iff] at h
  obtain ⟨-, -, symbol, hsymbol, id, -, hf⟩ := h
  obtain rfl := Option.some.inj hf
  exact ⟨hsymbol, rfl⟩

theorem check_eq_ok {ok : Bool} {fault : Fault} {u : Unit} :
    check ok fault = .ok u ↔ ok = true := by
  unfold check
  split <;> simp_all

/-- What a report that was built says about its row. -/
structure Reports (e : Engine) (f : OrderFields) (basket : String) (report : StatusReport) : Prop where
  venueId : e.venueIdOk basket = true
  clientId : (Account.truthy f.userTag).all e.clientIdOk = true
  status : report.status = f.orderStatus e.upper
  clientOrderId : report.clientOrderId = Account.truthy f.userTag

theorem reports_of_build {accountId basket : String} {f : OrderFields} {ts : Int}
    {report : StatusReport} (h : e.buildStatusReport accountId basket f ts = .ok (some report)) :
    e.Reports f basket report := by
  unfold buildStatusReport at h
  simp only [bind_eq_ok] at h
  obtain ⟨quantity, -, filled, -, price, -, trigger, -, h⟩ := h
  split at h
  · cases h
  · simp only [bind_eq_ok] at h
    obtain ⟨_, hvenue, _, hclient, _, -, h⟩ := h
    obtain rfl := Option.some.inj (Except.ok.inj h)
    exact ⟨check_eq_ok.mp hvenue, check_eq_ok.mp hclient, rfl, rfl⟩

structure Interprets (e : Engine) (raw : OrderNotification) (row : DrainRow) : Prop where
  fields : orderNotificationToFields e.upper raw = some row.fields
  basket : Account.truthy raw.basketId = some row.basket
  tsEvent : row.tsEvent = row.fields.fillIdentityTs
  report : e.Reports row.fields row.basket row.report

theorem reports_of_fields {a' : Account} {f : OrderFields} {ts : Int} {report : StatusReport}
    (h : e.orderStatusReportFromFields a f ts = (a', .ok (some report))) :
    e.Reports f (f.basketId.getD "") report := by
  unfold orderStatusReportFromFields at h
  split at h
  · cases h
  · next basket hbasket =>
    have hname : f.basketId.getD "" = basket := by
      simp [(Account.truthy_eq_some_iff.mp hbasket).1]
    split at h
    · cases h
    · dsimp only at h
      split at h
      · cases h
      · split at h
        · cases h
        · split at h
          · cases h
          · exact hname ▸ reports_of_build (Prod.mk.inj h).2

theorem interpretRow_some {a' : Account} {raw : OrderNotification} {row : DrainRow}
    (h : e.interpretRow a raw = (a', .ok (some row))) : e.Interprets raw row := by
  unfold interpretRow at h
  split at h
  · cases h
  · next f hf =>
    split at h
    · cases h
    · next basket hbasket =>
      unfold drainRowFromFields at h
      obtain ⟨a₁, hmap⟩ := Prod.mk.inj h
      obtain ⟨report?, hreport, hsome⟩ := map_eq_ok.mp hmap
      obtain ⟨report, rfl, rfl⟩ := Option.map_eq_some_iff.mp hsome
      have hbasket' : basket = f.basketId.getD "" := by
        simp [(Account.truthy_eq_some_iff.mp hbasket).1]
      refine ⟨hf, ?_, rfl, reports_of_fields (Prod.ext rfl hreport)⟩
      rw [← (fields_of_convert hf).2, hbasket, hbasket']
      rfl

/-- Each row of the drain interprets the event at its place. -/
theorem iterDrainRows_ok {events : List OrderNotification} {a' : Account}
    {rows : List (Option DrainRow)} (h : e.iterDrainRows a events = (a', .ok rows)) :
    List.Forall₂ (fun raw row => ∀ r, row = some r → e.Interprets raw r) events rows := by
  induction events generalizing a a' rows with
  | nil =>
    obtain rfl := Except.ok.inj (Prod.mk.inj h).2
    exact .nil
  | cons raw events ih =>
    unfold iterDrainRows at h
    split at h
    · cases h
    · next a₁ row hrow =>
      obtain ⟨rest, hrest, rfl⟩ := map_eq_ok.mp (Prod.mk.inj h).2
      refine .cons ?_ (ih (Prod.ext rfl hrest))
      rintro r rfl
      exact interpretRow_some hrow

end Engine

def drainRows (e : Engine) (a : Account) (events : List OrderNotification) : List DrainRow :=
  match (e.iterDrainRows a events).2 with
  | .ok rows => rows.filterMap id
  | .error _ => []

theorem exists_of_mem_drainRows {e : Engine} {a : Account} {events : List OrderNotification}
    {row : DrainRow} (h : row ∈ drainRows e a events) : ∃ raw ∈ events, e.Interprets raw row := by
  unfold drainRows at h
  split at h
  · next rows hrows =>
    have hinterp := Engine.iterDrainRows_ok (Prod.ext rfl hrows)
    clear hrows
    induction hinterp with
    | nil => simp at h
    | @cons raw row? events rows hrow _ ih =>
      obtain ⟨row', hmem, rfl⟩ := List.mem_filterMap.mp h
      rcases List.mem_cons.mp hmem with rfl | htail
      · exact ⟨raw, List.mem_cons_self, hrow row rfl⟩
      · obtain ⟨raw', hraw', hi⟩ := ih (List.mem_filterMap.mpr ⟨_, htail, rfl⟩)
        exact ⟨raw', List.mem_cons_of_mem _ hraw', hi⟩
  · cases h

end RithmicNt.Adapter
