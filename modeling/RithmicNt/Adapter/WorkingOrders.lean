import Mathlib.Data.Set.Card
import RithmicNt.Exec.Exposure
import RithmicNt.Adapter.Drain

/-! The open orders of a product root in a drain.  An exposure snapshot counts them; `none` is an
unknown count, and a count of zero is read as proof that nothing works at the venue. -/

namespace RithmicNt.Adapter

open RithmicNt.Lib RithmicNt.Exec

/-- The symbol of an event as the count reads it. -/
def OrderNotification.symbolText (raw : OrderNotification) : String := raw.symbol.getD ""

namespace Engine

variable (e : Engine)

/-- The usable rows of a drain that belong to `root`. -/
def usableRows (rows : List (Option DrainRow)) (root : String) : List DrainRow :=
  (rows.filterMap id).filter fun row => matchesRoot e.upper row.fields.symbol root

/-- The baskets of `baskets` whose row in `latest` is not terminal; a basket that is not in `latest`
raises. -/
def countOpen (latest : Dict String DrainRow) : List String → Except Fault Nat
  | [] => .ok 0
  | basket :: rest =>
    match latest.get? basket with
    | none => .error .other
    | some row => (countOpen latest rest).map fun n =>
        if row.report.status.isTerminal then n else n + 1

/-- `_working_orders_for_root`: the drain is read twice, once for the rows of the root and once for
the freshest row of every basket. -/
def workingOrdersForRoot (a : Account) (events : List OrderNotification) (root : String) :
    Account × Except Fault (Option Nat) :=
  let rootRows := events.countP fun raw => matchesRoot e.upper raw.symbolText root
  match e.iterDrainRows a events with
  | (a, .error fault) => (a, .error fault)
  | (a, .ok rows) =>
    let usable := e.usableRows rows root
    if usable.length ≠ rootRows then (a, .ok none)
    else match e.latestDrainRows a events none with
      | (a, .error fault) => (a, .error fault)
      | (a, .ok latest) =>
        (a, (countOpen latest (usable.map DrainRow.basket).dedup).map some)

end Engine

/-! ### What the count is for -/

section

variable (e : Engine) (a : Account) (events : List OrderNotification) (root : String)

/-- The rows behind the freshest row per basket: those of the second reading of the drain. -/
def secondRows : List DrainRow := drainRows e (e.iterDrainRows a events).1 events

/-- An event that may be about an order of the root: its symbol matches, or it carries none. -/
def MayBelong (raw : OrderNotification) : Prop :=
  matchesRoot e.upper raw.symbolText root = true ∨ trim raw.symbolText = ""

/-- Every row that may belong to the root was interpreted. -/
def AllInterpreted : Prop :=
  ∃ a' rows, e.iterDrainRows a events = (a', .ok rows) ∧
    List.Forall₂ (fun raw row => MayBelong e root raw → row.isSome = true) events rows

/-- A basket of the root: one that an event of the root carries. -/
def RootBasket (basket : String) : Prop :=
  ∃ raw ∈ events, matchesRoot e.upper raw.symbolText root = true ∧
    Account.truthy raw.basketId = some basket

/-- The baskets of the root whose freshest row is not finished. -/
def workingBaskets : Set String :=
  {basket | RootBasket e events root basket ∧
    ∃ row, DrainRow.Freshest (secondRows e a events) basket row ∧ row.fields.isGone e.upper = false}

end

/-- A row whose status is `FILLED` although its fill leaves something unfilled, or may do so. -/
def OrderFields.PartialFill (f : OrderFields) : Prop :=
  (f.kind = some .filled ∨ (0 < f.quantity.getD 0 ∧ f.quantity.getD 0 ≤ f.totalFillSize.getD 0)) ∧
    match f.totalUnfilledSize with
    | some unfilled => 0 < unfilled
    | none => f.quantity.getD 0 ≤ 0 ∨ f.totalFillSize = none ∨
        f.totalFillSize.getD 0 < f.quantity.getD 0

theorem OrderFields.orderStatus_eq_filled_iff {upper : Char → List Char} {f : OrderFields} :
    f.orderStatus upper = .filled ↔ f.kind = some .filled ∨
      (0 < f.quantity.getD 0 ∧ f.quantity.getD 0 ≤ f.totalFillSize.getD 0) := by
  unfold orderStatus
  dsimp only
  constructor
  · intro h
    by_contra hnot
    rw [if_neg hnot] at h
    revert h
    repeat' split
    all_goals simp
  · intro h
    rw [if_pos h]

theorem OrderFields.isGone_eq_false_iff {upper : Char → List Char} {f : OrderFields} :
    f.isGone upper = false ↔ (f.orderStatus upper).isTerminal = false ∨ f.PartialFill := by
  have hpart : f.PartialFill → f.orderStatus upper = .filled :=
    fun h => orderStatus_eq_filled_iff.mpr h.1
  unfold isGone
  dsimp only
  by_cases hterminal : (f.orderStatus upper).isTerminal = false
  · simp [hterminal, orderIsGone]
  · by_cases hfilled : f.orderStatus upper = .filled
    · have hleft := orderStatus_eq_filled_iff.mp hfilled
      simp only [hfilled, PartialFill, hleft, true_and, orderIsGone, OrderStatus.isTerminal,
        Bool.true_eq_false, if_false, if_true, false_or]
      cases f.totalUnfilledSize with
      | some unfilled => simp
      | none =>
        cases f.quantity with
        | none => simp
        | some q =>
          cases f.totalFillSize with
          | none => simp
          | some filled =>
            simp only [Option.getD_some, reduceCtorEq, false_or, Bool.and_eq_false_iff,
              decide_eq_false_iff_not]
            omega
    · have hnot : ¬ f.PartialFill := fun h => hfilled (hpart h)
      simp [hterminal, hfilled, hnot, orderIsGone]

/-! ### The rows of the root -/

theorem Engine.Interprets.symbol {e : Engine} {raw : OrderNotification} {row : DrainRow}
    (h : e.Interprets raw row) : raw.symbolText = row.fields.symbol := by
  obtain ⟨hsymbol, -⟩ := Account.truthy_eq_some_iff.mp (Engine.fields_of_convert h.fields).1
  simp [OrderNotification.symbolText, hsymbol]

theorem Engine.not_interprets_of_blank {e : Engine} {raw : OrderNotification} {row : DrainRow}
    (hblank : trim raw.symbolText = "") : ¬ e.Interprets raw row := by
  intro h
  rw [h.symbol] at hblank
  have hfields := h.fields
  unfold orderNotificationToFields at hfields
  simp only [Option.bind_eq_bind, Option.bind_eq_some_iff] at hfields
  obtain ⟨-, -, symbol, -, id, hid, hf⟩ := hfields
  rw [← Option.some.inj hf] at hblank
  simp [instrumentId, requireSafe, hblank, isSafe, bind, Except.bind, Except.toOption] at hid

section

variable {e : Engine} {root : String} {events : List OrderNotification}
  {rows : List (Option DrainRow)}

theorem length_usableRows
    (h : List.Forall₂ (fun raw row => ∀ r, row = some r → e.Interprets raw r) events rows) :
    (e.usableRows rows root).length ≤
        (events.countP fun raw => matchesRoot e.upper raw.symbolText root) ∧
      ((e.usableRows rows root).length =
          (events.countP fun raw => matchesRoot e.upper raw.symbolText root) ↔
        List.Forall₂ (fun raw row => matchesRoot e.upper raw.symbolText root = true →
          row.isSome = true) events rows) := by
  unfold Engine.usableRows
  induction h with
  | nil => simp
  | @cons raw row events rows hrow _ ih =>
    obtain ⟨hle, hiff⟩ := ih
    rw [List.countP_cons]
    simp only [List.forall₂_cons]
    cases row with
    | none =>
      rw [List.filterMap_cons_none rfl, Option.isSome_none]
      by_cases hmatch : matchesRoot e.upper raw.symbolText root = true
      · simp only [hmatch, if_true, Bool.false_eq_true, imp_false, not_true_eq_false, false_and,
          iff_false]
        omega
      · simpa [hmatch] using ⟨hle, hiff⟩
    | some row =>
      have hkeep : (some row :: rows).filterMap id = row :: rows.filterMap id := rfl
      rw [hkeep, (hrow row rfl).symbol]
      by_cases hmatch : matchesRoot e.upper row.fields.symbol root = true
      · simpa [hmatch] using ⟨hle, hiff⟩
      · simpa [hmatch] using ⟨hle, hiff⟩

theorem mem_baskets_iff
    (h : List.Forall₂ (fun raw row => ∀ r, row = some r → e.Interprets raw r) events rows)
    (hall : List.Forall₂ (fun raw row => matchesRoot e.upper raw.symbolText root = true →
      row.isSome = true) events rows) {basket : String} :
    basket ∈ (e.usableRows rows root).map DrainRow.basket ↔ RootBasket e events root basket := by
  unfold RootBasket
  induction h with
  | nil => simp [Engine.usableRows]
  | @cons raw row events rows hrow _ ih =>
    obtain ⟨hhead, htail⟩ := List.forall₂_cons.mp hall
    rw [List.exists_mem_cons_iff, ← ih htail]
    cases row with
    | none =>
      have hskip : e.usableRows (none :: rows) root = e.usableRows rows root := rfl
      rw [hskip]
      constructor
      · exact .inr
      · rintro (⟨hmatch, -⟩ | h)
        · cases hhead hmatch
        · exact h
    | some row =>
      have hkeep : e.usableRows (some row :: rows) root =
          (if matchesRoot e.upper row.fields.symbol root then [row] else []) ++
            e.usableRows rows root := by
        unfold Engine.usableRows
        rw [show (some row :: rows).filterMap id = row :: rows.filterMap id from rfl,
          List.filter_cons]
        split <;> rfl
      have hi := hrow row rfl
      rw [hkeep, List.map_append, List.mem_append, hi.symbol, hi.basket]
      refine or_congr ?_ Iff.rfl
      split
      · next hmatch => simpa [hmatch] using eq_comm
      · next hmatch => simp [hmatch]

end

namespace Engine

def openIn (latest : Dict String DrainRow) (basket : String) : Bool :=
  (latest.get? basket).any fun row => !row.report.status.isTerminal

theorem countOpen_ok {latest : Dict String DrainRow} {baskets : List String} {n : Nat}
    (h : countOpen latest baskets = .ok n) :
    n = (baskets.filter (openIn latest)).length := by
  induction baskets generalizing n with
  | nil => exact (Except.ok.inj h).symm
  | cons basket rest ih =>
    unfold countOpen at h
    split at h
    · cases h
    · next row hrow =>
      obtain ⟨m, hm, rfl⟩ := map_eq_ok.mp h
      cases hstatus : row.report.status.isTerminal <;> simp [openIn, hrow, hstatus, ih hm]

theorem ncard_open {latest : Dict String DrainRow} {baskets : List String} (hnodup : baskets.Nodup) :
    {basket | basket ∈ baskets ∧ openIn latest basket = true}.ncard =
      (baskets.filter (openIn latest)).length := by
  rw [← List.toFinset_card_of_nodup (hnodup.filter _), ← Set.ncard_coe_finset]
  congr 1
  ext basket
  simp

theorem workingOrdersForRoot_some {e : Engine} {a : Account} {events : List OrderNotification}
    {root : String} {n : Nat} (h : (e.workingOrdersForRoot a events root).2 = .ok (some n)) :
    ∃ a' rows, e.iterDrainRows a events = (a', .ok rows) ∧
      (e.usableRows rows root).length =
        (events.countP fun raw => matchesRoot e.upper raw.symbolText root) ∧
      n = {basket | basket ∈ (e.usableRows rows root).map DrainRow.basket ∧
        openIn (DrainRow.latest (secondRows e a events)) basket = true}.ncard := by
  unfold workingOrdersForRoot at h
  dsimp only at h
  split at h
  · cases h
  · next a' rows hrows =>
    split at h
    · cases h
    · next hlength =>
      split at h
      · cases h
      · next a'' latest hlatest =>
        obtain ⟨m, hm, hn⟩ := map_eq_ok.mp h
        obtain rfl := Option.some.inj hn
        refine ⟨a', rows, hrows, by simpa using hlength, ?_⟩
        unfold latestDrainRows at hlatest
        obtain ⟨second, hsecond, rfl⟩ := map_eq_ok.mp (Prod.mk.inj hlatest).2
        have hrows2 : secondRows e a events = second.filterMap id := by
          unfold secondRows drainRows
          rw [hrows, hsecond]
        have hfilter : (second.filterMap id).filter
            (fun row => e.matchesInstrument row.fields none none) = second.filterMap id :=
          List.filter_eq_self.mpr fun _ _ => rfl
        rw [hfilter, ← hrows2] at hm
        rw [countOpen_ok hm, ← ncard_open (List.nodup_dedup _)]
        simp only [List.mem_dedup]

end Engine

/-! ### The count -/

section

variable {e : Engine} {a a' : Account} {events : List OrderNotification} {root : String} {n : Nat}

theorem allInterpreted_iff {rows : List (Option DrainRow)}
    (hrows : e.iterDrainRows a events = (a', .ok rows))
    (hroot : List.Forall₂ (fun raw row => matchesRoot e.upper raw.symbolText root = true →
      row.isSome = true) events rows) :
    AllInterpreted e a events root ↔ ∀ raw ∈ events, trim raw.symbolText ≠ "" := by
  have hinterp := Engine.iterDrainRows_ok hrows
  constructor
  · rintro ⟨a'', rows', hrows', hall⟩ raw hraw hblank
    obtain rfl : rows = rows' := Except.ok.inj (Prod.mk.inj (hrows.symm.trans hrows')).2
    have hpair : List.Forall₂ (fun raw row => trim raw.symbolText ≠ "" ∧ row = row) events rows := by
      refine List.Forall₂.mp ?_ hinterp hall
      intro raw row hrow hsome
      refine ⟨fun hblank => ?_, rfl⟩
      obtain ⟨r, hr⟩ := Option.isSome_iff_exists.mp (hsome (.inr hblank))
      exact Engine.not_interprets_of_blank hblank (hrow r hr)
    exact ((List.forall₂_and_left _ _).mp hpair).1 raw hraw hblank
  · intro hblank
    refine ⟨a', rows, hrows, ?_⟩
    refine ((List.forall₂_and_left _ _).mpr ⟨hblank, hroot⟩).imp ?_
    rintro raw row ⟨hsymbol, hrow⟩ (hmatch | hempty)
    · exact hrow hmatch
    · exact absurd hempty hsymbol

/-- The baskets that the code counts: those whose freshest row has no terminal status. -/
def openBaskets (e : Engine) (a : Account) (events : List OrderNotification) (root : String) :
    Set String :=
  {basket | RootBasket e events root basket ∧ ∃ row,
    DrainRow.Freshest (secondRows e a events) basket row ∧
      (row.fields.orderStatus e.upper).isTerminal = false}

theorem openIn_latest_iff {basket : String} :
    Engine.openIn (DrainRow.latest (secondRows e a events)) basket = true ↔
      ∃ row, DrainRow.Freshest (secondRows e a events) basket row ∧
        (row.fields.orderStatus e.upper).isTerminal = false := by
  unfold Engine.openIn
  rw [Option.any_eq_true]
  constructor
  · rintro ⟨row, hrow, hopen⟩
    have hfresh := DrainRow.get?_latest.mp hrow
    refine ⟨row, hfresh, ?_⟩
    obtain ⟨raw, -, hinterp⟩ := exists_of_mem_drainRows hfresh.mem
    rw [← hinterp.report.status]
    simpa using hopen
  · rintro ⟨row, hfresh, hopen⟩
    refine ⟨row, DrainRow.get?_latest.mpr hfresh, ?_⟩
    obtain ⟨raw, -, hinterp⟩ := exists_of_mem_drainRows hfresh.mem
    simpa [hinterp.report.status] using hopen

theorem openBaskets_subset : openBaskets e a events root ⊆ workingBaskets e a events root := by
  rintro basket ⟨hbasket, row, hfresh, hopen⟩
  exact ⟨hbasket, row, hfresh, OrderFields.isGone_eq_false_iff.mpr (.inl hopen)⟩

theorem workingBaskets_finite : (workingBaskets e a events root).Finite := by
  refine (List.finite_toSet (events.map fun raw => raw.basketId.getD "")).subset ?_
  rintro basket ⟨⟨raw, hraw, -, hbasket⟩, -⟩
  obtain ⟨hbasket, -⟩ := Account.truthy_eq_some_iff.mp hbasket
  exact List.mem_map.mpr ⟨raw, hraw, by simp [hbasket]⟩

/-- A count that `_working_orders_for_root` returns is the number of working baskets of the root, with
every row that may belong to it interpreted, exactly when no event lacks a symbol and no basket of
the root has a partial fill as its freshest row. -/
theorem workingOrdersForRoot_exact_iff
    (h : (e.workingOrdersForRoot a events root).2 = .ok (some n)) :
    (AllInterpreted e a events root ∧ n = (workingBaskets e a events root).ncard) ↔
      (∀ raw ∈ events, trim raw.symbolText ≠ "") ∧
        ∀ basket row, RootBasket e events root basket →
          DrainRow.Freshest (secondRows e a events) basket row → ¬ row.fields.PartialFill := by
  obtain ⟨a', rows, hrows, hlength, hn⟩ := Engine.workingOrdersForRoot_some h
  have hinterp := Engine.iterDrainRows_ok hrows
  have hroot := (length_usableRows hinterp).2.mp hlength
  have hbaskets : ∀ basket, basket ∈ (e.usableRows rows root).map DrainRow.basket ↔
      RootBasket e events root basket := fun _ => mem_baskets_iff hinterp hroot
  have hcount : n = (openBaskets e a events root).ncard := by
    rw [hn]
    congr 1
    ext basket
    exact and_congr (hbaskets basket) openIn_latest_iff
  rw [allInterpreted_iff hrows hroot]
  refine and_congr_right fun _ => ?_
  constructor
  · intro heq basket row hbasket hfresh hpart
    have hmem : basket ∈ workingBaskets e a events root :=
      ⟨hbasket, row, hfresh, OrderFields.isGone_eq_false_iff.mpr (.inr hpart)⟩
    have hsame : openBaskets e a events root = workingBaskets e a events root :=
      Set.eq_of_subset_of_ncard_le openBaskets_subset (by omega) workingBaskets_finite
    rw [← hsame] at hmem
    obtain ⟨-, row', hfresh', hopen⟩ := hmem
    obtain rfl := hfresh.unique hfresh'
    rw [OrderFields.orderStatus_eq_filled_iff.mpr hpart.1] at hopen
    cases hopen
  · intro hnone
    rw [hcount]
    congr 1
    refine openBaskets_subset.antisymm ?_
    rintro basket ⟨hbasket, row, hfresh, hgone⟩
    rcases OrderFields.isGone_eq_false_iff.mp hgone with hopen | hpart
    · exact ⟨hbasket, row, hfresh, hopen⟩
    · exact absurd hpart (hnone basket row hbasket hfresh)

def workingRow : OrderNotification :=
  { notifyTypeName := some "STATUS", status := some "open", basketId := some "B1"
    accountId := some "ACC", symbol := some "MNQZ6", exchange := some "CME", quantity := some 2
    totalFillSize := some 0, totalUnfilledSize := some 2, transactionType := some 1
    priceType := some 2, duration := some 1, tsEventNs := some 5 }

def partialFillRow : OrderNotification :=
  { workingRow with
    notifyTypeName := some "FILL", totalFillSize := some 1, totalUnfilledSize := some 1
    fillSize := some 1, fillPrice := some samplePrice }

/-- Two rows of a working order, an order of the root that is canceled, and a working one of another
root. -/
def mixedRows : List OrderNotification :=
  [workingRow, { workingRow with tsEventNs := some 6 },
    { workingRow with basketId := some "B2", notifyTypeName := some "CANCEL", status := some "canceled" },
    { workingRow with basketId := some "B3", symbol := some "ESZ6" }]

theorem workingOrdersForRoot_exact_iff_working :
    ((Engine.accepting 9).workingOrdersForRoot {} mixedRows "MNQ").2 = .ok (some 1) ∧
      AllInterpreted (Engine.accepting 9) {} mixedRows "MNQ" ∧
      1 = (workingBaskets (Engine.accepting 9) {} mixedRows "MNQ").ncard := by
  have hresult : ((Engine.accepting 9).workingOrdersForRoot {} mixedRows "MNQ").2 =
      .ok (some 1) := rfl
  refine ⟨hresult, (workingOrdersForRoot_exact_iff hresult).mpr ⟨?_, ?_⟩⟩
  · decide
  · rintro basket row - hfresh hpart
    have hunfilled : ∀ row ∈ secondRows (Engine.accepting 9) {} mixedRows,
        row.fields.orderStatus asciiUpper ≠ .filled := by decide
    exact hunfilled row hfresh.mem (OrderFields.orderStatus_eq_filled_iff.mpr hpart.1)

/-- A drain whose one order is half filled counts no open order. -/
theorem workingOrdersForRoot_partial_fill :
    ∃ (e : Engine) (a : Account) (events : List OrderNotification) (root : String) (n : Nat),
      (e.workingOrdersForRoot a events root).2 = .ok (some n) ∧
        ¬ (AllInterpreted e a events root ∧ n = (workingBaskets e a events root).ncard) := by
  refine ⟨.accepting 9, {}, [partialFillRow], "MNQ", 0, rfl, ?_⟩
  rintro ⟨-, hcount⟩
  obtain ⟨only, hrows, hbasket, hgone⟩ :
      ∃ only, secondRows (Engine.accepting 9) {} [partialFillRow] = [only] ∧
        only.basket = "B1" ∧ only.fields.isGone asciiUpper = false := ⟨_, rfl, rfl, rfl⟩
  have hmem : "B1" ∈ workingBaskets (Engine.accepting 9) {} [partialFillRow] "MNQ" := by
    refine ⟨⟨partialFillRow, List.mem_singleton.mpr rfl, rfl, rfl⟩, only, ?_, hgone⟩
    exact ⟨[], [], hrows, hbasket, by simp, by simp⟩
  have hempty := (Set.ncard_eq_zero workingBaskets_finite).mp hcount.symm
  rw [hempty] at hmem
  exact hmem

end

end RithmicNt.Adapter
