import RithmicNt.Adapter.Cache

/-! The two consumers of a drain: the re-arm barrier, which publishes the rows and binds venue ids, and
bulk recon, which returns them.  Neither may hand the engine an open status for an order that is
closed locally. -/

namespace RithmicNt.Adapter

open RithmicNt.Lib RithmicNt.Exec

/-- What the cache becomes when a status report reaches the engine, and when a venue id is added to
it; the latter may raise. -/
structure Reactions where
  onStatus : Cache → StatusReport → Cache
  addVenueOrderId : Cache → String → String → Except Fault Cache

/-- A call of `apply_drain_rows`, with the cache as it then is: a report that the engine takes or
refuses, or a venue id that is bound. -/
inductive Deed
  | published (met : Cache) (row : DrainRow)
  | refused (met : Cache) (row : DrainRow)
  | bound (met : Cache) (clientOrderId : String) (row : DrainRow)

/-- The report that the engine took, with the cache that it met. -/
def Deed.taken : Deed → Option (Cache × StatusReport)
  | .published met row => some (met, row.report)
  | .refused .. | .bound .. => none

/-- What a part of the re-arm drain does: its calls, and the cache it leaves.  A fault aborts the
barrier. -/
structure Effect where
  deeds : List Deed
  next : Except Fault Cache

namespace Effect

def none (cache : Cache) : Effect := ⟨[], .ok cache⟩

/-- One part, and in the cache it leaves the next, unless it raised. -/
def andThen (first : Effect) (rest : Cache → Effect) : Effect :=
  match first.next with
  | .error fault => ⟨first.deeds, .error fault⟩
  | .ok cache => ⟨first.deeds ++ (rest cache).deeds, (rest cache).next⟩

end Effect

namespace Engine

variable (e : Engine) (react : Reactions)

/-- `_publish_order_status_report`, and the raise where it fails. -/
def publish (cache : Cache) (row : DrainRow) : Effect :=
  if e.sendStatus row.report then
    ⟨[.published cache row], .ok (react.onStatus cache row.report)⟩
  else ⟨[.refused cache row], .error .other⟩

/-- `_bind_venue_id` with the basket of a row. -/
def bindVenueId (cache : Cache) (clientOrderId : String) (row : DrainRow) : Effect :=
  ⟨[.bound cache clientOrderId row], react.addVenueOrderId cache clientOrderId row.basket⟩

def applyRow (cache : Cache) (row : DrainRow) : Effect :=
  match e.drainClientOrderId cache row.fields with
  | .error fault => ⟨[], .error fault⟩
  | .ok clientOrderId =>
    if (rowStaleReason cache clientOrderId row true).isSome then .none cache
    else (e.publish react cache row).andThen fun cache =>
      match clientOrderId with
      | none => .none cache
      | some id =>
        if row.bindable = true ∧ (cache.order id).isSome ∧ (cache.venueOrderId id).isNone then
          bindVenueId react cache id row
        else .none cache

/-- The loop of `apply_drain_rows`. -/
def applyRows (cache : Cache) : List DrainRow → Effect
  | [] => .none cache
  | row :: rest => (e.applyRow react cache row).andThen fun cache => applyRows cache rest

/-- `apply_drain_rows`, with the calls it makes. -/
def drainEffect (a : Account) (cache : Cache) (events : List OrderNotification) :
    Account × Effect :=
  match e.latestDrainRows a events none with
  | (a, .error fault) => (a, ⟨[], .error fault⟩)
  | (a, .ok latest) => (a, e.applyRows react cache (latest.entries.map (·.2)))

/-- Of `apply_drain_rows` the reports that were published, each with the cache it met, and the cache
at the end. -/
def applyDrainRows (a : Account) (cache : Cache) (events : List OrderNotification) :
    Account × List (Cache × StatusReport) × Except Fault Cache :=
  let (a, effect) := e.drainEffect react a cache events
  (a, effect.deeds.filterMap Deed.taken, effect.next)

/-- The reports of the rows that bulk recon forwards. -/
def forwardRows (cache : Cache) : List DrainRow → Except Fault (List StatusReport)
  | [] => .ok []
  | row :: rest => do
    let clientOrderId ← e.drainClientOrderId cache row.fields
    let later ← forwardRows cache rest
    return if (rowStaleReason cache clientOrderId row false).isSome then later
      else row.report :: later

def orderStatusReportsFromEvents (a : Account) (cache : Cache) (events : List OrderNotification)
    (instrumentId : Option String) (openOnly : Bool) :
    Account × Except Fault (List StatusReport) :=
  if events = [] then (a, if openOnly then .ok [] else .error .other)
  else match e.latestDrainRows a events instrumentId with
    | (a, .error fault) => (a, .error fault)
    | (a, .ok latest) =>
      (a, (e.forwardRows cache (latest.entries.map (·.2))).map fun reports =>
        if openOnly then reports.filter fun report => !report.status.isTerminal else reports)

end Engine

/-! ### Re-opening a closed order -/

/-- The report says that an order which the cache holds as closed is open. -/
def Reopens (cache : Cache) (report : StatusReport) : Prop :=
  report.status.isTerminal = false ∧ ∃ id, report.clientOrderId = some id ∧ cache.Closed id

/-- The basket of the row is mapped to an order that makes the row stale: a closed one, or, at the
barrier, one whose last event is later than the row. -/
def Guarded (cache : Cache) (row : DrainRow) (live : Bool) : Prop :=
  ∃ id order, cache.clientOrderId row.basket = some id ∧ cache.order id = some order ∧
    (order.status.isClosed = true ∨ live = true ∧ row.tsEvent ≠ 0 ∧ row.tsEvent < order.tsLast)

/-- An open row that carries the tag of a closed order, and whose basket does not guard it. -/
def Bypasses (e : Engine) (cache : Cache) (row : DrainRow) (live : Bool) : Prop :=
  (row.fields.orderStatus e.upper).isTerminal = false ∧
    (∃ tag, Account.truthy row.fields.userTag = some tag ∧ cache.Closed tag) ∧
    ¬ Guarded cache row live

/-- The loop over `rows` from `cache` comes to `row` when the cache is `met`. -/
inductive Reaches (e : Engine) (react : Reactions) :
    Cache → List DrainRow → Cache → DrainRow → Prop
  | here {cache : Cache} {row : DrainRow} {rest : List DrainRow} :
      Reaches e react cache (row :: rest) cache row
  | later {cache next met : Cache} {row row' : DrainRow} {rest : List DrainRow} :
      (e.applyRow react cache row).next = .ok next → Reaches e react next rest met row' →
      Reaches e react cache (row :: rest) met row'

/-! ### The steps of the loop -/

theorem Effect.deeds_andThen (first : Effect) (f : Cache → Effect) : (first.andThen f).deeds =
    first.deeds ++ match first.next with
      | .error _ => []
      | .ok cache => (f cache).deeds := by
  unfold andThen
  split
  · simp
  · rfl

/-- The ways one row can go. -/
inductive RowRun (e : Engine) (react : Reactions) (cache : Cache) (row : DrainRow) : Effect → Prop
  | unresolved {fault : Fault} : e.drainClientOrderId cache row.fields = .error fault →
      RowRun e react cache row ⟨[], .error fault⟩
  | stale {id : Option String} : e.drainClientOrderId cache row.fields = .ok id →
      (rowStaleReason cache id row true).isSome = true → RowRun e react cache row ⟨[], .ok cache⟩
  | refused {id : Option String} : e.drainClientOrderId cache row.fields = .ok id →
      (rowStaleReason cache id row true).isSome = false → e.sendStatus row.report = false →
      RowRun e react cache row ⟨[.refused cache row], .error .other⟩
  | published {id : Option String} : e.drainClientOrderId cache row.fields = .ok id →
      (rowStaleReason cache id row true).isSome = false → e.sendStatus row.report = true →
      RowRun e react cache row
        ⟨[.published cache row], .ok (react.onStatus cache row.report)⟩
  | bound {id : String} : e.drainClientOrderId cache row.fields = .ok (some id) →
      (rowStaleReason cache (some id) row true).isSome = false → e.sendStatus row.report = true →
      row.bindable = true → ((react.onStatus cache row.report).order id).isSome = true →
      (react.onStatus cache row.report).venueOrderId id = none →
      RowRun e react cache row
        ⟨[.published cache row, .bound (react.onStatus cache row.report) id row],
          react.addVenueOrderId (react.onStatus cache row.report) id row.basket⟩

theorem applyRow_cases (e : Engine) (react : Reactions) (cache : Cache) (row : DrainRow) :
    RowRun e react cache row (e.applyRow react cache row) := by
  unfold Engine.applyRow
  cases hid : e.drainClientOrderId cache row.fields with
  | error fault => exact .unresolved hid
  | ok id =>
    dsimp only
    by_cases hstale : (rowStaleReason cache id row true).isSome = true
    · rw [if_pos hstale]
      exact .stale hid hstale
    · rw [if_neg hstale]
      rw [Bool.not_eq_true] at hstale
      unfold Engine.publish
      by_cases hsend : e.sendStatus row.report = true
      · rw [if_pos hsend]
        cases id with
        | none => exact .published hid hstale hsend
        | some id =>
          unfold Effect.andThen
          dsimp only
          split
          · next hbind =>
            exact .bound hid hstale hsend hbind.1 hbind.2.1 (Option.isNone_iff_eq_none.mp hbind.2.2)
          · exact .published hid hstale hsend
      · rw [if_neg hsend]
        exact .refused hid hstale (by simpa using hsend)

/-! ### When the guard is bypassed -/

section

variable {e : Engine} {raw : OrderNotification} {row : DrainRow} {cache : Cache} {live : Bool}

theorem basketClientId_of_interprets (h : e.Interprets raw row) :
    e.basketClientId cache row.fields = .ok (cache.clientOrderId row.basket) := by
  have hbasket : Account.truthy row.fields.basketId = some row.basket := by
    rw [(Engine.fields_of_convert h.fields).2]
    exact h.basket
  simp [Engine.basketClientId, hbasket, check, h.report.venueId, bind, Except.bind, pure, Except.pure]

theorem drainClientOrderId_of_interprets (h : e.Interprets raw row) :
    ∃ id, e.drainClientOrderId cache row.fields = .ok id ∧
      ((∃ tag, Account.truthy row.fields.userTag = some tag ∧ cache.Closed tag) →
        id = cache.clientOrderId row.basket) := by
  have hbasket : e.basketClientId cache row.fields = .ok (cache.clientOrderId row.basket) :=
    basketClientId_of_interprets h
  cases hmapped : cache.clientOrderId row.basket with
  | some cached =>
    refine ⟨some cached, ?_, fun _ => rfl⟩
    simp [Engine.drainClientOrderId, hbasket, hmapped, bind, Except.bind, pure, Except.pure]
  | none =>
    have hdrain : e.drainClientOrderId cache row.fields = e.openTag cache row.fields := by
      simp [Engine.drainClientOrderId, Engine.resolveClientOrderId, hbasket, hmapped, bind,
        Except.bind]
    rw [hdrain]
    unfold Engine.openTag
    have hclient := h.report.clientId
    cases htag : Account.truthy row.fields.userTag with
    | none => exact ⟨none, rfl, fun _ => rfl⟩
    | some tag =>
      rw [htag, Option.all_some] at hclient
      simp only [check, hclient, if_true, bind, Except.bind, pure, Except.pure]
      cases horder : cache.order tag with
      | none => exact ⟨none, rfl, fun _ => rfl⟩
      | some order =>
        refine ⟨_, rfl, ?_⟩
        rintro ⟨tag', htag', order', horder', hclosed⟩
        obtain rfl := Option.some.inj htag'
        obtain rfl := Option.some.inj (horder.symm.trans horder')
        simp [hclosed]

theorem rowStaleReason_isSome_iff (hopen : row.report.status.isTerminal = false) :
    (rowStaleReason cache (cache.clientOrderId row.basket) row live).isSome = true ↔
      Guarded cache row live := by
  unfold rowStaleReason Guarded
  cases hmapped : cache.clientOrderId row.basket with
  | none => simp
  | some id =>
    cases horder : cache.order id with
    | none => simp [horder]
    | some order =>
      cases hclosed : order.status.isClosed with
      | true =>
        have hstale : (staleReason ⟨true, live, !row.report.status.isTerminal, row.tsEvent, 0⟩).isSome =
            true := staleReason_of_closed rfl (by simp [hopen])
        simp [horder, hclosed, hstale]
      | false =>
        simp only [Option.bind_some, horder, hclosed, staleReason, Bool.false_eq_true, if_false]
        by_cases hlate : live = true ∧ row.tsEvent ≠ 0 ∧ row.tsEvent < order.tsLast
        · obtain ⟨hlive, hts, hlt⟩ := hlate
          simp [hlive, hts, hlt, hclosed, horder]
        · have hfacts : ¬ (live = true ∧ row.tsEvent ≠ 0 ∧
              (if (!false && live && decide (row.tsEvent ≠ 0)) = true then order.tsLast else 0) >
                row.tsEvent) := by
            rintro ⟨hlive, hts, hlt⟩
            simp only [hlive, hts, Bool.not_false, Bool.and_self, ne_eq, not_false_eq_true,
              decide_true, if_true] at hlt
            exact hlate ⟨hlive, hts, hlt⟩
          rw [if_neg hfacts]
          simp [horder, hclosed, hlate]

/-- Of the reports that are not stale, those that re-open an order are the rows that bypass the
guard. -/
theorem reopens_iff (h : e.Interprets raw row) {id : Option String}
    (hid : e.drainClientOrderId cache row.fields = .ok id) :
    (rowStaleReason cache id row live).isSome = false ∧ Reopens cache row.report ↔
      Bypasses e cache row live := by
  obtain ⟨id', hid', hclosed⟩ := @drainClientOrderId_of_interprets e raw row cache h
  obtain rfl := Except.ok.inj (hid.symm.trans hid')
  unfold Reopens Bypasses
  rw [h.report.status, h.report.clientOrderId]
  constructor
  · rintro ⟨hfresh, hopen, htag⟩
    refine ⟨hopen, htag, ?_⟩
    rw [← rowStaleReason_isSome_iff (h.report.status ▸ hopen), ← hclosed htag, hfresh]
    simp
  · rintro ⟨hopen, htag, hguard⟩
    refine ⟨?_, hopen, htag⟩
    rw [← rowStaleReason_isSome_iff (h.report.status ▸ hopen), ← hclosed htag] at hguard
    simpa using hguard

theorem applyRow_reopens_iff {react : Reactions} (h : e.Interprets raw row) :
    (∃ p ∈ (e.applyRow react cache row).deeds.filterMap Deed.taken, Reopens p.1 p.2) ↔
      Bypasses e cache row true ∧ e.sendStatus row.report = true := by
  obtain ⟨id, hid, -⟩ := @drainClientOrderId_of_interprets e raw row cache h
  rw [← reopens_iff h hid]
  have hrun := applyRow_cases e react cache row
  cases hrow : e.applyRow react cache row with
  | mk deeds next =>
    rw [hrow] at hrun
    cases hrun with
    | unresolved hid' => cases hid.symm.trans hid'
    | stale hid' hstale =>
      obtain rfl := Except.ok.inj (hid.symm.trans hid')
      simp [hstale]
    | refused hid' hfresh hsend => simp [Deed.taken, hsend]
    | published hid' hfresh hsend =>
      obtain rfl := Except.ok.inj (hid.symm.trans hid')
      simp [Deed.taken, hfresh, hsend]
    | bound hid' hfresh hsend =>
      obtain rfl := Except.ok.inj (hid.symm.trans hid')
      simp [Deed.taken, hfresh, hsend]

end

/-! ### The two loops -/

section

variable {e : Engine}

def AllInterpret (e : Engine) (rows : List DrainRow) : Prop :=
  ∀ row ∈ rows, ∃ raw, e.Interprets raw row

theorem reaches_cons_iff {react : Reactions} {cache met : Cache} {row row' : DrainRow}
    {rest : List DrainRow} :
    Reaches e react cache (row :: rest) met row' ↔ (met = cache ∧ row' = row) ∨
      ∃ next, (e.applyRow react cache row).next = .ok next ∧ Reaches e react next rest met row' := by
  constructor
  · intro h
    cases h with
    | here => exact .inl ⟨rfl, rfl⟩
    | later hnext hrest => exact .inr ⟨_, hnext, hrest⟩
  · rintro (⟨rfl, rfl⟩ | ⟨next, hnext, hrest⟩)
    · exact .here
    · exact .later hnext hrest

theorem applyRows_reopens_iff {react : Reactions} {cache : Cache} {rows : List DrainRow}
    (h : AllInterpret e rows) :
    (∀ p ∈ (e.applyRows react cache rows).deeds.filterMap Deed.taken, ¬ Reopens p.1 p.2) ↔
      ∀ met row, Reaches e react cache rows met row → Bypasses e met row true →
        e.sendStatus row.report = false := by
  induction rows generalizing cache with
  | nil =>
    constructor
    · intro _ met row hreach
      cases hreach
    · intro _ p hp
      cases hp
  | cons row rest ih =>
    obtain ⟨raw, hi⟩ := h row List.mem_cons_self
    have hhead : (∀ p ∈ (e.applyRow react cache row).deeds.filterMap Deed.taken,
        ¬ Reopens p.1 p.2) ↔ (Bypasses e cache row true → e.sendStatus row.report = false) := by
      have hrow := not_congr (@applyRow_reopens_iff e raw row cache react hi)
      simp only [not_exists, not_and, Bool.not_eq_true] at hrow
      exact hrow
    have htail : AllInterpret e rest := fun x hx => h x (List.mem_cons_of_mem _ hx)
    simp only [reaches_cons_iff, Engine.applyRows, Effect.deeds_andThen, List.filterMap_append]
    rw [List.forall_mem_append, hhead]
    cases hnext : (e.applyRow react cache row).next with
    | error fault => simp
    | ok next =>
      dsimp only
      rw [ih htail]
      constructor
      · rintro ⟨hfirst, hrest⟩ met row' (⟨rfl, rfl⟩ | ⟨next', heq, hreach⟩) hbypass
        · exact hfirst hbypass
        · obtain rfl := Except.ok.inj heq
          exact hrest met row' hreach hbypass
      · intro hall
        exact ⟨hall cache row (.inl ⟨rfl, rfl⟩),
          fun met row' hreach => hall met row' (.inr ⟨next, rfl, hreach⟩)⟩

theorem forwardRows_reopens_iff {cache : Cache} {rows : List DrainRow} (h : AllInterpret e rows) :
    ∃ reports, e.forwardRows cache rows = .ok reports ∧
      ((∀ report ∈ reports, ¬ Reopens cache report) ↔
        ∀ row ∈ rows, ¬ Bypasses e cache row false) := by
  induction rows with
  | nil => exact ⟨[], rfl, by simp⟩
  | cons row rows ih =>
    obtain ⟨later, hlater, hiff⟩ := ih fun x hx => h x (List.mem_cons_of_mem _ hx)
    obtain ⟨raw, hi⟩ := h row List.mem_cons_self
    obtain ⟨id, hid, -⟩ := @drainClientOrderId_of_interprets e raw row cache hi
    refine ⟨if (rowStaleReason cache id row false).isSome then later else row.report :: later, ?_, ?_⟩
    · simp [Engine.forwardRows, hid, hlater, bind, Except.bind, pure, Except.pure]
    · rw [List.forall_mem_cons, ← hiff, ← reopens_iff hi hid]
      split
      · next hstale => simp [hstale]
      · next hfresh =>
        rw [List.forall_mem_cons]
        simp_all

end

/-! ### A drain and the closed orders of the cache -/

/-- The freshest row of each basket of a drain, in the order of the drain. -/
def freshRows (e : Engine) (a : Account) (events : List OrderNotification)
    (instrumentId : Option String) : List DrainRow :=
  match (e.latestDrainRows a events instrumentId).2 with
  | .ok latest => latest.entries.map (·.2)
  | .error _ => []

theorem freshRows_interpret {e : Engine} {a : Account} {events : List OrderNotification}
    {instrumentId : Option String} : AllInterpret e (freshRows e a events instrumentId) := by
  intro row hrow
  unfold freshRows Engine.latestDrainRows at hrow
  dsimp only at hrow
  split at hrow
  · next latest hlatest =>
    obtain ⟨rows, hrows, rfl⟩ := map_eq_ok.mp hlatest
    obtain ⟨⟨basket, row⟩, hmem, rfl⟩ := List.mem_map.mp hrow
    have hfresh := DrainRow.get?_latest.mp (Dict.mem_entries_iff.mp hmem)
    have hdrain : row ∈ drainRows e a events := by
      unfold drainRows
      rw [hrows]
      exact List.mem_of_mem_filter hfresh.mem
    obtain ⟨raw, -, hi⟩ := exists_of_mem_drainRows hdrain
    exact ⟨raw, hi⟩
  · cases hrow

/-- The barrier publishes nothing for a closed order, exactly when no row it reaches bypasses the
guard. -/
theorem applyDrainRows_reopens_iff {e : Engine} {react : Reactions} {a : Account} {cache : Cache}
    {events : List OrderNotification} :
    (∀ p ∈ (e.applyDrainRows react a cache events).2.1, ¬ Reopens p.1 p.2) ↔
      ∀ met row, Reaches e react cache (freshRows e a events none) met row →
        Bypasses e met row true → e.sendStatus row.report = false := by
  rw [← applyRows_reopens_iff freshRows_interpret]
  unfold Engine.applyDrainRows Engine.drainEffect freshRows
  rcases e.latestDrainRows a events none with ⟨a', fault | latest⟩
  · simp [Engine.applyRows, Effect.none]
  · rfl

theorem filter_open_reopens_iff {cache : Cache} {reports : List StatusReport} {openOnly : Bool} :
    (∀ report ∈ (if openOnly then reports.filter fun report => !report.status.isTerminal
      else reports), ¬ Reopens cache report) ↔ ∀ report ∈ reports, ¬ Reopens cache report := by
  cases openOnly with
  | false => rfl
  | true =>
    simp only [if_true, List.mem_filter, and_imp]
    refine forall₂_congr fun report _ => ?_
    exact ⟨fun h hreopens => h (by simp [hreopens.1]) hreopens, fun h _ => h⟩

/-- Bulk recon returns nothing open for a closed order, exactly when no fresh row bypasses the
guard. -/
theorem orderStatusReports_reopens_iff {e : Engine} {a : Account} {cache : Cache}
    {events : List OrderNotification} {instrumentId : Option String} {openOnly : Bool} :
    (∀ reports, (e.orderStatusReportsFromEvents a cache events instrumentId openOnly).2 =
        .ok reports → ∀ report ∈ reports, ¬ Reopens cache report) ↔
      ∀ row ∈ freshRows e a events instrumentId, ¬ Bypasses e cache row false := by
  obtain ⟨reports, hreports, hiff⟩ :=
    @forwardRows_reopens_iff e cache (freshRows e a events instrumentId) freshRows_interpret
  rw [← hiff, ← @filter_open_reopens_iff cache reports openOnly]
  unfold Engine.orderStatusReportsFromEvents
  by_cases hempty : events = []
  · subst hempty
    have hnone : freshRows e a [] instrumentId = [] := rfl
    rw [hnone] at hreports
    obtain rfl := Except.ok.inj hreports
    cases openOnly <;> simp
  · rw [if_neg hempty]
    unfold freshRows at hreports
    rcases hlatest : e.latestDrainRows a events instrumentId with ⟨a', fault | latest⟩
    · rw [hlatest] at hreports
      obtain rfl := Except.ok.inj hreports
      simp
    · rw [hlatest] at hreports
      simp [hreports, Except.map]

/-- Neither consumer of a drain re-opens a closed order, exactly when no fresh row bypasses the guard:
at the barrier in the cache that the row meets, in bulk recon in the cache as it is. -/
theorem drain_reopens_none_iff (e : Engine) (react : Reactions) (a : Account) (cache : Cache)
    (events : List OrderNotification) (instrumentId : Option String) (openOnly : Bool) :
    ((∀ p ∈ (e.applyDrainRows react a cache events).2.1, ¬ Reopens p.1 p.2) ∧
      ∀ reports, (e.orderStatusReportsFromEvents a cache events instrumentId openOnly).2 =
        .ok reports → ∀ report ∈ reports, ¬ Reopens cache report) ↔
    (∀ met row, Reaches e react cache (freshRows e a events none) met row →
        Bypasses e met row true → e.sendStatus row.report = false) ∧
      ∀ row ∈ freshRows e a events instrumentId, ¬ Bypasses e cache row false :=
  and_congr applyDrainRows_reopens_iff orderStatusReports_reopens_iff

def canceledCache : Cache where
  order id := if id = "T1" then
      some ⟨.canceled, "MNQZ6-CME.RITHMIC", .buy, .limit, 2, some "21000.25", none, some 0, 7⟩ else none
  clientOrderId _ := none
  venueOrderId _ := none

/-- A working order of the venue that carries the tag of the canceled one. -/
def reusedTagRow : OrderNotification :=
  { notifyTypeName := some "STATUS", status := some "open", basketId := some "B2"
    userTag := some "T1", accountId := some "ACC", symbol := some "MNQZ6", exchange := some "CME"
    quantity := some 2, transactionType := some 1, priceType := some 1, duration := some 1
    price := some samplePrice, tsEventNs := some 5 }

/-- Both consumers hand over an open report that names the canceled order. -/
theorem drain_reopens_canceled :
    ∃ (e : Engine) (react : Reactions) (a : Account) (cache : Cache)
      (events : List OrderNotification),
      (∃ p ∈ (e.applyDrainRows react a cache events).2.1, Reopens p.1 p.2) ∧
        ∃ reports, (e.orderStatusReportsFromEvents a cache events none false).2 = .ok reports ∧
          ∃ report ∈ reports, Reopens cache report := by
  have hclosed : canceledCache.Closed "T1" := ⟨_, rfl, rfl⟩
  obtain ⟨report, hbarrier, hbulk, hstatus, hid⟩ : ∃ report : StatusReport,
      ((Engine.accepting 9).applyDrainRows ⟨fun cache _ => cache, fun cache _ _ => .ok cache⟩ {}
        canceledCache [reusedTagRow]).2.1 = [(canceledCache, report)] ∧
      ((Engine.accepting 9).orderStatusReportsFromEvents {} canceledCache [reusedTagRow] none
        false).2 = .ok [report] ∧
      report.status.isTerminal = false ∧ report.clientOrderId = some "T1" :=
    ⟨_, rfl, rfl, rfl, rfl⟩
  have hreopens : Reopens canceledCache report := ⟨hstatus, "T1", hid, hclosed⟩
  refine ⟨.accepting 9, ⟨fun cache _ => cache, fun cache _ _ => .ok cache⟩, {}, canceledCache,
    [reusedTagRow], ?_, ?_⟩
  · rw [hbarrier]
    exact ⟨_, List.mem_singleton.mpr rfl, hreopens⟩
  · exact ⟨_, hbulk, report, List.mem_singleton.mpr rfl, hreopens⟩

end RithmicNt.Adapter
