import RithmicNt.Adapter.Apply
import RithmicNt.Adapter.ReportStatus

/-! The calls that the re-arm barrier makes while it applies a drain: one status report a basket, each
venue id after the report of its row, and nothing after a report that could not be published. -/

namespace RithmicNt.Adapter

open RithmicNt.Lib RithmicNt.Exec

/-- The row of a report that was sent, whether or not the engine took it. -/
def Deed.sent : Deed → Option DrainRow
  | .published _ row | .refused _ row => some row
  | .bound .. => none

/-- The closed-set terms of a row are all there: nothing in its report is a fallback. -/
structure RealTerms (upper : Char → List Char) (f : OrderFields) : Prop where
  side : f.orderSide.isSome = true
  priceType : ∃ priceType, f.priceType = some priceType ∧ priceType ∈ trustworthyPriceTypes
  duration : ∃ duration, f.duration = some duration ∧ duration ∈ trustworthyDurations
  state : (∃ kind, f.kind = some kind ∧ kind ≠ .other) ∨
    ∃ marker ∈ statusMarkers, hasPart (toUppercase upper (f.status.getD "")) marker = true

theorem isTrustworthy_iff {upper : Char → List Char} {f : OrderFields} :
    f.isTrustworthy upper = true ↔ RealTerms upper f := by
  unfold OrderFields.isTrustworthy rowIsTrustworthy
  constructor
  · intro h
    split at h
    · cases h
    · next hside =>
      split at h
      · next priceType duration hprice hduration =>
        split at h
        · cases h
        · next hterms =>
          obtain ⟨hp, hd⟩ := not_or.mp hterms
          refine ⟨by simpa [Option.isSome_iff_ne_none] using hside, ⟨priceType, hprice, not_not.mp hp⟩,
            ⟨duration, hduration, not_not.mp hd⟩, ?_⟩
          split at h
          · next hkind => exact .inl (by simpa [Option.any_eq_true] using hkind)
          · exact .inr (by simpa using h)
      · cases h
  · rintro ⟨hside, ⟨priceType, hprice, hp⟩, ⟨duration, hduration, hd⟩, hstate⟩
    rw [if_neg (by simp [hside]), hprice, hduration]
    dsimp only
    rw [if_neg (by simp [hp, hd])]
    split
    · rfl
    · next hkind =>
      rcases hstate with ⟨kind, hk, hne⟩ | hmarker
      · exact absurd (by simp [hk, hne]) hkind
      · simpa using hmarker

section

variable {e : Engine} {react : Reactions} {cache met : Cache} {row : DrainRow} {effect : Effect}

section

variable (h : RowRun e react cache row effect)

include h

theorem RowRun.sent_sublist : (effect.deeds.filterMap Deed.sent).Sublist [row] := by
  cases h with
  | unresolved => simp
  | stale => simp
  | refused => simp [Deed.sent]
  | published => simp [Deed.sent]
  | bound => simp [Deed.sent]

/-- A binding among the calls of one row is the second of two, and the first is its report, which left
the cache that the binding meets. -/
theorem RowRun.bound_second {i : Nat} {id : String} {bound : DrainRow}
    (hi : effect.deeds[i]? = some (.bound met id bound)) :
    i = 1 ∧ effect.deeds[0]? = some (.published cache bound) ∧
      met = react.onStatus cache bound.report ∧ bound.bindable = true ∧
      (met.order id).isSome = true ∧ met.venueOrderId id = none := by
  cases h with
  | unresolved => simp at hi
  | stale => simp at hi
  | refused => cases List.mem_singleton.mp (List.mem_of_getElem? hi)
  | published => cases List.mem_singleton.mp (List.mem_of_getElem? hi)
  | bound _ _ _ hbindable horder hvenue =>
    match i, hi with
    | 1, hi =>
      cases hi
      exact ⟨rfl, rfl, rfl, hbindable, horder, hvenue⟩

/-- A row whose report is refused makes no other call, and the loop raises there. -/
theorem RowRun.refused_alone {i : Nat} {refused : DrainRow}
    (hi : effect.deeds[i]? = some (.refused met refused)) :
    i = 0 ∧ effect.deeds.length = 1 ∧ ∃ fault, effect.next = .error fault := by
  cases h with
  | unresolved => simp at hi
  | stale => simp at hi
  | refused =>
    obtain ⟨hlt, -⟩ := List.getElem?_eq_some_iff.mp hi
    exact ⟨Nat.lt_one_iff.mp hlt, rfl, _, rfl⟩
  | published => cases List.mem_singleton.mp (List.mem_of_getElem? hi)
  | bound =>
    match i, hi with
    | 0, hi => cases hi
    | 1, hi => cases hi

end

/-! ### The loop -/

/-- The reports are sent in the order of the rows, each at most once. -/
theorem sent_applyRows (cache : Cache) (rows : List DrainRow) :
    ((e.applyRows react cache rows).deeds.filterMap Deed.sent).Sublist rows := by
  induction rows generalizing cache with
  | nil => exact List.Sublist.refl _
  | cons row rest ih =>
    unfold Engine.applyRows
    rw [Effect.deeds_andThen, List.filterMap_append]
    apply List.Sublist.append (applyRow_cases e react cache row).sent_sublist
    split
    · exact List.nil_sublist _
    · exact ih _

/-- A venue id is bound right after the report of its row was taken, in the cache that the report left,
from a row that may bind, for an order of the cache that has none. -/
theorem bound_applyRows {rows : List DrainRow} {i : Nat} {id : String}
    (h : (e.applyRows react cache rows).deeds[i]? = some (.bound met id row)) :
    (∃ j before, j + 1 = i ∧ (e.applyRows react cache rows).deeds[j]? =
        some (.published before row) ∧ met = react.onStatus before row.report) ∧
      row.bindable = true ∧ (met.order id).isSome = true ∧ met.venueOrderId id = none := by
  induction rows generalizing cache i with
  | nil => simp [Engine.applyRows, Effect.none] at h
  | cons head rest ih =>
    unfold Engine.applyRows at h ⊢
    rw [Effect.deeds_andThen] at h ⊢
    by_cases hlt : i < (e.applyRow react cache head).deeds.length
    · rw [List.getElem?_append_left hlt] at h
      obtain ⟨rfl, hfirst, hmet, hterms⟩ := (applyRow_cases e react cache head).bound_second h
      refine ⟨⟨0, cache, rfl, ?_, hmet⟩, hterms⟩
      rw [List.getElem?_append_left (by omega)]
      exact hfirst
    · rw [List.getElem?_append_right (by omega)] at h
      cases hnext : (e.applyRow react cache head).next with
      | error fault => simp [hnext] at h
      | ok next =>
        rw [hnext] at h
        obtain ⟨⟨j, before, hj, hpublished, hmet⟩, hterms⟩ := ih h
        refine ⟨⟨j + (e.applyRow react cache head).deeds.length, before, by omega, ?_, hmet⟩, hterms⟩
        rw [List.getElem?_append_right (by omega), Nat.add_sub_cancel]
        exact hpublished

/-- After a refused report there is no further call, and the loop raises. -/
theorem refused_applyRows {rows : List DrainRow} {i : Nat}
    (h : (e.applyRows react cache rows).deeds[i]? = some (.refused met row)) :
    i + 1 = (e.applyRows react cache rows).deeds.length ∧
      ∃ fault, (e.applyRows react cache rows).next = .error fault := by
  induction rows generalizing cache i with
  | nil => simp [Engine.applyRows, Effect.none] at h
  | cons head rest ih =>
    unfold Engine.applyRows at h ⊢
    rw [Effect.deeds_andThen] at h ⊢
    by_cases hlt : i < (e.applyRow react cache head).deeds.length
    · rw [List.getElem?_append_left hlt] at h
      obtain ⟨rfl, hlength, fault, hfault⟩ := (applyRow_cases e react cache head).refused_alone h
      refine ⟨by simp [hlength, hfault], fault, ?_⟩
      unfold Effect.andThen
      rw [hfault]
    · rw [List.getElem?_append_right (by omega)] at h
      cases hnext : (e.applyRow react cache head).next with
      | error fault => simp [hnext] at h
      | ok next =>
        rw [hnext] at h
        obtain ⟨hlast, fault, hfault⟩ := ih h
        refine ⟨?_, fault, ?_⟩
        · rw [List.length_append]
          dsimp only
          omega
        · unfold Effect.andThen
          rw [hnext]
          exact hfault

end

/-! ### The whole drain -/

section

variable {e : Engine} {a : Account} {events : List OrderNotification}

/-- What the barrier reads of a row besides its fields. -/
structure Stamped (e : Engine) (row : DrainRow) : Prop where
  venueOrderId : row.report.venueOrderId = row.basket
  bindable : row.bindable = row.fields.isTrustworthy e.upper

theorem Engine.venueOrderId_of_build {accountId basket : String} {f : OrderFields} {ts : Int}
    {report : StatusReport} (h : e.buildStatusReport accountId basket f ts = .ok (some report)) :
    report.venueOrderId = basket := by
  unfold buildStatusReport at h
  simp only [bind_eq_ok] at h
  obtain ⟨quantity, -, filled, -, price, -, trigger, -, h⟩ := h
  split at h
  · cases h
  · simp only [bind_eq_ok] at h
    obtain ⟨_, -, _, -, _, -, h⟩ := h
    obtain rfl := Option.some.inj (Except.ok.inj h)
    rfl

theorem Engine.stamped_of_interpretRow {raw : OrderNotification} {row : DrainRow} {a' : Account}
    (h : e.interpretRow a raw = (a', .ok (some row))) : Stamped e row := by
  unfold interpretRow at h
  split at h
  · cases h
  · next f hf =>
    split at h
    · cases h
    · next basket hbasket =>
      unfold drainRowFromFields at h
      obtain ⟨-, hmap⟩ := Prod.mk.inj h
      obtain ⟨report?, hreport, hsome⟩ := map_eq_ok.mp hmap
      obtain ⟨report, rfl, rfl⟩ := Option.map_eq_some_iff.mp hsome
      obtain ⟨accountId, basket', hbasket', hbuild⟩ := exists_build (Prod.ext rfl hreport)
      refine ⟨?_, rfl⟩
      rw [venueOrderId_of_build hbuild]
      simp [DrainRow.basket, (Account.truthy_eq_some_iff.mp hbasket').1]

theorem Engine.stamped_of_mem_iterDrainRows {a' : Account} {rows : List (Option DrainRow)}
    (h : e.iterDrainRows a events = (a', .ok rows)) {row : DrainRow} (hrow : some row ∈ rows) :
    Stamped e row := by
  induction events generalizing a a' rows with
  | nil =>
    obtain rfl := Except.ok.inj (Prod.mk.inj h).2
    cases hrow
  | cons raw events ih =>
    unfold iterDrainRows at h
    split at h
    · cases h
    · next a₁ head hhead =>
      obtain ⟨rest, hrest, rfl⟩ := map_eq_ok.mp (Prod.mk.inj h).2
      rcases List.mem_cons.mp hrow with rfl | hmem
      · exact stamped_of_interpretRow hhead
      · exact ih (Prod.ext rfl hrest) hmem

theorem stamped_of_mem_drainRows {row : DrainRow} (h : row ∈ drainRows e a events) :
    Stamped e row := by
  unfold drainRows at h
  split at h
  · next rows hrows =>
    obtain ⟨row', hmem, rfl⟩ := List.mem_filterMap.mp h
    exact Engine.stamped_of_mem_iterDrainRows (Prod.ext rfl hrows) hmem
  · cases h

/-- The rows of the barrier are the freshest usable rows, one a basket. -/
theorem freshRows_none : ∃ latest : Dict String DrainRow,
    freshRows e a events none = latest.entries.map (·.2) ∧
      ∀ basket row, latest.get? basket = some row →
        DrainRow.Freshest (drainRows e a events) basket row := by
  unfold freshRows Engine.latestDrainRows drainRows
  cases hrows : (e.iterDrainRows a events).2 with
  | error fault =>
    exact ⟨.empty, by simp [hrows, Except.map, Dict.empty], fun basket row h => by simp at h⟩
  | ok rows =>
    refine ⟨DrainRow.latest (rows.filterMap id), ?_, fun basket row h => DrainRow.get?_latest.mp h⟩
    simp [hrows, Except.map, Engine.matchesInstrument]

theorem freshest_of_mem_freshRows {row : DrainRow} (h : row ∈ freshRows e a events none) :
    DrainRow.Freshest (drainRows e a events) row.basket row := by
  obtain ⟨latest, heq, hfresh⟩ := @freshRows_none e a events
  rw [heq] at h
  obtain ⟨⟨basket, row'⟩, hmem, rfl⟩ := List.mem_map.mp h
  have hrow := hfresh basket row' (Dict.mem_entries_iff.mp hmem)
  obtain ⟨-, -, -, hbasket, -⟩ := id hrow
  exact hbasket.symm ▸ hrow

theorem nodup_baskets_freshRows : ((freshRows e a events none).map DrainRow.basket).Nodup := by
  obtain ⟨latest, heq, hfresh⟩ := @freshRows_none e a events
  have hkeys : (latest.entries.map (·.2)).map DrainRow.basket = latest.keys := by
    rw [List.map_map]
    refine List.map_congr_left fun entry hentry => ?_
    obtain ⟨-, -, -, hbasket, -⟩ := hfresh entry.1 entry.2 (Dict.mem_entries_iff.mp hentry)
    exact hbasket
  rw [heq, hkeys]
  exact latest.nodup

/-- The calls of the barrier are those of its loop over the freshest rows, and it raises where that
does. -/
theorem drainEffect_eq {react : Reactions} {cache : Cache} :
    (e.drainEffect react a cache events).2.deeds =
        (e.applyRows react cache (freshRows e a events none)).deeds ∧
      ∀ fault, (e.applyRows react cache (freshRows e a events none)).next = .error fault →
        ∃ fault, (e.drainEffect react a cache events).2.next = .error fault := by
  unfold Engine.drainEffect freshRows
  rcases e.latestDrainRows a events none with ⟨a', fault | latest⟩
  · exact ⟨rfl, fun _ _ => ⟨fault, rfl⟩⟩
  · exact ⟨rfl, fun fault h => ⟨fault, h⟩⟩

end

/-- The order in which a drain is committed, of the calls that it makes and of how it ends. -/
structure Committed (e : Engine) (react : Reactions) (a : Account) (events : List OrderNotification)
    (effect : Effect) : Prop where
  once : ((effect.deeds.filterMap Deed.sent).map fun row => row.report.venueOrderId).Nodup
  freshest : ∀ deed ∈ effect.deeds, ∀ row, deed.sent = some row →
    DrainRow.Freshest (drainRows e a events) row.report.venueOrderId row
  bound : ∀ i met id row, effect.deeds[i]? = some (.bound met id row) →
    (∃ j before, j + 1 = i ∧ effect.deeds[j]? = some (.published before row) ∧
        met = react.onStatus before row.report) ∧
      RealTerms e.upper row.fields ∧ (met.order id).isSome = true ∧ met.venueOrderId id = none
  refused : ∀ i met row, effect.deeds[i]? = some (.refused met row) →
    i + 1 = effect.deeds.length ∧ ∃ fault, effect.next = .error fault

/-- Whatever the drain, the cache and the reports that the engine refuses, `apply_drain_rows` commits
in that order. -/
theorem applyDrainRows_committed (e : Engine) (react : Reactions) (a : Account) (cache : Cache)
    (events : List OrderNotification) :
    Committed e react a events (e.drainEffect react a cache events).2 := by
  obtain ⟨hdeeds, hraised⟩ := @drainEffect_eq e a events react cache
  have hsublist := @sent_applyRows e react cache (freshRows e a events none)
  rw [← hdeeds] at hsublist
  have hstamped : ∀ row ∈ freshRows e a events none, Stamped e row := fun row hrow =>
    stamped_of_mem_drainRows (freshest_of_mem_freshRows hrow).mem
  have hvenue : ((e.drainEffect react a cache events).2.deeds.filterMap Deed.sent).map
      (fun row => row.report.venueOrderId) =
      ((e.drainEffect react a cache events).2.deeds.filterMap Deed.sent).map DrainRow.basket :=
    List.map_congr_left fun row hrow => (hstamped row (hsublist.subset hrow)).venueOrderId
  have hsent : ∀ deed ∈ (e.drainEffect react a cache events).2.deeds, ∀ row,
      deed.sent = some row → row ∈ freshRows e a events none := fun deed hdeed row hrow =>
    hsublist.subset (List.mem_filterMap.mpr ⟨deed, hdeed, hrow⟩)
  refine ⟨?_, ?_, ?_, ?_⟩
  · rw [hvenue]
    exact nodup_baskets_freshRows.sublist (hsublist.map _)
  · intro deed hdeed row hrow
    have hmem := hsent deed hdeed row hrow
    rw [(hstamped row hmem).venueOrderId]
    exact freshest_of_mem_freshRows hmem
  · intro i met id row hi
    rw [hdeeds] at hi
    obtain ⟨⟨j, before, hj, hpublished, hmet⟩, hbindable, horder, hvenueId⟩ := bound_applyRows hi
    rw [← hdeeds] at hpublished
    have hmem := hsent _ (List.mem_of_getElem? hpublished) row rfl
    refine ⟨⟨j, before, hj, hpublished, hmet⟩, ?_, horder, hvenueId⟩
    rw [← isTrustworthy_iff, ← (hstamped row hmem).bindable]
    exact hbindable
  · intro i met row hi
    rw [hdeeds] at hi
    obtain ⟨hlast, fault, hfault⟩ := refused_applyRows hi
    rw [hdeeds]
    exact ⟨hlast, hraised fault hfault⟩

end RithmicNt.Adapter
