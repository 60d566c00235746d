import RithmicNt.Exec.Drain

/-! The rows that win a drain: one for each key, in the order of their first appearance, whatever stands
between the rows of a key. -/

namespace RithmicNt.Exec

open RithmicNt.Lib

theorem keys_set (d : Dict String Nat) (key : String) (index : Nat) :
    (d.set key index).keys = if key ∈ d.keys then d.keys else d.keys ++ [key] :=
  Dict.map_fst_setEntries d.entries key index

/-! ### The loop over its two structures -/

/-- The state of the loop of `freshest_per_key`: the keys as they appeared, and the winner of each. -/
structure FreshestLoop where
  order : List String
  winner : Dict String Nat

namespace FreshestLoop

def step (rows : List (String × Int)) (s : FreshestLoop) (row : (String × Int) × Nat) :
    FreshestLoop :=
  let ((key, ts), index) := row
  match s.winner.get? key with
  | none => { order := s.order ++ [key], winner := s.winner.set key index }
  | some current =>
    match rows[current]? with
    | some (_, best) => if ts ≥ best then { s with winner := s.winner.set key index } else s
    | none => s

def result (rows : List (String × Int)) : List Nat :=
  let s := rows.zipIdx.foldl (step rows) { order := [], winner := .empty }
  s.order.filterMap s.winner.get?

/-- The order of appearance is that of the first write to the winners. -/
theorem step_keys (rows : List (String × Int)) (d : Dict String Nat) (row : (String × Int) × Nat) :
    step rows { order := d.keys, winner := d } row =
      { order := (freshestStep rows d row).keys, winner := freshestStep rows d row } := by
  obtain ⟨⟨key, ts⟩, index⟩ := row
  have hkeys := keys_set d key index
  cases hget : d.get? key with
  | none =>
    rw [if_neg (by rw [Dict.mem_keys_iff, hget]; simp)] at hkeys
    simp only [step, freshestStep, hget, hkeys]
  | some current =>
    rw [if_pos (by rw [Dict.mem_keys_iff, hget]; rfl)] at hkeys
    simp only [step, freshestStep, hget]
    cases rows[current]? with
    | none => rfl
    | some best =>
      dsimp only
      by_cases hge : ts ≥ best.2
      · rw [if_pos hge, if_pos hge, hkeys]
      · rw [if_neg hge, if_neg hge]

theorem foldl_keys (rows : List (String × Int)) (seen : List ((String × Int) × Nat))
    (d : Dict String Nat) :
    seen.foldl (step rows) { order := d.keys, winner := d } =
      { order := (seen.foldl (freshestStep rows) d).keys,
        winner := seen.foldl (freshestStep rows) d } := by
  induction seen generalizing d with
  | nil => rfl
  | cons row seen ih => rw [List.foldl_cons, step_keys, ih, List.foldl_cons]

end FreshestLoop

theorem filterMap_keys (d : Dict String Nat) : d.keys.filterMap d.get? = d.entries.map Prod.snd := by
  rw [Dict.keys, List.filterMap_map]
  have hget : ∀ e ∈ d.entries, (d.get? ∘ Prod.fst) e = some e.2 := fun e he =>
    Dict.mem_entries_iff.mp he
  rw [List.filterMap_congr hget, List.filterMap_eq_map']

/-- The dictionary of winners stands for both structures. -/
theorem freshestLoop_result (rows : List (String × Int)) :
    FreshestLoop.result rows = freshestPerKey rows := by
  have hfold := FreshestLoop.foldl_keys rows rows.zipIdx .empty
  unfold FreshestLoop.result freshestPerKey
  rw [show ([] : List String) = (Dict.empty : Dict String Nat).keys from rfl, hfold]
  exact filterMap_keys _

/-! ### One row for each key -/

theorem keys_freshestStep (rows : List (String × Int)) (d : Dict String Nat)
    (row : (String × Int) × Nat) : (freshestStep rows d row).keys =
      if row.1.1 ∈ d.keys then d.keys else d.keys ++ [row.1.1] := by
  obtain ⟨⟨key, ts⟩, index⟩ := row
  have hkeys := keys_set d key index
  cases hget : d.get? key with
  | none => simp only [freshestStep, hget, hkeys]
  | some current =>
    have hmem : key ∈ d.keys := by rw [Dict.mem_keys_iff, hget]; rfl
    rw [if_pos hmem] at hkeys ⊢
    simp only [freshestStep, hget]
    split
    · split
      · exact hkeys
      · rfl
    · rfl

/-- The keys stand in the order of their first appearance. -/
theorem keys_winners (rows seen : List (String × Int)) :
    (seen.zipIdx.foldl (freshestStep rows) .empty).keys = (seen.map Prod.fst).eraseDups := by
  induction seen using List.reverseRecOn with
  | nil => rfl
  | append_singleton seen row ih =>
    rw [List.zipIdx_append, List.foldl_append, List.map_append, List.eraseDups_append, ← ih]
    show (freshestStep rows (seen.zipIdx.foldl (freshestStep rows) .empty) (row, 0 + seen.length)).keys = _
    rw [keys_freshestStep, ih]
    have hmem : row.1 ∈ (seen.map Prod.fst).eraseDups ↔ row.1 ∈ seen.map Prod.fst :=
      List.mem_eraseDups
    by_cases hknown : row.1 ∈ seen.map Prod.fst
    · rw [if_pos (hmem.mpr hknown)]
      simp [List.removeAll, hknown]
    · rw [if_neg (fun h => hknown (hmem.mp h))]
      simp [List.removeAll, hknown, List.eraseDups_cons]

/-! ### The rows of a key -/

section

variable {α : Type*} {l : List α} {p : α → Bool}

/-- An element stands in the filtered list behind those before it that pass. -/
theorem filter_getElem?_countP {i : Nat} {x : α} (h : l[i]? = some x) (hp : p x = true) :
    (l.filter p)[(l.take i).countP p]? = some x := by
  induction l generalizing i with
  | nil => cases h
  | cons y l ih =>
    cases i with
    | zero =>
      obtain rfl := Option.some.inj h
      simp [hp]
    | succ i =>
      have htail := ih h
      by_cases hy : p y = true
      · simpa [hy] using htail
      · simpa [hy] using htail

theorem exists_getElem?_of_filter {j : Nat} {x : α} (h : (l.filter p)[j]? = some x) :
    ∃ i, l[i]? = some x ∧ (l.take i).countP p = j := by
  induction l generalizing j with
  | nil => cases h
  | cons y l ih =>
    by_cases hy : p y = true
    · rw [List.filter_cons_of_pos hy] at h
      cases j with
      | zero => exact ⟨0, h, rfl⟩
      | succ j =>
        obtain ⟨i, hi, hcount⟩ := ih h
        exact ⟨i + 1, hi, by simp [hy, hcount]⟩
    · rw [List.filter_cons_of_neg hy] at h
      obtain ⟨i, hi, hcount⟩ := ih h
      exact ⟨i + 1, hi, by simp [hy, hcount]⟩

end

def rowsOf (rows : List (String × Int)) (key : String) : List (String × Int) :=
  rows.filter (·.1 = key)

/-- How many rows of `key` come before the row `i`. -/
def rank (rows : List (String × Int)) (key : String) (i : Nat) : Nat :=
  (rows.take i).countP (·.1 = key)

theorem rank_mono (rows : List (String × Int)) (key : String) {i j : Nat} (h : i ≤ j) :
    rank rows key i ≤ rank rows key j :=
  (List.take_sublist_take_left h).countP_le

theorem getElem?_rowsOf {rows : List (String × Int)} {key : String} {i : Nat} {ts : Int}
    (h : rows[i]? = some (key, ts)) : (rowsOf rows key)[rank rows key i]? = some (key, ts) :=
  filter_getElem?_countP h (by simp)

/-- The freshest row of a key is the freshest among its rows alone. -/
theorem Freshest.alone {rows : List (String × Int)} {key : String} {i : Nat}
    (h : Freshest rows key i) : Freshest (rowsOf rows key) key (rank rows key i) := by
  obtain ⟨ts, hi, hmax⟩ := h
  refine ⟨ts, getElem?_rowsOf hi, fun j ts' hj => ?_⟩
  obtain ⟨j', hj', hrank⟩ := exists_getElem?_of_filter hj
  rcases hmax j' ts' hj' with hlt | ⟨heq, hle⟩
  · exact .inl hlt
  · refine .inr ⟨heq, ?_⟩
    rw [← hrank]
    exact rank_mono rows key hle

/-- Between two lists with the same rows of a key, the winner is the same of these rows. -/
theorem Freshest.same {rows rows' : List (String × Int)} {key : String} {i i' : Nat}
    (hrows : rowsOf rows key = rowsOf rows' key) (h : Freshest rows key i)
    (h' : Freshest rows' key i') :
    rows[i]? = rows'[i']? ∧ rank rows key i = rank rows' key i' := by
  have hrank : rank rows key i = rank rows' key i' := by
    have hplace := h.alone
    rw [hrows] at hplace
    exact hplace.unique h'.alone
  obtain ⟨ts, hi, -⟩ := h
  obtain ⟨ts', hi', -⟩ := h'
  refine ⟨?_, hrank⟩
  rw [hi, hi', ← getElem?_rowsOf hi, ← getElem?_rowsOf hi', hrows, hrank]

theorem exists_freshest {rows : List (String × Int)} {row : String × Int} (h : row ∈ rows) :
    ∃ i, Freshest rows row.1 i := by
  have hwinners := freshest_winners rows List.prefix_rfl
  obtain ⟨j, hj⟩ := List.mem_iff_getElem?.mp h
  obtain ⟨i, hi⟩ := Option.isSome_iff_exists.mp (hwinners.all row.1 j row.2 hj)
  exact ⟨i, hwinners.freshest row.1 i hi⟩

/-! ### The result -/

/-- The winning rows, each with its place among the rows of its key. -/
def winningRows (rows : List (String × Int)) : List ((String × Int) × Nat) :=
  (freshestPerKey rows).filterMap fun i => rows[i]?.map fun row => (row, rank rows row.1 i)

theorem freshestPerKey_keys (rows : List (String × Int)) :
    (freshestPerKey rows).map (fun i => rows[i]?.map Prod.fst) =
      (rows.map Prod.fst).eraseDups.map some := by
  have h := freshest_winners rows List.prefix_rfl
  have hkeys := keys_winners rows rows
  unfold freshestPerKey
  rw [← hkeys, Dict.keys, List.map_map, List.map_map]
  apply List.map_congr_left
  rintro ⟨key, i⟩ hmem
  obtain ⟨ts, hi, -⟩ := h.freshest key i (Dict.mem_entries_iff.mp hmem)
  simp [hi]

theorem mem_winningRows_iff {rows : List (String × Int)} {row : String × Int} {place : Nat} :
    (row, place) ∈ winningRows rows ↔
      ∃ i, Freshest rows row.1 i ∧ rows[i]? = some row ∧ rank rows row.1 i = place := by
  unfold winningRows
  rw [List.mem_filterMap]
  constructor
  · rintro ⟨i, hi, heq⟩
    obtain ⟨row', hrow, heq⟩ := Option.map_eq_some_iff.mp heq
    obtain ⟨rfl, rfl⟩ := Prod.mk.inj heq
    obtain ⟨key, hfresh⟩ := mem_freshestPerKey_iff.mp hi
    obtain ⟨ts, hts, -⟩ := id hfresh
    obtain rfl := Option.some.inj (hrow.symm.trans hts)
    exact ⟨i, hfresh, hrow, rfl⟩
  · rintro ⟨i, hfresh, hrow, rfl⟩
    exact ⟨i, mem_freshestPerKey_iff.mpr ⟨_, hfresh⟩, by rw [hrow]; rfl⟩

theorem winningRows_keys (rows : List (String × Int)) :
    (winningRows rows).map (·.1.1) = (rows.map Prod.fst).eraseDups := by
  have hkeys := congrArg (List.filterMap id) (freshestPerKey_keys rows)
  rw [List.filterMap_map, List.filterMap_map] at hkeys
  rw [winningRows, List.map_filterMap]
  refine Eq.trans ?_ (hkeys.trans List.filterMap_some)
  congr 1
  funext i
  cases h : rows[i]? <;> simp [h]

theorem winningRows_nodup (rows : List (String × Int)) : (winningRows rows).Nodup := by
  apply List.Nodup.of_map (·.1.1)
  rw [winningRows_keys, ← keys_winners rows]
  exact Dict.nodup _

theorem winningRows_subset {rows rows' : List (String × Int)}
    (h : ∀ key, rowsOf rows key = rowsOf rows' key) {won : (String × Int) × Nat}
    (hwon : won ∈ winningRows rows) : won ∈ winningRows rows' := by
  obtain ⟨⟨key, ts⟩, place⟩ := won
  obtain ⟨i, hfresh, hrow, hrank⟩ := mem_winningRows_iff.mp hwon
  have hmem : (key, ts) ∈ rowsOf rows' key := by
    rw [← h key]
    exact List.mem_of_getElem? (getElem?_rowsOf hrow)
  obtain ⟨i', hfresh'⟩ := exists_freshest (List.mem_of_mem_filter hmem)
  obtain ⟨hrow', hrank'⟩ := hfresh.same (h key) hfresh'
  refine mem_winningRows_iff.mpr ⟨i', hfresh', ?_, ?_⟩
  · rw [← hrow', hrow]
  · rw [← hrank', hrank]

/-- Each key has one row: the last of its freshest rows.  The keys stand in the order of their first
appearance, and how the rows of different keys are interleaved changes nothing else. -/
theorem freshest_row_per_key (rows : List (String × Int)) :
    FreshestLoop.result rows = freshestPerKey rows ∧
    (freshestPerKey rows).map (fun i => rows[i]?.map Prod.fst) =
      (rows.map Prod.fst).eraseDups.map some ∧
    (∀ i ∈ freshestPerKey rows, ∃ key ts, rows[i]? = some (key, ts) ∧
      ∀ j ts', rows[j]? = some (key, ts') → ts' < ts ∨ ts' = ts ∧ j ≤ i) ∧
    ∀ rows', (∀ key, rowsOf rows key = rowsOf rows' key) →
      (winningRows rows).Perm (winningRows rows') := by
  refine ⟨freshestLoop_result rows, freshestPerKey_keys rows, fun i hi => ?_, fun rows' hrows => ?_⟩
  · obtain ⟨key, ts, hrow, hmax⟩ := mem_freshestPerKey_iff.mp hi
    exact ⟨key, ts, hrow, hmax⟩
  · refine (List.perm_ext_iff_of_nodup (winningRows_nodup rows) (winningRows_nodup rows')).mpr ?_
    intro won
    exact ⟨winningRows_subset hrows, winningRows_subset fun key => (hrows key).symm⟩

end RithmicNt.Exec
