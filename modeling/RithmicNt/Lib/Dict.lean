import Mathlib.Data.Finset.Card
import Mathlib.Data.List.Nodup
import Mathlib.Data.List.Perm.Basic
import Mathlib.Data.List.Perm.Lattice

/-! Dictionaries that keep their keys in the order of first insertion: a write to a key that is
there replaces its value where it stands, any other write goes to the end. -/

namespace RithmicNt.Lib

variable {κ α : Type*}

structure Dict (κ α : Type*) where
  entries : List (κ × α)
  nodup : (entries.map Prod.fst).Nodup

namespace Dict

def empty : Dict κ α := ⟨[], by simp⟩

def keys (d : Dict κ α) : List κ := d.entries.map Prod.fst

def filter (d : Dict κ α) (p : κ × α → Bool) : Dict κ α :=
  ⟨d.entries.filter p, d.nodup.sublist (List.filter_sublist.map _)⟩

variable [DecidableEq κ]

def get? (d : Dict κ α) (k : κ) : Option α :=
  (d.entries.find? (·.1 = k)).map Prod.snd

def setEntries (entries : List (κ × α)) (k : κ) (v : α) : List (κ × α) :=
  if k ∈ entries.map Prod.fst then entries.map fun e => if e.1 = k then (k, v) else e
  else entries ++ [(k, v)]

theorem map_fst_setEntries (entries : List (κ × α)) (k : κ) (v : α) :
    (setEntries entries k v).map Prod.fst =
      if k ∈ entries.map Prod.fst then entries.map Prod.fst
      else entries.map Prod.fst ++ [k] := by
  unfold setEntries
  split
  · rw [List.map_map]
    refine List.map_congr_left fun e _ => ?_
    by_cases he : e.1 = k <;> simp [he]
  · simp

def set (d : Dict κ α) (k : κ) (v : α) : Dict κ α where
  entries := setEntries d.entries k v
  nodup := by
    rw [map_fst_setEntries]
    split
    · exact d.nodup
    · next hk =>
      refine List.nodup_append.mpr ⟨d.nodup, by simp, ?_⟩
      intro a ha b hb
      obtain rfl := List.mem_singleton.mp hb
      exact fun h => hk (h ▸ ha)

theorem mem_entries_iff {d : Dict κ α} {k : κ} {v : α} :
    (k, v) ∈ d.entries ↔ d.get? k = some v := by
  obtain ⟨entries, hnodup⟩ := d
  simp only [get?]
  induction entries with
  | nil => simp
  | cons e entries ih =>
    obtain ⟨hhead, htail⟩ := List.nodup_cons.mp hnodup
    by_cases he : e.1 = k
    · have hnot : ∀ w, (k, w) ∉ entries := by
        intro w hw
        exact hhead (he ▸ List.mem_map_of_mem hw)
      simp only [List.mem_cons, hnot v, or_false, he, decide_true, List.find?_cons_of_pos,
        Option.map_some, Option.some.injEq]
      constructor
      · intro h
        simp [← h]
      · intro h
        rw [← h, ← he]
    · have hne : (k, v) ≠ e := fun h => he (by rw [← h])
      have hfind := ih htail
      simp only [List.mem_cons, hne, false_or, hfind]
      rw [List.find?_cons_of_neg (by simpa using he)]

theorem mem_keys_iff {d : Dict κ α} {k : κ} : k ∈ d.keys ↔ (d.get? k).isSome := by
  rw [Option.isSome_iff_exists]
  constructor
  · intro h
    obtain ⟨⟨k', v⟩, hmem, rfl⟩ := List.mem_map.mp h
    exact ⟨v, mem_entries_iff.mp hmem⟩
  · rintro ⟨v, hv⟩
    exact List.mem_map_of_mem (mem_entries_iff.mpr hv)

@[simp] theorem get?_empty (k : κ) : (empty : Dict κ α).get? k = none := rfl

theorem get?_set (d : Dict κ α) (k k' : κ) (v : α) :
    (d.set k v).get? k' = if k' = k then some v else d.get? k' := by
  apply Option.ext
  intro w
  rw [← mem_entries_iff]
  show (k', w) ∈ setEntries d.entries k v ↔ _
  unfold setEntries
  by_cases hk : k ∈ d.entries.map Prod.fst
  · rw [if_pos hk, List.mem_map]
    obtain ⟨⟨k₀, v₀⟩, hmem, rfl⟩ := List.mem_map.mp hk
    constructor
    · rintro ⟨e, he, heq⟩
      split at heq
      · obtain ⟨rfl, rfl⟩ := Prod.mk.injEq .. ▸ heq
        simp
      · next hne =>
        subst heq
        rw [if_neg hne]
        exact mem_entries_iff.mp he
    · intro h
      split at h
      · next heq =>
        subst heq
        refine ⟨(k', v₀), hmem, ?_⟩
        simp [Option.some.inj h]
      · next hne =>
        refine ⟨(k', w), mem_entries_iff.mpr h, ?_⟩
        rw [if_neg hne]
  · rw [if_neg hk, List.mem_append, mem_entries_iff]
    have hnone : d.get? k = none := by
      rw [← Option.not_isSome_iff_eq_none, ← mem_keys_iff]
      exact hk
    by_cases heq : k' = k
    · subst heq
      simp [hnone, eq_comm]
    · simp [heq]

theorem get?_set_self (d : Dict κ α) (k : κ) (v : α) : (d.set k v).get? k = some v := by
  rw [get?_set, if_pos rfl]

theorem get?_set_of_ne (d : Dict κ α) {k k' : κ} (h : k' ≠ k) (v : α) :
    (d.set k v).get? k' = d.get? k' := by
  rw [get?_set, if_neg h]

theorem get?_filter {d : Dict κ α} {p : κ × α → Bool} {k : κ} {v : α} :
    (d.filter p).get? k = some v ↔ d.get? k = some v ∧ p (k, v) = true := by
  rw [← mem_entries_iff, ← mem_entries_iff]
  exact List.mem_filter

theorem get?_filter_ne (d : Dict κ α) (k k' : κ) :
    (d.filter fun e => e.1 ≠ k).get? k' = if k' = k then none else d.get? k' := by
  cases hget : (d.filter fun e => e.1 ≠ k).get? k' with
  | some v =>
    obtain ⟨hv, hne⟩ := get?_filter.mp hget
    rw [if_neg (by simpa using hne), hv]
  | none =>
    by_cases hk : k' = k
    · rw [if_pos hk]
    · rw [if_neg hk]
      cases hv : d.get? k' with
      | none => rfl
      | some v =>
        have : (d.filter fun e => e.1 ≠ k).get? k' = some v :=
          get?_filter.mpr ⟨hv, by simpa using hk⟩
        rw [hget] at this
        cases this

theorem getD_set (d : Dict κ α) (k k' : κ) (v w : α) :
    ((d.set k v).get? k').getD w = if k = k' then v else (d.get? k').getD w := by
  rw [get?_set]
  by_cases hk : k' = k
  · rw [if_pos hk, if_pos hk.symm, Option.getD_some]
  · rw [if_neg hk, if_neg (Ne.symm hk)]

theorem getD_filter_ne (d : Dict κ α) (k k' : κ) (w : α) :
    ((d.filter fun e => e.1 ≠ k).get? k').getD w = if k = k' then w else (d.get? k').getD w := by
  rw [get?_filter_ne]
  by_cases hk : k' = k
  · rw [if_pos hk, if_pos hk.symm, Option.getD_none]
  · rw [if_neg hk, if_neg (Ne.symm hk)]

theorem entries_perm {d : Dict κ α} {ks : List κ} (hks : ks.Nodup)
    (hmem : ∀ k, k ∈ ks ↔ (d.get? k).isSome) :
    d.entries.Perm (ks.filterMap fun k => (d.get? k).map fun v => (k, v)) := by
  have hnodup : d.entries.Nodup := d.nodup.of_map
  have hright : (ks.filterMap fun k => (d.get? k).map fun v => (k, v)).Nodup := by
    refine hks.filterMap ?_
    intro k k' e he he'
    obtain ⟨v, -, rfl⟩ := Option.map_eq_some_iff.mp he
    obtain ⟨v', -, heq⟩ := Option.map_eq_some_iff.mp he'
    exact (Prod.mk.inj heq).1.symm
  refine (List.perm_ext_iff_of_nodup hnodup hright).mpr ?_
  rintro ⟨k, v⟩
  rw [mem_entries_iff, List.mem_filterMap]
  constructor
  · intro h
    exact ⟨k, (hmem k).mpr (by simp [h]), by simp [h]⟩
  · rintro ⟨k', -, heq⟩
    obtain ⟨v', hv', hpair⟩ := Option.map_eq_some_iff.mp heq
    obtain ⟨rfl, rfl⟩ := Prod.mk.inj hpair
    exact hv'

/-- The place of a key that is there: a write replaces the value at it, a removal takes it out. -/
theorem split_of_get? {d : Dict κ α} {k : κ} {v : α} (h : d.get? k = some v) :
    ∃ before after, d.entries = before ++ (k, v) :: after ∧
      (∀ w, (d.set k w).entries = before ++ (k, w) :: after) ∧
      (d.filter fun e => e.1 ≠ k).entries = before ++ after := by
  obtain ⟨before, after, heq⟩ := List.append_of_mem (mem_entries_iff.mpr h)
  have hnodup := d.nodup
  rw [heq, List.map_append, List.map_cons] at hnodup
  obtain ⟨-, hcons, hdisj⟩ := List.nodup_append.mp hnodup
  have hbefore : ∀ e ∈ before, e.1 ≠ k := by
    intro e he
    exact hdisj e.1 (List.mem_map_of_mem he) k (by simp)
  have hafter : ∀ e ∈ after, e.1 ≠ k := by
    intro e he hk
    have hmem := List.mem_map_of_mem (f := Prod.fst) he
    rw [hk] at hmem
    exact (List.nodup_cons.mp hcons).1 hmem
  refine ⟨before, after, heq, ?_, ?_⟩
  · intro w
    show setEntries d.entries k w = _
    have hmem : k ∈ d.entries.map Prod.fst := by simp [heq]
    have hmap : ∀ es : List (κ × α), (∀ e ∈ es, e.1 ≠ k) →
        es.map (fun e => if e.1 = k then (k, w) else e) = es := by
      intro es hes
      conv_rhs => rw [← List.map_id es]
      refine List.map_congr_left fun e he => ?_
      simp [hes e he]
    unfold setEntries
    rw [if_pos hmem, heq, List.map_append, List.map_cons, hmap before hbefore, hmap after hafter]
    simp
  · show d.entries.filter _ = _
    rw [heq, List.filter_append, List.filter_cons_of_neg (by simp),
      List.filter_eq_self.mpr (by simpa using hbefore),
      List.filter_eq_self.mpr (by simpa using hafter)]

theorem countP_set {d : Dict κ α} {k : κ} {v : α} (h : d.get? k = some v) (w : α)
    (p : κ × α → Bool) :
    (d.set k w).entries.countP p + (if p (k, v) then 1 else 0) =
      d.entries.countP p + if p (k, w) then 1 else 0 := by
  obtain ⟨before, after, heq, hset, -⟩ := split_of_get? h
  rw [hset w, heq]
  simp only [List.countP_append, List.countP_cons]
  omega

theorem countP_set_new {d : Dict κ α} {k : κ} (h : d.get? k = none) (w : α)
    (p : κ × α → Bool) :
    (d.set k w).entries.countP p = d.entries.countP p + if p (k, w) then 1 else 0 := by
  have hmem : k ∉ d.entries.map Prod.fst := by
    have := mt mem_keys_iff.mp (by simp [h] : ¬ (d.get? k).isSome = true)
    exact this
  show (setEntries d.entries k w).countP p = _
  unfold setEntries
  rw [if_neg hmem, List.countP_append]
  simp

theorem countP_filter_ne {d : Dict κ α} {k : κ} {v : α} (h : d.get? k = some v)
    (p : κ × α → Bool) :
    (d.filter fun e => e.1 ≠ k).entries.countP p + (if p (k, v) then 1 else 0) =
      d.entries.countP p := by
  obtain ⟨before, after, heq, -, hfilter⟩ := split_of_get? h
  rw [hfilter, heq]
  simp only [List.countP_append, List.countP_cons]
  omega

/-- The entries whose keys are in a set of keys that the dictionary has. -/
theorem countP_mem_eq_card {d : Dict κ α} {S : Finset κ} (h : ∀ k ∈ S, (d.get? k).isSome) :
    d.entries.countP (fun e => e.1 ∈ S) = S.card := by
  have hnodup : (d.keys.filter fun k => decide (k ∈ S)).Nodup := d.nodup.filter _
  have hset : (d.keys.filter fun k => decide (k ∈ S)).toFinset = S := by
    ext k
    rw [List.mem_toFinset, List.mem_filter, mem_keys_iff, decide_eq_true_eq]
    exact ⟨fun hk => hk.2, fun hk => ⟨h k hk, hk⟩⟩
  calc d.entries.countP (fun e => e.1 ∈ S)
      = d.keys.countP (fun k => k ∈ S) := by
        rw [keys, List.countP_map]
        rfl
    _ = (d.keys.filter fun k => decide (k ∈ S)).length := List.countP_eq_length_filter
    _ = (d.keys.filter fun k => decide (k ∈ S)).toFinset.card :=
        (List.toFinset_card_of_nodup hnodup).symm
    _ = S.card := by rw [hset]

end Dict

end RithmicNt.Lib
