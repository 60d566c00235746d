import Mathlib.Data.List.Nodup
import Mathlib.Data.List.Pairwise
import Mathlib.Data.List.Perm.Basic
import Mathlib.Order.Lattice

/-! Stable sorts by a key.  A sorted list is known by its rows of each key, in order; a stable sort keeps
these, and a sort that also drops the later rows of a key keeps the first of each. -/

namespace RithmicNt.Lib.StableSort

variable {α κ : Type*} [LinearOrder κ] {key : α → κ} {l l' : List α}

def keyLe (key : α → κ) (a b : α) : Bool := decide (key a ≤ key b)

@[simp] theorem keyLe_iff {a b : α} : keyLe key a b = true ↔ key a ≤ key b := by simp [keyLe]

theorem keyLe_trans (a b c : α) (hab : keyLe key a b) (hbc : keyLe key b c) : keyLe key a c :=
  keyLe_iff.mpr (le_trans (keyLe_iff.mp hab) (keyLe_iff.mp hbc))

theorem keyLe_total (a b : α) : keyLe key a b || keyLe key b a := by
  simpa using le_total (key a) (key b)

def sortByKey (key : α → κ) (l : List α) : List α := l.mergeSort (keyLe key)

theorem sortByKey_perm (key : α → κ) (l : List α) : (sortByKey key l).Perm l :=
  List.mergeSort_perm l _

theorem pairwise_sortByKey (key : α → κ) (l : List α) :
    (sortByKey key l).Pairwise fun a b => key a ≤ key b :=
  (List.pairwise_mergeSort keyLe_trans keyLe_total l).imp keyLe_iff.mp

theorem pair_sublist_sortByKey {x y : α} (hle : key x ≤ key y) (h : [x, y].Sublist l) :
    [x, y].Sublist (sortByKey key l) :=
  List.pair_sublist_mergeSort keyLe_trans keyLe_total (keyLe_iff.mpr hle) h

/-- Rows of one key keep their order. -/
theorem filter_sortByKey (key : α → κ) (l : List α) (k : κ) :
    (sortByKey key l).filter (key · = k) = l.filter (key · = k) := by
  have hone : (l.filter (key · = k)).Pairwise (fun a b => keyLe key a b = true) := by
    refine List.pairwise_of_forall_mem_list fun a ha b hb => ?_
    simp only [List.mem_filter, decide_eq_true_eq] at ha hb
    rw [keyLe_iff, ha.2, hb.2]
  have hsub : (l.filter (key · = k)).Sublist (sortByKey key l) :=
    List.sublist_mergeSort keyLe_trans keyLe_total hone List.filter_sublist
  have hfilter : (l.filter (key · = k)).Sublist ((sortByKey key l).filter (key · = k)) := by
    simpa using hsub.filter (key · = k)
  have hlength : ((sortByKey key l).filter (key · = k)).length = (l.filter (key · = k)).length :=
    ((sortByKey_perm key l).filter _).length_eq
  exact (hfilter.eq_of_length hlength.symm).symm

/-- Rows that have one key keep their order, whatever picks them out. -/
theorem filter_sortByKey_of_key {q : α → Bool} {k : κ} (h : ∀ x ∈ l, q x = true → key x = k) :
    (sortByKey key l).filter q = l.filter q := by
  have hrefine : ∀ l' : List α, (∀ x ∈ l', x ∈ l) →
      l'.filter q = (l'.filter (key · = k)).filter q := by
    intro l' hl'
    rw [List.filter_filter]
    refine List.filter_congr fun x hx => ?_
    cases hq : q x with
    | false => rfl
    | true => simp [h x (hl' x hx) hq]
  rw [hrefine _ fun x hx => (sortByKey_perm key l).mem_iff.mp hx, filter_sortByKey,
    ← hrefine l fun x hx => hx]

/-- Two sorted lists with the same rows of each key are one list. -/
theorem eq_of_filter_eq (hl : l.Pairwise fun a b => key a ≤ key b)
    (hl' : l'.Pairwise fun a b => key a ≤ key b)
    (h : ∀ k, l.filter (key · = k) = l'.filter (key · = k)) : l = l' := by
  induction l generalizing l' with
  | nil =>
    cases l' with
    | nil => rfl
    | cons y l' => simpa using h (key y)
  | cons x l ih =>
    cases l' with
    | nil => simpa using h (key x)
    | cons y l' =>
      obtain ⟨hx, htail⟩ := List.pairwise_cons.mp hl
      obtain ⟨hy, htail'⟩ := List.pairwise_cons.mp hl'
      have hxy : x = y := by
        have hxmem : x ∈ (y :: l').filter (key · = key x) := by
          rw [← h]
          simp
        have hymem : y ∈ (x :: l).filter (key · = key y) := by
          rw [h]
          simp
        have hyx : key y ≤ key x := by
          rcases List.mem_cons.mp (List.mem_filter.mp hxmem).1 with rfl | hmem
          · exact le_rfl
          · exact hy x hmem
        have hxy : key x ≤ key y := by
          rcases List.mem_cons.mp (List.mem_filter.mp hymem).1 with rfl | hmem
          · exact le_rfl
          · exact hx y hmem
        have hhead := h (key x)
        rw [List.filter_cons_of_pos (by simp), List.filter_cons_of_pos (by simp [le_antisymm hyx hxy])]
          at hhead
        exact (List.cons.inj hhead).1
      subst hxy
      congr 1
      apply ih htail htail'
      intro k
      have hk := h k
      by_cases hkey : key x = k
      · rw [List.filter_cons_of_pos (by simp [hkey]), List.filter_cons_of_pos (by simp [hkey])] at hk
        exact (List.cons.inj hk).2
      · rwa [List.filter_cons_of_neg (by simp [hkey]), List.filter_cons_of_neg (by simp [hkey])] at hk

theorem sortByKey_congr (h : ∀ k, l.filter (key · = k) = l'.filter (key · = k)) :
    sortByKey key l = sortByKey key l' := by
  refine eq_of_filter_eq (pairwise_sortByKey key l) (pairwise_sortByKey key l') fun k => ?_
  rw [filter_sortByKey, filter_sortByKey, h]

/-! ### Neighbours of one key -/

/-- Of neighbours with one key the first stays. -/
def dedupByKey (key : α → κ) : List α → List α
  | [] => []
  | [x] => [x]
  | x :: y :: rest =>
    if key y = key x then dedupByKey key (x :: rest) else x :: dedupByKey key (y :: rest)

theorem dedupByKey_sublist (key : α → κ) (l : List α) : (dedupByKey key l).Sublist l := by
  fun_induction dedupByKey key l with
  | case1 => exact .slnil
  | case2 x => exact .refl _
  | case3 x y rest h ih => exact ih.trans (.cons_cons x (.cons y (.refl rest)))
  | case4 x y rest h ih => exact ih.cons_cons x

/-- In a sorted list the first row of each key stays. -/
theorem filter_dedupByKey (hl : l.Pairwise fun a b => key a ≤ key b) (k : κ) :
    (dedupByKey key l).filter (key · = k) = (l.filter (key · = k)).take 1 := by
  fun_induction dedupByKey key l with
  | case1 => rfl
  | case2 x => by_cases h : key x = k <;> simp [h]
  | case3 x y rest h ih =>
    rw [ih (hl.sublist (.cons_cons x (.cons y (.refl rest))))]
    by_cases hk : key x = k
    · rw [List.filter_cons_of_pos (by simp [hk]), List.filter_cons_of_pos (by simp [hk])]
      rfl
    · rw [List.filter_cons_of_neg (by simp [hk]), List.filter_cons_of_neg (by simp [hk]),
        List.filter_cons_of_neg (by simp [h, hk])]
  | case4 x y rest h ih =>
    obtain ⟨hx, htail⟩ := List.pairwise_cons.mp hl
    by_cases hk : key x = k
    · -- all later rows have greater keys
      have hnone : (y :: rest).filter (key · = k) = [] := by
        rw [List.filter_eq_nil_iff]
        intro z hz hzk
        have hzx : key z = key x := by
          rw [hk]
          simpa using hzk
        have hle : key y ≤ key z := by
          rcases List.mem_cons.mp hz with rfl | hmem
          · exact le_rfl
          · exact (List.pairwise_cons.mp htail).1 z hmem
        exact h (le_antisymm (hzx ▸ hle) (hx y (by simp)))
      rw [List.filter_cons_of_pos (by simp [hk]), List.filter_cons_of_pos (by simp [hk]), ih htail,
        hnone]
      rfl
    · rw [List.filter_cons_of_neg (by simp [hk]), List.filter_cons_of_neg (by simp [hk]), ih htail]

theorem pairwise_lt_dedupByKey (hl : l.Pairwise fun a b => key a ≤ key b) :
    (dedupByKey key l).Pairwise fun a b => key a < key b := by
  refine List.pairwise_iff_forall_sublist.mpr fun {a b} hab => ?_
  have hle : key a ≤ key b := (hl.sublist (dedupByKey_sublist key l)).forall_sublist hab
  refine lt_of_le_of_ne hle fun heq => ?_
  have htwo : [a, b].Sublist ((dedupByKey key l).filter (key · = key a)) := by
    simpa [heq] using hab.filter (key · = key a)
  have hone := htwo.length_le
  rw [filter_dedupByKey hl, List.length_take] at hone
  simp only [List.length_cons, List.length_nil] at hone
  omega

/-! ### Two keys -/

section

variable {ρ : Type*} [LinearOrder ρ] {key' : α → ρ}

/-- Rows, the first before the second, that the two keys put in one order: the second key may tie only
where the first agrees with the order of the rows. -/
def Agree (key : α → κ) (key' : α → ρ) (x y : α) : Prop :=
  key x < key y ∧ key' x ≤ key' y ∨ key y < key x ∧ key' y < key' x

instance (key : α → κ) (key' : α → ρ) : DecidableRel (Agree key key') := fun x y =>
  inferInstanceAs (Decidable (key x < key y ∧ key' x ≤ key' y ∨ key y < key x ∧ key' y < key' x))

/-- Where no two rows have one key, dropping the later rows of a key drops none. -/
theorem eq_sortByKey_of_take (hl' : l'.Pairwise fun a b => key a < key b)
    (htake : ∀ k, l'.filter (key · = k) = (l.filter (key · = k)).take 1)
    (hnodup : (l.map key).Nodup) : l' = sortByKey key l := by
  refine eq_of_filter_eq (hl'.imp le_of_lt) (pairwise_sortByKey key l) fun k => ?_
  rw [htake, filter_sortByKey]
  refine List.take_of_length_le ?_
  have hcount : (l.filter (key · = k)).length = (l.map key).count k := by
    rw [List.count, List.countP_map, List.countP_eq_length_filter]
    rfl
  rw [hcount]
  exact List.nodup_iff_count_le_one.mp hnodup k

/-- The stable sort by one key is the sort by another that keeps the first row of each key, exactly when
the keys agree on every two rows. -/
theorem sortByKey_eq_iff (hl' : l'.Pairwise fun a b => key a < key b)
    (htake : ∀ k, l'.filter (key · = k) = (l.filter (key · = k)).take 1) :
    sortByKey key' l = l' ↔ l.Pairwise (Agree key key') := by
  constructor
  · intro heq
    have hnodup : (l.map key).Nodup := by
      have hperm : (l.map key).Perm (l'.map key) := by
        rw [← heq]
        exact ((sortByKey_perm key' l).map key).symm
      exact hperm.nodup_iff.mpr (List.pairwise_map.mpr (hl'.imp ne_of_lt))
    have hsorted := eq_sortByKey_of_take hl' htake hnodup
    refine List.pairwise_iff_forall_sublist.mpr fun {x y} hxy => ?_
    have hne : key x ≠ key y := by
      have := hnodup.sublist (hxy.map key)
      simpa using this
    rcases le_or_gt (key' x) (key' y) with hle | hlt
    · have hkept := pair_sublist_sortByKey hle hxy
      rw [heq] at hkept
      exact .inl ⟨hl'.forall_sublist hkept, hle⟩
    · refine .inr ⟨lt_of_not_ge fun hle => ?_, hlt⟩
      have hkept := pair_sublist_sortByKey hle hxy
      rw [← hsorted, ← heq] at hkept
      exact absurd ((pairwise_sortByKey key' l).forall_sublist hkept) (not_le_of_gt hlt)
  · intro hagree
    have hnodup : (l.map key).Nodup := by
      rw [List.Nodup, List.pairwise_map]
      exact hagree.imp fun h => h.elim (fun h => ne_of_lt h.1) (fun h => ne_of_gt h.1)
    have hstrict : ∀ x ∈ l, ∀ y ∈ l, key' x < key' y → key x < key y := by
      refine List.Pairwise.forall_of_forall_of_flip (fun x _ h => absurd h (lt_irrefl _))
        (hagree.imp ?_) (hagree.imp ?_)
      · rintro x y (⟨hlt, -⟩ | ⟨-, hgt⟩) h
        · exact hlt
        · exact absurd h (not_lt_of_gt hgt)
      · rintro x y (⟨-, hle⟩ | ⟨hgt, -⟩) h
        · exact absurd h (not_lt_of_ge hle)
        · exact hgt
    have hsorted : (sortByKey key' l).Pairwise fun a b => key a < key b := by
      refine List.pairwise_iff_forall_sublist.mpr fun {x y} hxy => ?_
      have hmem : ∀ z ∈ [x, y], z ∈ l := fun z hz => (sortByKey_perm key' l).mem_iff.mp (hxy.subset hz)
      rcases lt_or_eq_of_le ((pairwise_sortByKey key' l).forall_sublist hxy) with hlt | heq
      · exact hstrict x (hmem x (by simp)) y (hmem y (by simp)) hlt
      · -- a tie keeps the order of the rows
        have hkept : [x, y].Sublist (l.filter (key' · = key' x)) := by
          rw [← filter_sortByKey]
          simpa [heq] using hxy.filter (key' · = key' x)
        rcases hagree.forall_sublist (hkept.trans List.filter_sublist) with ⟨hlt, -⟩ | ⟨-, hgt⟩
        · exact hlt
        · exact absurd heq (ne_of_gt hgt)
    have hperm : (sortByKey key' l).Perm l' := by
      rw [eq_sortByKey_of_take hl' htake hnodup]
      exact (sortByKey_perm key' l).trans (sortByKey_perm key l).symm
    exact hperm.eq_of_pairwise (fun a b _ _ hab hba => absurd hba (not_lt_of_gt hab)) hsorted hl'

end

end RithmicNt.Lib.StableSort
