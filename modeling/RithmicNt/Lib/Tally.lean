import RithmicNt.Lib.Dict

/-! How many holders each key has: a map of counts that keeps no entry for a key without a holder,
so that the first holder makes the entry and the last one takes it away. -/

namespace RithmicNt.Lib

structure Tally (κ : Type*) [DecidableEq κ] where
  entries : Dict κ Nat
  pos : ∀ k n, entries.get? k = some n → 0 < n

namespace Tally

variable {κ : Type*} [DecidableEq κ]

def empty : Tally κ := ⟨.empty, by simp⟩

def count (t : Tally κ) (k : κ) : Nat := (t.entries.get? k).getD 0

def contains (t : Tally κ) (k : κ) : Bool := (t.entries.get? k).isSome

def keys (t : Tally κ) : List κ := t.entries.keys

theorem pos_set {d : Dict κ Nat} (hd : ∀ k n, d.get? k = some n → 0 < n) (k : κ) {n : Nat}
    (hn : 0 < n) : ∀ k' m, (d.set k n).get? k' = some m → 0 < m := by
  intro k' m hm
  rw [Dict.get?_set] at hm
  split at hm
  · cases hm
    exact hn
  · exact hd k' m hm

theorem pos_filter {d : Dict κ Nat} (hd : ∀ k n, d.get? k = some n → 0 < n)
    (p : κ × Nat → Bool) : ∀ k n, (d.filter p).get? k = some n → 0 < n :=
  fun k n h => hd k n (Dict.get?_filter.mp h).1

/-- One more holder of `k`, and whether it is the first. -/
def bump (t : Tally κ) (k : κ) : Tally κ × Bool :=
  (⟨t.entries.set k (t.count k + 1), pos_set t.pos k (by omega)⟩, t.count k + 1 == 1)

/-- One holder of `k` less, and whether it was the last; nothing where `k` has no entry. -/
def drop (t : Tally κ) (k : κ) : Tally κ × Bool :=
  if h : t.contains k ∧ 0 < t.count k - 1 then
    (⟨t.entries.set k (t.count k - 1), pos_set t.pos k h.2⟩, false)
  else if t.contains k then
    (⟨t.entries.filter fun e => e.1 ≠ k, pos_filter t.pos _⟩, true)
  else (t, false)

theorem contains_iff {t : Tally κ} {k : κ} : t.contains k = true ↔ 0 < t.count k := by
  unfold contains count
  cases h : t.entries.get? k with
  | none => simp
  | some n => simpa using t.pos k n h

theorem mem_keys_iff {t : Tally κ} {k : κ} : k ∈ t.keys ↔ 0 < t.count k := by
  rw [← contains_iff]
  exact Dict.mem_keys_iff

theorem nodup_keys (t : Tally κ) : t.keys.Nodup := t.entries.nodup

@[simp] theorem count_empty (k : κ) : (empty : Tally κ).count k = 0 := rfl

theorem count_bump (t : Tally κ) (k j : κ) :
    (t.bump k).1.count j = t.count j + if j = k then 1 else 0 := by
  show ((t.entries.set k (t.count k + 1)).get? j).getD 0 = _
  rw [Dict.get?_set]
  by_cases h : j = k
  · subst h
    simp
  · simp [h, count]

theorem bump_first (t : Tally κ) (k : κ) : (t.bump k).2 = decide (t.count k = 0) := by
  simp [bump, beq_eq_decide]

theorem count_drop (t : Tally κ) (k j : κ) :
    (t.drop k).1.count j = t.count j - if j = k then 1 else 0 := by
  unfold drop
  by_cases hk : t.contains k
  · have hcount := contains_iff.mp hk
    split
    · show ((t.entries.set k (t.count k - 1)).get? j).getD 0 = _
      rw [Dict.get?_set]
      by_cases h : j = k
      · subst h
        simp
      · simp [h, count]
    · next hlast =>
      have hone : t.count k = 1 := by
        have : ¬ 0 < t.count k - 1 := fun hlt => hlast ⟨hk, hlt⟩
        omega
      show ((t.entries.filter fun e => e.1 ≠ k).get? j).getD 0 = _
      by_cases h : j = k
      · subst h
        have hnone : (t.entries.filter fun e => e.1 ≠ j).get? j = none := by
          refine Option.eq_none_iff_forall_not_mem.mpr ?_
          intro n hn
          have := (Dict.get?_filter.mp hn).2
          simp at this
        rw [hnone]
        simp [hone]
      · have hsame : (t.entries.filter fun e => e.1 ≠ k).get? j = t.entries.get? j := by
          apply Option.ext
          intro n
          rw [Dict.get?_filter]
          simp [h]
        rw [hsame]
        simp [h, count]
  · have hzero : t.count k = 0 := by
      by_contra hne
      exact hk (contains_iff.mpr (by omega))
    rw [dif_neg (fun h => hk h.1), if_neg hk]
    by_cases h : j = k
    · subst h
      simp [hzero]
    · simp [h]

theorem drop_last (t : Tally κ) (k : κ) : (t.drop k).2 = decide (t.count k = 1) := by
  unfold drop
  by_cases hk : t.contains k
  · have hcount := contains_iff.mp hk
    split
    · next h =>
      have : t.count k ≠ 1 := by omega
      simp [this]
    · next h =>
      have : ¬ 0 < t.count k - 1 := fun hlt => h ⟨hk, hlt⟩
      have hone : t.count k = 1 := by omega
      simp [hone]
  · have hzero : ¬ t.count k = 1 := by
      intro hone
      exact hk (contains_iff.mpr (by omega))
    simp [hk, hzero]

end Tally

end RithmicNt.Lib
