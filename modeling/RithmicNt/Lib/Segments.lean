import Mathlib.Data.List.Basic

/-! Texts cut at a separator into segments, where empty segments and a single dot count for nothing:
the names along a path. -/

namespace RithmicNt.Lib

variable {α : Type*} {sep dot : α}

theorem any_intercalate {p : α → Bool} (hsep : p sep = false) (ss : List (List α)) :
    ([sep].intercalate ss).any p = ss.any (·.any p) := by
  induction ss with
  | nil => simp
  | cons s ss ih =>
    cases ss with
    | nil => simp
    | cons s' ss =>
      rw [List.intercalate_cons_cons, List.any_append, List.any_append, ih]
      simp [hsep]

/-- The first separator of a text ends its first part. -/
theorem append_sep_inj {a b r t : List α} (ha : sep ∉ a) (hb : sep ∉ b) :
    a ++ sep :: r = b ++ sep :: t ↔ a = b ∧ r = t := by
  refine ⟨fun h => ?_, fun ⟨hab, hrt⟩ => by rw [hab, hrt]⟩
  induction a generalizing b with
  | nil =>
    cases b with
    | nil => exact ⟨rfl, (List.cons.inj h).2⟩
    | cons y b => exact absurd (List.cons.inj h).1 fun hy => hb (by simp [hy])
  | cons x a ih =>
    cases b with
    | nil => exact absurd (List.cons.inj h).1.symm fun hx => ha (by simp [hx])
    | cons y b =>
      obtain ⟨rfl, htail⟩ := List.cons.inj h
      obtain ⟨rfl, hrest⟩ := ih (fun h => ha (by simp [h])) (fun h => hb (by simp [h])) htail
      exact ⟨rfl, hrest⟩

variable [DecidableEq α]

/-- The names along a path. -/
def segments (sep dot : α) (l : List α) : List (List α) :=
  (l.splitOn sep).filter fun s => s ≠ [] ∧ s ≠ [dot]

/-- A text that is one name. -/
structure IsSegment (sep dot : α) (s : List α) : Prop where
  sep : sep ∉ s
  nonempty : s ≠ []
  dot : s ≠ [dot]

@[simp] theorem segments_nil : segments sep dot [] = [] := by simp [segments]

theorem segments_append_sep (l m : List α) :
    segments sep dot (l ++ sep :: m) = segments sep dot l ++ segments sep dot m := by
  rw [segments, List.splitOn_append_cons_self, List.filter_append]
  rfl

@[simp] theorem segments_sep (m : List α) :
    segments sep dot (sep :: m) = segments sep dot m := by
  have h : segments sep dot ([] ++ sep :: m) = segments sep dot [] ++ segments sep dot m :=
    segments_append_sep [] m
  rwa [List.nil_append, segments_nil, List.nil_append] at h

theorem IsSegment.segments {s : List α} (h : IsSegment sep dot s) : segments sep dot s = [s] := by
  rw [Lib.segments, List.splitOn_eq_singleton h.sep, List.filter_cons_of_pos, List.filter_nil]
  simpa using ⟨h.nonempty, h.dot⟩

theorem notMem_of_mem_splitOn {l s : List α} (h : s ∈ l.splitOn sep) : sep ∉ s := by
  induction l generalizing s with
  | nil => simp_all
  | cons a l ih =>
    rw [List.splitOn_cons_eq_if_modifyHead] at h
    split at h
    · obtain rfl | h := List.mem_cons.mp h
      · simp
      · exact ih h
    · next hne =>
      obtain ⟨head, rest, hsplit⟩ := List.exists_cons_of_ne_nil (List.splitOn_ne_nil sep l)
      rw [hsplit] at h ih
      obtain rfl | h := List.mem_cons.mp h
      · rw [List.mem_cons]
        rintro (rfl | hmem)
        · simp at hne
        · exact ih (List.mem_cons_self ..) hmem
      · exact ih (List.mem_cons_of_mem _ h)

theorem isSegment_of_mem {l s : List α} (h : s ∈ segments sep dot l) : IsSegment sep dot s := by
  obtain ⟨hmem, hs⟩ := List.mem_filter.mp h
  obtain ⟨hnonempty, hdot⟩ := of_decide_eq_true hs
  exact ⟨notMem_of_mem_splitOn hmem, hnonempty, hdot⟩

/-- What separators and dots are not is found in the segments. -/
theorem any_segments {p : α → Bool} (hsep : p sep = false) (hdot : p dot = false) (l : List α) :
    (segments sep dot l).any (·.any p) = l.any p := by
  have hsplit := any_intercalate hsep (l.splitOn sep)
  rw [List.intercalate_splitOn] at hsplit
  rw [hsplit, segments, List.any_filter]
  congr 1
  funext s
  by_cases hs : s ≠ [] ∧ s ≠ [dot]
  · simp [hs]
  · rw [not_and_or, not_not, not_not] at hs
    obtain rfl | rfl := hs <;> simp [hdot]

/-- Names that are put together with separators come apart again. -/
theorem segments_intercalate {ss : List (List α)} (h : ∀ s ∈ ss, IsSegment sep dot s) :
    segments sep dot ([sep].intercalate ss) = ss := by
  induction ss with
  | nil => simp [List.intercalate]
  | cons s ss ih =>
    have hs := (h s (by simp)).segments
    have hss := ih fun s hs => h s (by simp [hs])
    cases ss with
    | nil => simpa [List.intercalate] using hs
    | cons s' ss =>
      rw [List.intercalate_cons_cons, List.append_assoc, List.singleton_append, segments_append_sep,
        hs, hss, List.singleton_append]

end RithmicNt.Lib
