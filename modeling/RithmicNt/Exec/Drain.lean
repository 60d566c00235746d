import Mathlib.Data.List.Induction
import RithmicNt.Lib.Dict
import RithmicNt.Exec.Notify

/-! Decisions about working-order drain rows: which rows to trust, which row wins per order, and when
a row must not move local state. -/

namespace RithmicNt.Exec

open RithmicNt.Lib

def trustworthyPriceTypes : List Int := [1, 2, 3, 4]

def trustworthyDurations : List Int := [1, 2, 3, 4]

def statusMarkers : List String := ["OPEN", "WORKING", "CANCEL", "REJECT", "EXPIRED", "TRIGGER"]

def hasPart (text part : String) : Bool :=
  text.toList.tails.any fun rest => part.toList.isPrefixOf rest

theorem hasPart_append (before part after : String) :
    hasPart (before ++ part ++ after) part = true := by
  refine List.any_eq_true.mpr ⟨part.toList ++ after.toList, ?_, ?_⟩
  · rw [List.mem_tails]
    exact ⟨before.toList, by simp⟩
  · exact List.isPrefixOf_iff_prefix.mpr (List.prefix_append _ _)

structure RowTerms where
  sideKnown : Bool
  priceType : Option Int
  duration : Option Int
  kind : Option OrderKind
  status : String

/-- A row binds a venue id only when its closed-set execution terms are real. -/
def rowIsTrustworthy (upper : Char → List Char) (terms : RowTerms) : Bool :=
  if !terms.sideKnown then false
  else match terms.priceType, terms.duration with
    | some priceType, some duration =>
      if priceType ∉ trustworthyPriceTypes ∨ duration ∉ trustworthyDurations then false
      else if terms.kind.any (· ≠ .other) then true
      else statusMarkers.any (hasPart (toUppercase upper terms.status))
    | _, _ => false

/-! ### The freshest row per key -/

/-- The loop body of `freshest_per_key`.  The keys of the dictionary are in order of their first
appearance. -/
def freshestStep (rows : List (String × Int)) (winner : Dict String Nat)
    (row : (String × Int) × Nat) : Dict String Nat :=
  let ((key, ts), index) := row
  match winner.get? key with
  | none => winner.set key index
  | some current =>
    match rows[current]? with
    | some (_, best) => if ts ≥ best then winner.set key index else winner
    | none => winner

/-- The index of the freshest row per key: the higher timestamp wins, and on an equal one the row
that arrived last. -/
def freshestPerKey (rows : List (String × Int)) : List Nat :=
  (rows.zipIdx.foldl (freshestStep rows) .empty).entries.map (·.2)

/-- Row `i` is the freshest of its key. -/
def Freshest (rows : List (String × Int)) (key : String) (i : Nat) : Prop :=
  ∃ ts, rows[i]? = some (key, ts) ∧
    ∀ j ts', rows[j]? = some (key, ts') → ts' < ts ∨ ts' = ts ∧ j ≤ i

/-- The dictionary of the loop after the rows `seen`: the freshest row of every key so far. -/
structure Winners (seen : List (String × Int)) (winner : Dict String Nat) : Prop where
  freshest : ∀ key i, winner.get? key = some i → Freshest seen key i
  all : ∀ (key : String) (j : Nat) (ts : Int), seen[j]? = some (key, ts) →
    (winner.get? key).isSome = true

theorem Freshest.lt_length {rows : List (String × Int)} {key : String} {i : Nat}
    (h : Freshest rows key i) : i < rows.length := by
  obtain ⟨ts, hi, -⟩ := h
  exact (List.getElem?_eq_some_iff.mp hi).1

theorem getElem?_snoc {α : Type*} {l : List α} {a x : α} {j : Nat} (h : (l ++ [a])[j]? = some x) :
    l[j]? = some x ∨ j = l.length ∧ x = a := by
  rw [List.getElem?_append] at h
  split at h
  · exact .inl h
  · next hlt =>
    have hj : j - l.length = 0 := by
      by_contra hne
      rw [List.getElem?_eq_none (by simp; omega)] at h
      cases h
    refine .inr ⟨by omega, ?_⟩
    simpa [hj] using h.symm

theorem Freshest.snoc {seen : List (String × Int)} {key : String} {i : Nat}
    (h : Freshest seen key i) (row : String × Int)
    (hrow : ∀ ts, seen[i]? = some (key, ts) → row.1 = key → row.2 < ts) :
    Freshest (seen ++ [row]) key i := by
  obtain ⟨ts, hi, hmax⟩ := h
  refine ⟨ts, ?_, fun j ts' hj => ?_⟩
  · rw [List.getElem?_append_left (List.getElem?_eq_some_iff.mp hi).1]
    exact hi
  · rcases getElem?_snoc hj with hj | ⟨-, heq⟩
    · exact hmax j ts' hj
    · subst heq
      exact .inl (hrow ts hi rfl)

theorem Freshest.last {seen : List (String × Int)} {row : String × Int}
    (h : ∀ (j : Nat) (ts' : Int), seen[j]? = some (row.1, ts') → ts' ≤ row.2) :
    Freshest (seen ++ [row]) row.1 seen.length := by
  refine ⟨row.2, by simp, fun j ts' hj => ?_⟩
  rcases getElem?_snoc hj with hj | ⟨rfl, heq⟩
  · have hle := h j ts' hj
    have hlt := (List.getElem?_eq_some_iff.mp hj).1
    omega
  · have : ts' = row.2 := by rw [← heq]
    omega

theorem Winners.step {rows seen : List (String × Int)} {winner : Dict String Nat}
    {row : String × Int} (hrows : seen <+: rows) (h : Winners seen winner) :
    Winners (seen ++ [row]) (freshestStep rows winner (row, seen.length)) := by
  obtain ⟨key, ts⟩ := row
  have hget : ∀ i, i < seen.length → rows[i]? = seen[i]? := by
    intro i hi
    obtain ⟨rest, rfl⟩ := hrows
    exact List.getElem?_append_left hi
  -- Either the new row becomes the winner of its key, or the winners stay.
  have hset : (∀ (j : Nat) (ts' : Int), seen[j]? = some (key, ts') → ts' ≤ ts) →
      Winners (seen ++ [(key, ts)]) (winner.set key seen.length) := by
    intro hmax
    refine ⟨fun key' i hi => ?_, fun key' j ts' hj => ?_⟩
    · rw [Dict.get?_set] at hi
      split at hi
      · next heq =>
        obtain rfl := Option.some.inj hi
        subst heq
        exact Freshest.last hmax
      · next hne => exact (h.freshest key' i hi).snoc _ fun _ _ heq => absurd heq.symm hne
    · rw [Dict.get?_set]
      split
      · rfl
      · next hne =>
        rcases getElem?_snoc hj with hj | ⟨-, heq⟩
        · exact h.all key' j ts' hj
        · exact absurd (Prod.mk.inj heq).1 hne
  unfold freshestStep
  dsimp only
  split
  · next hnone =>
    refine hset fun j ts' hj => ?_
    have := h.all key j ts' hj
    simp [hnone] at this
  · next current hcurrent =>
    have hlength := (h.freshest key current hcurrent).lt_length
    obtain ⟨best, hbest, hmax⟩ := h.freshest key current hcurrent
    rw [hget current hlength, hbest]
    dsimp only
    split
    · next hge =>
      refine hset fun j ts' hj => ?_
      have := hmax j ts' hj
      omega
    · next hlt =>
      refine ⟨fun key' i hi => (h.freshest key' i hi).snoc _ fun ts' hts' heq => ?_,
        fun key' j ts' hj => ?_⟩
      · obtain rfl : key = key' := heq
        obtain rfl : current = i := Option.some.inj (hcurrent.symm.trans hi)
        obtain rfl : best = ts' := (Prod.mk.inj (Option.some.inj (hbest.symm.trans hts'))).2
        exact Int.not_le.mp hlt
      · rcases getElem?_snoc hj with hj | ⟨-, heq⟩
        · exact h.all key' j ts' hj
        · obtain rfl := (Prod.mk.inj heq).1
          simp [hcurrent]

theorem freshest_winners {rows : List (String × Int)} (seen : List (String × Int))
    (hseen : seen <+: rows) :
    Winners seen (seen.zipIdx.foldl (freshestStep rows) .empty) := by
  induction seen using List.reverseRecOn with
  | nil => exact ⟨fun _ _ h => by simp at h, fun _ _ _ h => by simp at h⟩
  | append_singleton seen row ih =>
    have hprefix : seen <+: rows := (List.prefix_append seen [row]).trans hseen
    rw [List.zipIdx_append, List.foldl_append]
    simpa using (ih hprefix).step hprefix

theorem Freshest.unique {rows : List (String × Int)} {key : String} {i i' : Nat}
    (h : Freshest rows key i) (h' : Freshest rows key i') : i = i' := by
  obtain ⟨ts, hi, hmax⟩ := h
  obtain ⟨ts', hi', hmax'⟩ := h'
  have := hmax i' ts' hi'
  have := hmax' i ts hi
  omega

/-- The result holds the index of the freshest row of every key. -/
theorem mem_freshestPerKey_iff {rows : List (String × Int)} {i : Nat} :
    i ∈ freshestPerKey rows ↔ ∃ key, Freshest rows key i := by
  have h := freshest_winners rows List.prefix_rfl
  unfold freshestPerKey
  constructor
  · intro hi
    obtain ⟨⟨key, i⟩, hmem, rfl⟩ := List.mem_map.mp hi
    exact ⟨key, h.freshest key i (Dict.mem_entries_iff.mp hmem)⟩
  · rintro ⟨key, hfresh⟩
    obtain ⟨ts, hi, -⟩ := id hfresh
    obtain ⟨i', hi'⟩ := Option.isSome_iff_exists.mp (h.all key i ts hi)
    obtain rfl := hfresh.unique (h.freshest key i' hi')
    exact List.mem_map.mpr ⟨(key, i), Dict.mem_entries_iff.mpr hi', rfl⟩

/-! ### Stale rows -/

/-- What the adapter knows about a tracked order when it judges a drain row. -/
structure StaleFacts where
  orderClosed : Bool
  /-- At the re-arm barrier the live stream owns the state of tracked orders; in bulk recon the
  drain is an advisory snapshot. -/
  liveStreamAuthoritative : Bool
  reportNonTerminal : Bool
  rowTsNs : Int
  orderTsLastNs : Int

/-- Why a drain row must not advance local state; `none` forwards it. -/
def staleReason (facts : StaleFacts) : Option String :=
  if facts.orderClosed then
    if facts.liveStreamAuthoritative then some "order closed locally"
    else if facts.reportNonTerminal then some "non-terminal snapshot for locally closed order"
    else none
  else if facts.liveStreamAuthoritative ∧ facts.rowTsNs ≠ 0 ∧ facts.orderTsLastNs > facts.rowTsNs then
    some "live stream advanced past the snapshot"
  else none

/-- A row for a locally closed order that is not terminal is stale for both consumers. -/
theorem staleReason_of_closed {facts : StaleFacts} (hclosed : facts.orderClosed = true)
    (hnonTerminal : facts.reportNonTerminal = true) : (staleReason facts).isSome = true := by
  unfold staleReason
  rw [if_pos hclosed, if_pos hnonTerminal]
  split <;> rfl

end RithmicNt.Exec
