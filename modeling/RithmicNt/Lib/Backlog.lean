import Mathlib.Algebra.BigOperators.Group.List.Basic
import Mathlib.Algebra.GroupWithZero.Nat

/-! Bounded queues that drop their oldest items, and what their readers are owed: `Backlog` folds each
item past the bound into a record of losses, and `Accounted` says that every item of a sequence came
out in its place or is counted in a gap that stands where it was. -/

namespace RithmicNt.Lib

/-- The items that wait, oldest first, and what is recorded of the items that were dropped. -/
structure Backlog (α β : Type*) where
  items : List α
  loss : β

namespace Backlog

variable {α β : Type*} (lose : β → α → β) (bound : Nat)

/-- The oldest items go until the bound is kept. -/
def trim (b : Backlog α β) : Backlog α β where
  items := b.items.drop (b.items.length - bound)
  loss := (b.items.take (b.items.length - bound)).foldl lose b.loss

def push (b : Backlog α β) (xs : List α) : Backlog α β := trim lose bound ⟨b.items ++ xs, b.loss⟩

/-- The items that a push drops. -/
def dropped (b : Backlog α β) (xs : List α) : List α :=
  (b.items ++ xs).take ((b.items ++ xs).length - bound)

variable {lose bound} {b : Backlog α β} {xs ys : List α}

theorem append_eq_dropped : b.items ++ xs = b.dropped bound xs ++ (b.push lose bound xs).items := by
  unfold dropped push trim
  exact (List.take_append_drop _ _).symm

theorem loss_push : (b.push lose bound xs).loss = (b.dropped bound xs).foldl lose b.loss := rfl

/-- Items that come in one after another leave the same backlog as items that come together. -/
theorem push_push :
    (b.push lose bound xs).push lose bound ys = b.push lose bound (xs ++ ys) := by
  have hlen : (b.push lose bound xs).items.length =
      (b.items ++ xs).length - ((b.items ++ xs).length - bound) := by
    simp [push, trim]
  have hsplit : (b.items ++ xs ++ ys).length - bound = ((b.items ++ xs).length - bound) +
      (((b.push lose bound xs).items ++ ys).length - bound) := by
    simp only [List.length_append, hlen]
    omega
  have hitems : (b.push lose bound xs).items ++ ys =
      (b.items ++ xs ++ ys).drop ((b.items ++ xs).length - bound) := by
    rw [List.drop_append_of_le_length (by omega)]
    rfl
  have hloss : (b.push lose bound xs).loss =
      ((b.items ++ xs ++ ys).take ((b.items ++ xs).length - bound)).foldl lose b.loss := by
    rw [List.take_append_of_le_length (by omega)]
    rfl
  show (⟨_, _⟩ : Backlog α β) = ⟨_, _⟩
  rw [Backlog.mk.injEq]
  simp only
  rw [hloss, ← List.append_assoc, hsplit]
  constructor
  · rw [← List.drop_drop, ← hitems]
  · rw [List.take_add, List.foldl_append, ← hitems]

end Backlog

/-! ### Accounts -/

section Accounts

variable {ι : Type*} (gap : Nat → ι) (weight : ι → Nat)

def total (xs : List ι) : Nat := (xs.map weight).sum

/-- `Accounted gap weight xs out`: each entry of `out` is the item of `xs` at its place, or belongs to
a run of gaps that stands for a run of items and counts their weight. -/
inductive Accounted : List ι → List ι → Prop
  | nil : Accounted [] []
  | kept (x : ι) {xs out : List ι} : Accounted xs out → Accounted (x :: xs) (x :: out)
  | gaps {lost gs xs out : List ι} : lost ≠ [] → gs ≠ [] → (∀ g ∈ gs, ∃ n, g = gap n) →
      total weight lost = total weight gs → Accounted xs out → Accounted (lost ++ xs) (gs ++ out)

variable {gap weight} {xs ys out out' : List ι}

@[simp] theorem total_nil : total weight [] = 0 := rfl

@[simp] theorem total_cons (x : ι) (xs : List ι) :
    total weight (x :: xs) = weight x + total weight xs := by
  simp [total]

@[simp] theorem total_append (xs ys : List ι) :
    total weight (xs ++ ys) = total weight xs + total weight ys := by
  simp [total]

namespace Accounted

theorem append (h : Accounted gap weight xs out) (h' : Accounted gap weight ys out') :
    Accounted gap weight (xs ++ ys) (out ++ out') := by
  induction h with
  | nil => exact h'
  | kept x _ ih => exact ih.kept x
  | gaps hlost hgs hall htotal _ ih =>
    rw [List.append_assoc, List.append_assoc]
    exact ih.gaps hlost hgs hall htotal

theorem refl (xs : List ι) : Accounted gap weight xs xs := by
  induction xs with
  | nil => exact .nil
  | cons x xs ih => exact ih.kept x

/-- One gap for a run of items. -/
theorem lost (hgap : ∀ n, weight (gap n) = n) (hxs : xs ≠ []) :
    Accounted gap weight xs [gap (total weight xs)] := by
  have h : Accounted gap weight (xs ++ []) ([gap (total weight xs)] ++ []) := by
    refine .gaps hxs (by simp) ?_ ?_ .nil
    · intro g hg
      exact ⟨_, List.mem_singleton.mp hg⟩
    · simp [hgap]
  simpa using h

theorem eq_nil (h : Accounted gap weight xs []) : xs = [] := by
  generalize hout : ([] : List ι) = out at h
  cases h with
  | nil => rfl
  | kept x _ => cases hout
  | gaps _ hgs => exact absurd (List.append_eq_nil_iff.mp hout.symm).1 hgs

/-- What came out weighs what went in. -/
theorem total_eq (h : Accounted gap weight xs out) : total weight xs = total weight out := by
  induction h with
  | nil => rfl
  | kept x _ ih => simp [ih]
  | gaps _ _ _ htotal _ ih => simp [htotal, ih]

/-- An account is cut at an item that is no gap. -/
theorem split {x : ι} (hx : ∀ n, x ≠ gap n) {zs : List ι}
    (h : Accounted gap weight zs (out ++ x :: out')) :
    ∃ xs ys, zs = xs ++ x :: ys ∧ Accounted gap weight xs out ∧ Accounted gap weight ys out' := by
  generalize hz : out ++ x :: out' = all at h
  induction h generalizing out with
  | nil => simp at hz
  | @kept y xs rest h ih =>
    cases out with
    | nil =>
      cases hz
      exact ⟨[], xs, rfl, .nil, h⟩
    | cons z out =>
      obtain ⟨rfl, hrest⟩ := List.cons.inj hz
      obtain ⟨xs, ys, rfl, hxs, hys⟩ := ih hrest
      exact ⟨z :: xs, ys, rfl, hxs.kept z, hys⟩
  | @gaps lost gs xs rest hlost hgs hall htotal h ih =>
    obtain ⟨mid, rfl, hrest⟩ | ⟨mid, rfl, hrest⟩ := List.append_eq_append_iff.mp hz
    · cases mid with
      | nil =>
        obtain ⟨xs, ys, rfl, hxs, hys⟩ := @ih [] hrest
        refine ⟨lost ++ xs, ys, by simp, ?_, hys⟩
        have := Accounted.gaps hlost hgs hall htotal hxs
        simpa using this
      | cons y mid =>
        cases hrest
        obtain ⟨n, hn⟩ := hall x (by simp)
        exact absurd hn (hx n)
    · obtain ⟨xs, ys, rfl, hxs, hys⟩ := ih hrest.symm
      exact ⟨lost ++ xs, ys, by simp, .gaps hlost hgs hall htotal hxs, hys⟩

/-- One more item is counted in a gap that only gaps follow. -/
theorem absorb (hgap : ∀ n, weight (gap n) = n) {n : Nat} {gs : List ι}
    (hgs : ∀ g ∈ gs, ∃ m, g = gap m) (x : ι)
    (h : Accounted gap weight xs (out ++ gap n :: gs)) :
    Accounted gap weight (xs ++ [x]) (out ++ gap (n + weight x) :: gs) := by
  generalize hz : out ++ gap n :: gs = all at h
  induction h generalizing out with
  | nil => simp at hz
  | @kept y xs rest h ih =>
    cases out with
    | nil =>
      -- the gap is a kept item: from it on everything is one run
      obtain ⟨rfl, rfl⟩ := List.cons.inj hz
      have hrun : Accounted gap weight ((gap n :: xs ++ [x]) ++ [])
          ((gap (n + weight x) :: gs) ++ []) := by
        refine .gaps (by simp) (by simp) ?_ ?_ .nil
        · intro g hg
          obtain rfl | hg := List.mem_cons.mp hg
          · exact ⟨_, rfl⟩
          · exact hgs g hg
        · have := h.total_eq
          simp [hgap]
          omega
      simpa using hrun
    | cons z out =>
      obtain ⟨rfl, hrest⟩ := List.cons.inj hz
      exact (ih hrest).kept z
  | @gaps lost gs' xs rest hlost hne hall htotal h ih =>
    obtain ⟨mid, rfl, hrest⟩ | ⟨mid, rfl, hrest⟩ := List.append_eq_append_iff.mp hz
    · cases mid with
      | nil =>
        have := Accounted.gaps hlost hne hall htotal (@ih [] hrest)
        simpa using this
      | cons y mid =>
        cases hrest
        have hrun : Accounted gap weight ((lost ++ xs ++ [x]) ++ [])
            ((out ++ gap (n + weight x) :: (mid ++ rest)) ++ []) := by
          refine .gaps (by simp) (by simp) ?_ ?_ .nil
          · intro g hg
            simp only [List.mem_append, List.mem_cons] at hg
            obtain hg | rfl | hg := hg
            · exact hall g (by simp [hg])
            · exact ⟨_, rfl⟩
            · exact hgs g (by simpa using hg)
          · have := h.total_eq
            simp [hgap] at htotal ⊢
            omega
        simpa using hrun
    · have := Accounted.gaps hlost hne hall htotal (ih hrest.symm)
      simpa using this

/-- An item that waits behind a gap, with only gaps between, is counted in it instead. -/
theorem drop_into (hgap : ∀ n, weight (gap n) = n) {n : Nat} {gs zs : List ι} {x : ι}
    (hx : ∀ n, x ≠ gap n) (hgs : ∀ g ∈ gs, ∃ m, g = gap m)
    (h : Accounted gap weight zs (out ++ gap n :: gs ++ x :: out')) :
    Accounted gap weight zs (out ++ gap (n + weight x) :: gs ++ out') := by
  obtain ⟨xs, ys, rfl, hxs, hys⟩ := split hx h
  have := (absorb hgap hgs x hxs).append hys
  simpa using this

/-- An item is replaced by a gap of its own. -/
theorem drop_alone (hgap : ∀ n, weight (gap n) = n) {zs : List ι} {x : ι} (hx : ∀ n, x ≠ gap n)
    (h : Accounted gap weight zs (out ++ x :: out')) :
    Accounted gap weight zs (out ++ gap (weight x) :: out') := by
  obtain ⟨xs, ys, rfl, hxs, hys⟩ := split hx h
  have hone : Accounted gap weight [x] [gap (total weight [x])] := lost hgap (by simp)
  have := hxs.append (hone.append hys)
  simpa using this

end Accounted

/-- How far the reads of a queue have come: all up to `done` is returned, `lost` is what the pending
gap of `count` stands for, and the items are queued. -/
def Owing (gap : Nat → ι) (weight : ι → Nat) (pushed returned items : List ι) (count : Nat) : Prop :=
  ∃ done lost, pushed = done ++ lost ++ items ∧ Accounted gap weight done returned ∧
    count = total weight lost ∧ (lost ≠ [] → 0 < count)

namespace Owing

variable {pushed returned items : List ι} {count : Nat}

theorem start : Owing gap weight [] [] [] 0 := ⟨[], [], rfl, .nil, rfl, by simp⟩

/-- What is returned and what is owed account for everything. -/
theorem account (hgap : ∀ n, weight (gap n) = n) (h : Owing gap weight pushed returned items count) :
    Accounted gap weight pushed
      (returned ++ ((if 0 < count then [gap count] else []) ++ items)) := by
  obtain ⟨done, lost, rfl, hdone, rfl, hpos⟩ := h
  rw [List.append_assoc]
  refine hdone.append ?_
  by_cases hlost : lost = []
  · subst hlost
    rw [if_neg (by simp)]
    exact .refl _
  · rw [if_pos (hpos hlost)]
    exact (Accounted.lost hgap hlost).append (.refl _)

theorem push (h : Owing gap weight pushed returned items count) (xs : List ι) :
    Owing gap weight (pushed ++ xs) returned (items ++ xs) count := by
  obtain ⟨done, lost, rfl, hdone, hcount, hpos⟩ := h
  exact ⟨done, lost, by simp, hdone, hcount, hpos⟩

/-- The oldest items go into the count, which must show it. -/
theorem drop {gone : List ι} (h : Owing gap weight pushed returned (gone ++ items) count)
    (hshows : gone ≠ [] → 0 < count + total weight gone) :
    Owing gap weight pushed returned items (count + total weight gone) := by
  obtain ⟨done, lost, rfl, hdone, rfl, hpos⟩ := h
  refine ⟨done, lost ++ gone, by simp, hdone, by simp, ?_⟩
  intro hne
  by_cases hgone : gone = []
  · have := hpos (by simpa [hgone] using hne)
    omega
  · exact hshows hgone

theorem takeGap (hgap : ∀ n, weight (gap n) = n) (h : Owing gap weight pushed returned items count)
    (hcount : 0 < count) : Owing gap weight pushed (returned ++ [gap count]) items 0 := by
  obtain ⟨done, lost, rfl, hdone, rfl, hpos⟩ := h
  have hlost : lost ≠ [] := by
    rintro rfl
    simp at hcount
  exact ⟨done ++ lost, [], by simp, hdone.append (Accounted.lost hgap hlost), rfl, by simp⟩

/-- Items are taken where no gap is pending. -/
theorem take {xs : List ι} (h : Owing gap weight pushed returned (xs ++ items) 0) :
    Owing gap weight pushed (returned ++ xs) items 0 := by
  obtain ⟨done, lost, rfl, hdone, hcount, hpos⟩ := h
  have hlost : lost = [] := by
    by_contra hne
    exact absurd (hpos hne) (Nat.lt_irrefl 0)
  subst hlost
  exact ⟨done ++ xs, [], by simp, hdone.append (.refl xs), rfl, by simp⟩

/-- An item may come out as a gap of its weight. -/
theorem recount (hgap : ∀ n, weight (gap n) = n) {x : ι}
    (h : Owing gap weight pushed (returned ++ [x]) items count) :
    Owing gap weight pushed (returned ++ [gap (weight x)]) items count := by
  obtain ⟨done, lost, hpushed, hdone, hcount, hpos⟩ := h
  refine ⟨done, lost, hpushed, ?_, hcount, hpos⟩
  by_cases hx : ∃ n, x = gap n
  · obtain ⟨n, rfl⟩ := hx
    rw [hgap]
    exact hdone
  · exact hdone.drop_alone hgap fun n hn => hx ⟨n, hn⟩

end Owing

end Accounts

end RithmicNt.Lib
