import Mathlib.Data.Finset.Card
import Mathlib.Data.List.Nodup

/-! Recency lists: the entries of a bounded map, the one used last in front.  A use of an entry brings
it to the front, and what does not fit the bound falls off the end. -/

namespace RithmicNt.Lib

variable {κ α : Type*}

namespace Recency

def keys (l : List (κ × α)) : List κ := l.map Prod.fst

/-- The entry of `k` is there, and what was used after it is among `others`. -/
def Behind (l : List (κ × α)) (k : κ) (others : Finset κ) : Prop :=
  ∃ front v rest, l = front ++ (k, v) :: rest ∧ ∀ x ∈ keys front, x ∈ others

theorem Behind.mem {l : List (κ × α)} {k : κ} {others : Finset κ} (h : Behind l k others) :
    k ∈ keys l := by
  obtain ⟨front, v, rest, rfl, -⟩ := h
  simp [keys]

theorem Behind.mono {l : List (κ × α)} {k : κ} {others others' : Finset κ}
    (h : Behind l k others) (hle : others ⊆ others') : Behind l k others' := by
  obtain ⟨front, v, rest, rfl, hfront⟩ := h
  exact ⟨front, v, rest, rfl, fun x hx => hle (hfront x hx)⟩

theorem behind_cons (l : List (κ × α)) (k : κ) (v : α) : Behind ((k, v) :: l) k ∅ :=
  ⟨[], v, l, rfl, by simp [keys]⟩

section

variable [DecidableEq κ]

def drop (l : List (κ × α)) (k : κ) : List (κ × α) := l.filter (·.1 ≠ k)

def get? (l : List (κ × α)) (k : κ) : Option α := (l.find? (·.1 = k)).map Prod.snd

/-- A use of `k`, where it is there. -/
def touch (l : List (κ × α)) (k : κ) : List (κ × α) :=
  match get? l k with
  | some v => (k, v) :: drop l k
  | none => l

def insert (bound : Nat) (l : List (κ × α)) (k : κ) (v : α) : List (κ × α) :=
  ((k, v) :: drop l k).take bound

theorem touch_of_miss {l : List (κ × α)} {k : κ} (h : (get? l k).isSome = false) :
    touch l k = l := by
  cases hget : get? l k with
  | none => simp only [touch, hget]
  | some v => simp [hget] at h

theorem get?_cons_self (l : List (κ × α)) (k : κ) (v : α) : get? ((k, v) :: l) k = some v := by
  simp [get?]

theorem get?_touch (l : List (κ × α)) (k : κ) : get? (touch l k) k = get? l k := by
  unfold touch
  split
  · next v hv => rw [get?_cons_self, hv]
  · rfl

theorem length_touch_le (l : List (κ × α)) (k : κ) : (touch l k).length ≤ l.length := by
  unfold touch
  split
  · next v hv =>
    obtain ⟨e, he, -⟩ := Option.map_eq_some_iff.mp hv
    have hlt : (drop l k).length < l.length := by
      refine List.length_filter_lt_length_iff_exists.mpr ⟨e, List.mem_of_find?_eq_some he, ?_⟩
      simpa using List.find?_some he
    exact hlt
  · exact Nat.le_refl _

/-- Where the list was within the bound, at most the entry used longest ago falls off. -/
theorem insert_eq {bound : Nat} {l : List (κ × α)} (h : l.length ≤ bound) (k : κ) (v : α) :
    insert bound l k v =
      if ((k, v) :: drop l k).length ≤ bound then (k, v) :: drop l k
      else ((k, v) :: drop l k).dropLast := by
  have hlength : (drop l k).length ≤ l.length := List.length_filter_le _ _
  unfold insert
  split
  · next hfits => exact List.take_of_length_le hfits
  · next hover =>
    rw [List.dropLast_eq_take]
    congr 1
    simp only [List.length_cons] at hover ⊢
    omega

/-! ### Keys -/

theorem mem_keys_drop {l : List (κ × α)} {k k' : κ} :
    k' ∈ keys (drop l k) ↔ k' ∈ keys l ∧ k' ≠ k := by
  simp [keys, drop]

theorem get?_isSome_iff {l : List (κ × α)} {k : κ} : (get? l k).isSome = true ↔ k ∈ keys l := by
  simp [get?, keys]

theorem mem_keys_touch {l : List (κ × α)} {k k' : κ} (h : k' ∈ keys (touch l k)) : k' ∈ keys l := by
  cases hhit : (get? l k).isSome with
  | false => rwa [touch_of_miss hhit] at h
  | true =>
    obtain ⟨v, hv⟩ := Option.isSome_iff_exists.mp hhit
    simp only [touch, hv] at h
    rcases List.mem_cons.mp h with rfl | h
    · exact get?_isSome_iff.mp hhit
    · exact (mem_keys_drop.mp h).1

theorem mem_keys_insert {bound : Nat} {l : List (κ × α)} {k k' : κ} {v : α}
    (h : k' ∈ keys (insert bound l k v)) : k' = k ∨ k' ∈ keys l := by
  have hmem : k' ∈ keys ((k, v) :: drop l k) := ((List.take_sublist _ _).map _).subset h
  rcases List.mem_cons.mp hmem with rfl | h
  · exact .inl rfl
  · exact .inr (mem_keys_drop.mp h).1

theorem nodup_drop {l : List (κ × α)} (h : (keys l).Nodup) (k : κ) : (keys (drop l k)).Nodup :=
  h.sublist (List.filter_sublist.map _)

theorem nodup_front {l : List (κ × α)} (h : (keys l).Nodup) (k : κ) (v : α) :
    (keys ((k, v) :: drop l k)).Nodup := by
  refine List.nodup_cons.mpr ⟨?_, nodup_drop h k⟩
  intro hmem
  exact (mem_keys_drop.mp hmem).2 rfl

theorem nodup_touch {l : List (κ × α)} (h : (keys l).Nodup) (k : κ) : (keys (touch l k)).Nodup := by
  unfold touch
  split
  · exact nodup_front h k _
  · exact h

theorem nodup_insert {l : List (κ × α)} (h : (keys l).Nodup) (bound : Nat) (k : κ) (v : α) :
    (keys (insert bound l k v)).Nodup :=
  (nodup_front h k v).sublist ((List.take_sublist _ _).map _)

/-! ### What stands in front of an entry -/

theorem Behind.drop {l : List (κ × α)} {k k' : κ} {others : Finset κ} (h : Behind l k others)
    (hne : k ≠ k') : Behind (drop l k') k others := by
  obtain ⟨front, v, rest, rfl, hfront⟩ := h
  refine ⟨Recency.drop front k', v, Recency.drop rest k', ?_, ?_⟩
  · simp [Recency.drop, hne]
  · intro x hx
    exact hfront x (mem_keys_drop.mp hx).1

theorem Behind.cons {l : List (κ × α)} {k : κ} {others : Finset κ} (h : Behind l k others)
    (k' : κ) (v' : α) : Behind ((k', v') :: l) k (Insert.insert k' others) := by
  obtain ⟨front, v, rest, rfl, hfront⟩ := h
  refine ⟨(k', v') :: front, v, rest, rfl, ?_⟩
  intro x hx
  rcases List.mem_cons.mp hx with rfl | hx
  · exact Finset.mem_insert_self _ _
  · exact Finset.mem_insert_of_mem (hfront x hx)

theorem behind_touch_self {l : List (κ × α)} {k : κ} (h : k ∈ keys l) :
    Behind (touch l k) k ∅ := by
  obtain ⟨v, hv⟩ := Option.isSome_iff_exists.mp (get?_isSome_iff.mpr h)
  simp only [touch, hv]
  exact behind_cons _ _ _

theorem Behind.touch {l : List (κ × α)} {k k' : κ} {others : Finset κ} (h : Behind l k others)
    (hne : k ≠ k') : Behind (touch l k') k (Insert.insert k' others) := by
  unfold Recency.touch
  split
  · exact (h.drop hne).cons _ _
  · exact h.mono (Finset.subset_insert _ _)

/-- An entry with fewer than `bound` others in front of it is not cut off. -/
theorem Behind.take {l : List (κ × α)} {k : κ} {others : Finset κ} {bound : Nat}
    (h : Behind l k others) (hnodup : (keys l).Nodup) (hbound : others.card < bound) :
    Behind (l.take bound) k others := by
  obtain ⟨front, v, rest, rfl, hfront⟩ := h
  have hlength : front.length < bound := by
    have hkeys : (keys front).Nodup := by
      simp only [keys, List.map_append, List.nodup_append] at hnodup ⊢
      exact hnodup.1
    calc front.length = (keys front).toFinset.card := by
          rw [List.toFinset_card_of_nodup hkeys, keys, List.length_map]
      _ ≤ others.card := Finset.card_le_card fun x hx => hfront x (List.mem_toFinset.mp hx)
      _ < bound := hbound
  obtain ⟨n, hn⟩ := Nat.exists_eq_add_of_lt hlength
  refine ⟨front, v, rest.take n, ?_, hfront⟩
  rw [hn, show front.length + n + 1 = front.length + (n + 1) by omega, List.take_length_add_append,
    List.take_succ_cons]

theorem behind_insert_self {bound : Nat} (l : List (κ × α)) (k : κ) (v : α) (hbound : 0 < bound) :
    Behind (insert bound l k v) k ∅ := by
  obtain ⟨n, rfl⟩ := Nat.exists_eq_succ_of_ne_zero (Nat.ne_of_gt hbound)
  exact behind_cons _ _ _

theorem Behind.insert {l : List (κ × α)} {k k' : κ} {others : Finset κ} {bound : Nat} {v' : α}
    (h : Behind l k others) (hnodup : (keys l).Nodup) (hne : k ≠ k')
    (hbound : (Insert.insert k' others).card < bound) :
    Behind (insert bound l k' v') k (Insert.insert k' others) :=
  ((h.drop hne).cons k' v').take (nodup_front hnodup k' v') hbound

end

/-! ### Logs

A store of keys that is asked before a key is added: every `mark` follows a `look` that missed. -/

inductive Use (κ : Type*)
  | look (k : κ) (hit : Bool)
  | mark (k : κ)
  deriving DecidableEq

/-- The key whose recency a use refreshes: a lookup that misses refreshes none. -/
def Use.touched : Use κ → Option κ
  | .look k hit => if hit then some k else none
  | .mark k => some k

def Use.marked : Use κ → Option κ
  | .look _ _ => none
  | .mark k => some k

/-- The keys that were added, in order. -/
def marks (uses : List (Use κ)) : List κ := uses.filterMap Use.marked

@[simp] theorem marks_append (uses more : List (Use κ)) :
    marks (uses ++ more) = marks uses ++ marks more :=
  List.filterMap_append

@[simp] theorem marks_look (k : κ) (hit : Bool) : marks [.look k hit] = [] := rfl

@[simp] theorem marks_look_mark (k : κ) (hit : Bool) : marks [.look k hit, .mark k] = [k] := rfl

section

variable [DecidableEq κ]

/-- The other keys that some uses touch. -/
def others (k : κ) (uses : List (Use κ)) : Finset κ :=
  ((uses.filterMap Use.touched).filter (· ≠ k)).toFinset

/-- `uses` lead an empty store to `l`. -/
inductive Log (bound : Nat) : List (Use κ) → List (κ × Unit) → Prop
  | nil : Log bound [] []
  | look {uses : List (Use κ)} {l : List (κ × Unit)} (k : κ) : Log bound uses l →
      Log bound (uses ++ [Use.look k (get? l k).isSome]) (touch l k)
  | mark {uses : List (Use κ)} {l : List (κ × Unit)} (k : κ) : Log bound uses l →
      (get? l k).isSome = false →
      Log bound (uses ++ [Use.look k false, .mark k]) (insert bound l k ())

/-- Between two lookups of `k` fewer than `bound` other keys are touched. -/
def Spaced (bound : Nat) (k : κ) (uses : List (Use κ)) : Prop :=
  ∀ before hit between hit' after,
    uses = before ++ Use.look k hit :: (between ++ Use.look k hit' :: after) →
      (∀ hit'', Use.look k hit'' ∉ between) → (others k between).card < bound

theorem Log.nodup {bound : Nat} {uses : List (Use κ)} {l : List (κ × Unit)}
    (h : Log bound uses l) : (keys l).Nodup := by
  induction h with
  | nil => simp [keys]
  | look k _ ih => exact nodup_touch ih k
  | mark k _ _ ih => exact nodup_insert ih bound k ()

theorem Log.mem_marks {bound : Nat} {uses : List (Use κ)} {l : List (κ × Unit)} {k : κ}
    (h : Log bound uses l) (hk : k ∈ keys l) : k ∈ marks uses := by
  induction h with
  | nil => simp [keys] at hk
  | look j _ ih => simpa using ih (mem_keys_touch hk)
  | mark j _ _ ih =>
    rw [marks_append, marks_look_mark, List.mem_append, List.mem_singleton]
    rcases mem_keys_insert hk with rfl | hk
    · exact .inr rfl
    · exact .inl (ih hk)

theorem spaced_of_card_lt {bound : Nat} {k : κ} {uses : List (Use κ)}
    (h : (others k uses).card < bound) : Spaced bound k uses := by
  rintro before hit between hit' after rfl -
  refine Nat.lt_of_le_of_lt (Finset.card_le_card ?_) h
  intro x hx
  simp only [others, List.mem_toFinset, List.mem_filter, List.mem_filterMap] at hx ⊢
  obtain ⟨⟨u, hu, htouched⟩, hne⟩ := hx
  exact ⟨⟨u, by simp [hu], htouched⟩, hne⟩

theorem Spaced.left {bound : Nat} {k : κ} {uses more : List (Use κ)}
    (h : Spaced bound k (uses ++ more)) : Spaced bound k uses := by
  intro before hit between hit' after heq
  exact h before hit between hit' (after ++ more) (by simp [heq])

theorem others_look (k j : κ) (hit : Bool) :
    others k [.look j hit] = if hit = true ∧ j ≠ k then {j} else ∅ := by
  cases hit
  · rfl
  · by_cases hjk : j = k <;> simp [others, Use.touched, hjk]

theorem others_look_mark {k j : κ} (hjk : j ≠ k) :
    others k [.look j false, .mark j] = {j} := by
  simp [others, Use.touched, hjk]

theorem others_append (k : κ) (uses more : List (Use κ)) :
    others k (uses ++ more) = others k uses ∪ others k more := by
  simp [others, List.filterMap_append]

/-- A key that was added once, and the store since its last lookup. -/
structure Kept (bound : Nat) (k : κ) (uses : List (Use κ)) (l : List (κ × Unit)) : Prop where
  once : (marks uses).count k = 1
  since : ∃ before hit tail, uses = before ++ Use.look k hit :: tail ∧
    (∀ hit', Use.look k hit' ∉ tail) ∧
    ((others k tail).card < bound → Behind l k (others k tail))

/-- A key of spaced lookups that was added is still there when it is next looked up. -/
theorem Kept.mem {bound : Nat} {k : κ} {uses after : List (Use κ)} {l : List (κ × Unit)} {hit : Bool}
    (h : Kept bound k uses l) (hspaced : Spaced bound k (uses ++ Use.look k hit :: after)) :
    k ∈ keys l := by
  obtain ⟨before, hit', tail, rfl, htail, hbehind⟩ := h.since
  refine (hbehind ?_).mem
  exact hspaced before hit' tail hit after (by simp) htail

theorem Kept.append {bound : Nat} {k : κ} {uses more : List (Use κ)} {l l' : List (κ × Unit)}
    (h : Kept bound k uses l) (hmarks : k ∉ marks more)
    (hlook : ∀ hit, Use.look k hit ∉ more)
    (hbehind : ∀ S : Finset κ, Behind l k S → (S ∪ others k more).card < bound →
      Behind l' k (S ∪ others k more)) : Kept bound k (uses ++ more) l' := by
  obtain ⟨before, hit, tail, rfl, htail, hkeep⟩ := h.since
  refine ⟨?_, before, hit, tail ++ more, by simp, ?_, ?_⟩
  · have honce := h.once
    simp only [marks_append, List.count_append] at honce ⊢
    rw [List.count_eq_zero_of_not_mem hmarks]
    omega
  · intro hit' hmem
    rcases List.mem_append.mp hmem with hmem | hmem
    · exact htail hit' hmem
    · exact hlook hit' hmem
  · rw [others_append]
    intro hcard
    refine hbehind _ (hkeep (Nat.lt_of_le_of_lt ?_ hcard)) hcard
    exact Finset.card_le_card Finset.subset_union_left

/-- A key of spaced lookups is added at most once. -/
theorem Log.kept {bound : Nat} {k : κ} {uses : List (Use κ)} {l : List (κ × Unit)}
    (h : Log bound uses l) (hspaced : Spaced bound k uses) :
    (marks uses).count k = 0 ∨ Kept bound k uses l := by
  induction h with
  | nil => exact .inl rfl
  | @look uses l j hlog ih =>
    rcases ih hspaced.left with hzero | hkept
    · left
      simpa using hzero
    · right
      by_cases hjk : j = k
      · subst hjk
        have hmem : j ∈ keys l := hkept.mem hspaced
        refine ⟨?_, uses, (get? l j).isSome, [], rfl, by simp, fun _ => ?_⟩
        · simpa using hkept.once
        · exact (behind_touch_self hmem).mono (by simp)
      · refine hkept.append (by simp) (by simp [Ne.symm hjk]) ?_
        intro S hS _
        cases hhit : (get? l j).isSome with
        | false =>
          rw [touch_of_miss hhit]
          exact hS.mono Finset.subset_union_left
        | true =>
          refine (hS.touch (Ne.symm hjk)).mono ?_
          simp [others_look, hjk]
  | @mark uses l j hlog hmiss ih =>
    rcases ih hspaced.left with hzero | hkept
    · by_cases hjk : j = k
      · right
        subst hjk
        refine ⟨by simp [hzero], uses, false, [.mark j], rfl, by simp, fun hcard => ?_⟩
        exact (behind_insert_self l j () (by omega)).mono (by simp)
      · left
        simp [hzero, hjk]
    · right
      by_cases hjk : j = k
      · subst hjk
        have hmem : j ∈ keys l := hkept.mem hspaced
        rw [← get?_isSome_iff, hmiss] at hmem
        cases hmem
      · refine hkept.append (by simp [Ne.symm hjk]) (by simp [Ne.symm hjk]) ?_
        rw [others_look_mark hjk]
        intro S hS hcard
        rw [Finset.union_comm, ← Finset.insert_eq] at hcard ⊢
        exact hS.insert hlog.nodup (Ne.symm hjk) hcard

theorem Log.count_marks_le_one {bound : Nat} {k : κ} {uses : List (Use κ)} {l : List (κ × Unit)}
    (h : Log bound uses l) (hspaced : Spaced bound k uses) : (marks uses).count k ≤ 1 := by
  rcases h.kept hspaced with hzero | hkept
  · omega
  · exact hkept.once.le

end

end Recency

end RithmicNt.Lib
