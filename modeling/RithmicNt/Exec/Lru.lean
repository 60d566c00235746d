import RithmicNt.Lib.Dict
import RithmicNt.Lib.Recency

/-! The bounded recency map of the fill dedup store and the untracked-status book: a hash map with the
tick of each entry's last use, and the ticks in order. -/

namespace RithmicNt.Exec

open RithmicNt.Lib

variable {α : Type}

/-- `clock` is a `u64` that only counts up (`clock_calls`). -/
structure Lru (α : Type) where
  entries : Dict String (α × Nat)
  /-- The keys by tick, the oldest first. -/
  byRecency : List (Nat × String)
  clock : Nat
  maxSize : Nat

namespace Lru

def new (maxSize : Nat) : Lru α := ⟨.empty, [], 0, maxSize⟩

def insertTick (tick : Nat) (key : String) : List (Nat × String) → List (Nat × String)
  | [] => [(tick, key)]
  | (t, k) :: rest =>
    if tick < t then (tick, key) :: (t, k) :: rest
    else if tick = t then (tick, key) :: rest
    else (t, k) :: insertTick tick key rest

def removeTick (ticks : List (Nat × String)) (tick : Nat) : List (Nat × String) :=
  ticks.filter (·.1 ≠ tick)

def touch (m : Lru α) (key : String) : Lru α :=
  let clock := m.clock + 1
  match m.entries.get? key with
  | some (v, tick) =>
    { m with
      clock := clock
      entries := m.entries.set key (v, clock)
      byRecency := insertTick clock key (removeTick m.byRecency tick) }
  | none => { m with clock := clock }

def contains (m : Lru α) (key : String) : Bool := (m.entries.get? key).isSome

/-- Whether `key` is present; refreshes recency on a hit. -/
def has (m : Lru α) (key : String) : Lru α × Bool :=
  if m.contains key then (m.touch key, true) else (m, false)

/-- The stored value; refreshes recency on a hit. -/
def get (m : Lru α) (key : String) : Lru α × Option α :=
  if m.contains key then (m.touch key, ((m.touch key).entries.get? key).map Prod.fst) else (m, none)

/-- The loop of `insert`: the oldest entries leave until the bound is met. -/
def evict (maxSize : Nat) (entries : Dict String (α × Nat)) :
    List (Nat × String) → Dict String (α × Nat) × List (Nat × String)
  | [] => (entries, [])
  | (tick, oldest) :: rest =>
    if entries.entries.length > maxSize then
      evict maxSize (entries.filter fun entry => entry.1 ≠ oldest) rest
    else (entries, (tick, oldest) :: rest)

/-- Record `key`, refresh recency, and evict the oldest past the bound. -/
def insert (m : Lru α) (key : String) (value : α) : Lru α :=
  let clock := m.clock + 1
  let ticks := match m.entries.get? key with
    | some (_, oldTick) => removeTick m.byRecency oldTick
    | none => m.byRecency
  let (entries, byRecency) :=
    evict m.maxSize (m.entries.set key (value, clock)) (insertTick clock key ticks)
  { m with clock := clock, entries := entries, byRecency := byRecency }

/-! ### The order of use -/

/-- The map holds the entries of `l`, the one used last in front. -/
structure Orders (m : Lru α) (l : List (String × α)) : Prop where
  order : m.byRecency.map Prod.snd = (Recency.keys l).reverse
  ticks : (m.byRecency.map Prod.fst).Pairwise (· < ·)
  clock : ∀ p ∈ m.byRecency, p.1 ≤ m.clock
  entry : ∀ k v t, m.entries.get? k = some (v, t) ↔ (t, k) ∈ m.byRecency ∧ (k, v) ∈ l
  nodup : (Recency.keys l).Nodup

theorem orders_new (maxSize : Nat) : (new maxSize : Lru α).Orders [] where
  order := rfl
  ticks := by simp [new]
  clock := by simp [new]
  entry := by simp [new]
  nodup := by simp [Recency.keys]

theorem insertTick_eq_append {tick : Nat} {key : String} {ticks : List (Nat × String)}
    (h : ∀ p ∈ ticks, p.1 < tick) : insertTick tick key ticks = ticks ++ [(tick, key)] := by
  induction ticks with
  | nil => rfl
  | cons p rest ih =>
    have hp := h p List.mem_cons_self
    unfold insertTick
    rw [if_neg (by omega), if_neg (by omega), ih fun q hq => h q (List.mem_cons_of_mem _ hq)]
    rfl

namespace Orders

variable {m : Lru α} {l : List (String × α)} (h : m.Orders l)

include h

theorem mem_keys_iff {k : String} : k ∈ Recency.keys l ↔ ∃ t, (t, k) ∈ m.byRecency := by
  rw [← List.mem_reverse, ← h.order]
  simp

theorem get?_eq_some_iff {k : String} {v : α} : Recency.get? l k = some v ↔ (k, v) ∈ l :=
  (Dict.mem_entries_iff (d := ⟨l, h.nodup⟩)).symm

theorem get?_entries (k : String) : (m.entries.get? k).map Prod.fst = Recency.get? l k := by
  apply Option.ext
  intro v
  rw [h.get?_eq_some_iff, Option.map_eq_some_iff]
  constructor
  · rintro ⟨⟨v', t⟩, hget, rfl⟩
    exact ((h.entry k v' t).mp hget).2
  · intro hmem
    obtain ⟨t, ht⟩ := h.mem_keys_iff.mp (List.mem_map_of_mem hmem)
    exact ⟨(v, t), (h.entry k v t).mpr ⟨ht, hmem⟩, rfl⟩

theorem contains_eq (k : String) : m.contains k = (Recency.get? l k).isSome := by
  rw [← h.get?_entries k, Option.isSome_map]
  rfl

theorem length_entries : m.entries.entries.length = l.length := by
  have hperm : m.entries.keys.Perm (Recency.keys l) := by
    refine (List.perm_ext_iff_of_nodup m.entries.nodup h.nodup).mpr fun k => ?_
    show k ∈ m.entries.keys ↔ k ∈ Recency.keys l
    rw [Dict.mem_keys_iff, ← Recency.get?_isSome_iff, ← h.contains_eq k]
    rfl
  have hlength := hperm.length_eq
  simpa [Dict.keys, Recency.keys] using hlength

theorem tick_iff {k : String} {t : Nat} (htick : (t, k) ∈ m.byRecency) {p : Nat × String}
    (hp : p ∈ m.byRecency) : p.1 = t ↔ p.2 = k := by
  have hfst : (m.byRecency.map Prod.fst).Nodup := h.ticks.imp Nat.ne_of_lt
  have hsnd : (m.byRecency.map Prod.snd).Nodup := by
    rw [h.order]
    exact List.nodup_reverse.mpr h.nodup
  constructor
  · intro heq
    rw [List.inj_on_of_nodup_map hfst hp htick heq]
  · intro heq
    rw [List.inj_on_of_nodup_map hsnd hp htick heq]

theorem removed (k : String) :
    (match m.entries.get? k with
      | some (_, tick) => removeTick m.byRecency tick
      | none => m.byRecency) = m.byRecency.filter (·.2 ≠ k) := by
  cases hget : m.entries.get? k with
  | none =>
    refine (List.filter_eq_self.mpr fun p hp => ?_).symm
    have hnot : k ∉ Recency.keys l := by
      rw [← Recency.get?_isSome_iff, ← h.contains_eq k]
      simp [contains, hget]
    simpa using fun heq : p.2 = k => hnot (h.mem_keys_iff.mpr ⟨p.1, by simpa [← heq] using hp⟩)
  | some entry =>
    obtain ⟨v, t⟩ := entry
    refine List.filter_congr fun p hp => ?_
    simpa using h.tick_iff ((h.entry k v t).mp hget).1 hp

/-- A use of `k` with the next tick puts it in front. -/
theorem refresh (k : String) (v : α) :
    Orders ⟨m.entries.set k (v, m.clock + 1),
      insertTick (m.clock + 1) k (m.byRecency.filter (·.2 ≠ k)), m.clock + 1, m.maxSize⟩
      ((k, v) :: Recency.drop l k) := by
  have hlate : ∀ p ∈ m.byRecency.filter (·.2 ≠ k), p.1 < m.clock + 1 := by
    intro p hp
    have := h.clock p (List.mem_of_mem_filter hp)
    omega
  rw [insertTick_eq_append hlate]
  constructor
  · have hticks : (m.byRecency.filter (·.2 ≠ k)).map Prod.snd =
        (m.byRecency.map Prod.snd).filter (· ≠ k) := by
      rw [List.filter_map]
      rfl
    have hkeys : Recency.keys (Recency.drop l k) = (Recency.keys l).filter (· ≠ k) := by
      unfold Recency.keys Recency.drop
      rw [List.filter_map]
      rfl
    show (m.byRecency.filter (·.2 ≠ k) ++ [(m.clock + 1, k)]).map Prod.snd =
      (k :: Recency.keys (Recency.drop l k)).reverse
    rw [List.map_append, hticks, h.order, List.reverse_cons, hkeys, List.filter_reverse]
    rfl
  · show ((m.byRecency.filter (·.2 ≠ k) ++ [(m.clock + 1, k)]).map Prod.fst).Pairwise (· < ·)
    rw [List.map_append, List.pairwise_append]
    refine ⟨h.ticks.sublist (List.filter_sublist.map _), by simp, ?_⟩
    intro t ht t' ht'
    obtain ⟨p, hp, rfl⟩ := List.mem_map.mp ht
    obtain rfl := List.mem_singleton.mp ht'
    exact hlate p hp
  · intro p hp
    rcases List.mem_append.mp hp with hp | hp
    · exact Nat.le_of_lt (hlate p hp)
    · obtain rfl := List.mem_singleton.mp hp
      exact Nat.le_refl _
  · intro k' v' t
    simp only [Dict.get?_set, List.mem_append, List.mem_filter, List.mem_cons,
      Recency.drop, decide_eq_true_eq, Prod.mk.injEq]
    by_cases hk : k' = k
    · subst hk
      simp [eq_comm, and_comm]
    · simp [hk, h.entry k' v' t]
  · exact Recency.nodup_front h.nodup k v

theorem touch {k : String} : (m.touch k).Orders (Recency.touch l k) := by
  have hremoved := h.removed k
  have hvalue := h.get?_entries k
  unfold Lru.touch Recency.touch
  cases hget : m.entries.get? k with
  | none =>
    rw [hget, Option.map_none] at hvalue
    rw [← hvalue]
    exact ⟨h.order, h.ticks, fun p hp => Nat.le_succ_of_le (h.clock p hp), h.entry, h.nodup⟩
  | some entry =>
    obtain ⟨v, t⟩ := entry
    rw [hget] at hremoved hvalue
    rw [← hvalue]
    dsimp only [Option.map_some] at hremoved ⊢
    rw [hremoved]
    exact h.refresh k v

theorem has (k : String) :
    (m.has k).1.Orders (Recency.touch l k) ∧ (m.has k).2 = (Recency.get? l k).isSome := by
  unfold Lru.has
  cases hhit : m.contains k with
  | true => exact ⟨h.touch, by rw [← h.contains_eq k, hhit]; rfl⟩
  | false =>
    rw [h.contains_eq k] at hhit
    rw [Recency.touch_of_miss hhit, hhit]
    exact ⟨h, rfl⟩

end Orders

theorem Orders.pop {maxSize clock tick : Nat} {oldest : String} {rest : List (Nat × String)}
    {entries : Dict String (α × Nat)} {l : List (String × α)}
    (h : Orders ⟨entries, (tick, oldest) :: rest, clock, maxSize⟩ l) :
    Orders ⟨entries.filter fun entry => entry.1 ≠ oldest, rest, clock, maxSize⟩ l.dropLast := by
  have horder : oldest :: rest.map Prod.snd = (Recency.keys l).reverse := h.order
  rcases List.eq_nil_or_concat' l with rfl | ⟨l', ⟨k, v⟩, rfl⟩
  · cases horder
  · simp only [Recency.keys, List.map_append, List.map_cons, List.map_nil, List.reverse_append,
      List.reverse_cons, List.reverse_nil, List.nil_append, List.cons_append,
      List.cons.injEq] at horder
    obtain ⟨rfl, hrest⟩ := horder
    have hnodup : (Recency.keys l' ++ [oldest]).Nodup := by
      simpa [Recency.keys] using h.nodup
    have hfresh : oldest ∉ Recency.keys l' := fun hmem =>
      (List.nodup_append.mp hnodup).2.2 oldest hmem oldest (List.mem_singleton.mpr rfl) rfl
    rw [List.dropLast_concat]
    refine ⟨hrest, (List.pairwise_cons.mp h.ticks).2, fun p hp => h.clock p (List.mem_cons_of_mem _ hp),
      fun k v' t => ?_, (List.nodup_append.mp hnodup).1⟩
    rw [Dict.get?_filter, h.entry k v' t]
    simp only [List.mem_cons, Prod.mk.injEq, List.mem_append, List.not_mem_nil, or_false,
      decide_eq_true_eq]
    constructor
    · rintro ⟨⟨htick, hmem⟩, hne⟩
      exact ⟨htick.resolve_left fun heq => hne heq.2, hmem.resolve_right fun heq => hne heq.1⟩
    · rintro ⟨htick, hmem⟩
      exact ⟨⟨.inr htick, .inl hmem⟩, fun heq => hfresh (heq ▸ List.mem_map_of_mem hmem)⟩

theorem Orders.evict {maxSize clock : Nat} {ticks : List (Nat × String)}
    {entries : Dict String (α × Nat)} {l : List (String × α)}
    (h : Orders ⟨entries, ticks, clock, maxSize⟩ l) :
    Orders ⟨(Lru.evict maxSize entries ticks).1, (Lru.evict maxSize entries ticks).2, clock, maxSize⟩
      (l.take maxSize) := by
  induction ticks generalizing entries l with
  | nil =>
    have hnil : l = [] := by
      have hlength := congrArg List.length h.order
      simp only [List.map_nil, List.length_nil, List.length_reverse, Recency.keys,
        List.length_map] at hlength
      exact List.length_eq_zero_iff.mp hlength.symm
    rw [hnil, List.take_nil]
    exact hnil ▸ h
  | cons p rest ih =>
    obtain ⟨t, oldest⟩ := p
    have hlength : entries.entries.length = l.length := h.length_entries
    unfold Lru.evict
    split
    · next hover =>
      have htake : l.dropLast.take maxSize = l.take maxSize := by
        rw [List.dropLast_eq_take, List.take_take, Nat.min_eq_left (by omega)]
      rw [← htake]
      exact ih h.pop
    · next hfits =>
      rw [List.take_of_length_le (by omega)]
      exact h

theorem Orders.insert {m : Lru α} {l : List (String × α)} (h : m.Orders l) (k : String) (v : α) :
    (m.insert k v).Orders (Recency.insert m.maxSize l k v) := by
  have hremoved := h.removed k
  unfold Lru.insert Recency.insert
  dsimp only
  rw [hremoved]
  exact (h.refresh k v).evict

@[simp] theorem maxSize_has (m : Lru α) (k : String) : (m.has k).1.maxSize = m.maxSize := by
  unfold has touch
  repeat' split
  all_goals rfl

@[simp] theorem maxSize_insert (m : Lru α) (k : String) (v : α) :
    (m.insert k v).maxSize = m.maxSize := rfl

end Lru

end RithmicNt.Exec
