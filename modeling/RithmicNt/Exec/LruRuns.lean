import RithmicNt.Exec.Lru

/-! The bounded recency map over whole runs of its calls, against the list of its entries in the order of
their last use. -/

namespace RithmicNt.Exec.Lru

open RithmicNt.Lib

variable {α : Type}

/-- Forgets the entries; the clock goes on. -/
def clear (m : Lru α) : Lru α := { m with entries := .empty, byRecency := [] }

def len (m : Lru α) : Nat := m.entries.entries.length

inductive Op (α : Type)
  | has (key : String)
  | get (key : String)
  | insert (key : String) (value : α)
  | clear
  | len

inductive Answer (α : Type)
  | hit (b : Bool)
  | value (v : Option α)
  | done
  | size (n : Nat)

def call (m : Lru α) : Op α → Lru α × Answer α
  | .has key => ((m.has key).1, .hit (m.has key).2)
  | .get key => ((m.get key).1, .value (m.get key).2)
  | .insert key value => (m.insert key value, .done)
  | .clear => (m.clear, .done)
  | .len => (m, .size m.len)

def calls (m : Lru α) : List (Op α) → Lru α × List (Answer α)
  | [] => (m, [])
  | op :: ops =>
    let (m, answer) := m.call op
    let (m, answers) := calls m ops
    (m, answer :: answers)

/-! ### The reference list -/

/-- A call of a list of entries, the one used last in front. -/
def listCall (bound : Nat) (l : List (String × α)) : Op α → List (String × α) × Answer α
  | .has key => (Recency.touch l key, .hit (Recency.get? l key).isSome)
  | .get key => (Recency.touch l key, .value (Recency.get? l key))
  | .insert key value => (Recency.insert bound l key value, .done)
  | .clear => ([], .done)
  | .len => (l, .size l.length)

def listCalls (bound : Nat) (l : List (String × α)) : List (Op α) → List (String × α) × List (Answer α)
  | [] => (l, [])
  | op :: ops =>
    let (l, answer) := listCall bound l op
    let (l, answers) := listCalls bound l ops
    (l, answer :: answers)

/-! ### One call -/

theorem Orders.get {m : Lru α} {l : List (String × α)} (h : m.Orders l) (k : String) :
    (m.get k).1.Orders (Recency.touch l k) ∧ (m.get k).2 = Recency.get? l k := by
  unfold Lru.get
  cases hhit : m.contains k with
  | true =>
    refine ⟨h.touch, ?_⟩
    show ((m.touch k).entries.get? k).map Prod.fst = Recency.get? l k
    rw [h.touch.get?_entries, Recency.get?_touch]
  | false =>
    rw [h.contains_eq k] at hhit
    rw [Recency.touch_of_miss hhit]
    exact ⟨h, (Option.isNone_iff_eq_none.mp (Option.isSome_eq_false_iff.mp hhit)).symm⟩

theorem orders_clear (m : Lru α) : m.clear.Orders [] where
  order := rfl
  ticks := by simp [Lru.clear]
  clock := by simp [Lru.clear]
  entry := by simp [Lru.clear]
  nodup := by simp [Recency.keys]

/-- The map holds the entries of `l`, within its bound. -/
structure Bounded (m : Lru α) (l : List (String × α)) : Prop where
  orders : m.Orders l
  fits : l.length ≤ m.maxSize

theorem maxSize_get (m : Lru α) (k : String) : (m.get k).1.maxSize = m.maxSize := by
  unfold get touch
  repeat' split
  all_goals rfl

theorem maxSize_call (m : Lru α) (op : Op α) : (m.call op).1.maxSize = m.maxSize := by
  cases op with
  | has key => exact maxSize_has m key
  | get key => exact maxSize_get m key
  | insert key value => rfl
  | clear => rfl
  | len => rfl

theorem Bounded.call {m : Lru α} {l : List (String × α)} (h : m.Bounded l) (op : Op α) :
    (m.call op).1.Bounded (listCall m.maxSize l op).1 ∧
      (m.call op).2 = (listCall m.maxSize l op).2 := by
  have hsize := maxSize_call m op
  cases op with
  | has key =>
    obtain ⟨horders, hanswer⟩ := h.orders.has key
    refine ⟨⟨horders, ?_⟩, congrArg _ hanswer⟩
    rw [hsize]
    exact (Recency.length_touch_le l key).trans h.fits
  | get key =>
    obtain ⟨horders, hanswer⟩ := h.orders.get key
    refine ⟨⟨horders, ?_⟩, congrArg _ hanswer⟩
    rw [hsize]
    exact (Recency.length_touch_le l key).trans h.fits
  | insert key value =>
    refine ⟨⟨h.orders.insert key value, ?_⟩, rfl⟩
    exact List.length_take_le _ _
  | clear => exact ⟨⟨orders_clear m, Nat.zero_le _⟩, rfl⟩
  | len => exact ⟨h, congrArg _ h.orders.length_entries⟩

theorem bounded_new (maxSize : Nat) : (new maxSize : Lru α).Bounded [] where
  orders := orders_new maxSize
  fits := Nat.zero_le _

/-! ### Runs -/

theorem Bounded.calls {m : Lru α} {l : List (String × α)} (h : m.Bounded l) (ops : List (Op α)) :
    (m.calls ops).1.Bounded (listCalls m.maxSize l ops).1 ∧
      (m.calls ops).1.maxSize = m.maxSize ∧
      (m.calls ops).2 = (listCalls m.maxSize l ops).2 := by
  induction ops generalizing m l with
  | nil => exact ⟨h, rfl, rfl⟩
  | cons op ops ih =>
    obtain ⟨hcall, hanswer⟩ := h.call op
    obtain ⟨hrest, hsize, hanswers⟩ := ih hcall
    rw [maxSize_call] at hrest hsize hanswers
    exact ⟨hrest, hsize, congrArg₂ List.cons hanswer hanswers⟩

theorem clock_call (m : Lru α) (op : Op α) : (m.call op).1.clock ≤ m.clock + 1 := by
  have htouch : ∀ key, (m.touch key).clock = m.clock + 1 := by
    intro key
    unfold Lru.touch
    dsimp only
    split <;> rfl
  cases op with
  | has key =>
    simp only [Lru.call, Lru.has]
    split
    · exact (htouch key).le
    · exact Nat.le_succ _
  | get key =>
    simp only [Lru.call, Lru.get]
    split
    · exact (htouch key).le
    · exact Nat.le_succ _
  | insert key value => exact le_refl _
  | clear | len => exact Nat.le_succ _

/-- A call counts the clock up by one at most: below `2 ^ 64` calls, the `u64` of the source does not
wrap. -/
theorem clock_calls (m : Lru α) (ops : List (Op α)) : (m.calls ops).1.clock ≤ m.clock + ops.length := by
  induction ops generalizing m with
  | nil => exact le_refl _
  | cons op ops ih =>
    have hcall := m.clock_call op
    have hrest := ih (m.call op).1
    simp only [Lru.calls, List.length_cons]
    omega

theorem Orders.indexes {m : Lru α} {l : List (String × α)} (h : m.Orders l) {k : String} {t : Nat} :
    (t, k) ∈ m.byRecency ↔ ∃ v, m.entries.get? k = some (v, t) := by
  constructor
  · intro htick
    obtain ⟨⟨k', v⟩, hmem, hk⟩ := List.mem_map.mp (h.mem_keys_iff.mpr ⟨t, htick⟩)
    obtain rfl : k' = k := hk
    exact ⟨v, (h.entry k' v t).mpr ⟨htick, hmem⟩⟩
  · rintro ⟨v, hget⟩
    exact ((h.entry k v t).mp hget).1

/-- The map answers every call as the list of its entries does, the one used last in front and cut to the
bound; its two indexes stand for the same uses, and an insert drops at most the entry used longest ago. -/
theorem lru_answers_as_list (maxSize : Nat) (ops : List (Op α)) :
    let m := ((new maxSize : Lru α).calls ops).1
    let l := (listCalls maxSize [] ops).1
    ((new maxSize : Lru α).calls ops).2 = (listCalls maxSize [] ops).2 ∧
    (∀ k t, (t, k) ∈ m.byRecency ↔ ∃ v, m.entries.get? k = some (v, t)) ∧
    (m.byRecency.map Prod.fst).Pairwise (· < ·) ∧
    m.byRecency.map Prod.snd = (Recency.keys l).reverse ∧
    m.len ≤ maxSize ∧
    ∀ k v x, (m.insert k v).contains x = true ↔ x ∈ Recency.keys
      (if ((k, v) :: Recency.drop l k).length ≤ maxSize then (k, v) :: Recency.drop l k
        else ((k, v) :: Recency.drop l k).dropLast) := by
  obtain ⟨hbounded, hsize, hanswers⟩ := (bounded_new maxSize).calls ops
  have hfits : (listCalls maxSize [] ops).1.length ≤ maxSize := by
    have hfits := hbounded.fits
    rwa [hsize] at hfits
  refine ⟨hanswers, fun k t => hbounded.orders.indexes, hbounded.orders.ticks, hbounded.orders.order,
    hbounded.orders.length_entries.trans_le hfits, fun k v x => ?_⟩
  rw [(hbounded.orders.insert k v).contains_eq, Recency.get?_isSome_iff, hsize]
  exact Iff.of_eq (congrArg (fun l => x ∈ Recency.keys l) (Recency.insert_eq hfits k v))

end RithmicNt.Exec.Lru
