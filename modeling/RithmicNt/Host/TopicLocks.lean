import Mathlib.Data.Finset.Insert
import RithmicNt.Host.Intents
import RithmicNt.Lib.Pool

/-! The lock of each topic: `topic_lock` makes it on first use and hands out clones of its `Arc`, and
`prune_topic_lock` takes it out of the map again where nobody has a clone. -/

namespace RithmicNt.Host.TopicLocks

open RithmicNt.Lib

/-- The mutex of the map is held for one step at a time.  Locks are numbered as they are made: `strong`
is the count of the `Arc`s of a lock, `owner` who has locked it.  `used` are the topics asked for. -/
structure Locks where
  map : SubKey → Option Nat := fun _ => none
  next : Nat := 0
  strong : Nat → Nat := fun _ => 0
  owner : Nat → Option Nat := fun _ => none
  used : Finset SubKey := ∅

/-- An operation on a topic, which may prune its lock before it unlocks, or a prune alone. -/
inductive Call
  | hold (key : SubKey) (prunes : Bool)
  | prune (key : SubKey)
  deriving DecidableEq, Repr

inductive Place
  | fetching (key : SubKey) (prunes : Bool)
  | waiting (key : SubKey) (lock : Nat) (prunes : Bool)
  | holding (key : SubKey) (lock : Nat) (prunes : Bool)
  | dropping (key : SubKey) (lock : Nat)
  | pruning (key : SubKey)
  | done
  deriving DecidableEq, Repr

/-- `drop`: the future of the operation is dropped. -/
inductive Act
  | go
  | drop
  deriving DecidableEq, Repr

namespace Locks

/-- The lock of a topic, new where the map has none. -/
def topicLock (s : Locks) (key : SubKey) : Locks × Nat :=
  match s.map key with
  | some lock =>
    ({ s with strong := Function.update s.strong lock (s.strong lock + 1)
              used := insert key s.used }, lock)
  | none =>
    ({ s with map := Function.update s.map key (some s.next)
              strong := Function.update s.strong s.next 2
              next := s.next + 1
              used := insert key s.used }, s.next)

def pruneTopicLock (s : Locks) (key : SubKey) : Locks :=
  match s.map key with
  | some lock =>
    if s.strong lock = 1 then
      { s with map := Function.update s.map key none, strong := Function.update s.strong lock 0 }
    else s
  | none => s

def lock (s : Locks) (i lock : Nat) : Locks :=
  { s with owner := Function.update s.owner lock (some i) }

def unlock (s : Locks) (lock : Nat) : Locks := { s with owner := Function.update s.owner lock none }

def dropClone (s : Locks) (lock : Nat) : Locks :=
  { s with strong := Function.update s.strong lock (s.strong lock - 1) }

def run (i : Nat) (s : Locks) : Place → Act → Option (Locks × Place)
  | .fetching key prunes, .go => some ((s.topicLock key).1, .waiting key (s.topicLock key).2 prunes)
  | .fetching _ _, .drop => some (s, .done)
  | .waiting key lock prunes, .go =>
    if s.owner lock = none then some (s.lock i lock, .holding key lock prunes) else none
  | .waiting _ lock _, .drop => some (s.dropClone lock, .done)
  | .holding key lock true, .go => some (s.pruneTopicLock key, .holding key lock false)
  | .holding key lock false, .go => some (s.unlock lock, .dropping key lock)
  | .holding key lock _, .drop => some (s.unlock lock, .dropping key lock)
  | .dropping _ lock, .go => some (s.dropClone lock, .done)
  | .pruning key, .go => some (s.pruneTopicLock key, .done)
  | .pruning _, .drop => some (s, .done)
  | _, _ => none

def spawn (_ : Nat) (s : Locks) : Call → Option (Locks × Place)
  | .hold key prunes => some (s, .fetching key prunes)
  | .prune key => some (s, .pruning key)

def code : Program Locks Place Call Act where
  spawn := spawn
  run := run

end Locks

def machine : Machine (Pool Locks Place) (Move Call Act) := Locks.code.machine fun s => s = {}

/-- The calls of the source: only `release_md_if_unused` prunes, from under the lock. -/
def FromUnderLock (_ : Pool Locks Place) : Move Call Act → Prop
  | .spawn (.prune _) => False
  | _ => True

instance (P : Pool Locks Place) : DecidablePred (FromUnderLock P) := by
  intro m
  unfold FromUnderLock
  split <;> infer_instance

namespace Place

/-- The topic and the lock that the operation has a clone of. -/
def clone : Place → Option (SubKey × Nat)
  | .waiting key lock _ | .holding key lock _ | .dropping key lock => some (key, lock)
  | _ => none

def holds : Place → Option Nat
  | .holding _ lock _ => some lock
  | _ => none

def clones (lock : Nat) (p : Place) : Bool := p.clone.any fun c => c.2 == lock

end Place

variable {P Q : Pool Locks Place} {i j : Nat} {p q : Place} {key key' : SubKey} {lock : Nat}
  {r : Locks × Place}

structure Sound (P : Pool Locks Place) : Prop where
  fresh : ∀ key lock, P.shared.map key = some lock → lock < P.shared.next
  distinct : ∀ key key' lock, P.shared.map key = some lock → P.shared.map key' = some lock → key = key'
  clone : ∀ i p key lock, P.At i p → p.clone = some (key, lock) → P.shared.map key = some lock
  strong : ∀ key lock, P.shared.map key = some lock →
    P.shared.strong lock = 1 + P.threads.countP (Place.clones lock)
  owner : ∀ i p lock, P.At i p → p.holds = some lock → P.shared.owner lock = some i

/-- A step that leaves the map alone, and counts what it does to the clones. -/
theorem sound_same (hP : Sound P) (hp : P.At i p) (hmap : r.1.map = P.shared.map)
    (hnext : r.1.next = P.shared.next)
    (hclone : ∀ key lock, r.2.clone = some (key, lock) → P.shared.map key = some lock)
    (hstrong : ∀ key lock, P.shared.map key = some lock →
      r.1.strong lock + (if p.clones lock then 1 else 0) =
        P.shared.strong lock + if r.2.clones lock then 1 else 0)
    (howner : ∀ lock, r.2.holds = some lock → r.1.owner lock = some i)
    (hothers : ∀ j lock, j ≠ i → P.shared.owner lock = some j → r.1.owner lock = some j) :
    Sound (P.put i r) := by
  refine ⟨?_, ?_, ?_, ?_, ?_⟩
  · intro key lock hkey
    have hkey : r.1.map key = some lock := hkey
    rw [hmap] at hkey
    show lock < r.1.next
    rw [hnext]
    exact hP.fresh key lock hkey
  · intro key key' lock hkey hkey'
    have hkey : r.1.map key = some lock := hkey
    have hkey' : r.1.map key' = some lock := hkey'
    rw [hmap] at hkey hkey'
    exact hP.distinct key key' lock hkey hkey'
  · intro j q key lock hq hc
    show r.1.map key = some lock
    rw [hmap]
    rcases Pool.at_put hq with ⟨-, hq⟩ | ⟨-, rfl⟩
    · exact hP.clone j q key lock hq hc
    · exact hclone key lock hc
  · intro key lock hkey
    have hkey : r.1.map key = some lock := hkey
    rw [hmap] at hkey
    have hold := hP.strong key lock hkey
    have hstep := hstrong key lock hkey
    have hcount := Pool.countP_put (r := r) hp (Place.clones lock)
    show r.1.strong lock = _
    omega
  · intro j q lock hq hh
    rcases Pool.at_put hq with ⟨hne, hq⟩ | ⟨rfl, rfl⟩
    · exact hothers j lock hne (hP.owner j q lock hq hh)
    · exact howner lock hh

theorem clones_iff : p.clones lock = true ↔ ∃ key, p.clone = some (key, lock) := by
  unfold Place.clones
  cases p.clone with
  | none => simp
  | some c => simp [Prod.ext_iff]

/-- A lock that nobody has a clone of is taken out of the map. -/
theorem sound_prune (hP : Sound P) (hp : P.At i p) (hkey : P.shared.map key = some lock)
    (hone : P.shared.strong lock = 1) (hclone : r.2.clone = p.clone) (hholds : r.2.holds = p.holds)
    (hr : r.1 = P.shared.pruneTopicLock key) : Sound (P.put i r) := by
  have hprune : P.shared.pruneTopicLock key =
      { P.shared with
        map := Function.update P.shared.map key none
        strong := Function.update P.shared.strong lock 0 } := by
    simp [Locks.pruneTopicLock, hkey, hone]
  have hnone : ∀ q ∈ P.threads, q.clones lock = false := by
    have hcount := hP.strong key lock hkey
    have hzero : P.threads.countP (Place.clones lock) = 0 := by omega
    intro q hq
    simpa using List.countP_eq_zero.mp hzero q hq
  have hmap : ∀ k l, r.1.map k = some l → k ≠ key ∧ P.shared.map k = some l ∧ l ≠ lock := by
    intro k l hk
    rw [hr, hprune] at hk
    by_cases hkk : k = key
    · simp [hkk] at hk
    · have hold : P.shared.map k = some l := by simpa [hkk] using hk
      refine ⟨hkk, hold, ?_⟩
      rintro rfl
      exact hkk (hP.distinct k key l hold hkey)
  refine ⟨?_, ?_, ?_, ?_, ?_⟩
  · intro k l hk
    have hnext : r.1.next = P.shared.next := by rw [hr, hprune]
    show l < r.1.next
    rw [hnext]
    exact hP.fresh k l (hmap k l hk).2.1
  · intro k k' l hk hk'
    exact hP.distinct k k' l (hmap k l hk).2.1 (hmap k' l hk').2.1
  · intro j q k l hq hc
    have hold : P.shared.map k = some l ∧ l ≠ lock := by
      rcases Pool.at_put hq with ⟨-, hq⟩ | ⟨-, rfl⟩
      · refine ⟨hP.clone j q k l hq hc, ?_⟩
        rintro rfl
        have := hnone q hq.mem
        rw [clones_iff.mpr ⟨k, hc⟩] at this
        cases this
      · rw [hclone] at hc
        refine ⟨hP.clone i p k l hp hc, ?_⟩
        rintro rfl
        have := hnone p hp.mem
        rw [clones_iff.mpr ⟨k, hc⟩] at this
        cases this
    have hkk : k ≠ key := by
      rintro rfl
      exact hold.2 (Option.some.inj (hold.1.symm.trans hkey))
    show r.1.map k = some l
    rw [hr, hprune]
    simpa [hkk] using hold.1
  · intro k l hk
    obtain ⟨-, hk, hl⟩ := hmap k l hk
    have hold := hP.strong k l hk
    have hcount := Pool.countP_put (r := r) hp (Place.clones l)
    have hsame : r.2.clones l = p.clones l := by unfold Place.clones; rw [hclone]
    have hstrong : r.1.strong l = P.shared.strong l := by
      rw [hr, hprune]
      simp [hl]
    rw [hsame] at hcount
    show r.1.strong l = _
    omega
  · intro j q l hq hh
    have howner : r.1.owner = P.shared.owner := by rw [hr, hprune]
    show r.1.owner l = some j
    rw [howner]
    rcases Pool.at_put hq with ⟨-, hq⟩ | ⟨rfl, rfl⟩
    · exact hP.owner j q l hq hh
    · exact hP.owner j p l hp (hholds ▸ hh)

/-- A topic without a lock gets a new one, which the map and the operation have. -/
theorem sound_new (hP : Sound P) {prunes : Bool} (hp : P.At i (.fetching key prunes))
    (hkey : P.shared.map key = none) :
    Sound (P.put i ((P.shared.topicLock key).1, .waiting key (P.shared.topicLock key).2 prunes)) := by
  have htopic : P.shared.topicLock key =
      ({ P.shared with
          map := Function.update P.shared.map key (some P.shared.next)
          strong := Function.update P.shared.strong P.shared.next 2
          next := P.shared.next + 1
          used := insert key P.shared.used }, P.shared.next) := by
    simp [Locks.topicLock, hkey]
  have hnone : ∀ q ∈ P.threads, q.clones P.shared.next = false := by
    intro q hq
    obtain ⟨j, hj, rfl⟩ := List.mem_iff_getElem.mp hq
    by_contra hc
    obtain ⟨k, hc⟩ := clones_iff.mp (by simpa using hc)
    have hmap := hP.clone j _ k _ (List.getElem?_eq_getElem hj) hc
    exact Nat.lt_irrefl _ (hP.fresh k _ hmap)
  have hmap : ∀ k l, Function.update P.shared.map key (some P.shared.next) k = some l →
      k = key ∧ l = P.shared.next ∨ k ≠ key ∧ P.shared.map k = some l ∧ l < P.shared.next := by
    intro k l hk
    by_cases hkk : k = key
    · subst hkk
      exact .inl ⟨rfl, by simpa using hk.symm⟩
    · have hold : P.shared.map k = some l := by simpa [hkk] using hk
      exact .inr ⟨hkk, hold, hP.fresh k l hold⟩
  rw [htopic]
  refine ⟨?_, ?_, ?_, ?_, ?_⟩
  · intro k l hk
    show l < P.shared.next + 1
    rcases hmap k l hk with ⟨-, rfl⟩ | ⟨-, -, hl⟩ <;> omega
  · intro k k' l hk hk'
    rcases hmap k l hk with ⟨rfl, hl⟩ | ⟨-, hold, hl⟩
    · rcases hmap k' l hk' with ⟨rfl, -⟩ | ⟨-, -, hl'⟩
      · rfl
      · omega
    · rcases hmap k' l hk' with ⟨-, hl'⟩ | ⟨-, hold', -⟩
      · omega
      · exact hP.distinct k k' l hold hold'
  · intro j q k l hq hc
    show Function.update P.shared.map key (some P.shared.next) k = some l
    rcases Pool.at_put hq with ⟨-, hq⟩ | ⟨-, rfl⟩
    · have hold := hP.clone j q k l hq hc
      have hkk : k ≠ key := by
        rintro rfl
        rw [hkey] at hold
        cases hold
      simpa [hkk] using hold
    · obtain ⟨rfl, rfl⟩ : key = k ∧ P.shared.next = l := by simpa [Place.clone] using hc
      simp
  · intro k l hk
    have hcount : ∀ s : Locks,
        (P.put i (s, .waiting key P.shared.next prunes)).threads.countP (Place.clones l) =
          P.threads.countP (Place.clones l) + if P.shared.next = l then 1 else 0 := by
      intro s
      have h := Pool.countP_put (r := (s, Place.waiting key P.shared.next prunes)) hp (Place.clones l)
      simpa [Place.clones, Place.clone] using h
    rw [hcount]
    show Function.update P.shared.strong P.shared.next 2 l = _
    rcases hmap k l hk with ⟨-, rfl⟩ | ⟨-, hold, hl⟩
    · have hzero : P.threads.countP (Place.clones P.shared.next) = 0 :=
        List.countP_eq_zero.mpr fun q hq => by simp [hnone q hq]
      simp [hzero]
    · have hne : l ≠ P.shared.next := by omega
      simp [hne, hne.symm, hP.strong k l hold]
  · intro j q l hq hh
    rcases Pool.at_put hq with ⟨-, hq⟩ | ⟨rfl, rfl⟩
    · exact hP.owner j q l hq hh
    · cases hh

theorem topicLock_of_some (s : Locks) (h : s.map key = some lock) : s.topicLock key =
    ({ s with strong := Function.update s.strong lock (s.strong lock + 1)
              used := insert key s.used }, lock) := by
  simp [Locks.topicLock, h]

theorem sound_fetch (hP : Sound P) {prunes : Bool} (hp : P.At i (.fetching key prunes)) :
    Sound (P.put i ((P.shared.topicLock key).1, .waiting key (P.shared.topicLock key).2 prunes)) := by
  cases hkey : P.shared.map key with
  | none => exact sound_new hP hp hkey
  | some lock =>
    rw [topicLock_of_some P.shared hkey]
    refine sound_same hP hp rfl rfl ?_ ?_ (by simp [Place.holds]) fun _ _ _ h => h
    · intro k l hc
      obtain ⟨rfl, rfl⟩ : key = k ∧ lock = l := by simpa [Place.clone] using hc
      exact hkey
    · intro k l _
      by_cases hl : l = lock
      · simp [hl, Place.clones, Place.clone]
      · have hl' : ¬ lock = l := fun h => hl h.symm
        simp [hl, hl', Place.clones, Place.clone]

/-- The last step of an operation drops its clone. -/
theorem sound_dropClone (hP : Sound P) (hp : P.At i p) (hc : p.clone = some (key, lock)) :
    Sound (P.put i (P.shared.dropClone lock, .done)) := by
  refine sound_same hP hp rfl rfl (by simp [Place.clone]) ?_ (by simp [Place.holds]) fun _ _ _ h => h
  intro k l hk
  have hdone : Place.clones l .done = false := rfl
  by_cases hl : l = lock
  · subst hl
    have hpos := hP.strong key l (hP.clone i p key l hp hc)
    have hclones : p.clones l = true := clones_iff.mpr ⟨key, hc⟩
    simp only [Locks.dropClone, Function.update_self, hclones, hdone, if_true, Bool.false_eq_true,
      if_false]
    omega
  · have hclones : p.clones l = false := by
      by_contra h
      obtain ⟨k', h⟩ := clones_iff.mp (by simpa using h)
      rw [hc] at h
      cases h
      exact hl rfl
    simp [Locks.dropClone, hl, hclones, hdone]

theorem sound_lock (hP : Sound P) {prunes : Bool} (hp : P.At i (.waiting key lock prunes))
    (hfree : P.shared.owner lock = none) :
    Sound (P.put i (P.shared.lock i lock, .holding key lock prunes)) := by
  refine sound_same hP hp rfl rfl ?_ (fun _ _ _ => rfl) ?_ ?_
  · intro k l hc
    exact hP.clone i _ k l hp hc
  · intro l hl
    obtain rfl : lock = l := Option.some.inj hl
    simp [Locks.lock]
  · intro j l _ howner
    have hne : l ≠ lock := by
      rintro rfl
      rw [hfree] at howner
      cases howner
    simpa [Locks.lock, hne] using howner

theorem sound_unlock (hP : Sound P) {prunes : Bool} (hp : P.At i (.holding key lock prunes)) :
    Sound (P.put i (P.shared.unlock lock, .dropping key lock)) := by
  refine sound_same hP hp rfl rfl ?_ (fun _ _ _ => rfl) (by simp [Place.holds]) ?_
  · intro k l hc
    exact hP.clone i _ k l hp hc
  · intro j l hj howner
    have hne : l ≠ lock := by
      rintro rfl
      exact hj (Option.some.inj (howner.symm.trans (hP.owner i _ l hp rfl)))
    simpa [Locks.unlock, hne] using howner

theorem sound_pruneTopicLock (hP : Sound P) (hp : P.At i p) (hclone : q.clone = p.clone)
    (hholds : q.holds = p.holds) : Sound (P.put i (P.shared.pruneTopicLock key, q)) := by
  by_cases h : ∃ lock, P.shared.map key = some lock ∧ P.shared.strong lock = 1
  · obtain ⟨lock, hkey, hone⟩ := h
    exact sound_prune hP hp hkey hone hclone hholds rfl
  · have hsame : P.shared.pruneTopicLock key = P.shared := by
      unfold Locks.pruneTopicLock
      split
      · next lock hkey => exact if_neg fun hone => h ⟨lock, hkey, hone⟩
      · rfl
    rw [hsame]
    refine sound_same hP hp rfl rfl ?_ ?_ ?_ fun _ _ _ h => h
    · intro k l hc
      exact hP.clone i p k l hp (hclone ▸ hc)
    · intro k l _
      show _ = P.shared.strong l + if q.clones l then 1 else 0
      unfold Place.clones
      rw [hclone]
    · intro l hl
      exact hP.owner i p l hp (hholds ▸ hl)

theorem sound_add (hP : Sound P) (hclone : q.clone = none) (hholds : q.holds = none) :
    Sound (P.add (P.shared, q)) := by
  refine ⟨hP.fresh, hP.distinct, ?_, ?_, ?_⟩
  · intro j p k l hp hc
    rcases Pool.at_add hp with hp | ⟨-, rfl⟩
    · exact hP.clone j p k l hp hc
    · rw [hclone] at hc
      cases hc
  · intro k l hk
    rw [Pool.countP_add]
    have hnone : q.clones l = false := by simp [Place.clones, hclone]
    show P.shared.strong l = _
    simpa [hnone] using hP.strong k l hk
  · intro j p l hp hh
    rcases Pool.at_add hp with hp | ⟨-, rfl⟩
    · exact hP.owner j p l hp hh
    · rw [hholds] at hh
      cases hh

/-- An operation that has no clone yet gives up. -/
theorem sound_abandon (hP : Sound P) (hp : P.At i p) (hclone : p.clone = none) :
    Sound (P.put i (P.shared, .done)) := by
  refine sound_same hP hp rfl rfl (by simp [Place.clone]) ?_ (by simp [Place.holds]) fun _ _ _ h => h
  intro k l _
  have hnone : p.clones l = false := by simp [Place.clones, hclone]
  have hdone : Place.clones l .done = false := rfl
  simp [hnone, hdone]

theorem sound_run {a : Act} (hP : Sound P) (hp : P.At i p) (hr : P.shared.run i p a = some r) :
    Sound (P.put i r) := by
  unfold Locks.run at hr
  split at hr
  · cases hr
    exact sound_fetch hP hp
  · cases hr
    exact sound_abandon hP hp rfl
  · split at hr
    · next hfree =>
      cases hr
      exact sound_lock hP hp hfree
    · cases hr
  · cases hr
    exact sound_dropClone hP hp rfl
  · cases hr
    exact sound_pruneTopicLock hP hp rfl rfl
  · cases hr
    exact sound_unlock hP hp
  · cases hr
    exact sound_unlock hP hp
  · cases hr
    exact sound_dropClone hP hp rfl
  · cases hr
    exact sound_pruneTopicLock hP hp rfl rfl
  · cases hr
    exact sound_abandon hP hp rfl
  · cases hr

theorem sound_step {m : Move Call Act} (hP : Sound P) (h : P.step Locks.code m = some Q) : Sound Q := by
  obtain ⟨c, r, rfl, hr, rfl⟩ | ⟨i, a, p, r, rfl, hp, hr, rfl⟩ := Pool.step_cases h
  · cases c <;> cases hr <;> exact sound_add hP rfl rfl
  · exact sound_run hP hp hr

theorem sound_of_run {ok : Pool Locks Place → Move Call Act → Prop} {trace : List (Move Call Act)}
    (h : machine.Run ok trace P) : Sound P := by
  refine h.invariant (I := Sound) ?_ fun _ _ _ hP _ hstep => sound_step hP hstep
  rintro ⟨s, threads⟩ ⟨rfl, rfl⟩
  refine ⟨?_, ?_, ?_, ?_, ?_⟩ <;> simp [Pool.At]

/-- Two operations never hold a topic at once. -/
theorem one_holder (hP : Sound P) {prunes prunes' : Bool} {lock' : Nat}
    (hi : P.At i (.holding key lock prunes)) (hj : P.At j (.holding key lock' prunes')) : i = j := by
  have hmap := hP.clone i _ key lock hi rfl
  have hmap' := hP.clone j _ key lock' hj rfl
  obtain rfl : lock = lock' := Option.some.inj (hmap.symm.trans hmap')
  exact Option.some.inj ((hP.owner i _ lock hi rfl).symm.trans (hP.owner j _ lock hj rfl))

/-! ### Prunes from under the lock -/

/-- No topic that was ever asked for has lost its lock. -/
structure Grown (P : Pool Locks Place) : Prop extends Sound P where
  used : ∀ key, key ∈ P.shared.used ↔ P.shared.map key ≠ none
  asked : ∀ i key, ¬ P.At i (.pruning key)

/-- The operation that prunes has a clone itself, so there are two. -/
theorem prune_under_lock (hP : Sound P) {prunes : Bool} (hp : P.At i (.holding key lock prunes)) :
    P.shared.pruneTopicLock key = P.shared := by
  have hmap := hP.clone i _ key lock hp rfl
  have hstrong := hP.strong key lock hmap
  have hpos : 0 < P.threads.countP (Place.clones lock) :=
    List.countP_pos_iff.mpr ⟨_, hp.mem, clones_iff.mpr ⟨key, rfl⟩⟩
  have hne : P.shared.strong lock ≠ 1 := by omega
  simp [Locks.pruneTopicLock, hmap, hne]

theorem used_topicLock (s : Locks) (h : ∀ k, k ∈ s.used ↔ s.map k ≠ none) (k : SubKey) :
    k ∈ (s.topicLock key).1.used ↔ (s.topicLock key).1.map k ≠ none := by
  cases hkey : s.map key with
  | none =>
    by_cases hk : k = key
    · simp [Locks.topicLock, hkey, hk]
    · simp [Locks.topicLock, hkey, hk, h k]
  | some lock =>
    rw [topicLock_of_some s hkey]
    by_cases hk : k = key
    · simp [hk, hkey]
    · simp [hk, h k]

theorem grown_step {m : Move Call Act} (hP : Grown P) (hok : FromUnderLock P m)
    (h : P.step Locks.code m = some Q) : Grown Q := by
  have hQ := sound_step hP.toSound h
  obtain ⟨c, r, rfl, hr, rfl⟩ | ⟨i, a, p, r, rfl, hp, hr, rfl⟩ := Pool.step_cases h
  · cases c with
    | hold key prunes =>
      cases hr
      refine ⟨hQ, hP.used, ?_⟩
      intro j k hq
      rcases Pool.at_add hq with hq | ⟨-, hq⟩
      · exact hP.asked j k hq
      · cases hq
    | prune key => exact hok.elim
  · have hasked : (∀ k, r.2 ≠ .pruning k) → ∀ j k, ¬ (P.put i r).At j (.pruning k) := by
      intro hne j k hq
      rcases Pool.at_put hq with ⟨-, hq⟩ | ⟨-, hq⟩
      · exact hP.asked j k hq
      · exact hne k hq.symm
    have hr : P.shared.run i p a = some r := hr
    unfold Locks.run at hr
    split at hr
    · cases hr
      exact ⟨hQ, used_topicLock P.shared hP.used, hasked (by simp)⟩
    · cases hr
      exact ⟨hQ, hP.used, hasked (by simp)⟩
    · split at hr
      · cases hr
        exact ⟨hQ, hP.used, hasked (by simp)⟩
      · cases hr
    · cases hr
      exact ⟨hQ, hP.used, hasked (by simp)⟩
    · cases hr
      refine ⟨hQ, ?_, hasked (by simp)⟩
      show ∀ k, k ∈ (P.shared.pruneTopicLock _).used ↔ (P.shared.pruneTopicLock _).map k ≠ none
      rw [prune_under_lock hP.toSound hp]
      exact hP.used
    · cases hr
      exact ⟨hQ, hP.used, hasked (by simp)⟩
    · cases hr
      exact ⟨hQ, hP.used, hasked (by simp)⟩
    · cases hr
      exact ⟨hQ, hP.used, hasked (by simp)⟩
    · exact absurd hp (hP.asked i _)
    · exact absurd hp (hP.asked i _)
    · cases hr

/-- A topic has one lock at a time, whoever prunes and whenever; and as the source prunes only from
under the lock, with a clone of its own, the map never loses a topic that was ever asked for. -/
theorem topic_locks {trace : List (Move Call Act)} (h : machine.Run Machine.Free trace P) :
    (∀ key i j lock lock' b b', P.At i (.holding key lock b) → P.At j (.holding key lock' b') → i = j) ∧
    (∀ i p key lock, P.At i p → p.clone = some (key, lock) → P.shared.map key = some lock) ∧
    (machine.Run FromUnderLock trace P → ∀ key, key ∈ P.shared.used ↔ P.shared.map key ≠ none) := by
  have hP := sound_of_run h
  refine ⟨fun key i j lock lock' b b' hi hj => one_holder hP hi hj, hP.clone, ?_⟩
  intro hsource
  refine (hsource.invariant (I := Grown) ?_ fun _ _ _ hP hok hstep => grown_step hP hok hstep).used
  rintro ⟨s, threads⟩ hstart
  have hstarted : machine.Run FromUnderLock [] ⟨s, threads⟩ := .start hstart
  have hsound := sound_of_run hstarted
  obtain ⟨rfl, rfl⟩ := hstart
  exact ⟨hsound, by simp, by simp [Pool.At]⟩

def esTopic : SubKey := ⟨"ESZ6", "CME"⟩

/-- One operation holds the topic and prunes while another waits. -/
def contended : List (Move Call Act) :=
  [.spawn (.hold esTopic true), .run 0 .go, .run 0 .go, .spawn (.hold esTopic false), .run 1 .go,
    .run 0 .go, .run 0 .go, .run 1 .go, .run 0 .go]

theorem topic_locks_contended : ∃ P, machine.Run Machine.Free contended P ∧
    P.At 1 (.holding esTopic 0 false) ∧ (∀ j lock b, P.At j (.holding esTopic lock b) → j = 1) ∧
      P.shared.map esTopic ≠ none := by
  have hexec : ∃ P, machine.exec FromUnderLock ⟨{}, []⟩ contended = some P ∧
      P.At 1 (.holding esTopic 0 false) ∧ esTopic ∈ P.shared.used := ⟨_, rfl, rfl, by decide⟩
  obtain ⟨P, hexec, hholding, hused⟩ := hexec
  have hsource : machine.Run FromUnderLock contended P := Machine.run_of_exec ⟨rfl, rfl⟩ hexec
  have hrun : machine.Run Machine.Free contended P := hsource.mono fun _ _ _ => trivial
  obtain ⟨hone, -, hgrown⟩ := topic_locks hrun
  exact ⟨P, hrun, hholding, fun j lock b hj => hone _ _ _ _ _ _ _ hj hholding,
    (hgrown hsource esTopic).mp hused⟩

end RithmicNt.Host.TopicLocks
