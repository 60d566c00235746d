import RithmicNt.Adapter.TickerIntents

/-! Runs of the ticker intents.  The sets and subscriptions of the keys stay apart, so that each key has
an invariant of its own.  Adds for one key may overlap one another; the invariant breaks where an add
begins during an unsubscribe, where a kind is removed during a subscribe, and where the removal of a kind
that is not held unsubscribes a key. -/

namespace RithmicNt.Adapter.TickerIntents

open RithmicNt.Lib

variable {π : Type} {t : State π} {P Q : Pool (State π) Place} {k : Key}

/-! ### The invariant of a key -/

/-- The key that a call waits for. -/
def Place.key : Place → Option Key
  | .subscribing key .. => some key
  | .unsubscribing key .. => some key
  | .ended _ => none

/-- A subscribed key has a kind whose call is over, and a key that is not subscribed has only kinds whose
calls wait for the session.  An unsubscribe is alone with its key. -/
structure KeyInv (P : Pool (State π) Place) (k : Key) : Prop where
  own : ∀ i kind id a, P.At i (.subscribing k kind id a) →
    P.shared.tickerIntents k = some id ∧ kind ∈ P.shared.held k
  single : ∀ i j kind id id' a a', P.At i (.subscribing k kind id a) →
    P.At j (.subscribing k kind id' a') → i = j
  leaving : ∀ i restore a, P.At i (.unsubscribing k restore a) →
    restore.isSome ∧ P.shared.tickerIntents k = none ∧ k ∈ P.shared.subscriptions ∧
      (k ∈ P.shared.session ↔ a ≠ some true)
  lone : ∀ i j restore restore' a a', P.At i (.unsubscribing k restore a) →
    P.At j (.unsubscribing k restore' a') → i = j
  subscribed : k ∈ P.shared.subscriptions → (∀ i restore a, ¬ P.At i (.unsubscribing k restore a)) →
    k ∈ P.shared.session ∧
      ∃ kind ∈ P.shared.held k, ∀ i id a, ¬ P.At i (.subscribing k kind id a)
  unsubscribed : k ∉ P.shared.subscriptions →
    (∀ kind ∈ P.shared.held k, ∃ i id a, P.At i (.subscribing k kind id a)) ∧
      (k ∈ P.shared.session ↔ ∃ i kind id, P.At i (.subscribing k kind id (some true)))

/-- The invariant of a key that no unsubscribe is in flight for. -/
theorem KeyInv.of_staying (hunsub : ∀ i restore a, ¬ P.At i (.unsubscribing k restore a))
    (own : ∀ i kind id a, P.At i (.subscribing k kind id a) →
      P.shared.tickerIntents k = some id ∧ kind ∈ P.shared.held k)
    (single : ∀ i j kind id id' a a', P.At i (.subscribing k kind id a) →
      P.At j (.subscribing k kind id' a') → i = j)
    (subscribed : k ∈ P.shared.subscriptions → k ∈ P.shared.session ∧
      ∃ kind ∈ P.shared.held k, ∀ i id a, ¬ P.At i (.subscribing k kind id a))
    (unsubscribed : k ∉ P.shared.subscriptions →
      (∀ kind ∈ P.shared.held k, ∃ i id a, P.At i (.subscribing k kind id a)) ∧
        (k ∈ P.shared.session ↔ ∃ i kind id, P.At i (.subscribing k kind id (some true)))) :
    KeyInv P k where
  own := own
  single := single
  leaving i restore a hi := (hunsub i restore a hi).elim
  lone i _ restore _ a _ hi := (hunsub i restore a hi).elim
  subscribed hk _ := subscribed hk
  unsubscribed := unsubscribed

/-- The invariant of a key that no call is in flight for: subscribed with a kind, or neither. -/
theorem KeyInv.of_quiet (hsub : ∀ i kind id a, ¬ P.At i (.subscribing k kind id a))
    (hunsub : ∀ i restore a, ¬ P.At i (.unsubscribing k restore a))
    (hin : k ∈ P.shared.subscriptions → k ∈ P.shared.session ∧ (P.shared.held k).Nonempty)
    (hout : k ∉ P.shared.subscriptions → k ∉ P.shared.session ∧ P.shared.held k = ∅) :
    KeyInv P k := by
  refine .of_staying hunsub (fun i kind id a hi => (hsub i kind id a hi).elim)
    (fun i _ kind id _ a _ hi => (hsub i kind id a hi).elim) (fun hk => ?_) fun hk => ?_
  · obtain ⟨hsession, kind, hkind⟩ := hin hk
    exact ⟨hsession, kind, hkind, fun i id a => hsub i kind id a⟩
  · obtain ⟨hsession, hheld⟩ := hout hk
    refine ⟨fun kind hkind => ?_, iff_of_false hsession ?_⟩
    · rw [hheld] at hkind
      exact absurd hkind (Finset.notMem_empty kind)
    · rintro ⟨i, kind, id, hi⟩
      exact hsub i kind id (some true) hi

/-- The invariant is about the key's own part of the state and its own calls. -/
theorem KeyInv.frame (h : KeyInv P k) (hsame : Same k P.shared Q.shared)
    (hat : ∀ i p, p.key = some k → (Q.At i p ↔ P.At i p)) : KeyInv Q k := by
  have hsub : ∀ i kind id a, Q.At i (.subscribing k kind id a) ↔ P.At i (.subscribing k kind id a) :=
    fun i kind id a => hat i _ rfl
  have hunsub : ∀ i restore a,
      Q.At i (.unsubscribing k restore a) ↔ P.At i (.unsubscribing k restore a) :=
    fun i restore a => hat i _ rfl
  obtain ⟨hintents, hheld, hsubscriptions, hsession⟩ := hsame
  constructor
  all_goals simp only [hsub, hunsub, hintents, hheld, hsubscriptions, hsession]
  · exact h.own
  · exact h.single
  · exact h.leaving
  · exact h.lone
  · exact h.subscribed
  · exact h.unsubscribed

/-- No unsubscribe overlaps a subscribe. -/
theorem KeyInv.not_unsubscribing (h : KeyInv P k) {i : Nat} {kind : Kind} {id : Nat} {a : Option Bool}
    (hsub : P.At i (.subscribing k kind id a)) (j : Nat) (restore : Option Kind) (b : Option Bool) :
    ¬ P.At j (.unsubscribing k restore b) := by
  intro hunsub
  have hsome := (h.own i kind id a hsub).1
  rw [(h.leaving j restore b hunsub).2.1] at hsome
  cases hsome

theorem KeyInv.not_unsubscribing_of_held (h : KeyInv P k) {kind : Kind} (hkind : kind ∈ P.shared.held k)
    (j : Nat) (restore : Option Kind) (b : Option Bool) : ¬ P.At j (.unsubscribing k restore b) := by
  intro hunsub
  rw [held_of_none (h.leaving j restore b hunsub).2.1] at hkind
  exact Finset.notMem_empty kind hkind

/-- The sets are apart and every key has its invariant. -/
structure Inv (P : Pool (State π) Place) : Prop where
  heap : P.shared.Heap
  keys : ∀ k, KeyInv P k

/-- A call that touches one key keeps the invariants of the others. -/
theorem Inv.of_key (h : Inv P) (htouches : Touches k P.shared Q.shared)
    (hat : ∀ k' ≠ k, ∀ i p, p.key = some k' → (Q.At i p ↔ P.At i p)) (hkey : KeyInv Q k) : Inv Q := by
  refine ⟨htouches.heap, fun k' => ?_⟩
  by_cases hk : k' = k
  · exact hk ▸ hkey
  · exact (h.keys k').frame (htouches.others k' hk) (hat k' hk)

theorem at_add_key {r : State π × Place} {k' : Key} (hkey : r.2.key ≠ some k') (i : Nat) (p : Place)
    (hp : p.key = some k') : (P.add r).At i p ↔ P.At i p := by
  rw [Pool.at_add_iff]
  refine or_iff_left ?_
  rintro ⟨-, rfl⟩
  exact hkey hp

theorem at_put_key {r : State π × Place} {i : Nat} {q : Place} (hq : P.At i q) {k' : Key}
    (hold : q.key ≠ some k') (hnew : r.2.key ≠ some k') (j : Nat) (p : Place)
    (hp : p.key = some k') : (P.put i r).At j p ↔ P.At j p := by
  rw [Pool.at_put_iff hq]
  constructor
  · rintro (⟨-, h⟩ | ⟨-, rfl⟩)
    · exact h
    · exact absurd hp hnew
  · refine fun h => .inl ⟨?_, h⟩
    rintro rfl
    rw [Pool.At, hq] at h
    cases h
    exact hold hp

/-- A call that ends at once and changes no key. -/
theorem Inv.add_ended (h : Inv P) {t : State π} (hheap : t.Heap) (hsame : ∀ k, Same k P.shared t)
    (o : Outcome) : Inv (P.add (t, .ended o)) :=
  ⟨hheap, fun k => (h.keys k).frame (hsame k) (at_add_key nofun)⟩

/-! ### Adds -/

section

variable {i id : Nat} {kind : Kind} {restore : Option Kind}

/-- A new kind of a subscribed key. -/
theorem KeyInv.add_subscribed (h : KeyInv P k)
    (hwrites : Rewrites k (insert kind (P.shared.held k)) P.shared t)
    (hid : t.tickerIntents k = some id) (hold : ∀ id', P.shared.tickerIntents k = some id' → id' = id)
    (hfree : ∀ i restore a, ¬ P.At i (.unsubscribing k restore a))
    (hk : k ∈ P.shared.subscriptions) : KeyInv (P.add (t, .ended .returned)) k := by
  have hat : ∀ i p, p.key = some k → ((P.add (t, .ended .returned)).At i p ↔ P.At i p) :=
    at_add_key nofun
  have hsub : ∀ i kind id a, (P.add (t, .ended .returned)).At i (.subscribing k kind id a) ↔
      P.At i (.subscribing k kind id a) := fun i kind id a => hat i _ rfl
  have hunsub : ∀ i restore a, ¬ (P.add (t, .ended .returned)).At i (.unsubscribing k restore a) :=
    fun i restore a hq => hfree i restore a ((hat i _ rfl).mp hq)
  have hsubscriptions : k ∈ t.subscriptions := by rwa [hwrites.subscriptions]
  refine .of_staying hunsub (fun j kind' id' a hj => ?_) (fun i j kind' id' id'' a a' hi hj => ?_)
    (fun _ => ?_) fun hnot => (hnot hsubscriptions).elim
  · obtain ⟨hintents, hheld⟩ := h.own j kind' id' a ((hsub ..).mp hj)
    refine ⟨by rw [hold id' hintents]; exact hid, ?_⟩
    show kind' ∈ t.held k
    rw [hwrites.held]
    exact Finset.mem_insert_of_mem hheld
  · exact h.single i j kind' id' id'' a a' ((hsub ..).mp hi) ((hsub ..).mp hj)
  · obtain ⟨hsession, kind', hheld, hover⟩ := h.subscribed hk hfree
    refine ⟨?_, kind', ?_, fun i id a hi => hover i id a ((hsub ..).mp hi)⟩
    · show k ∈ t.session
      rwa [hwrites.session]
    · show kind' ∈ t.held k
      rw [hwrites.held]
      exact Finset.mem_insert_of_mem hheld

/-- A kind of a key that is not subscribed: the call waits for the session. -/
theorem KeyInv.add_waits (h : KeyInv P k) (hkind : kind ∉ P.shared.held k)
    (hwrites : Rewrites k (insert kind (P.shared.held k)) P.shared t)
    (hid : t.tickerIntents k = some id) (hold : ∀ id', P.shared.tickerIntents k = some id' → id' = id)
    (hfree : ∀ i restore a, ¬ P.At i (.unsubscribing k restore a))
    (hk : k ∉ P.shared.subscriptions) : KeyInv (P.add (t, .subscribing k kind id none)) k := by
  have hsub : ∀ {j kind' id' a}, (P.add (t, .subscribing k kind id none)).At j
      (.subscribing k kind' id' a) → P.At j (.subscribing k kind' id' a) ∨
        j = P.threads.length ∧ kind' = kind ∧ id' = id ∧ a = none := by
    intro j kind' id' a hj
    rcases Pool.at_add_iff.mp hj with hj | ⟨hlast, heq⟩
    · exact .inl hj
    · cases heq
      exact .inr ⟨hlast, rfl, rfl, rfl⟩
  have hunsub : ∀ j restore a, ¬ (P.add (t, .subscribing k kind id none)).At j
      (.unsubscribing k restore a) := by
    intro j restore a hj
    rcases Pool.at_add_iff.mp hj with hj | ⟨-, heq⟩
    · exact hfree j restore a hj
    · cases heq
  have hheld : ∀ kind', kind' ∈ t.held k ↔ kind' = kind ∨ kind' ∈ P.shared.held k := by
    intro kind'
    rw [hwrites.held, Finset.mem_insert]
  obtain ⟨hpending, hanswered⟩ := h.unsubscribed hk
  refine .of_staying hunsub (fun j kind' id' a hj => ?_) (fun i j kind' id' id'' a a' hi hj => ?_)
    (fun hin => ?_) fun _ => ⟨?_, ?_⟩
  · rcases hsub hj with hj | ⟨-, rfl, rfl, -⟩
    · obtain ⟨hintents, hkind'⟩ := h.own j kind' id' a hj
      exact ⟨by rw [hold id' hintents]; exact hid, (hheld kind').mpr (.inr hkind')⟩
    · exact ⟨hid, (hheld kind').mpr (.inl rfl)⟩
  · rcases hsub hi with hi | ⟨hi, hnew, -, -⟩ <;> rcases hsub hj with hj | ⟨hj, hnew', -, -⟩
    · exact h.single i j kind' id' id'' a a' hi hj
    · exact absurd (hnew' ▸ (h.own i kind' id' a hi).2) hkind
    · exact absurd (hnew ▸ (h.own j kind' id'' a' hj).2) hkind
    · rw [hi, hj]
  · rw [show (P.add (t, .subscribing k kind id none)).shared.subscriptions = P.shared.subscriptions
      from hwrites.subscriptions] at hin
    exact absurd hin hk
  · intro kind' hkind'
    rcases (hheld kind').mp hkind' with rfl | hkind'
    · exact ⟨_, _, _, Pool.at_add_iff.mpr (.inr ⟨rfl, rfl⟩)⟩
    · obtain ⟨j, id', a, hj⟩ := hpending kind' hkind'
      exact ⟨j, id', a, Pool.at_add_iff.mpr (.inl hj)⟩
  · rw [show (P.add (t, .subscribing k kind id none)).shared.session = P.shared.session
      from hwrites.session, hanswered]
    constructor
    · rintro ⟨j, kind', id', hj⟩
      exact ⟨j, kind', id', Pool.at_add_iff.mpr (.inl hj)⟩
    · rintro ⟨j, kind', id', hj⟩
      rcases hsub hj with hj | ⟨-, -, -, hnone⟩
      · exact ⟨j, kind', id', hj⟩
      · cases hnone

/-! ### Removes -/

/-- While no add waits, a key with a kind is subscribed. -/
theorem KeyInv.subscribed_of_held (h : KeyInv P k) (hkind : kind ∈ P.shared.held k)
    (hquiet : ∀ i kind id a, ¬ P.At i (.subscribing k kind id a)) :
    k ∈ P.shared.subscriptions ∧ k ∈ P.shared.session := by
  have hk : k ∈ P.shared.subscriptions := by
    by_contra hk
    obtain ⟨i, id, a, hi⟩ := (h.unsubscribed hk).1 kind hkind
    exact hquiet i kind id a hi
  exact ⟨hk, (h.subscribed hk (h.not_unsubscribing_of_held hkind)).1⟩

theorem KeyInv.remove_remains (h : KeyInv P k) (hkind : kind ∈ P.shared.held k)
    (hquiet : ∀ i kind id a, ¬ P.At i (.subscribing k kind id a))
    (hwrites : Rewrites k ((P.shared.held k).erase kind) P.shared t)
    (hne : (P.shared.held k).erase kind ≠ ∅) : KeyInv (P.add (t, .ended .returned)) k := by
  have hat : ∀ i p, p.key = some k → ((P.add (t, .ended .returned)).At i p ↔ P.At i p) :=
    at_add_key nofun
  have hsub : ∀ i kind id a, ¬ (P.add (t, .ended .returned)).At i (.subscribing k kind id a) :=
    fun i kind id a hi => hquiet i kind id a ((hat i _ rfl).mp hi)
  have hunsub : ∀ i restore a, ¬ (P.add (t, .ended .returned)).At i (.unsubscribing k restore a) :=
    fun i restore a hi => h.not_unsubscribing_of_held hkind i restore a ((hat i _ rfl).mp hi)
  obtain ⟨hk, hsession⟩ := h.subscribed_of_held hkind hquiet
  have hsubscriptions : k ∈ t.subscriptions := by rwa [hwrites.subscriptions]
  refine .of_quiet hsub hunsub (fun _ => ⟨?_, ?_⟩) fun hnot => (hnot hsubscriptions).elim
  · show k ∈ t.session
    rwa [hwrites.session]
  · show (t.held k).Nonempty
    rw [hwrites.held]
    exact Finset.nonempty_iff_ne_empty.mpr hne

theorem KeyInv.remove_last (h : KeyInv P k) (hkind : kind ∈ P.shared.held k)
    (hquiet : ∀ i kind id a, ¬ P.At i (.subscribing k kind id a))
    (hwrites : Rewrites k ((P.shared.held k).erase kind) P.shared t)
    (hnone : t.tickerIntents k = none) :
    KeyInv (P.add (t, .unsubscribing k (some kind) none)) k := by
  have hsub : ∀ j kind' id a, ¬ (P.add (t, .unsubscribing k (some kind) none)).At j
      (.subscribing k kind' id a) := by
    intro j kind' id a hj
    rcases Pool.at_add_iff.mp hj with hj | ⟨-, heq⟩
    · exact hquiet j kind' id a hj
    · cases heq
  have hunsub : ∀ {j restore a}, (P.add (t, .unsubscribing k (some kind) none)).At j
      (.unsubscribing k restore a) → j = P.threads.length ∧ restore = some kind ∧ a = none := by
    intro j restore a hj
    rcases Pool.at_add_iff.mp hj with hj | ⟨hlast, heq⟩
    · exact (h.not_unsubscribing_of_held hkind j restore a hj).elim
    · cases heq
      exact ⟨hlast, rfl, rfl⟩
  obtain ⟨hk, hsession⟩ := h.subscribed_of_held hkind hquiet
  have hsubscriptions : k ∈ t.subscriptions := by rwa [hwrites.subscriptions]
  have hsession : k ∈ t.session := by rwa [hwrites.session]
  refine ⟨fun j kind id a hj => (hsub j kind id a hj).elim,
    fun j _ kind id _ a _ hj => (hsub j kind id a hj).elim, fun j restore a hj => ?_,
    fun i j restore restore' a a' hi hj => ?_, fun _ hfree => ?_,
    fun hnot => (hnot hsubscriptions).elim⟩
  · obtain ⟨-, rfl, rfl⟩ := hunsub hj
    exact ⟨rfl, hnone, hsubscriptions, iff_of_true hsession nofun⟩
  · rw [(hunsub hi).1, (hunsub hj).1]
  · exact absurd (Pool.at_add_iff.mpr (.inr ⟨rfl, rfl⟩)) (hfree P.threads.length (some kind) none)

/-! ### Answers to a subscribe -/

/-- The subscribes of a key after one of them has been answered. -/
theorem at_answered_iff {ok : Bool} (hi : P.At i (.subscribing k kind id none)) {j id' : Nat}
    {kind' : Kind} {a : Option Bool} :
    (P.put i (t, .subscribing k kind id (some ok))).At j (.subscribing k kind' id' a) ↔
      j ≠ i ∧ P.At j (.subscribing k kind' id' a) ∨
        j = i ∧ kind' = kind ∧ id' = id ∧ a = some ok := by
  rw [Pool.at_put_iff hi]
  refine or_congr_right (and_congr_right fun _ => ?_)
  constructor
  · intro heq
    cases heq
    exact ⟨rfl, rfl, rfl⟩
  · rintro ⟨rfl, rfl, rfl⟩
    rfl

theorem KeyInv.subscribe_answered (h : KeyInv P k) (hi : P.At i (.subscribing k kind id none))
    (ok : Bool) : KeyInv (P.put i ({ P.shared with
      session := if ok then insert k P.shared.session else P.shared.session },
      .subscribing k kind id (some ok))) k := by
  generalize ht : { P.shared with
    session := if ok then insert k P.shared.session else P.shared.session } = t
  have hheld : t.held k = P.shared.held k := by rw [← ht]; rfl
  have hsubscriptions : t.subscriptions = P.shared.subscriptions := by rw [← ht]
  have hsession : k ∈ t.session ↔ ok = true ∨ k ∈ P.shared.session := by
    rw [← ht]
    cases ok <;> simp
  have hunsub : ∀ j restore a, ¬ (P.put i (t, .subscribing k kind id (some ok))).At j
      (.unsubscribing k restore a) := by
    intro j restore a hj
    rcases (Pool.at_put_iff hi).mp hj with ⟨-, hj⟩ | ⟨-, heq⟩
    · exact h.not_unsubscribing hi j restore a hj
    · cases heq
  obtain ⟨hintents, hkind⟩ := h.own i kind id none hi
  have hintents : t.tickerIntents k = some id := by rw [← ht]; exact hintents
  refine .of_staying hunsub (fun j kind' id' a hj => ?_)
    (fun j j' kind' id' id'' a a' hj hj' => ?_) (fun hk => ?_) fun hk => ⟨?_, ?_⟩
  · show t.tickerIntents k = some id' ∧ kind' ∈ t.held k
    rw [hheld]
    rcases (at_answered_iff hi).mp hj with ⟨-, hj⟩ | ⟨-, rfl, rfl, -⟩
    · obtain ⟨hsome, hkind'⟩ := h.own j kind' id' a hj
      refine ⟨?_, hkind'⟩
      rw [← ht]
      exact hsome
    · exact ⟨hintents, hkind⟩
  · rcases (at_answered_iff hi).mp hj with ⟨hne, hj⟩ | ⟨hlast, hnew, -, -⟩ <;>
      rcases (at_answered_iff hi).mp hj' with ⟨hne', hj'⟩ | ⟨hlast', hnew', -, -⟩
    · exact h.single j j' kind' id' id'' a a' hj hj'
    · exact absurd (h.single j i kind' id' id a none hj (hnew' ▸ hi)) hne
    · exact absurd (h.single j' i kind' id'' id a' none hj' (hnew ▸ hi)) hne'
    · rw [hlast, hlast']
  · obtain ⟨hin, kind', hkind', hover⟩ :=
      h.subscribed (hsubscriptions ▸ hk) (h.not_unsubscribing hi)
    refine ⟨hsession.mpr (.inr hin), kind', hheld ▸ hkind', fun j id' a hj => ?_⟩
    rcases (at_answered_iff hi).mp hj with ⟨-, hj⟩ | ⟨-, rfl, -, -⟩
    · exact hover j id' a hj
    · exact hover i id none hi
  · intro kind' hkind'
    obtain ⟨j, id', a, hj⟩ := (h.unsubscribed (hsubscriptions ▸ hk)).1 kind' (hheld ▸ hkind')
    by_cases hji : j = i
    · subst hji
      rw [Pool.At, hi] at hj
      cases hj
      exact ⟨j, _, _, (at_answered_iff hi).mpr (.inr ⟨rfl, rfl, rfl, rfl⟩)⟩
    · exact ⟨j, id', a, (at_answered_iff hi).mpr (.inl ⟨hji, hj⟩)⟩
  · show k ∈ t.session ↔ _
    rw [hsession, (h.unsubscribed (hsubscriptions ▸ hk)).2]
    constructor
    · rintro (rfl | ⟨j, kind', id', hj⟩)
      · exact ⟨i, kind, id, (at_answered_iff hi).mpr (.inr ⟨rfl, rfl, rfl, rfl⟩)⟩
      · refine ⟨j, kind', id', (at_answered_iff hi).mpr (.inl ⟨?_, hj⟩)⟩
        rintro rfl
        rw [Pool.At, hi] at hj
        cases hj
    · rintro ⟨j, kind', id', hj⟩
      rcases (at_answered_iff hi).mp hj with ⟨-, hj⟩ | ⟨-, -, -, hok⟩
      · exact .inr ⟨j, kind', id', hj⟩
      · exact .inl (Option.some.inj hok).symm

/-- The calls for a key after one of them has ended. -/
theorem at_put_ended {q p : Place} (hq : P.At i q) (o : Outcome) (hp : p.key = some k) (j : Nat) :
    (P.put i (t, .ended o)).At j p ↔ j ≠ i ∧ P.At j p := by
  rw [Pool.at_put_iff hq]
  refine or_iff_left ?_
  rintro ⟨-, rfl⟩
  cases hp

/-- The code after a subscribe that has succeeded. -/
theorem KeyInv.subscribe_succeeded (h : KeyInv P k)
    (hi : P.At i (.subscribing k kind id (some true))) :
    KeyInv (P.put i ({ P.shared with subscriptions := insert k P.shared.subscriptions },
      .ended .returned)) k := by
  have hat := fun j p hp => at_put_ended (k := k) (p := p) (t := { P.shared with
    subscriptions := insert k P.shared.subscriptions }) hi .returned hp j
  have hin : k ∈ insert k P.shared.subscriptions := Finset.mem_insert_self ..
  refine .of_staying
    (fun j restore a hj => h.not_unsubscribing hi j restore a ((hat j _ rfl).mp hj).2)
    (fun j kind' id' a hj => h.own j kind' id' a ((hat j _ rfl).mp hj).2)
    (fun j j' kind' id' id'' a a' hj hj' =>
      h.single j j' kind' id' id'' a a' ((hat j _ rfl).mp hj).2 ((hat j' _ rfl).mp hj').2)
    (fun _ => ⟨?_, kind, (h.own i kind id (some true) hi).2, fun j id' a hj => ?_⟩)
    fun hnot => (hnot hin).elim
  · by_cases hk : k ∈ P.shared.subscriptions
    · exact (h.subscribed hk (h.not_unsubscribing hi)).1
    · exact (h.unsubscribed hk).2.mpr ⟨i, kind, id, hi⟩
  · obtain ⟨hne, hj⟩ := (hat j _ rfl).mp hj
    exact hne (h.single j i kind id' id a (some true) hj hi)

/-- The code after a subscribe that has failed. -/
theorem KeyInv.subscribe_failed (h : KeyInv P k)
    (hi : P.At i (.subscribing k kind id (some false)))
    (hwrites : Rewrites k ((P.shared.held k).erase kind) P.shared t)
    (hid : (P.shared.held k).erase kind ≠ ∅ → t.tickerIntents k = some id) :
    KeyInv (P.put i (t, .ended .sessionError)) k := by
  have hat := fun j p hp => at_put_ended (k := k) (p := p) (t := t) hi .sessionError hp j
  have hheld : ∀ kind', kind' ∈ t.held k ↔ kind' ≠ kind ∧ kind' ∈ P.shared.held k := by
    intro kind'
    rw [hwrites.held, Finset.mem_erase]
  have hintents := (h.own i kind id (some false) hi).1
  refine .of_staying
    (fun j restore a hj => h.not_unsubscribing hi j restore a ((hat j _ rfl).mp hj).2)
    (fun j kind' id' a hj => ?_) (fun j j' kind' id' id'' a a' hj hj' =>
      h.single j j' kind' id' id'' a a' ((hat j _ rfl).mp hj).2 ((hat j' _ rfl).mp hj').2)
    (fun hk => ?_) fun hk => ⟨fun kind' hkind' => ?_, ?_⟩
  · -- another add of the key has another kind, which keeps the set
    obtain ⟨hne, hj⟩ := (hat j _ rfl).mp hj
    obtain ⟨hintents', hkind'⟩ := h.own j kind' id' a hj
    obtain rfl : id = id' := Option.some.inj (hintents.symm.trans hintents')
    have hother : kind' ≠ kind := by
      rintro rfl
      exact hne (h.single j i kind' id id a (some false) hj hi)
    exact ⟨hid (Finset.ne_empty_of_mem (Finset.mem_erase.mpr ⟨hother, hkind'⟩)),
      (hheld kind').mpr ⟨hother, hkind'⟩⟩
  · obtain ⟨hsession, kind', hkind', hover⟩ :=
      h.subscribed (hwrites.subscriptions ▸ hk) (h.not_unsubscribing hi)
    refine ⟨?_, kind', (hheld kind').mpr ⟨?_, hkind'⟩, fun j id' a hj =>
      hover j id' a ((hat j _ rfl).mp hj).2⟩
    · show k ∈ t.session
      rwa [hwrites.session]
    · rintro rfl
      exact hover i id (some false) hi
  · obtain ⟨hother, hkind'⟩ := (hheld kind').mp hkind'
    obtain ⟨j, id', a, hj⟩ := (h.unsubscribed (hwrites.subscriptions ▸ hk)).1 kind' hkind'
    refine ⟨j, id', a, (hat j _ rfl).mpr ⟨?_, hj⟩⟩
    rintro rfl
    rw [Pool.At, hi] at hj
    cases hj
    exact hother rfl
  · show k ∈ t.session ↔ _
    rw [hwrites.session, (h.unsubscribed (hwrites.subscriptions ▸ hk)).2]
    constructor
    · rintro ⟨j, kind', id', hj⟩
      refine ⟨j, kind', id', (hat j _ rfl).mpr ⟨?_, hj⟩⟩
      rintro rfl
      rw [Pool.At, hi] at hj
      cases hj
    · rintro ⟨j, kind', id', hj⟩
      exact ⟨j, kind', id', ((hat j _ rfl).mp hj).2⟩

/-! ### Answers to an unsubscribe -/

theorem KeyInv.not_subscribing (h : KeyInv P k) {a : Option Bool}
    (hi : P.At i (.unsubscribing k restore a)) (j : Nat) (kind : Kind) (id : Nat) (b : Option Bool) :
    ¬ P.At j (.subscribing k kind id b) :=
  fun hj => h.not_unsubscribing hj i restore a hi

theorem KeyInv.unsubscribe_answered (h : KeyInv P k) (hi : P.At i (.unsubscribing k restore none))
    (ok : Bool) : KeyInv (P.put i ({ P.shared with
      session := if ok then P.shared.session.erase k else P.shared.session },
      .unsubscribing k restore (some ok))) k := by
  generalize ht : { P.shared with
    session := if ok then P.shared.session.erase k else P.shared.session } = t
  obtain ⟨hrestore, hnone, hk, hsession⟩ := h.leaving i restore none hi
  have hk : k ∈ t.subscriptions := by rw [← ht]; exact hk
  have hsub : ∀ j kind' id' a, ¬ (P.put i (t, .unsubscribing k restore (some ok))).At j
      (.subscribing k kind' id' a) := by
    intro j kind' id' a hj
    rcases (Pool.at_put_iff hi).mp hj with ⟨-, hj⟩ | ⟨-, heq⟩
    · exact h.not_subscribing hi j kind' id' a hj
    · cases heq
  have hunsub : ∀ {j restore' a}, (P.put i (t, .unsubscribing k restore (some ok))).At j
      (.unsubscribing k restore' a) → j = i ∧ restore' = restore ∧ a = some ok := by
    intro j restore' a hj
    rcases (Pool.at_put_iff hi).mp hj with ⟨hne, hj⟩ | ⟨hlast, heq⟩
    · exact absurd (h.lone j i restore' restore a none hj hi) hne
    · cases heq
      exact ⟨hlast, rfl, rfl⟩
  refine ⟨fun j kind id a hj => (hsub j kind id a hj).elim,
    fun j _ kind id _ a _ hj => (hsub j kind id a hj).elim, fun j restore' a hj => ?_,
    fun j j' restore restore' a a' hj hj' => ?_, fun _ hfree => ?_, fun hnot => (hnot hk).elim⟩
  · obtain ⟨-, rfl, rfl⟩ := hunsub hj
    refine ⟨hrestore, ?_, hk, ?_⟩
    · show t.tickerIntents k = none
      rw [← ht]
      exact hnone
    · show k ∈ t.session ↔ _
      have hin : k ∈ P.shared.session := hsession.mpr nofun
      rw [← ht]
      cases ok <;> simp [hin]
  · rw [(hunsub hj).1, (hunsub hj').1]
  · exact absurd ((Pool.at_put_iff hi).mpr (.inr ⟨rfl, rfl⟩)) (hfree i restore (some ok))

theorem KeyInv.unsubscribe_succeeded (h : KeyInv P k)
    (hi : P.At i (.unsubscribing k restore (some true))) :
    KeyInv (P.put i ({ P.shared with subscriptions := P.shared.subscriptions.erase k },
      .ended .returned)) k := by
  have hat := fun j p hp => at_put_ended (k := k) (p := p) (t := { P.shared with
    subscriptions := P.shared.subscriptions.erase k }) hi .returned hp j
  have hsub : ∀ j kind id a, ¬ (P.put i ({ P.shared with
      subscriptions := P.shared.subscriptions.erase k }, .ended .returned)).At j
      (.subscribing k kind id a) :=
    fun j kind id a hj => h.not_subscribing hi j kind id a ((hat j _ rfl).mp hj).2
  have hunsub : ∀ j restore' a, ¬ (P.put i ({ P.shared with
      subscriptions := P.shared.subscriptions.erase k }, .ended .returned)).At j
      (.unsubscribing k restore' a) := by
    intro j restore' a hj
    obtain ⟨hne, hj⟩ := (hat j _ rfl).mp hj
    exact hne (h.lone j i restore' restore a (some true) hj hi)
  obtain ⟨-, hnone, -, hsession⟩ := h.leaving i restore (some true) hi
  exact .of_quiet hsub hunsub (fun hk => absurd hk (Finset.notMem_erase k _))
    fun _ => ⟨fun hin => hsession.mp hin rfl, held_of_none (s := P.shared) hnone⟩

theorem KeyInv.unsubscribe_failed (h : KeyInv P k)
    (hi : P.At i (.unsubscribing k (some kind) (some false)))
    (hwrites : Rewrites k {kind} P.shared t) : KeyInv (P.put i (t, .ended .sessionError)) k := by
  have hat := fun j p hp => at_put_ended (k := k) (p := p) (t := t) hi .sessionError hp j
  have hsub : ∀ j kind id a, ¬ (P.put i (t, .ended .sessionError)).At j (.subscribing k kind id a) :=
    fun j kind id a hj => h.not_subscribing hi j kind id a ((hat j _ rfl).mp hj).2
  have hunsub : ∀ j restore' a, ¬ (P.put i (t, .ended .sessionError)).At j
      (.unsubscribing k restore' a) := by
    intro j restore' a hj
    obtain ⟨hne, hj⟩ := (hat j _ rfl).mp hj
    exact hne (h.lone j i restore' (some kind) a (some false) hj hi)
  obtain ⟨-, hnone, hk, hsession⟩ := h.leaving i (some kind) (some false) hi
  have hk : k ∈ t.subscriptions := by rwa [hwrites.subscriptions]
  refine .of_quiet hsub hunsub (fun _ => ⟨?_, ?_⟩) fun hnot => (hnot hk).elim
  · show k ∈ t.session
    rw [hwrites.session]
    exact hsession.mpr nofun
  · show (t.held k).Nonempty
    rw [hwrites.held]
    exact Finset.singleton_nonempty kind

end

/-! ### Runs -/

def Place.subscribes : Place → Option Key
  | .subscribing key .. => some key
  | _ => none

def Place.unsubscribes : Place → Option Key
  | .unsubscribing key .. => some key
  | _ => none

/-- The calls that leave the intents and the session in step: an add that begins while no unsubscribe of
its key is in flight, the remove of a kind that is held while no subscribe of its key is, and the remove
of a kind that is not held where the key is not subscribed. -/
def Allowed (routes : String → Option Key) (P : Pool (State π) Place) : Move Call Act → Prop
  | .spawn (.add instrument _) =>
    ∀ key ∈ routes instrument, ∀ p ∈ P.threads, p.unsubscribes ≠ some key
  | .spawn (.remove instrument kind _) => ∀ key ∈ routes instrument,
    if kind ∈ P.shared.held key then ∀ p ∈ P.threads, p.subscribes ≠ some key
    else key ∉ P.shared.subscriptions
  | .run .. => True

instance (routes : String → Option Key) (P : Pool (State π) Place) (m : Move Call Act) :
    Decidable (Allowed routes P m) :=
  match m with
  | .spawn (.add instrument _) => inferInstanceAs (Decidable (∀ key ∈ routes instrument,
      ∀ p ∈ P.threads, p.unsubscribes ≠ some key))
  | .spawn (.remove instrument kind _) => inferInstanceAs (Decidable (∀ key ∈ routes instrument,
      if kind ∈ P.shared.held key then ∀ p ∈ P.threads, p.subscribes ≠ some key
      else key ∉ P.shared.subscriptions))
  | .run .. => inferInstanceAs (Decidable True)

section

variable {routes : String → Option Key}

theorem Inv.spawn_add (h : Inv P) (key : Key) (kind : Kind)
    (hfree : ∀ p ∈ P.threads, p.unsubscribes ≠ some key) :
    Inv (P.add (P.shared.addTickerIntent key kind)) := by
  have hfree : ∀ i restore a, ¬ P.At i (.unsubscribing key restore a) :=
    fun i restore a hi => hfree _ hi.mem rfl
  rcases addTickerIntent_cases h.heap key kind with ⟨-, heq⟩ | ⟨t, id, hkind, hwrites, hid, hold, heq⟩
  · rw [heq]
    exact h.add_ended h.heap (fun k => ⟨rfl, rfl, Iff.rfl, Iff.rfl⟩) .returned
  · rw [heq]
    by_cases hk : key ∈ P.shared.subscriptions
    · rw [if_neg (not_not.mpr hk)]
      exact h.of_key hwrites.toTouches (fun _ _ => at_add_key nofun)
        ((h.keys key).add_subscribed hwrites hid hold hfree hk)
    · rw [if_pos hk]
      refine h.of_key hwrites.toTouches (fun k' hne => at_add_key ?_)
        ((h.keys key).add_waits hkind hwrites hid hold hfree hk)
      exact fun heq => hne (Option.some.inj heq).symm

theorem Inv.spawn_remove (h : Inv P) (key : Key) (kind : Kind) (clear : Bool)
    (hok : if kind ∈ P.shared.held key then ∀ p ∈ P.threads, p.subscribes ≠ some key
      else key ∉ P.shared.subscriptions) :
    Inv (P.add (P.shared.removeTickerIntent key kind clear)) := by
  rcases removeTickerIntent_cases h.heap key kind clear with
    ⟨hkind, t, hheap, hsame, heq⟩ | ⟨hkind, t, hwrites, -, hnone, heq⟩
  · rw [if_neg hkind] at hok
    rw [heq, State.removeUnheld, if_neg fun hk => hok ((hsame key).subscriptions.mp hk)]
    exact h.add_ended hheap hsame .returned
  · rw [if_pos hkind] at hok
    have hquiet : ∀ i kind id a, ¬ P.At i (.subscribing key kind id a) :=
      fun i kind id a hi => hok _ hi.mem rfl
    have hk := ((h.keys key).subscribed_of_held hkind hquiet).1
    rw [heq]
    by_cases hempty : (P.shared.held key).erase kind = ∅
    · rw [if_pos ⟨hempty, hk⟩]
      refine h.of_key hwrites.toTouches (fun k' hne => at_add_key ?_)
        ((h.keys key).remove_last hkind hquiet hwrites (hnone hempty))
      exact fun heq => hne (Option.some.inj heq).symm
    · rw [if_neg fun hboth => hempty hboth.1]
      exact h.of_key hwrites.toTouches (fun _ _ => at_add_key nofun)
        ((h.keys key).remove_remains hkind hquiet hwrites hempty)

/-- Everything that a waiting call can do. -/
theorem advance_cases {s : State π} {p : Place} {a : Act} {r : State π × Place}
    (h : advance s p a = some r) :
    (∃ key kind id ok, p = .subscribing key kind id none ∧
      r = ({ s with session := if ok then insert key s.session else s.session },
        .subscribing key kind id (some ok))) ∨
    (∃ key kind id ok, p = .subscribing key kind id (some ok) ∧ r = s.subscribed key kind id ok) ∨
    (∃ key restore ok, p = .unsubscribing key restore none ∧
      r = ({ s with session := if ok then s.session.erase key else s.session },
        .unsubscribing key restore (some ok))) ∨
    ∃ key restore ok, p = .unsubscribing key restore (some ok) ∧
      r = s.unsubscribed key restore ok := by
  unfold advance at h
  split at h
  · exact .inl ⟨_, _, _, _, rfl, (Option.some.inj h).symm⟩
  · exact .inr (.inl ⟨_, _, _, _, rfl, (Option.some.inj h).symm⟩)
  · exact .inr (.inr (.inl ⟨_, _, _, rfl, (Option.some.inj h).symm⟩))
  · exact .inr (.inr (.inr ⟨_, _, _, rfl, (Option.some.inj h).symm⟩))
  · cases h

/-- A waiting call touches its own key. -/
theorem Inv.put (h : Inv P) {i : Nat} {p : Place} (hp : P.At i p) {r : State π × Place} {key : Key}
    (hold : p.key = some key) (hnew : r.2.key = some key ∨ r.2.key = none)
    (htouches : Touches key P.shared r.1) (hkey : KeyInv (P.put i r) key) : Inv (P.put i r) := by
  refine h.of_key htouches (fun k' hne => at_put_key hp ?_ ?_) hkey
  · rw [hold]
    exact fun heq => hne (Option.some.inj heq).symm
  · rcases hnew with hnew | hnew
    · rw [hnew]
      exact fun heq => hne (Option.some.inj heq).symm
    · rw [hnew]
      nofun

theorem Inv.advance (h : Inv P) {i : Nat} {p : Place} {a : Act} {r : State π × Place}
    (hp : P.At i p) (hr : advance P.shared p a = some r) : Inv (P.put i r) := by
  obtain ⟨key, kind, id, ok, rfl, rfl⟩ | ⟨key, kind, id, ok, rfl, rfl⟩ | ⟨key, restore, ok, rfl, rfl⟩ |
    ⟨key, restore, ok, rfl, rfl⟩ := advance_cases hr
  · refine h.put hp rfl (.inl rfl) (touches_subscriptions h.heap (fun _ _ => Iff.rfl) ?_)
      ((h.keys key).subscribe_answered hp ok)
    intro k' hne
    split
    · exact Finset.mem_insert.trans (or_iff_right hne)
    · exact Iff.rfl
  · cases ok with
    | true =>
      refine h.put hp rfl (.inr rfl) (touches_subscriptions h.heap ?_ fun _ _ => Iff.rfl)
        ((h.keys key).subscribe_succeeded hp)
      exact fun k' hne => Finset.mem_insert.trans (or_iff_right hne)
    | false =>
      have hid := ((h.keys key).own i kind id _ hp).1
      obtain ⟨t, hwrites, hkept, heq⟩ := subscribed_false h.heap hid kind
      rw [heq]
      exact h.put hp rfl (.inr rfl) hwrites.toTouches ((h.keys key).subscribe_failed hp hwrites hkept)
  · refine h.put hp rfl (.inl rfl) (touches_subscriptions h.heap (fun _ _ => Iff.rfl) ?_)
      ((h.keys key).unsubscribe_answered hp ok)
    intro k' hne
    split
    · exact Finset.mem_erase.trans (and_iff_right hne)
    · exact Iff.rfl
  · cases ok with
    | true =>
      refine h.put hp rfl (.inr rfl) (touches_subscriptions h.heap ?_ fun _ _ => Iff.rfl)
        ((h.keys key).unsubscribe_succeeded hp)
      exact fun k' hne => Finset.mem_erase.trans (and_iff_right hne)
    | false =>
      -- the fallback, which restores nothing, is never in flight
      obtain ⟨kind, rfl⟩ :=
        Option.isSome_iff_exists.mp ((h.keys key).leaving i restore _ hp).1
      have hwrites := rewrites_assign h.heap key {kind}
      exact h.put hp rfl (.inr rfl) hwrites.toTouches ((h.keys key).unsubscribe_failed hp hwrites)

theorem Inv.step {m : Move Call Act} (h : Inv P) (hok : Allowed routes P m)
    (hstep : (machine routes).step P m = some Q) : Inv Q := by
  obtain ⟨call, r, rfl, hr, rfl⟩ | ⟨i, a, p, r, rfl, hp, hr, rfl⟩ := Pool.step_cases hstep
  · cases Option.some.inj hr
    cases call with
    | add instrument kind =>
      cases hroute : routes instrument with
      | none =>
        simp only [begin, hroute]
        exact h.add_ended h.heap (fun k => ⟨rfl, rfl, Iff.rfl, Iff.rfl⟩) .noRoute
      | some key =>
        simp only [begin, hroute]
        exact h.spawn_add key kind (hok key hroute)
    | remove instrument kind clear =>
      cases hroute : routes instrument with
      | none =>
        simp only [begin, hroute]
        exact h.add_ended h.heap (fun k => ⟨rfl, rfl, Iff.rfl, Iff.rfl⟩) .noRoute
      | some key =>
        simp only [begin, hroute]
        exact h.spawn_remove key kind clear (hok key hroute)
  · exact h.advance hp hr

theorem inv_of_run {trace : List (Move Call Act)}
    (h : (machine routes).Run (Allowed routes) trace P) : Inv P := by
  refine h.invariant (I := Inv) ?_ fun P m Q hP hok hstep => hP.step hok hstep
  rintro P ⟨⟨hintents, hsubscriptions, hsession⟩, hthreads⟩
  have hat : ∀ i p, ¬ P.At i p := by
    intro i p hp
    rw [Pool.At, hthreads] at hp
    cases hp
  have hnone : ∀ k, P.shared.tickerIntents k = none := fun k => by rw [hintents]
  refine ⟨⟨fun k id hid => ?_, fun k k' id hid => ?_⟩, fun k => ?_⟩
  · rw [hnone] at hid
    cases hid
  · rw [hnone] at hid
    cases hid
  · refine .of_quiet (fun i kind id a => hat i _) (fun i restore a => hat i _) (fun hk => ?_)
      fun _ => ⟨?_, held_of_none (hnone k)⟩
    · rw [hsubscriptions] at hk
      exact absurd hk (Finset.notMem_empty k)
    · rw [hsession]
      exact Finset.notMem_empty k

/-- Over every run of such calls, whenever none is in flight, the session is subscribed to the keys for
which a kind is held, and `_subscriptions` has these keys. -/
theorem subscribed_iff_held {trace : List (Move Call Act)}
    (h : (machine routes).Run (Allowed routes) trace P) (hidle : ∀ p ∈ P.threads, p.key = none)
    (k : Key) :
    (k ∈ P.shared.session ↔ ∃ kind, kind ∈ P.shared.held k) ∧
      (k ∈ P.shared.subscriptions ↔ ∃ kind, kind ∈ P.shared.held k) := by
  have hkey := (inv_of_run h).keys k
  have hat : ∀ i p, p.key = some k → ¬ P.At i p := by
    intro i p hp hi
    rw [hidle p hi.mem] at hp
    cases hp
  by_cases hk : k ∈ P.shared.subscriptions
  · obtain ⟨hsession, kind, hkind, -⟩ := hkey.subscribed hk fun i restore a => hat i _ rfl
    exact ⟨iff_of_true hsession ⟨kind, hkind⟩, iff_of_true hk ⟨kind, hkind⟩⟩
  · obtain ⟨hpending, hanswered⟩ := hkey.unsubscribed hk
    have hnone : ¬ ∃ kind, kind ∈ P.shared.held k := by
      rintro ⟨kind, hkind⟩
      obtain ⟨i, id, a, hi⟩ := hpending kind hkind
      exact hat i _ rfl hi
    refine ⟨iff_of_false (fun hin => ?_) hnone, iff_of_false hk hnone⟩
    obtain ⟨i, kind, id, hi⟩ := hanswered.mp hin
    exact hat i _ rfl hi

end

def nq : Key := ("NQU6", "CME")

def oneRoute (instrument : String) : Option Key :=
  if instrument = "NQU6.CME" then some nq else none

/-- A trade and a quote subscription that overlap, of which the second fails. -/
def overlappingAdds : List (Move Call Act) :=
  [.spawn (.add "NQU6.CME" .trade), .spawn (.add "NQU6.CME" .quote), .run 1 (.answer false),
    .run 0 (.answer true), .run 0 .resume, .run 1 .resume]

theorem subscribed_iff_held_adds : ∃ P : Pool (State Nat) Place,
    (machine oneRoute).Run (Allowed oneRoute) overlappingAdds P ∧ (∀ p ∈ P.threads, p.key = none) ∧
      (nq ∈ P.shared.session ↔ ∃ kind, kind ∈ P.shared.held nq) ∧
      (nq ∈ P.shared.subscriptions ↔ ∃ kind, kind ∈ P.shared.held nq) := by
  obtain ⟨P, hexec, hidle⟩ : ∃ P : Pool (State Nat) Place,
      (machine oneRoute).exec (Allowed oneRoute) ⟨{}, []⟩ overlappingAdds = some P ∧
        ∀ p ∈ P.threads, p.key = none := ⟨_, rfl, by decide⟩
  have hrun := Machine.run_of_exec (M := machine oneRoute) ⟨⟨rfl, rfl, rfl⟩, rfl⟩ hexec
  exact ⟨P, hrun, hidle, subscribed_iff_held hrun hidle nq⟩

/-- A remove during the subscribe of the add leaves a feed that nobody holds. -/
theorem orphan_feed : ∃ (trace : List (Move Call Act)) (P : Pool (State Nat) Place),
    (machine oneRoute).Run Machine.Free trace P ∧ (∀ p ∈ P.threads, p.key = none) ∧
      nq ∈ P.shared.session ∧ nq ∈ P.shared.subscriptions ∧ ¬ ∃ kind, kind ∈ P.shared.held nq := by
  obtain ⟨P, hexec, hidle, hsession, hsubscriptions, hheld⟩ : ∃ P : Pool (State Nat) Place,
      (machine oneRoute).exec Machine.Free ⟨{}, []⟩ [.spawn (.add "NQU6.CME" .trade),
        .spawn (.remove "NQU6.CME" .trade false), .run 0 (.answer true), .run 0 .resume] = some P ∧
      (∀ p ∈ P.threads, p.key = none) ∧ nq ∈ P.shared.session ∧ nq ∈ P.shared.subscriptions ∧
      P.shared.held nq = ∅ := ⟨_, rfl, by decide, by decide, by decide, by decide⟩
  have hrun := Machine.run_of_exec (M := machine oneRoute) ⟨⟨rfl, rfl, rfl⟩, rfl⟩ hexec
  refine ⟨_, P, hrun, hidle, hsession, hsubscriptions, ?_⟩
  rintro ⟨kind, hkind⟩
  rw [hheld] at hkind
  exact Finset.notMem_empty kind hkind

end RithmicNt.Adapter.TickerIntents
