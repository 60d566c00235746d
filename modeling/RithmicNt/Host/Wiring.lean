import Mathlib.Data.Finset.Card
import RithmicNt.Host.Delivery

/-! The objects of the hub and of its sessions under the calls of the sessions' operations: they stay linked
to each other, they show what the sessions' own records say, and the hub counts the sessions on a
topic. -/

namespace RithmicNt.Host.Fanout

open RithmicNt.Lib

/-- The entry of a topic, without interest where the hub has none. -/
def Net.topic (n : Net) (key : SubKey) : SubState := (n.subs.get? key).getD { refcount := 0 }

/-! The objects of one session. -/

section

variable {w : Wires} {key : SubKey}

theorem wired_fresh (w : Wires) : w.fresh.Wired := by
  refine ⟨?_, ?_, ?_, ?_, ?_, ?_⟩
  · intro k
    simp [Wires.fresh]
  · rintro k t ⟨⟩
  · rintro t d ⟨⟩
  · rintro k k' x ⟨⟩
  · rintro k x ⟨⟩
  · rintro t d ⟨⟩

theorem Wires.Wired.topics_eq_none (h : w.Wired) (hoff : key ∉ w.subscribed) :
    w.topics key = none := by
  cases ht : w.topics key with
  | none => rfl
  | some t => exact absurd ((h.topics key).mp (by simp [ht])) hoff

/-- What `entry` leaves alone, and the cell that the key then has. -/
structure Entry (w : Wires) (key : SubKey) (r : Wires × Nat) : Prop where
  wired : r.1.Wired
  subscribed : r.1.subscribed = w.subscribed
  topics : r.1.topics = w.topics
  made : r.1.made = w.made
  cell : r.1.kinds key = some r.2
  interest : r.1.interest = Function.update w.interest key (some ((w.interest key).getD 0))
  next : w.next ≤ r.1.next

theorem Wires.Wired.entry (h : w.Wired) (key : SubKey) : Entry w key (w.entry key) := by
  unfold Wires.entry
  cases hk : w.kinds key with
  | some x =>
    refine ⟨h, rfl, rfl, rfl, hk, ?_, Nat.le_refl _⟩
    have hinterest : w.interest key = some (w.cells x) := by simp [Wires.interest, hk]
    rw [hinterest]
    exact (Function.update_eq_self_iff.mpr hinterest.symm).symm
  | none =>
    have hne : ∀ k x, w.kinds k = some x → k ≠ key ∧ x ≠ w.next := by
      intro k x hx
      have := h.freshCell k x hx
      refine ⟨?_, by omega⟩
      rintro rfl
      rw [hk] at hx
      cases hx
    refine ⟨⟨h.topics, ?_, h.held, ?_, ?_, ?_⟩, rfl, rfl, rfl, Function.update_self .., ?_,
      Nat.le_succ _⟩
    · intro k t ht
      obtain ⟨x, hmade, hx⟩ := h.live k t ht
      exact ⟨x, hmade, (Function.update_of_ne (hne k x hx).1 ..).trans hx⟩
    · intro k k' x hx hx'
      simp only [Function.update_apply] at hx hx'
      split at hx <;> split at hx'
      · next hk hk' => rw [hk, hk']
      · cases hx
        exact absurd rfl (hne k' _ hx').2
      · cases hx'
        exact absurd rfl (hne k _ hx).2
      · exact h.cells k k' x hx hx'
    · intro k x hx
      simp only [Function.update_apply] at hx
      split at hx
      · cases hx
        exact Nat.lt_succ_self _
      · exact Nat.lt_succ_of_lt (h.freshCell k x hx)
    · intro t d hd
      exact Nat.lt_succ_of_lt (h.freshTopic t d hd)
    · funext k
      by_cases hkey : k = key
      · subst hkey
        simp [Wires.interest, hk]
      · rw [Function.update_of_ne hkey]
        show (Function.update w.kinds key (some w.next) k).map (Function.update w.cells w.next 0) =
          (w.kinds k).map w.cells
        rw [Function.update_of_ne hkey]
        cases hx : w.kinds k with
        | none => rfl
        | some x => simp [(hne k x hx).2]

/-- `sync_kinds` changes the interest in one topic and nothing else. -/
structure Synced (w : Wires) (key : SubKey) (mask : UInt8) (w' : Wires) : Prop where
  wired : w'.Wired
  subscribed : w'.subscribed = w.subscribed
  topics : w'.topics = w.topics
  made : w'.made = w.made
  interest : w'.interest = Function.update w.interest key
    (if mask = 0 ∧ key ∉ w.subscribed then none else some mask)
  next : w.next ≤ w'.next

theorem Wires.Wired.syncKinds (h : w.Wired) (key : SubKey) (mask : UInt8) :
    Synced w key mask (w.syncKinds key mask) := by
  unfold Wires.syncKinds
  split
  · next hgone =>
    have hoff : ∀ k t, w.topics k = some t → k ≠ key := by
      rintro k t ht rfl
      exact hgone.2 ((h.topics k).mp (by simp [ht]))
    refine ⟨⟨h.topics, ?_, h.held, ?_, ?_, h.freshTopic⟩, rfl, rfl, rfl, ?_, Nat.le_refl _⟩
    · intro k t ht
      obtain ⟨x, hmade, hx⟩ := h.live k t ht
      exact ⟨x, hmade, (Function.update_of_ne (hoff k t ht) ..).trans hx⟩
    · intro k k' x hx hx'
      simp only [Function.update_apply] at hx hx'
      split at hx <;> split at hx' <;> first | cases hx | cases hx' | exact h.cells k k' x hx hx'
    · intro k x hx
      simp only [Function.update_apply] at hx
      split at hx
      · cases hx
      · exact h.freshCell k x hx
    · funext k
      rw [if_pos hgone]
      by_cases hk : k = key
      · subst hk
        simp [Wires.interest]
      · simp [Wires.interest, hk]
  · next hstay =>
    obtain ⟨hwired, hsub, htopics, hmade, hcell, hinterest, hnext⟩ := h.entry key
    generalize w.entry key = r at hwired hsub htopics hmade hcell hinterest hnext ⊢
    refine ⟨⟨hwired.topics, hwired.live, hwired.held, hwired.cells, hwired.freshCell,
      hwired.freshTopic⟩, hsub, htopics, hmade, ?_, hnext⟩
    funext k
    have hk := congrFun hinterest k
    rw [if_neg hstay]
    by_cases hkey : k = key
    · subst hkey
      simp [Wires.interest, hcell]
    · rw [Function.update_of_ne hkey] at hk ⊢
      rw [← hk]
      unfold Wires.interest
      cases hx : r.1.kinds k with
      | none => rfl
      | some x =>
        have hne : x ≠ r.2 := by
          rintro rfl
          exact hkey (hwired.cells k key _ hx hcell)
        simp [hne]

/-- `drop_delivery` takes the session off one topic. -/
structure Dropped (w : Wires) (key : SubKey) (w' : Wires) : Prop where
  wired : w'.Wired
  subscribed : w'.subscribed = w.subscribed.erase key
  topics : w'.topics = Function.update w.topics key none
  made : ∀ t d, w'.made t = some d → w.made t = some d ∧ w.topics key ≠ some t
  interest : w'.interest = Function.update w.interest key none
  next : w'.next = w.next

/-- `release` takes the topic of one key away, with its object. -/
structure Released (w : Wires) (key : SubKey) (w' : Wires) : Prop where
  subscribed : w'.subscribed = w.subscribed
  kinds : w'.kinds = w.kinds
  cells : w'.cells = w.cells
  next : w'.next = w.next
  topics : w'.topics = Function.update w.topics key none
  made : ∀ t, w'.made t = if w.topics key = some t then none else w.made t

theorem released_release (w : Wires) (key : SubKey) : Released w key (w.release key) := by
  unfold Wires.release
  cases ht : w.topics key with
  | none =>
    exact ⟨rfl, rfl, rfl, rfl, (Function.update_eq_self_iff.mpr ht.symm).symm, by simp [ht]⟩
  | some t =>
    refine ⟨rfl, rfl, rfl, rfl, rfl, ?_⟩
    intro t'
    show Function.update w.made t none t' = _
    rw [Function.update_apply, ht]
    by_cases heq : t' = t
    · simp [heq]
    · simp [heq, Ne.symm heq]

/-- A topic is in the map of its session under one key. -/
theorem Wires.Wired.topics_inj (h : w.Wired) {k k' : SubKey} {t : Nat} (hk : w.topics k = some t)
    (hk' : w.topics k' = some t) : k = k' := by
  obtain ⟨x, hx, hcell⟩ := h.live k t hk
  obtain ⟨y, hy, hcell'⟩ := h.live k' t hk'
  rw [hx] at hy
  have hcells : x = y := congrArg DeliveryTopic.kinds (Option.some.inj hy)
  exact h.cells k k' x hcell (hcells ▸ hcell')

theorem Wires.Wired.dropDelivery (h : w.Wired) (key : SubKey) :
    Dropped w key (w.dropDelivery key) := by
  obtain ⟨hsub, hkinds, hcells, hnext, htopics, hmade⟩ := released_release w key
  have hlive : ∀ t d, (w.dropDelivery key).made t = some d →
      w.made t = some d ∧ w.topics key ≠ some t := by
    intro t d hd
    have hd : (w.release key).made t = some d := hd
    rw [hmade t] at hd
    split at hd
    · cases hd
    · next hne => exact ⟨hd, hne⟩
  refine ⟨⟨?_, ?_, ?_, ?_, ?_, ?_⟩, ?_, htopics, hlive, ?_, hnext⟩
  · intro k
    show ((w.release key).topics k).isSome = true ↔ k ∈ (w.release key).subscribed.erase key
    rw [htopics, hsub, Function.update_apply, Finset.mem_erase]
    by_cases hk : k = key
    · simp [hk]
    · rw [if_neg hk, h.topics k]
      simp [hk]
  · intro k t ht
    have ht : (w.release key).topics k = some t := ht
    rw [htopics, Function.update_apply] at ht
    split at ht
    · cases ht
    · next hk =>
      obtain ⟨x, hx, hcell⟩ := h.live k t ht
      refine ⟨x, ?_, ?_⟩
      · show (w.release key).made t = _
        rw [hmade t, if_neg fun hkey => hk (h.topics_inj ht hkey)]
        exact hx
      · show Function.update (w.release key).kinds key none k = _
        rw [Function.update_of_ne hk, hkinds]
        exact hcell
  · intro t d hd
    obtain ⟨hd, hne⟩ := hlive t d hd
    obtain ⟨k, hk⟩ := h.held t d hd
    refine ⟨k, ?_⟩
    show (w.release key).topics k = some t
    rw [htopics, Function.update_of_ne]
    · exact hk
    · rintro rfl
      exact hne hk
  · intro k k' x hx hx'
    change Function.update (w.release key).kinds key none k = some x at hx
    change Function.update (w.release key).kinds key none k' = some x at hx'
    rw [hkinds, Function.update_apply] at hx hx'
    split at hx <;> split at hx' <;> first | cases hx | cases hx' | exact h.cells k k' x hx hx'
  · intro k x hx
    change Function.update (w.release key).kinds key none k = some x at hx
    rw [hkinds, Function.update_apply] at hx
    split at hx
    · cases hx
    · show x < (w.release key).next
      rw [hnext]
      exact h.freshCell k x hx
  · intro t d hd
    show t < (w.release key).next
    rw [hnext]
    exact h.freshTopic t d (hlive t d hd).1
  · show (w.release key).subscribed.erase key = _
    rw [hsub]
  · funext k
    show (Function.update (w.release key).kinds key none k).map (w.release key).cells = _
    rw [hkinds, hcells, Function.update_apply, Function.update_apply]
    split <;> rfl

end

/-- The session on a topic that it was not on, by a new delivery topic with the given cell. -/
def Wires.join (w : Wires) (key : SubKey) (cell : Nat) : Wires :=
  { w with
    made := Function.update w.made w.next (some ⟨cell, topicStream key.symbol⟩)
    topics := Function.update w.topics key (some w.next)
    subscribed := insert key w.subscribed
    next := w.next + 1 }

theorem Wires.Wired.join {w : Wires} {key : SubKey} {cell : Nat} (h : w.Wired)
    (hoff : key ∉ w.subscribed) (hcell : w.kinds key = some cell) : (w.join key cell).Wired := by
  have hnone := h.topics_eq_none hoff
  have hold : ∀ k t, w.topics k = some t → t ≠ w.next := by
    intro k t ht
    obtain ⟨x, hmade, -⟩ := h.live k t ht
    have := h.freshTopic t _ hmade
    omega
  refine ⟨?_, ?_, ?_, h.cells, ?_, ?_⟩
  · intro k
    show (Function.update w.topics key (some w.next) k).isSome = true ↔ k ∈ insert key w.subscribed
    rw [Function.update_apply, Finset.mem_insert]
    by_cases hk : k = key
    · simp [hk]
    · rw [if_neg hk, h.topics k]
      simp [hk]
  · intro k t ht
    change Function.update w.topics key (some w.next) k = some t at ht
    show ∃ x, Function.update w.made w.next _ t = some ⟨x, _⟩ ∧ w.kinds k = some x
    rw [Function.update_apply] at ht
    split at ht
    · next hk =>
      cases ht
      exact ⟨cell, by rw [Function.update_self, hk], hk ▸ hcell⟩
    · obtain ⟨x, hmade, hx⟩ := h.live k t ht
      exact ⟨x, (Function.update_of_ne (hold k t ht) ..).trans hmade, hx⟩
  · intro t d hd
    change Function.update w.made w.next _ t = some d at hd
    show ∃ k, Function.update w.topics key (some w.next) k = some t
    rw [Function.update_apply] at hd
    split at hd
    · next ht => exact ⟨key, by rw [Function.update_self, ht]⟩
    · obtain ⟨k, hk⟩ := h.held t d hd
      refine ⟨k, ?_⟩
      rw [Function.update_of_ne]
      · exact hk
      · rintro rfl
        rw [hnone] at hk
        cases hk
  · intro k x hx
    exact Nat.lt_succ_of_lt (h.freshCell k x hx)
  · intro t d hd
    change Function.update w.made w.next _ t = some d at hd
    show t < w.next + 1
    rw [Function.update_apply] at hd
    split at hd
    · omega
    · exact Nat.lt_succ_of_lt (h.freshTopic t d hd)

/-! The hub. -/

namespace Net

variable {n : Net} {id : Nat} {key : SubKey}

theorem get?_addInterest (n : Net) (key k : SubKey) :
    (n.addInterest key).subs.get? k =
      if k = key then some { n.topic key with refcount := (n.topic key).refcount + 1 }
      else n.subs.get? k := by
  unfold addInterest Fanout.addInterest topic
  cases hst : n.subs.get? key with
  | none =>
    dsimp only
    rw [Dict.get?_set]
    rfl
  | some st =>
    dsimp only
    rw [Dict.get?_set]
    rfl

/-- The entry of a topic after a removal of interest in one. -/
theorem get?_removeInterest (n : Net) (key k : SubKey) :
    (n.removeInterest key).subs.get? k =
      if k = key then (n.subs.get? key).bind fun st =>
        if st.refcount - 1 = 0 then none else some { st with refcount := st.refcount - 1 }
      else n.subs.get? k := by
  unfold removeInterest Fanout.removeInterest
  cases hst : n.subs.get? key with
  | none =>
    dsimp only
    split
    · next hk => rw [hk, hst]; rfl
    · rfl
  | some st =>
    dsimp only
    by_cases hlast : st.refcount - 1 = 0
    · rw [if_pos hlast, Dict.get?_filter_ne]
      simp [hlast]
    · rw [if_neg hlast, Dict.get?_set]
      simp [hlast]

theorem refcount_removeInterest (n : Net) (key k : SubKey) :
    ((n.removeInterest key).topic k).refcount =
      (n.topic k).refcount - if k = key then 1 else 0 := by
  show (((n.removeInterest key).subs.get? k).getD _).refcount = _
  rw [get?_removeInterest]
  by_cases hk : k = key
  · subst hk
    rw [if_pos rfl, if_pos rfl, topic]
    cases n.subs.get? k with
    | none => rfl
    | some st =>
      by_cases hlast : st.refcount - 1 = 0
      · simp [hlast]
      · simp [hlast]
  · simp [hk, topic]

theorem Linked.mem_topic {r : Weak} {k : SubKey} (h : n.Linked) (hr : r ∈ (n.topic k).deliveries) :
    r.serial < (n.wires r.session).next ∧
      ∀ d, n.upgrade r = some d → (n.wires r.session).topics k = some r.serial := by
  unfold topic at hr
  cases hst : n.subs.get? k with
  | none =>
    rw [hst] at hr
    cases hr
  | some st =>
    rw [hst] at hr
    exact ⟨h.fresh k st hst r hr, h.owned k st hst r hr⟩

theorem Linked.nodup_topic (h : n.Linked) (k : SubKey) : (n.topic k).deliveries.Nodup := by
  unfold topic
  cases hst : n.subs.get? k with
  | none => exact List.nodup_nil
  | some st => exact h.nodup k st hst

/-- A change of the entries that adds no delivery. -/
theorem Linked.of_subs {subs : Dict SubKey SubState} (h : n.Linked)
    (hsubs : ∀ k st, subs.get? k = some st →
      0 < st.refcount ∧ st.deliveries = (n.topic k).deliveries) :
    Linked { n with subs } := by
  refine ⟨h.wired, fun k st hst => (hsubs k st hst).1, ?_, ?_, ?_⟩
  · intro k st hst
    rw [(hsubs k st hst).2]
    exact h.nodup_topic k
  · intro k st hst r hr
    rw [(hsubs k st hst).2] at hr
    exact (h.mem_topic hr).1
  · intro k st hst r hr
    rw [(hsubs k st hst).2] at hr
    exact (h.mem_topic hr).2

theorem topic_of_get? {k : SubKey} {st : SubState} (hst : n.subs.get? k = some st) :
    n.topic k = st := by
  simp [topic, hst]

theorem Linked.addInterest (h : n.Linked) (key : SubKey) : (n.addInterest key).Linked := by
  refine h.of_subs ?_
  intro k st hst
  have hst : (n.addInterest key).subs.get? k = some st := hst
  rw [get?_addInterest] at hst
  split at hst
  · next hk =>
    cases hst
    exact ⟨Nat.succ_pos _, by rw [hk]⟩
  · exact ⟨h.pos k st hst, by rw [topic_of_get? hst]⟩

theorem Linked.removeInterest (h : n.Linked) (key : SubKey) : (n.removeInterest key).Linked := by
  refine h.of_subs ?_
  intro k st hst
  have hst : (n.removeInterest key).subs.get? k = some st := hst
  rw [get?_removeInterest] at hst
  split at hst
  · next hk =>
    obtain ⟨st', hst', hst⟩ := Option.bind_eq_some_iff.mp hst
    split at hst
    · cases hst
    · cases hst
      refine ⟨by simp only; omega, ?_⟩
      rw [hk, topic_of_get? hst']
  · exact ⟨h.pos k st hst, by rw [topic_of_get? hst]⟩

/-- A change of one session's objects that revives no topic and moves none to another key. -/
theorem Linked.setWires {w : Wires} (h : n.Linked) (hw : w.Wired)
    (hnext : (n.wires id).next ≤ w.next)
    (hmade : ∀ t d, t < (n.wires id).next → w.made t = some d →
      ∃ d, (n.wires id).made t = some d)
    (htopics : ∀ k t d, w.made t = some d → (n.wires id).topics k = some t → w.topics k = some t) :
    (n.setWires id w).Linked := by
  have hwires : ∀ i, (n.setWires id w).wires i = if i = id then w else n.wires i := by
    intro i
    exact Function.update_apply ..
  refine ⟨?_, h.pos, h.nodup, ?_, ?_⟩
  · intro i
    rw [hwires i]
    split
    · exact hw
    · exact h.wired i
  · intro k st hst r hr
    have := h.fresh k st hst r hr
    rw [hwires]
    split
    · next hid =>
      rw [hid] at this
      omega
    · exact this
  · intro k st hst r hr d hd
    have hfresh := h.fresh k st hst r hr
    have howned := h.owned k st hst r hr
    unfold upgrade at hd howned
    rw [hwires] at hd ⊢
    split at hd
    · next hid =>
      rw [if_pos hid]
      rw [hid] at hfresh howned
      obtain ⟨d', hd'⟩ := hmade r.serial d hfresh hd
      exact htopics k r.serial d hd (howned d' hd')
    · next hid =>
      rw [if_neg hid]
      exact howned d hd

/-- The hub's entry after a session that was not on the topic attaches to it. -/
def joined (n : Net) (id : Nat) (key : SubKey) : SubState :=
  { refcount := (n.topic key).refcount + 1
    deliveries := ((n.topic key).deliveries.filter fun r => (n.upgrade r).isSome) ++
      [(⟨id, ((n.wires id).entry key).1.next⟩ : Weak)] }

theorem attachSharedTopic_eq (h : n.Linked) (hoff : key ∉ (n.wires id).subscribed) :
    n.attachSharedTopic id key =
      ⟨(n.addInterest key).subs.set key (n.joined id key), Function.update n.wires id
        (((n.wires id).entry key).1.join key ((n.wires id).entry key).2)⟩ := by
  obtain ⟨hwired, hsub, htopics, hmade, -, -, -⟩ := (h.wired id).entry key
  have hnone : ((n.wires id).entry key).1.topics key = none := by
    rw [htopics]
    exact (h.wired id).topics_eq_none hoff
  have hup : ∀ r, ((n.addInterest key).setWires id ((n.wires id).entry key).1).upgrade r =
      n.upgrade r := by
    intro r
    show (Function.update n.wires id _ r.session).made r.serial = (n.wires r.session).made r.serial
    rw [Function.update_apply]
    split
    · next hid => rw [hmade, hid]
    · rfl
  have hst : ((n.addInterest key).setWires id ((n.wires id).entry key).1).subs.get? key =
      some { n.topic key with refcount := (n.topic key).refcount + 1 } := by
    show (n.addInterest key).subs.get? key = _
    rw [get?_addInterest, if_pos rfl]
  unfold attachSharedTopic ensureDelivery
  rw [if_neg hoff, if_neg (show key ∉ ((n.addInterest key).wires id).subscribed from hoff)]
  dsimp only
  unfold subscribeDelivery
  rw [show (n.addInterest key).wires = n.wires from rfl, hst]
  simp only [hup]
  unfold setWires joined
  simp only [Function.update_self, Function.update_idem]
  unfold Wires.release
  simp only [hnone]
  rfl

theorem Linked.join (h : n.Linked) (hoff : key ∉ (n.wires id).subscribed) :
    Linked ⟨(n.addInterest key).subs.set key (n.joined id key), Function.update n.wires id
      (((n.wires id).entry key).1.join key ((n.wires id).entry key).2)⟩ := by
  obtain ⟨hwired, hsub, htopics, hmade, hcell, -, hnext⟩ := (h.wired id).entry key
  generalize hw : ((n.wires id).entry key).1 = w at hwired hsub htopics hmade hcell hnext ⊢
  generalize ((n.wires id).entry key).2 = cell at hcell ⊢
  -- the deliveries of an entry are the new one, under the key, and some that were there
  have hold : ∀ k st, ((n.addInterest key).subs.set key (n.joined id key)).get? k = some st →
      ∀ r ∈ st.deliveries, (k = key ∧ r = ⟨id, w.next⟩) ∨ r ∈ (n.topic k).deliveries := by
    intro k st hst r hr
    rw [Dict.get?_set] at hst
    split at hst
    · next hk =>
      cases hst
      rcases List.mem_append.mp hr with hr | hr
      · exact .inr (hk ▸ (List.mem_filter.mp hr).1)
      · rw [hw] at hr
        exact .inl ⟨hk, List.mem_singleton.mp hr⟩
    · next hk =>
      rw [get?_addInterest, if_neg hk] at hst
      exact .inr (topic_of_get? hst ▸ hr)
  have hfresh : ∀ k, ∀ r ∈ (n.topic k).deliveries, r.session = id → r.serial < w.next := by
    intro k r hr hid
    have := (h.mem_topic hr).1
    rw [hid] at this
    omega
  refine ⟨?_, ?_, ?_, ?_, ?_⟩
  · intro i
    show (Function.update n.wires id _ i).Wired
    rw [Function.update_apply]
    split
    · exact hwired.join (hsub ▸ hoff) hcell
    · exact h.wired i
  · intro k st hst
    rw [Dict.get?_set] at hst
    split at hst
    · cases hst
      exact Nat.succ_pos _
    · next hk =>
      rw [get?_addInterest, if_neg hk] at hst
      exact h.pos k st hst
  · intro k st hst
    rw [Dict.get?_set] at hst
    split at hst
    · cases hst
      refine List.nodup_append.mpr ⟨(h.nodup_topic key).filter _, List.nodup_singleton _, ?_⟩
      rintro r hr _ hnew rfl
      rw [hw] at hnew
      obtain rfl := List.mem_singleton.mp hnew
      have := hfresh key _ (List.mem_filter.mp hr).1 rfl
      simp at this
    · next hk =>
      rw [get?_addInterest, if_neg hk] at hst
      exact h.nodup k st hst
  · intro k st hst r hr
    show r.serial < (Function.update n.wires id _ r.session).next
    rw [Function.update_apply]
    rcases hold k st hst r hr with ⟨-, rfl⟩ | hr
    · rw [if_pos rfl]
      exact Nat.lt_succ_self _
    · split
      · next hid => exact Nat.lt_succ_of_lt (hfresh k r hr hid)
      · exact (h.mem_topic hr).1
  · intro k st hst r hr d hd
    change (Function.update n.wires id _ r.session).made r.serial = some d at hd
    show (Function.update n.wires id _ r.session).topics k = _
    rw [Function.update_apply] at hd ⊢
    rcases hold k st hst r hr with ⟨rfl, rfl⟩ | hr
    · rw [if_pos rfl]
      exact Function.update_self ..
    · have howned := (h.mem_topic hr).2
      unfold upgrade at howned
      by_cases hid : r.session = id
      · rw [if_pos hid] at hd ⊢
        rw [hid] at howned
        have hne : r.serial ≠ w.next := Nat.ne_of_lt (hfresh k r hr hid)
        have hd : w.made r.serial = some d := (Function.update_of_ne hne ..).symm.trans hd
        have hk := howned d (hmade ▸ hd)
        have hkey : k ≠ key := by
          rintro rfl
          exact hoff (((h.wired id).topics k).mp (by simp [hk]))
        show Function.update w.topics key _ k = _
        rw [Function.update_of_ne hkey, htopics]
        exact hk
      · rw [if_neg hid] at hd ⊢
        exact howned d hd

theorem Linked.call (h : n.Linked) (id : Nat) (c : Call) : (n.call id c).Linked := by
  cases c with
  | attach key =>
    show (n.attachSharedTopic id key).Linked
    by_cases hmem : key ∈ (n.wires id).subscribed
    · simpa [attachSharedTopic, ensureDelivery, hmem] using h
    · rw [attachSharedTopic_eq h hmem]
      exact h.join hmem
  | sync key mask =>
    obtain ⟨hwired, -, htopics, hmade, -, hnext⟩ := (h.wired id).syncKinds key mask
    refine h.setWires hwired hnext ?_ ?_
    · intro t d _ hd
      exact ⟨d, hmade ▸ hd⟩
    · intro k t d _ ht
      rw [htopics]
      exact ht
  | leave key =>
    obtain ⟨hwired, -, htopics, hmade, -, hnext⟩ := (h.wired id).dropDelivery key
    refine Linked.removeInterest (h.setWires hwired hnext.ge ?_ ?_) key
    · intro t d _ hd
      exact ⟨d, (hmade t d hd).1⟩
    · intro k t d hd ht
      rw [htopics, Function.update_of_ne]
      · exact ht
      · rintro rfl
        exact (hmade t d hd).2 ht

theorem wires_call_ne {i : Nat} (h : n.Linked) (hne : i ≠ id) (c : Call) :
    (n.call id c).wires i = n.wires i := by
  cases c with
  | attach key =>
    show (n.attachSharedTopic id key).wires i = _
    by_cases hmem : key ∈ (n.wires id).subscribed
    · simp [attachSharedTopic, ensureDelivery, hmem]
    · rw [attachSharedTopic_eq h hmem]
      exact Function.update_of_ne hne ..
  | sync key mask => exact Function.update_of_ne hne ..
  | leave key => exact Function.update_of_ne hne ..

/-- The objects of a session, and the counts of the hub, are those of a view. -/
structure Shows (n : Net) (id : Nat) (v : View) : Prop where
  subscribed : (n.wires id).subscribed = v.subscribed
  interest : (n.wires id).interest = v.kinds
  refcount : ∀ k, (n.topic k).refcount = v.hub.count k

theorem Shows.attach {v : View} (h : n.Linked) (hs : n.Shows id v) (key : SubKey) :
    (n.attachSharedTopic id key).Shows id (v.attach key) := by
  by_cases hmem : key ∈ (n.wires id).subscribed
  · have hv : v.attach key = v := if_pos (hs.subscribed ▸ hmem)
    rw [hv]
    simpa [attachSharedTopic, ensureDelivery, hmem] using hs
  · rw [attachSharedTopic_eq h hmem]
    obtain ⟨-, hsub, -, -, -, hinterest, -⟩ := (h.wired id).entry key
    unfold View.attach
    rw [if_neg (hs.subscribed ▸ hmem)]
    refine ⟨?_, ?_, ?_⟩
    · show (Function.update n.wires id _ id).subscribed = _
      rw [Function.update_self, ← hs.subscribed]
      exact congrArg (insert key) hsub
    · show (Function.update n.wires id _ id).interest = _
      rw [Function.update_self, ← hs.interest]
      exact hinterest
    · intro k
      show (((Dict.set _ key (n.joined id key)).get? k).getD _).refcount = _
      rw [Tally.count_bump, ← hs.refcount k, Dict.get?_set, get?_addInterest]
      by_cases hk : k = key
      · simp [hk, joined]
      · simp [hk, topic]

theorem Shows.call {v : View} (h : n.Linked) (hs : n.Shows id v) (c : Call) :
    (n.call id c).Shows id (v.call c) := by
  cases c with
  | attach key => exact hs.attach h key
  | sync key mask =>
    obtain ⟨-, hsub, -, -, hinterest, -⟩ := (h.wired id).syncKinds key mask
    have hself : (n.call id (.sync key mask)).wires id = (n.wires id).syncKinds key mask :=
      Function.update_self ..
    rw [hs.interest, hs.subscribed] at hinterest
    unfold View.call
    dsimp only
    split
    · next hgone =>
      rw [if_pos hgone] at hinterest
      exact ⟨by rw [hself, hsub, hs.subscribed], by rw [hself, hinterest], hs.refcount⟩
    · next hstay =>
      rw [if_neg hstay] at hinterest
      exact ⟨by rw [hself, hsub, hs.subscribed], by rw [hself, hinterest], hs.refcount⟩
  | leave key =>
    obtain ⟨-, hsub, -, -, hinterest, -⟩ := (h.wired id).dropDelivery key
    have hself : (n.call id (.leave key)).wires id = (n.wires id).dropDelivery key :=
      Function.update_self ..
    refine ⟨by rw [hself, hsub, hs.subscribed]; rfl, by rw [hself, hinterest, hs.interest]; rfl, ?_⟩
    intro k
    show ((Net.removeInterest _ key).topic k).refcount = (v.hub.drop key).1.count k
    rw [refcount_removeInterest, Tally.count_drop, ← hs.refcount k]
    rfl

/-- The hub knows every delivery on the topic and counts the sessions that are on it. -/
structure Counted (n : Net) (k : SubKey) : Prop where
  present : n.Present k
  counted : ∃ ids : Finset Nat, (∀ id, k ∈ (n.wires id).subscribed ↔ id ∈ ids) ∧
    (n.topic k).refcount = ids.card

theorem get?_attachSharedTopic (h : n.Linked) (hoff : key ∉ (n.wires id).subscribed) (k : SubKey) :
    (n.attachSharedTopic id key).subs.get? k =
      if k = key then some (n.joined id key) else n.subs.get? k := by
  rw [attachSharedTopic_eq h hoff]
  show (Dict.set _ key (n.joined id key)).get? k = _
  rw [Dict.get?_set, get?_addInterest]
  by_cases hk : k = key
  · simp [hk]
  · simp [hk]

theorem present_attach {k : SubKey} (h : n.Linked) (hp : n.Present k)
    (hoff : key ∉ (n.wires id).subscribed) : (n.attachSharedTopic id key).Present k := by
  intro i t ht
  rw [get?_attachSharedTopic h hoff]
  rw [attachSharedTopic_eq h hoff] at ht
  change (Function.update n.wires id _ i).topics k = some t at ht
  by_cases hk : k = key
  · subst hk
    refine ⟨n.joined id k, if_pos rfl, ?_⟩
    by_cases hi : i = id
    · subst hi
      rw [Function.update_self] at ht
      change Function.update ((n.wires i).entry k).1.topics k (some ((n.wires i).entry k).1.next) k =
        some t at ht
      rw [Function.update_self] at ht
      cases ht
      exact List.mem_append_right _ List.mem_cons_self
    · rw [Function.update_of_ne hi] at ht
      obtain ⟨st, hst, hmem⟩ := hp i t ht
      obtain ⟨x, hmade, -⟩ := (h.wired i).live k t ht
      refine List.mem_append_left _ (List.mem_filter.mpr ⟨?_, ?_⟩)
      · rw [topic_of_get? hst]
        exact hmem
      · exact Option.isSome_of_eq_some (show n.upgrade ⟨i, t⟩ = _ from hmade)
  · rw [if_neg hk]
    refine hp i t ?_
    by_cases hi : i = id
    · subst hi
      rw [Function.update_self] at ht
      rw [← ((h.wired i).entry key).topics]
      exact (Function.update_of_ne hk ..).symm.trans ht
    · rwa [Function.update_of_ne hi] at ht

theorem Counted.attach {k : SubKey} (h : n.Linked) (hc : n.Counted k) (id : Nat) (key : SubKey) :
    (n.attachSharedTopic id key).Counted k := by
  by_cases hoff : key ∈ (n.wires id).subscribed
  · simpa [attachSharedTopic, ensureDelivery, hoff] using hc
  · refine ⟨present_attach h hc.present hoff, ?_⟩
    obtain ⟨ids, hids, hcount⟩ := hc.counted
    have hsub : ∀ i, ((n.attachSharedTopic id key).wires i).subscribed =
        if i = id then insert key (n.wires id).subscribed else (n.wires i).subscribed := by
      intro i
      rw [attachSharedTopic_eq h hoff]
      show (Function.update n.wires id _ i).subscribed = _
      rw [Function.update_apply]
      split
      · exact congrArg (insert key) ((h.wired id).entry key).subscribed
      · rfl
    have htopic : (n.attachSharedTopic id key).topic k =
        if k = key then n.joined id key else n.topic k := by
      unfold topic
      rw [get?_attachSharedTopic h hoff]
      split <;> rfl
    by_cases hk : k = key
    · subst hk
      have hid : id ∉ ids := fun hmem => hoff ((hids id).mpr hmem)
      refine ⟨insert id ids, ?_, ?_⟩
      · intro i
        rw [hsub i, Finset.mem_insert]
        by_cases hi : i = id
        · simp [hi]
        · rw [if_neg hi, hids i]
          simp [hi]
      · rw [htopic, if_pos rfl, Finset.card_insert_of_notMem hid, ← hcount]
        rfl
    · refine ⟨ids, ?_, by rw [htopic, if_neg hk, hcount]⟩
      intro i
      rw [hsub i, ← hids i]
      split
      · next hi => rw [Finset.mem_insert, hi]; simp [hk]
      · rfl

/-- A step that leaves the entry of the topic, and the sessions on it, alone. -/
theorem Counted.keep {n' : Net} (hc : n.Counted key)
    (hget : n'.subs.get? key = n.subs.get? key)
    (hwires : ∀ i, (n'.wires i).topics key = (n.wires i).topics key ∧
      (key ∈ (n'.wires i).subscribed ↔ key ∈ (n.wires i).subscribed)) : n'.Counted key := by
  obtain ⟨ids, hids, hcount⟩ := hc.counted
  refine ⟨?_, ids, ?_, ?_⟩
  · intro i t ht
    rw [(hwires i).1] at ht
    rw [hget]
    exact hc.present i t ht
  · intro i
    rw [(hwires i).2]
    exact hids i
  · unfold topic at hcount ⊢
    rw [hget]
    exact hcount

/-- A step in which a session that is on the topic leaves it. -/
theorem Counted.off {n' : Net} (h : n.Linked) (hc : n.Counted key)
    (hon : key ∈ (n.wires id).subscribed)
    (hget : n'.subs.get? key = (n.removeInterest key).subs.get? key)
    (hother : ∀ i ≠ id, n'.wires i = n.wires i) (htopics : (n'.wires id).topics key = none)
    (hsub : key ∉ (n'.wires id).subscribed) : n'.Counted key := by
  obtain ⟨ids, hids, hcount⟩ := hc.counted
  have hid : id ∈ ids := (hids id).mp hon
  refine ⟨?_, ids.erase id, ?_, ?_⟩
  · intro i t ht
    by_cases hi : i = id
    · rw [hi, htopics] at ht
      cases ht
    · rw [hother i hi] at ht
      obtain ⟨st, hst, hmem⟩ := hc.present i t ht
      have hon' : i ∈ ids := (hids i).mp (((h.wired i).topics key).mp (by simp [ht]))
      -- the other session is counted too, so the entry stays
      have hcard : 1 < ids.card := Finset.one_lt_card.mpr ⟨i, hon', id, hid, hi⟩
      rw [topic_of_get? hst] at hcount
      rw [get?_removeInterest, if_pos rfl, hst, Option.bind_some, if_neg (by omega)] at hget
      exact ⟨_, hget, hmem⟩
  · intro i
    rw [Finset.mem_erase]
    by_cases hi : i = id
    · rw [hi]
      simp [hsub]
    · rw [hother i hi, hids i]
      simp [hi]
  · have hrefcount := refcount_removeInterest n key key
    unfold topic at hrefcount ⊢
    rw [hget, hrefcount, if_pos rfl, Finset.card_erase_of_mem hid, ← hcount]
    rfl

theorem Counted.call {k : SubKey} (h : n.Linked) (hc : n.Counted k) {c : Call}
    (hleave : c = .leave k → k ∈ (n.wires id).subscribed) : (n.call id c).Counted k := by
  cases c with
  | attach key => exact hc.attach h id key
  | sync key mask =>
    obtain ⟨-, hsub, htopics, -, -, -⟩ := (h.wired id).syncKinds key mask
    refine hc.keep rfl ?_
    intro i
    show (Function.update n.wires id _ i).topics k = _ ∧
      (k ∈ (Function.update n.wires id _ i).subscribed ↔ _)
    rw [Function.update_apply]
    split
    · next hi => rw [hi, htopics, hsub]; exact ⟨rfl, Iff.rfl⟩
    · exact ⟨rfl, Iff.rfl⟩
  | leave key =>
    obtain ⟨-, hsub, htopics, -, -, -⟩ := (h.wired id).dropDelivery key
    have hwires : ∀ i, (n.call id (.leave key)).wires i =
        if i = id then (n.wires id).dropDelivery key else n.wires i := by
      intro i
      exact Function.update_apply ..
    by_cases hk : k = key
    · subst hk
      refine hc.off h (hleave rfl) ?_ (fun i hi => by rw [hwires, if_neg hi]) ?_ ?_
      · refine (get?_removeInterest _ k k).trans ?_
        rw [get?_removeInterest]
        rfl
      · rw [hwires, if_pos rfl, htopics, Function.update_self]
      · rw [hwires, if_pos rfl, hsub]
        simp
    · refine hc.keep ?_ ?_
      · refine (get?_removeInterest _ key k).trans ?_
        rw [if_neg hk]
        rfl
      · intro i
        rw [hwires]
        split
        · next hi =>
          rw [hi, htopics, hsub, Function.update_of_ne hk, Finset.mem_erase]
          exact ⟨rfl, and_iff_right hk⟩
        · exact ⟨rfl, Iff.rfl⟩

/-! Lists of calls. -/

theorem Linked.calls (h : n.Linked) (id : Nat) (l : List Call) :
    (l.foldl (Net.call id) n).Linked := by
  induction l generalizing n with
  | nil => exact h
  | cons c l ih => exact ih (h.call id c)

theorem wires_calls_ne {i : Nat} (h : n.Linked) (hne : i ≠ id) (l : List Call) :
    (l.foldl (Net.call id) n).wires i = n.wires i := by
  induction l generalizing n with
  | nil => rfl
  | cons c l ih => exact (ih (h.call id c)).trans (wires_call_ne h hne c)

theorem Shows.calls {v : View} (h : n.Linked) (hs : n.Shows id v) (l : List Call) :
    (l.foldl (Net.call id) n).Shows id (l.foldl View.call v) := by
  induction l generalizing n v with
  | nil => exact hs
  | cons c l ih => exact ih (h.call id c) (hs.call h c)

end Net

/-- A session leaves the topic only while it is on it. -/
def Guarded (k : SubKey) : View → List Call → Prop
  | _, [] => True
  | v, c :: l => (c = .leave k → k ∈ v.subscribed) ∧ Guarded k (v.call c) l

namespace Net

variable {n : Net} {id : Nat}

theorem Counted.calls {k : SubKey} {v : View} {l : List Call} (h : n.Linked) (hs : n.Shows id v)
    (hc : n.Counted k) (hg : Guarded k v l) : (l.foldl (Net.call id) n).Counted k := by
  induction l generalizing n v with
  | nil => exact hc
  | cons c l ih =>
    refine ih (h.call id c) (hs.call h c) (hc.call h ?_) hg.2
    rw [hs.subscribed]
    exact hg.1

/-! A teardown. -/

theorem wires_removeAll (n : Net) (ks : List SubKey) :
    (ks.foldl Net.removeInterest n).wires = n.wires := by
  induction ks generalizing n with
  | nil => rfl
  | cons k ks ih => exact ih (n.removeInterest k)

theorem removeAll_setWires (n : Net) (id : Nat) (w : Wires) (ks : List SubKey) :
    ks.foldl Net.removeInterest (n.setWires id w) =
      (ks.foldl Net.removeInterest n).setWires id w := by
  induction ks generalizing n with
  | nil => rfl
  | cons k ks ih => exact ih (n.removeInterest k)

theorem Linked.removeAll {ks : List SubKey} (h : n.Linked) :
    (ks.foldl Net.removeInterest n).Linked := by
  induction ks generalizing n with
  | nil => exact h
  | cons k ks ih => exact ih (h.removeInterest k)

/-- The entry of a topic after a removal of interest in each of some. -/
theorem get?_removeAll {ks : List SubKey} (hks : ks.Nodup) (n : Net) (k : SubKey) :
    (ks.foldl Net.removeInterest n).subs.get? k =
      if k ∈ ks then (n.removeInterest k).subs.get? k else n.subs.get? k := by
  induction ks generalizing n with
  | nil => rfl
  | cons key ks ih =>
    obtain ⟨hnew, hks⟩ := List.nodup_cons.mp hks
    rw [List.foldl_cons, ih hks]
    simp only [get?_removeInterest, List.mem_cons]
    by_cases hk : k = key
    · subst hk
      simp [hnew]
    · simp [hk]

theorem next_syncKinds (w : Wires) (key : SubKey) (mask : UInt8) :
    w.next ≤ (w.syncKinds key mask).next := by
  unfold Wires.syncKinds Wires.entry
  split
  · exact Nat.le_refl _
  · dsimp only
    split
    · exact Nat.le_refl _
    · exact Nat.le_succ _

/-- The hub without the interest of the session, and the session without its maps. -/
theorem teardown_eq (n : Net) (id : Nat) (c : SessionCtx) (d : DrainOrder) :
    ∃ w : Wires, (n.wires id).next ≤ w.next ∧
      n.teardown id c d = (d.subscribed.foldl Net.removeInterest n).setWires id w.fresh := by
  have hdone : ∀ w : Wires, (d.subscribed.foldl Net.removeInterest (n.setWires id w)).setWires id
      ((d.subscribed.foldl Net.removeInterest (n.setWires id w)).wires id).fresh =
      (d.subscribed.foldl Net.removeInterest n).setWires id w.fresh := by
    intro w
    rw [removeAll_setWires]
    unfold setWires
    simp only [Function.update_self, Function.update_idem]
  unfold teardown
  dsimp only
  rw [hdone]
  refine ⟨_, ?_, rfl⟩
  split
  · exact next_syncKinds { n.wires id with topics := fun _ => none, made := fun _ => none } ..
  · exact Nat.le_refl _

theorem Linked.teardown (h : n.Linked) (id : Nat) (c : SessionCtx) (d : DrainOrder) :
    (n.teardown id c d).Linked := by
  obtain ⟨w, hnext, heq⟩ := n.teardown_eq id c d
  rw [heq]
  refine h.removeAll.setWires (wired_fresh w) ?_ ?_ ?_
  · rw [wires_removeAll]
    exact hnext
  · rintro t d' - ⟨⟩
  · rintro k t d' ⟨⟩

theorem wires_teardown (n : Net) (id : Nat) (c : SessionCtx) (d : DrainOrder) :
    (∀ i ≠ id, (n.teardown id c d).wires i = n.wires i) ∧
      ((n.teardown id c d).wires id).subscribed = ∅ ∧
      ∀ k, ((n.teardown id c d).wires id).topics k = none := by
  obtain ⟨w, -, heq⟩ := n.teardown_eq id c d
  have hwires : ∀ i, (n.teardown id c d).wires i = if i = id then w.fresh else n.wires i := by
    intro i
    rw [heq]
    show Function.update (List.foldl Net.removeInterest n d.subscribed).wires id _ i = _
    rw [wires_removeAll, Function.update_apply]
  refine ⟨fun i hi => by rw [hwires, if_neg hi], ?_, ?_⟩
  · rw [hwires, if_pos rfl]
    rfl
  · intro k
    rw [hwires, if_pos rfl]
    rfl

theorem get?_teardown (n : Net) (id : Nat) (c : SessionCtx) {d : DrainOrder}
    (hd : d.subscribed.Nodup) (k : SubKey) : (n.teardown id c d).subs.get? k =
      if k ∈ d.subscribed then (n.removeInterest k).subs.get? k else n.subs.get? k := by
  obtain ⟨w, -, heq⟩ := n.teardown_eq id c d
  rw [heq]
  exact get?_removeAll hd n k

theorem refcount_teardown (n : Net) (id : Nat) (c : SessionCtx) {d : DrainOrder}
    (hd : d.subscribed.Nodup) (k : SubKey) : ((n.teardown id c d).topic k).refcount =
      (n.topic k).refcount - if k ∈ d.subscribed then 1 else 0 := by
  have hrefcount := refcount_removeInterest n k k
  rw [if_pos rfl] at hrefcount
  unfold topic at hrefcount ⊢
  rw [get?_teardown n id c hd]
  split
  · exact hrefcount
  · rfl

theorem Counted.teardown {k : SubKey} {c : SessionCtx} {d : DrainOrder} (h : n.Linked)
    (hc : n.Counted k) (hd : d.subscribed.Nodup)
    (hsub : k ∈ d.subscribed ↔ k ∈ (n.wires id).subscribed) : (n.teardown id c d).Counted k := by
  obtain ⟨hother, hsubscribed, htopics⟩ := n.wires_teardown id c d
  have hget := n.get?_teardown id c hd k
  by_cases hon : k ∈ (n.wires id).subscribed
  · rw [if_pos (hsub.mpr hon)] at hget
    exact hc.off h hon hget hother (htopics k) (by simp [hsubscribed])
  · rw [if_neg (mt hsub.mp hon)] at hget
    refine hc.keep hget ?_
    intro i
    by_cases hi : i = id
    · subst hi
      rw [htopics k, hsubscribed]
      exact ⟨((h.wired i).topics_eq_none hon).symm, by simpa using hon⟩
    · rw [hother i hi]
      exact ⟨rfl, Iff.rfl⟩

end Net

end RithmicNt.Host.Fanout
