import RithmicNt.Host.Subscriptions

/-! What each operation of a session keeps: the host's counts stay the holdings of the sessions, and
the session is on the topics that carry its intents. -/

namespace RithmicNt.Host

open RithmicNt.Lib

/-- Each topic of the session has the kind mask of the session's holdings on it. -/
def SessionCtx.Synced (c : SessionCtx) : Prop :=
  ∀ k, c.kinds k = if k ∈ c.subscribed then some (c.mask k) else none

/-- A session's topics and kind masks are those of its holdings. -/
structure SessionCtx.Sound (c : SessionCtx) : Prop where
  topics : ∀ k, k ∈ c.subscribed ↔ c.Carries k
  brackets : c.brackets = true → c.order = true
  plain : ∀ i : MdIntent, c.has i = true → i.key ≠ orderKey ∧ i.key ≠ pnlKey
  synced : c.Synced

/-- The counts of the host are the holdings of this session and of the others, `others` sessions
for each intent and `topics` for each topic. -/
structure Balanced (others : Intent → Nat) (topics : SubKey → Nat) (s : Scope) : Prop where
  counts : ∀ i, s.state.store.count i = others i + (s.client.holds i).toNat
  interest : ∀ k, s.state.hub.count k = topics k + if k ∈ s.client.subscribed then 1 else 0
  marked : s.state.store.Marked

variable {others : Intent → Nat} {topics : SubKey → Nat} {s : Scope}

namespace Balanced

theorem of_state {state : HostState} (h : Balanced others topics s)
    (hstore : state.store = s.state.store) (hhub : state.hub = s.state.hub) :
    Balanced others topics ⟨state, s.client⟩ :=
  ⟨by simpa [hstore] using h.counts, by simpa [hhub] using h.interest, by simpa [hstore] using h.marked⟩

theorem of_client {c : SessionCtx} (h : Balanced others topics s)
    (hholds : ∀ i, c.holds i = s.client.holds i) (hsub : c.subscribed = s.client.subscribed) :
    Balanced others topics ⟨s.state, c⟩ :=
  ⟨by simpa [hholds] using h.counts, by simpa [hsub] using h.interest, h.marked⟩

theorem lockVenue (h : Balanced others topics s) (a : Answers) :
    Balanced others topics (s.lockVenue a) :=
  h.of_state rfl rfl

/-- An intent is noted and recorded in a session that did not hold it. -/
theorem note {c : SessionCtx} {i : Intent} (h : Balanced others topics s)
    (hnot : s.client.holds i = false) (hholds : ∀ j, c.holds j = (decide (j = i) || s.client.holds j))
    (hsub : c.subscribed = s.client.subscribed) :
    Balanced others topics ⟨(s.note i).state, c⟩ := by
  refine ⟨?_, by intro k; rw [hsub]; exact h.interest k, h.marked.note i⟩
  intro j
  show (s.state.store.note i).1.count j = _
  have := h.counts j
  rw [IntentStore.count_note, this, hholds]
  by_cases hji : j = i
  · subst hji
    simp [hnot]
  · simp [hji]

/-- An intent is forgotten and taken from a session that held it. -/
theorem forget {c : SessionCtx} {i : Intent} (h : Balanced others topics s)
    (hhas : s.client.holds i = true)
    (hholds : ∀ j, c.holds j = (decide (j ≠ i) && s.client.holds j))
    (hsub : c.subscribed = s.client.subscribed) :
    Balanced others topics ⟨(s.forget i).state, c⟩ := by
  refine ⟨?_, by intro k; rw [hsub]; exact h.interest k, h.marked.forget i⟩
  intro j
  show (s.state.store.forget i).1.count j = _
  have := h.counts j
  rw [IntentStore.count_forget, this, hholds]
  by_cases hji : j = i
  · subst hji
    simp [hhas]
  · simp [hji]

theorem markDegraded (h : Balanced others topics s) (i : MdIntent) :
    Balanced others topics (s.markDegraded i) :=
  ⟨by simpa [Scope.markDegraded] using h.counts, h.interest, h.marked.markDegraded i⟩

theorem clearDegraded (h : Balanced others topics s) (i : MdIntent) :
    Balanced others topics (s.clearDegraded i) :=
  ⟨by simpa [Scope.clearDegraded] using h.counts, h.interest, h.marked.clearDegraded i⟩

end Balanced

namespace SessionCtx

theorem holds_insert (c : SessionCtx) (i : MdIntent) (j : Intent) :
    (c.insert i).holds j = (decide (j = .md i) || c.holds j) := by
  obtain ⟨-, hpnl, horder, hbrackets⟩ := c.insert_frame i
  cases j with
  | md j =>
    rw [Bool.eq_iff_iff]
    simpa [holds] using c.has_insert i j
  | pnl => simpa [holds] using hpnl
  | order => simpa [holds] using horder
  | brackets => simpa [holds] using hbrackets

theorem holds_remove (c : SessionCtx) (i : MdIntent) (j : Intent) :
    (c.remove i).holds j = (decide (j ≠ .md i) && c.holds j) := by
  obtain ⟨-, hpnl, horder, hbrackets⟩ := c.remove_frame i
  cases j with
  | md j =>
    rw [Bool.eq_iff_iff]
    simpa [holds] using c.has_remove i j
  | pnl => simpa [holds] using hpnl
  | order => simpa [holds] using horder
  | brackets => simpa [holds] using hbrackets

end SessionCtx

/-- `note` and `client_insert`. -/
theorem Balanced.enter {i : MdIntent} (h : Balanced others topics s)
    (hnot : s.client.has i = false) : Balanced others topics ((s.note (.md i)).insert i) :=
  h.note hnot (s.client.holds_insert i) (s.client.insert_frame i).1

/-- `client_remove` and `forget`. -/
theorem Balanced.leave {i : MdIntent} (h : Balanced others topics s)
    (hhas : s.client.has i = true) : Balanced others topics ((s.remove i).forget (.md i)) :=
  h.forget (i := .md i) hhas (s.client.holds_remove i) (s.client.remove_frame i).1

theorem holds_ensureDelivery (c : SessionCtx) (hub : Tally SubKey) (key : SubKey) (i : Intent) :
    (c.ensureDelivery hub key).holds i = c.holds i := by
  unfold SessionCtx.ensureDelivery
  split
  · rfl
  · split <;> rcases i with (_ | _ | _) | _ | _ | _ <;> rfl

theorem holds_dropDelivery (c : SessionCtx) (key : SubKey) (i : Intent) :
    (c.dropDelivery key).holds i = c.holds i := by
  rcases i with (_ | _ | _) | _ | _ | _ <;> rfl

theorem attachSharedTopic_holds (s : Scope) (key : SubKey) (i : Intent) :
    (attachSharedTopic s key).client.holds i = s.client.holds i := by
  unfold attachSharedTopic
  split <;> exact holds_ensureDelivery _ _ _ _

theorem attachSharedTopic_subscribed (s : Scope) (key : SubKey) :
    (attachSharedTopic s key).client.subscribed = insert key s.client.subscribed := by
  unfold attachSharedTopic
  split
  · next h => simp [SessionCtx.ensureDelivery, h]
  · next h =>
    have hcontains : (s.state.hub.bump key).1.contains key = true := by
      rw [Tally.contains_iff, Tally.count_bump]
      simp
    simp [Scope.addInterest, SessionCtx.ensureDelivery, h, hcontains]

@[simp] theorem attachSharedTopic_store (s : Scope) (key : SubKey) :
    (attachSharedTopic s key).state.store = s.state.store := by
  unfold attachSharedTopic
  split <;> rfl

theorem attachSharedTopic_hub (s : Scope) (key k : SubKey) :
    (attachSharedTopic s key).state.hub.count k =
      s.state.hub.count k + if k = key ∧ key ∉ s.client.subscribed then 1 else 0 := by
  unfold attachSharedTopic
  split
  · next h => simp [h]
  · next h =>
    show (s.state.hub.bump key).1.count k = _
    rw [Tally.count_bump]
    simp [h]

theorem Balanced.attach (h : Balanced others topics s) (key : SubKey) :
    Balanced others topics (attachSharedTopic s key) := by
  refine ⟨?_, ?_, by simpa using h.marked⟩
  · intro i
    rw [attachSharedTopic_store, attachSharedTopic_holds]
    exact h.counts i
  · intro k
    rw [attachSharedTopic_hub, attachSharedTopic_subscribed, h.interest k]
    by_cases hk : k = key
    · subst hk
      by_cases hmem : k ∈ s.client.subscribed <;> simp [hmem]
    · simp [hk]

/-- `drop_delivery` and `remove_hub_interest` on a topic the session is on. -/
theorem Balanced.release {key : SubKey} (h : Balanced others topics s)
    (hmem : key ∈ s.client.subscribed) :
    Balanced others topics ((s.dropDelivery key).removeInterest key) := by
  refine ⟨?_, ?_, h.marked⟩
  · intro i
    show s.state.store.count i = others i + ((s.client.dropDelivery key).holds i).toNat
    rw [holds_dropDelivery]
    exact h.counts i
  · intro k
    show (s.state.hub.drop key).1.count k =
      topics k + if k ∈ s.client.subscribed.erase key then 1 else 0
    rw [Tally.count_drop, h.interest k]
    by_cases hk : k = key
    · subst hk
      simp [hmem]
    · simp [hk]

namespace SessionCtx

theorem carries_congr {c d : SessionCtx} (h : ∀ i, c.holds i = d.holds i) (k : SubKey) :
    c.Carries k ↔ d.Carries k := by
  have hmd : ∀ i : MdIntent, c.has i = d.has i := fun i => h (.md i)
  have horder : c.order = d.order := h .order
  have hpnl : c.pnl = d.pnl := h .pnl
  simp only [Carries, hmd, horder, hpnl]

/-- A context with the same holdings on the same topics as a sound one. -/
theorem Sound.of_same {c d : SessionCtx} (h : d.Sound) (hholds : ∀ i, c.holds i = d.holds i)
    (hsub : c.subscribed = d.subscribed) (hsync : c.Synced) : c.Sound where
  topics k := by rw [hsub, carries_congr hholds]; exact h.topics k
  brackets hb := by
    have hbrackets : c.brackets = d.brackets := hholds .brackets
    have horder : c.order = d.order := hholds .order
    rw [horder]
    exact h.brackets (hbrackets ▸ hb)
  plain i hi := h.plain i (by rw [← show c.has i = d.has i from hholds (.md i)]; exact hi)
  synced := hsync

theorem mask_insert_ne {c : SessionCtx} {i : MdIntent} {k : SubKey} (hk : k ≠ i.key) :
    (c.insert i).mask k = c.mask k := by
  cases i with
  | ticker key =>
    rw [insert, (syncKinds_alike _ _).mask]
    have hk : k ≠ key := hk
    simp [mask, hasBars, hk]
  | book key =>
    rw [insert, (syncKinds_alike _ _).mask]
    have hk : k ≠ key := hk
    simp [mask, hasBars, hk]
  | timeBars t =>
    rw [insert, (syncKinds_alike _ _).mask]
    have hk : ¬ (t.symbol = k.symbol ∧ t.exchange = k.exchange) := by
      rintro ⟨hs, he⟩
      exact hk (by cases k; simp_all [MdIntent.key])
    simp [mask, hasBars, hk]

theorem mask_remove_ne {c : SessionCtx} {i : MdIntent} {k : SubKey} (hk : k ≠ i.key) :
    (c.remove i).mask k = c.mask k := by
  cases i with
  | ticker key =>
    rw [remove, (syncKinds_alike _ _).mask]
    have hk : k ≠ key := hk
    simp [mask, hasBars, hk]
  | book key =>
    rw [remove, (syncKinds_alike _ _).mask]
    have hk : k ≠ key := hk
    simp [mask, hasBars, hk]
  | timeBars t =>
    rw [remove, (syncKinds_alike _ _).mask]
    have hbars : ∀ u : TimeBarIntent, u.symbol = k.symbol ∧ u.exchange = k.exchange → u ≠ t := by
      rintro u ⟨hs, he⟩ rfl
      exact hk (by cases k; simp_all [MdIntent.key])
    have hsame : ({ c with timeBars := c.timeBars.erase t } : SessionCtx).hasBars k =
        c.hasBars k := by
      simp only [hasBars, decide_eq_decide, Finset.mem_erase]
      constructor
      · rintro ⟨u, ⟨-, hu⟩, hkey⟩
        exact ⟨u, hu, hkey⟩
      · rintro ⟨u, hu, hkey⟩
        exact ⟨u, ⟨hbars u hkey, hu⟩, hkey⟩
    simp only [mask, hsame]

theorem kinds_syncKinds_ne {c : SessionCtx} {key k : SubKey} (hk : k ≠ key) :
    (c.syncKinds key).kinds k = c.kinds k := by
  unfold syncKinds
  split <;> simp [hk]

theorem kinds_syncKinds_self {c : SessionCtx} {key : SubKey}
    (h : c.mask key ≠ 0 ∨ key ∈ c.subscribed) :
    (c.syncKinds key).kinds key = some (c.mask key) := by
  unfold syncKinds
  rw [if_neg (by tauto)]
  simp

theorem kinds_insert_ne {c : SessionCtx} {i : MdIntent} {k : SubKey} (hk : k ≠ i.key) :
    (c.insert i).kinds k = c.kinds k := by
  cases i <;> exact kinds_syncKinds_ne hk

theorem kinds_remove_ne {c : SessionCtx} {i : MdIntent} {k : SubKey} (hk : k ≠ i.key) :
    (c.remove i).kinds k = c.kinds k := by
  cases i <;> exact kinds_syncKinds_ne hk

theorem kinds_insert_self (c : SessionCtx) (i : MdIntent) :
    (c.insert i).kinds i.key = some ((c.insert i).mask i.key) := by
  have hmask : (c.insert i).mask i.key ≠ 0 := mask_ne_zero ((c.has_insert i i).mpr (.inl rfl))
  cases i <;>
  · rw [insert, (syncKinds_alike _ _).mask] at hmask ⊢
    exact kinds_syncKinds_self (.inl hmask)

theorem kinds_remove_self {c : SessionCtx} {i : MdIntent} (h : i.key ∈ c.subscribed) :
    (c.remove i).kinds i.key = some ((c.remove i).mask i.key) := by
  cases i <;>
  · rw [remove, (syncKinds_alike _ _).mask]
    exact kinds_syncKinds_self (.inr h)

theorem Synced.insert {c : SessionCtx} (h : c.Synced) {i : MdIntent}
    (hmem : i.key ∈ c.subscribed) : (c.insert i).Synced := by
  intro k
  rw [(c.insert_frame i).1]
  by_cases hk : k = i.key
  · subst hk
    rw [kinds_insert_self, if_pos hmem]
  · rw [kinds_insert_ne hk, mask_insert_ne hk]
    exact h k

theorem Synced.remove {c : SessionCtx} (h : c.Synced) {i : MdIntent}
    (hmem : i.key ∈ c.subscribed) : (c.remove i).Synced := by
  intro k
  rw [(c.remove_frame i).1]
  by_cases hk : k = i.key
  · subst hk
    rw [kinds_remove_self hmem, if_pos hmem]
  · rw [kinds_remove_ne hk, mask_remove_ne hk]
    exact h k

/-- `sync_kinds` after a change to the holdings on one topic. -/
theorem Synced.syncKinds {c d : SessionCtx} (h : c.Synced) {key : SubKey}
    (hsub : d.subscribed = c.subscribed) (hkinds : d.kinds = c.kinds)
    (hmask : ∀ k ≠ key, d.mask k = c.mask k) (hmem : key ∈ c.subscribed) :
    (d.syncKinds key).Synced := by
  intro k
  rw [(syncKinds_alike d key).subscribed, (syncKinds_alike d key).mask]
  by_cases hk : k = key
  · subst hk
    rw [← hsub] at hmem
    rw [kinds_syncKinds_self (.inr hmem), if_pos hmem]
  · rw [kinds_syncKinds_ne hk, hkinds, hsub, hmask k hk]
    exact h k

theorem Synced.dropDelivery {c : SessionCtx} (h : c.Synced) (key : SubKey) :
    (c.dropDelivery key).Synced := by
  intro k
  show Function.update c.kinds key none k = if k ∈ c.subscribed.erase key then some (c.mask k) else none
  by_cases hk : k = key
  · subst hk
    simp
  · simpa [hk] using h k

theorem Synced.ensureDelivery {c : SessionCtx} (h : c.Synced) {hub : Tally SubKey} {key : SubKey}
    (hmask : key ∉ c.subscribed → c.mask key = 0) (hhub : hub.contains key = true) :
    (c.ensureDelivery hub key).Synced := by
  unfold SessionCtx.ensureDelivery
  split
  · exact h
  · next hmem =>
    intro k
    show Function.update c.kinds key _ k =
      if k ∈ Insert.insert key c.subscribed then some (c.mask k) else none
    by_cases hk : k = key
    · subst hk
      have hnone : c.kinds k = none := by
        rw [h k, if_neg hmem]
      simp [hnone, hmask hmem]
    · simpa [hk] using h k

/-- The mask of a topic that carries nothing of a sound session is empty. -/
theorem Sound.mask_eq_zero {c : SessionCtx} (h : c.Sound) {k : SubKey} (hk : k ∉ c.subscribed) :
    c.mask k = 0 := by
  have hcarries := mt (h.topics k).mpr hk
  have hwants : ¬ c.wantsMd k = true := fun hw => hcarries (.inl (wantsMd_iff.mp hw))
  simp only [wantsMd, Bool.or_eq_true, not_or] at hwants
  have hbrackets : (c.brackets && decide (k = orderKey)) = false := by
    by_contra hb
    simp only [Bool.not_eq_false, Bool.and_eq_true, decide_eq_true_eq] at hb
    exact hcarries (.inr (.inl ⟨h.brackets hb.1, hb.2⟩))
  obtain ⟨⟨ht, hb⟩, hr⟩ := hwants
  simp only [Bool.not_eq_true] at ht hb hr
  rw [mask, ht, hb, hr, hbrackets]
  rfl

end SessionCtx

theorem attachSharedTopic_synced (h : s.client.Sound) (key : SubKey) :
    (attachSharedTopic s key).client.Synced := by
  unfold attachSharedTopic
  split
  · next hmem => simpa [SessionCtx.ensureDelivery, hmem] using h.synced
  · refine h.synced.ensureDelivery (fun hmem => h.mask_eq_zero hmem) ?_
    show (s.state.hub.bump key).1.contains key = true
    rw [Tally.contains_iff, Tally.count_bump]
    simp

end RithmicNt.Host
