import RithmicNt.Host.Holdings

/-! Every operation of a session keeps the counts of the host and the topics of the session in step
with its holdings, whatever the venue answers, but for one: an order disconnect whose re-seat
fails. -/

namespace RithmicNt.Host

open RithmicNt.Lib

structure Good (others : Intent → Nat) (topics : SubKey → Nat) (s : Scope) : Prop where
  balanced : Balanced others topics s
  sound : s.client.Sound

section

variable {others : Intent → Nat} {topics : SubKey → Nat} {s : Scope}

theorem Good.lockVenue (h : Good others topics s) (a : Answers) :
    Good others topics (s.lockVenue a) :=
  ⟨h.balanced.lockVenue a, h.sound⟩

theorem Good.markDegraded (h : Good others topics s) (i : MdIntent) :
    Good others topics (s.markDegraded i) :=
  ⟨h.balanced.markDegraded i, h.sound⟩

theorem Good.clearDegraded (h : Good others topics s) (i : MdIntent) :
    Good others topics (s.clearDegraded i) :=
  ⟨h.balanced.clearDegraded i, h.sound⟩

/-- A topic that carries nothing any more is released. -/
theorem Good.release {key : SubKey} (hb : Balanced others topics s) (hsync : s.client.Synced)
    (hmem : key ∈ s.client.subscribed) (hkey : ¬ s.client.Carries key)
    (hrest : ∀ k ≠ key, k ∈ s.client.subscribed ↔ s.client.Carries k)
    (hbrackets : s.client.brackets = true → s.client.order = true)
    (hplain : ∀ i : MdIntent, s.client.has i = true → i.key ≠ orderKey ∧ i.key ≠ pnlKey) :
    Good others topics ((s.dropDelivery key).removeInterest key) := by
  refine ⟨hb.release hmem, ?_, hbrackets, ?_, hsync.dropDelivery key⟩
  · intro k
    show k ∈ s.client.subscribed.erase key ↔ (s.client.dropDelivery key).Carries k
    rw [SessionCtx.carries_congr (holds_dropDelivery s.client key)]
    by_cases hk : k = key
    · subst hk
      simp [hkey]
    · simpa [hk] using hrest k hk
  · intro i hi
    exact hplain i (by rwa [← show (s.client.dropDelivery key).has i = s.client.has i from
      holds_dropDelivery s.client key (.md i)])

/-- What `rollback_shared_topic` leaves of a topic that carries nothing of the session: the topics
are those of `c`, from before it was attached. -/
theorem Good.rollback {c : SessionCtx} {key : SubKey} (hc : c.Sound)
    (hb : Balanced others topics s) (hsync : s.client.Synced)
    (hholds : ∀ i, s.client.holds i = c.holds i)
    (hsub : s.client.subscribed = insert key c.subscribed) :
    Good others topics (rollbackSharedTopic s key (decide (key ∈ c.subscribed))) := by
  unfold rollbackSharedTopic
  by_cases hmem : key ∈ c.subscribed
  · rw [if_pos (by simpa using hmem)]
    exact ⟨hb, hc.of_same hholds (by rw [hsub, Finset.insert_eq_self.mpr hmem]) hsync⟩
  · rw [if_neg (by simpa using hmem)]
    refine ⟨hb.release (by simp [hsub]), hc.of_same ?_ ?_ (hsync.dropDelivery key)⟩
    · intro i
      exact (holds_dropDelivery s.client key i).trans (hholds i)
    · show s.client.subscribed.erase key = _
      rw [hsub, Finset.erase_insert hmem]

end

section

variable {others : Intent → Nat} {topics : SubKey → Nat} {s : Scope} (a : Answers) (i : MdIntent)

theorem rejoinDegraded_good (h : Good others topics s) :
    Good others topics (rejoinDegraded a i s).1 := by
  unfold rejoinDegraded
  split
  · exact h
  split
  · exact h
  dsimp only
  split
  · exact h.lockVenue a
  split
  · exact (h.lockVenue a).clearDegraded i
  · exact h.lockVenue a

theorem refreshHeld_good (h : Good others topics s) : Good others topics (refreshHeld a i s).1 := by
  unfold refreshHeld
  split
  · exact h
  split
  · exact h
  dsimp only
  split
  · exact h.lockVenue a
  split
  · exact h.lockVenue a
  · exact (h.lockVenue a).markDegraded i

end

/-- The scope in which a session has noted an intent it did not hold, on a topic attached for it. -/
structure Entered (others : Intent → Nat) (topics : SubKey → Nat) (i : MdIntent) (c : SessionCtx)
    (s : Scope) : Prop where
  balanced : Balanced others topics s
  sound : c.Sound
  fresh : c.has i = false
  holds : ∀ j, s.client.holds j = (decide (j = .md i) || c.holds j)
  subscribed : s.client.subscribed = insert i.key c.subscribed
  synced : s.client.Synced

namespace Entered

variable {others : Intent → Nat} {topics : SubKey → Nat} {s : Scope} {i : MdIntent}
  {c : SessionCtx}

theorem of_attach (h : Good others topics s) (hnot : s.client.has i = false) :
    Entered others topics i s.client
      (((attachSharedTopic s i.key).note (.md i)).insert i) := by
  have hholds := attachSharedTopic_holds s i.key
  have hmem : i.key ∈ (attachSharedTopic s i.key).client.subscribed := by
    rw [attachSharedTopic_subscribed]
    simp
  refine ⟨(h.balanced.attach i.key).enter ?_, h.sound, hnot, ?_, ?_, ?_⟩
  · exact (hholds (.md i)).trans hnot
  · intro j
    rw [← hholds j]
    exact SessionCtx.holds_insert _ i j
  · show ((attachSharedTopic s i.key).client.insert i).subscribed = _
    rw [((attachSharedTopic s i.key).client.insert_frame i).1, attachSharedTopic_subscribed]
  · exact (attachSharedTopic_synced h.sound i.key).insert hmem

/-- The intent is kept. -/
theorem good (h : Entered others topics i c s)
    (hplain : i.key ≠ orderKey ∧ i.key ≠ pnlKey) : Good others topics s := by
  have hhas : ∀ j : MdIntent, s.client.has j = (decide (j = i) || c.has j) := by
    intro j
    have := h.holds (.md j)
    simpa [SessionCtx.holds] using this
  have horder : s.client.order = c.order := h.holds .order
  have hpnl : s.client.pnl = c.pnl := h.holds .pnl
  have hbrackets : s.client.brackets = c.brackets := h.holds .brackets
  refine ⟨h.balanced, ?_, ?_, ?_, h.synced⟩
  · intro k
    rw [h.subscribed, Finset.mem_insert, h.sound.topics k]
    simp only [SessionCtx.Carries, hhas, horder, hpnl]
    constructor
    · rintro (rfl | ⟨j, hj, hkey⟩ | hrest)
      · exact .inl ⟨i, by simp, rfl⟩
      · exact .inl ⟨j, by simp [hj], hkey⟩
      · exact .inr hrest
    · rintro (⟨j, hj, hkey⟩ | hrest)
      · rcases Bool.or_eq_true_iff.mp hj with hji | hj
        · left
          rw [← hkey, of_decide_eq_true hji]
        · exact .inr (.inl ⟨j, hj, hkey⟩)
      · exact .inr (.inr hrest)
  · rw [hbrackets, horder]
    exact h.sound.brackets
  · intro j hj
    rw [hhas j] at hj
    rcases Bool.or_eq_true_iff.mp hj with hji | hj
    · rw [of_decide_eq_true hji]
      exact hplain
    · exact h.sound.plain j hj

/-- The intent is taken back. -/
theorem rollback (h : Entered others topics i c s) :
    Good others topics (rollbackSubscribe s i (decide (i.key ∈ c.subscribed))) := by
  have hhas : s.client.has i = true := by
    have := h.holds (.md i)
    simpa [SessionCtx.holds] using this
  refine Good.rollback h.sound (h.balanced.leave hhas) ?_ ?_ ?_
  · exact h.synced.remove (by rw [h.subscribed]; simp)
  · intro j
    show (s.client.remove i).holds j = c.holds j
    rw [SessionCtx.holds_remove, h.holds j]
    by_cases hj : j = .md i
    · subst hj
      simpa [SessionCtx.holds] using h.fresh.symm
    · simp [hj]
  · show (s.client.remove i).subscribed = _
    rw [(s.client.remove_frame i).1, h.subscribed]

theorem lockVenue (h : Entered others topics i c s) (a : Answers) :
    Entered others topics i c (s.lockVenue a) :=
  ⟨h.balanced.lockVenue a, h.sound, h.fresh, h.holds, h.subscribed, h.synced⟩

theorem markDegraded (h : Entered others topics i c s) (j : MdIntent) :
    Entered others topics i c (s.markDegraded j) :=
  ⟨h.balanced.markDegraded j, h.sound, h.fresh, h.holds, h.subscribed, h.synced⟩

end Entered

section

variable {others : Intent → Nat} {topics : SubKey → Nat} {s : Scope} (a : Answers) {i : MdIntent}

theorem joinNoted_good {c : SessionCtx} (isFirst : Bool) (h : Entered others topics i c s)
    (hplain : i.key ≠ orderKey ∧ i.key ≠ pnlKey) :
    Good others topics (joinNoted a i s isFirst (decide (i.key ∈ c.subscribed))).1 := by
  unfold joinNoted
  dsimp only
  split
  · split
    · exact h.rollback
    · split
      · split
        · exact ((h.lockVenue a).good hplain).clearDegraded i
        · exact (h.lockVenue a).good hplain
      · split
        · exact ((h.lockVenue a).markDegraded i).rollback
        · exact (h.lockVenue a).rollback
  · exact h.good hplain

theorem subscribeTopic_good (h : Good others topics s)
    (hplain : i.key ≠ orderKey ∧ i.key ≠ pnlKey) :
    Good others topics (subscribeTopic a i s).1 := by
  unfold subscribeTopic
  split
  · split
    · exact rejoinDegraded_good a i h
    · exact refreshHeld_good a i h
  · next hnot => exact joinNoted_good a _ (.of_attach h (by simpa using hnot)) hplain

/-- `client_remove` and `forget` leave the session on the topic. -/
theorem unsubscribe_left {c : SessionCtx} (h : Good others topics s) (hhas : s.client.has i = true)
    (hc : c = ((s.remove i).forget (.md i)).client) :
    c.Synced ∧ c.subscribed = s.client.subscribed ∧
      (∀ j, c.holds j = (decide (j ≠ .md i) && s.client.holds j)) ∧ i.key ∈ c.subscribed := by
  subst hc
  have hmem : i.key ∈ s.client.subscribed := (h.sound.topics i.key).mpr (.inl ⟨i, hhas, rfl⟩)
  refine ⟨h.sound.synced.remove hmem, (s.client.remove_frame i).1, s.client.holds_remove i, ?_⟩
  show i.key ∈ (s.client.remove i).subscribed
  rw [(s.client.remove_frame i).1]
  exact hmem

theorem releaseMdIfUnused_good (h : Good others topics s) (hhas : s.client.has i = true) :
    Good others topics (releaseMdIfUnused ((s.remove i).forget (.md i)) i.key) := by
  obtain ⟨hsync, hsub, hholds, hmem⟩ := unsubscribe_left h hhas rfl
  have hb := h.balanced.leave hhas
  generalize hleft : (s.remove i).forget (.md i) = left at hsync hsub hholds hmem hb ⊢
  have hhas' : ∀ j : MdIntent, left.client.has j = (decide (j ≠ i) && s.client.has j) := by
    intro j
    have := hholds (.md j)
    simpa [SessionCtx.holds] using this
  have horder : left.client.order = s.client.order := hholds .order
  have hpnl : left.client.pnl = s.client.pnl := hholds .pnl
  have hbrackets : left.client.brackets = s.client.brackets := hholds .brackets
  have hplain : ∀ j : MdIntent, left.client.has j = true → j.key ≠ orderKey ∧ j.key ≠ pnlKey := by
    intro j hj
    rw [hhas' j, Bool.and_eq_true] at hj
    exact h.sound.plain j hj.2
  have hbo : left.client.brackets = true → left.client.order = true := by
    rw [hbrackets, horder]
    exact h.sound.brackets
  have hrest : ∀ k ≠ i.key, k ∈ left.client.subscribed ↔ left.client.Carries k := by
    intro k hk
    rw [hsub, h.sound.topics k]
    simp only [SessionCtx.Carries, hhas', horder, hpnl]
    constructor
    · rintro (⟨j, hj, hkey⟩ | hrest)
      · have hji : j ≠ i := fun hji => hk (by rw [← hkey, hji])
        exact .inl ⟨j, by simp [hji, hj], hkey⟩
      · exact .inr hrest
    · rintro (⟨j, hj, hkey⟩ | hrest)
      · exact .inl ⟨j, (Bool.and_eq_true_iff.mp hj).2, hkey⟩
      · exact .inr hrest
  have hkeyPlain := h.sound.plain i hhas
  unfold releaseMdIfUnused
  split
  · next hw =>
    refine ⟨hb, ?_, hbo, hplain, hsync⟩
    intro k
    by_cases hk : k = i.key
    · subst hk
      exact ⟨fun _ => .inl (SessionCtx.wantsMd_iff.mp hw), fun _ => hmem⟩
    · exact hrest k hk
  · next hw =>
    refine Good.release hb hsync hmem ?_ hrest hbo hplain
    rintro (hmd | ⟨-, hkey⟩ | ⟨-, hkey⟩)
    · exact hw (SessionCtx.wantsMd_iff.mpr hmd)
    · exact hkeyPlain.1 hkey
    · exact hkeyPlain.2 hkey

theorem unsubscribeTopic_good (h : Good others topics s) :
    Good others topics (unsubscribeTopic a i s).1 := by
  unfold unsubscribeTopic
  split
  · exact h
  · next hhas =>
    have hhas : s.client.has i = true := by simpa using hhas
    dsimp only
    split
    · split
      · exact releaseMdIfUnused_good h hhas
      · obtain ⟨hsync, hsub, hholds, hmem⟩ := unsubscribe_left h hhas rfl
        have hb := h.balanced.leave hhas
        refine ⟨hb.enter ?_, h.sound.of_same ?_ ?_ (hsync.insert hmem)⟩
        · have := hholds (.md i)
          simpa [SessionCtx.holds] using this
        · intro j
          refine (SessionCtx.holds_insert _ i j).trans ?_
          show (decide (j = Intent.md i) || ((s.remove i).forget (.md i)).client.holds j) = _
          rw [hholds j]
          by_cases hj : j = .md i
          · subst hj
            simpa [SessionCtx.holds] using hhas.symm
          · simp [hj]
        · exact (SessionCtx.insert_frame _ i).1.trans hsub
    · exact releaseMdIfUnused_good h hhas

end

/-! The PnL stream. -/

theorem holds_setPnl (s : Scope) (b : Bool) (j : Intent) :
    (s.setPnl b).client.holds j = if j = .pnl then b else s.client.holds j := by
  rcases j with (_ | _ | _) | _ | _ | _ <;> rfl

theorem holds_setOrder (s : Scope) (b : Bool) (j : Intent) :
    (s.setOrder b).client.holds j = if j = .order then b else s.client.holds j := by
  rcases j with (_ | _ | _) | _ | _ | _ <;> rfl

theorem holds_setBrackets (s : Scope) (b : Bool) (j : Intent) :
    (s.setBrackets b).client.holds j = if j = .brackets then b else s.client.holds j := by
  rw [show (s.setBrackets b).client = { s.client with brackets := b }.syncKinds orderKey from rfl,
    (SessionCtx.syncKinds_alike _ _).holds]
  rcases j with (_ | _ | _) | _ | _ | _ <;> rfl

theorem subscribed_setBrackets (s : Scope) (b : Bool) :
    (s.setBrackets b).client.subscribed = s.client.subscribed :=
  (SessionCtx.syncKinds_alike _ _).subscribed

theorem synced_setBrackets {s : Scope} (h : s.client.Synced) (b : Bool)
    (hmem : orderKey ∈ s.client.subscribed) : (s.setBrackets b).client.Synced := by
  refine h.syncKinds rfl rfl (fun k hk => ?_) hmem
  simp [SessionCtx.mask, SessionCtx.hasBars, hk]

section

variable {others : Intent → Nat} {topics : SubKey → Nat} {s : Scope} (a : Answers)

/-- Any way to record one account intent in the session, or to take it out. -/
theorem Balanced.enterAccount {t : Scope} {i : Intent} (h : Balanced others topics s)
    (hnot : s.client.holds i = false)
    (hholds : ∀ j, t.client.holds j = if j = i then true else s.client.holds j)
    (hsub : t.client.subscribed = s.client.subscribed) :
    Balanced others topics ⟨(s.note i).state, t.client⟩ := by
  refine h.note hnot (fun j => ?_) hsub
  rw [hholds j]
  by_cases hj : j = i <;> simp [hj]

theorem Balanced.leaveAccount {t : Scope} {i : Intent} (h : Balanced others topics s)
    (hhas : s.client.holds i = true)
    (hholds : ∀ j, t.client.holds j = if j = i then false else s.client.holds j)
    (hsub : t.client.subscribed = s.client.subscribed) :
    Balanced others topics ⟨(s.forget i).state, t.client⟩ := by
  refine h.forget hhas (fun j => ?_) hsub
  rw [hholds j]
  by_cases hj : j = i <;> simp [hj]

/-- A session that also holds an account stream, on the topic of that stream. -/
theorem Good.grow {c : SessionCtx} {key : SubKey} (hc : c.Sound) (hb : Balanced others topics s)
    (hsync : s.client.Synced) (hsub : s.client.subscribed = insert key c.subscribed)
    (hmd : ∀ j : MdIntent, s.client.has j = c.has j)
    (hcarries : ∀ k, s.client.Carries k ↔ k = key ∨ c.Carries k)
    (hbrackets : s.client.brackets = true → s.client.order = true) : Good others topics s := by
  refine ⟨hb, ?_, hbrackets, ?_, hsync⟩
  · intro k
    rw [hsub, Finset.mem_insert, hc.topics k, hcarries k]
  · intro j hj
    exact hc.plain j (by rw [← hmd j]; exact hj)

theorem subscribePnl_good (h : Good others topics s) :
    Good others topics (subscribePnl a s).1 := by
  unfold subscribePnl
  split
  · exact h
  dsimp only
  split
  · exact h.lockVenue a
  split
  · exact h.lockVenue a
  · next hnot =>
    have hg := h.lockVenue a
    have hpnl : (s.lockVenue a).client.holds .pnl = false := by
      simpa [SessionCtx.holds] using hnot
    have hholds := attachSharedTopic_holds (s.lockVenue a) pnlKey
    have hsub := attachSharedTopic_subscribed (s.lockVenue a) pnlKey
    have hsync := attachSharedTopic_synced hg.sound pnlKey
    have hb := hg.balanced.attach pnlKey
    generalize attachSharedTopic (s.lockVenue a) pnlKey = t at hholds hsub hsync hb ⊢
    have hin : Balanced others topics ((t.note .pnl).setPnl true) :=
      hb.enterAccount (t := (t.note .pnl).setPnl true) ((hholds .pnl).trans hpnl)
        (holds_setPnl (t.note .pnl) true) rfl
    split
    · refine Good.grow hg.sound hin hsync hsub (fun j => hholds (.md j)) ?_ ?_
      · intro k
        have hmd : ∀ j : MdIntent, ((t.note .pnl).setPnl true).client.has j = s.client.has j :=
          fun j => hholds (.md j)
        have horder : ((t.note .pnl).setPnl true).client.order = s.client.order := hholds .order
        have hset : ((t.note .pnl).setPnl true).client.pnl = true := rfl
        have hwas : s.client.pnl = false := hpnl
        show _ ↔ k = pnlKey ∨ s.client.Carries k
        simp only [SessionCtx.Carries, hmd, horder, hset, hwas, Bool.false_eq_true, false_and,
          or_false, true_and]
        rw [← or_assoc, or_comm]
      · show t.client.brackets = true → t.client.order = true
        rw [show t.client.brackets = s.client.brackets from hholds .brackets,
          show t.client.order = s.client.order from hholds .order]
        exact h.sound.brackets
    · have hout : Balanced others topics ((((t.note .pnl).setPnl true).setPnl false).forget .pnl) :=
        hin.leaveAccount (t := ((t.note .pnl).setPnl true).setPnl false)
          (i := .pnl) rfl (holds_setPnl _ false) rfl
      refine Good.rollback hg.sound hout hsync ?_ hsub
      intro j
      show (((t.note .pnl).setPnl true).setPnl false).client.holds j = (s.lockVenue a).client.holds j
      rw [holds_setPnl, holds_setPnl, ← hholds j]
      by_cases hj : j = .pnl
      · subst hj
        simpa using (hholds .pnl).trans hpnl |>.symm
      · simp [hj, Scope.note]

end

section

variable {others : Intent → Nat} {topics : SubKey → Nat} {s : Scope} (a : Answers)

/-- `disconnect_pnl` and `disconnect_order` leave a topic that carries nothing of the session any
more. -/
theorem releaseTopic_good {c : SessionCtx} {key : SubKey} (hc : c.Sound)
    (hb : Balanced others topics s) (hsync : s.client.Synced)
    (hsub : s.client.subscribed = c.subscribed) (hmd : ∀ j : MdIntent, s.client.has j = c.has j)
    (hkey : ¬ s.client.Carries key) (hrest : ∀ k ≠ key, s.client.Carries k ↔ c.Carries k)
    (hbrackets : s.client.brackets = true → s.client.order = true) :
    Good others topics (releaseTopic s key) := by
  have hplain : ∀ j : MdIntent, s.client.has j = true → j.key ≠ orderKey ∧ j.key ≠ pnlKey :=
    fun j hj => hc.plain j (by rw [← hmd j]; exact hj)
  have hothers : ∀ k ≠ key, k ∈ s.client.subscribed ↔ s.client.Carries k := by
    intro k hk
    rw [hsub, hc.topics k, hrest k hk]
  unfold releaseTopic
  split
  · next hmem => exact Good.release hb hsync hmem hkey hothers hbrackets hplain
  · next hmem =>
    refine ⟨hb, ?_, hbrackets, hplain, hsync⟩
    intro k
    by_cases hk : k = key
    · subst hk
      exact ⟨fun h => absurd h hmem, fun h => absurd h hkey⟩
    · exact hothers k hk

theorem Balanced.leavePnl (h : Balanced others topics s) (rollback : Bool) :
    Balanced others topics (leavePnl a rollback s).1 := by
  unfold Host.leavePnl
  split
  · exact h
  · next hpnl =>
    have hpnl : s.client.pnl = true := by simpa using hpnl
    have hleft : Balanced others topics ((s.setPnl false).forget .pnl) :=
      h.leaveAccount (t := s.setPnl false) hpnl (holds_setPnl s false) rfl
    dsimp only
    split
    · split
      · exact hleft
      · split
        · exact hleft.enterAccount (t := (((s.setPnl false).forget .pnl).note .pnl).setPnl true)
            rfl (holds_setPnl (((s.setPnl false).forget .pnl).note .pnl) true) rfl
        · exact hleft
    · exact hleft

/-- An explicit disconnect either keeps the session's holdings or takes the PnL stream out. -/
theorem leavePnl_client (s : Scope) :
    ((leavePnl a true s).2.toBool = false ∧ (leavePnl a true s).1.client = s.client) ∨
      ((leavePnl a true s).2 = .ok () ∧
        (leavePnl a true s).1.client = { s.client with pnl := false }) := by
  unfold leavePnl
  split
  · next h =>
    right
    refine ⟨rfl, ?_⟩
    have : s.client.pnl = false := by simpa using h
    simp [← this]
  · next h =>
    have hpnl : s.client.pnl = true := by simpa using h
    dsimp only
    split
    · split
      · exact .inr ⟨rfl, rfl⟩
      · left
        refine ⟨rfl, ?_⟩
        simp [Scope.note, Scope.setPnl, Scope.forget, ← hpnl]
    · exact .inr ⟨rfl, rfl⟩

theorem disconnectPnl_good (h : Good others topics s) :
    Good others topics (disconnectPnl a s).1 := by
  have hb := h.balanced.leavePnl a true
  rcases leavePnl_client a s with ⟨herr, hclient⟩ | ⟨hok, hclient⟩
  · unfold disconnectPnl
    split
    · next left code e hleave =>
      rw [hleave] at hb hclient
      exact ⟨hb, by rw [show left.client = s.client from hclient]; exact h.sound⟩
    · next left hleave =>
      rw [hleave] at herr
      cases herr
  · unfold disconnectPnl
    split
    · next left code e hleave =>
      rw [hleave] at hok
      cases hok
    · next left hleave =>
      rw [hleave] at hb hclient
      have hclient : left.client = { s.client with pnl := false } := hclient
      refine releaseTopic_good h.sound hb ?_ ?_ ?_ ?_ ?_ ?_
      · rw [hclient]
        exact h.sound.synced
      · rw [hclient]
      · intro j
        rw [hclient]
        cases j <;> rfl
      · rw [hclient]
        rintro (⟨i, hi, hkey⟩ | ⟨-, hkey⟩ | ⟨hp, -⟩)
        · refine (h.sound.plain i ?_).2 hkey
          cases i <;> exact hi
        · exact absurd hkey (by decide)
        · cases hp
      · intro k hk
        rw [hclient]
        simp only [SessionCtx.Carries, hk, and_false, or_false]
        constructor <;>
        · rintro (⟨i, hi, hkey⟩ | hrest)
          · exact .inl ⟨i, by cases i <;> exact hi, hkey⟩
          · exact .inr hrest
      · rw [hclient]
        exact h.sound.brackets

end

/-! The order stream and its brackets. -/

section

variable {others : Intent → Nat} {topics : SubKey → Nat} {s : Scope} (a : Answers)

theorem Balanced.enterOrder (h : Balanced others topics s) (hnot : s.client.order = false) :
    Balanced others topics ((s.note .order).setOrder true) :=
  h.enterAccount (t := (s.note .order).setOrder true) hnot (holds_setOrder (s.note .order) true) rfl

theorem Balanced.enterBrackets (h : Balanced others topics s) (hnot : s.client.brackets = false) :
    Balanced others topics ((s.note .brackets).setBrackets true) :=
  h.enterAccount (t := (s.note .brackets).setBrackets true) hnot
    (holds_setBrackets (s.note .brackets) true) (subscribed_setBrackets (s.note .brackets) true)

theorem Balanced.exitOrder (h : Balanced others topics s) (hhas : s.client.order = true) :
    Balanced others topics ((s.setOrder false).forget .order) :=
  h.leaveAccount (t := s.setOrder false) hhas (holds_setOrder s false) rfl

theorem Balanced.exitBrackets (h : Balanced others topics s) (hhas : s.client.brackets = true) :
    Balanced others topics ((s.setBrackets false).forget .brackets) :=
  h.leaveAccount (t := s.setBrackets false) hhas (holds_setBrackets s false)
    (subscribed_setBrackets s false)

/-- The session's context with other order and bracket flags, its masks those of its holdings. -/
structure Reset (order brackets : Bool) (c : SessionCtx) (s : Scope) : Prop where
  holds : ∀ j, s.client.holds j =
    if j = .order then order else if j = .brackets then brackets else c.holds j
  subscribed : s.client.subscribed = c.subscribed
  synced : s.client.Synced

namespace Reset

variable {order brackets : Bool} {c : SessionCtx}

theorem has (h : Reset order brackets c s) (i : MdIntent) : s.client.has i = c.has i :=
  h.holds (.md i)

theorem order_eq (h : Reset order brackets c s) : s.client.order = order := h.holds .order

theorem brackets_eq (h : Reset order brackets c s) : s.client.brackets = brackets :=
  h.holds .brackets

theorem pnl_eq (h : Reset order brackets c s) : s.client.pnl = c.pnl := h.holds .pnl

theorem setOrder (h : Reset order brackets c s) (b : Bool) : Reset b brackets c (s.setOrder b) := by
  refine ⟨?_, h.subscribed, h.synced⟩
  intro j
  rw [holds_setOrder, h.holds j]
  by_cases hj : j = .order <;> simp [hj]

theorem setBrackets (h : Reset order brackets c s) (b : Bool) (hmem : orderKey ∈ c.subscribed) :
    Reset order b c (s.setBrackets b) := by
  refine ⟨?_, (subscribed_setBrackets s b).trans h.subscribed,
    synced_setBrackets h.synced b (h.subscribed ▸ hmem)⟩
  intro j
  rw [holds_setBrackets, h.holds j]
  by_cases hj : j = .brackets <;> simp [hj]

theorem of_client {t : Scope} (h : Reset order brackets c s) (hc : t.client = s.client) :
    Reset order brackets c t :=
  ⟨by rw [hc]; exact h.holds, by rw [hc]; exact h.subscribed, by rw [hc]; exact h.synced⟩

/-- The flags the session had. -/
theorem same (h : Reset c.order c.brackets c s) : ∀ j, s.client.holds j = c.holds j := by
  intro j
  rw [h.holds j]
  by_cases ho : j = .order
  · subst ho
    rfl
  by_cases hb : j = .brackets
  · subst hb
    rfl
  simp [ho, hb]

/-- A session without the order stream carries nothing on the order topic. -/
theorem not_carries (h : Reset false brackets c s) (hc : c.Sound) :
    ¬ s.client.Carries orderKey := by
  rintro (⟨i, hi, hkey⟩ | ⟨ho, -⟩ | ⟨-, hkey⟩)
  · rw [h.has i] at hi
    exact (hc.plain i hi).1 hkey
  · rw [h.order_eq] at ho
    cases ho
  · exact absurd hkey (by decide)

theorem carries_ne (h : Reset order brackets c s) {k : SubKey} (hk : k ≠ orderKey) :
    s.client.Carries k ↔ c.Carries k := by
  simp only [SessionCtx.Carries, h.has, h.pnl_eq, hk, and_false, false_or]

/-- A session with the order stream, on the order topic. -/
theorem good (h : Reset true brackets c s) (hb : Balanced others topics s)
    (hmem : orderKey ∈ c.subscribed)
    (hrest : ∀ k ≠ orderKey, k ∈ c.subscribed ↔ c.Carries k)
    (hplain : ∀ i : MdIntent, c.has i = true → i.key ≠ orderKey ∧ i.key ≠ pnlKey) :
    Good others topics s := by
  refine ⟨hb, ?_, fun _ => h.order_eq, ?_, h.synced⟩
  · intro k
    rw [h.subscribed]
    by_cases hk : k = orderKey
    · subst hk
      exact ⟨fun _ => .inr (.inl ⟨h.order_eq, rfl⟩), fun _ => hmem⟩
    · rw [hrest k hk, h.carries_ne hk]
  · intro i hi
    exact hplain i (by rw [← h.has i]; exact hi)

end Reset

/-- The order in which `subscribe_order_plant_stream` notes and records its streams does not
matter. -/
theorem noteStreams_eq (needOrder needBrackets : Bool) (s : Scope) :
    noteStreams needOrder needBrackets s =
      let t := if needOrder then (s.note .order).setOrder true else s
      if needBrackets then (t.note .brackets).setBrackets true else t := by
  cases needOrder <;> cases needBrackets <;> rfl

theorem Reset.refl (hsync : s.client.Synced) :
    Reset s.client.order s.client.brackets s.client s := by
  refine ⟨?_, rfl, hsync⟩
  intro j
  by_cases ho : j = .order
  · subst ho
    rfl
  by_cases hb : j = .brackets
  · subst hb
    rfl
  simp [ho, hb]

theorem noteStreams_reset (hb : Balanced others topics s) (hsync : s.client.Synced)
    (hmem : orderKey ∈ s.client.subscribed) {needBrackets : Bool}
    (hneed : needBrackets = true → s.client.brackets = false) :
    Balanced others topics (noteStreams (!s.client.order) needBrackets s) ∧
      Reset true (needBrackets || s.client.brackets) s.client
        (noteStreams (!s.client.order) needBrackets s) := by
  have horder : Balanced others topics
        (if (!s.client.order) = true then (s.note .order).setOrder true else s) ∧
      Reset true s.client.brackets s.client
        (if (!s.client.order) = true then (s.note .order).setOrder true else s) := by
    have hreset := Reset.refl hsync
    split
    · next ho =>
      have ho : s.client.order = false := by simpa using ho
      exact ⟨hb.enterOrder ho, (hreset.of_client (t := s.note .order) rfl).setOrder true⟩
    · next ho =>
      have ho : s.client.order = true := by simpa using ho
      rw [ho] at hreset
      exact ⟨hb, hreset⟩
  rw [noteStreams_eq]
  generalize (if (!s.client.order) = true then (s.note .order).setOrder true else s) = t at horder
  obtain ⟨htb, htr⟩ := horder
  cases needBrackets with
  | false => exact ⟨htb, htr⟩
  | true =>
    refine ⟨htb.enterBrackets (htr.brackets_eq.trans (hneed rfl)), ?_⟩
    exact (htr.of_client (t := t.note .brackets) rfl).setBrackets true hmem

/-- What the roll back of a failed subscribe leaves: the streams of `c`, from before it, or, where
the venue does not leave its plant, the order stream as well. -/
theorem rollbackOrder_good {c : SessionCtx} {t : Scope} (hc : c.Sound)
    (ht : ∀ j, t.client.holds j = c.holds j)
    (hsub : t.client.subscribed = insert orderKey c.subscribed) {needBrackets : Bool}
    (hneed : needBrackets = true → c.brackets = false)
    (hb : Balanced others topics s)
    (h : Reset true (needBrackets || c.brackets) t.client s) :
    Good others topics (rollbackOrderPlantStreamIntroductions a s
      (decide (orderKey ∈ c.subscribed)) (!c.order) needBrackets) := by
  have hmem : orderKey ∈ t.client.subscribed := by simp [hsub]
  have hrest : ∀ k ≠ orderKey, k ∈ t.client.subscribed ↔ t.client.Carries k := by
    intro k hk
    rw [hsub, SessionCtx.carries_congr ht, ← hc.topics k]
    simp [hk]
  have hplain : ∀ i : MdIntent, t.client.has i = true → i.key ≠ orderKey ∧ i.key ≠ pnlKey :=
    fun i hi => hc.plain i (by rw [← show t.client.has i = c.has i from ht (.md i)]; exact hi)
  have hbrackets : Balanced others topics
        (if needBrackets then (s.setBrackets false).forget .brackets else s) ∧
      Reset true c.brackets t.client
        (if needBrackets then (s.setBrackets false).forget .brackets else s) := by
    cases needBrackets with
    | false => exact ⟨hb, by simpa using h⟩
    | true =>
      rw [hneed rfl]
      refine ⟨hb.exitBrackets (by simpa using h.brackets_eq), ?_⟩
      exact (h.setBrackets false hmem).of_client rfl
  unfold rollbackOrderPlantStreamIntroductions
  dsimp only
  generalize (if needBrackets = true then (s.setBrackets false).forget .brackets else s) = u
    at hbrackets ⊢
  obtain ⟨hub, hur⟩ := hbrackets
  split
  · exact hur.good hub hmem hrest hplain
  · next ho =>
    have ho : c.order = false := by simpa using ho
    have hout := hub.exitOrder hur.order_eq
    have hor : Reset false c.brackets t.client ((u.setOrder false).forget .order) :=
      (hur.setOrder false).of_client rfl
    have hback : Good others topics (rollbackSharedTopic ((u.setOrder false).forget .order) orderKey
        (decide (orderKey ∈ c.subscribed))) := by
      refine Good.rollback hc hout hor.synced ?_ (hor.subscribed.trans hsub)
      intro j
      rw [hor.holds j, ht j]
      by_cases hjo : j = .order
      · subst hjo
        simpa [SessionCtx.holds] using ho.symm
      by_cases hjb : j = .brackets
      · subst hjb
        rfl
      simp [hjo, hjb]
    split
    · split
      · exact hback
      · have hagain : Reset true c.brackets t.client
            ((((u.setOrder false).forget .order).note .order).setOrder true) :=
          (hor.of_client (t := ((u.setOrder false).forget .order).note .order) rfl).setOrder true
        exact hagain.good (hout.enterOrder hor.order_eq) hmem hrest hplain
    · exact hback

theorem subscribeOrderPlantStream_good (deniedMsg : String) (wantBrackets : Bool)
    (h : Good others topics s) :
    Good others topics (subscribeOrderPlantStream a deniedMsg wantBrackets s).1 := by
  unfold subscribeOrderPlantStream
  split
  · exact h
  dsimp only
  split
  · exact h
  have hholds := attachSharedTopic_holds s orderKey
  have hsub := attachSharedTopic_subscribed s orderKey
  have hsync := attachSharedTopic_synced h.sound orderKey
  have hb := h.balanced.attach orderKey
  generalize attachSharedTopic s orderKey = t at hholds hsub hsync hb ⊢
  have horder : t.client.order = s.client.order := hholds .order
  have hbr : t.client.brackets = s.client.brackets := hholds .brackets
  have hmem : orderKey ∈ t.client.subscribed := by simp [hsub]
  have hneed : (wantBrackets && !s.client.brackets) = true → s.client.brackets = false := by
    intro hn
    simpa using (Bool.and_eq_true_iff.mp hn).2
  obtain ⟨hnb, hnr⟩ := noteStreams_reset hb hsync hmem
    (fun hn => hbr.trans (hneed hn))
  rw [horder, hbr] at hnr
  rw [horder] at hnb
  have hback := rollbackOrder_good a h.sound hholds hsub hneed hnb hnr
  split
  · exact hback
  · split
    · refine hnr.good hnb hmem ?_ ?_
      · intro k hk
        rw [hsub, SessionCtx.carries_congr hholds, ← h.sound.topics k]
        simp [hk]
      · exact fun i hi => h.sound.plain i
          (by rw [← show t.client.has i = s.client.has i from hholds (.md i)]; exact hi)
    · exact hback

theorem clearClientBrackets_balanced (h : Balanced others topics s) :
    Balanced others topics (clearClientBrackets s) := by
  unfold clearClientBrackets
  split
  · next hb => exact h.exitBrackets hb
  · exact h

theorem clearClientBrackets_client (s : Scope) :
    (clearClientBrackets s).client.brackets = false ∧
      (clearClientBrackets s).client.order = s.client.order := by
  unfold clearClientBrackets
  split
  · exact ⟨holds_setBrackets s false .brackets, holds_setBrackets s false .order⟩
  · next h => exact ⟨by simpa using h, rfl⟩

theorem forgetOrderStreams_balanced (h : Balanced others topics s) :
    Balanced others topics (forgetOrderStreams s) := by
  unfold forgetOrderStreams
  dsimp only
  split
  · next ho => exact (clearClientBrackets_balanced h).exitOrder ho
  · exact clearClientBrackets_balanced h

theorem forgetOrderStreams_client (s : Scope) :
    (forgetOrderStreams s).client.brackets = false ∧
      (forgetOrderStreams s).client.order = false := by
  obtain ⟨hb, -⟩ := clearClientBrackets_client s
  unfold forgetOrderStreams
  dsimp only
  split
  · exact ⟨hb, rfl⟩
  · next ho => exact ⟨hb, by simpa using ho⟩

theorem Balanced.leaveOrder (h : Balanced others topics s) (rollback : Bool) :
    Balanced others topics (leaveOrder a rollback s).1 := by
  have hleft := forgetOrderStreams_balanced h
  obtain ⟨hbrackets, horder⟩ := forgetOrderStreams_client s
  unfold Host.leaveOrder
  split
  · exact h
  dsimp only
  split
  · split
    · split
      · exact (hleft.enterOrder horder).enterBrackets hbrackets
      · exact hleft.enterOrder horder
    · exact hleft
  · split
    · split
      · exact hleft
      · exact hleft.of_state rfl rfl
    · exact hleft

/-- A dying session keeps neither stream, whatever the venue answers. -/
theorem leaveOrder_dying (s : Scope) :
    (leaveOrder a false s).1.client.order = false ∧
      (leaveOrder a false s).1.client.brackets = false := by
  obtain ⟨hbrackets, horder⟩ := forgetOrderStreams_client s
  unfold Host.leaveOrder
  split
  · next h => simpa using h
  dsimp only
  split
  · exact ⟨horder, hbrackets⟩
  · split
    · split <;> exact ⟨horder, hbrackets⟩
    · exact ⟨horder, hbrackets⟩

theorem forgetOrderStreams_reset (h : s.client.Sound) (ho : s.client.order = true) :
    Reset false false s.client (forgetOrderStreams s) := by
  have hmem : orderKey ∈ s.client.subscribed := (h.topics orderKey).mpr (.inr (.inl ⟨ho, rfl⟩))
  have hreset := Reset.refl h.synced
  have hclear : Reset s.client.order false s.client (clearClientBrackets s) := by
    unfold clearClientBrackets
    split
    · exact (hreset.setBrackets false hmem).of_client rfl
    · next hb =>
      have hb : s.client.brackets = false := by simpa using hb
      rw [hb] at hreset
      exact hreset
  unfold forgetOrderStreams
  dsimp only
  split
  · exact (hclear.setOrder false).of_client rfl
  · next hno => exact absurd (hclear.order_eq.trans ho) hno

/-- The disconnect of the last brackets holder whose order-only re-seat the venue refuses. -/
def FailedReseat (s : Scope) : Prop :=
  reseats s = true ∧ s.state.session = true ∧ a.subscribeOrderUpdates.toBool = false

instance : Decidable (FailedReseat a s) := inferInstanceAs (Decidable (_ ∧ _ ∧ _))

theorem disconnectOrder_good (h : Good others topics s) (hseat : ¬ FailedReseat a s) :
    Good others topics (disconnectOrder a s).1 := by
  have hleft := forgetOrderStreams_balanced h.balanced
  have hcarry : ∀ {t : Scope}, Reset false false s.client t → Balanced others topics t →
      Good others topics (releaseTopic t orderKey) := by
    intro t hr hb
    refine releaseTopic_good h.sound hb hr.synced hr.subscribed hr.has (hr.not_carries h.sound)
      (fun k hk => hr.carries_ne hk) ?_
    rw [hr.brackets_eq]
    rintro ⟨⟩
  unfold disconnectOrder leaveOrder
  by_cases ho : s.client.order = true
  · have hmem : orderKey ∈ s.client.subscribed :=
      (h.sound.topics orderKey).mpr (.inr (.inl ⟨ho, rfl⟩))
    have hreset := forgetOrderStreams_reset h.sound ho
    rw [if_neg (by simp [ho])]
    dsimp only
    cases hdisc : (if (lastOrder s && s.state.session) = true then a.disconnectOrderPlant
        else .ok ()) with
    | error e =>
      have hr : Reset true false s.client (((forgetOrderStreams s).note .order).setOrder true) :=
        (hreset.of_client (t := (forgetOrderStreams s).note .order) rfl).setOrder true
      have hb := hleft.enterOrder hreset.order_eq
      dsimp only
      rw [if_pos rfl]
      split
      · have hback : Reset true true s.client (((((forgetOrderStreams s).note .order).setOrder
            true).note .brackets).setBrackets true) :=
          (hr.of_client (t := (((forgetOrderStreams s).note .order).setOrder true).note
            .brackets) rfl).setBrackets true hmem
        exact hback.good (hb.enterBrackets hr.brackets_eq) hmem (fun k _ => h.sound.topics k)
          h.sound.plain
      · exact hr.good hb hmem (fun k _ => h.sound.topics k) h.sound.plain
    | ok u =>
      dsimp only
      by_cases hre : reseats s = true
      · rw [if_pos hre]
        cases hseated : reseatOrderPlantWithoutBrackets a s with
        | ok u => exact hcarry hreset hleft
        | error e =>
          exfalso
          unfold reseatOrderPlantWithoutBrackets at hseated
          split at hseated
          · next hs => exact hseat ⟨hre, hs, by rw [hseated]; rfl⟩
          · cases hseated
      · rw [if_neg hre]
        exact hcarry hreset hleft
  · have hno : s.client.order = false := by simpa using ho
    have hbr : s.client.brackets = false := by
      by_contra hbr
      exact ho (h.sound.brackets (by simpa using hbr))
    rw [if_pos (by simp [hno, hbr])]
    have hreset : Reset false false s.client s := by
      have := Reset.refl h.sound.synced
      rwa [hno, hbr] at this
    exact hcarry hreset h.balanced

/-! Teardown. -/

theorem forgetAll_count (l : List MdIntent) (hl : l.Nodup) (s : Scope) (j : Intent) :
    (l.foldl (fun s i => s.forget (.md i)) s).state.store.count j =
      s.state.store.count j - if ∃ i ∈ l, j = .md i then 1 else 0 := by
  induction l generalizing s with
  | nil => simp
  | cons i l ih =>
    obtain ⟨hi, hl⟩ := List.nodup_cons.mp hl
    rw [List.foldl_cons, ih hl]
    show (s.state.store.forget (.md i)).1.count j - _ = _
    rw [IntentStore.count_forget]
    by_cases hj : j = .md i
    · subst hj
      simp [hi]
    · simp [hj]

theorem forgetAll_marked (l : List MdIntent) {s : Scope} (h : s.state.store.Marked) :
    (l.foldl (fun s i => s.forget (.md i)) s).state.store.Marked := by
  induction l generalizing s with
  | nil => exact h
  | cons i l ih => exact ih (h.forget (.md i))

theorem forgetAll_frame (l : List MdIntent) (s : Scope) :
    (l.foldl (fun s i => s.forget (.md i)) s).state.hub = s.state.hub := by
  induction l generalizing s with
  | nil => rfl
  | cons i l ih => exact ih _

theorem removeAll_hub (l : List SubKey) (hl : l.Nodup) (s : Scope) (k : SubKey) :
    (l.foldl Scope.removeInterest s).state.hub.count k =
      s.state.hub.count k - if k ∈ l then 1 else 0 := by
  induction l generalizing s with
  | nil => simp
  | cons key l ih =>
    obtain ⟨hkey, hl⟩ := List.nodup_cons.mp hl
    rw [List.foldl_cons, ih hl]
    show (s.state.hub.drop key).1.count k - _ = _
    rw [Tally.count_drop]
    by_cases hk : k = key
    · subst hk
      simp [hkey]
    · simp [hk]

theorem removeAll_store (l : List SubKey) (s : Scope) :
    (l.foldl Scope.removeInterest s).state.store = s.state.store := by
  induction l generalizing s with
  | nil => rfl
  | cons key l ih => exact ih _

theorem DrainOrder.nodup_md {d : DrainOrder} {c : SessionCtx} (h : d.Of c) : d.md.Nodup := by
  obtain ⟨⟨ht, -⟩, ⟨hb, -⟩, ⟨hr, -⟩, -⟩ := h
  unfold DrainOrder.md
  refine List.nodup_append.mpr ⟨List.nodup_append.mpr ⟨?_, ?_, ?_⟩, ?_, ?_⟩
  · exact ht.map fun x y hxy => by cases hxy; rfl
  · exact hb.map fun x y hxy => by cases hxy; rfl
  · simp
  · exact hr.map fun x y hxy => by cases hxy; rfl
  · intro i hi j hj
    obtain ⟨t, -, rfl⟩ := List.mem_map.mp hj
    rcases List.mem_append.mp hi with hi | hi <;> obtain ⟨key, -, rfl⟩ := List.mem_map.mp hi <;>
      simp

theorem DrainOrder.mem_md {d : DrainOrder} {c : SessionCtx} (h : d.Of c) (i : MdIntent) :
    i ∈ d.md ↔ c.has i = true := by
  obtain ⟨⟨-, ht⟩, ⟨-, hb⟩, ⟨-, hr⟩, -⟩ := h
  cases i <;> simp [DrainOrder.md, SessionCtx.has, ← ht, ← hb, ← hr]

/-- The leave of a stream touches neither the topics nor the market data of the session. -/
theorem leavePnl_dying (s : Scope) :
    (leavePnl a false s).1.client = { s.client with pnl := false } := by
  unfold leavePnl
  split
  · next h =>
    have : s.client.pnl = false := by simpa using h
    simp [← this]
  · dsimp only
    split
    · split <;> rfl
    · rfl

theorem leaveOrder_frame (s : Scope) :
    (leaveOrder a false s).1.client.subscribed = s.client.subscribed ∧
      (leaveOrder a false s).1.client.pnl = s.client.pnl ∧
      ∀ i, (leaveOrder a false s).1.client.has i = s.client.has i := by
  have hleft : (forgetOrderStreams s).client.subscribed = s.client.subscribed ∧
      (forgetOrderStreams s).client.pnl = s.client.pnl ∧
      ∀ i, (forgetOrderStreams s).client.has i = s.client.has i := by
    have hset := subscribed_setBrackets s false
    have hpnl : (s.setBrackets false).client.pnl = s.client.pnl := holds_setBrackets s false .pnl
    have hmd : ∀ i, (s.setBrackets false).client.has i = s.client.has i :=
      fun i => holds_setBrackets s false (.md i)
    have hclear : (clearClientBrackets s).client.subscribed = s.client.subscribed ∧
        (clearClientBrackets s).client.pnl = s.client.pnl ∧
        ∀ i, (clearClientBrackets s).client.has i = s.client.has i := by
      unfold clearClientBrackets
      split
      · exact ⟨hset, hpnl, hmd⟩
      · exact ⟨rfl, rfl, fun _ => rfl⟩
    unfold forgetOrderStreams
    dsimp only
    split
    · exact ⟨hclear.1, hclear.2.1, fun i => (holds_setOrder _ false (.md i)).trans (hclear.2.2 i)⟩
    · exact hclear
  unfold leaveOrder
  split
  · exact ⟨rfl, rfl, fun _ => rfl⟩
  dsimp only
  split
  · exact hleft
  · split
    · split <;> exact hleft
    · exact hleft

/-- What a teardown leaves is counted by the other sessions alone. -/
theorem teardown_balanced {d : DrainOrder} (h : Balanced others topics s) (hd : d.Of s.client) :
    (∀ i, (teardown a d s).store.count i = others i) ∧
      (∀ k, (teardown a d s).hub.count k = topics k) ∧ (teardown a d s).store.Marked := by
  unfold teardown
  dsimp only
  generalize hc : ({ s.client with topics := ∅, ticker := ∅, book := ∅, timeBars := ∅ } : SessionCtx)
    = c
  have hmd : ∀ i, c.has i = false := by
    intro i
    rw [← hc]
    cases i <;> rfl
  have hbase : Balanced others topics
      ⟨(d.md.foldl (fun s i => s.forget (.md i)) s).state, c⟩ := by
    refine ⟨?_, ?_, forgetAll_marked _ h.marked⟩
    · intro j
      show (d.md.foldl (fun s i => s.forget (.md i)) s).state.store.count j = _
      rw [forgetAll_count _ (DrainOrder.nodup_md hd), h.counts j]
      cases j with
      | md i =>
        have hmem := DrainOrder.mem_md hd i
        have hci : c.holds (.md i) = false := hmd i
        by_cases hi : s.client.has i = true
        · have : s.client.holds (.md i) = true := hi
          simp [hmem.mpr hi, this, hci]
        · have hnot : s.client.holds (.md i) = false := by simpa [SessionCtx.holds] using hi
          have : i ∉ d.md := fun hm => hi (hmem.mp hm)
          simp [this, hnot, hci]
      | pnl => simp [← hc, SessionCtx.holds]
      | order => simp [← hc, SessionCtx.holds]
      | brackets => simp [← hc, SessionCtx.holds]
    · intro k
      show (d.md.foldl (fun s i => s.forget (.md i)) s).state.hub.count k = _
      rw [forgetAll_frame, h.interest k, ← hc]
  generalize htk : (⟨(d.md.foldl (fun s i => s.forget (.md i)) s).state, c⟩ : Scope) = t at hbase ⊢
  have hclient : t.client = c := by rw [← htk]
  have hpnl := leavePnl_dying a t
  have hb := (hbase.leavePnl a false).leaveOrder a false
  obtain ⟨hsub, hpnlFlag, hhas⟩ := leaveOrder_frame a (leavePnl a false t).1
  obtain ⟨horder, hbrackets⟩ := leaveOrder_dying a (leavePnl a false t).1
  generalize (leaveOrder a false (leavePnl a false t).1).1 = u at hb hsub hpnlFlag hhas horder hbrackets ⊢
  have hnone : ∀ i, u.client.holds i = false := by
    intro i
    cases i with
    | md i =>
      show u.client.has i = false
      rw [hhas i, hpnl, hclient]
      have := hmd i
      cases i <;> exact this
    | pnl =>
      show u.client.pnl = false
      rw [hpnlFlag, hpnl]
    | order => exact horder
    | brackets => exact hbrackets
  have hsubscribed : u.client.subscribed = s.client.subscribed := by
    rw [hsub, hpnl, hclient, ← hc]
  refine ⟨?_, ?_, ?_⟩
  · intro i
    rw [removeAll_store, hb.counts i, hnone i]
    rfl
  · intro k
    rw [removeAll_hub _ hd.2.2.2.1, hb.interest k, hsubscribed, ← hd.2.2.2.2]
    simp
  · rw [removeAll_store]
    exact hb.marked


end

end RithmicNt.Host
