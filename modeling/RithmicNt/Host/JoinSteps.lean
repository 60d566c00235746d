import RithmicNt.Host.JoinStages

/-! Every step of a session and of a background retry keeps what the operations know. -/

namespace RithmicNt.Host.Joins

open RithmicNt.Lib

section Actor

variable {s : State} {a : Nat} {i : MdIntent}

theorem Inv.not_writer (h : Inv s) (hsh : (s.stage a).shares = true) : s.writer = false := by
  have hmem := h.shares a hsh
  cases hw : s.writer with
  | false => rfl
  | true =>
    rw [h.alone hw] at hmem
    cases hmem

theorem Inv.not_reader (h : Inv s) (hw : s.writer = true) : a ∉ s.readers := by
  simp [h.alone hw]

theorem Inv.subscribing (h : Inv s) (hst : s.stage a = .subscribing i) (hfree : s.lock i.key = none) :
    Inv (((s.takeGate a i).note a i).goto a (.noted i (s.store.noteMd i).2)) := by
  have hmine : (a, i) ∉ s.held := by simpa [StageOk, hst] using h.stages a
  have hcov := h.covered (a := a) (.inl hfree)
  rw [hst] at hcov
  have hcnt : ((s.takeGate a i).note a i).cnt i = s.cnt i + 1 := by simp [cnt_note]; rfl
  have hpos : 0 < ((s.takeGate a i).note a i).cnt i := by rw [hcnt]; omega
  refine h.of_local ((local_takeGate s a i).trans ((local_note _ a i).trans (local_goto _ a i _)))
    (.inl hfree) (by simp [hst, Stage.on?]) ⟨?_, ?_, ?_, ?_, ?_, ?_, ?_⟩
  · exact counts_note (s := s.takeGate a i) (h.counts i) hmine
  · exact fun _ => hpos
  · intro j hj
    rw [goto_stage] at hj
    exact ⟨(Option.some.inj hj).symm, take_lock s a i⟩
  · simp [Stage.shares]
  · exact fun hw => h.not_reader hw
  · rw [goto_stage]
    refine ⟨Finset.mem_insert_self _ _, ?_⟩
    show if (s.store.noteMd i).2 = true then ((s.takeGate a i).note a i).cnt i = 1
      else 2 ≤ ((s.takeGate a i).note a i).cnt i
    rw [hcnt, IntentStore.noteMd_first]
    simp only [decide_eq_true_eq]
    show if s.cnt i = 0 then _ else _
    split <;> omega
  · rw [goto_stage]
    refine ⟨fun _ => .inl hpos, fun _ => ?_, fun _ => .inl hpos, hcov.confirms⟩
    by_cases hzero : s.cnt i = 0
    · right; right; right
      rw [IntentStore.noteMd_first, show s.store.count (.md i) = 0 from hzero]
      rfl
    · rcases hcov.heldJoined (by omega) with hd | hj | ho | hf
      · exact .inl (by simpa [State.goto, State.note, State.takeGate, State.take] using hd)
      · exact .inr (.inl hj)
      · exact .inr (.inr (.inl ho))
      · cases hf

/-- A step that takes locks, or shares the venue lock, and moves on under the topic lock. -/
theorem Inv.advance {u : State} {st : Stage} (h : Inv s) (hl : Local a i s u) (hsame : Same s u)
    (hlock : s.lock i.key = none ∨ s.lock i.key = some a)
    (hon : ∀ j, (s.stage a).on? = some j → j = i) (hu : u.lock i.key = some a)
    (hto : st.on? = some i) (hshares : st.shares = true → a ∈ u.readers)
    (halone : u.writer = true → a ∉ u.readers) (hstage : StageOk s a st)
    (hleaves : (s.stage a).leaves? = some i → st.leaves? = some i)
    (hfirst : (s.stage a).first? = some i → st.first? = some i) : Inv (u.goto a st) := by
  refine h.move (hl.trans (local_goto u a i st)) (hsame.trans (same_goto u a st)) hlock hon
    (seated_goto hto hu hshares halone) ?_ ?_ ?_
  · rw [goto_stage]
    exact hstage
  · rw [goto_stage]
    exact hleaves
  · rw [goto_stage]
    exact hfirst

theorem Inv.locked_of_on (h : Inv s) (hon : (s.stage a).on? = some i) :
    (s.lock i.key = none ∨ s.lock i.key = some a) ∧ ∀ j, (s.stage a).on? = some j → j = i :=
  ⟨.inr (h.locks a i hon), fun _ hj => Option.some.inj (hj.symm.trans hon)⟩

/-- The next stage under the topic lock, with the venue lock as it is. -/
theorem Inv.stay {st : Stage} (h : Inv s) (hon : (s.stage a).on? = some i) (hto : st.on? = some i)
    (hshares : st.shares = true → (s.stage a).shares = true) (hstage : StageOk s a st)
    (hleaves : (s.stage a).leaves? = some i → st.leaves? = some i)
    (hfirst : (s.stage a).first? = some i → st.first? = some i) : Inv (s.goto a st) := by
  obtain ⟨hlock, hj⟩ := h.locked_of_on hon
  refine h.move (local_goto s a i st) (same_goto s a st) hlock hj
    (seated_goto hto (h.locks a i hon) (fun hsh => h.shares a (hshares hsh))
      fun hw => h.not_reader hw) ?_ ?_ ?_
  · rw [goto_stage]
    exact hstage
  · rw [goto_stage]
    exact hleaves
  · rw [goto_stage]
    exact hfirst

/-- The next stage under the topic lock and a share of the venue lock. -/
theorem Inv.enter {st : Stage} (h : Inv s) (hw : s.writer = false)
    (hon : (s.stage a).on? = some i) (hto : st.on? = some i) (hstage : StageOk s a st)
    (hleaves : (s.stage a).leaves? = some i → st.leaves? = some i)
    (hfirst : (s.stage a).first? = some i → st.first? = some i) :
    Inv ((s.share a).goto a st) := by
  obtain ⟨hlock, hj⟩ := h.locked_of_on hon
  refine h.advance (local_share s a i) (same_share s a) hlock hj (h.locks a i hon) hto ?_ ?_ hstage
    hleaves hfirst
  · exact fun _ => Finset.mem_insert_self _ _
  · intro hw'
    cases hw.symm.trans hw'

/-- The next stage under the topic lock, the venue lock given back. -/
theorem Inv.exit {st : Stage} (h : Inv s) (hon : (s.stage a).on? = some i) (hto : st.on? = some i)
    (hshares : st.shares = false) (hstage : StageOk s a st)
    (hleaves : (s.stage a).leaves? = some i → st.leaves? = some i)
    (hfirst : (s.stage a).first? = some i → st.first? = some i) :
    Inv ((s.unshare a).goto a st) := by
  obtain ⟨hlock, hj⟩ := h.locked_of_on hon
  refine h.advance (local_unshare s a i) (same_unshare s a) hlock hj (h.locks a i hon) hto ?_ ?_
    hstage hleaves hfirst
  · simp [hshares]
  · exact fun _ => Finset.notMem_erase _ _

theorem Inv.finish_op (h : Inv s) (hon : (s.stage a).on? = some i)
    (hleaves : (s.stage a).leaves? = none) (hfirst : (s.stage a).first? = none) :
    Inv (s.finish a i) := by
  obtain ⟨hlock, hj⟩ := h.locked_of_on hon
  refine h.move (local_finish s a i) (same_finish s a i) hlock hj (seated_finish s a i) ?_ ?_ ?_
  · simp [StageOk]
  · simp [hleaves]
  · simp [hfirst]

theorem Inv.look {first : Bool} (h : Inv s) (hst : s.stage a = .noted i first) :
    Inv (s.look a i first) := by
  have hok : Noted (s.cnt i) ((a, i) ∈ s.held) first := by simpa [StageOk, hst] using h.stages a
  have hon : (s.stage a).on? = some i := by rw [hst]; rfl
  cases first with
  | true =>
    refine h.stay hon rfl (by simp [Stage.shares]) ⟨?_, hok.1⟩ ?_ ?_
    · simpa using hok.2
    · simp [hst, Stage.leaves?]
    · simp [Stage.first?]
  | false =>
    have htwo : 2 ≤ s.cnt i := by simpa using hok.2
    unfold State.look
    simp only [Bool.false_eq_true, if_false]
    split
    · refine h.stay hon rfl (by simp [Stage.shares]) ⟨htwo, hok.1⟩ ?_ ?_
      · simp [hst, Stage.leaves?]
      · simp [hst, Stage.first?]
    · exact h.finish_op hon (by simp [hst, Stage.leaves?]) (by simp [hst, Stage.first?])

theorem Inv.rejoining (h : Inv s) (hst : s.stage a = .rejoining i) (hfree : s.lock i.key = none) :
    Inv ((s.takeGate a i).goto a (.rechecking i)) := by
  refine h.advance (local_takeGate s a i) (same_takeGate s a i) (.inl hfree) ?_ (take_lock s a i) rfl
    ?_ (fun hw => h.not_reader hw) trivial ?_ ?_
  · simp [hst, Stage.on?]
  · simp [Stage.shares]
  · simp [hst, Stage.leaves?]
  · simp [hst, Stage.first?]

theorem Inv.refreshing (h : Inv s) (hst : s.stage a = .refreshing i) (hfree : s.lock i.key = none) :
    Inv ((s.take a i).goto a (.locked i .refresh)) := by
  have hmine : (a, i) ∈ s.held := by simpa [StageOk, hst] using h.stages a
  refine h.advance (local_take s a i) (same_take s a i) (.inl hfree) ?_ (take_lock s a i) rfl
    ?_ (fun hw => h.not_reader hw) (cnt_pos_of_held h hmine) ?_ ?_
  · simp [hst, Stage.on?]
  · simp [Stage.shares]
  · simp [hst, Stage.leaves?]
  · simp [hst, Stage.first?]

theorem Inv.rechecking (h : Inv s) (hst : s.stage a = .rechecking i) :
    Inv (if s.store.isDegraded i then s.goto a (.locked i .rejoin) else s.finish a i) := by
  have hon : (s.stage a).on? = some i := by rw [hst]; rfl
  split
  · next hd =>
    refine h.stay hon rfl (by simp [Stage.shares]) ?_ ?_ ?_
    · exact h.marked i (IntentStore.isDegraded_iff.mp hd)
    · simp [hst, Stage.leaves?]
    · simp [hst, Stage.first?]
  · exact h.finish_op hon (by simp [hst, Stage.leaves?]) (by simp [hst, Stage.first?])

theorem Purpose.Ok.pos {p : Purpose} {n : Nat} {mine : Prop} (h : p.Ok n mine) : 0 < n := by
  cases p with
  | first =>
    have := h.1
    omega
  | again =>
    have := h.1
    omega
  | rejoin | refresh => exact h

theorem Inv.lockVenue {p : Purpose} (h : Inv s) (hst : s.stage a = .locked i p)
    (hw : s.writer = false) : Inv (s.lockVenue a i p) := by
  have hok : p.Ok (s.cnt i) ((a, i) ∈ s.held) := by simpa [StageOk, hst] using h.stages a
  have hon : (s.stage a).on? = some i := by rw [hst]; rfl
  unfold State.lockVenue
  split
  · refine h.enter hw hon rfl hok (by simp [hst, Stage.leaves?]) ?_
    cases p <;> simp [hst, Stage.first?]
  · cases p with
    | first =>
      refine h.stay hon rfl (by simp [Stage.shares]) ⟨hok.2, hok.1⟩ ?_ ?_
      · simp [hst, Stage.leaves?]
      · simp [Stage.first?]
    | again degraded refresh =>
      cases refresh with
      | true =>
        refine h.enter hw hon rfl ⟨by simp, hok⟩ ?_ ?_
        · simp [hst, Stage.leaves?]
        · simp [hst, Stage.first?]
      | false =>
        refine h.stay hon rfl (by simp [Stage.shares]) ⟨hok.2, hok.1⟩ ?_ ?_
        · simp [hst, Stage.leaves?]
        · simp [hst, Stage.first?]
    | rejoin | refresh =>
      exact h.finish_op hon (by simp [hst, Stage.leaves?]) (by simp [hst, Stage.first?])

/-- A join that the venue has accepted covers an intent that is held. -/
theorem covered_addJoin (st : Stage) (hpos : 0 < s.cnt i) : Covered (s.addJoin i) i st where
  joinedHeld _ := .inl hpos
  heldJoined _ := .inr (.inl (Finset.mem_insert_self _ _))
  todo _ := .inl hpos
  confirms _ := Finset.mem_insert_self _ _

theorem Inv.join_finish (h : Inv s) (hon : (s.stage a).on? = some i) (hpos : 0 < s.cnt i) :
    Inv ((s.addJoin i).finish a i) := by
  obtain ⟨hlock, hj⟩ := h.locked_of_on hon
  refine h.of_local ((local_addJoin s a i).trans (local_finish _ a i)) hlock hj
    (own_finish (h.counts i) (h.marked i) (covered_addJoin .idle hpos))

theorem Inv.join_clearing (h : Inv s) (hon : (s.stage a).on? = some i)
    (hsh : (s.stage a).shares = true) (hpos : 0 < s.cnt i) :
    Inv ((s.addJoin i).goto a (.clearing i)) := by
  obtain ⟨hlock, hj⟩ := h.locked_of_on hon
  have hseated : Seated a i ((s.addJoin i).goto a (.clearing i)) :=
    seated_goto rfl (h.locks a i hon) (fun _ => h.shares a hsh) fun hw => h.not_reader hw
  refine h.of_local ((local_addJoin s a i).trans (local_goto _ a i _)) hlock hj
    ⟨h.counts i, h.marked i, hseated.lock, hseated.shares, hseated.alone, ?_, ?_⟩
  · rw [goto_stage]
    exact ⟨hpos, Finset.mem_insert_self _ _⟩
  · have hcov := covered_addJoin (s := s) (i := i) ((s.addJoin i).goto a (.clearing i) |>.stage a) hpos
    exact ⟨hcov.joinedHeld, hcov.heldJoined, hcov.todo, hcov.confirms⟩

theorem Inv.answered {p : Purpose} {ok : Bool} (h : Inv s) (hst : s.stage a = .calling i p) :
    Inv (s.answered a i p ok) := by
  have hok : p.Ok (s.cnt i) ((a, i) ∈ s.held) := by simpa [StageOk, hst] using h.stages a
  have hon : (s.stage a).on? = some i := by rw [hst]; rfl
  have hsh : (s.stage a).shares = true := by rw [hst]; rfl
  have hleaves : (s.stage a).leaves? = none := by rw [hst]; rfl
  cases ok with
  | true =>
    rcases p with _ | ⟨_ | _, _⟩ | _ | _
    · exact h.join_finish hon hok.pos
    · exact h.join_finish hon hok.pos
    · exact h.join_clearing hon hsh hok.pos
    · exact h.join_clearing hon hsh hok.pos
    · exact h.join_finish hon hok.pos
  | false =>
    rcases p with _ | ⟨_, _ | _⟩ | _ | _
    · exact h.exit hon rfl rfl ⟨hok.2, hok.1⟩ (by simp [hleaves]) (by simp [Stage.first?])
    · exact h.exit hon rfl rfl ⟨hok.2, hok.1⟩ (by simp [hleaves]) (by simp [hst, Stage.first?])
    · exact h.stay hon rfl (fun _ => hsh) ⟨by simp, hok⟩ (by simp [hleaves])
        (by simp [hst, Stage.first?])
    · exact h.finish_op hon hleaves (by simp [hst, Stage.first?])
    · exact h.stay hon rfl (fun _ => hsh) ⟨by simp, hok⟩ (by simp [hleaves])
        (by simp [hst, Stage.first?])

theorem mem_markDegraded (hpos : 0 < s.cnt i) : i ∈ (s.markDegraded i).store.degraded := by
  simp only [State.markDegraded, IntentStore.degraded_markDegraded]
  rw [if_pos (show 0 < s.store.count (.md i) from hpos)]
  exact Finset.mem_insert_self _ _

theorem cnt_markDegraded (j : MdIntent) : (s.markDegraded i).cnt j = s.cnt j :=
  s.store.count_markDegraded i (.md j)

theorem covered_markDegraded (h : Inv s) (st : Stage) (hpos : 0 < s.cnt i) :
    Covered (s.markDegraded i) i st where
  joinedHeld _ := .inl (by rw [cnt_markDegraded]; exact hpos)
  heldJoined _ := .inl (mem_markDegraded hpos)
  todo _ := .inl (by rw [cnt_markDegraded]; exact hpos)
  confirms := h.confirms i

theorem Inv.marked_step {p : Purpose} (h : Inv s) (hst : s.stage a = .marking i p) :
    Inv (s.marked a i p) := by
  obtain ⟨hne, hok⟩ : p ≠ .first ∧ p.Ok (s.cnt i) ((a, i) ∈ s.held) := by
    simpa [StageOk, hst] using h.stages a
  have hon : (s.stage a).on? = some i := by rw [hst]; rfl
  obtain ⟨hlock, hj⟩ := h.locked_of_on hon
  have hpos := hok.pos
  have hcounts : (s.markDegraded i).cnt i = ((s.markDegraded i).held.filter (·.2 = i)).card := by
    rw [cnt_markDegraded]
    exact h.counts i
  have hmarked : i ∈ (s.markDegraded i).store.degraded → 0 < (s.markDegraded i).cnt i := by
    rw [cnt_markDegraded]
    exact fun _ => hpos
  cases p with
  | first => exact absurd rfl hne
  | rejoin | refresh =>
    exact h.of_local ((local_markDegraded s a i).trans (local_finish _ a i)) hlock hj
      (own_finish hcounts hmarked (covered_markDegraded h .idle hpos))
  | again degraded refresh =>
    show Inv (((s.markDegraded i).unshare a).goto a (.rollingBack i false))
    have hseated : Seated a i (((s.markDegraded i).unshare a).goto a (.rollingBack i false)) :=
      seated_goto rfl (h.locks a i hon) (by simp [Stage.shares]) fun _ => Finset.notMem_erase _ _
    refine h.of_local ((local_markDegraded s a i).trans ((local_unshare _ a i).trans
      (local_goto _ a i _))) hlock hj
      ⟨hcounts, hmarked, hseated.lock, hseated.shares, hseated.alone, ?_, ?_⟩
    · rw [goto_stage]
      refine ⟨hok.2, ?_⟩
      show 2 ≤ (s.markDegraded i).cnt i
      rw [cnt_markDegraded]
      exact hok.1
    · have hcov := covered_markDegraded h (.rollingBack i false) hpos
      rw [goto_stage]
      exact ⟨hcov.joinedHeld, hcov.heldJoined, hcov.todo, hcov.confirms⟩

theorem cnt_clearDegraded (j : MdIntent) : (s.clearDegraded i).cnt j = s.cnt j :=
  s.store.count_clearDegraded i (.md j)

theorem Inv.clearing (h : Inv s) (hst : s.stage a = .clearing i) :
    Inv ((s.clearDegraded i).finish a i) := by
  obtain ⟨hpos, hjoined⟩ : 0 < s.cnt i ∧ i ∈ s.joined := by simpa [StageOk, hst] using h.stages a
  obtain ⟨hlock, hj⟩ := h.locked_of_on (a := a) (i := i) (by rw [hst]; rfl)
  have hpos' : 0 < (s.clearDegraded i).cnt i := by
    rw [cnt_clearDegraded]
    exact hpos
  refine h.of_local ((local_clearDegraded s a i).trans (local_finish _ a i)) hlock hj
    (own_finish ?_ (fun _ => hpos') ⟨fun _ => .inl hpos', fun _ => .inr (.inl hjoined),
      fun _ => .inl hpos', fun _ => hjoined⟩)
  rw [cnt_clearDegraded]
  exact h.counts i

theorem marked_forget (h : Inv s) :
    i ∈ (s.forget a i).store.degraded → 0 < (s.forget a i).cnt i :=
  h.marked.forget (.md i) i

/-- Where other holders remain, the intent is covered as before. -/
theorem covered_forget (h : Inv s) (hlock : s.lock i.key = none ∨ s.lock i.key = some a)
    (hfirst : (s.stage a).first? = none) (htwo : 2 ≤ s.cnt i) : Covered (s.forget a i) i .idle := by
  have hpos : 0 < (s.forget a i).cnt i := by
    rw [cnt_forget, if_pos rfl]
    omega
  refine ⟨fun _ => .inl hpos, fun _ => ?_, fun _ => .inl hpos, h.confirms i⟩
  rcases (h.covered hlock).heldJoined (by omega) with hd | hj | ho | hst
  · left
    simp only [State.forget, IntentStore.degraded_forgetMd]
    rw [if_neg (show s.store.count (.md i) ≠ 1 by have : 2 ≤ s.store.count (.md i) := htwo; omega)]
    exact hd
  · exact .inr (.inl hj)
  · exact .inr (.inr (.inl ho))
  · rw [hfirst] at hst
    cases hst

theorem Inv.rollingBack {first : Bool} (h : Inv s) (hst : s.stage a = .rollingBack i first)
    (htime : first = true → (i ∈ s.joined → i ∈ s.abandoned) ∧ i ∉ s.pump.todo) :
    Inv ((s.forget a i).finish a i) := by
  obtain ⟨hmine, hn⟩ : Noted (s.cnt i) ((a, i) ∈ s.held) first := by
    simpa [StageOk, hst] using h.stages a
  obtain ⟨hlock, hj⟩ := h.locked_of_on (a := a) (i := i) (by rw [hst]; rfl)
  refine h.of_local ((local_forget s a i).trans (local_finish _ a i)) hlock hj
    (own_finish (counts_forget (h.counts i) hmine) (marked_forget h) ?_)
  cases first with
  | false => exact covered_forget h hlock (by simp [hst, Stage.first?]) (by simpa using hn)
  | true =>
    obtain ⟨habandoned, htodo⟩ := htime rfl
    have hzero : (s.forget a i).cnt i = 0 := by
      rw [cnt_forget, if_pos rfl]
      simp only [if_true] at hn
      omega
    refine ⟨fun hi => .inr (.inl (habandoned hi)), fun hpos => ?_, fun hi => absurd hi htodo,
      h.confirms i⟩
    rw [hzero] at hpos
    cases hpos

/-- The last holder has forgotten the intent and goes on to leave it. -/
theorem Inv.forget_last {u : State} {st : Stage} (h : Inv s) (hl : Local a i s u)
    (hsame : Same s u) (hfree : s.lock i.key = none) (hon : (s.stage a).on? = none)
    (hmine : (a, i) ∈ s.held) (hone : s.cnt i = 1) (hu : u.lock i.key = some a)
    (halone : u.writer = true → a ∉ u.readers) (hto : st.leaves? = some i)
    (hshares : st.shares = false) (hstage : StageOk (u.forget a i) a st) :
    Inv ((u.forget a i).goto a st) := by
  have hcnt : u.cnt i = s.cnt i := by simp only [State.cnt, hsame.store]
  have hzero : (u.forget a i).cnt i = 0 := by
    rw [cnt_forget, if_pos rfl]
    omega
  have hseated : Seated a i ((u.forget a i).goto a st) :=
    seated_goto (Stage.on_of_leaves hto) hu (by simp [hshares]) halone
  refine h.of_local (hl.trans ((local_forget u a i).trans (local_goto _ a i st))) (.inl hfree)
    (by simp [hon]) ⟨?_, ?_, hseated.lock, hseated.shares, hseated.alone, ?_, ?_⟩
  · exact counts_forget (h.counts_of_same hsame i) (by rw [hsame.held]; exact hmine)
  · have hmarked : (u.forget a i).store.Marked := by
      show (u.store.forgetMd i).1.Marked
      rw [hsame.store]
      exact h.marked.forget (.md i)
    exact hmarked i
  · rw [goto_stage]
    exact hstage.of_same (same_goto _ a st)
  · rw [goto_stage]
    refine ⟨fun _ => .inr (.inr hto), fun hpos => ?_, fun _ => .inr hto, ?_⟩
    · have hpos : 0 < (u.forget a i).cnt i := hpos
      rw [hzero] at hpos
      cases hpos
    · show u.pump.confirms? = some i → i ∈ u.joined
      rw [hsame.pump, hsame.joined]
      exact h.confirms i

/-- A holder that is not the last forgets the intent. -/
theorem Inv.forget_other {st : Stage} (h : Inv s) (hfree : s.lock i.key = none)
    (hon : (s.stage a).on? = none) (hfirst : (s.stage a).first? = none) (hmine : (a, i) ∈ s.held)
    (htwo : 2 ≤ s.cnt i) (hto : st.on? = none) (hshares : st.shares = false)
    (hstage : StageOk (s.forget a i) a st) : Inv ((s.forget a i).goto a st) := by
  have hseated : Seated a i ((s.forget a i).goto a st) :=
    seated_unlocked (by rw [goto_stage]; exact hto) (by rw [goto_stage]; exact hshares)
      fun hw => h.not_reader hw
  refine h.of_local ((local_forget s a i).trans (local_goto _ a i st)) (.inl hfree) (by simp [hon])
    ⟨counts_forget (h.counts i) hmine, marked_forget h (a := a), hseated.lock, hseated.shares,
      hseated.alone, ?_, ?_⟩
  · rw [goto_stage]
    exact hstage.of_same (same_goto _ a st)
  · have hcov := covered_forget h (.inl hfree) hfirst htwo
    exact Covered.of_idle _ ⟨hcov.joinedHeld, hcov.heldJoined, hcov.todo, hcov.confirms⟩

theorem Inv.two_of_not_last (h : Inv s) (hmine : (a, i) ∈ s.held)
    (hlast : ¬ (s.store.forgetMd i).2 = true) : 2 ≤ s.cnt i := by
  have hpos := cnt_pos_of_held h hmine
  have hne : s.cnt i ≠ 1 := by simpa [IntentStore.forgetMd_last, State.cnt] using hlast
  omega

theorem one_of_last (hlast : (s.store.forgetMd i).2 = true) : s.cnt i = 1 := by
  simpa [IntentStore.forgetMd_last, State.cnt] using hlast

theorem Inv.unsubscribing (h : Inv s) (hst : s.stage a = .unsubscribing i)
    (hfree : s.lock i.key = none) :
    Inv (if (s.store.forgetMd i).2 then ((s.takeGate a i).forget a i).goto a (.leaving i)
      else (s.forget a i).goto a .idle) := by
  have hmine : (a, i) ∈ s.held := by simpa [StageOk, hst] using h.stages a
  have hon : (s.stage a).on? = none := by rw [hst]; rfl
  split
  · next hlast =>
    have hone := one_of_last hlast
    refine h.forget_last (local_takeGate s a i) (same_takeGate s a i) hfree hon hmine hone
      (take_lock s a i) (fun hw => h.not_reader hw) rfl rfl ?_
    show ((s.takeGate a i).forget a i).cnt i = 0
    rw [cnt_forget, if_pos rfl]
    show s.cnt i - 1 = 0
    omega
  · next hmore =>
    exact h.forget_other hfree hon (by simp [hst, Stage.first?]) hmine (h.two_of_not_last hmine hmore)
      rfl rfl trivial

theorem Inv.leaving (h : Inv s) (hst : s.stage a = .leaving i) (hw : s.writer = false) :
    Inv ((s.share a).goto a (.leaveCalling i)) := by
  have hzero : s.cnt i = 0 := by simpa [StageOk, hst] using h.stages a
  exact h.enter hw (by rw [hst]; rfl) rfl hzero (fun _ => rfl) (by simp [hst, Stage.first?])

/-- While an operation shares the venue lock no pass is running. -/
theorem Inv.no_pass (h : Inv s) (hsh : (s.stage a).shares = true) :
    s.pump.todo = [] ∧ s.pump.confirms? = none := by
  have hw := h.not_writer hsh
  have hwrites : s.pump.writes = false := by
    cases hp : s.pump.writes with
    | false => rfl
    | true => cases (h.writes hp).symm.trans hw
  generalize s.pump = p at hwrites
  cases p <;> simp_all [PumpPhase.writes, PumpPhase.todo, PumpPhase.confirms?]

/-- A leave that the venue has accepted, of an intent that no session holds. -/
theorem covered_dropJoin (h : Inv s) (hsh : (s.stage a).shares = true) (hzero : s.cnt i = 0) :
    Covered (s.dropJoin i) i .idle := by
  obtain ⟨htodo, hconfirms⟩ := h.no_pass hsh
  refine ⟨fun hi => ?_, fun hpos => ?_, fun hi => ?_, fun hc => ?_⟩
  · exact absurd hi (Finset.notMem_erase _ _)
  · have hpos : 0 < s.cnt i := hpos
    omega
  · have hi : i ∈ s.pump.todo := hi
    rw [htodo] at hi
    cases hi
  · exact absurd (hconfirms.symm.trans hc) (by simp)

theorem Inv.leaveCalling {ok : Bool} (h : Inv s) (hst : s.stage a = .leaveCalling i) :
    Inv (if ok then (s.dropJoin i).finish a i else (s.unshare a).goto a (.renoting i)) := by
  have hzero : s.cnt i = 0 := by simpa [StageOk, hst] using h.stages a
  have hon : (s.stage a).on? = some i := by rw [hst]; rfl
  have hsh : (s.stage a).shares = true := by rw [hst]; rfl
  obtain ⟨hlock, hj⟩ := h.locked_of_on hon
  cases ok with
  | true =>
    exact h.of_local ((local_dropJoin s a i).trans (local_finish _ a i)) hlock hj
      (own_finish (h.counts i) (h.marked i) (covered_dropJoin h hsh hzero))
  | false =>
    exact h.exit hon rfl rfl hzero (fun _ => rfl) (by simp [hst, Stage.first?])

theorem Inv.renoting (h : Inv s) (hst : s.stage a = .renoting i)
    (htime : i ∈ s.joined ∨ s.pump.owes i) : Inv ((s.note a i).finish a i) := by
  have hzero : s.cnt i = 0 := by simpa [StageOk, hst] using h.stages a
  obtain ⟨hlock, hj⟩ := h.locked_of_on (a := a) (i := i) (by rw [hst]; rfl)
  have hmine : (a, i) ∉ s.held := by
    intro hm
    have := cnt_pos_of_held h hm
    omega
  have hpos : 0 < (s.note a i).cnt i := by
    rw [cnt_note, if_pos rfl]
    omega
  refine h.of_local ((local_note s a i).trans (local_finish _ a i)) hlock hj
    (own_finish (counts_note (h.counts i) hmine) (fun _ => hpos) ⟨fun _ => .inl hpos, fun _ => ?_,
      fun _ => .inl hpos, h.confirms i⟩)
  rcases htime with hjoined | howes
  · exact .inr (.inl hjoined)
  · exact .inr (.inr (.inl howes))

/-- What is left to drain stays held while the intent before it is forgotten. -/
theorem held_forget {todo : List MdIntent} (hnodup : (i :: todo).Nodup)
    (hheld : ∀ j ∈ i :: todo, (a, j) ∈ s.held) : ∀ j ∈ todo, (a, j) ∈ (s.forget a i).held := by
  intro j hj
  have hne : j ≠ i := by
    rintro rfl
    exact (List.nodup_cons.mp hnodup).1 hj
  exact Finset.mem_erase.mpr ⟨by simp [hne], hheld j (List.mem_cons_of_mem i hj)⟩

theorem Inv.tearing {todo : List MdIntent} (h : Inv s) (hst : s.stage a = .tearing (i :: todo))
    (hfree : s.lock i.key = none) :
    Inv (if (s.store.forgetMd i).2 then ((s.take a i).forget a i).goto a (.tearLeaving i todo)
      else (s.forget a i).goto a (.tearing todo)) := by
  have hok := h.stages a
  rw [hst] at hok
  obtain ⟨hnodup, hheld⟩ := hok
  have hmine := hheld i List.mem_cons_self
  have hon : (s.stage a).on? = none := by rw [hst]; rfl
  have hrest := (List.nodup_cons.mp hnodup).2
  split
  · next hlast =>
    have hone := one_of_last hlast
    refine h.forget_last (local_take s a i) (same_take s a i) hfree hon hmine hone
      (take_lock s a i) (fun hw => h.not_reader hw) rfl rfl ⟨?_, hrest, ?_⟩
    · rw [cnt_forget, if_pos rfl]
      show s.cnt i - 1 = 0
      omega
    · exact held_forget (s := s.take a i) hnodup hheld
  · next hmore =>
    exact h.forget_other hfree hon (by simp [hst, Stage.first?]) hmine (h.two_of_not_last hmine hmore)
      rfl rfl ⟨hrest, held_forget hnodup hheld⟩

theorem Inv.tearLeaving {todo : List MdIntent} (h : Inv s) (hst : s.stage a = .tearLeaving i todo)
    (hw : s.writer = false) : Inv ((s.share a).goto a (.tearCalling i todo)) := by
  have hok := h.stages a
  rw [hst] at hok
  exact h.enter hw (by rw [hst]; rfl) rfl hok (fun _ => rfl) (by simp [hst, Stage.first?])

theorem Inv.tear_finish {u : State} {todo : List MdIntent} (h : Inv s) (hl : Local a i s u)
    (hon : (s.stage a).on? = some i) (hcounts : u.cnt i = (u.held.filter (·.2 = i)).card)
    (hmarked : i ∈ u.store.degraded → 0 < u.cnt i) (hcov : Covered u i .idle)
    (hstage : StageOk u a (.tearing todo)) : Inv ((u.finish a i).goto a (.tearing todo)) := by
  obtain ⟨hlock, hj⟩ := h.locked_of_on hon
  have hseated : Seated a i ((u.finish a i).goto a (.tearing todo)) :=
    seated_unlocked (by simp [Stage.on?]) (by simp [Stage.shares]) fun _ => by
      simp [State.goto, State.finish]
  refine h.of_local (hl.trans ((local_finish u a i).trans (local_goto _ a i _))) hlock hj
    ⟨hcounts, hmarked, hseated.lock, hseated.shares, hseated.alone, ?_, ?_⟩
  · rw [goto_stage]
    exact hstage.of_same ((same_finish u a i).trans (same_goto _ a _))
  · exact Covered.of_idle _ ⟨hcov.joinedHeld, hcov.heldJoined, hcov.todo, hcov.confirms⟩

/-- After a failed leave the join, if there is one, is an abandoned one. -/
theorem covered_abandoned {u : State} (h : Inv s) (hsh : (s.stage a).shares = true)
    (hzero : u.cnt i = 0) (hpump : u.pump = s.pump) (habandoned : i ∈ u.joined → i ∈ u.abandoned) :
    Covered u i .idle := by
  obtain ⟨htodo, hconfirms⟩ := h.no_pass hsh
  refine ⟨fun hi => .inr (.inl (habandoned hi)), fun hpos => ?_, fun hi => ?_, fun hc => ?_⟩
  · omega
  · rw [hpump, htodo] at hi
    cases hi
  · rw [hpump, hconfirms] at hc
    cases hc

theorem Inv.tearCalling {todo : List MdIntent} {ok : Bool} (h : Inv s)
    (hst : s.stage a = .tearCalling i todo) :
    Inv (((if ok then s.dropJoin i else if i ∈ s.joined then s.abandon i else s).finish a i).goto a
      (.tearing todo)) := by
  have hok := h.stages a
  rw [hst] at hok
  obtain ⟨hzero, htodo⟩ := hok
  have hon : (s.stage a).on? = some i := by rw [hst]; rfl
  have hsh : (s.stage a).shares = true := by rw [hst]; rfl
  split
  · exact h.tear_finish (local_dropJoin s a i) hon (h.counts i) (h.marked i)
      (covered_dropJoin h hsh hzero) htodo
  · split
    · exact h.tear_finish (local_abandon s a i) hon (h.counts i) (h.marked i)
        (covered_abandoned h hsh hzero rfl fun _ => Finset.mem_insert_self _ _) htodo
    · next hout =>
      exact h.tear_finish (.of_same ⟨rfl, rfl, rfl, rfl, rfl, rfl⟩ (fun _ _ => rfl) (fun _ _ => rfl)
        fun _ _ => Iff.rfl) hon (h.counts i) (h.marked i)
        (covered_abandoned h hsh hzero rfl fun hi => absurd hi hout) htodo

end Actor

end RithmicNt.Host.Joins
