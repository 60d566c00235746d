import RithmicNt.Adapter.Polling

/-! Gap recovery over whole runs of the pollers: which attempts have to succeed for no poller to poll
on with lost events unrecovered. -/

namespace RithmicNt.Adapter.Polling

open RithmicNt.Lib

/-- What a poller knows of the recovery it owes. -/
def PhaseOk (s : State) (p : Poller) : Phase → Prop
  | .polling | .resyncing false => s.owed p = false
  | .handling rest => p.isData = true ∧ Excused s p rest
  | .queued .. => p.isData = true
  | .replaying _ => p.isData = true ∧ s.resyncLock = some p ∧ (s.owed p = true → s.covers p = true)
  | .stopped | .resyncing true | .recovering _ => True

def Inv (s : State) : Prop := ∀ p, PhaseOk s p (s.phase p)

/-- A step of `p` that leaves alone what the other pollers know. -/
structure Apart (p : Poller) (s t : State) : Prop where
  phase : ∀ q, q ≠ p → t.phase q = s.phase q
  owed : ∀ q, q ≠ p → t.owed q = true → s.owed q = true
  covers : ∀ q, q ≠ p → s.resyncLock = some q → t.covers q = s.covers q
  lock : ∀ q, q ≠ p → s.resyncLock = some q → t.resyncLock = some q

theorem PhaseOk.of_apart {p q : Poller} {s t : State} {phase : Phase} (h : Apart p s t)
    (hq : q ≠ p) (hok : PhaseOk s q phase) : PhaseOk t q phase := by
  have hfalse : s.owed q = false → t.owed q = false := by
    intro hs
    cases ht : t.owed q with
    | false => rfl
    | true => exact hs.symm.trans (h.owed q hq ht) |>.symm
  cases phase with
  | stopped | recovering => trivial
  | queued => exact hok
  | polling => exact hfalse hok
  | resyncing lost =>
    cases lost with
    | false => exact hfalse hok
    | true => trivial
  | handling rest => exact ⟨hok.1, hok.2.imp hfalse id⟩
  | replaying rest =>
    obtain ⟨hdata, hlock, hcovers⟩ := hok
    refine ⟨hdata, h.lock q hq hlock, fun ht => ?_⟩
    rw [h.covers q hq hlock]
    exact hcovers (h.owed q hq ht)

theorem Inv.of_apart {p : Poller} {s t : State} (hinv : Inv s) (h : Apart p s t)
    (hown : PhaseOk t p (t.phase p)) : Inv t := by
  intro q
  by_cases hq : q = p
  · rw [hq]
    exact hown
  · rw [h.phase q hq]
    exact (hinv q).of_apart h hq

section Frames

variable {s : State} {p : Poller}

@[simp] theorem goto_phase (phase : Phase) : (s.goto p phase).phase p = phase := by
  simp [State.goto]

theorem apart_goto (phase : Phase) : Apart p s (s.goto p phase) where
  phase _ hq := Function.update_of_ne hq _ _
  owed _ _ h := h
  covers _ _ _ := rfl
  lock _ _ h := h

theorem apart_wait (backoff : Nat) : Apart p s (s.wait p backoff) :=
  ⟨fun _ _ => rfl, fun _ _ h => h, fun _ _ _ => rfl, fun _ _ h => h⟩

theorem apart_resetStreak : Apart p s (s.resetStreak p) :=
  ⟨fun _ _ => rfl, fun _ _ h => h, fun _ _ _ => rfl, fun _ _ h => h⟩

theorem apart_settle : Apart p s (s.settle p) where
  phase _ _ := rfl
  owed q hq h := by simpa [State.settle, hq] using h
  covers _ _ _ := rfl
  lock _ _ h := h

theorem apart_owe (lost : Bool) : Apart p s (s.owe p lost) where
  phase _ _ := rfl
  owed q hq h := by simpa [State.owe, hq] using h
  covers q hq _ := by simp [State.owe, hq]
  lock _ _ h := h

theorem apart_release : Apart p s (s.release p) where
  phase _ _ := rfl
  owed _ _ h := h
  covers _ _ _ := rfl
  lock q hq h := by simp [State.release, h, hq]

theorem Apart.trans {t u : State} (h : Apart p s t) (h' : Apart p t u) : Apart p s u where
  phase q hq := (h'.phase q hq).trans (h.phase q hq)
  owed q hq ho := h.owed q hq (h'.owed q hq ho)
  covers q hq hl := (h'.covers q hq (h.lock q hq hl)).trans (h.covers q hq hl)
  lock q hq hl := h'.lock q hq (h.lock q hq hl)

theorem phaseOk_goto (phase phase' : Phase) :
    PhaseOk (s.goto p phase') p phase ↔ PhaseOk s p phase := by
  cases phase <;> exact Iff.rfl

end Frames

section Steps

variable {s t : State} {p : Poller}

/-- The poller has changed what is its own and goes on to a phase. -/
theorem Inv.goto {u : State} {phase : Phase} (hinv : Inv s) (h : Apart p s u)
    (hok : PhaseOk u p phase) : Inv (u.goto p phase) := by
  refine hinv.of_apart (h.trans (apart_goto phase)) ?_
  rw [goto_phase]
  exact (phaseOk_goto phase phase).mpr hok

theorem Apart.refl : Apart p s s := ⟨fun _ _ => rfl, fun _ _ h => h, fun _ _ _ => rfl, fun _ _ h => h⟩

theorem Inv.owed_of_polling (hinv : Inv s) (hp : s.phase p = .polling) : s.owed p = false := by
  have := hinv p
  rw [hp] at this
  exact this

theorem Inv.plantBatch {batch : List Item} (hinv : Inv s) (hp : s.phase p = .polling) :
    Inv (s.plantBatch p batch) := by
  unfold State.plantBatch
  split
  · exact hinv.goto (apart_owe true) trivial
  · exact hinv.goto .refl (hinv.owed_of_polling hp)
  · split
    · exact hinv.goto (apart_owe true) trivial
    · exact hinv.goto (apart_owe true) trivial

/-- A poll that fails leaves the poller polling, stops it, or starts a resync of the channel. -/
theorem Inv.plantFailed {e : PollFailure} (hinv : Inv s) (hp : s.phase p = .polling) :
    Inv (s.plantFailed p e) := by
  have howed := hinv.owed_of_polling hp
  unfold State.plantFailed
  split
  · split
    · have hstreak : Apart p s { s with transientStreak := s.transientStreak + 1 } :=
        ⟨fun _ _ => rfl, fun _ _ h => h, fun _ _ _ => rfl, fun _ _ h => h⟩
      simp only
      split
      · exact hinv.goto hstreak trivial
      · refine hinv.of_apart hstreak ?_
        show PhaseOk _ p (s.phase p)
        rw [hp]
        exact howed
    · exact hinv
  · split
    · exact hinv.goto .refl trivial
    · split
      · refine hinv.of_apart (apart_wait _) ?_
        show PhaseOk _ p (s.phase p)
        rw [hp]
        exact howed
      · exact hinv.goto .refl howed

theorem Inv.dataFailed {e : PollFailure} (hinv : Inv s) (hp : s.phase p = .polling) :
    Inv (s.dataFailed p e) := by
  unfold State.dataFailed
  split
  · exact hinv.goto .refl trivial
  · refine hinv.of_apart (apart_wait _) ?_
    show PhaseOk _ p (s.phase p)
    rw [hp]
    exact hinv.owed_of_polling hp

theorem Inv.dataPolled {batch : List Item} (hinv : Inv s) (hp : s.phase p = .polling)
    (hdata : p.isData = true) :
    Inv (((s.owe p (decide (.gap ∈ batch))).wait p minBackoff).goto p (.handling batch)) := by
  refine hinv.goto ((apart_owe _).trans (apart_wait _)) ⟨hdata, ?_⟩
  by_cases hgap : Item.gap ∈ batch
  · exact .inr hgap
  · left
    show (s.owe p (decide (Item.gap ∈ batch))).owed p = false
    simp [State.owe, hinv.owed_of_polling hp, hgap]

theorem settle_owed : (s.settle p).owed p = false := by simp [State.settle]

theorem Inv.plantAnswered {ok : Bool} (hinv : Inv s)
    (hcond : ok = false → (s.phase p).Fails s p) (hstep : s.plantAnswered p ok = some t) :
    Inv t := by
  unfold State.plantAnswered at hstep
  split at hstep
  · next lost hp =>
    cases ok with
    | true =>
      cases hstep
      exact hinv.goto ((apart_settle.trans (apart_wait _)).trans apart_resetStreak) settle_owed
    | false =>
      cases hstep
      have hlost : lost = false := by
        have := hcond rfl
        rw [hp] at this
        exact this
      have hok := hinv p
      rw [hp, hlost] at hok
      exact hinv.goto (apart_wait _) hok
  · next delay hp =>
    cases ok with
    | true =>
      cases hstep
      exact hinv.goto apart_settle settle_owed
    | false =>
      cases hstep
      exact hinv.goto .refl trivial
  · cases hstep

theorem Inv.dataNext (hinv : Inv s) (hstep : s.dataNext p = some t) : Inv t := by
  have hok := hinv p
  unfold State.dataNext at hstep
  split at hstep
  · next hp =>
    cases hstep
    rw [hp] at hok
    refine hinv.goto .refl ?_
    rcases hok.2 with howed | hgap
    · exact howed
    · cases hgap
  · next hp =>
    cases hstep
    rw [hp] at hok
    exact hinv.goto .refl hok.1
  · cases hstep
    exact hinv.goto .refl trivial
  · next outcome rest hnot hp =>
    cases hstep
    rw [hp] at hok
    refine hinv.goto .refl ⟨hok.1, hok.2.imp id fun hgap => ?_⟩
    rcases List.mem_cons.mp hgap with heq | hrest
    · cases heq
    · exact hrest
  · cases hstep

theorem Inv.granted (hinv : Inv s) (hcond : (s.phase p).Skips s p)
    (hstep : s.granted p = some t) : Inv t := by
  have hok := hinv p
  unfold State.granted at hstep
  split at hstep
  · next startGen rest hp =>
    rw [hp] at hok hcond
    split at hstep
    · next hfree =>
      split at hstep
      · next hgen =>
        cases hstep
        refine hinv.goto (apart_wait _) ⟨hok, ?_⟩
        rcases hcond with heq | hexcused
        · exact absurd heq hgen
        · exact hexcused
      · cases hstep
        refine hinv.of_apart (p := p) ⟨?_, ?_, ?_, ?_⟩ ?_
        · exact fun _ hq => Function.update_of_ne hq _ _
        · exact fun _ _ h => h
        · intro q _ hlock
          cases hfree.symm.trans hlock
        · intro q _ hlock
          cases hfree.symm.trans hlock
        · show PhaseOk _ p ((s.goto p (.replaying rest)).phase p)
          rw [goto_phase]
          refine ⟨hok, rfl, fun howed => ?_⟩
          show (p.isData && s.owed p) = true
          rw [show p.isData = true from hok]
          exact howed
    · cases hstep
  · cases hstep

theorem Inv.replayed {ok : Bool} (hinv : Inv s) (hcond : ok = false → (s.phase p).Fails s p)
    (hstep : s.replayed p ok = some t) : Inv t := by
  have hok := hinv p
  unfold State.replayed at hstep
  split at hstep
  · next rest hp =>
    rw [hp] at hok
    obtain ⟨hdata, hlock, hcovers⟩ := hok
    cases ok with
    | true =>
      cases hstep
      refine hinv.of_apart (p := p) ⟨?_, ?_, fun _ _ _ => rfl, ?_⟩ ?_
      · exact fun _ hq => Function.update_of_ne hq _ _
      · intro q _ howed
        exact (Bool.and_eq_true_iff.mp howed).1
      · intro q hq hother
        exact absurd (Option.some.inj (hother.symm.trans hlock)) hq
      · show PhaseOk _ p ((((s.wait p minBackoff).release p).goto p (.handling rest)).phase p)
        rw [goto_phase]
        refine ⟨hdata, .inl ?_⟩
        show (s.owed p && !s.covers p) = false
        cases howed : s.owed p with
        | false => rfl
        | true => simp [hcovers howed]
    | false =>
      cases hstep
      have hexcused := hcond rfl
      rw [hp] at hexcused
      exact hinv.goto ((apart_wait _).trans apart_release) ⟨hdata, hexcused⟩
  · cases hstep

theorem Inv.step {e : Event} (hinv : Inv s) (hcond : Attempts s e) (hstep : s.step e = some t) :
    Inv t := by
  cases e with
  | start p =>
    simp only [State.step] at hstep
    split at hstep
    · cases hstep
      exact hinv.goto ((apart_settle.trans (apart_wait _)).trans apart_resetStreak) settle_owed
    · cases hstep
  | cancel p =>
    cases hstep
    exact hinv.goto apart_release trivial
  | idle p =>
    simp only [State.step] at hstep
    split at hstep
    · cases hstep
      exact hinv
    · cases hstep
  | polled p batch =>
    simp only [State.step] at hstep
    split at hstep
    · next hp =>
      cases hstep
      unfold State.polled
      split
      · next hdata => exact hinv.dataPolled hp hdata
      · exact hinv.plantBatch hp
    · cases hstep
  | pollFailed p e =>
    simp only [State.step] at hstep
    split at hstep
    · next hp =>
      cases hstep
      unfold State.pollFailed
      split
      · exact hinv.dataFailed hp
      · exact hinv.plantFailed hp
    · cases hstep
  | answered p ok =>
    refine hinv.plantAnswered ?_ hstep
    rintro rfl
    exact hcond.resolve_left (by simp)
  | next p => exact hinv.dataNext hstep
  | granted p => exact hinv.granted hcond hstep
  | replayed p ok =>
    refine hinv.replayed ?_ hstep
    rintro rfl
    exact hcond.resolve_left (by simp)

end Steps

/-- In every run in which no attempt to recover lost events is given up, no poller polls while it owes
a recovery. -/
theorem recovered_of_run {trace : List Event} {s : State} (hrun : machine.Run Attempts trace s) :
    Recovered s := by
  have hinv : Inv s := by
    refine hrun.invariant (I := Inv) ?_ ?_
    · rintro s rfl p
      trivial
    · intro s e t hinv hcond hstep
      exact hinv.step hcond hstep
  exact fun p hp => hinv.owed_of_polling hp

/-- The order poller recovers in two tries; one replay serves the two data pollers. -/
theorem gaps_recovered : ∃ s, machine.Run Attempts
    [.start .order, .polled .order [.gap], .answered .order false, .answered .order true,
      .start .ticker, .start .history, .polled .ticker [.gap], .polled .history [.gap],
      .next .ticker, .next .history, .granted .ticker, .replayed .ticker true, .granted .history,
      .next .history] s ∧ s.phase .history = .polling ∧ Recovered s := by
  have hexec : ∃ s, machine.exec Attempts {} [.start .order, .polled .order [.gap],
      .answered .order false, .answered .order true, .start .ticker, .start .history,
      .polled .ticker [.gap], .polled .history [.gap], .next .ticker, .next .history,
      .granted .ticker, .replayed .ticker true, .granted .history, .next .history] = some s ∧
      s.phase .history = .polling := ⟨_, rfl, rfl⟩
  obtain ⟨s, hexec, hphase⟩ := hexec
  have hrun : machine.Run Attempts _ s := Machine.run_of_exec rfl hexec
  exact ⟨s, hrun, hphase, recovered_of_run hrun⟩

/-- The PnL poller polls on after its one resync has failed, and so does the ticker poller; the
history poller takes a resync that began before its gap for its own. -/
theorem gap_given_up :
    (∃ s, machine.Run Machine.Free
      [.start .pnl, .polled .pnl [.gap], .answered .pnl false] s ∧
      ¬ Recovered s) ∧
    (∃ s, machine.Run Machine.Free [.start .ticker, .polled .ticker [.gap], .next .ticker,
      .granted .ticker, .replayed .ticker false, .next .ticker] s ∧
      ¬ Recovered s) ∧
    (∃ s, machine.Run Machine.Free [.start .ticker, .start .history, .polled .ticker [.gap],
      .next .ticker, .granted .ticker, .polled .history [.gap], .next .history,
      .replayed .ticker true, .granted .history, .next .history] s ∧
      ¬ Recovered s) := by
  refine ⟨⟨_, Machine.run_of_exec rfl rfl, ?_⟩, ⟨_, Machine.run_of_exec rfl rfl, ?_⟩,
    ⟨_, Machine.run_of_exec rfl rfl, ?_⟩⟩
  · intro h
    cases h .pnl rfl
  · intro h
    cases h .ticker rfl
  · intro h
    cases h .history rfl

end RithmicNt.Adapter.Polling
