import RithmicNt.Adapter.PollRuns

/-! `PlantPoller` as the loop that `run` is: one outcome of `poll_iteration` after another, with the
backoff and the streak of transient errors threaded through.  The order poller latches when the streak
reaches `max_transient`. -/

namespace RithmicNt.Adapter.PollStreak

open RithmicNt.Lib RithmicNt.Adapter.Polling

/-- `batched`: `batch_fn` is given; `onGap`: `on_gap` is. -/
structure PlantPoller where
  name : Poller
  maxTransient : Int
  batched : Bool
  onGap : Bool
  deriving DecidableEq, Repr

/-- What one iteration meets: the batch of the poll or its error, and whether `on_resync` succeeds where
the iteration calls it. -/
inductive Polled
  | batch (events : List Item) (resynced : Bool)
  | failed (e : PollFailure) (resynced : Bool)
  deriving DecidableEq, Repr

/-- Why `run` returns. -/
inductive Stop
  | pollStreamFailure
  | handlerFailure
  | streamClosed
  deriving DecidableEq, Repr

/-- `poll_session_events` raises `PollTransientError`. -/
def isTransient (e : PollFailure) : Bool := !e.isChannel && !e.isTerminal && !e.isReconnectable

def Polled.isTransient : Polled → Bool
  | .batch .. => false
  | .failed e _ => PollStreak.isTransient e

/-- The poll returned, with events or without. -/
def Polled.isSuccess : Polled → Bool
  | .batch .. => true
  | .failed .. => false

namespace PlantPoller

variable (p : PlantPoller)

/-- `_resync`: the backoff and the streak after it. -/
def resync (backoff streak : Nat) (resynced : Bool) : Nat × Nat :=
  if resynced then (minBackoff, if p.name = .order then 0 else streak)
  else (nextBackoff backoff, streak)

/-- `poll_iteration`: the next backoff and streak, or why the poller stops.  `_recover_gap` returns only
once `on_gap` has succeeded. -/
def pollIteration (backoff streak : Nat) : Polled → Except Stop (Nat × Nat)
  | .failed e resynced =>
    if isTransient e then
      if p.name = .order then
        if (streak + 1 : Nat) ≥ p.maxTransient then .error .pollStreamFailure
        else .ok (backoff, streak + 1)
      else .ok (backoff, streak)
    else if e.isTerminal then .error .streamClosed
    else if !e.isChannel then .ok (nextBackoff backoff, streak)
    else .ok (p.resync backoff streak resynced)
  | .batch events resynced =>
    if events = [] ∧ p.batched = false then .ok (backoff, streak)
    else match handleBatch p.name events with
      | none => .error .handlerFailure
      | some 0 => .ok (backoff, streak)
      | some (_ + 1) =>
        if p.onGap then .ok (backoff, streak) else .ok (p.resync backoff streak resynced)

end PlantPoller

/-- A poller and the outcomes it has met. -/
structure State where
  backoff : Nat := minBackoff
  streak : Nat := 0
  stopped : Option Stop := none
  met : List Polled := []
  deriving DecidableEq, Repr

def State.step (p : PlantPoller) (s : State) (polled : Polled) : Option State :=
  if s.stopped = none then
    some (match p.pollIteration s.backoff s.streak polled with
      | .ok (backoff, streak) =>
        { s with backoff := backoff, streak := streak, met := s.met ++ [polled] }
      | .error why => { s with stopped := some why, met := s.met ++ [polled] })
  else none

/-- `run`. -/
def machine (p : PlantPoller) : Machine State Polled where
  Start s := s = {}
  step := State.step p

/-- The outcomes end with `n` transient errors, or more, and no poll returned since the first of
them. -/
def EndsFailing (n : Int) (met : List Polled) : Prop :=
  ∃ before failing, met = before ++ failing ∧ n ≤ failing.countP Polled.isTransient ∧
    ∀ polled ∈ failing, polled.isSuccess = false

/-- Between any two transient errors a poll has returned. -/
def Isolated (met : List Polled) : Prop :=
  ∀ before between after, met = before ++ between ++ after →
    (∀ polled ∈ between, polled.isSuccess = false) → between.countP Polled.isTransient ≤ 1

/-- The latch for poll failure is for persistent failure only. -/
structure Persistent (p : PlantPoller) (s : State) : Prop where
  latched : s.stopped = some .pollStreamFailure → EndsFailing p.maxTransient s.met
  isolated : 2 ≤ p.maxTransient → Isolated s.met → s.stopped ≠ some .pollStreamFailure

/-- The batch renews the streak all the same: a handler raises and stops the poller, or the lost events
are followed by a resync that succeeds. -/
def Polled.renews (p : PlantPoller) : Polled → Bool
  | .failed .. => false
  | .batch events resynced =>
    match handleBatch p.name events with
    | none => true
    | some 0 => false
    | some (_ + 1) => !p.onGap && resynced

/-- No poll returns while the streak is not zero, unless its batch renews it. -/
def Steady (p : PlantPoller) (s : State) (polled : Polled) : Prop :=
  s.streak = 0 ∨ polled.isSuccess = false ∨ polled.renews p = true

instance (p : PlantPoller) (s : State) : DecidablePred (Steady p s) := fun polled =>
  inferInstanceAs (Decidable (s.streak = 0 ∨ polled.isSuccess = false ∨ polled.renews p = true))

/-! ### What an iteration does to the streak -/

/-- The streak after an iteration, and why the poller latched. -/
inductive Iterated (p : PlantPoller) (streak : Nat) (polled : Polled) :
    Except Stop (Nat × Nat) → Prop
  | latched : polled.isTransient = true → p.maxTransient ≤ (streak + 1 : Nat) →
      Iterated p streak polled (.error .pollStreamFailure)
  | stopped {why : Stop} : why ≠ .pollStreamFailure → Iterated p streak polled (.error why)
  | counted {backoff : Nat} : polled.isTransient = true →
      Iterated p streak polled (.ok (backoff, streak + 1))
  | kept {backoff : Nat} : polled.isSuccess = false ∨ polled.renews p = false →
      Iterated p streak polled (.ok (backoff, streak))
  | reset {backoff : Nat} : Iterated p streak polled (.ok (backoff, 0))

section

variable {p : PlantPoller} {backoff streak : Nat} {polled : Polled}

theorem iterated_resync {resynced : Bool}
    (h : polled.isSuccess = false ∨ (resynced = false → polled.renews p = false))
    (hname : p.name = .order) :
    Iterated p streak polled (.ok (p.resync backoff streak resynced)) := by
  unfold PlantPoller.resync
  cases resynced with
  | true =>
    rw [if_pos rfl, if_pos hname]
    exact .reset
  | false =>
    rw [if_neg (by simp)]
    exact .kept (h.imp_right fun hrenews => hrenews rfl)

theorem pollIteration_iterated (hname : p.name = .order) :
    Iterated p streak polled (p.pollIteration backoff streak polled) := by
  cases polled with
  | failed e resynced =>
    rw [PlantPoller.pollIteration]
    split
    · next htransient =>
      split
      · next hmax => exact .latched htransient hmax
      · exact .counted htransient
    · split
      · exact .stopped (by simp)
      · split
        · exact .kept (.inl rfl)
        · exact iterated_resync (.inl rfl) hname
  | batch events resynced =>
    rw [PlantPoller.pollIteration]
    split
    · next hempty =>
      refine .kept (.inr ?_)
      simp [Polled.renews, hempty.1, handleBatch]
    · cases hbatch : handleBatch p.name events with
      | none => exact .stopped (by simp)
      | some lost =>
        cases lost with
        | zero => exact .kept (.inr (by simp [Polled.renews, hbatch]))
        | succ lost =>
          dsimp only
          split
          · next hgap => exact .kept (.inr (by simp [Polled.renews, hbatch, hgap]))
          · exact iterated_resync (.inr fun hfailed => by simp [Polled.renews, hbatch, hfailed]) hname

end

/-! ### Runs -/

/-- The streak counts transient errors since which no poll has returned. -/
structure Inv (p : PlantPoller) (s : State) : Prop where
  streak : s.stopped = none → EndsFailing s.streak s.met
  latched : s.stopped = some .pollStreamFailure → EndsFailing p.maxTransient s.met

theorem endsFailing_zero (met : List Polled) : EndsFailing 0 met :=
  ⟨met, [], by simp⟩

theorem EndsFailing.mono {n m : Int} {met : List Polled} (h : EndsFailing n met) (hle : m ≤ n) :
    EndsFailing m met := by
  obtain ⟨before, failing, hmet, hcount, hfailing⟩ := h
  exact ⟨before, failing, hmet, by omega, hfailing⟩

/-- One more failure, transient or not. -/
theorem EndsFailing.snoc {n : Int} {met : List Polled} {polled : Polled} (h : EndsFailing n met)
    (hfailed : polled.isSuccess = false) :
    EndsFailing (n + if polled.isTransient then 1 else 0) (met ++ [polled]) := by
  obtain ⟨before, failing, rfl, hcount, hfailing⟩ := h
  refine ⟨before, failing ++ [polled], by simp, ?_, ?_⟩
  · rw [List.countP_append, List.countP_singleton]
    split <;> push_cast <;> omega
  · intro x hx
    rcases List.mem_append.mp hx with hx | hx
    · exact hfailing x hx
    · rw [List.mem_singleton.mp hx]
      exact hfailed

theorem isSuccess_of_isTransient {polled : Polled} (h : polled.isTransient = true) :
    polled.isSuccess = false := by
  cases polled with
  | batch => cases h
  | failed => rfl

theorem Inv.step {p : PlantPoller} {s t : State} {polled : Polled} (hname : p.name = .order)
    (hinv : Inv p s) (hsteady : Steady p s polled) (hstep : s.step p polled = some t) : Inv p t := by
  unfold State.step at hstep
  split at hstep
  · next hrunning =>
    have hstreak := hinv.streak hrunning
    have hcounted : polled.isTransient = true →
        EndsFailing (s.streak + 1 : Nat) (s.met ++ [polled]) := by
      intro htransient
      have := hstreak.snoc (isSuccess_of_isTransient htransient)
      rw [if_pos htransient] at this
      exact this
    have hiterated := @pollIteration_iterated p s.backoff s.streak polled hname
    obtain rfl := Option.some.inj hstep
    generalize p.pollIteration s.backoff s.streak polled = outcome at hiterated ⊢
    cases hiterated with
    | latched htransient hmax =>
      exact ⟨fun h => (by cases h), fun _ => (hcounted htransient).mono hmax⟩
    | stopped hwhy =>
      exact ⟨fun h => (by cases h), fun h => absurd (Option.some.inj h) hwhy⟩
    | counted htransient =>
      exact ⟨fun _ => hcounted htransient, fun h => by rw [hrunning] at h; cases h⟩
    | kept hkept =>
      refine ⟨fun _ => ?_, fun h => by rw [hrunning] at h; cases h⟩
      show EndsFailing s.streak (s.met ++ [polled])
      cases hsuccess : polled.isSuccess with
      | false =>
        refine (hstreak.snoc hsuccess).mono ?_
        split <;> omega
      | true =>
        have hzero : s.streak = 0 := by
          rcases hsteady with hzero | hfailed | hrenews
          · exact hzero
          · simp [hsuccess] at hfailed
          · simp [hsuccess, hrenews] at hkept
        rw [hzero]
        exact endsFailing_zero _
    | reset =>
      exact ⟨fun _ => endsFailing_zero _, fun h => by rw [hrunning] at h; cases h⟩
  · cases hstep

theorem EndsFailing.not_isolated {n : Int} {met : List Polled} (h : EndsFailing n met)
    (hn : 2 ≤ n) : ¬ Isolated met := by
  obtain ⟨before, failing, rfl, hcount, hfailing⟩ := h
  intro hisolated
  have := hisolated before failing [] (by simp) hfailing
  omega

/-- In every run of the order poller in which no poll returns while the streak is not zero, the latch
for poll failure comes after `max_transient` transient errors with no successful poll between them. -/
theorem persistent_of_run {p : PlantPoller} {trace : List Polled} {s : State}
    (hname : p.name = .order) (hrun : (machine p).Run (Steady p) trace s) : Persistent p s := by
  have hinv : Inv p s := by
    refine hrun.invariant (I := Inv p) ?_ ?_
    · rintro s rfl
      exact ⟨fun _ => endsFailing_zero _, fun h => by cases h⟩
    · intro s polled t hinv hsteady hstep
      exact hinv.step hname hsteady hstep
  exact ⟨hinv.latched, fun hmax hisolated hlatched =>
    (hinv.latched hlatched).not_isolated hmax hisolated⟩

/-- The order poller of the execution client. -/
def orderPoller (maxTransient : Int) : PlantPoller where
  name := .order
  maxTransient := maxTransient
  batched := true
  onGap := true

/-- The steps of the order poller, cut at its awaits, that make up one iteration. -/
def cuts : Polled → List Polling.Event
  | .failed e resynced =>
    .pollFailed .order e :: if e.isChannel && !e.isTerminal then [.answered .order resynced] else []
  | .batch events _ =>
    .polled .order events :: match handleBatch .order events with
      | none | some 0 => []
      | some (_ + 1) => [.answered .order true]

/-- What an iteration returns is where the steps of the cut poller lead. -/
def Follows (t : Polling.State) : Except Stop (Nat × Nat) → Prop
  | .ok (backoff, streak) =>
    t.phase .order = .polling ∧ t.backoff .order = backoff ∧ t.transientStreak = streak
  | .error _ => t.phase .order = .stopped

theorem exec_one {s t : Polling.State} {event : Polling.Event} (h : s.step event = some t) :
    Polling.machine.exec Machine.Free s [event] = some t := by
  simp [Machine.exec, Polling.machine, h]

theorem exec_two {s t u : Polling.State} {event next : Polling.Event} (h : s.step event = some t)
    (h' : t.step next = some u) : Polling.machine.exec Machine.Free s [event, next] = some u := by
  simp [Machine.exec, Polling.machine, h, h']

/-- The end of `_resync`, after a channel error. -/
theorem answered_follows {s : Polling.State} (resynced : Bool) :
    ∃ t, (s.goto .order (.resyncing false)).step (.answered .order resynced) = some t ∧
      Follows t (.ok ((orderPoller maxTransient).resync (s.backoff .order) s.transientStreak
        resynced)) := by
  simp only [Polling.State.step, Polling.State.plantAnswered, goto_phase]
  cases resynced with
  | true =>
    refine ⟨_, rfl, goto_phase _, ?_, rfl⟩
    simp [Polling.State.goto, Polling.State.resetStreak, Polling.State.wait]
  | false =>
    refine ⟨_, rfl, goto_phase _, ?_, rfl⟩
    simp [Polling.State.goto, Polling.State.wait]

theorem cuts_follow_failed {s : Polling.State} (hpolling : s.phase .order = .polling)
    (e : PollFailure) (resynced : Bool) :
    ∃ t, Polling.machine.exec Machine.Free s (cuts (.failed e resynced)) = some t ∧
      Follows t ((orderPoller maxTransient).pollIteration (s.backoff .order) s.transientStreak
        (.failed e resynced)) := by
  have hstep : s.step (.pollFailed .order e) = some (s.plantFailed .order e) := by
    simp [Polling.State.step, hpolling, Polling.State.pollFailed, Poller.isData]
  have hname : (orderPoller maxTransient).name = .order := rfl
  rw [PlantPoller.pollIteration, cuts]
  unfold Polling.State.plantFailed at hstep
  by_cases htransient : isTransient e = true
  · have hnone : ¬ (e.isChannel && !e.isTerminal) = true := by
      simp only [isTransient, Bool.and_eq_true, Bool.not_eq_true'] at htransient
      simp [htransient.1.1]
    rw [if_neg hnone, if_pos htransient, if_pos hname]
    rw [if_pos (show (!e.isChannel && !e.isTerminal && !e.isReconnectable) = true from htransient),
      if_pos rfl] at hstep
    refine ⟨_, exec_one hstep, ?_⟩
    dsimp only
    have hlimit : ((s.transientStreak + 1 : Nat) : Int) ≥ (orderPoller maxTransient).maxTransient ↔
        s.transientStreak + 1 ≥ maxTransient := Int.ofNat_le
    by_cases hmax : s.transientStreak + 1 ≥ maxTransient
    · rw [if_pos hmax, if_pos (hlimit.mpr hmax)]
      exact goto_phase _
    · rw [if_neg hmax, if_neg (mt hlimit.mp hmax)]
      exact ⟨hpolling, rfl, rfl⟩
  · rw [if_neg htransient]
    rw [if_neg (show ¬ (!e.isChannel && !e.isTerminal && !e.isReconnectable) = true from htransient)]
      at hstep
    cases hterminal : e.isTerminal with
    | true =>
      rw [hterminal, if_pos rfl] at hstep
      rw [if_pos rfl, if_neg (by simp)]
      exact ⟨_, exec_one hstep, goto_phase _⟩
    | false =>
      rw [hterminal, if_neg Bool.false_ne_true] at hstep
      cases hchannel : e.isChannel with
      | true =>
        simp only [hchannel, Bool.not_true, Bool.not_false, Bool.and_self, Bool.false_eq_true,
          if_false, if_true] at hstep ⊢
        obtain ⟨t, hanswered, hfollows⟩ := @answered_follows s resynced
        exact ⟨t, exec_two hstep hanswered, hfollows⟩
      | false =>
        simp only [hchannel, Bool.not_false, Bool.false_and, Bool.false_eq_true, if_false,
          if_true] at hstep ⊢
        refine ⟨_, exec_one hstep, hpolling, ?_, rfl⟩
        simp [Polling.State.wait]

theorem cuts_follow_batch {s : Polling.State} (hpolling : s.phase .order = .polling)
    (events : List Item) (resynced : Bool) :
    ∃ t, Polling.machine.exec Machine.Free s (cuts (.batch events resynced)) = some t ∧
      Follows t ((orderPoller maxTransient).pollIteration (s.backoff .order) s.transientStreak
        (.batch events resynced)) := by
  have hstep : s.step (.polled .order events) = some (s.plantBatch .order events) := by
    simp [Polling.State.step, hpolling, Polling.State.polled, Poller.isData]
  have hname : (orderPoller maxTransient).name = .order := rfl
  rw [PlantPoller.pollIteration, cuts, if_neg (by simp [orderPoller]), hname]
  unfold Polling.State.plantBatch at hstep
  cases hbatch : handleBatch .order events with
  | none =>
    rw [hbatch] at hstep
    exact ⟨_, exec_one hstep, goto_phase _⟩
  | some lost =>
    cases lost with
    | zero =>
      rw [hbatch] at hstep
      exact ⟨_, exec_one hstep, goto_phase _, rfl, rfl⟩
    | succ lost =>
      rw [hbatch] at hstep
      dsimp only at hstep ⊢
      rw [if_pos rfl] at hstep
      rw [if_pos (show (orderPoller maxTransient).onGap = true from rfl)]
      have hanswered : ((s.owe .order true).goto .order (.recovering minBackoff)).step
          (.answered .order true) = some ((((s.owe .order true).goto .order
            (.recovering minBackoff)).settle .order).goto .order .polling) := by
        simp only [Polling.State.step, Polling.State.plantAnswered, goto_phase]
        rfl
      exact ⟨_, exec_two hstep hanswered, goto_phase _, rfl, rfl⟩

/-- The order poller of the client makes the steps of the poller that is cut at its awaits. -/
theorem cuts_follow {s : Polling.State} (hpolling : s.phase .order = .polling) (polled : Polled) :
    ∃ t, Polling.machine.exec Machine.Free s (cuts polled) = some t ∧
      Follows t ((orderPoller maxTransient).pollIteration (s.backoff .order) s.transientStreak
        polled) := by
  cases polled with
  | failed e resynced => exact cuts_follow_failed hpolling e resynced
  | batch events resynced => exact cuts_follow_batch hpolling events resynced

def flaky : Polled := .failed { kind := .other, text := "flaky network" } false

/-- A batch and a reconnectable error, then three transient errors in a row. -/
theorem persistent_three : ∃ s, (machine (orderPoller 3)).Run (Steady (orderPoller 3))
    [.batch [.event .ok] true, flaky, .failed { kind := .other, text := "not connected" } false,
      flaky, flaky] s ∧ s.stopped = some .pollStreamFailure ∧ Persistent (orderPoller 3) s := by
  have hexec : ∃ s, (machine (orderPoller 3)).exec (Steady (orderPoller 3)) {}
      [.batch [.event .ok] true, flaky, .failed { kind := .other, text := "not connected" } false,
        flaky, flaky] = some s ∧ s.stopped = some .pollStreamFailure := ⟨_, rfl, rfl⟩
  obtain ⟨s, hexec, hstopped⟩ := hexec
  have hrun : (machine (orderPoller 3)).Run (Steady (orderPoller 3)) _ s :=
    Machine.run_of_exec rfl hexec
  exact ⟨s, hrun, hstopped, persistent_of_run rfl hrun⟩

/-- Five transient errors with a successful poll before each of the others. -/
def fiveFlaky : List Polled :=
  [flaky, .batch [.event .ok] true, flaky, .batch [.event .ok] true, flaky,
    .batch [.event .ok] true, flaky, .batch [.event .ok] true, flaky]

/-- The order poller latches although it polls successfully between its transient errors. -/
theorem latched_isolated : ∃ s, (machine (orderPoller 5)).Run Machine.Free fiveFlaky s ∧
    s.stopped = some .pollStreamFailure ∧ ¬ Persistent (orderPoller 5) s := by
  refine ⟨⟨50, 4, some .pollStreamFailure, fiveFlaky⟩, Machine.run_of_exec rfl rfl, rfl,
    fun hpersistent => ?_⟩
  obtain ⟨before, failing, hmet, hcount, hfailing⟩ := hpersistent.latched rfl
  have hdrop : failing = fiveFlaky.drop before.length := by
    rw [show fiveFlaky = before ++ failing from hmet, List.drop_left]
  have hfive : (orderPoller 5).maxTransient = 5 := rfl
  by_cases hlength : before.length ≤ 7
  · have hbatch : Polled.batch [.event .ok] true ∈ failing := by
      rw [hdrop]
      exact List.mem_of_getElem? (i := 7 - before.length) (by
        rw [List.getElem?_drop, Nat.add_sub_cancel' hlength]
        rfl)
    cases hfailing _ hbatch
  · have hle : failing.countP Polled.isTransient ≤ failing.length := List.countP_le_length
    have hshort : failing.length ≤ 1 := by
      rw [hdrop, List.length_drop, show fiveFlaky.length = 9 from rfl]
      omega
    omega

end RithmicNt.Adapter.PollStreak
