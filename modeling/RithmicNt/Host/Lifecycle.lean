import RithmicNt.Host.Pump

/-! What the sessions see of the pump, and what becomes of a request for a login recovery. -/

namespace RithmicNt.Host.Pump

open RithmicNt.Lib State

def Mark.event? : Mark → Option SessionEvent
  | .sent e => some e
  | _ => none

/-- The events sent to the sessions, oldest first. -/
def sent (h : List Mark) : List SessionEvent := (h.filterMap Mark.event?).reverse

theorem sent_cons (m : Mark) (h : List Mark) : sent (m :: h) = sent h ++ m.event?.toList := by
  unfold sent
  cases m <;> simp [Mark.event?, List.filterMap_cons]

theorem sent_joins (l : List Join) (h : List Mark) : sent (l.map .join ++ h) = sent h := by
  have hnone : (l.map Mark.join).filterMap Mark.event? = [] := by
    rw [List.filterMap_eq_nil_iff]
    intro m hm
    obtain ⟨j, -, rfl⟩ := List.mem_map.mp hm
    rfl
  unfold sent
  rw [List.filterMap_append, hnone, List.nil_append]

/-- Interruptions, each resumed into the next generation: `Rounds g log g'` from `g` to `g'`. -/
inductive Rounds : Nat → List SessionEvent → Nat → Prop
  | nil {g : Nat} : Rounds g [] g
  | snoc {g g' : Nat} {log : List SessionEvent} {cause : String} : Rounds g log g' →
      Rounds g (log ++ [SessionEvent.interrupted g' cause, .resumed (g' + 1)]) (g' + 1)

/-- Rounds from generation `g`, and then nothing, an interruption, or an interruption and the
failure of its recovery, both in the generation the rounds ended in. -/
inductive Lifecycle (g : Nat) : List SessionEvent → Prop
  | up {g' : Nat} {log : List SessionEvent} : Rounds g log g' → Lifecycle g log
  | down {g' : Nat} {log : List SessionEvent} {cause : String} : Rounds g log g' →
      Lifecycle g (log ++ [SessionEvent.interrupted g' cause])
  | failed {g' attempts : Nat} {log : List SessionEvent} {cause last : String} :
      Rounds g log g' →
      Lifecycle g (log ++ [SessionEvent.interrupted g' cause, .recoveryFailed g' attempts last])

def isResumed : SessionEvent → Bool
  | .resumed _ => true
  | _ => false

theorem Rounds.generation {g g' : Nat} {log : List SessionEvent} (h : Rounds g log g') :
    g' = g + log.countP isResumed := by
  induction h with
  | nil => simp
  | snoc _ ih =>
    rw [List.countP_append, ih]
    simp [List.countP_cons, isResumed]
    omega

/-- The rounds that are over, and what is sent of the open one. -/
def Sent (s : State) : Phase → Prop
  | .waiting | .parked | .serving | .streaming | .quiescing .. | .interrupted .. =>
    Rounds 1 (sent s.history) s.generation
  | .resuming => ∃ log g cause, Rounds 1 log g ∧ s.generation = g + 1 ∧
      sent s.history = log ++ [SessionEvent.interrupted g cause]
  | .stopped => ∃ log cause last, Rounds 1 log s.generation ∧
      sent s.history =
        log ++ [SessionEvent.interrupted s.generation cause,
          .recoveryFailed s.generation recoveryAttempts last]
  | _ => ∃ log cause, Rounds 1 log s.generation ∧
      sent s.history = log ++ [SessionEvent.interrupted s.generation cause]

theorem Sent.of_same {s t : State} {p : Phase} (h : Sent s p) (hgen : t.generation = s.generation)
    (hsent : sent t.history = sent s.history) : Sent t p := by
  cases p <;> simp only [Sent, hgen, hsent] at h ⊢ <;> exact h

theorem act_sent {s t : State} {e : Act} (h : Sent s s.phase) (hstep : Step s e t) :
    Sent t t.phase := by
  cases hstep with
  | begin hp | park hp | unpark hp | serve hp | serveForced hp | issue hp | wakeForced hp
  | quiesce hp | rebuilt hp
  | notRebuilt hp | plan hp | escalate hp | mark hp | finishForced hp | retry hp | giveUp hp =>
    rw [hp] at h
    exact h
  | wake hp => exact h
  | notifyInterrupted hp =>
    rw [hp] at h
    exact ⟨_, _, h, sent_cons _ _⟩
  | rebuild hp =>
    rw [hp] at h
    obtain ⟨log, cause, hr, hs⟩ := h
    exact ⟨log, cause, hr, by rw [sent_cons, hs]; simp [Mark.event?]⟩
  | pass hp hnext =>
    rw [hp] at h
    obtain ⟨log, cause, hr, hs⟩ := h
    rcases hnext with rfl | ⟨-, rfl⟩ <;> exact ⟨log, cause, hr, by rw [sent_joins, hs]⟩
  | finish hp =>
    rw [hp] at h
    obtain ⟨log, cause, hr, hs⟩ := h
    exact ⟨log, s.generation, cause, hr, rfl, hs⟩
  | notifyResumed hp =>
    rw [hp] at h
    obtain ⟨log, g, cause, hr, hg, hs⟩ := h
    show Rounds 1 (sent (.sent (.resumed s.generation) :: s.history)) s.generation
    rw [sent_cons, hs, hg]
    have := @Rounds.snoc _ _ _ cause hr
    simpa [Mark.event?] using this
  | @fail last hp =>
    rw [hp] at h
    obtain ⟨log, cause, hr, hs⟩ := h
    refine ⟨log, cause, last, hr, ?_⟩
    rw [sent_cons, hs]
    simp [Mark.event?]

theorem step_sent {s t : State} {e : Event} (h : Sent s s.phase) (hstep : s.step e = some t) :
    Sent t t.phase := by
  cases e with
  | pump e =>
    obtain ⟨u, hu, rfl⟩ := Option.map_eq_some_iff.mp hstep
    exact (act_sent h (step_of_act hu)).of_same rfl (by simp [sent_cons, Mark.event?])
  | request =>
    cases hstep
    exact h.of_same rfl (by simp [State.requestReconnect, sent_cons, Mark.event?])
  | connected | leave =>
    cases hstep
    exact h.of_same rfl rfl
  | sessions store =>
    simp only [State.step] at hstep
    split at hstep
    · cases hstep
    · cases hstep
      exact h.of_same rfl rfl

/-! Requests. -/

/-- What answers a request: a rebuild of the login that starts, or the failure of the recovery. -/
def Mark.Answers : Mark → Prop
  | .rebuild scope => scope = .login
  | .sent (.recoveryFailed ..) => True
  | _ => False

def Mark.isFailure : Mark → Bool
  | .sent (.recoveryFailed ..) => true
  | _ => false

/-- What the pump does of itself: a plant's failure comes from outside. -/
def Act.isOwn : Act → Bool
  | .issue .. => false
  | _ => true

/-- How many steps the pump can take before it starts a login rebuild or gives up, once it is asked
to. -/
def rank : Phase → Nat
  | .parked => 40
  | .waiting | .resuming => 39
  | .serving => 38
  | .streaming => 37
  | .quiescing .. => 36
  | .interrupted .. => 35
  | .rebuilding n .. => 12 * (recoveryAttempts - n) + 10
  | .rebuildRunning n .. => 12 * (recoveryAttempts - n) + 9
  | .planning n .. => 12 * (recoveryAttempts - n) + 8
  | .restoring n _ _ p _ => 12 * (recoveryAttempts - n) + 5 + (restoreAttempts - p)
  | .restored n .. => 12 * (recoveryAttempts - n) + 4
  | .finishing n .. => 12 * (recoveryAttempts - n) + 3
  | .retrying n .. => 12 * (recoveryAttempts - n) + 2
  | .failing _ => 1
  | .stopped => 0

/-- The pump has taken a request up: the next rebuild is of the login. -/
def TakenUp : Phase → Prop
  | .quiescing issue _ | .interrupted issue _ => issue = .login
  | .rebuilding _ scope _ | .retrying _ scope _ => scope = .login
  | .failing _ => True
  | _ => False

/-- The loops count from one. -/
def Counted : Phase → Prop
  | .rebuilding n .. | .rebuildRunning n .. | .planning n .. | .restored n .. | .finishing n ..
  | .retrying n .. => 1 ≤ n
  | .restoring n _ _ p _ => 1 ≤ n ∧ 1 ≤ p ∧ p ≤ restoreAttempts
  | _ => True

theorem rank_le {p : Phase} (h : Counted p) : rank p ≤ 40 := by
  cases p <;> simp only [rank, Counted, recoveryAttempts, restoreAttempts] at h ⊢ <;> omega

theorem act_counted {s t : State} {e : Act} (h : Counted s.phase) (hstep : Step s e t) :
    Counted t.phase := by
  cases hstep with
  | wake => exact h
  | begin hp | park hp | unpark hp | serve hp | serveForced hp | issue hp | wakeForced hp
  | quiesce hp | giveUp hp | finish hp | notifyResumed hp | fail hp => trivial
  | notifyInterrupted hp => exact le_rfl
  | rebuild hp | rebuilt hp | notRebuilt hp | escalate hp | mark hp | finishForced hp =>
    rw [hp] at h
    exact h
  | plan hp =>
    rw [hp] at h
    exact ⟨h, by decide⟩
  | pass hp hnext =>
    rw [hp] at h
    rcases hnext with rfl | ⟨hlt, rfl⟩
    · exact h.1
    · exact ⟨h.1, by omega, hlt⟩
  | retry hp hn =>
    rw [hp] at h
    exact Nat.le_add_left _ _

/-- What a step of the pump adds to the history is no request and no step. -/
theorem act_history {s t : State} {e : Act} (hstep : Step s e t) :
    ∃ new, t.history = new ++ s.history ∧ ∀ m ∈ new, m ≠ .request ∧ m ≠ .pumped := by
  cases hstep with
  | begin | park | unpark | serve | serveForced | issue | wakeForced | wake | quiesce | rebuilt
  | notRebuilt | plan | escalate | mark | finishForced | finish | retry | giveUp => exact ⟨[], rfl, by simp⟩
  | notifyInterrupted | rebuild | notifyResumed | fail => exact ⟨[_], rfl, by simp⟩
  | pass =>
    refine ⟨_, rfl, ?_⟩
    intro m hm
    obtain ⟨j, -, rfl⟩ := List.mem_map.mp hm
    simp

/-- A step of the pump that was asked to recover the login answers, or brings the answer nearer. -/
theorem act_asked {s t : State} {e : Act}
    (hasked : s.forceReconnect = true ∨ TakenUp s.phase) (hstep : Step s e t) :
    (∃ m, t.history = m :: s.history ∧ m.Answers) ∨
      ((t.forceReconnect = true ∨ TakenUp t.phase) ∧ rank t.phase < rank s.phase) := by
  have hforced : ∀ {p : Phase}, s.phase = p → ¬ TakenUp p → s.forceReconnect = true := by
    intro p hp hnot
    rcases hasked with hf | htaken
    · exact hf
    · rw [hp] at htaken
      exact absurd htaken hnot
  cases hstep with
  | begin hp | unpark hp | notifyResumed hp | issue hp | rebuilt hp | plan hp | mark hp
  | notRebuilt hp | escalate hp =>
    right
    refine ⟨.inl (hforced hp (fun h => h)), ?_⟩
    rw [hp]
    simp only [rank, restoreAttempts]
    omega
  | pass hp hnext =>
    right
    refine ⟨.inl (hforced hp (fun h => h)), ?_⟩
    rw [hp]
    rcases hnext with rfl | ⟨hlt, rfl⟩ <;> simp only [rank] <;> omega
  | park hp hf =>
    rw [hforced hp (fun h => h), Bool.or_true] at hf
    cases hf
  | serve hp hf | wake hp _ hf | finish hp hf =>
    have := hforced hp (fun h => h)
    rw [hf] at this
    cases this
  | serveForced hp | wakeForced hp | finishForced hp =>
    right
    refine ⟨.inr rfl, ?_⟩
    rw [hp]
    simp only [rank]
    omega
  | @quiesce another r cause hp =>
    right
    constructor
    · rcases hasked with hf | htaken
      · exact .inl hf
      · rw [hp] at htaken
        have htaken : r = .login := htaken
        right
        show (if another = true then Recovery.login else r) = Recovery.login
        rw [htaken, ite_self]
    · rw [hp]
      exact Nat.lt_succ_self _
  | notifyInterrupted hp =>
    right
    constructor
    · rcases hasked with hf | htaken
      · exact .inl hf
      · rw [hp] at htaken
        exact .inr htaken
    · rw [hp]
      exact Nat.lt_succ_self _
  | @rebuild n scope cause hp =>
    by_cases hscope : scope = .login
    · exact .inl ⟨_, rfl, hscope⟩
    · right
      refine ⟨.inl (hforced hp hscope), ?_⟩
      rw [hp]
      exact Nat.lt_succ_self _
  | retry hp hn =>
    right
    constructor
    · rcases hasked with hf | htaken
      · exact .inl hf
      · rw [hp] at htaken
        exact .inr htaken
    · rw [hp]
      simp only [rank, recoveryAttempts] at hn ⊢
      omega
  | giveUp hp =>
    right
    refine ⟨.inr trivial, ?_⟩
    rw [hp]
    simp only [rank]
    omega
  | fail hp => exact .inl ⟨_, rfl, trivial⟩

def isPumped : Mark → Bool
  | .pumped => true
  | _ => false

/-- A request that is not answered is still asked for, and the pump has not taken the steps that
would answer it. -/
structure Pending (force : Bool) (p : Phase) (post : List Mark) : Prop where
  asked : force = true ∨ TakenUp p
  waited : post.countP isPumped + rank p ≤ 40

structure RequestInv (s : State) : Prop where
  counted : Counted s.phase
  wakeful : s.phase = .streaming ∨ s.phase = .parked → s.forceReconnect = true → s.wake = true
  pending : ∀ post pre, s.history = post ++ Mark.request :: pre → (∀ m ∈ post, ¬ m.Answers) →
    Pending s.forceReconnect s.phase post

theorem split_request {new h post pre : List Mark} (hnew : ∀ m ∈ new, m ≠ .request)
    (heq : new ++ h = post ++ Mark.request :: pre) :
    ∃ older, post = new ++ older ∧ h = older ++ Mark.request :: pre := by
  induction new generalizing post with
  | nil => exact ⟨post, rfl, heq⟩
  | cons m new ih =>
    cases post with
    | nil =>
      have hm : m = .request := (List.cons.inj heq).1
      exact absurd hm (hnew m (by simp))
    | cons m' post =>
      obtain ⟨rfl, hrest⟩ := List.cons.inj heq
      obtain ⟨older, rfl, hh⟩ := ih (fun x hx => hnew x (by simp [hx])) hrest
      exact ⟨older, rfl, hh⟩

theorem act_requests {s t : State} {e : Act} (h : RequestInv s) (hstep : Step s e t) :
    RequestInv { t with history := .pumped :: t.history } := by
  have hcounted : Counted t.phase := act_counted h.counted hstep
  refine ⟨hcounted, ?_, ?_⟩
  · intro (hphase : t.phase = .streaming ∨ t.phase = .parked) (hforce : t.forceReconnect = true)
    cases hstep with
    | park hp hf =>
      rw [show s.forceReconnect = true from hforce, Bool.or_true] at hf
      cases hf
    | serve hp hf =>
      rw [show s.forceReconnect = true from hforce] at hf
      cases hf
    | wake hp hw hf =>
      rw [show s.forceReconnect = true from hforce] at hf
      cases hf
    | pass hp hnext => rcases hnext with rfl | ⟨-, rfl⟩ <;> simp at hphase
    | begin | unpark | serveForced | issue | wakeForced | quiesce | rebuilt | notRebuilt | plan
    | escalate | mark | finishForced | finish | retry | giveUp | notifyInterrupted | rebuild
    | notifyResumed | fail => simp at hphase
  · intro post pre hsplit hnone
    obtain ⟨new, hnew, hplain⟩ := act_history hstep
    have hmarks : ∀ m ∈ .pumped :: new, m ≠ .request := by
      intro m hm
      rcases List.mem_cons.mp hm with rfl | hm
      · simp
      · exact (hplain m hm).1
    have hhistory : .pumped :: new ++ s.history = post ++ Mark.request :: pre := by
      rw [← hsplit, hnew]
      rfl
    obtain ⟨older, rfl, hold⟩ := split_request hmarks hhistory
    have hwas := h.pending older pre hold fun m hm => hnone m (by simp [hm])
    have hcount : (.pumped :: new ++ older).countP isPumped = older.countP isPumped + 1 := by
      have hzero : new.countP isPumped = 0 := by
        rw [List.countP_eq_zero]
        intro m hm
        have := (hplain m hm).2
        cases m <;> simp_all [isPumped]
      rw [List.countP_append, List.countP_cons, hzero]
      simp [isPumped, Nat.add_comm]
    rcases act_asked hwas.asked hstep with ⟨m, hm, hanswer⟩ | ⟨hasked, hlt⟩
    · exfalso
      have : new = [m] := by
        have : new ++ s.history = [m] ++ s.history := by rw [← hnew, hm]; rfl
        exact List.append_cancel_right this
      exact hnone m (by simp [this]) hanswer
    · refine ⟨hasked, ?_⟩
      have := hwas.waited
      rw [hcount]
      show older.countP isPumped + 1 + rank t.phase ≤ 40
      omega

theorem step_requests {s t : State} {e : Event} (h : RequestInv s) (hstep : s.step e = some t) :
    RequestInv t := by
  cases e with
  | pump e =>
    obtain ⟨u, hu, rfl⟩ := Option.map_eq_some_iff.mp hstep
    exact act_requests h (step_of_act hu)
  | request =>
    cases hstep
    refine ⟨h.counted, fun _ _ => rfl, ?_⟩
    intro post pre hsplit hnone
    refine ⟨.inl rfl, ?_⟩
    cases post with
    | nil => exact (Nat.zero_add _).trans_le (rank_le h.counted)
    | cons m post =>
      obtain ⟨rfl, hrest⟩ := List.cons.inj hsplit
      have := (h.pending post pre hrest fun m hm => hnone m (by simp [hm])).waited
      show (.request :: post).countP isPumped + rank s.phase ≤ 40
      simpa [isPumped] using this
  | connected =>
    cases hstep
    exact ⟨h.counted, fun _ _ => rfl, h.pending⟩
  | leave i =>
    cases hstep
    exact ⟨h.counted, h.wakeful, h.pending⟩
  | sessions store =>
    simp only [State.step] at hstep
    split at hstep
    · cases hstep
    · cases hstep
      exact ⟨h.counted, h.wakeful, h.pending⟩

/-- A pump that was asked to recover the login, and has not stopped, can take a step of its own. -/
theorem can_step {s : State} (h : RequestInv s)
    (hasked : s.forceReconnect = true ∨ TakenUp s.phase) (hrunning : s.phase ≠ .stopped) :
    ∃ a t, a.isOwn = true ∧ s.step (.pump a) = some t := by
  have hforced : ∀ {p : Phase}, s.phase = p → ¬ TakenUp p → s.forceReconnect = true := by
    intro p hp hnot
    apply hasked.resolve_right
    rw [hp]
    exact hnot
  have hact : (∃ a u, a.isOwn = true ∧ s.act a = some u) →
      ∃ a t, a.isOwn = true ∧ s.step (.pump a) = some t := by
    rintro ⟨a, u, hown, hu⟩
    exact ⟨a, _, hown, by rw [State.step, hu]; rfl⟩
  apply hact
  cases hp : s.phase with
  | waiting =>
    have hf := hforced hp (fun h => h)
    exact ⟨.begin, by simp [State.act, hp, hf, Act.isOwn]⟩
  | parked =>
    have hw := h.wakeful (.inr hp) (hforced hp (fun h => h))
    exact ⟨.wake, by simp [State.act, hp, hw, Act.isOwn]⟩
  | streaming =>
    have hf := hforced hp (fun h => h)
    have hw := h.wakeful (.inl hp) hf
    refine ⟨.wake, ?_⟩
    simp [State.act, hp, hf, hw, Act.isOwn]
  | serving =>
    refine ⟨.serve, ?_⟩
    simp only [State.act, hp]
    split <;> simp [Act.isOwn]
  | rebuildRunning =>
    refine ⟨.rebuilt {} "", ?_⟩
    simp only [State.act, hp]
    split <;> simp [Act.isOwn]
  | restored =>
    refine ⟨.mark, ?_⟩
    simp only [State.act, hp]
    split <;> simp [Act.isOwn]
  | finishing =>
    refine ⟨.finish, ?_⟩
    simp only [State.act, hp]
    split <;> simp [Act.isOwn]
  | retrying =>
    refine ⟨.retry, ?_⟩
    simp only [State.act, hp]
    split <;> simp [Act.isOwn]
  | quiescing => exact ⟨.quiesce false, by simp [State.act, hp, Act.isOwn]⟩
  | interrupted => exact ⟨.notifyInterrupted, by simp [State.act, hp, Act.isOwn]⟩
  | rebuilding => exact ⟨.rebuild, by simp [State.act, hp, Act.isOwn]⟩
  | planning => exact ⟨.plan, by simp [State.act, hp, Act.isOwn]⟩
  | restoring => exact ⟨.pass {}, by simp [State.act, hp, Act.isOwn]⟩
  | resuming => exact ⟨.notifyResumed, by simp [State.act, hp, Act.isOwn]⟩
  | failing => exact ⟨.fail, by simp [State.act, hp, Act.isOwn]⟩
  | stopped => exact absurd hp hrunning

/-! After the failure of a recovery. -/

theorem act_stopped {s : State} (hp : s.phase = .stopped) (a : Act) : s.step (.pump a) = none := by
  rw [State.step, Option.map_eq_none_iff]
  unfold State.act
  rw [hp]
  cases a <;> rfl

/-- The failure of a recovery stops the pump, and then the history grows by requests only. -/
def Ended (s : State) : Prop :=
  ∀ post pre m, s.history = post ++ m :: pre → m.isFailure = true →
    s.phase = .stopped ∧ ∀ m ∈ post, m = Mark.request ∨ m = Mark.pumped

theorem Ended.not_failed {s : State} (h : Ended s) (hp : s.phase ≠ .stopped) :
    ∀ m ∈ s.history, m.isFailure = false := by
  intro m hm
  obtain ⟨post, pre, hsplit⟩ := List.append_of_mem hm
  by_contra hfail
  exact hp (h post pre m hsplit (by simpa using hfail)).1

theorem ended_of_new {s t : State} (new : List Mark) (h : Ended s) (hp : s.phase ≠ .stopped)
    (hhistory : t.history = new ++ s.history) (hnew : ∀ m ∈ new, m.isFailure = false) :
    Ended t := by
  intro post pre m hsplit hfail
  have hmem : m ∈ new ++ s.history := by
    rw [← hhistory, hsplit]
    simp
  rcases List.mem_append.mp hmem with hm | hm
  · rw [hnew m hm] at hfail
    cases hfail
  · rw [h.not_failed hp m hm] at hfail
    cases hfail

theorem act_ended {s t : State} {e : Act} (h : Ended s) (hstep : Step s e t) :
    Ended { t with history := .pumped :: t.history } := by
  have hrunning : s.phase ≠ .stopped := by
    cases hstep <;> simp_all
  cases hstep with
  | begin | park | unpark | serve | serveForced | issue | wakeForced | wake | quiesce | rebuilt
  | notRebuilt | plan | escalate | mark | finishForced | finish | retry | giveUp =>
    exact ended_of_new [.pumped] h hrunning rfl (by simp [Mark.isFailure])
  | notifyInterrupted | rebuild | notifyResumed =>
    exact ended_of_new [.pumped, _] h hrunning rfl (by simp [Mark.isFailure])
  | @pass n p scope cause pending a next hp hnext =>
    refine ended_of_new (.pumped :: (a.joins (heldPlan s.store pending)).reverse.map .join) h
      hrunning rfl ?_
    intro m hm
    rcases List.mem_cons.mp hm with rfl | hm
    · rfl
    · obtain ⟨j, -, rfl⟩ := List.mem_map.mp hm
      rfl
  | @fail cause hp =>
    intro post pre m hsplit hfail
    refine ⟨rfl, ?_⟩
    have hsplit : .pumped :: .sent (.recoveryFailed s.generation recoveryAttempts cause) ::
        s.history = post ++ m :: pre := hsplit
    match post with
    | [] =>
      cases hsplit
      cases hfail
    | [_] =>
      cases hsplit
      simp
    | _ :: _ :: post =>
      have hm : m ∈ s.history := by
        rw [(List.cons.inj (List.cons.inj hsplit).2).2]
        simp
      rw [h.not_failed hrunning m hm] at hfail
      cases hfail

theorem step_ended {s t : State} {e : Event} (h : Ended s) (hstep : s.step e = some t) :
    Ended t := by
  cases e with
  | pump e =>
    obtain ⟨u, hu, rfl⟩ := Option.map_eq_some_iff.mp hstep
    exact act_ended h (step_of_act hu)
  | request =>
    cases hstep
    intro post pre m hsplit hfail
    cases post with
    | nil =>
      cases hsplit
      cases hfail
    | cons m' post =>
      obtain ⟨rfl, hrest⟩ := List.cons.inj hsplit
      obtain ⟨hp, hpost⟩ := h post pre m hrest hfail
      refine ⟨hp, ?_⟩
      intro m' hm'
      rcases List.mem_cons.mp hm' with rfl | hm'
      · exact .inl rfl
      · exact hpost m' hm'
  | connected | leave =>
    cases hstep
    exact h
  | sessions store =>
    simp only [State.step] at hstep
    split at hstep
    · cases hstep
    · cases hstep
      exact h

/-- The failure answers the requests before it; the pump takes none up after it. -/
theorem Ended.of_request {s : State} (h : Ended s) {post pre : List Mark}
    (hsplit : s.history = post ++ Mark.request :: pre) (hfail : ∃ m ∈ pre, m.isFailure = true) :
    (∀ m ∈ post, ¬ m.Answers) ∧ ∀ a, s.step (.pump a) = none := by
  obtain ⟨m, hm, hfail⟩ := hfail
  obtain ⟨newer, older, rfl⟩ := List.append_of_mem hm
  obtain ⟨hp, hplain⟩ := h (post ++ Mark.request :: newer) older m (by rw [hsplit]; simp) hfail
  refine ⟨?_, act_stopped hp⟩
  intro m' hm'
  rcases hplain m' (by simp [hm']) with rfl | rfl <;> exact id

theorem Mark.answers_of_isFailure {m : Mark} (h : m.isFailure = true) : m.Answers := by
  cases m with
  | sent e =>
    cases e with
    | recoveryFailed => trivial
    | interrupted | resumed => cases h
  | request | rebuild | join | pumped => cases h

/-- A pump that has stopped has told the sessions so. -/
theorem Sent.failed {s : State} (h : Sent s .stopped) : ∃ m ∈ s.history, m.isFailure = true := by
  obtain ⟨log, cause, last, -, hs⟩ := h
  have hmem : .recoveryFailed s.generation recoveryAttempts last ∈ sent s.history := by
    rw [hs]
    simp
  obtain ⟨m, hm, he⟩ := List.mem_filterMap.mp (List.mem_reverse.mp hmem)
  refine ⟨m, hm, ?_⟩
  cases m with
  | sent e =>
    cases he
    rfl
  | request | rebuild | join | pumped => cases he

theorem Sent.lifecycle {s : State} {p : Phase} (h : Sent s p) : Lifecycle 1 (sent s.history) := by
  cases p with
  | waiting | parked | serving | streaming | quiescing | interrupted => exact .up h
  | resuming =>
    obtain ⟨log, g, cause, hr, -, hs⟩ := h
    rw [hs]
    exact .down hr
  | stopped =>
    obtain ⟨log, cause, last, hr, hs⟩ := h
    rw [hs]
    exact .failed hr
  | rebuilding | rebuildRunning | planning | restoring | restored | finishing | retrying | failing =>
    obtain ⟨log, cause, hr, hs⟩ := h
    rw [hs]
    exact .down hr

theorem Sent.generation {s : State} {p : Phase} (h : Sent s p) :
    s.generation = 1 + (sent s.history).countP isResumed + if p = .resuming then 1 else 0 := by
  cases p with
  | waiting | parked | serving | streaming | quiescing | interrupted =>
    simpa using Rounds.generation h
  | resuming =>
    obtain ⟨log, g, cause, hr, hg, hs⟩ := h
    rw [hs, hg, hr.generation]
    simp [isResumed]
  | stopped =>
    obtain ⟨log, cause, last, hr, hs⟩ := h
    rw [hs]
    simpa [List.countP_cons, isResumed] using hr.generation
  | rebuilding | rebuildRunning | planning | restoring | restored | finishing | retrying | failing =>
    obtain ⟨log, cause, hr, hs⟩ := h
    rw [hs]
    simpa [isResumed] using hr.generation

/-- In every state of every run of the pump: the events sent are rounds of an interruption and a
resumption into the next generation, with at most one interruption, and the failure of its
recovery, after them; and the generation is one more than the resumptions, the one being sent
included.  A request made before a recovery failed was answered by the start of a login rebuild or
by that failure, or the pump has taken at most 40 steps since and can take the next of itself; one
made after it is never taken up. -/
theorem lifecycle_of_run {trace : List Event} {s : State}
    (hr : machine.Run Machine.Free trace s) :
    Lifecycle 1 (sent s.history) ∧
      s.generation =
        1 + (sent s.history).countP isResumed + (if s.phase = .resuming then 1 else 0) ∧
      ∀ post pre, s.history = post ++ Mark.request :: pre →
        ((∀ m ∈ pre, m.isFailure = false) →
          (∃ m ∈ post, m.Answers) ∨
            (post.countP isPumped ≤ 40 ∧ ∃ a t, a.isOwn = true ∧ s.step (.pump a) = some t)) ∧
        ((∃ m ∈ pre, m.isFailure = true) →
          (∀ m ∈ post, ¬ m.Answers) ∧ ∀ a, s.step (.pump a) = none) := by
  have hsent : Sent s s.phase := by
    refine hr.invariant (I := fun s => Sent s s.phase) ?_ fun _ _ _ h _ hstep => step_sent h hstep
    rintro _ ⟨store, ready, rfl⟩
    exact .nil
  have hreq : RequestInv s := by
    refine hr.invariant ?_ fun s e t h _ hstep => step_requests (s := s) h hstep
    rintro _ ⟨store, ready, rfl⟩
    refine ⟨trivial, fun _ hforce => Bool.noConfusion hforce, ?_⟩
    intro post pre hsplit
    cases post <;> cases hsplit
  have hended : Ended s := by
    refine hr.invariant ?_ fun s e t h _ hstep => step_ended (s := s) h hstep
    rintro _ ⟨store, ready, rfl⟩
    intro post pre m hsplit
    cases post <;> cases hsplit
  refine ⟨hsent.lifecycle, hsent.generation, ?_⟩
  intro post pre hsplit
  refine ⟨?_, hended.of_request hsplit⟩
  intro hbefore
  by_cases hanswered : ∃ m ∈ post, m.Answers
  · exact .inl hanswered
  · right
    have hpending := hreq.pending post pre hsplit fun m hm ha => hanswered ⟨m, hm, ha⟩
    refine ⟨le_trans (Nat.le_add_right _ _) hpending.waited, can_step hreq hpending.asked ?_⟩
    -- a failure before now would have answered
    intro hstopped
    rw [hstopped] at hsent
    obtain ⟨m, hm, hfail⟩ := hsent.failed
    rw [hsplit] at hm
    rcases List.mem_append.mp hm with hm | hm
    · exact hanswered ⟨m, hm, m.answers_of_isFailure hfail⟩
    · rcases List.mem_cons.mp hm with rfl | hm
      · cases hfail
      · rw [hbefore m hm] at hfail
        cases hfail

/-- The ticker plant fails, and while it is restored a login recovery is requested; the pump has
planned that restore, and taken one pass, since. -/
def requestedDuringRestore : List Event :=
  [.pump .begin, .pump .serve, .pump (.issue (.plant .ticker) "channel closed: ticker"),
    .pump (.quiesce false), .pump .notifyInterrupted, .pump .rebuild, .pump (.rebuilt {} ""),
    .pump .plan, .request, .pump (.pass {})]

theorem requested_during_restore_runs : ∃ s, machine.Run Machine.Free requestedDuringRestore s ∧
    s.generation = 1 ∧ Lifecycle 1 (sent s.history) ∧ ∃ post pre,
      s.history = post ++ Mark.request :: pre ∧ (∀ m ∈ post, ¬ m.Answers) ∧
      post.countP isPumped ≤ 40 ∧ ∃ a t, a.isOwn = true ∧ s.step (.pump a) = some t := by
  have hexec : ∃ s, machine.exec Machine.Free { ready := true } requestedDuringRestore = some s ∧
      s.generation = 1 ∧ ∃ pre, s.history = [.pumped] ++ Mark.request :: pre ∧
        pre = (Mark.pumped :: .pumped :: .pumped :: .rebuild (.plant .ticker) :: .pumped ::
          .sent (.interrupted 1 "channel closed: ticker") :: List.replicate 4 .pumped) :=
    ⟨_, rfl, rfl, _, rfl, rfl⟩
  obtain ⟨s, hexec, hgen, pre, hsplit, hpre⟩ := hexec
  have hr := Machine.run_of_exec (M := machine) (s := { ready := true }) ⟨{}, true, rfl⟩ hexec
  obtain ⟨hlife, -, hrequests⟩ := lifecycle_of_run hr
  have hnone : ∀ m ∈ [Mark.pumped], ¬ m.Answers := by simp [Mark.Answers]
  have hbefore : ∀ m ∈ pre, m.isFailure = false := by
    rw [hpre]
    decide
  refine ⟨s, hr, hgen, hlife, [.pumped], pre, hsplit, hnone, ?_⟩
  rcases (hrequests [.pumped] pre hsplit).1 hbefore with ⟨m, hm, ha⟩ | hwaits
  · exact absurd ha (hnone m hm)
  · exact hwaits

theorem stopped_exec {s t : State} {rest : List Event}
    (h : machine.exec Machine.Free s rest = some t) (hp : s.phase = .stopped) :
    ∃ post, t.history = post ++ s.history ∧ ∀ m ∈ post, m = .request := by
  induction rest generalizing s with
  | nil =>
    cases h
    exact ⟨[], rfl, by simp⟩
  | cons e rest ih =>
    obtain ⟨u, hstep, hrest⟩ := Option.bind_eq_some_iff.mp
      (show (s.step e).bind (fun t => machine.exec Machine.Free t rest) = some t by
        simpa [Machine.exec, machine] using h)
    cases e with
    | pump a =>
      rw [act_stopped hp] at hstep
      cases hstep
    | request =>
      cases hstep
      obtain ⟨post, hpost, hplain⟩ := ih hrest hp
      refine ⟨post ++ [Mark.request], by rw [hpost]; simp [State.requestReconnect], ?_⟩
      intro m hm
      rcases List.mem_append.mp hm with hm | hm
      · exact hplain m hm
      · exact List.mem_singleton.mp hm
    | connected | leave =>
      cases hstep
      have hrest := ih hrest
      exact hrest hp
    | sessions store =>
      simp only [State.step] at hstep
      split at hstep
      · cases hstep
      · cases hstep
        have hrest := ih hrest
        exact hrest hp

/-- The venue refuses every login, and a login recovery is requested when the pump has given up. -/
def requestedAfterFailure : List Event :=
  [Event.pump .begin, .pump .serve, .pump (.issue .login "forced logout"), .pump (.quiesce false),
    .pump .notifyInterrupted] ++
  (List.replicate 3 [Event.pump .rebuild, .pump (.rebuilt { connect := false } "refused"),
    .pump .retry]).flatten ++ [Event.pump .fail, .request]

/-- However the run goes on, the request is not answered. -/
theorem requested_after_failure_lost : ∃ s, machine.Run Machine.Free requestedAfterFailure s ∧
    s.history.head? = some .request ∧
    ∀ rest t, machine.exec Machine.Free s rest = some t →
      ∃ post, t.history = post ++ s.history ∧ ∀ m ∈ post, ¬ m.Answers := by
  have hexec : ∃ s, machine.exec Machine.Free { ready := true } requestedAfterFailure = some s ∧
      s.phase = .stopped ∧ s.history.head? = some .request := ⟨_, rfl, rfl, rfl⟩
  obtain ⟨s, hexec, hp, hhead⟩ := hexec
  have hr := Machine.run_of_exec (M := machine) (s := { ready := true }) ⟨{}, true, rfl⟩ hexec
  refine ⟨s, hr, hhead, ?_⟩
  intro rest t h
  obtain ⟨post, hpost, hplain⟩ := stopped_exec h hp
  refine ⟨post, hpost, ?_⟩
  intro m hm
  rw [hplain m hm]
  exact id

end RithmicNt.Host.Pump
