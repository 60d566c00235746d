import RithmicNt.Adapter.OrderLists
import RithmicNt.Adapter.Rearm

/-! Order commands beside the re-arm barriers.  A command checks its gates and goes to a worker thread
in one step of the event loop; its end is another, and an end that is neither a success nor a
definitive failure latches the order plant. -/

namespace RithmicNt.Adapter.OrderCommands

open RithmicNt.Exec RithmicNt.Lib OrderLists

/-- `bracket` is an order list that goes to the venue as one bracket. -/
inductive Kind
  | submit
  | bracket
  | modify
  | cancel
  deriving DecidableEq, Repr

namespace Kind

/-- The key of `_command_refusal`. -/
def verb : Kind → String
  | submit | bracket => "submit"
  | modify => "modify"
  | cancel => "cancel"

/-- The session call, also the action in the log. -/
def call : Kind → String
  | submit => "place_order"
  | bracket => "place_bracket_order"
  | modify => "modify_order"
  | cancel => "cancel_order"

def allowed (p : PlantPolicy) : Kind → Bool
  | submit | bracket => p.allowSubmit
  | modify => p.allowModify
  | cancel => p.allowCancel

end Kind

/-- `sessionTradingEnabled` is the gate of the parent gateway when the command runs, `problem` why the
command cannot be expressed as a session call. -/
structure Command where
  kind : Kind
  sessionTradingEnabled : Bool
  problem : Option String
  deriving DecidableEq, Repr

/-- A submit is refused by a denial, the others by a rejection of the modify or of the cancel. -/
inductive Announcement
  | refused (reason : String)
  | submitted
  | rejected (reason : String)
  | latched (action reason : String)
  deriving DecidableEq, Repr

/-- `running` are the commands with a worker thread, under their numbers.  `unknown` are the steps at
which an unknown outcome arrived, and `armed` says of the re-arm that last brought the plant to live
when the drain of its barrier began and at which step it was. -/
structure State where
  enableTrading : Bool
  barriers : Rearm.State := {}
  next : Nat := 0
  running : List (Nat × Kind) := []
  log : List (Nat × Announcement) := []
  unknown : List Nat := []
  armed : Option (Nat × Nat) := none

inductive Event
  | barrier (e : Rearm.Event)
  | command (c : Command)
  | ends (i : Nat) (outcome : OrderLists.Outcome)
  /-- The task of the command is cancelled; its worker thread runs on. -/
  | cancelled (i : Nat)
  deriving DecidableEq, Repr

namespace State

def commandRefusal (s : State) (c : Command) : Option String :=
  if !s.enableTrading then some tradingDisabledReason
  else if !c.sessionTradingEnabled then some "Rithmic parent gateway trading disabled"
  else if !c.kind.allowed s.barriers.plant then some (s.barriers.plant.rejectReason c.kind.verb)
  else none

/-- Only `_submit_order_list` looks at the legs of a bracket before it asks for a refusal. -/
def refusal (s : State) (c : Command) : Option String :=
  if c.kind = .bracket ∧ s.enableTrading = true then c.problem <|> s.commandRefusal c
  else s.commandRefusal c <|> c.problem

def announce (s : State) (i : Nat) (a : Announcement) : State := { s with log := s.log ++ [(i, a)] }

def finish (s : State) (i : Nat) : State := { s with running := s.running.filter (·.1 != i) }

def start (s : State) (c : Command) : State :=
  let s' : State := { s with next := s.next + 1 }
  match s.refusal c with
  | some reason => s'.announce s.next (.refused reason)
  | none =>
    let s' : State := { s' with running := s'.running ++ [(s.next, c.kind)] }
    if c.kind = .submit ∨ c.kind = .bracket then s'.announce s.next .submitted else s'

/-- The end of a session call: nothing on success, else `_order_command_failed`. -/
def end_ (s : State) (i : Nat) (kind : Kind) : OrderLists.Outcome → Option State
  | .returned => some (s.finish i)
  | .raised code text =>
    match failureReason code text with
    | some reason => some ((s.finish i).announce i (.rejected reason))
    | none =>
      (Rearm.step s.barriers .latch).map fun t =>
        { (s.finish i).announce i (.latched kind.call ("transport outcome unknown: " ++ text)) with
          barriers := t
          unknown := t.now :: s.unknown }

def armedBy (s : State) (t : Rearm.State) : Rearm.Event → Option (Nat × Nat)
  | .rearm i _ =>
    if s.barriers.plant.state = .connecting ∧ t.plant.state = .live then
      (s.barriers.barrier? i).bind fun b => b.began.map fun began => (began, t.now)
    else s.armed
  | _ => s.armed

end State

def step (s : State) : Event → Option State
  | .barrier e =>
    (Rearm.step s.barriers e).map fun t => { s with barriers := t, armed := s.armedBy t e }
  | .command c => some (s.start c)
  | .ends i outcome => (s.running.lookup i).bind fun kind => s.end_ i kind outcome
  | .cancelled i => (s.running.lookup i).map fun _ => s.finish i

def machine : Machine State Event where
  Start s := ∃ trading, s = { enableTrading := trading }
  step := step

/-- A barrier begins only while no other one holds a stale drain. -/
def BeginsAlone (s : State) : Event → Prop
  | .barrier e => Rearm.BeginsAlone s.barriers e
  | _ => True

instance (s : State) (event : Event) : Decidable (BeginsAlone s event) := by
  unfold BeginsAlone
  split <;> infer_instance

/-! ### What opens the plant -/

/-- In a live and in a resyncing plant some command is allowed. -/
def Open (p : PlantPolicy) : Prop := p.state = .live ∨ p.state = .resyncing

theorem open_of_allowed {kind : Kind} {p : PlantPolicy} (h : kind.allowed p = true) : Open p := by
  unfold Open
  cases kind <;>
    simp_all [Kind.allowed, PlantPolicy.allowSubmit, PlantPolicy.allowModify, PlantPolicy.allowCancel]

section Barriers

variable {s t : Rearm.State}

theorem not_open_resyncFailed (p : PlantPolicy) : ¬ Open p.resyncFailed := by
  unfold PlantPolicy.resyncFailed Open
  split <;> simp_all

theorem open_of_resyncComplete {p : PlantPolicy} (h : Open p.resyncComplete) : Open p := by
  by_cases hp : p.state = .resyncing
  · exact .inr hp
  · rwa [PlantPolicy.resyncComplete, if_neg hp] at h

theorem open_of_resyncStart {p : PlantPolicy} (h : Open p.resyncStart) : Open p := by
  unfold PlantPolicy.resyncStart at h
  split at h
  · exact h
  · exact h
  · simp [Open] at h
  · next hp => exact .inl hp
  · next hp => exact .inr hp

theorem not_open_onRaise (s : Rearm.State) (kind : Rearm.Kind) (phase : Rearm.Phase) :
    ¬ Open (s.onRaise kind phase).plant := by
  cases kind with
  | coldConnect => cases phase <;> simp [Rearm.State.onRaise, Rearm.State.break_, Open]
  | transportRestore => simp [Rearm.State.onRaise, Rearm.State.break_, Open]
  | orderGap => exact not_open_resyncFailed s.plant

theorem open_rearm {b : Rearm.Barrier} {alive : Bool} (h : Open (s.rearm b alive).plant) :
    s.plant.state = .connecting ∧ (s.rearm b alive).plant.state = .live := by
  unfold Rearm.State.rearm at h ⊢
  generalize (if b.kind = .orderGap then true else alive) = poll at h ⊢
  by_cases hraise : (s.plant.rearm poll).2 = false ∧ b.kind ≠ .coldConnect
  · rw [if_pos hraise] at h
    exact absurd h (not_open_onRaise _ _ _)
  · rw [if_neg hraise] at h ⊢
    have hlive : (s.plant.rearm poll).1.state = .live := by
      apply h.resolve_right
      show (s.plant.rearm poll).1.state ≠ .resyncing
      unfold PlantPolicy.rearm
      split
      · simp_all
      · split <;> simp
      · simp
    exact ⟨((PlantPolicy.rearm_live_iff _ _).mp hlive).1, hlive⟩

/-- A step opens the plant only as the re-arm of a barrier past its drain. -/
theorem open_step {e : Rearm.Event} (h : Rearm.step s e = some t) (ht : Open t.plant) :
    Open s.plant ∨ ∃ i alive b began, e = .rearm i alive ∧ s.plant.state = .connecting ∧
      t.plant.state = .live ∧ s.barrier? i = some b ∧ b.began = some began := by
  cases e with
  | beginConnect kind =>
    obtain rfl := Option.some.inj h
    simp [Open, Rearm.State.begin_] at ht
  | drainStart i =>
    simp only [Rearm.step] at h
    split at h
    · obtain rfl := Option.some.inj h
      exact .inl ht
    · cases h
  | drainEnd i =>
    simp only [Rearm.step] at h
    split at h
    · obtain rfl := Option.some.inj h
      exact .inl ht
    · cases h
  | rearm i alive =>
    simp only [Rearm.step] at h
    split at h
    · next id kind began hb =>
      obtain rfl := Option.some.inj h
      obtain ⟨hs, hlive⟩ := open_rearm ht
      exact .inr ⟨i, alive, _, began, rfl, hs, hlive, hb, rfl⟩
    · cases h
  | fail i =>
    obtain ⟨b, -, rfl⟩ := Option.map_eq_some_iff.mp h
    exact absurd ht (not_open_onRaise _ _ _)
  | cancel i =>
    obtain ⟨b, -, rfl⟩ := Option.map_eq_some_iff.mp h
    exact .inl ht
  | latch =>
    obtain rfl := Option.some.inj h
    simp [Open, Rearm.State.break_] at ht
  | resyncStart =>
    obtain rfl := Option.some.inj h
    exact .inl (open_of_resyncStart ht)
  | resyncComplete =>
    obtain rfl := Option.some.inj h
    exact .inl (open_of_resyncComplete ht)
  | resyncFailed =>
    obtain rfl := Option.some.inj h
    exact absurd ht (not_open_resyncFailed _)
  | disconnect =>
    obtain rfl := Option.some.inj h
    simp [Open, Rearm.State.break_] at ht

/-- Nothing turns back the number of steps, nor the last break. -/
def Onward (s t : Rearm.State) : Prop :=
  t.now = s.now ∧ s.lastBreak ≤ t.lastBreak ∧ t.lastBreak ≤ t.now

theorem onward_onRaise (h : s.lastBreak ≤ s.now) (kind : Rearm.Kind) (phase : Rearm.Phase) :
    Onward s (s.onRaise kind phase) := by
  cases kind with
  | coldConnect => cases phase <;> exact ⟨rfl, h, Nat.le_refl _⟩
  | transportRestore => exact ⟨rfl, h, Nat.le_refl _⟩
  | orderGap => exact ⟨rfl, Nat.le_refl _, h⟩

theorem onward_rearm (h : s.lastBreak ≤ s.now) (b : Rearm.Barrier) (alive : Bool) :
    Onward s (s.rearm b alive) := by
  unfold Rearm.State.rearm
  generalize (if b.kind = .orderGap then true else alive) = poll
  by_cases hraise : (s.plant.rearm poll).2 = false ∧ b.kind ≠ .coldConnect
  · rw [if_pos hraise]
    exact onward_onRaise (s := { s with plant := (s.plant.rearm poll).1 }.remove b.id) h _ _
  · rw [if_neg hraise]
    exact ⟨rfl, Nat.le_refl _, h⟩

theorem onward_step {e : Rearm.Event} (h : Rearm.step s e = some t) (hpast : s.lastBreak ≤ s.now) :
    Onward s.tick t := by
  have hpast : s.tick.lastBreak ≤ s.tick.now := Nat.le_succ_of_le hpast
  have hsame : Onward s.tick s.tick := ⟨rfl, Nat.le_refl _, hpast⟩
  cases e with
  | drainStart i | drainEnd i =>
    simp only [Rearm.step] at h
    split at h
    · obtain rfl := Option.some.inj h
      exact hsame
    · cases h
  | rearm i alive =>
    simp only [Rearm.step] at h
    split at h
    · obtain rfl := Option.some.inj h
      exact onward_rearm hpast _ _
    · cases h
  | fail i =>
    obtain ⟨b, -, rfl⟩ := Option.map_eq_some_iff.mp h
    exact onward_onRaise (s := s.tick.remove i) hpast _ _
  | cancel i =>
    obtain ⟨b, -, rfl⟩ := Option.map_eq_some_iff.mp h
    exact hsame
  | latch | resyncStart | disconnect =>
    obtain rfl := Option.some.inj h
    exact ⟨rfl, hpast, Nat.le_refl _⟩
  | beginConnect | resyncComplete | resyncFailed =>
    obtain rfl := Option.some.inj h
    exact hsame

end Barriers

/-! ### Runs -/

variable {s t : State}

/-- An unknown outcome is a break, and an open plant was re-armed after each of them. -/
structure Sound (s : State) : Prop where
  past : s.barriers.lastBreak ≤ s.barriers.now
  unknown : ∀ u ∈ s.unknown, u ≤ s.barriers.lastBreak
  armed : Open s.barriers.plant → ∃ began arm, s.armed = some (began, arm) ∧ ∀ u ∈ s.unknown, u < arm

/-- The drain that armed an open plant began after every unknown outcome. -/
structure Fresh (s : State) : Prop extends Sound s where
  inv : Rearm.Inv s.barriers
  drained : Open s.barriers.plant →
    ∃ began arm, s.armed = some (began, arm) ∧ ∀ u ∈ s.unknown, u < began

/-- What a step does to the barriers, the unknown outcomes and the last re-arm. -/
inductive Change (s : State) (e : Event) (t : State) : Prop
  | aside (barriers : t.barriers = s.barriers) (unknown : t.unknown = s.unknown)
      (armed : t.armed = s.armed)
  | barrier (b : Rearm.Event) (event : e = .barrier b)
      (step : Rearm.step s.barriers b = some t.barriers)
      (unknown : t.unknown = s.unknown) (armed : t.armed = s.armedBy t.barriers b)
  | unknown (step : Rearm.step s.barriers .latch = some t.barriers)
      (unknown : t.unknown = t.barriers.now :: s.unknown) (armed : t.armed = s.armed)

theorem change_start (s : State) (c : Command) (e : Event) : Change s e (s.start c) := by
  unfold State.start
  split
  · exact .aside rfl rfl rfl
  · dsimp only
    split <;> exact .aside rfl rfl rfl

theorem change_step {e : Event} (h : step s e = some t) : Change s e t := by
  cases e with
  | barrier e =>
    obtain ⟨b, hb, rfl⟩ := Option.map_eq_some_iff.mp h
    exact .barrier e rfl hb rfl rfl
  | command c =>
    obtain rfl := Option.some.inj h
    exact change_start s c _
  | ends i outcome =>
    obtain ⟨kind, -, h⟩ := Option.bind_eq_some_iff.mp h
    unfold State.end_ at h
    split at h
    · obtain rfl := Option.some.inj h
      exact .aside rfl rfl rfl
    · split at h
      · obtain rfl := Option.some.inj h
        exact .aside rfl rfl rfl
      · obtain ⟨b, hb, rfl⟩ := Option.map_eq_some_iff.mp h
        exact .unknown hb rfl rfl
  | cancelled i =>
    obtain ⟨kind, -, rfl⟩ := Option.map_eq_some_iff.mp h
    exact .aside rfl rfl rfl

/-- A re-arm that opens the plant is recorded with the drain of its barrier; any other step leaves the
record as it is. -/
theorem armedBy_eq {b : Rearm.Event} {u : Rearm.State} (h : Rearm.step s.barriers b = some u)
    (hu : Open u.plant) :
    (Open s.barriers.plant ∧ s.armedBy u b = s.armed) ∨
      s.barriers.plant.state = .connecting ∧ ∃ bar ∈ s.barriers.barriers, ∃ began,
        bar.began = some began ∧ s.armedBy u b = some (began, u.now) := by
  rcases open_step h hu with hopen | ⟨i, alive, bar, began, rfl, hfrom, hlive, hbar, hbegan⟩
  · refine .inl ⟨hopen, ?_⟩
    unfold State.armedBy
    split
    · apply if_neg
      rintro ⟨hfrom, -⟩
      simp [Open, hfrom] at hopen
    · rfl
  · refine .inr ⟨hfrom, bar, (Rearm.barrier?_mem hbar).1, began, hbegan, ?_⟩
    simp [State.armedBy, hfrom, hlive, hbar, hbegan]

theorem sound_step {e : Event} (hs : Sound s) (h : step s e = some t) : Sound t := by
  cases change_step h with
  | aside barriers unknown armed =>
    refine ⟨?_, ?_, ?_⟩
    · rw [barriers]
      exact hs.past
    · rw [barriers, unknown]
      exact hs.unknown
    · rw [barriers, unknown, armed]
      exact hs.armed
  | barrier b _ step unknown armed =>
    obtain ⟨hnow, hbreak, hpast⟩ := onward_step step hs.past
    refine ⟨hpast, ?_, ?_⟩
    · intro u hu
      rw [unknown] at hu
      exact Nat.le_trans (hs.unknown u hu) hbreak
    · intro hopen
      rw [unknown, armed]
      rcases armedBy_eq step hopen with ⟨hold, harmed⟩ | ⟨-, bar, -, began, -, harmed⟩
      · rw [harmed]
        exact hs.armed hold
      · refine ⟨began, _, harmed, ?_⟩
        intro u hu
        have hu := hs.unknown u hu
        have := hs.past
        rw [hnow]
        show u < s.barriers.now + 1
        omega
  | unknown step unknown armed =>
    obtain ⟨hnow, hbreak, hpast⟩ := onward_step step hs.past
    have hlatch : s.barriers.tick.break_ s.barriers.tick.plant.latch = t.barriers :=
      Option.some.inj step
    refine ⟨hpast, ?_, ?_⟩
    · intro u hu
      rw [unknown] at hu
      rcases List.mem_cons.mp hu with rfl | hu
      · rw [← hlatch]
        exact Nat.le_refl _
      · exact Nat.le_trans (hs.unknown u hu) hbreak
    · intro hopen
      rw [← hlatch] at hopen
      simp [Open, Rearm.State.break_] at hopen

theorem fresh_step {e : Event} (hs : Fresh s) (hok : BeginsAlone s e) (h : step s e = some t) :
    Fresh t := by
  have ht := sound_step hs.toSound h
  cases change_step h with
  | aside barriers unknown armed =>
    refine ⟨ht, ?_, ?_⟩
    · rw [barriers]
      exact hs.inv
    · rw [barriers, unknown, armed]
      exact hs.drained
  | barrier b event step unknown armed =>
    subst event
    refine ⟨ht, Rearm.step_inv hs.inv hok step, ?_⟩
    intro hopen
    rw [unknown, armed]
    rcases armedBy_eq step hopen with ⟨hold, harmed⟩ | ⟨hfrom, bar, hbar, began, hbegan, harmed⟩
    · rw [harmed]
      exact hs.drained hold
    · refine ⟨began, _, harmed, ?_⟩
      intro u hu
      exact Nat.lt_of_le_of_lt (hs.unknown u hu) (hs.inv.fresh hfrom bar hbar began hbegan)
  | unknown step unknown armed =>
    have hlatch : s.barriers.tick.break_ s.barriers.tick.plant.latch = t.barriers :=
      Option.some.inj step
    have hbegins : Rearm.BeginsAlone s.barriers .latch := trivial
    refine ⟨ht, Rearm.step_inv hs.inv hbegins step, ?_⟩
    intro hopen
    rw [← hlatch] at hopen
    simp [Open, Rearm.State.break_] at hopen

theorem sound_of_run {ok : State → Event → Prop} {trace : List Event} (h : machine.Run ok trace s) :
    Sound s := by
  refine h.invariant (I := Sound) ?_ fun _ _ _ hs _ hstep => sound_step hs hstep
  rintro s ⟨trading, rfl⟩
  exact ⟨Nat.le_refl _, by simp, by simp [Open]⟩

theorem fresh_of_run {trace : List Event} (h : machine.Run BeginsAlone trace s) : Fresh s := by
  refine h.invariant (I := Fresh) ?_ fun _ _ _ hs hok hstep => fresh_step hs hok hstep
  rintro s ⟨trading, rfl⟩
  exact ⟨⟨Nat.le_refl _, by simp, by simp [Open]⟩, .of_not_connecting (by simp) (Nat.le_refl _),
    by simp [Open]⟩

theorem allowed_of_refusal {c : Command} (h : s.refusal c = none) :
    s.enableTrading = true ∧ c.sessionTradingEnabled = true ∧
      c.kind.allowed s.barriers.plant = true := by
  have hnone : s.commandRefusal c = none := by
    unfold State.refusal at h
    split at h <;> simp_all
  unfold State.commandRefusal at hnone
  split_ifs at hnone with h₁ h₂ h₃
  exact ⟨by simpa using h₁, by simpa using h₂, by simpa using h₃⟩

/-- A command goes to the session only in a state that allows it, and after every outcome that was
unknown the plant has been re-armed since: on a drain of the working orders that began after that
outcome, where barriers begin only while no stale drain is in flight. -/
theorem handed_over_after_rearm {trace : List Event} {c : Command}
    (h : machine.Run Machine.Free trace s) (hsent : s.refusal c = none) :
    s.enableTrading = true ∧ c.sessionTradingEnabled = true ∧
    c.kind.allowed s.barriers.plant = true ∧
    ∃ began arm, s.armed = some (began, arm) ∧ (∀ u ∈ s.unknown, u < arm) ∧
      (machine.Run BeginsAlone trace s → ∀ u ∈ s.unknown, u < began) := by
  obtain ⟨htrading, hgate, hallowed⟩ := allowed_of_refusal hsent
  obtain ⟨began, arm, harmed, hafter⟩ := (sound_of_run h).armed (open_of_allowed hallowed)
  refine ⟨htrading, hgate, hallowed, began, arm, harmed, hafter, ?_⟩
  intro halone
  obtain ⟨began', arm', harmed', hdrained⟩ :=
    (fresh_of_run halone).drained (open_of_allowed hallowed)
  obtain ⟨rfl, rfl⟩ : began' = began ∧ arm' = arm := by simpa using harmed'.symm.trans harmed
  exact hdrained

/-- A submit whose outcome is unknown, and the transport restore after it. -/
def recovered : List Event :=
  [.barrier (.beginConnect .coldConnect), .barrier (.drainStart 0), .barrier (.drainEnd 0),
    .barrier (.rearm 0 true), .command ⟨.submit, true, none⟩, .ends 0 (.raised none "timed out"),
    .barrier (.beginConnect .transportRestore), .barrier (.drainStart 1), .barrier (.drainEnd 1),
    .barrier (.rearm 1 true)]

theorem handed_over_after_rearm_recovered : ∃ s, machine.Run Machine.Free recovered s ∧
    s.refusal ⟨.cancel, true, none⟩ = none ∧ s.unknown = [5] ∧
      ∃ began arm, s.armed = some (began, arm) ∧ 5 < began := by
  have hexec : ∃ s, machine.exec BeginsAlone { enableTrading := true } recovered = some s ∧
      s.refusal ⟨.cancel, true, none⟩ = none ∧ s.unknown = [5] := ⟨_, rfl, rfl, rfl⟩
  obtain ⟨s, hexec, hsent, hunknown⟩ := hexec
  have halone : machine.Run BeginsAlone recovered s := Machine.run_of_exec ⟨true, rfl⟩ hexec
  have hrun : machine.Run Machine.Free recovered s := halone.mono fun _ _ _ => trivial
  obtain ⟨-, -, -, began, arm, harmed, -, hdrained⟩ := handed_over_after_rearm hrun hsent
  exact ⟨s, hrun, hsent, hunknown, began, arm, harmed, hdrained halone 5 (by simp [hunknown])⟩

end RithmicNt.Adapter.OrderCommands
