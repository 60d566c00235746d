import RithmicNt.Adapter.PnlStream

/-! The PnL gate of a re-arm barrier: which row lets a barrier through. -/

namespace RithmicNt.Adapter.Pnl

open RithmicNt.Lib RithmicNt.Exec

section

variable {env : Env}

theorem Effect.epoch_eq {d : Delivery} {c c' : Client} {outcome : Outcome}
    (h : Effect env d c c' outcome) : c'.epoch = c.epoch := by
  cases h <;> rfl

theorem Effect.observed_of {d : Delivery} {c c' : Client} {outcome : Outcome} {pushed : Nat}
    (h : Effect env d c c' outcome) (hset : c'.observed = some pushed) :
    c.observed = some pushed ∨ d.row.isEvidence env = true ∧ d.pushed = pushed := by
  have hor : c.observed.or (some d.pushed) = some pushed →
      c.observed = some pushed ∨ d.pushed = pushed := by
    cases c.observed with
    | none => simp
    | some _ => exact .inl
  cases h with
  | quiet => exact .inl hset
  | observed hrow hevidence => exact (hor hset).imp_right fun h => ⟨hevidence, h⟩
  | unreadable => exact .inl hset
  | cut => exact .inl hset
  | position hrow hfields =>
    exact (hor hset).imp_right fun h => ⟨by simp [hrow, Row.isEvidence, hfields], h⟩

theorem Client.dispatchBatch_cons (c : Client) (d : Delivery) (batch : List Delivery) :
    c.dispatchBatch env (d :: batch) = ((c.dispatchPnlEvent env d).1).dispatchBatch env batch :=
  rfl

theorem Client.dispatchBatch_epoch (c : Client) (batch : List Delivery) :
    (c.dispatchBatch env batch).epoch = c.epoch := by
  induction batch generalizing c with
  | nil => rfl
  | cons d batch ih => rw [dispatchBatch_cons, ih, (c.dispatchPnlEvent_effect d).epoch_eq]

theorem Client.dispatchBatch_observed {c : Client} {batch : List Delivery} {pushed : Nat}
    (h : (c.dispatchBatch env batch).observed = some pushed) : c.observed = some pushed ∨
      ∃ d ∈ batch, d.row.isEvidence env = true ∧ d.pushed = pushed := by
  induction batch generalizing c with
  | nil => exact .inl h
  | cons d batch ih =>
    rw [dispatchBatch_cons] at h
    rcases ih h with hbefore | ⟨d', hd', hevidence⟩
    · rcases (c.dispatchPnlEvent_effect d).observed_of hbefore with hc | hevidence
      · exact .inl hc
      · exact .inr ⟨d, by simp, hevidence⟩
    · exact .inr ⟨d', by simp [hd'], hevidence⟩

end

variable (env : Env)

/-- A barrier starts only while no row that could satisfy its gate is in the session queue. -/
def DrainedQueue (s : State) : Event → Prop
  | .restore true | .orderGap => ∀ d ∈ s.queue, d.row.isEvidence env = false
  | _ => True

instance (s : State) (event : Event) : Decidable (DrainedQueue env s event) := by
  unfold DrainedQueue
  split <;> infer_instance

/-- No row of `batch` that could satisfy the gate was pushed before a barrier in flight started. -/
def NewTo (s : State) (batch : List Delivery) : Prop :=
  ∀ b ∈ s.barriers, ∀ d ∈ batch, d.row.isEvidence env = true → b.start < d.pushed

/-- Where a row that an in-flight barrier may see can be: in the queue, in a poll of the current
epoch, in the event, or in a wake-up. -/
structure Gate (s : State) : Prop where
  queue : NewTo env s s.queue
  polls : ∀ p ∈ s.polls, p.epoch = s.client.epoch → ∀ batch ∈ p.batch, NewTo env s batch
  observed : ∀ b ∈ s.barriers, ∀ pushed ∈ s.client.observed, b.start < pushed
  woken : ∀ b ∈ s.barriers, ∀ pushed, b.wait = .woken pushed → b.start < pushed
  past : ∀ b ∈ s.barriers, b.start ≤ s.now
  epochs : ∀ p ∈ s.polls, p.epoch ≤ s.client.epoch
  passed : ∀ start pushed, s.passed = some (start, pushed) → start < pushed

variable {env}

theorem Gate.mono {s t : State} (h : Gate env s) (hepoch : t.client.epoch = s.client.epoch)
    (hobserved : t.client.observed = s.client.observed) (hqueue : t.queue ⊆ s.queue)
    (hpolls : t.polls ⊆ s.polls) (hbarriers : t.barriers ⊆ s.barriers) (hnow : s.now ≤ t.now)
    (hpassed : ∀ start pushed, t.passed = some (start, pushed) → start < pushed) : Gate env t where
  queue b hb d hd := h.queue b (hbarriers hb) d (hqueue hd)
  polls p hp hcurrent batch hbatch b hb :=
    h.polls p (hpolls hp) (hcurrent.trans hepoch) batch hbatch b (hbarriers hb)
  observed b hb pushed hp := h.observed b (hbarriers hb) pushed (hobserved ▸ hp)
  woken b hb := h.woken b (hbarriers hb)
  past b hb := Nat.le_trans (h.past b (hbarriers hb)) hnow
  epochs p hp := hepoch ▸ h.epochs p (hpolls hp)
  passed := hpassed

theorem Gate.dropPoll {s : State} (h : Gate env s) (i : Nat) : Gate env (s.dropPoll i) :=
  h.mono rfl rfl (List.Subset.refl _) List.filter_sublist.subset (List.Subset.refl _)
    (Nat.le_refl _) h.passed

theorem Gate.dropBarrier {s : State} (h : Gate env s) (i : Nat) {start pushed : Nat}
    (hpassed : start < pushed) :
    Gate env { s.dropBarrier i with passed := some (start, pushed) } := by
  refine h.mono rfl rfl (List.Subset.refl _) (List.Subset.refl _) List.filter_sublist.subset
    (Nat.le_refl _) ?_
  rintro _ _ ⟨⟩
  exact hpassed

/-- A new epoch with the event cleared leaves only the queue to check. -/
theorem Gate.bump {s : State} (h : Gate env s) {client : Client}
    (hepoch : client.epoch = s.client.epoch + 1) (hobserved : client.observed = none)
    (stream : Nat) (returned : List InstrumentPnl) :
    Gate env { s with client := client, stream := stream, returned := returned } where
  queue := h.queue
  polls p hp hcurrent := by
    have := h.epochs p hp
    dsimp only at hcurrent
    omega
  observed b _ pushed hp := by
    simp [hobserved] at hp
  woken := h.woken
  past := h.past
  epochs p hp := by
    have := h.epochs p hp
    dsimp only
    omega
  passed := h.passed

theorem Gate.addBarrier {s : State} (h : Gate env s)
    (hqueue : ∀ d ∈ s.queue, d.row.isEvidence env = false)
    (hpolls : ∀ p ∈ s.polls, p.epoch < s.client.epoch) (hobserved : s.client.observed = none) :
    Gate env s.addBarrier := by
  have hmem : ∀ b ∈ s.addBarrier.barriers, b ∈ s.barriers ∨
      b = { id := s.nextBarrier, start := s.now } := by
    intro b hb
    simpa [State.addBarrier] using hb
  refine ⟨?_, ?_, ?_, ?_, ?_, h.epochs, h.passed⟩
  · intro b _ d hd hevidence
    rw [hqueue d hd] at hevidence
    cases hevidence
  · intro p hp hcurrent
    exact absurd hcurrent (Nat.ne_of_lt (hpolls p hp))
  · intro b _ pushed hp
    simp [State.addBarrier, hobserved] at hp
  · intro b hb pushed hwoken
    rcases hmem b hb with hb | rfl
    · exact h.woken b hb pushed hwoken
    · cases hwoken
  · intro b hb
    rcases hmem b hb with hb | rfl
    · exact h.past b hb
    · exact Nat.le_refl _

theorem Gate.push {s : State} (h : Gate env s) {d : Delivery}
    (hd : ∀ b ∈ s.barriers, b.start < d.pushed) :
    Gate env { s with queue := s.queue ++ [d] } := by
  refine { h with queue := fun b hb x hx hevidence => ?_ }
  rcases List.mem_append.mp hx with hx | hx
  · exact h.queue b hb x hx hevidence
  · obtain rfl := List.mem_singleton.mp hx
    exact hd b hb

theorem Gate.pollStart {s : State} (h : Gate env s) (id stream next : Nat) :
    Gate env { s with
      polls := s.polls ++ [{ id := id, epoch := s.client.epoch, stream := stream }]
      nextPoll := next } := by
  refine { h with polls := fun p hp => ?_, epochs := fun p hp => ?_ }
  · rcases List.mem_append.mp hp with hp | hp
    · exact h.polls p hp
    · obtain rfl := List.mem_singleton.mp hp
      exact fun _ batch hbatch => by cases hbatch
  · rcases List.mem_append.mp hp with hp | hp
    · exact h.epochs p hp
    · obtain rfl := List.mem_singleton.mp hp
      exact Nat.le_refl _

theorem Gate.dequeue {s : State} (h : Gate env s) (i n : Nat) :
    Gate env { s.setBatch i (s.queue.take n) with queue := s.queue.drop n } := by
  refine ⟨?_, ?_, h.observed, h.woken, h.past, ?_, h.passed⟩
  · intro b hb d hd
    exact h.queue b hb d (List.mem_of_mem_drop hd)
  · intro p hp hcurrent batch hbatch b hb d hd
    obtain ⟨p₀, hp₀, rfl⟩ := List.mem_map.mp hp
    by_cases hi : p₀.id = i
    · simp only [hi, if_true, Option.mem_some_iff] at hbatch
      subst hbatch
      exact h.queue b hb d (List.mem_of_mem_take hd)
    · simp only [hi, if_false] at hcurrent hbatch
      exact h.polls p₀ hp₀ hcurrent batch hbatch b hb d hd
  · intro p hp
    obtain ⟨p₀, hp₀, rfl⟩ := List.mem_map.mp hp
    have := h.epochs p₀ hp₀
    split <;> exact this

theorem Gate.setWaiting {s : State} (h : Gate env s) (i : Nat) :
    Gate env (s.setWait i .waiting) := by
  have hmem : ∀ b ∈ (s.setWait i .waiting).barriers, ∃ b₀ ∈ s.barriers, b₀.start = b.start ∧
      ∀ pushed, b.wait = .woken pushed → b₀.wait = .woken pushed := by
    intro b hb
    obtain ⟨b₀, hb₀, rfl⟩ := List.mem_map.mp hb
    refine ⟨b₀, hb₀, ?_⟩
    by_cases hi : b₀.id = i <;> simp [hi]
  refine ⟨?_, ?_, ?_, ?_, ?_, h.epochs, h.passed⟩
  · intro b hb
    obtain ⟨b₀, hb₀, hstart, -⟩ := hmem b hb
    exact hstart ▸ h.queue b₀ hb₀
  · intro p hp hcurrent batch hbatch b hb
    obtain ⟨b₀, hb₀, hstart, -⟩ := hmem b hb
    exact hstart ▸ h.polls p hp hcurrent batch hbatch b₀ hb₀
  · intro b hb
    obtain ⟨b₀, hb₀, hstart, -⟩ := hmem b hb
    exact hstart ▸ h.observed b₀ hb₀
  · intro b hb pushed hwoken
    obtain ⟨b₀, hb₀, hstart, hwait⟩ := hmem b hb
    exact hstart ▸ h.woken b₀ hb₀ pushed (hwait pushed hwoken)
  · intro b hb
    obtain ⟨b₀, hb₀, hstart, -⟩ := hmem b hb
    exact hstart ▸ h.past b₀ hb₀

theorem mem_wake {barriers : List Barrier} {before after : Option Nat} {b : Barrier}
    (hb : b ∈ State.wake barriers before after) : ∃ b₀ ∈ barriers, b₀.start = b.start ∧
      ∀ pushed, b.wait = .woken pushed → b₀.wait = .woken pushed ∨ after = some pushed := by
  unfold State.wake at hb
  split at hb
  · next pushed =>
    obtain ⟨b₀, hb₀, rfl⟩ := List.mem_map.mp hb
    refine ⟨b₀, hb₀, ?_⟩
    by_cases hwait : b₀.wait = .waiting
    · simp [hwait]
    · rw [if_neg hwait]
      exact ⟨rfl, fun _ => .inl⟩
  · exact ⟨b, hb, rfl, fun _ => .inl⟩

theorem dispatchClient_spec (s : State) (p : Poll) (batch : List Delivery) {client : Client}
    (hclient : client =
      if p.epoch = s.client.epoch then s.client.dispatchBatch env batch else s.client) :
    client.epoch = s.client.epoch ∧ ∀ pushed, client.observed = some pushed →
      s.client.observed = some pushed ∨ p.epoch = s.client.epoch ∧
        ∃ d ∈ batch, d.row.isEvidence env = true ∧ d.pushed = pushed := by
  split at hclient
  · next hcurrent =>
    subst hclient
    refine ⟨Client.dispatchBatch_epoch _ _, fun pushed hp => ?_⟩
    exact (Client.dispatchBatch_observed hp).imp_right fun h => ⟨hcurrent, h⟩
  · subst hclient
    exact ⟨rfl, fun _ => .inl⟩

theorem Gate.dispatch {s : State} (h : Gate env s) {p : Poll} {batch : List Delivery}
    (hnew : p.epoch = s.client.epoch → NewTo env s batch) :
    Gate env (s.dispatch env p batch) := by
  unfold State.dispatch
  dsimp only
  generalize hclient : (if p.epoch = s.client.epoch then _ else _) = client
  obtain ⟨hepoch, hset⟩ := dispatchClient_spec s p batch hclient.symm
  have hobserved : ∀ b ∈ s.barriers, ∀ pushed, client.observed = some pushed → b.start < pushed := by
    intro b hb pushed hp
    rcases hset pushed hp with hbefore | ⟨hcurrent, d, hd, hevidence, rfl⟩
    · exact h.observed b hb pushed hbefore
    · exact hnew hcurrent b hb d hd hevidence
  have hgate : ∀ returned, Gate env { s with
      client := client, returned := returned
      barriers := State.wake s.barriers s.client.observed client.observed } := by
    intro returned
    refine ⟨?_, ?_, ?_, ?_, ?_, hepoch ▸ h.epochs, h.passed⟩
    · intro b hb
      obtain ⟨b₀, hb₀, hstart, -⟩ := mem_wake hb
      exact hstart ▸ h.queue b₀ hb₀
    · intro q hq hcurrent batch' hbatch b hb
      obtain ⟨b₀, hb₀, hstart, -⟩ := mem_wake hb
      exact hstart ▸ h.polls q hq (hcurrent.trans hepoch) batch' hbatch b₀ hb₀
    · intro b hb
      obtain ⟨b₀, hb₀, hstart, -⟩ := mem_wake hb
      exact hstart ▸ hobserved b₀ hb₀
    · intro b hb pushed hwoken
      obtain ⟨b₀, hb₀, hstart, hwait⟩ := mem_wake hb
      rcases hwait pushed hwoken with hbefore | hnow
      · exact hstart ▸ h.woken b₀ hb₀ pushed hbefore
      · exact hstart ▸ hobserved b₀ hb₀ pushed hnow
    · intro b hb
      obtain ⟨b₀, hb₀, hstart, -⟩ := mem_wake hb
      exact hstart ▸ h.past b₀ hb₀
  split
  · exact (hgate _).bump rfl rfl _ _
  · exact hgate _

theorem mem_of_poll? {s : State} {i : Nat} {p : Poll} (h : s.poll? i = some p) : p ∈ s.polls :=
  List.mem_of_find?_eq_some h

theorem mem_of_barrier? {s : State} {i : Nat} {b : Barrier} (h : s.barrier? i = some b) :
    b ∈ s.barriers :=
  List.mem_of_find?_eq_some h

theorem step_gate {s t : State} {event : Event} (hgate : Gate env s)
    (hok : DrainedQueue env s event) (hstep : step env s event = some t) : Gate env t := by
  have hlt : ∀ b ∈ s.barriers, b.start < s.now + 1 := fun b hb => Nat.lt_succ_of_le (hgate.past b hb)
  have h : Gate env { s with now := s.now + 1, passed := none } :=
    hgate.mono rfl rfl (List.Subset.refl _) (List.Subset.refl _) (List.Subset.refl _)
      (Nat.le_succ _) (by simp)
  cases step_cases hstep with
  | push d => exact h.push hlt
  | pollStart => exact h.pollStart _ _ _
  | dequeue i n => exact h.dequeue i n
  | dispatch hp hbatch =>
    refine (h.dropPoll _).dispatch fun hcurrent => ?_
    exact h.polls _ (mem_of_poll? hp) hcurrent _ hbatch
  | pollEnds i => exact h.dropPoll i
  | pollResyncs i => exact (h.dropPoll i).bump rfl rfl _ _
  | connect => exact h.bump rfl rfl _ _
  | restore => exact h.bump rfl rfl _ _
  | restoreTrading =>
    exact (h.bump rfl rfl _ _).addBarrier hok (fun p hp => Nat.lt_succ_of_le (h.epochs p hp)) rfl
  | orderGap =>
    exact (h.bump rfl rfl _ _).addBarrier hok (fun p hp => Nat.lt_succ_of_le (h.epochs p hp)) rfl
  | passes hb hstart hp =>
    subst hstart
    exact h.dropBarrier _ (h.observed _ (mem_of_barrier? hb) _ hp)
  | waits i => exact h.setWaiting i
  | resumes hb hstart hwait =>
    subst hstart
    exact h.dropBarrier _ (h.woken _ (mem_of_barrier? hb) _ hwait)
  | abort i =>
    exact h.mono rfl rfl (List.Subset.refl _) (List.Subset.refl _) List.filter_sublist.subset
      (Nat.le_refl _) h.passed
  | client hclock =>
    exact h.mono rfl rfl (List.Subset.refl _) (List.Subset.refl _) (List.Subset.refl _)
      (Nat.le_refl _) h.passed

theorem run_gate {trace : List Event} {s : State}
    (h : (machine env).Run (DrainedQueue env) trace s) : Gate env s := by
  refine h.invariant (I := Gate env) ?_ fun _ _ _ => step_gate
  rintro _ rfl
  exact ⟨fun _ hb => by simp at hb, fun _ hp => by simp at hp, fun _ hb => by simp at hb,
    fun _ hb => by simp at hb, fun _ hb => by simp at hb, fun _ hp => by simp at hp,
    fun _ _ hp => by simp at hp⟩

/-- In a run whose barriers start over a drained queue, the row that lets a barrier through its gate
was pushed after the barrier started. -/
theorem gate_row_is_fresh {trace : List Event} {s : State}
    (h : (machine env).Run (DrainedQueue env) trace s) (start pushed : Nat) :
    s.passed = some (start, pushed) → start < pushed :=
  (run_gate h).passed start pushed

def openEnv : Env where
  upper := asciiUpper
  decimal text := if text = "0" then some (some 0) else none
  accepts := ⟨fun _ => true, fun _ => true⟩
  instrumentIdOk _ := true
  source := {}

def twoLong : Delivery where
  row := .instrument { symbol := some "MNQZ6", exchange := some "CME", netQuantity := some 2 }
  pushed := 0

theorem gate_row_is_fresh_gap : ∃ s, (machine openEnv).exec (DrainedQueue openEnv) {}
    [.orderGap, .pollStart, .push twoLong, .dequeue 0 1, .dispatch 0, .awaitPnl 0] = some s ∧
      s.passed = some (1, 3) ∧ 1 < 3 := by
  obtain ⟨s, hs, hpassed⟩ : ∃ s, (machine openEnv).exec (DrainedQueue openEnv) {}
      [.orderGap, .pollStart, .push twoLong, .dequeue 0 1, .dispatch 0, .awaitPnl 0] = some s ∧
      s.passed = some (1, 3) := ⟨_, rfl, rfl⟩
  exact ⟨s, hs, hpassed, gate_row_is_fresh (Machine.run_of_exec rfl hs) 1 3 hpassed⟩

/-- A row that was in the session queue when an order gap was found lets the barrier through. -/
theorem gate_row_from_queue : ¬ ∀ (env : Env) (trace : List Event) (s : State),
    (machine env).Run Machine.Free trace s →
      ∀ start pushed, s.passed = some (start, pushed) → start < pushed := by
  intro h
  obtain ⟨s, hs, hpassed⟩ : ∃ s, (machine openEnv).exec Machine.Free {}
      [.push twoLong, .orderGap, .pollStart, .dequeue 0 1, .dispatch 0, .awaitPnl 0] = some s ∧
      s.passed = some (2, 1) := ⟨_, rfl, rfl⟩
  have := h openEnv _ s (Machine.run_of_exec rfl hs) 2 1 hpassed
  omega

end RithmicNt.Adapter.Pnl
