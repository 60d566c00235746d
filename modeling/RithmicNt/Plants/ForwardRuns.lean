import RithmicNt.Plants.Forward

/-! Runs of the forwarders of a plant beside the consumer of its lane: nothing that the plant
broadcasts is lost unseen between the two ends. -/

namespace RithmicNt.Host.Streams

/-! ### What reading a lane leaves as it is -/

variable {α : Type} {l l' l'' : Lane α}

structure Kept (l l' : Lane α) : Prop where
  generation : l'.generation = l.generation
  up : l'.up = l.up
  closed : l'.closed = l.closed
  fail : l'.fail = l.fail

theorem Kept.trans (h : Kept l l') (h' : Kept l' l'') : Kept l l'' :=
  ⟨h'.generation.trans h.generation, h'.up.trans h.up, h'.closed.trans h.closed,
    h'.fail.trans h.fail⟩

theorem kept_dropCarry (l : Lane α) : Kept l l.dropCarry := by
  unfold Lane.dropCarry
  split <;> exact ⟨rfl, rfl, rfl, rfl⟩

theorem kept_drain (l : Lane α) (limit g : Nat) : Kept l (l.drain limit g).1 :=
  ⟨rfl, rfl, rfl, rfl⟩

theorem kept_finish (l : Lane α) (batch : List (Msg α)) (limit g : Nat) :
    Kept l (l.finish batch limit g).1 := by
  unfold Lane.finish
  dsimp only
  generalize (if 0 < l.stale then Msg.gap l.stale :: batch else batch) = all
  split
  · exact ⟨rfl, rfl, rfl, rfl⟩
  · split <;> exact ⟨rfl, rfl, rfl, rfl⟩

theorem kept_read (l : Lane α) (limit g g' : Nat) :
    Kept l ((l.drain limit g).1.finish (l.drain limit g).2 limit g').1 :=
  (kept_drain l limit g).trans (kept_finish _ _ _ _)

/-- What a consumer's step leaves, and what it may answer. -/
structure Passed (l : Lane α) (r : Lane α × Option (Taken α)) : Prop where
  generation : r.1.generation = l.generation
  up : r.1.up = l.up
  closed : r.1.closed = l.closed
  fail : r.1.fail = none ∨ r.1.fail = l.fail
  toldClosed : r.2 = some .closed → l.up = true ∧ l.closed = true
  toldFail : ∀ f, r.2 = some (.fail f) → l.up = true ∧ l.fail = some f

theorem Kept.passed {r : Lane α × Option (Taken α)} (h : Kept l l') (hr : Passed l' r) :
    Passed l r := by
  refine ⟨hr.generation.trans h.generation, hr.up.trans h.up, hr.closed.trans h.closed, ?_, ?_, ?_⟩
  · rw [← h.fail]
    exact hr.fail
  · rw [← h.up, ← h.closed]
    exact hr.toldClosed
  · rw [← h.up, ← h.fail]
    exact hr.toldFail

theorem passed_pass (l : Lane α) (limit : Nat) (late : Bool) : Passed l (l.pass limit late) := by
  have hread := (kept_dropCarry l).trans (kept_read l.dropCarry limit l.owed l.owed)
  unfold Lane.pass
  dsimp only
  rcases hfinish : (l.dropCarry.drain limit l.owed).1.finish (l.dropCarry.drain limit l.owed).2 limit
    l.owed with ⟨l₂, reply⟩
  rw [hfinish] at hread
  refine hread.passed ?_
  cases reply with
  | some out => exact ⟨rfl, rfl, rfl, .inr rfl, by simp, by simp⟩
  | none =>
    dsimp only
    split
    · exact ⟨rfl, rfl, rfl, .inr rfl, by simp, by simp⟩
    · next hup =>
      have hup : l₂.up = true := by simpa using hup
      cases hfail : l₂.fail with
      | some failure =>
        dsimp only
        have hlate := kept_read { l₂ with fail := none } limit l₂.generation
          (Lane.drain { l₂ with fail := none } limit l₂.generation).1.generation
        rcases hdrained : (Lane.drain { l₂ with fail := none } limit l₂.generation).1.finish
          (Lane.drain { l₂ with fail := none } limit l₂.generation).2 limit
          (Lane.drain { l₂ with fail := none } limit l₂.generation).1.generation with ⟨l₃, reply⟩
        rw [hdrained] at hlate
        cases reply with
        | some out =>
          exact ⟨hlate.generation, hlate.up, hlate.closed, .inr hfail.symm, by simp, by simp⟩
        | none =>
          refine ⟨hlate.generation, hlate.up, hlate.closed, .inl hlate.fail, by simp, ?_⟩
          rintro f ⟨⟩
          exact ⟨hup, hfail⟩
      | none =>
        dsimp only
        split
        · next hclosed =>
          have hlate := kept_read l₂ limit l₂.generation (l₂.drain limit l₂.generation).1.generation
          rcases hdrained : (l₂.drain limit l₂.generation).1.finish
            (l₂.drain limit l₂.generation).2 limit (l₂.drain limit l₂.generation).1.generation
            with ⟨l₃, reply⟩
          rw [hdrained] at hlate
          cases reply with
          | some out => exact ⟨hlate.generation, hlate.up, hlate.closed, .inr hlate.fail,
              by simp, by simp⟩
          | none => exact ⟨hlate.generation, hlate.up, hlate.closed, .inr hlate.fail,
              fun _ => ⟨hup, hclosed⟩, by simp⟩
        · split <;> exact ⟨rfl, rfl, rfl, .inr rfl, by simp, by simp⟩

theorem passed_receive (l : Lane α) (limit : Nat) (late : Bool) (t : Tagged α) :
    Passed l (l.receive limit late t) := by
  unfold Lane.receive
  dsimp only
  split
  · have hread := kept_finish
      { l with
        rx := (drainRx t.generation (limit - 1) l.rx).2.2
        stale := l.stale + (drainRx t.generation (limit - 1) l.rx).2.1 }
      (t.msg :: (drainRx t.generation (limit - 1) l.rx).1) limit t.generation
    rcases hfinish : Lane.finish
      { l with
        rx := (drainRx t.generation (limit - 1) l.rx).2.2
        stale := l.stale + (drainRx t.generation (limit - 1) l.rx).2.1 }
      (t.msg :: (drainRx t.generation (limit - 1) l.rx).1) limit t.generation with ⟨l₂, reply⟩
    rw [hfinish] at hread
    cases reply with
    | some out => exact ⟨hread.generation, hread.up, hread.closed, .inr hread.fail, by simp, by simp⟩
    | none =>
      have hsame : Kept l l₂ := ⟨hread.generation, hread.up, hread.closed, hread.fail⟩
      exact hsame.passed (passed_pass _ _ _)
  · have hsame : Kept l { l with stale := l.stale + 1 } := ⟨rfl, rfl, rfl, rfl⟩
    exact hsame.passed (passed_pass _ _ _)

variable {s t : Traffic α} {a : Event α}

theorem passed_of_step (ha : Plants.Forward.consumes a = true) (h : s.step a = some t) :
    t.sent = s.sent ∧ t.txs = s.txs ∧ Passed s.lane (t.lane, t.reply) := by
  cases a with
  | take max late =>
    simp only [Traffic.step] at h
    split at h
    · cases h
      exact ⟨rfl, rfl, passed_pass _ _ _⟩
    · cases h
  | recv late =>
    obtain ⟨limit, -, h⟩ := Option.bind_eq_some_iff.mp h
    unfold Traffic.receive at h
    split at h
    · cases h
    · next rest _ =>
      cases h
      have hsame : Kept s.lane { s.lane with rx := rest } := ⟨rfl, rfl, rfl, rfl⟩
      exact ⟨rfl, rfl, hsame.passed (passed_receive _ _ _ _)⟩
  | notified late =>
    obtain ⟨limit, -, rfl⟩ := Option.map_eq_some_iff.mp h
    exact ⟨rfl, rfl, passed_pass _ _ _⟩
  | timeout =>
    obtain ⟨limit, -, rfl⟩ := Option.map_eq_some_iff.mp h
    exact ⟨rfl, rfl, rfl, rfl, rfl, .inr rfl, by simp, by simp⟩
  | cancel =>
    obtain ⟨limit, -, rfl⟩ := Option.map_eq_some_iff.mp h
    exact ⟨rfl, rfl, rfl, rfl, rfl, .inr rfl, by simp, by simp⟩
  | _ => cases ha

theorem notDetached_of_up (hup : s.lane.up = true) : NotDetached s a := by
  unfold NotDetached
  split
  · intro _ _ hdown
    rw [hup] at hdown
    cases hdown
  · trivial

theorem owing_attach (hs : s.Sound) (h : s.step .attach = some t) : t.Owing := by
  cases h
  have hnew : s.lane.generation + 1 ∉ s.txs := by
    intro hmem
    have := (hs.txs _ hmem).1
    omega
  obtain ⟨hsent, hothers⟩ := eventsOf_eq_nil_of_notMem hs hnew
  change eventsOf (s.lane.generation + 1) s.sent = eventsOf (s.lane.generation + 1) s.delivered ++
    eventsOf (s.lane.generation + 1) s.lane.stock
  rw [hsent, hothers]

end RithmicNt.Host.Streams

namespace RithmicNt.Plants.Forward

open RithmicNt.Lib RithmicNt.Lib.Broadcast RithmicNt.Host.Streams RithmicNt.Gateway.Failures

section Runs

variable {ι α : Type}

/-- What attachment `g` has queued. -/
def sentBy (s : Traffic α) (g : Nat) : List (Msg α) :=
  (s.sent.filter (·.generation = g)).map Tagged.msg

/-- The consumer has been handed every event of the lane's attachment. -/
def Handed (s : Traffic α) : Prop :=
  eventsOf s.lane.generation s.delivered = eventsOf s.lane.generation s.sent

def Recorded (plant : String) (conv : Conversion ι α) (f : Failure) (items : List ι) : Prop :=
  ∃ item ∈ items, failureOf plant (conv item) = some f

variable (plant : String) (conv : Conversion ι α)

structure Inv (s : State ι α) : Prop where
  sound : s.traffic.Sound
  owing : s.traffic.lane.up = true → s.traffic.Owing
  attached : ∀ g, Attached conv (sentBy s.traffic g) (s.feed g) (s.task g) (s.dropped g)
  closed : s.traffic.lane.up = true →
    (s.traffic.lane.closed = true ↔ s.task s.traffic.lane.generation = .stopped)
  failed : s.traffic.lane.up = true → ∀ f, s.traffic.lane.fail = some f →
    Recorded plant conv f (s.feed s.traffic.lane.generation).behind
  toldClosed : s.traffic.reply = some .closed →
    s.traffic.lane.up = true ∧ s.traffic.lane.closed = true ∧ Handed s.traffic
  toldFail : ∀ f, s.traffic.reply = some (.fail f) →
    s.traffic.lane.up = true ∧ Handed s.traffic ∧
      Recorded plant conv f (s.feed s.traffic.lane.generation).behind

variable {plant conv} {s t : State ι α} {g : Nat}

theorem sentBy_queue (s : Traffic α) (g : Nat) (msg : Msg α) (i : Nat) :
    sentBy (s.queue g msg) i = sentBy s i ++ if g = i then [msg] else [] := by
  unfold sentBy Traffic.queue
  split
  · next h => simp [h]
  · next h => simp [h]

theorem sentBy_of_notMem {s : Traffic α} (hs : s.Sound) (hg : g ∉ s.txs) : sentBy s g = [] := by
  unfold sentBy
  rw [List.map_eq_nil_iff, List.filter_eq_nil_iff]
  intro u hu
  have hmem := hs.sent u hu
  simp only [decide_eq_true_eq]
  rintro rfl
  exact hg hmem

theorem Recorded.mono {f : Failure} {items items' : List ι} (h : Recorded plant conv f items)
    (hsub : ∀ i ∈ items, i ∈ items') : Recorded plant conv f items' := by
  obtain ⟨item, hitem, hf⟩ := h
  exact ⟨item, hsub item hitem, hf⟩

namespace Inv

/-- One attachment goes on, and neither ends nor tells its lane. -/
theorem alone (h : Inv plant conv s) (htraffic : t.traffic = s.traffic)
    (hothers : ∀ i, i ≠ g → t.feed i = s.feed i ∧ t.task i = s.task i ∧ t.dropped i = s.dropped i)
    (hg : Attached conv (sentBy s.traffic g) (t.feed g) (t.task g) (t.dropped g))
    (hstopped : t.task g = .stopped ↔ s.task g = .stopped)
    (hgrown : ∀ item ∈ (s.feed g).behind, item ∈ (t.feed g).behind) : Inv plant conv t := by
  have hbehind : ∀ i, ∀ item ∈ (s.feed i).behind, item ∈ (t.feed i).behind := by
    intro i
    by_cases hi : i = g
    · rw [hi]
      exact hgrown
    · rw [(hothers i hi).1]
      exact fun _ => id
  refine ⟨?_, ?_, ?_, ?_, ?_, ?_, ?_⟩ <;> rw [htraffic]
  · exact h.sound
  · exact h.owing
  · intro i
    by_cases hi : i = g
    · rw [hi]
      exact hg
    · obtain ⟨hfeed, htask, hdropped⟩ := hothers i hi
      rw [hfeed, htask, hdropped]
      exact h.attached i
  · intro hup
    rw [h.closed hup]
    by_cases hi : s.traffic.lane.generation = g
    · rw [hi]
      exact hstopped.symm
    · rw [(hothers _ hi).2.1]
  · intro hup f hf
    exact (h.failed hup f hf).mono (hbehind _)
  · exact h.toldClosed
  · intro f hf
    obtain ⟨hup, hhanded, hrecorded⟩ := h.toldFail f hf
    exact ⟨hup, hhanded, hrecorded.mono (hbehind _)⟩

/-- The consumer goes on. -/
theorem consumed (h : Inv plant conv s) {a : Host.Streams.Event α} {traffic : Traffic α}
    (ha : consumes a = true) (hstep : s.traffic.step a = some traffic) :
    Inv plant conv { s with traffic } := by
  obtain ⟨hsent, -, hpassed⟩ := passed_of_step ha hstep
  have hgeneration : traffic.lane.generation = s.traffic.lane.generation := hpassed.generation
  have hup : traffic.lane.up = s.traffic.lane.up := hpassed.up
  have hclosed : traffic.lane.closed = s.traffic.lane.closed := hpassed.closed
  have hsentBy : ∀ g, sentBy traffic g = sentBy s.traffic g := by
    intro g
    rw [sentBy, hsent, sentBy]
  have hsettled : s.traffic.lane.up = true → traffic.Settled := fun hup =>
    settled_step h.sound (h.owing hup) (notDetached_of_up hup) hstep
  refine ⟨sound_step h.sound hstep, ?_, ?_, ?_, ?_, ?_, ?_⟩
  · intro (hnow : traffic.lane.up = true)
    rw [hup] at hnow
    exact owing_step h.sound (h.owing hnow) (notDetached_of_up hnow) hstep
  · intro g
    change Attached conv (sentBy traffic g) _ _ _
    rw [hsentBy]
    exact h.attached g
  · change traffic.lane.up = true → (traffic.lane.closed = true ↔ s.task traffic.lane.generation = _)
    rw [hup, hclosed, hgeneration]
    exact h.closed
  · change traffic.lane.up = true → ∀ f, traffic.lane.fail = some f →
      Recorded plant conv f (s.feed traffic.lane.generation).behind
    rw [hup, hgeneration]
    intro hnow f hf
    rcases hpassed.fail with hnone | hsame
    · rw [show traffic.lane.fail = none from hnone] at hf
      cases hf
    · exact h.failed hnow f ((show traffic.lane.fail = _ from hsame).symm.trans hf)
  · intro htold
    obtain ⟨hnow, hend⟩ := hpassed.toldClosed htold
    exact ⟨hup.trans hnow, hclosed.trans hend, (hsettled hnow).closed htold⟩
  · intro f htold
    obtain ⟨hnow, hfail⟩ := hpassed.toldFail f htold
    refine ⟨hup.trans hnow, (hsettled hnow).fail f htold, ?_⟩
    change Recorded plant conv f (s.feed traffic.lane.generation).behind
    rw [hgeneration]
    exact h.failed hnow f hfail

/-- A step of a sender: the consumer is told nothing by it. -/
theorem told (h : Inv plant conv s) {a : Host.Streams.Event α}
    (hstep : s.traffic.step a = some t.traffic) (ha : NotDetached s.traffic a)
    (hup : t.traffic.lane.up = true → s.traffic.lane.up = true) (hreply : t.traffic.reply = none)
    (hattached : ∀ g, Attached conv (sentBy t.traffic g) (t.feed g) (t.task g) (t.dropped g))
    (hclosed : t.traffic.lane.up = true →
      (t.traffic.lane.closed = true ↔ t.task t.traffic.lane.generation = .stopped))
    (hfailed : t.traffic.lane.up = true → ∀ f, t.traffic.lane.fail = some f →
      Recorded plant conv f (t.feed t.traffic.lane.generation).behind) : Inv plant conv t := by
  refine ⟨sound_step h.sound hstep, fun hnow => ?_, hattached, hclosed, hfailed, ?_, ?_⟩
  · exact owing_step h.sound (h.owing (hup hnow)) ha hstep
  · intro htold
    rw [hreply] at htold
    cases htold
  · intro f htold
    rw [hreply] at htold
    cases htold

theorem setTask_self (s : State ι α) (g : Nat) (task : Forwarder α) : (s.setTask g task).task g = task :=
  Function.update_self ..

theorem setTask_of_ne (s : State ι α) {g i : Nat} (task : Forwarder α) (hi : i ≠ g) :
    (s.setTask g task).task i = s.task i :=
  Function.update_of_ne hi ..

theorem setFeed_self (s : State ι α) (g : Nat) (feed : Receiver ι) : (s.setFeed g feed).feed g = feed :=
  Function.update_self ..

theorem setFeed_of_ne (s : State ι α) {g i : Nat} (feed : Receiver ι) (hi : i ≠ g) :
    (s.setFeed g feed).feed i = s.feed i :=
  Function.update_of_ne hi ..

/-- The task of one attachment goes on by itself. -/
theorem works (h : Inv plant conv s) {feed : Receiver ι} {task : Forwarder α}
    (hg : Attached conv (sentBy s.traffic g) feed task (s.dropped g))
    (hstopped : task = .stopped ↔ s.task g = .stopped)
    (hgrown : ∀ item ∈ (s.feed g).behind, item ∈ feed.behind) :
    Inv plant conv ((s.setFeed g feed).setTask g task) := by
  refine h.alone (g := g) rfl (fun i hi => ⟨setFeed_of_ne s feed hi, setTask_of_ne _ task hi, rfl⟩) ?_ ?_ ?_
  · rw [setTask_self]
    change Attached conv _ ((s.setFeed g feed).feed g) task (s.dropped g)
    rw [setFeed_self]
    exact hg
  · rw [setTask_self]
    exact hstopped
  · change ∀ item ∈ _, item ∈ ((s.setFeed g feed).feed g).behind
    rw [setFeed_self]
    exact hgrown

theorem setFeed_feed (s : State ι α) (g : Nat) : s.setFeed g (s.feed g) = s := by
  simp [State.setFeed]

theorem setTask_task (s : State ι α) (g : Nat) : s.setTask g (s.task g) = s := by
  simp [State.setTask]

/-- Only the task moves. -/
theorem moves (h : Inv plant conv s) {task : Forwarder α}
    (hg : Attached conv (sentBy s.traffic g) (s.feed g) task (s.dropped g))
    (hstopped : task = .stopped ↔ s.task g = .stopped) : Inv plant conv (s.setTask g task) := by
  have hworks : Inv plant conv ((s.setFeed g (s.feed g)).setTask g task) :=
    h.works hg hstopped fun _ hi => hi
  rwa [setFeed_feed] at hworks

/-- Only the receiver moves. -/
theorem reads (h : Inv plant conv s) {feed : Receiver ι}
    (hg : Attached conv (sentBy s.traffic g) feed (s.task g) (s.dropped g))
    (hgrown : ∀ item ∈ (s.feed g).behind, item ∈ feed.behind) :
    Inv plant conv (s.setFeed g feed) := by
  have hworks : Inv plant conv ((s.setFeed g feed).setTask g (s.task g)) := h.works hg Iff.rfl hgrown
  have hsame : (s.setFeed g feed).setTask g (s.task g) = s.setFeed g feed := setTask_task (s.setFeed g feed) g
  rwa [hsame] at hworks

theorem queued {msg : Msg α} {traffic : Traffic α} (hsend : s.traffic.send g msg = some traffic) :
    traffic = s.traffic.queue g msg ∧
      ∃ a, s.traffic.step a = some traffic ∧ NotDetached s.traffic a := by
  have hqueue : traffic = s.traffic.queue g msg := by
    unfold Traffic.send at hsend
    split at hsend
    · exact (Option.some.inj hsend).symm
    · cases hsend
  cases msg with
  | event e => exact ⟨hqueue, .event g (.other e), hsend, trivial⟩
  | gap skipped => exact ⟨hqueue, .gap g skipped, hsend, trivial⟩

/-- The lane has room for the message in hand. -/
theorem sends (h : Inv plant conv s) {msg : Msg α} {traffic : Traffic α}
    (htask : s.task g = .sending msg) (hsend : s.traffic.send g msg = some traffic) :
    Inv plant conv ({ s with traffic }.setTask g .receiving) := by
  obtain ⟨rfl, a, hstep, ha⟩ := queued hsend
  have hattached := h.attached g
  rw [htask] at hattached
  refine h.told hstep ha id rfl (fun i => ?_) (fun hup => ?_) h.failed
  · change Attached conv (sentBy (s.traffic.queue g msg) i) _ _ _
    rw [sentBy_queue]
    by_cases hi : i = g
    · subst hi
      rw [if_pos rfl, setTask_self]
      exact hattached.sends
    · rw [if_neg fun hgi => hi hgi.symm, List.append_nil, setTask_of_ne _ _ hi]
      exact h.attached i
  · change s.traffic.lane.closed = true ↔
      ({ s with traffic := s.traffic.queue g msg }.setTask g .receiving).task
        s.traffic.lane.generation = .stopped
    rw [h.closed hup]
    by_cases hg : s.traffic.lane.generation = g
    · rw [hg, setTask_self, htask]
      simp
    · rw [setTask_of_ne _ _ hg]

/-- The failure of an item that lies behind the receiver is recorded. -/
theorem fails (h : Inv plant conv s) {f : Failure} (hf : Recorded plant conv f (s.feed g).behind) :
    Inv plant conv (s.fail g f) := by
  have hkept : (s.traffic.lane.record g f).up = s.traffic.lane.up ∧
      (s.traffic.lane.record g f).closed = s.traffic.lane.closed ∧
      (s.traffic.lane.record g f).generation = s.traffic.lane.generation := by
    unfold Lane.record
    split <;> exact ⟨rfl, rfl, rfl⟩
  obtain ⟨hup, hclosed, hgeneration⟩ := hkept
  refine h.told (a := .fail g f) rfl trivial (fun hnow => hup ▸ hnow) rfl h.attached ?_ ?_
  · change (s.traffic.lane.record g f).up = true → ((s.traffic.lane.record g f).closed = true ↔
      s.task (s.traffic.lane.record g f).generation = .stopped)
    rw [hup, hclosed, hgeneration]
    exact h.closed
  · change (s.traffic.lane.record g f).up = true → ∀ f', (s.traffic.lane.record g f).fail = some f' →
      Recorded plant conv f' (s.feed (s.traffic.lane.record g f).generation).behind
    rw [hup, hgeneration]
    intro hnow f' hf'
    unfold Lane.record at hf'
    split at hf'
    · next hg =>
      cases hf'
      rw [hg]
      exact hf
    · exact h.failed hnow f' hf'

/-- The task closes its lane and stops. -/
theorem stops (h : Inv plant conv s) (hhand : (s.task g).hand = [])
    (hend : (s.feed g).closed = true ∧ (s.feed g).behind = (s.feed g).sent ∨
      Panicked conv (s.feed g).behind) :
    Inv plant conv ((s.close g).setTask g .stopped) := by
  have hkept : (s.traffic.lane.closeTx g).up = s.traffic.lane.up ∧
      (s.traffic.lane.closeTx g).fail = s.traffic.lane.fail ∧
      (s.traffic.lane.closeTx g).generation = s.traffic.lane.generation := by
    unfold Lane.closeTx
    split <;> exact ⟨rfl, rfl, rfl⟩
  obtain ⟨hup, hfail, hgeneration⟩ := hkept
  refine h.told (a := .closeTx g) rfl trivial (fun hnow => hup ▸ hnow) rfl (fun i => ?_) ?_ ?_
  · change Attached conv (sentBy s.traffic i) (s.feed i) _ (s.dropped i)
    by_cases hi : i = g
    · subst hi
      rw [setTask_self]
      exact (h.attached i).stops hhand hend
    · rw [setTask_of_ne _ _ hi]
      exact h.attached i
  · change (s.traffic.lane.closeTx g).up = true → ((s.traffic.lane.closeTx g).closed = true ↔
      ((s.close g).setTask g .stopped).task (s.traffic.lane.closeTx g).generation = .stopped)
    rw [hup, hgeneration]
    intro hnow
    unfold Lane.closeTx
    split
    · next hg =>
      rw [hg, setTask_self]
      exact iff_of_true rfl rfl
    · next hg =>
      rw [setTask_of_ne _ _ hg]
      exact h.closed hnow
  · change (s.traffic.lane.closeTx g).up = true → ∀ f, (s.traffic.lane.closeTx g).fail = some f →
      Recorded plant conv f (s.feed (s.traffic.lane.closeTx g).generation).behind
    rw [hup, hfail, hgeneration]
    exact h.failed

theorem detaches (h : Inv plant conv s) (hg : g ∈ s.traffic.txs) :
    Inv plant conv { s with traffic := s.traffic.setLane (s.traffic.lane.detach g) } := by
  have hstep : s.traffic.step (.detach g) = some (s.traffic.setLane (s.traffic.lane.detach g)) :=
    if_pos hg
  have hsame : (s.traffic.lane.detach g).up = true → s.traffic.lane.detach g = s.traffic.lane := by
    unfold Lane.detach
    split
    · intro hup
      cases hup
    · exact fun _ => rfl
  refine h.told hstep trivial (fun hnow => hsame hnow ▸ hnow) rfl h.attached ?_ ?_
  · intro hnow
    have hlane := hsame hnow
    change (s.traffic.lane.detach g).closed = true ↔ s.task (s.traffic.lane.detach g).generation = _
    rw [hlane]
    exact h.closed (hlane ▸ hnow)
  · intro hnow
    have hlane := hsame hnow
    change ∀ f, (s.traffic.lane.detach g).fail = some f →
      Recorded plant conv f (s.feed (s.traffic.lane.detach g).generation).behind
    rw [hlane]
    exact h.failed (hlane ▸ hnow)

/-- A plant is attached, and its task starts. -/
theorem attaches (h : Inv plant conv s) (hnew : g = s.traffic.lane.generation + 1)
    {traffic : Traffic α} (hstep : s.traffic.step .attach = some traffic) :
    Inv plant conv (({ s with traffic, dropped := Function.update s.dropped g false }.setFeed g
      {}).setTask g .receiving) := by
  have howing := owing_attach h.sound hstep
  have hsound := sound_step h.sound hstep
  cases hstep
  have hunsent : sentBy s.traffic g = [] := by
    refine sentBy_of_notMem h.sound fun hmem => ?_
    have := (h.sound.txs g hmem).1
    omega
  refine ⟨hsound, fun _ => howing, fun i => ?_, ?_, ?_, ?_, ?_⟩
  · change Attached conv (sentBy s.traffic i) (Function.update s.feed g {} i)
      (Function.update s.task g .receiving i) (Function.update s.dropped g false i)
    by_cases hi : i = g
    · rw [hi, Function.update_self, Function.update_self, Function.update_self, hunsent]
      exact attached_fresh
    · rw [Function.update_of_ne hi, Function.update_of_ne hi, Function.update_of_ne hi]
      exact h.attached i
  · intro _
    change false = true ↔ Function.update s.task g .receiving (s.traffic.lane.generation + 1) = _
    rw [← hnew, Function.update_self]
    simp
  · rintro _ f ⟨⟩
  · rintro ⟨⟩
  · rintro f ⟨⟩

/-- What the task of an attachment makes of a message that it has read. -/
theorem handles (h : Inv plant conv s) {item : ι} {feed : Receiver ι} {cap : Nat}
    (htask : s.task g = .receiving) (hrecv : (s.feed g).recv cap = some (.ok item, feed)) :
    Inv plant conv ((s.setFeed g feed).handle plant g (conv item)) := by
  have hattached := h.attached g
  rw [htask] at hattached
  obtain ⟨hbehind, -, -, -⟩ := Receiver.recv_ok hrecv
  have hgrown : ∀ i ∈ (s.feed g).behind, i ∈ feed.behind := by
    intro i hi
    rw [hbehind]
    exact List.mem_append_left _ hi
  have hmem : item ∈ feed.behind := by
    rw [hbehind]
    exact List.mem_append_right _ (List.mem_singleton.mpr rfl)
  have hread : msgsOf (conv item) = [] → Inv plant conv (s.setFeed g feed) := by
    intro hnone
    refine h.reads ?_ hgrown
    rw [htask]
    exact hattached.read hrecv (by rw [hnone]; rfl) (.inl rfl)
  have hfail : ∀ f, msgsOf (conv item) = [] → failureOf plant (conv item) = some f →
      Inv plant conv ((s.setFeed g feed).fail g f) := by
    intro f hnone hf
    refine (hread hnone).fails ⟨item, ?_, hf⟩
    rw [setFeed_self]
    exact hmem
  unfold State.handle
  split
  · next event hconv =>
    refine h.works (hattached.read hrecv ?_ (.inr ⟨msgOf event, rfl⟩)) (by simp [htask]) hgrown
    rw [hconv]
    rfl
  · next hconv => exact hread (by rw [hconv]; rfl)
  · next text hconv => exact hfail _ (by rw [hconv]; rfl) (by rw [hconv]; rfl)
  · next text hconv => exact hfail _ (by rw [hconv]; rfl) (by rw [hconv]; rfl)
  · next other hrithmic htransport hconv =>
    refine hfail _ (by rw [hconv]; rfl) ?_
    rw [hconv]
    cases other with
    | rithmic text => exact absurd rfl (hrithmic text)
    | transport text => exact absurd rfl (htransport text)
    | _ => rfl
  · next hconv =>
    have hfailed := hfail (.rithmic (panicText plant)) (by rw [hconv]; rfl) (by rw [hconv]; rfl)
    have hreceiving : Attached conv (sentBy s.traffic g) feed .receiving (s.dropped g) :=
      hattached.read hrecv (by rw [hconv]; rfl) (.inl rfl)
    have hpanic : Panicked conv feed.behind := ⟨item, by rw [hbehind, List.getLast?_concat], hconv⟩
    refine hfailed.moves ?_ ?_
    · change Attached conv (sentBy s.traffic g) ((s.setFeed g feed).feed g) .closing (s.dropped g)
      rw [setFeed_self]
      exact hreceiving.panics hpanic
    · change Forwarder.closing = .stopped ↔ s.task g = .stopped
      simp [htask]

theorem forward {cap : Nat} (h : Inv plant conv s) (hstep : s.forward cap plant conv g = some t) :
    Inv plant conv t := by
  unfold State.forward at hstep
  split at hstep
  · next htask =>
    obtain ⟨⟨answer, feed⟩, hrecv, rfl⟩ := Option.map_eq_some_iff.mp hstep
    have hattached := h.attached g
    rw [htask] at hattached
    rcases answer with (skipped | _) | item
    · obtain ⟨⟨lost, -, -, hbehind⟩, -, -, -⟩ := Receiver.recv_lagged hrecv
      refine h.works (hattached.lag hrecv) (by simp [htask]) fun i hi => ?_
      rw [hbehind]
      exact List.mem_append_left _ hi
    · obtain ⟨-, hclosed, hall⟩ := Receiver.recv_closed hrecv
      exact h.stops (by rw [htask]; rfl) (.inl ⟨hclosed, hall⟩)
    · exact h.handles htask hrecv
  · next msg htask =>
    obtain ⟨traffic, hsend, rfl⟩ := Option.map_eq_some_iff.mp hstep
    exact h.sends htask hsend
  · next htask =>
    cases hstep
    exact h.stops (by rw [htask]; rfl) (.inr ((h.attached g).closing htask))
  · cases hstep
  · cases hstep

/-- The task is aborted where it waits. -/
theorem cancel (h : Inv plant conv s) (hdropped : s.dropped g = true)
    (hstep : s.cancel g = some t) : Inv plant conv t := by
  have hattached := h.attached g
  rw [hdropped] at hattached
  have haborted : ∀ msg : Option (Msg α), msg.toList = (s.task g).hand → s.task g ≠ .stopped →
      Inv plant conv (s.setTask g (.aborted msg)) := by
    intro msg hhand hne
    refine h.moves ?_ (by simp [hne])
    rw [hdropped]
    exact hattached.abort hhand
  unfold State.cancel at hstep
  split at hstep
  · next htask =>
    cases hstep
    exact haborted none (by rw [htask]; rfl) (by simp [htask])
  · next msg htask =>
    cases hstep
    exact haborted (some msg) (by rw [htask]; rfl) (by simp [htask])
  · cases hstep

theorem step {cap : Nat} {a : Act ι α} (h : Inv plant conv s)
    (hstep : s.step cap plant conv a = some t) : Inv plant conv t := by
  cases a with
  | attach =>
    simp only [State.step] at hstep
    obtain ⟨traffic, hattach, rfl⟩ := Option.map_eq_some_iff.mp hstep
    exact h.attaches rfl hattach
  | push g item =>
    simp only [State.step] at hstep
    split at hstep <;> cases hstep
    next hcan =>
      refine h.reads ((h.attached g).push hcan.2 item) fun i hi => ?_
      rw [Receiver.behind_send (h.attached g).sound]
      exact hi
  | hangUp g =>
    simp only [State.step] at hstep
    split at hstep <;> cases hstep
    exact h.reads (h.attached g).hangUp fun _ hi => hi
  | run g =>
    simp only [State.step] at hstep
    split at hstep
    · exact h.forward hstep
    · cases hstep
  | drop g =>
    simp only [State.step] at hstep
    split at hstep <;> cases hstep
    refine h.alone (g := g) rfl (fun i hi => ⟨rfl, rfl, Function.update_of_ne hi ..⟩) ?_ Iff.rfl
      fun _ hi => hi
    change Attached conv _ _ _ (Function.update s.dropped g true g)
    rw [Function.update_self]
    exact (h.attached g).drop
  | detach g =>
    simp only [State.step] at hstep
    split at hstep
    · obtain ⟨traffic, hdetach, rfl⟩ := Option.map_eq_some_iff.mp hstep
      simp only [Traffic.step] at hdetach
      split at hdetach <;> cases hdetach
      next hg => exact h.detaches hg
    · cases hstep
  | abort g =>
    simp only [State.step] at hstep
    split at hstep
    · next hdropped => exact h.cancel hdropped hstep
    · cases hstep
  | consume a =>
    simp only [State.step] at hstep
    split at hstep
    · next ha =>
      obtain ⟨traffic, hconsume, rfl⟩ := Option.map_eq_some_iff.mp hstep
      exact h.consumed ha hconsume
    · cases hstep

theorem start : Inv plant conv ({} : State ι α) := by
  refine ⟨sound_start, ?_, fun g => attached_fresh, ?_, ?_, ?_, ?_⟩
  · rintro ⟨⟩
  · rintro ⟨⟩
  · rintro ⟨⟩
  · rintro ⟨⟩
  · rintro f ⟨⟩

end Inv

/-- What a plant broadcasts is accounted for, message by message, in what its attachment queues and has in
hand; a consumer that is told of the end of its lane has been handed every event of the attachment, which
read its channel to the end or met a panic; and one that is told of a failure has been handed every event
queued so far, and the failure is that of a message that was read. -/
theorem forwarded_of_run {cap : Nat} {trace : List (Act ι α)}
    (hrun : (machine cap plant conv).Run Machine.Free trace s) :
    (∀ g, Accounts conv (s.feed g).behind (sentBy s.traffic g ++ (s.task g).hand)) ∧
    (s.traffic.reply = some .closed → Handed s.traffic ∧
      (Accounts conv (s.feed s.traffic.lane.generation).sent
          (sentBy s.traffic s.traffic.lane.generation) ∨
        Panicked conv (s.feed s.traffic.lane.generation).behind)) ∧
    ∀ f, s.traffic.reply = some (.fail f) → Handed s.traffic ∧
      Recorded plant conv f (s.feed s.traffic.lane.generation).behind := by
  have hinv : Inv plant conv s := by
    refine hrun.invariant (I := Inv plant conv) ?_ ?_
    · rintro s rfl
      exact Inv.start
    · intro s a t h _ hstep
      exact h.step hstep
  refine ⟨fun g => (hinv.attached g).account, fun htold => ?_, fun f htold => ?_⟩
  · obtain ⟨hup, hclosed, hhanded⟩ := hinv.toldClosed htold
    have hstopped := (hinv.closed hup).mp hclosed
    have hattached := hinv.attached s.traffic.lane.generation
    refine ⟨hhanded, (hattached.stopped hstopped).imp_left fun ⟨_, hall⟩ => ?_⟩
    have haccount := hattached.account
    rw [hstopped, hall] at haccount
    simpa [Forwarder.hand] using haccount
  · obtain ⟨-, hhanded, hrecorded⟩ := hinv.toldFail f htold
    exact ⟨hhanded, hrecorded⟩

/-- A message of zero does not convert. -/
def naturals : Conversion Nat Nat
  | 0 => none
  | n => some (.ok (some (.other n)))

/-- The first two of four messages are lost to a channel for two, and the plant hangs up. -/
theorem forwarded_of_run_hungUp :
    ∃ s : State Nat Nat, (machine 2 "ticker" naturals).Run Machine.Free
      [.attach, .push 1 7, .push 1 8, .push 1 9, .push 1 10, .run 1, .run 1, .run 1, .hangUp 1, .run 1,
        .run 1, .run 1, .run 1, .consume (.take 8 false), .consume (.take 8 false)] s ∧
      s.traffic.reply = some .closed ∧ Handed s.traffic ∧
      Accounts naturals [7, 8, 9, 10] [.gap 2, .event 9, .event 10] := by
  have hexec : ∃ s, (machine 2 "ticker" naturals).exec Machine.Free {}
      [.attach, .push 1 7, .push 1 8, .push 1 9, .push 1 10, .run 1, .run 1, .run 1, .hangUp 1, .run 1,
        .run 1, .run 1, .run 1, .consume (.take 8 false), .consume (.take 8 false)] = some s ∧
      s.traffic.reply = some .closed ∧ (s.feed 1).sent = [7, 8, 9, 10] ∧
      (s.feed 1).behind = [7, 8, 9, 10] ∧ s.traffic.lane.generation = 1 ∧
      sentBy s.traffic 1 = [.gap 2, .event 9, .event 10] :=
    ⟨_, rfl, rfl, rfl, rfl, rfl, rfl⟩
  obtain ⟨s, hexec, htold, hfeed, hbehind, hgeneration, hsent⟩ := hexec
  have hrun := Machine.run_of_exec (M := machine 2 "ticker" naturals) rfl hexec
  obtain ⟨-, hclosed, -⟩ := forwarded_of_run hrun
  obtain ⟨hhanded, haccount⟩ := hclosed htold
  refine ⟨s, hrun, htold, hhanded, ?_⟩
  rw [hgeneration, hfeed, hbehind, hsent] at haccount
  rcases haccount with haccount | ⟨item, hlast, hpanic⟩
  · exact haccount
  · cases hlast
    cases hpanic

end Runs

end RithmicNt.Plants.Forward
