import RithmicNt.Host.Pump

/-! What a recovery restores: it joins only what is held and carried by the rebuilt scope, each
intent at most once in a rebuild, and it resumes with no held intent left out. -/

namespace RithmicNt.Host.Pump

open RithmicNt.Lib State

def Mark.rebuilt? : Mark → Option Recovery
  | .rebuild scope => some scope
  | _ => none

/-- The scope of the last rebuild that started. -/
def lastRebuild (h : List Mark) : Option Recovery := h.findSome? Mark.rebuilt?

/-- The intent was joined since the last rebuild started. -/
def Joined (h : List Mark) (i : Intent) : Prop := .join (i, true) ∈ sinceRebuild h

theorem sinceRebuild_cons {m : Mark} (hm : m.rebuilt? = none) (h : List Mark) :
    sinceRebuild (m :: h) = m :: sinceRebuild h := by
  cases m with
  | rebuild scope => cases hm
  | request | join | sent | pumped => rfl

theorem lastRebuild_cons {m : Mark} (hm : m.rebuilt? = none) (h : List Mark) :
    lastRebuild (m :: h) = lastRebuild h := by
  simp [lastRebuild, hm]

theorem sinceRebuild_joins (l : List Join) (h : List Mark) :
    sinceRebuild (l.map .join ++ h) = l.map .join ++ sinceRebuild h := by
  induction l with
  | nil => rfl
  | cons j l ih =>
    rw [List.map_cons, List.cons_append, sinceRebuild_cons rfl, ih]
    rfl

theorem lastRebuild_joins (l : List Join) (h : List Mark) :
    lastRebuild (l.map .join ++ h) = lastRebuild h := by
  induction l with
  | nil => rfl
  | cons j l ih =>
    rw [List.map_cons, List.cons_append, lastRebuild_cons rfl, ih]

/-- A mark that is neither a rebuild nor a join. -/
def Mark.Plain : Mark → Prop
  | .rebuild _ | .join _ => False
  | .request | .sent _ | .pumped => True

theorem Mark.Plain.rebuilt? {m : Mark} (h : m.Plain) : m.rebuilt? = none := by
  cases m with
  | rebuild | join => cases h
  | request | sent | pumped => rfl

theorem joined_cons {m : Mark} (hm : m.Plain) (h : List Mark) (i : Intent) :
    Joined (m :: h) i ↔ Joined h i := by
  unfold Joined
  rw [sinceRebuild_cons hm.rebuilt?]
  cases m with
  | rebuild | join => cases hm
  | request | sent | pumped => simp

theorem count_cons {m : Mark} (hm : m.Plain) (h : List Mark) (i : Intent) :
    (sinceRebuild (m :: h)).count (.join (i, true)) = (sinceRebuild h).count (.join (i, true)) := by
  rw [sinceRebuild_cons hm.rebuilt?]
  cases m with
  | rebuild | join => cases hm
  | request | sent | pumped => simp

theorem joined_joins (l : List Join) (h : List Mark) (i : Intent) :
    Joined (l.reverse.map .join ++ h) i ↔ (i, true) ∈ l ∨ Joined h i := by
  unfold Joined
  rw [sinceRebuild_joins]
  simp

theorem count_joins (l : List Join) (h : List Mark) (i : Intent) :
    (sinceRebuild (l.reverse.map .join ++ h)).count (.join (i, true)) =
      l.count (i, true) + (sinceRebuild h).count (.join (i, true)) := by
  rw [sinceRebuild_joins, List.count_append, List.count_map_of_injective _ _ (fun _ _ h => by
    cases h; rfl), List.count_reverse]

theorem count_markAll (l : List MdIntent) (store : IntentStore) (i : Intent) :
    (markAll store l).count i = store.count i := by
  induction l generalizing store with
  | nil => rfl
  | cons j l ih =>
    rw [markAll, List.foldl_cons]
    exact (ih _).trans (store.count_markDegraded j i)

theorem mem_degraded_markAll {l : List MdIntent} {store : IntentStore} {i : MdIntent}
    (hi : i ∈ l) (hheld : 0 < store.count (.md i)) : i ∈ (markAll store l).degraded := by
  have hkeep : ∀ (l : List MdIntent) (store : IntentStore), i ∈ store.degraded →
      i ∈ (markAll store l).degraded := by
    intro l
    induction l with
    | nil => exact fun _ h => h
    | cons j l ih =>
      intro store h
      refine ih _ ?_
      rw [IntentStore.degraded_markDegraded]
      split
      · exact Finset.mem_insert_of_mem h
      · exact h
  induction l generalizing store with
  | nil => cases hi
  | cons j l ih =>
    rcases List.mem_cons.mp hi with rfl | hi
    · refine hkeep l _ ?_
      rw [IntentStore.degraded_markDegraded, if_pos hheld]
      exact Finset.mem_insert_self _ _
    · exact ih hi (by rw [IntentStore.count_markDegraded]; exact hheld)

theorem count_clearJoined (a : PassAnswers) (l : List MdIntent) (store : IntentStore)
    (i : Intent) : (clearJoined a store l).count i = store.count i := by
  unfold clearJoined
  induction l.filter a.join generalizing store with
  | nil => rfl
  | cons j l ih =>
    rw [List.foldl_cons]
    exact (ih _).trans (store.count_clearDegraded j i)

/-- A restore under way with `pending` still to join in the rebuilt `scope`. -/
structure Underway (s : State) (scope : Recovery) (pending : RestorePlan) : Prop where
  last : lastRebuild s.history = some scope
  distinct : pending.Distinct
  carried : ∀ i, pending.Wants i → scope.carries i.stream = true
  fresh : ∀ i, pending.Wants i → ¬ Joined s.history i
  covered : ∀ i, scope.carries i.stream = true → 0 < s.store.count i →
    Joined s.history i ∨ pending.Wants i

/-- Every intent that `scope` carries and a session holds is joined, or degraded market data. -/
structure Settled (s : State) (scope : Recovery) : Prop where
  last : lastRebuild s.history = some scope
  covered : ∀ i, scope.carries i.stream = true → 0 < s.store.count i →
    Joined s.history i ∨ ∃ m, i = .md m ∧ m ∈ s.store.degraded

def RestoreInv (s : State) : Phase → Prop
  | .rebuildRunning _ scope _ | .planning _ scope _ =>
    lastRebuild s.history = some scope ∧ ∀ i, ¬ Joined s.history i
  | .restoring _ scope _ _ pending | .restored _ scope _ pending => Underway s scope pending
  | .finishing _ scope _ => Settled s scope
  | _ => True

def JoinedOnce (s : State) : Prop :=
  ∀ i, (sinceRebuild s.history).count (.join (i, true)) ≤ 1

/-- A change of the store that only takes holders away, and of no mark of an intent still held. -/
structure Shrinks (old new : IntentStore) : Prop where
  count : ∀ i, new.count i ≤ old.count i
  degraded : ∀ m ∈ old.degraded, 0 < new.count (.md m) → m ∈ new.degraded

theorem shrinks_forget (store : IntentStore) (i : Intent) : Shrinks store (store.forget i).1 := by
  refine ⟨?_, ?_⟩
  · intro j
    rw [IntentStore.count_forget]
    omega
  · intro m hm hheld
    cases i with
    | md i =>
      rw [IntentStore.count_forget] at hheld
      show m ∈ (store.forgetMd i).1.degraded
      rw [IntentStore.degraded_forgetMd]
      split
      · next hone =>
        refine Finset.mem_erase.mpr ⟨?_, hm⟩
        rintro rfl
        simp [hone] at hheld
      · exact hm
    | pnl | order | brackets => exact hm

theorem Underway.of_shrinks {s t : State} {scope : Recovery} {pending : RestorePlan}
    (h : Underway s scope pending) (hlast : lastRebuild t.history = lastRebuild s.history)
    (hjoined : ∀ i, Joined t.history i ↔ Joined s.history i) (hstore : Shrinks s.store t.store) :
    Underway t scope pending where
  last := hlast.trans h.last
  distinct := h.distinct
  carried := h.carried
  fresh i hi := by
    rw [hjoined i]
    exact h.fresh i hi
  covered i hi hheld := by
    rw [hjoined i]
    exact h.covered i hi (lt_of_lt_of_le hheld (hstore.count i))

theorem Settled.of_shrinks {s t : State} {scope : Recovery} (h : Settled s scope)
    (hlast : lastRebuild t.history = lastRebuild s.history)
    (hjoined : ∀ i, Joined t.history i ↔ Joined s.history i) (hstore : Shrinks s.store t.store) :
    Settled t scope := by
  refine ⟨hlast.trans h.last, ?_⟩
  intro i hi hheld
  rw [hjoined i]
  rcases h.covered i hi (lt_of_lt_of_le hheld (hstore.count i)) with hj | ⟨m, rfl, hm⟩
  · exact .inl hj
  · exact .inr ⟨m, rfl, hstore.degraded m hm hheld⟩

/-- The invariant reads the history only up to plain marks, and the store only downwards. -/
theorem RestoreInv.of_shrinks {s t : State} {p : Phase} (h : RestoreInv s p)
    (hlast : lastRebuild t.history = lastRebuild s.history)
    (hjoined : ∀ i, Joined t.history i ↔ Joined s.history i) (hstore : Shrinks s.store t.store) :
    RestoreInv t p := by
  cases p with
  | rebuildRunning | planning => exact ⟨hlast.trans h.1, fun i => by rw [hjoined i]; exact h.2 i⟩
  | restoring | restored => exact Underway.of_shrinks h hlast hjoined hstore
  | finishing => exact Settled.of_shrinks h hlast hjoined hstore
  | _ => trivial

theorem RestoreInv.of_plain {s t : State} {p : Phase} {m : Mark} (h : RestoreInv s p)
    (hm : m.Plain) (hhistory : t.history = m :: s.history) (hstore : t.store = s.store) :
    RestoreInv t p := by
  refine h.of_shrinks ?_ ?_ ?_
  · rw [hhistory, lastRebuild_cons hm.rebuilt?]
  · intro i
    rw [hhistory, joined_cons hm]
  · rw [hstore]
    exact ⟨fun _ => le_rfl, fun _ hm _ => hm⟩

/-- Outside a restore the invariant does not read the store. -/
theorem RestoreInv.of_store {s t : State} {p : Phase} (h : RestoreInv s p)
    (hp : restoreUnderWay p = false) (hhistory : t.history = s.history) : RestoreInv t p := by
  cases p with
  | rebuildRunning | planning =>
    refine ⟨by rw [hhistory]; exact h.1, fun i => ?_⟩
    rw [hhistory]
    exact h.2 i
  | restoring | restored | finishing => cases hp
  | _ => trivial

theorem wants_heldPlan {store : IntentStore} {pending : RestorePlan} {i : Intent} :
    (heldPlan store pending).Wants i ↔ pending.Wants i ∧ 0 < store.count i := by
  unfold heldPlan
  rw [RestorePlan.wants_retain, wants_restorePlan]

theorem distinct_heldPlan {pending : RestorePlan} (h : pending.Distinct) (store : IntentStore) :
    (heldPlan store pending).Distinct :=
  h.retain _

/-- One pass: what it did not join is pending, and what it joined it joined for the first time. -/
theorem Underway.pass {s t : State} {scope : Recovery} {pending : RestorePlan}
    (h : Underway s scope pending) (a : PassAnswers)
    (hhistory : t.history = (a.joins (heldPlan s.store pending)).reverse.map .join ++ s.history)
    (hstore : t.store = clearJoined a s.store (heldPlan s.store pending).mdIntents) :
    Underway t scope (a.failed (heldPlan s.store pending)) := by
  refine ⟨?_, ?_, ?_, ?_, ?_⟩
  · rw [hhistory, lastRebuild_joins]
    exact h.last
  · exact a.distinct_failed (distinct_heldPlan h.distinct s.store)
  · intro i hi
    exact h.carried i (wants_heldPlan.mp ((a.wants_failed _ i).mp hi).1).1
  · intro i hi
    obtain ⟨hw, hnot⟩ := (a.wants_failed _ i).mp hi
    rw [hhistory, joined_joins]
    rintro (hj | hj)
    · exact hnot hj
    · exact h.fresh i (wants_heldPlan.mp hw).1 hj
  · intro i hi hheld
    rw [hstore, count_clearJoined] at hheld
    rw [hhistory, joined_joins]
    rcases h.covered i hi hheld with hj | hw
    · exact .inl (.inr hj)
    · by_cases hjoin : (i, true) ∈ a.joins (heldPlan s.store pending)
      · exact .inl (.inl hjoin)
      · exact .inr ((a.wants_failed _ i).mpr ⟨wants_heldPlan.mpr ⟨hw, hheld⟩, hjoin⟩)

theorem JoinedOnce.pass {s t : State} {scope : Recovery} {pending : RestorePlan}
    (hone : JoinedOnce s) (h : Underway s scope pending) (a : PassAnswers)
    (hhistory : t.history = (a.joins (heldPlan s.store pending)).reverse.map .join ++ s.history) :
    JoinedOnce t := by
  intro i
  rw [hhistory, count_joins]
  by_cases hjoin : (i, true) ∈ a.joins (heldPlan s.store pending)
  · have hfresh := h.fresh i (wants_heldPlan.mp (a.wants_of_mem_joins hjoin)).1
    have hzero : (sinceRebuild s.history).count (.join (i, true)) = 0 :=
      List.count_eq_zero.mpr hfresh
    have hle := List.nodup_iff_count_le_one.mp (a.nodup_joins (distinct_heldPlan h.distinct s.store))
      (i, true)
    rw [hzero]
    exact hle
  · rw [List.count_eq_zero.mpr hjoin, Nat.zero_add]
    exact hone i

/-- The joins that a step issues, held in the state before it and carried by the rebuilt scope. -/
def IssuedHeld (s t : State) : Prop :=
  ∃ issued, t.history = issued ++ s.history ∧ ∀ j, .join j ∈ issued →
    0 < s.store.count j.1 ∧
      ∃ scope, lastRebuild s.history = some scope ∧ scope.carries j.1.stream = true

theorem IssuedHeld.of_plain {s t : State} {l : List Mark} (hl : ∀ m ∈ l, ∀ j, m ≠ .join j)
    (h : t.history = l ++ s.history) : IssuedHeld s t :=
  ⟨l, h, fun _ hj => absurd rfl (hl _ hj _)⟩

structure RecoverInv (s : State) : Prop where
  phase : RestoreInv s s.phase
  once : JoinedOnce s

theorem JoinedOnce.of_plain {s t : State} {m : Mark} (h : JoinedOnce s)
    (hhistory : t.history = m :: s.history) (hm : m.Plain) : JoinedOnce t := by
  intro i
  rw [hhistory, count_cons hm]
  exact h i

theorem joinedOnce_rebuild {s t : State} {scope : Recovery}
    (hhistory : t.history = .rebuild scope :: s.history) : JoinedOnce t := by
  intro i
  rw [hhistory]
  exact Nat.zero_le 1

theorem settled_mark {s : State} {scope : Recovery} {pending : RestorePlan}
    (h : Underway s scope pending) (haccount : pending.hasAccount = false) (t : State)
    (hhistory : t.history = s.history) (hstore : t.store = markAll s.store pending.mdIntents) :
    Settled t scope := by
  refine ⟨by rw [hhistory]; exact h.last, ?_⟩
  intro i hi hheld
  rw [hstore, count_markAll] at hheld
  rw [hhistory, hstore]
  rcases h.covered i hi hheld with hj | hw
  · exact .inl hj
  · right
    simp only [RestorePlan.hasAccount, Bool.or_eq_false_iff] at haccount
    cases i with
    | md m => exact ⟨m, rfl, mem_degraded_markAll hw hheld⟩
    | pnl => exact absurd hw (by simp [RestorePlan.Wants, haccount])
    | order => exact absurd hw (by simp [RestorePlan.Wants, haccount])
    | brackets => exact absurd hw (by simp [RestorePlan.Wants, haccount])

/-- One step of the pump. -/
theorem act_recover {s t : State} {e : Act} (h : RecoverInv s) (hstep : Step s e t) :
    RecoverInv t ∧ IssuedHeld s t := by
  have hquiet : ∀ {u : State}, u.history = s.history → RestoreInv u u.phase →
      RecoverInv u ∧ IssuedHeld s u := by
    intro u hhistory hphase
    refine ⟨⟨hphase, ?_⟩, .of_plain (l := []) (by simp) hhistory⟩
    unfold JoinedOnce
    rw [hhistory]
    exact h.once
  have hp := h.phase
  cases hstep with
  | begin | park | unpark | serveForced | serve | issue | wakeForced | quiesce | notRebuilt | escalate | finishForced
  | finish | retry | giveUp => exact hquiet rfl trivial
  | wake hphase =>
    refine hquiet rfl ?_
    show RestoreInv _ s.phase
    rw [hphase]
    trivial
  | notifyInterrupted | notifyResumed | fail =>
    exact ⟨⟨trivial, h.once.of_plain rfl trivial⟩, .of_plain (l := [_]) (by simp) rfl⟩
  | rebuild =>
    refine ⟨⟨⟨rfl, ?_⟩, joinedOnce_rebuild rfl⟩, .of_plain (l := [_]) (by simp) rfl⟩
    rintro i ⟨⟩
  | rebuilt hphase =>
    rw [hphase] at hp
    exact hquiet rfl hp
  | @plan n scope cause hphase =>
    rw [hphase] at hp
    refine hquiet rfl ⟨hp.1, ?_, ?_, ?_, ?_⟩
    · exact Recovery.distinct_plan (distinct_restorePlan _) scope
    · intro i hi
      exact ((scope.wants_plan _ i).mp hi).2
    · exact fun i _ => hp.2 i
    · intro i hi hheld
      exact .inr ((scope.wants_plan _ i).mpr ⟨(wants_restorePlan _ i).mpr hheld, hi⟩)
  | @pass n p scope cause pending a next hphase hnext =>
    rw [hphase] at hp
    have hp : Underway s scope pending := hp
    refine ⟨⟨?_, h.once.pass hp a rfl⟩, _, rfl, ?_⟩
    · have hunder := hp.pass (t := { s with
        phase := next
        store := clearJoined a s.store (heldPlan s.store pending).mdIntents
        history := (a.joins (heldPlan s.store pending)).reverse.map .join ++ s.history }) a rfl rfl
      rcases hnext with rfl | ⟨-, rfl⟩ <;> exact hunder
    · intro j hj
      have hmem : j ∈ a.joins (heldPlan s.store pending) := by simpa using hj
      obtain ⟨hw, hheld⟩ := wants_heldPlan.mp (a.wants_of_mem_joins (i := j.1) (b := j.2) hmem)
      exact ⟨hheld, scope, hp.last, hp.carried j.1 hw⟩
  | mark hphase haccount =>
    rw [hphase] at hp
    exact hquiet rfl (settled_mark hp haccount _ rfl rfl)

theorem step_recover {s t : State} {e : Event} (h : RecoverInv s) (hstep : s.step e = some t) :
    RecoverInv t ∧ IssuedHeld s t := by
  cases e with
  | pump e =>
    obtain ⟨u, hu, rfl⟩ := Option.map_eq_some_iff.mp hstep
    obtain ⟨hinv, l, hl, hissued⟩ := act_recover h (step_of_act hu)
    refine ⟨⟨hinv.phase.of_plain (m := .pumped) trivial rfl rfl, hinv.once.of_plain rfl trivial⟩,
      .pumped :: l, by simp [hl], ?_⟩
    intro j hj
    exact hissued j (by simpa using hj)
  | request =>
    cases hstep
    exact ⟨⟨h.phase.of_plain (m := .request) trivial rfl rfl, h.once.of_plain rfl trivial⟩,
      .of_plain (l := [_]) (by simp) rfl⟩
  | connected =>
    cases hstep
    exact ⟨⟨h.phase.of_shrinks rfl (fun _ => Iff.rfl) ⟨fun _ => le_rfl, fun _ hm _ => hm⟩, h.once⟩,
      .of_plain (l := []) (by simp) rfl⟩
  | leave i =>
    cases hstep
    exact ⟨⟨h.phase.of_shrinks rfl (fun _ => Iff.rfl) (shrinks_forget s.store i), h.once⟩,
      .of_plain (l := []) (by simp) rfl⟩
  | sessions store =>
    simp only [State.step] at hstep
    split at hstep
    · cases hstep
    · next hnot =>
      cases hstep
      exact ⟨⟨h.phase.of_store (by simpa using hnot) rfl, h.once⟩, .of_plain (l := []) (by simp) rfl⟩

theorem recoverInv_of_run {trace : List Event} {s : State}
    (hr : machine.Run Machine.Free trace s) : RecoverInv s := by
  refine hr.invariant ?_ fun s e t h _ hstep => (step_recover (s := s) h hstep).1
  rintro _ ⟨store, ready, rfl⟩
  exact ⟨trivial, fun i => Nat.zero_le 1⟩

/-- In every state of every run of the pump: a step issues joins only of intents held before it and
carried by the scope last rebuilt; since the start of that rebuild no intent was joined twice; and
when the recovery is done, every intent held and carried by that scope was joined since, but for
market data that is marked degraded. -/
theorem restore_sound {trace : List Event} {s : State} (hr : machine.Run Machine.Free trace s) :
    (∀ e t, s.step e = some t → IssuedHeld s t) ∧
      (∀ i, (sinceRebuild s.history).count (.join (i, true)) ≤ 1) ∧
      ∀ t, s.step (.pump .finish) = some t → t.phase = .resuming →
        ∃ scope, lastRebuild t.history = some scope ∧
          ∀ i, scope.carries i.stream = true → 0 < t.store.count i →
            Joined t.history i ∨ ∃ m, i = .md m ∧ m ∈ t.store.degraded := by
  have h := recoverInv_of_run hr
  refine ⟨fun e t hstep => (step_recover h hstep).2, h.once, ?_⟩
  intro t hstep hresume
  obtain ⟨u, hu, rfl⟩ := Option.map_eq_some_iff.mp hstep
  have hp := h.phase
  cases step_of_act hu with
  | finishForced => cases hresume
  | @finish n scope cause hphase =>
    rw [hphase] at hp
    have hsettled : Settled s scope := hp
    have := hsettled.of_shrinks (t := { s with history := .pumped :: s.history })
      (lastRebuild_cons rfl _) (fun i => joined_cons (m := .pumped) trivial _ i)
      ⟨fun _ => le_rfl, fun _ hm _ => hm⟩
    exact ⟨scope, this.last, this.covered⟩

def nqTicker : MdIntent := .ticker ⟨"NQZ6", "CME"⟩

/-- A ticker and the order stream are held, the ticker plant fails, and its join fails in every
pass. -/
def tickerLost : List Event :=
  [.sessions ((({} : IntentStore).note (.md nqTicker)).1.note .order).1, .pump .begin, .pump .serve,
    .pump (.issue (.plant .ticker) "channel closed: ticker"), .pump (.quiesce false),
    .pump .notifyInterrupted, .pump .rebuild, .pump (.rebuilt {} ""), .pump .plan,
    .pump (.pass { join := fun _ => false }), .pump (.pass { join := fun _ => false }),
    .pump (.pass { join := fun _ => false }), .pump .mark]

theorem restore_leaves_degraded : ∃ s t, machine.Run Machine.Free tickerLost s ∧
    s.step (.pump .finish) = some t ∧ t.phase = .resuming ∧ nqTicker ∈ t.store.degraded ∧
    ∃ scope, lastRebuild t.history = some scope ∧
      ∀ i, scope.carries i.stream = true → 0 < t.store.count i →
        Joined t.history i ∨ ∃ m, i = .md m ∧ m ∈ t.store.degraded := by
  have hexec : ∃ s t, machine.exec Machine.Free { ready := true } tickerLost = some s ∧
      s.step (.pump .finish) = some t ∧ t.phase = .resuming ∧ nqTicker ∈ t.store.degraded :=
    ⟨_, _, rfl, rfl, rfl, by decide⟩
  obtain ⟨s, t, hexec, hstep, hphase, hmark⟩ := hexec
  have hr := Machine.run_of_exec (M := machine) (s := { ready := true }) ⟨{}, true, rfl⟩ hexec
  exact ⟨s, t, hr, hstep, hphase, hmark, (restore_sound hr).2.2 t hstep hphase⟩

end RithmicNt.Host.Pump
