import RithmicNt.Host.JoinSteps

/-! Whole runs of the sessions, the background retries and the pump: joins and holdings agree once no
operation is in flight. -/

namespace RithmicNt.Host.Joins

open RithmicNt.Lib

variable {s t : State} {a : Nat} {i : MdIntent}

theorem Inv.go {ok : Bool} (h : Inv s) (htime : InTime s (.go a ok)) (hgo : s.go a ok = some t) :
    Inv t := by
  unfold State.go at hgo
  have htime : Timely s (s.stage a) := htime
  cases hst : s.stage a with
  | idle | gone =>
    rw [hst] at hgo
    cases hgo
  | subscribing i =>
    simp only [hst, State.free, decide_eq_true_eq] at hgo
    split at hgo
    · next hfree =>
      cases hgo
      exact h.subscribing hst hfree.2
    · cases hgo
  | noted i first =>
    simp only [hst, Option.some.injEq] at hgo
    exact hgo ▸ h.look hst
  | rejoining i =>
    simp only [hst, State.free, decide_eq_true_eq] at hgo
    split at hgo
    · next hfree =>
      cases hgo
      exact h.rejoining hst hfree.2
    · cases hgo
  | rechecking i =>
    simp only [hst, Option.some.injEq] at hgo
    exact hgo ▸ h.rechecking hst
  | refreshing i =>
    simp only [hst, State.free, decide_eq_true_eq] at hgo
    split at hgo
    · next hfree =>
      cases hgo
      exact h.refreshing hst hfree
    · cases hgo
  | locked i p =>
    simp only [hst] at hgo
    split at hgo
    · cases hgo
    · next hw =>
      cases hgo
      exact h.lockVenue hst (by simpa using hw)
  | calling i p =>
    simp only [hst, Option.some.injEq] at hgo
    exact hgo ▸ h.answered hst
  | marking i p =>
    simp only [hst, Option.some.injEq] at hgo
    exact hgo ▸ h.marked_step hst
  | clearing i =>
    simp only [hst, Option.some.injEq] at hgo
    exact hgo ▸ h.clearing hst
  | rollingBack i first =>
    simp only [hst, Option.some.injEq] at hgo
    refine hgo ▸ h.rollingBack hst ?_
    rintro rfl
    rw [hst] at htime
    exact htime
  | unsubscribing i =>
    simp only [hst, State.free, decide_eq_true_eq] at hgo
    split at hgo
    · next hfree =>
      cases hgo
      exact h.unsubscribing hst hfree.2
    · cases hgo
  | leaving i =>
    simp only [hst] at hgo
    split at hgo
    · cases hgo
    · next hw =>
      cases hgo
      exact h.leaving hst (by simpa using hw)
  | leaveCalling i =>
    simp only [hst, Option.some.injEq] at hgo
    exact hgo ▸ h.leaveCalling hst
  | renoting i =>
    simp only [hst, Option.some.injEq] at hgo
    rw [hst] at htime
    exact hgo ▸ h.renoting hst htime
  | tearing todo =>
    cases todo with
    | nil =>
      simp only [hst, Option.some.injEq] at hgo
      exact hgo ▸ h.goto_unlocked (by rw [hst]; rfl) rfl rfl trivial
    | cons i todo =>
      simp only [hst, State.free, decide_eq_true_eq] at hgo
      split at hgo
      · next hfree =>
        cases hgo
        exact h.tearing hst hfree
      · cases hgo
  | tearLeaving i todo =>
    simp only [hst] at hgo
    split at hgo
    · cases hgo
    · next hw =>
      cases hgo
      exact h.tearLeaving hst (by simpa using hw)
  | tearCalling i todo =>
    simp only [hst, Option.some.injEq] at hgo
    exact hgo ▸ h.tearCalling hst

theorem Inv.subscribe (h : Inv s) (hstep : s.subscribe a i = some t) : Inv t := by
  unfold State.subscribe at hstep
  split at hstep
  · next hidle =>
    have hon : (s.stage a).on? = none := by rw [hidle]; rfl
    split at hstep
    · cases hstep
      exact h
    · split at hstep
      · next hmine =>
        split at hstep
        · cases hstep
          exact h.goto_unlocked hon rfl rfl trivial
        · split at hstep
          · cases hstep
            exact h.goto_unlocked hon rfl rfl hmine
          · cases hstep
            exact h
      · next hmine =>
        cases hstep
        exact h.goto_unlocked hon rfl rfl hmine
  · cases hstep

theorem Inv.unsubscribe (h : Inv s) (hstep : s.unsubscribe a i = some t) : Inv t := by
  unfold State.unsubscribe at hstep
  split at hstep
  · next hidle =>
    split at hstep
    · next hheld =>
      cases hstep
      exact h.goto_unlocked (by rw [hidle]; rfl) rfl rfl hheld.2
    · cases hstep
      exact h
  · cases hstep

theorem Inv.teardown {order : List MdIntent} (h : Inv s) (hstep : s.teardown a order = some t) :
    Inv t := by
  unfold State.teardown at hstep
  split at hstep
  · next hstart =>
    obtain ⟨hidle, hnodup, horder⟩ := hstart
    cases hstep
    refine h.goto_unlocked (by rw [hidle]; rfl) rfl rfl ⟨hnodup, fun j hj => ?_⟩
    have hj : j ∈ (s.held.filter (·.1 = a)).image Prod.snd := by
      rw [← horder]
      exact List.mem_toFinset.mpr hj
    obtain ⟨⟨b, k⟩, hm, rfl⟩ := Finset.mem_image.mp hj
    obtain ⟨hmem, rfl⟩ := Finset.mem_filter.mp hm
    exact hmem
  · cases hstep

/-- A background retry is dropped where it waits: its locks go with it. -/
theorem Inv.cancel {landed : Bool} (h : Inv s) (hstep : s.cancel a landed = some t) : Inv t := by
  unfold State.cancel at hstep
  split at hstep
  · next i hst =>
    cases hstep
    exact h.goto_unlocked (by rw [hst]; rfl) rfl rfl trivial
  · next i hst =>
    cases hstep
    exact h.finish_op (by rw [hst]; rfl) (by rw [hst]; rfl) (by rw [hst]; rfl)
  · next i hst =>
    cases hstep
    exact h.finish_op (by rw [hst]; rfl) (by rw [hst]; rfl) (by rw [hst]; rfl)
  · next i hst =>
    cases hstep
    exact h.finish_op (by rw [hst]; rfl) (by rw [hst]; rfl) (by rw [hst]; rfl)
  · next i hst =>
    have hpos : 0 < s.cnt i := by
      have hok := h.stages a
      rw [hst] at hok
      exact hok
    cases hstep
    have hon : (s.stage a).on? = some i := by rw [hst]; rfl
    split
    · exact h.join_finish hon hpos
    · exact h.finish_op hon (by rw [hst]; rfl) (by rw [hst]; rfl)
  · cases hstep

/-- What a step of the pump leaves alone: the actors, their locks and what they hold. -/
structure Aside (s t : State) : Prop where
  stage : t.stage = s.stage
  lock : t.lock = s.lock
  readers : t.readers = s.readers
  held : t.held = s.held
  cnt : ∀ j, t.cnt j = s.cnt j

theorem Inv.pumped_of (h : Inv s) (haside : Aside s t) (hmarked : t.store.Marked)
    (halone : t.writer = true → s.readers = ∅) (hwrites : t.pump.writes = true → t.writer = true)
    (hkept : ∀ a i, s.stage a = .clearing i → i ∈ s.joined → i ∈ t.joined)
    (hjoined : ∀ i ∈ t.joined, (i ∈ s.joined ∧ (i ∈ s.abandoned → i ∈ t.abandoned)) ∨
      i ∈ s.pump.todo)
    (hheld : ∀ i, 0 < s.cnt i → i ∈ s.store.degraded ∨ i ∈ s.joined ∨ s.pump.owes i →
      i ∈ t.store.degraded ∨ i ∈ t.joined ∨ t.pump.owes i)
    (htodo : ∀ i ∈ t.pump.todo, i ∈ s.pump.todo ∨ 0 < s.cnt i)
    (hconfirms : ∀ i, t.pump.confirms? = some i → i ∈ t.joined) : Inv t := by
  refine ⟨?_, hmarked, ?_, ?_, ?_, hwrites, ?_, ?_, ?_, ?_, hconfirms⟩
  · intro i
    rw [haside.cnt, haside.held]
    exact h.counts i
  · rw [haside.stage, haside.lock]
    exact h.locks
  · rw [haside.stage, haside.readers]
    exact h.shares
  · rw [haside.readers]
    exact halone
  · intro a
    have hok := h.stages a
    rw [haside.stage]
    revert hok
    cases hst : s.stage a with
    | clearing i =>
      simp only [StageOk, haside.cnt]
      exact fun hok => ⟨hok.1, hkept a i hst hok.2⟩
    | _ =>
      simp only [StageOk, haside.cnt, haside.held]
      exact id
  · intro i hi
    rw [haside.cnt, haside.stage]
    rcases hjoined i hi with ⟨hj, hab⟩ | htd
    · rcases h.joinedHeld i hj with hpos | ha | hst
      · exact .inl hpos
      · exact .inr (.inl (hab ha))
      · exact .inr (.inr hst)
    · rcases h.todo i htd with hpos | hst
      · exact .inl hpos
      · exact .inr (.inr hst)
  · intro i hpos
    rw [haside.cnt] at hpos
    rw [haside.stage]
    have hthree : ∀ {x y z w : Prop}, x ∨ y ∨ z → x ∨ y ∨ z ∨ w := by tauto
    rcases h.heldJoined i hpos with hd | hj | ho | hst
    · exact hthree (hheld i hpos (.inl hd))
    · exact hthree (hheld i hpos (.inr (.inl hj)))
    · exact hthree (hheld i hpos (.inr (.inr ho)))
    · exact .inr (.inr (.inr hst))
  · intro i hi
    rw [haside.cnt, haside.stage]
    rcases htodo i hi with htd | hpos
    · exact h.todo i htd
    · exact .inl hpos

/-- A step of the pump that changes its phase and, at most, who has the venue lock. -/
theorem Inv.phase {ready writer : Bool} {p : PumpPhase} (h : Inv s)
    (halone : writer = true → s.readers = ∅) (hwrites : p.writes = true → writer = true)
    (howes : ∀ i, 0 < s.cnt i → s.pump.owes i → p.owes i)
    (htodo : ∀ i ∈ p.todo, i ∈ s.pump.todo ∨ 0 < s.cnt i)
    (hconfirms : p.confirms? = none) :
    Inv { s with ready := ready, writer := writer, pump := p } := by
  refine h.pumped_of ⟨rfl, rfl, rfl, rfl, fun _ => rfl⟩ h.marked halone hwrites (fun _ _ _ hi => hi)
    (fun _ hi => .inl ⟨hi, id⟩) ?_ htodo ?_
  · rintro i hpos (hd | hj | ho)
    · exact .inl hd
    · exact .inr (.inl hj)
    · exact .inr (.inr (howes i hpos ho))
  · intro i hi
    rw [hconfirms] at hi
    cases hi

theorem owes_nextAttempt {n : Nat} {scope : Recovery} {i : MdIntent}
    (h : scope.carries (Intent.md i).stream = true) : (State.nextAttempt n scope).owes i := by
  unfold State.nextAttempt
  split
  · exact h
  · trivial

theorem nextAttempt_idle (n : Nat) (scope : Recovery) :
    (State.nextAttempt n scope).writes = false ∧ (State.nextAttempt n scope).todo = [] ∧
      (State.nextAttempt n scope).confirms? = none := by
  unfold State.nextAttempt
  split <;> exact ⟨rfl, rfl, rfl⟩

section Pump

variable {n p : Nat} {scope : Recovery} {todo missed pending : List MdIntent}

theorem Inv.issue (h : Inv s) (hp : s.pump = .serving) :
    Inv { s with ready := false, pump := .recovering 1 scope } := by
  refine h.phase h.alone (by simp [PumpPhase.writes]) (fun i _ ho => ?_)
    (by simp [PumpPhase.todo]) rfl
  rw [hp] at ho
  exact ho.elim

theorem Inv.lockRebuild (h : Inv s) (hp : s.pump = .recovering n scope) (hfree : s.readers = ∅) :
    Inv { s with writer := true, pump := .rebuilding n scope } := by
  refine h.phase (fun _ => hfree) (fun _ => rfl) (fun i _ ho => ?_) (by simp [PumpPhase.todo]) rfl
  rw [hp] at ho
  exact ho

/-- A rebuild takes the joins of its plants with it, and owes them. -/
theorem Inv.drop {q : PumpPhase} (h : Inv s) (hp : s.pump = .rebuilding n scope)
    (howes : ∀ i, scope.carries (Intent.md i).stream = true → q.owes i)
    (hidle : q.writes = false ∧ q.todo = [] ∧ q.confirms? = none) :
    Inv { s.dropScope scope with writer := false, pump := q } := by
  obtain ⟨hwrites, htodo, hconfirms⟩ := hidle
  have hw : s.writer = true := h.writes (by rw [hp]; rfl)
  refine h.pumped_of ⟨rfl, rfl, rfl, rfl, fun _ => rfl⟩ h.marked (by simp) (by simp [hwrites])
    ?_ ?_ ?_ (by simp [htodo]) (by simp [hconfirms])
  · intro a i hst
    have := h.not_writer (a := a) (by rw [hst]; rfl)
    cases hw.symm.trans this
  · intro i hi
    obtain ⟨hj, hout⟩ := Finset.mem_filter.mp hi
    exact .inl ⟨hj, fun hab => Finset.mem_filter.mpr ⟨hab, hout⟩⟩
  · rintro i - (hd | hj | ho)
    · exact .inl hd
    · cases hc : scope.carries (Intent.md i).stream with
      | false => exact .inr (.inl (Finset.mem_filter.mpr ⟨hj, hc⟩))
      | true => exact .inr (.inr (howes i hc))
    · rw [hp] at ho
      exact .inr (.inr (howes i ho))

theorem Inv.rebuild_failed (h : Inv s) (hp : s.pump = .rebuilding n scope) :
    Inv { s with writer := false, pump := State.nextAttempt n scope } := by
  obtain ⟨hwrites, htodo, hconfirms⟩ := nextAttempt_idle n scope
  refine h.phase (by simp) (by simp [hwrites]) (fun i _ ho => ?_) (by simp [htodo]) hconfirms
  rw [hp] at ho
  exact owes_nextAttempt ho

theorem mem_restorePlan (hpos : 0 < s.cnt i) (hc : scope.carries (Intent.md i).stream = true) :
    i ∈ (scope.plan s.store.restorePlan).mdIntents := by
  have hwants : (scope.plan s.store.restorePlan).Wants (.md i) :=
    (Recovery.wants_plan _ _ _).mpr ⟨(wants_restorePlan _ _).mpr hpos, hc⟩
  exact hwants

theorem Inv.plan (h : Inv s) (hp : s.pump = .rebuilt n scope) :
    Inv { s with pump := .restoring n scope 1 (scope.plan s.store.restorePlan).mdIntents } := by
  refine h.phase h.alone (by simp [PumpPhase.writes]) (fun i hpos ho => ?_)
    (by simp [PumpPhase.todo]) rfl
  rw [hp] at ho
  exact mem_restorePlan hpos ho

theorem Inv.lockPass (h : Inv s) (hp : s.pump = .restoring n scope p pending)
    (hfree : s.readers = ∅) :
    Inv { s with
      writer := true
      pump := .passing n scope p (pending.filter s.store.holdsMd) [] } := by
  refine h.phase (fun _ => hfree) (fun _ => rfl) (fun i hpos ho => ?_) (fun i hi => ?_) rfl
  · rw [hp] at ho
    exact .inl (List.mem_filter.mpr ⟨ho, IntentStore.holdsMd_iff.mpr hpos⟩)
  · exact .inr (IntentStore.holdsMd_iff.mp (List.mem_filter.mp hi).2)

theorem Inv.joined_by_pass (h : Inv s) (hp : s.pump = .passing n scope p (i :: todo) missed) :
    Inv { s.addJoin i with pump := .clearing n scope p i todo missed } := by
  refine h.pumped_of ⟨rfl, rfl, rfl, rfl, fun _ => rfl⟩ h.marked h.alone ?_ ?_ ?_ ?_ ?_ ?_
  · exact fun _ => h.writes (by rw [hp]; rfl)
  · exact fun _ _ _ hj => Finset.mem_insert_of_mem hj
  · intro j hj
    rcases Finset.mem_insert.mp hj with rfl | hj
    · exact .inr (by rw [hp]; exact List.mem_cons_self)
    · exact .inl ⟨hj, id⟩
  · rintro j - (hd | hj | ho)
    · exact .inl hd
    · exact .inr (.inl (Finset.mem_insert_of_mem hj))
    · rw [hp] at ho
      rcases ho with hj | hj
      · rcases List.mem_cons.mp hj with rfl | hj
        · exact .inr (.inl (Finset.mem_insert_self _ _))
        · exact .inr (.inr (.inl hj))
      · exact .inr (.inr (.inr hj))
  · intro j hj
    exact .inl (by rw [hp]; exact List.mem_cons_of_mem i hj)
  · intro j hj
    cases hj
    exact Finset.mem_insert_self _ _

theorem Inv.missed_by_pass (h : Inv s) (hp : s.pump = .passing n scope p (i :: todo) missed) :
    Inv { s with pump := .passing n scope p todo (missed ++ [i]) } := by
  refine h.phase h.alone (fun _ => h.writes (by rw [hp]; rfl)) (fun j _ ho => ?_) (fun j hj => ?_) rfl
  · rw [hp] at ho
    rcases ho with hj | hj
    · rcases List.mem_cons.mp hj with rfl | hj
      · exact .inr (by simp)
      · exact .inl hj
    · exact .inr (List.mem_append_left _ hj)
  · exact .inl (by rw [hp]; exact List.mem_cons_of_mem i hj)

theorem Inv.cleared_by_pass (h : Inv s) (hp : s.pump = .clearing n scope p i todo missed) :
    Inv { s.clearDegraded i with pump := .passing n scope p todo missed } := by
  have hjoined : i ∈ s.joined := h.confirms i (by rw [hp]; rfl)
  refine h.pumped_of ⟨rfl, rfl, rfl, rfl, fun _ => s.store.count_clearDegraded _ _⟩
    (h.marked.clearDegraded i) h.alone (fun _ => h.writes (by rw [hp]; rfl)) (fun _ _ _ hj => hj)
    (fun _ hj => .inl ⟨hj, id⟩) ?_ ?_ (by simp [PumpPhase.confirms?])
  · rintro j - (hd | hj | ho)
    · by_cases hji : j = i
      · rw [hji]
        exact .inr (.inl hjoined)
      · exact .inl (Finset.mem_erase.mpr ⟨hji, hd⟩)
    · exact .inr (.inl hj)
    · rw [hp] at ho
      exact .inr (.inr ho)
  · intro j hj
    exact .inl (by rw [hp]; exact hj)

theorem Inv.passEnd {account : Bool} (h : Inv s) (hp : s.pump = .passing n scope p [] missed) :
    Inv { s with
      writer := false
      pump :=
        if (account || !missed.isEmpty) && p < 3 then .restoring n scope (p + 1) missed
        else .restored n scope missed account } := by
  have hmissed : ∀ i, s.pump.owes i → i ∈ missed := by
    intro i ho
    rw [hp] at ho
    rcases ho with hi | hi
    · cases hi
    · exact hi
  split
  · exact h.phase (by simp) (by simp [PumpPhase.writes]) (fun i _ ho => hmissed i ho)
      (by simp [PumpPhase.todo]) rfl
  · refine h.phase (by simp) (by simp [PumpPhase.writes]) (fun i _ ho => ?_)
      (by simp [PumpPhase.todo]) rfl
    cases account with
    | true => trivial
    | false => exact hmissed i ho

theorem Inv.again (h : Inv s) : Inv { s with pump := State.nextAttempt n .login } := by
  obtain ⟨hwrites, htodo, hconfirms⟩ := nextAttempt_idle n .login
  exact h.phase h.alone (by simp [hwrites]) (fun _ _ _ => owes_nextAttempt rfl) (by simp [htodo])
    hconfirms

theorem Inv.settle {account : Bool} (h : Inv s) (hp : s.pump = .restored n scope pending account) :
    Inv { s with pump := if account then State.nextAttempt n .login else .marking n scope pending } := by
  cases account with
  | true => exact h.again
  | false =>
    refine h.phase h.alone (by simp [PumpPhase.writes]) (fun i _ ho => ?_) (by simp [PumpPhase.todo])
      rfl
    rw [hp] at ho
    exact ho

theorem Inv.mark (h : Inv s) (hp : s.pump = .marking n scope (i :: todo)) :
    Inv { s.markDegraded i with pump := .marking n scope todo } := by
  refine h.pumped_of ⟨rfl, rfl, rfl, rfl, fun _ => s.store.count_markDegraded _ _⟩
    (h.marked.markDegraded i) h.alone (by simp [PumpPhase.writes]) (fun _ _ _ hj => hj)
    (fun _ hj => .inl ⟨hj, id⟩) ?_ (by simp [PumpPhase.todo]) (by simp [PumpPhase.confirms?])
  rintro j hpos (hd | hj | ho)
  · left
    by_cases hji : j = i
    · subst hji
      exact mem_markDegraded hpos
    · exact ((local_markDegraded s 0 i).degraded j hji).mpr hd
  · exact .inr (.inl hj)
  · rw [hp] at ho
    rcases List.mem_cons.mp ho with rfl | hj
    · exact .inl (mem_markDegraded hpos)
    · exact .inr (.inr hj)

theorem Inv.recovered (h : Inv s) (hp : s.pump = .marking n scope []) :
    Inv { s with ready := true, pump := .serving } := by
  refine h.phase h.alone (by simp [PumpPhase.writes]) (fun i _ ho => ?_) (by simp [PumpPhase.todo]) rfl
  rw [hp] at ho
  cases ho

end Pump

theorem Inv.set_ready (h : Inv s) (ready : Bool) : Inv { s with ready := ready } where
  counts := h.counts
  marked := h.marked
  locks := h.locks
  shares := h.shares
  alone := h.alone
  writes := h.writes
  stages a := (h.stages a).of_same ⟨rfl, rfl, rfl, rfl, rfl, rfl⟩
  joinedHeld := h.joinedHeld
  heldJoined := h.heldJoined
  todo := h.todo
  confirms := h.confirms

theorem Inv.pumped {e : Event} (h : Inv s) (hstep : s.pumped e = some t) : Inv t := by
  unfold State.pumped at hstep
  split at hstep
  · next hp =>
    cases hstep
    exact h.issue hp
  · next hp =>
    split at hstep
    · next hfree =>
      cases hstep
      exact h.lockRebuild hp hfree.1
    · cases hstep
  · next ok dropped n scope hp =>
    split at hstep
    · cases hstep
      exact h.drop hp (fun _ hc => hc) ⟨rfl, rfl, rfl⟩
    · cases hstep
      cases dropped with
      | true => exact h.drop hp (fun _ hc => owes_nextAttempt hc) (nextAttempt_idle n scope)
      | false => exact h.rebuild_failed hp
  · next hp =>
    cases hstep
    exact h.plan hp
  · next hp =>
    split at hstep
    · next hfree =>
      cases hstep
      exact h.lockPass hp hfree.1
    · cases hstep
  · next hp =>
    split at hstep
    · cases hstep
      exact h.joined_by_pass hp
    · cases hstep
      exact h.missed_by_pass hp
  · next hp =>
    cases hstep
    exact h.cleared_by_pass hp
  · next hp =>
    cases hstep
    exact h.passEnd hp
  · next hp =>
    cases hstep
    exact h.settle hp
  · next hp =>
    cases hstep
    exact h.mark hp
  · next hp =>
    split at hstep
    · cases hstep
      exact h.again
    · cases hstep
      exact h.recovered hp
  · cases hstep
    exact h.set_ready false
  · cases hstep
    exact h.set_ready true
  · cases hstep

theorem Inv.step {e : Event} (h : Inv s) (htime : InTime s e) (hstep : s.step e = some t) :
    Inv t := by
  cases e with
  | subscribe a i => exact h.subscribe hstep
  | unsubscribe a i => exact h.unsubscribe hstep
  | teardown a order => exact h.teardown hstep
  | retry a i =>
    simp only [State.step] at hstep
    split at hstep
    · next hidle =>
      cases hstep
      exact h.goto_unlocked (by rw [hidle]; rfl) rfl rfl trivial
    · cases hstep
  | go a ok => exact h.go htime hstep
  | cancel a landed => exact h.cancel hstep
  | issue | lockRebuild | rebuilt | plan | lockPass | join | clear | passEnd | settle | mark | finish
  | connect => exact Inv.pumped h hstep
  | request => exact Inv.pumped (e := .request) h hstep

theorem inv_start (ready : Bool) : Inv { ready } := by
  have hzero : ∀ i, State.cnt { ready } i = 0 := by
    rintro (_ | _ | _) <;> rfl
  refine ⟨fun i => ?_, ?_, ?_, ?_, ?_, ?_, fun _ => trivial, ?_, fun i hpos => ?_, ?_, ?_⟩
  · rw [hzero]
    rfl
  · intro i hi
    cases hi
  · intro a i hi
    cases hi
  · intro a ha
    cases ha
  · intro hw
    cases hw
  · intro hw
    cases hw
  · intro i hi
    cases hi
  · rw [hzero] at hpos
    cases hpos
  · intro i hi
    cases hi
  · intro i hi
    cases hi

theorem inv_of_run {trace : List Event} (h : machine.Run InTime trace s) : Inv s := by
  refine h.invariant ?_ ?_
  · rintro s ⟨ready, rfl⟩
    exact inv_start ready
  · intro s e t hinv htime hstep
    exact hinv.step htime hstep

/-- Joins and holdings agree on an intent, but for a join that a teardown has abandoned. -/
structure Agrees (s : State) (i : MdIntent) : Prop where
  joined : Held s i → i ∉ s.store.degraded → i ∈ s.joined
  held : i ∈ s.joined → Held s i ∨ i ∈ s.abandoned

/-- In every interleaving of subscribes, unsubscribes, teardowns, retries and recoveries, once no
operation is in flight and the host is ready, an intent that is held and not degraded is joined, and
one that is joined is held or was left without success by a teardown. -/
theorem joins_agree_when_quiet {trace : List Event} {s : State} (hrun : machine.Run InTime trace s)
    (hquiet : Quiescent s) (i : MdIntent) : Agrees s i := by
  have h := inv_of_run hrun
  obtain ⟨hidle, hpump, -⟩ := hquiet
  have hcnt : 0 < s.cnt i ↔ Held s i := by
    rw [h.counts i, Finset.card_pos]
    constructor
    · rintro ⟨⟨a, j⟩, hm⟩
      obtain ⟨hmem, rfl⟩ := Finset.mem_filter.mp hm
      exact ⟨a, hmem⟩
    · rintro ⟨a, hmem⟩
      exact ⟨(a, i), Finset.mem_filter.mpr ⟨hmem, rfl⟩⟩
  have hnone : ∀ a, (s.stage a).on? = none := by
    intro a
    rcases hidle a with hst | hst <;> rw [hst] <;> rfl
  constructor
  · intro hheld hnot
    rcases h.heldJoined i (hcnt.mpr hheld) with hd | hj | ho | ⟨a, ha⟩
    · exact absurd hd hnot
    · exact hj
    · rw [hpump] at ho
      exact ho.elim
    · cases (hnone a).symm.trans (Stage.on_of_first ha)
  · intro hj
    rcases h.joinedHeld i hj with hpos | hab | ⟨a, ha⟩
    · exact .inl (hcnt.mp hpos)
    · exact .inr hab
    · cases (hnone a).symm.trans (Stage.on_of_leaves ha)

theorem quiescent_of_one {s : State} (hzero : s.stage 0 = .idle ∨ s.stage 0 = .gone)
    (hrest : ∀ a, s.stage (a + 1) = .idle) (hpump : s.pump = .serving) (hready : s.ready = true) :
    Quiescent s := by
  refine ⟨fun a => ?_, hpump, hready⟩
  cases a with
  | zero => exact hzero
  | succ a => exact .inl (hrest a)

theorem not_held_of_empty {s : State} {i : MdIntent} (h : s.held = ∅) : ¬ Held s i := by
  rintro ⟨a, ha⟩
  rw [h] at ha
  cases ha

def es : MdIntent := .ticker ⟨"ES", "CME"⟩

/-- A first holder subscribes, and its join is answered. -/
def subscribed : List Event := [.subscribe 0 es, .go 0 true, .go 0 true, .go 0 true, .go 0 true]

/-- A recovery of the login up to the end of its restore pass. -/
def restored (joins : List Event) : List Event :=
  [Event.issue .login, .lockRebuild, .rebuilt true true, .plan, .lockPass] ++ joins ++
    [Event.passEnd false, .settle]

theorem joins_agree_after_recovery : ∃ s,
    machine.Run InTime (subscribed ++ restored [.join true, .clear] ++ [Event.finish false]) s ∧
      Quiescent s ∧ Held s es ∧ Agrees s es := by
  have hrun : ∃ s, machine.exec InTime {} (subscribed ++ restored [.join true, .clear] ++
      [Event.finish false]) = some s ∧ Quiescent s ∧ (0, es) ∈ s.held :=
    ⟨_, rfl, quiescent_of_one (.inl rfl) (fun _ => rfl) rfl rfl, by decide⟩
  obtain ⟨s, hexec, hquiet, hheld⟩ := hrun
  have hrun : machine.Run InTime _ s := Machine.run_of_exec ⟨true, rfl⟩ hexec
  exact ⟨s, hrun, hquiet, ⟨0, hheld⟩, joins_agree_when_quiet hrun hquiet es⟩

/-- A failed leave of a teardown keeps a join that no session holds; so does the roll back of a
first holder that waited for the venue while the restore pass joined its intent.  A failed leave of
an unsubscribe notes again an intent that a rebuild in between has dropped. -/
theorem joins_disagree_after_failed_calls :
    (∃ s, machine.Run Machine.Free (subscribed ++ [Event.teardown 0 [es], .go 0 true, .go 0 true,
        .go 0 false, .go 0 true]) s ∧ Quiescent s ∧ es ∈ s.joined ∧ ¬ Held s es) ∧
    (∃ s, machine.Run Machine.Free ([Event.subscribe 0 es, .go 0 true, .go 0 true] ++
        restored [.join true, .clear] ++ [Event.go 0 true, .go 0 true, .finish false]) s ∧
      Quiescent s ∧ es ∈ s.joined ∧ ¬ Held s es) ∧
    (∃ s, machine.Run Machine.Free (subscribed ++ [Event.unsubscribe 0 es, .go 0 true] ++ restored [] ++
        [Event.finish false, .go 0 true, .go 0 false, .go 0 true]) s ∧
      Quiescent s ∧ Held s es ∧ es ∉ s.store.degraded ∧ es ∉ s.joined) := by
  refine ⟨⟨_, Machine.run_of_exec ⟨true, rfl⟩ rfl, ?_, by decide, not_held_of_empty (by decide)⟩,
    ⟨_, Machine.run_of_exec ⟨true, rfl⟩ rfl, ?_, by decide, not_held_of_empty (by decide)⟩,
    ⟨_, Machine.run_of_exec ⟨true, rfl⟩ rfl, ?_, ⟨0, by decide⟩, by decide, by decide⟩⟩
  · exact quiescent_of_one (.inr rfl) (fun _ => rfl) rfl rfl
  · exact quiescent_of_one (.inl rfl) (fun _ => rfl) rfl rfl
  · exact quiescent_of_one (.inl rfl) (fun _ => rfl) rfl rfl

end RithmicNt.Host.Joins
