import RithmicNt.Adapter.Bridge

/-! The restore task and the generations of the bridge, as the callbacks and the task itself leave
them: all of them belong to the current attachment. -/

namespace RithmicNt.Adapter.Bridge

/-! ### Handled events -/

theorem Unbroken.mem {handled : List SessionEvent} {g : Nat} (h : Unbroken handled g) :
    .resumed g ∈ handled := by
  obtain ⟨before, after, rfl, -⟩ := h
  simp

theorem Unbroken.append_resumed {handled : List SessionEvent} {g : Nat} (h : Unbroken handled g)
    (g' : Nat) : Unbroken (handled ++ [SessionEvent.resumed g']) g := by
  obtain ⟨before, after, rfl, hafter⟩ := h
  refine ⟨before, after ++ [SessionEvent.resumed g'], by simp, fun e he => ?_⟩
  rcases List.mem_append.mp he with he | he
  · exact hafter e he
  · obtain rfl := List.mem_singleton.mp he
    rfl

theorem Unbroken.last (handled : List SessionEvent) (g : Nat) :
    Unbroken (handled ++ [SessionEvent.resumed g]) g :=
  ⟨handled, [], rfl, by simp⟩

/-! ### The tasks and generations of the current attachment -/

/-- What the loop keeps true of its tasks and generations: they all belong to the current
attachment and to no restore that a break has stopped. -/
structure Core (s : State) : Prop where
  owned : Owned s
  detached : s.attachment = none →
    s.running = none ∧ s.pendingGeneration = 0 ∧ s.lastGeneration = 0
  fresh : ∀ g, s.running = some g → Unbroken s.handled g ∧ s.lastGeneration < g
  pending : s.pendingGeneration ≠ 0 → Unbroken s.handled s.pendingGeneration ∧
    ∃ g, s.running = some g ∧ g ≤ s.pendingGeneration
  last : s.lastGeneration ≠ 0 →
    s.lastGeneration ∈ s.succeeded ∧ .resumed s.lastGeneration ∈ s.handled
  positive : ∀ g, .resumed g ∈ s.handled → 0 < g
  served : ∀ g, s.handled.getLast? = some (.resumed g) → Served s g
  started : ∀ g, s.started = some g → s.attachment.isSome ∧ Unbroken s.handled g

theorem Core.attached {s : State} (h : Core s) {g : Nat} (hrun : s.running = some g) :
    s.attachment.isSome := by
  cases ha : s.attachment with
  | none =>
    rw [(h.detached ha).1] at hrun
    cases hrun
  | some a => rfl

theorem Core.of_idle {s : State} (howned : Owned s) (hrun : s.running = none)
    (hpending : s.pendingGeneration = 0) (hlast : s.lastGeneration = 0) (hhandled : s.handled = [])
    (hstarted : s.started = none) : Core s where
  owned := howned
  detached _ := ⟨hrun, hpending, hlast⟩
  fresh g hg := by rw [hrun] at hg; cases hg
  pending h := absurd hpending h
  last h := absurd hlast h
  positive g hg := by simp [hhandled] at hg
  served g hg := by simp [hhandled] at hg
  started g hg := by rw [hstarted] at hg; cases hg

/-- A callback of `Resumed(g)` writes only the task and the pending generation. -/
theorem Core.of_resumed {s t : State} (h : Core s) {g : Nat} (hatt : s.attachment.isSome)
    (hpos : 0 < g) (hstarted : s.started = none)
    (hshape : t = { s with
      tasks := t.tasks, task := t.task, pendingGeneration := t.pendingGeneration,
      handled := s.handled ++ [SessionEvent.resumed g] })
    (howned : Owned t)
    (hfresh : ∀ g', t.running = some g' →
      Unbroken (s.handled ++ [SessionEvent.resumed g]) g' ∧ s.lastGeneration < g')
    (hpending : t.pendingGeneration ≠ 0 →
      Unbroken (s.handled ++ [SessionEvent.resumed g]) t.pendingGeneration ∧
      ∃ g', t.running = some g' ∧ g' ≤ t.pendingGeneration)
    (hserved : Served t g) : Core t := by
  have hhandled : t.handled = s.handled ++ [SessionEvent.resumed g] := by rw [hshape]
  have hattach : t.attachment = s.attachment := by rw [hshape]
  have hlast : t.lastGeneration = s.lastGeneration := by rw [hshape]
  have hsucc : t.succeeded = s.succeeded := by rw [hshape]
  have hnone : t.started = none := by rw [hshape]; exact hstarted
  refine ⟨howned, fun hn => ?_, ?_, ?_, fun hl => ?_, fun g' hg' => ?_, fun g' hg' => ?_,
    fun g' hg' => ?_⟩
  · rw [← hattach, hn] at hatt
    cases hatt
  · rw [hhandled, hlast]
    exact hfresh
  · rw [hhandled]
    exact hpending
  · rw [hlast] at hl ⊢
    rw [hsucc, hhandled]
    exact ⟨(h.last hl).1, List.mem_append_left _ (h.last hl).2⟩
  · rw [hhandled] at hg'
    rcases List.mem_append.mp hg' with hg' | hg'
    · exact h.positive g' hg'
    · simp only [List.mem_singleton, SessionEvent.resumed.injEq] at hg'
      exact hg' ▸ hpos
  · obtain rfl : g = g' := by simpa [hhandled] using hg'
    exact hserved
  · rw [hnone] at hg'
    cases hg'

/-- The callback of a `Resumed` that is no older than those handled before it. -/
theorem Core.start {s : State} (h : Core s) {g : Nat} (hatt : s.attachment.isSome) (hpos : 0 < g)
    (hmax : ∀ g', .resumed g' ∈ s.handled → g' ≤ g) (hstarted : s.started = none) :
    Core { s.start g with handled := s.handled ++ [SessionEvent.resumed g] } := by
  have hfresh : ∀ g', s.running = some g' →
      Unbroken (s.handled ++ [SessionEvent.resumed g]) g' ∧ s.lastGeneration < g' := by
    intro g' hg'
    exact ⟨(h.fresh g' hg').1.append_resumed g, (h.fresh g' hg').2⟩
  unfold State.start
  split
  · next hle =>
    -- The generation was restored on this attachment already.
    obtain ⟨hsucc, hmem⟩ := h.last (by omega)
    have heq : s.lastGeneration = g := Nat.le_antisymm (hmax _ hmem) hle
    refine h.of_resumed hatt hpos hstarted rfl (h.owned.of_tasks rfl rfl) hfresh (fun hp => ?_) ?_
    · exact ⟨(h.pending hp).1.append_resumed g, (h.pending hp).2⟩
    · exact .inl (heq ▸ hsucc)
  · next hgt =>
    split
    · next hrun =>
      -- A restore runs: the generation waits behind it.
      obtain ⟨g₀, hg₀⟩ := Option.isSome_iff_exists.mp hrun
      have hpend : max s.pendingGeneration g = g := by
        by_cases hp : s.pendingGeneration = 0
        · simp [hp]
        · exact Nat.max_eq_right (hmax _ (h.pending hp).1.mem)
      refine h.of_resumed hatt hpos hstarted rfl (h.owned.of_tasks rfl rfl) hfresh (fun _ => ?_) ?_
      · simp only [hpend]
        exact ⟨.last _ _, g₀, hg₀, hmax _ (h.fresh g₀ hg₀).1.mem⟩
      · exact .inr (.inr (.inl ⟨hpend, hrun⟩))
    · next hrun =>
      have hidle : s.running = none := by simpa using hrun
      let t : State := { s with
        tasks := s.tasks ++ [Phase.created g], task := some s.tasks.length,
        handled := s.handled ++ [SessionEvent.resumed g] }
      obtain ⟨howned, hrunning⟩ := h.owned.spawn (t := t) hidle g rfl rfl
      refine h.of_resumed hatt hpos hstarted rfl howned (fun g' hg' => ?_) (fun hp => ?_) ?_
      · obtain rfl : g = g' := Option.some.inj (hrunning.symm.trans hg')
        exact ⟨.last _ _, Nat.not_le.mp hgt⟩
      · obtain ⟨-, g₀, hg₀, -⟩ := h.pending hp
        simp [hidle] at hg₀
      · exact .inr (.inl hrunning)

theorem Core.stop {s : State} (h : Core s) {e : SessionEvent} (he : e.isBreak = true)
    (hatt : s.attachment.isSome) (hstarted : s.started = none) :
    Core { s.stopRestore with handled := s.handled ++ [e] } := by
  have hnotResumed : ∀ g, e ≠ .resumed g := by
    rintro g rfl
    cases he
  have hmem : ∀ g, .resumed g ∈ s.handled ++ [e] → .resumed g ∈ s.handled := by
    intro g hg
    rcases List.mem_append.mp hg with hg | hg
    · exact hg
    · exact absurd (List.mem_singleton.mp hg).symm (hnotResumed g)
  have hfields : Owned s.stopRestore ∧ s.stopRestore.running = none ∧
      s.stopRestore.pendingGeneration = 0 ∧ s.stopRestore.lastGeneration = s.lastGeneration ∧
      s.stopRestore.succeeded = s.succeeded ∧ s.stopRestore.attachment = s.attachment ∧
      s.stopRestore.started = s.started := by
    unfold State.stopRestore
    dsimp only
    split
    · obtain ⟨ho, hr⟩ := Owned.cancelTask (s := { s with pendingGeneration := 0 })
        (h.owned.of_tasks rfl rfl)
      refine ⟨ho, hr, ?_⟩
      unfold State.cancelTask
      split <;> exact ⟨rfl, rfl, rfl, rfl, rfl⟩
    · next hrun => exact ⟨h.owned.of_tasks rfl rfl, by simpa using hrun, rfl, rfl, rfl, rfl, rfl⟩
  obtain ⟨howned, hrun, hpend, hlast, hsucc, hattach, hst⟩ := hfields
  have hrun' : ({ s.stopRestore with handled := s.handled ++ [e] } : State).running = none :=
    (running_congr rfl rfl).trans hrun
  refine ⟨howned.of_tasks rfl rfl, fun hn => ?_, fun g hg => ?_, fun hp => absurd hpend hp,
    fun hl => ?_, fun g hg => h.positive g (hmem g hg), fun g hg => ?_, fun g hg => ?_⟩
  · have : s.attachment = none := hattach.symm.trans hn
    simp [this] at hatt
  · simp [hrun'] at hg
  · simp only [hlast] at hl ⊢
    exact ⟨hsucc ▸ (h.last hl).1, List.mem_append_left _ (h.last hl).2⟩
  · have : e = .resumed g := by simpa using hg
    exact absurd this (hnotResumed g)
  · exact absurd (hst.symm.trans hg) (by simp [hstarted])

theorem Core.setPhase {s : State} (h : Core s) {i g : Nat} {phase next : Phase}
    (hi : s.tasks[i]? = some phase) (hg : phase.generation = some g)
    (hnext : next.generation = some g) : Core (s.setPhase i next) := by
  obtain ⟨htask, hrun⟩ := h.owned.running hi hg
  have hrun' : (s.setPhase i next).running = s.running := by
    rw [hrun, running_setPhase htask hi next, hnext]
  refine ⟨h.owned.setPhase htask _, fun hn => hrun' ▸ h.detached hn,
    fun g' hg' => h.fresh g' (hrun' ▸ hg'), fun hp => hrun' ▸ h.pending hp, h.last, h.positive,
    fun g' hg' => ?_, h.started⟩
  unfold Served
  rw [hrun']
  exact h.served g' hg'

theorem Core.callRestore {s : State} (h : Core s) {i g : Nat} {phase : Phase}
    (hi : s.tasks[i]? = some phase) (hg : phase.generation = some g) (attempt : Nat) :
    Core (s.callRestore i g attempt) := by
  obtain ⟨-, hrun⟩ := h.owned.running hi hg
  have hset : Core (s.setPhase i (.restoring g attempt)) := h.setPhase hi hg rfl
  refine { hset with owned := hset.owned.of_tasks rfl rfl, started := fun g' hg' => ?_ }
  obtain rfl : g = g' := Option.some.inj hg'
  exact ⟨h.attached hrun, (h.fresh g hrun).1⟩

/-- The attempts for `g` are over: `t` is `s` with `g` recorded as restored or as spent. -/
structure Finished (s t : State) (g : Nat) : Prop where
  shape : t = { s with
    lastGeneration := t.lastGeneration, succeeded := t.succeeded, spent := t.spent }
  last : t.lastGeneration = s.lastGeneration ∨ (t.lastGeneration = g ∧ g ∈ t.succeeded)
  succeeded : ∀ g', g' ∈ s.succeeded → g' ∈ t.succeeded
  spent : ∀ g', g' ∈ s.spent → g' ∈ t.spent
  ended : g ∈ t.succeeded ∨ g ∈ t.spent

theorem Finished.handled {s t : State} {g : Nat} (h : Finished s t g) : t.handled = s.handled := by
  rw [h.shape]

theorem Finished.pendingGeneration {s t : State} {g : Nat} (h : Finished s t g) :
    t.pendingGeneration = s.pendingGeneration := by
  rw [h.shape]

theorem Finished.attachment {s t : State} {g : Nat} (h : Finished s t g) :
    t.attachment = s.attachment := by
  rw [h.shape]

theorem Finished.tasks {s t : State} {g : Nat} (h : Finished s t g) :
    t.tasks = s.tasks ∧ t.task = s.task := by
  rw [h.shape]
  exact ⟨rfl, rfl⟩

theorem Finished.started {s t : State} {g : Nat} (h : Finished s t g) : t.started = s.started := by
  rw [h.shape]

section

variable {s t : State} {i g : Nat} {phase : Phase}

theorem Core.finished_last (h : Core s) (hrun : s.running = some g) (hfin : Finished s t g) :
    t.lastGeneration ≤ g ∧ (t.lastGeneration ≠ 0 →
      t.lastGeneration ∈ t.succeeded ∧ .resumed t.lastGeneration ∈ t.handled) := by
  obtain ⟨hfresh, hlt⟩ := h.fresh g hrun
  rw [hfin.handled]
  rcases hfin.last with hl | ⟨hl, hmem⟩
  · refine ⟨by omega, fun hne => ?_⟩
    rw [hl] at hne ⊢
    exact ⟨hfin.succeeded _ (h.last hne).1, (h.last hne).2⟩
  · rw [hl]
    exact ⟨Nat.le_refl g, fun _ => ⟨hmem, hfresh.mem⟩⟩

/-- Whoever was served by the task is served by the record; the rest are kept or pending. -/
theorem Core.finished_served (h : Core s) (hrun : s.running = some g) (hfin : Finished s t g)
    {g' : Nat} (hg' : t.handled.getLast? = some (.resumed g')) :
    g' ∈ t.succeeded ∨ g' ∈ t.spent ∨ (t.pendingGeneration = g' ∧ 0 < g') := by
  rw [hfin.handled] at hg'
  rcases h.served g' hg' with hs | hr | ⟨hp, -⟩ | hs
  · exact .inl (hfin.succeeded g' hs)
  · obtain rfl : g = g' := Option.some.inj (hrun.symm.trans hr)
    rcases hfin.ended with ho | ho
    · exact .inl ho
    · exact .inr (.inl ho)
  · refine .inr (.inr ⟨hfin.pendingGeneration.trans hp, ?_⟩)
    exact h.positive g' (List.mem_of_getLast? hg')
  · exact .inr (.inl (hfin.spent g' hs))

/-- The task returns: what waited behind it, if anything, is its own generation. -/
theorem Core.returns (h : Core s) (hi : s.tasks[i]? = some phase) (hg : phase.generation = some g)
    (hstarted : s.started = none) (hfin : Finished s t g)
    (hdone : t.pendingGeneration ≤ max g t.lastGeneration) :
    Core (({ t with pendingGeneration := 0 } : State).setPhase i .done) := by
  obtain ⟨htask, hrun⟩ := h.owned.running hi hg
  obtain ⟨hle, hlast⟩ := h.finished_last hrun hfin
  have htask' : t.task = some i := hfin.tasks.2.trans htask
  have howned : Owned { t with pendingGeneration := 0 } :=
    h.owned.of_tasks hfin.tasks.1 hfin.tasks.2
  have hrun' : (({ t with pendingGeneration := 0 } : State).setPhase i .done).running = none :=
    running_setPhase htask' (hfin.tasks.1 ▸ hi) .done
  refine ⟨howned.setPhase htask' _, fun hn => ?_, fun g' hg' => ?_, fun hp => absurd rfl hp, hlast,
    fun g' hg' => h.positive g' (hfin.handled ▸ hg'), fun g' hg' => ?_, fun g' hg' => ?_⟩
  · rw [(h.detached (hfin.attachment.symm.trans hn)).1] at hrun
    cases hrun
  · simp [hrun'] at hg'
  · rcases h.finished_served hrun hfin hg' with hs | hs | ⟨hp, hpos⟩
    · exact .inl hs
    · exact .inr (.inr (.inr hs))
    · have hge : g ≤ t.pendingGeneration := by
        rw [hfin.pendingGeneration] at hp ⊢
        obtain ⟨-, g₀, hg₀, hle₀⟩ := h.pending (by omega)
        obtain rfl : g = g₀ := Option.some.inj (hrun.symm.trans hg₀)
        exact hle₀
      obtain rfl : g = g' := by omega
      rcases hfin.ended with ho | ho
      · exact .inl ho
      · exact .inr (.inr (.inr ho))
  · exact absurd ((hfin.started.trans hstarted).symm.trans hg') (by simp)

/-- The task goes on with the generation that waited behind it. -/
theorem Core.goesOn (h : Core s) (hi : s.tasks[i]? = some phase) (hg : phase.generation = some g)
    (hfin : Finished s t g) (hnext : max g t.lastGeneration < t.pendingGeneration) :
    Core (({ t with pendingGeneration := 0 } : State).callRestore i t.pendingGeneration 1) := by
  obtain ⟨htask, hrun⟩ := h.owned.running hi hg
  obtain ⟨-, hlast⟩ := h.finished_last hrun hfin
  have htask' : t.task = some i := hfin.tasks.2.trans htask
  have howned : Owned { t with pendingGeneration := 0 } :=
    h.owned.of_tasks hfin.tasks.1 hfin.tasks.2
  have hrun' : (({ t with pendingGeneration := 0 } : State).callRestore i
      t.pendingGeneration 1).running = some t.pendingGeneration :=
    running_setPhase (s := { t with pendingGeneration := 0 }) htask' (hfin.tasks.1 ▸ hi) _
  have hunbroken : Unbroken t.handled t.pendingGeneration := by
    rw [hfin.pendingGeneration] at hnext ⊢
    rw [hfin.handled]
    exact (h.pending (by omega)).1
  have hatt : t.attachment.isSome := hfin.attachment.symm ▸ h.attached hrun
  refine ⟨(howned.setPhase htask' _).of_tasks rfl rfl, fun hn => ?_, fun g' hg' => ?_,
    fun hp => absurd rfl hp, hlast, fun g' hg' => h.positive g' (hfin.handled ▸ hg'),
    fun g' hg' => ?_, fun g' hg' => ?_⟩
  · have hnone : t.attachment = none := hn
    simp [hnone] at hatt
  · obtain rfl : t.pendingGeneration = g' := Option.some.inj (hrun'.symm.trans hg')
    refine ⟨hunbroken, ?_⟩
    show t.lastGeneration < t.pendingGeneration
    omega
  · rcases h.finished_served hrun hfin hg' with hs | hs | ⟨hp, -⟩
    · exact .inl hs
    · exact .inr (.inr (.inr hs))
    · exact .inr (.inl (hp ▸ hrun'))
  · obtain rfl : t.pendingGeneration = g' := Option.some.inj hg'
    exact ⟨hatt, hunbroken⟩

theorem Core.finish (h : Core s) (hi : s.tasks[i]? = some phase) (hg : phase.generation = some g)
    (hstarted : s.started = none) (hfin : Finished s t g) : Core (t.nextGeneration i g) := by
  unfold State.nextGeneration
  dsimp only
  split
  · next hdone => exact h.returns hi hg hstarted hfin hdone
  · next hnext => exact h.goesOn hi hg hfin (Nat.not_le.mp hnext)

end

end RithmicNt.Adapter.Bridge
