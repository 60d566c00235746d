import RithmicNt.Adapter.BridgeTasks

/-! The events of the bridge on their way to the loop, and what the bridge promises over whole
runs. -/

namespace RithmicNt.Adapter.Bridge

open RithmicNt.Lib

/-! ### Events on their way to the loop -/

/-- The events of attachment `a` in a list, in order. -/
def eventsOf (a : Nat) (l : List (Nat × SessionEvent)) : List SessionEvent :=
  (l.filter (·.1 == a)).map (·.2)

theorem eventsOf_append (a : Nat) (l l' : List (Nat × SessionEvent)) :
    eventsOf a (l ++ l') = eventsOf a l ++ eventsOf a l' := by
  simp [eventsOf]

theorem eventsOf_eq_nil {a : Nat} {l : List (Nat × SessionEvent)} (h : ∀ x ∈ l, x.1 ≠ a) :
    eventsOf a l = [] := by
  simp only [eventsOf, List.map_eq_nil_iff, List.filter_eq_nil_iff]
  intro x hx
  simpa using h x hx

theorem eventsOf_find {a : Nat} {l : List (Nat × SessionEvent)}
    (hl : l.Pairwise fun x y => x.1 ≠ y.1) {x : Nat × SessionEvent}
    (hx : l.find? (·.1 == a) = some x) : eventsOf a l = [x.2] := by
  induction l with
  | nil => cases hx
  | cons y l ih =>
    obtain ⟨hy, hl⟩ := List.pairwise_cons.mp hl
    by_cases hya : y.1 = a
    · have hxy : y = x := by simpa [hya] using hx
      have hrest : eventsOf a l = [] := eventsOf_eq_nil fun z hz => hya ▸ (hy z hz).symm
      have hcons : eventsOf a (y :: l) = y.2 :: eventsOf a l := by simp [eventsOf, hya]
      rw [hcons, hrest, hxy]
    · have hx' : l.find? (·.1 == a) = some x := by simpa [hya] using hx
      simpa [eventsOf, hya] using ih hl hx'

theorem eventsOf_filter_ne {a b : Nat} (hab : a ≠ b) (l : List (Nat × SessionEvent)) :
    eventsOf a (l.filter (·.1 != b)) = eventsOf a l := by
  unfold eventsOf
  rw [List.filter_filter]
  congr 1
  refine List.filter_congr fun x _ => ?_
  by_cases hx : x.1 = a <;> simp [hx, hab]

/-- The events of the current attachment are handled in the order they were received, and their
generations do not decrease. -/
structure Flight (s : State) : Prop where
  alone : s.delivering.Pairwise fun x y => x.1 ≠ y.1
  older : ∀ x ∈ s.delivering ++ s.queue, x.1 < s.nextAttachment
  current : ∀ a, s.attachment = some a → a < s.nextAttachment
  detached : s.attachment = none → s.received = []
  order : ∀ a, s.attachment = some a →
    s.received = s.handled ++ eventsOf a s.queue ++ eventsOf a s.delivering
  sorted : s.received.Pairwise fun e e' => ∀ g g', e = .resumed g → e' = .resumed g' → g ≤ g'
  positive : ∀ g, .resumed g ∈ s.received → 0 < g

/-- The steps of a task leave the events and the attachment alone. -/
structure SameFlight (s t : State) : Prop where
  delivering : t.delivering = s.delivering
  queue : t.queue = s.queue
  attachment : t.attachment = s.attachment
  nextAttachment : t.nextAttachment = s.nextAttachment
  received : t.received = s.received
  handled : t.handled = s.handled

theorem Flight.of_same {s t : State} (h : Flight s) (hst : SameFlight s t) : Flight t where
  alone := hst.delivering ▸ h.alone
  older := by rw [hst.delivering, hst.queue, hst.nextAttachment]; exact h.older
  current := by rw [hst.attachment, hst.nextAttachment]; exact h.current
  detached := by rw [hst.attachment, hst.received]; exact h.detached
  order := by
    rw [hst.attachment, hst.received, hst.handled, hst.queue, hst.delivering]
    exact h.order
  sorted := hst.received ▸ h.sorted
  positive := hst.received ▸ h.positive

theorem SameFlight.nextGeneration (s : State) (i g : Nat) :
    SameFlight s (s.nextGeneration i g) := by
  unfold State.nextGeneration
  dsimp only
  split <;> exact ⟨rfl, rfl, rfl, rfl, rfl, rfl⟩

theorem SameFlight.handle (s : State) (event : SessionEvent) : SameFlight s (s.handle event) := by
  have hcancel (s : State) : SameFlight s s.cancelTask := by
    unfold State.cancelTask
    split <;> exact ⟨rfl, rfl, rfl, rfl, rfl, rfl⟩
  have hstop : SameFlight s s.stopRestore := by
    unfold State.stopRestore
    dsimp only
    split
    · obtain ⟨h1, h2, h3, h4, h5, h6⟩ := hcancel { s with pendingGeneration := 0 }
      exact ⟨h1, h2, h3, h4, h5, h6⟩
    · exact ⟨rfl, rfl, rfl, rfl, rfl, rfl⟩
  cases event with
  | interrupted => exact hstop
  | recoveryFailed => exact hstop
  | resumed g =>
    show SameFlight s (s.start g)
    unfold State.start
    split
    · exact ⟨rfl, rfl, rfl, rfl, rfl, rfl⟩
    · split <;> exact ⟨rfl, rfl, rfl, rfl, rfl, rfl⟩

/-- A `Resumed` at the head of the queue is no older than those handled before it. -/
theorem Flight.head {s : State} (h : Flight s) {a g : Nat} {rest : List (Nat × SessionEvent)}
    (hatt : s.attachment = some a) (hqueue : s.queue = (a, .resumed g) :: rest) :
    0 < g ∧ ∀ g', .resumed g' ∈ s.handled → g' ≤ g := by
  have horder := h.order a hatt
  have hhead : eventsOf a s.queue = .resumed g :: eventsOf a rest := by
    simp [hqueue, eventsOf]
  have hmem : .resumed g ∈ s.received := by simp [horder, hhead]
  refine ⟨h.positive g hmem, fun g' hg' => ?_⟩
  have hsorted := h.sorted
  rw [horder, hhead, List.append_assoc] at hsorted
  exact (List.pairwise_append.mp hsorted).2.2 _ hg' _ (by simp) g' g rfl rfl

theorem Flight.deliver {s : State} (h : Flight s) {a : Nat} {e : SessionEvent}
    (hatt : s.attachment = some a) (hnone : s.delivering.any (·.1 == a) = false)
    (hok : Orderly s (.deliver e)) :
    Flight { s with received := s.received ++ [e], delivering := s.delivering ++ [(a, e)] } := by
  have hne : ∀ x ∈ s.delivering, x.1 ≠ a := by
    intro x hx
    simpa using List.any_eq_false.mp hnone x hx
  refine ⟨?_, ?_, h.current, fun hn => by simp [hatt] at hn, ?_, ?_, ?_⟩
  · refine List.pairwise_append.mpr ⟨h.alone, List.pairwise_singleton _ _, fun x hx y hy => ?_⟩
    obtain rfl := List.mem_singleton.mp hy
    exact hne x hx
  · intro x hx
    simp only [List.mem_append, List.mem_singleton] at hx
    rcases hx with (hx | rfl) | hx
    · exact h.older x (by simp [hx])
    · exact h.current a hatt
    · exact h.older x (by simp [hx])
  · intro a' ha'
    obtain rfl : a = a' := Option.some.inj (hatt.symm.trans ha')
    show s.received ++ [e] = s.handled ++ eventsOf a s.queue ++ eventsOf a (s.delivering ++ [(a, e)])
    rw [h.order a hatt, eventsOf_append, eventsOf_eq_nil hne]
    simp [eventsOf]
  · refine List.pairwise_append.mpr ⟨h.sorted, List.pairwise_singleton _ _, ?_⟩
    intro x hx y hy g g' hxg hyg
    obtain rfl := List.mem_singleton.mp hy
    subst hxg hyg
    exact hok.2 (.resumed g) hx
  · intro g hg
    rcases List.mem_append.mp hg with hg | hg
    · exact h.positive g hg
    · obtain rfl := List.mem_singleton.mp hg
      exact hok.1

theorem Flight.hop {s : State} (h : Flight s) {a : Nat} {x : Nat × SessionEvent}
    (hx : s.delivering.find? (·.1 == a) = some x) :
    Flight { s with
      delivering := s.delivering.filter (·.1 != a), queue := s.queue ++ [(a, x.2)] } := by
  have hxa : x.1 = a := by simpa using List.find?_some hx
  have hxm := List.mem_of_find?_eq_some hx
  refine ⟨h.alone.filter _, ?_, h.current, h.detached, ?_, h.sorted, h.positive⟩
  · intro y hy
    simp only [List.mem_append, List.mem_filter, List.mem_singleton] at hy
    rcases hy with hy | hy | rfl
    · exact h.older y (by simp [hy.1])
    · exact h.older y (by simp [hy])
    · exact hxa ▸ h.older x (by simp [hxm])
  · intro b hb
    show s.received = s.handled ++ eventsOf b (s.queue ++ [(a, x.2)]) ++
      eventsOf b (s.delivering.filter (·.1 != a))
    rw [h.order b hb, eventsOf_append]
    by_cases hab : b = a
    · subst hab
      have hnil : eventsOf b (s.delivering.filter (·.1 != b)) = [] :=
        eventsOf_eq_nil fun y hy => by simpa using (List.mem_filter.mp hy).2
      rw [eventsOf_find h.alone hx, hnil]
      simp [eventsOf]
    · have hone : eventsOf b [(a, x.2)] = [] :=
        eventsOf_eq_nil fun y hy => by
          obtain rfl := List.mem_singleton.mp hy
          exact fun h => hab h.symm
      rw [eventsOf_filter_ne hab, hone, List.append_nil]

theorem Flight.runCallback {s t : State} (h : Flight s) {a : Nat} {e : SessionEvent}
    {rest : List (Nat × SessionEvent)} (hatt : s.attachment = some a)
    (hqueue : s.queue = (a, e) :: rest) (hst : SameFlight { s with queue := rest } t) :
    Flight { t with handled := s.handled ++ [e] } := by
  have hattached : t.attachment = some a := hst.attachment.trans hatt
  refine ⟨hst.delivering ▸ h.alone, ?_, ?_, fun hn => by simp [hattached] at hn, ?_,
    hst.received ▸ h.sorted, hst.received ▸ h.positive⟩
  · intro x hx
    simp only [hst.delivering, hst.queue] at hx
    show x.1 < t.nextAttachment
    rw [hst.nextAttachment]
    refine h.older x ?_
    rcases List.mem_append.mp hx with hx | hx
    · simp [hx]
    · simp [hqueue, hx]
  · show ∀ b, t.attachment = some b → b < t.nextAttachment
    rw [hst.attachment, hst.nextAttachment]
    exact h.current
  · intro b hb
    have hb' : s.attachment = some b := hst.attachment.symm.trans hb
    obtain rfl : a = b := Option.some.inj (hatt.symm.trans hb')
    show t.received = s.handled ++ [e] ++ eventsOf a t.queue ++ eventsOf a t.delivering
    rw [hst.received, hst.queue, hst.delivering]
    have := h.order a hatt
    rw [hqueue] at this
    simpa [eventsOf] using this

/-! ### Steps and runs -/

theorem Flight.attach {s : State} (h : Flight s) : Flight s.attach := by
  refine ⟨h.alone, fun x hx => Nat.lt_succ_of_lt (h.older x hx), ?_, fun _ => rfl, ?_, .nil, ?_⟩
  · intro a ha
    obtain rfl := Option.some.inj ha
    exact Nat.lt_succ_self _
  · intro a ha
    obtain rfl := Option.some.inj ha
    have hq : eventsOf s.nextAttachment s.queue = [] :=
      eventsOf_eq_nil fun x hx => Nat.ne_of_lt (h.older x (by simp [hx]))
    have hd : eventsOf s.nextAttachment s.delivering = [] :=
      eventsOf_eq_nil fun x hx => Nat.ne_of_lt (h.older x (by simp [hx]))
    show [] = [] ++ eventsOf s.nextAttachment s.queue ++ eventsOf s.nextAttachment s.delivering
    simp [hq, hd]
  · intro g hg
    simp [State.attach, State.forgetRecord] at hg

theorem Flight.detach {s : State} (h : Flight s) : Flight s.detach := by
  have hsame : SameFlight { s with attachment := none, received := [], handled := [] } s.detach := by
    unfold State.detach
    dsimp only
    split
    · unfold State.cancelTask
      split <;> exact ⟨rfl, rfl, rfl, rfl, rfl, rfl⟩
    · exact ⟨rfl, rfl, rfl, rfl, rfl, rfl⟩
  refine Flight.of_same ?_ hsame
  exact ⟨h.alone, h.older, (fun a ha => by cases ha), fun _ => rfl, (fun a ha => by cases ha), .nil,
    fun g hg => by simp at hg⟩

theorem detach_started (s : State) : s.detach.started = s.started := by
  unfold State.detach
  dsimp only
  split
  · unfold State.cancelTask
    split <;> rfl
  · rfl

/-- A callback of the current attachment is run. -/
theorem Core.runCallback {s : State} (hcore : Core s) (hflight : Flight s)
    (hstarted : s.started = none) {a : Nat} {e : SessionEvent} {rest : List (Nat × SessionEvent)}
    (hatt : s.attachment = some a) (hqueue : s.queue = (a, e) :: rest) :
    Core { ({ s with queue := rest } : State).handle e with handled := s.handled ++ [e] } := by
  have hq : Core { s with queue := rest } :=
    { hcore with owned := hcore.owned.of_tasks rfl rfl }
  cases e with
  | interrupted => exact hq.stop rfl (by simp [hatt]) hstarted
  | recoveryFailed => exact hq.stop rfl (by simp [hatt]) hstarted
  | resumed g =>
    obtain ⟨hpos, hmax⟩ := hflight.head hatt hqueue
    exact hq.start (by simp [hatt]) hpos hmax hstarted

theorem noteHandled_eq {s t : State} {a : Nat} (e : SessionEvent) (hst : SameFlight s t)
    (hatt : s.attachment = some a) :
    t.noteHandled a e = { t with handled := s.handled ++ [e] } := by
  unfold State.noteHandled
  rw [if_pos (hst.attachment.trans hatt), hst.handled]

theorem step_inv {s t : State} {event : Event} (hcore : Core s) (hflight : Flight s)
    (hok : Orderly s event) (hstep : step s event = some t) : Core t ∧ Flight t := by
  have hc : Core { s with started := none } :=
    { hcore with owned := hcore.owned.of_tasks rfl rfl, started := fun g hg => by cases hg }
  have hf : Flight { s with started := none } := hflight.of_same ⟨rfl, rfl, rfl, rfl, rfl, rfl⟩
  cases step_cases hstep with
  | attach =>
    obtain ⟨hrun, hpend, hlast⟩ := hc.detached hok
    refine ⟨.of_idle (hc.owned.of_tasks rfl rfl) ?_ hpend hlast rfl rfl, hf.attach⟩
    exact (running_congr rfl rfl).trans hrun
  | detach =>
    obtain ⟨howned, hrun⟩ := hc.owned.detach
    exact ⟨.of_idle howned hrun rfl rfl rfl (detach_started _), hf.detach⟩
  | deliver e hatt hnone =>
    exact ⟨{ hc with owned := hc.owned.of_tasks rfl rfl }, hf.deliver hatt hnone hok⟩
  | hop hx => exact ⟨{ hc with owned := hc.owned.of_tasks rfl rfl }, hf.hop hx⟩
  | lost a hloop => exact absurd hok hloop
  | inline a e hloop => exact absurd hok hloop
  | @runCallback a e rest hqueue =>
    have hhead : (a, e) ∈ s.queue.head? := congrArg List.head? hqueue
    have hatt : s.attachment = some a := hok (a, e) hhead
    have hsame := SameFlight.handle { s with started := none, queue := rest } e
    rw [noteHandled_eq e hsame hatt]
    exact ⟨hc.runCallback hf rfl hatt hqueue, hf.runCallback hatt hqueue hsame⟩
  | runTask hi hlt => exact ⟨hc.callRestore hi rfl 1, hf.of_same ⟨rfl, rfl, rfl, rfl, rfl, rfl⟩⟩
  | @skipTask i g hi hle =>
    -- A task that has not run yet is newer than what was restored.
    have hlt := (hc.fresh g (hc.owned.running hi rfl).2).2
    exact absurd hle (Nat.not_le.mpr hlt)
  | @succeeds i g attempt hi =>
    refine ⟨hc.finish hi rfl rfl ?_, ?_⟩
    · exact ⟨rfl, .inr ⟨rfl, by simp⟩, fun _ => List.mem_append_left _, fun _ => id, .inl (by simp)⟩
    · refine Flight.of_same ?_ (SameFlight.nextGeneration _ i g)
      exact hf.of_same ⟨rfl, rfl, rfl, rfl, rfl, rfl⟩
  | fails hi =>
    exact ⟨hc.setPhase hi rfl rfl, hf.of_same ⟨rfl, rfl, rfl, rfl, rfl, rfl⟩⟩
  | @givesUp i g attempt hi =>
    refine ⟨hc.finish hi rfl rfl ?_, ?_⟩
    · exact ⟨rfl, .inl rfl, fun _ => id, fun _ => List.mem_append_left _, .inr (by simp)⟩
    · refine Flight.of_same ?_ (SameFlight.nextGeneration _ i g)
      exact hf.of_same ⟨rfl, rfl, rfl, rfl, rfl, rfl⟩
  | wake hi => exact ⟨hc.callRestore hi rfl _, hf.of_same ⟨rfl, rfl, rfl, rfl, rfl, rfl⟩⟩

theorem run_inv {trace : List Event} {s : State} (h : machine.Run Orderly trace s) :
    Core s ∧ Flight s := by
  refine h.invariant (I := fun s => Core s ∧ Flight s) ?_
    fun _ _ _ hinv hok hstep => step_inv hinv.1 hinv.2 hok hstep
  rintro _ rfl
  refine ⟨.of_idle (fun _ _ hi _ => by simp at hi) rfl rfl rfl rfl rfl, ?_⟩
  exact ⟨.nil, fun _ hx => by simp at hx, (fun _ ha => by cases ha), fun _ => rfl,
    (fun _ ha => by cases ha), .nil, fun _ hg => by simp at hg⟩

/-- The promises of the bridge in a state: one restore task at most; a restore starts only for a
`Resumed` of the current attachment that no handled break followed; and once no callback is left,
the generation of a last event `Resumed(g)` is served. -/
def Sound (s : State) : Prop :=
  (∀ (i j : Nat) (p q : Phase), s.tasks[i]? = some p → s.tasks[j]? = some q → p.generation.isSome →
    q.generation.isSome → i = j) ∧
  (∀ g, s.started = some g → ∃ a, s.attachment = some a ∧ .resumed g ∈ s.received ∧
    Unbroken s.handled g) ∧
  (s.queue = [] → s.delivering = [] → ∀ g, s.received.getLast? = some (.resumed g) → Served s g)

theorem run_sound {trace : List Event} {s : State} (h : machine.Run Orderly trace s) : Sound s := by
  obtain ⟨hcore, hflight⟩ := run_inv h
  refine ⟨fun i j p q hi hj hp hq => ?_, fun g hg => ?_, fun hqueue hdeliv g hlast => ?_⟩
  · exact Option.some.inj ((hcore.owned i p hi hp).symm.trans (hcore.owned j q hj hq))
  · obtain ⟨hatt, hunbroken⟩ := hcore.started g hg
    obtain ⟨a, ha⟩ := Option.isSome_iff_exists.mp hatt
    refine ⟨a, ha, ?_, hunbroken⟩
    rw [hflight.order a ha]
    simp [hunbroken.mem]
  · cases ha : s.attachment with
    | none => exact absurd hlast (by rw [hflight.detached ha]; simp)
    | some a =>
      have horder := hflight.order a ha
      rw [hqueue, hdeliv] at horder
      exact hcore.served g (by simpa [eventsOf, horder] using hlast)

def restart : List Event :=
  [.attach, .deliver (.resumed 1), .hop 0 .running, .runCallback, .runTask 0, .deliver .interrupted,
    .hop 0 .running, .runCallback, .deliver (.resumed 2), .hop 0 .running, .runCallback, .runTask 1]

theorem run_sound_restart :
    ∃ s, machine.exec Orderly {} restart = some s ∧ s.started = some 2 ∧ Sound s := by
  obtain ⟨s, hs, hstarted⟩ : ∃ s, machine.exec Orderly {} restart = some s ∧ s.started = some 2 :=
    ⟨_, rfl, rfl⟩
  exact ⟨s, hs, hstarted, run_sound (Machine.run_of_exec rfl hs)⟩

/-- A callback that was queued before `detach` starts a restore after it. -/
theorem restore_after_detach :
    ¬ ∀ (trace : List Event) (s : State), machine.Run Machine.Free trace s → Sound s := by
  intro h
  obtain ⟨s, hs, hstarted, hdetached⟩ : ∃ s, machine.exec Machine.Free {} [.attach,
      .deliver (.resumed 1), .hop 0 .running, .detach, .runCallback, .runTask 0] = some s ∧
      s.started = some 1 ∧ s.attachment = none := ⟨_, rfl, rfl, rfl⟩
  obtain ⟨a, ha, -⟩ := (h _ s (Machine.run_of_exec rfl hs)).2.1 1 hstarted
  simp [hdetached] at ha

end RithmicNt.Adapter.Bridge
