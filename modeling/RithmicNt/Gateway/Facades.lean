import RithmicNt.Gateway.RuntimeRuns

/-! Who holds the intents of the shared runtime: the facades that are attached, as long as a failed
release does not take its intents up again for a facade that has left meanwhile. -/

namespace RithmicNt.Gateway.Runtime

open RithmicNt.Lib

/-- Every holder is attached: what is re-joined is re-joined for an attached facade, and a release is
kept from the parent only for another attached facade. -/
structure State.HeldByAttached (s : State) : Prop where
  held : ∀ key facade, (key, facade) ∈ s.held → facade ∈ s.facades
  rejoined : ∀ auto n c key todo,
    (s.join auto n c (key :: todo)).redial = .awaiting auto n c key todo →
    ∃ facade ∈ s.facades, (key, facade) ∈ s.held
  kept : ∀ c facade key, (s.release c facade key).redial = s.redial → s.redial = .free →
    ∃ other ∈ s.facades, other ≠ facade ∧ (key, other) ∈ s.held
  orderKept : ∀ c facade, (s.releaseOrder c facade).redial = s.redial → s.redial = .free →
    ∃ other ∈ s.facades, other ≠ facade ∧
      ((IntentKey.order, other) ∈ s.held ∨ (IntentKey.brackets, other) ∈ s.held)

/-- A failed release of an intent that its facade held is answered while the facade is attached. -/
def Attended (s : State) : Event → Prop
  | .released false =>
    match s.redial with
    | .releasing _ facade had => had = [] ∨ facade ∈ s.facades
    | _ => True
  | _ => True

instance (s : State) (e : Event) : Decidable (Attended s e) := by
  unfold Attended
  split
  · split <;> infer_instance
  · infer_instance

def HoldersAttached (s : State) : Prop := ∀ h ∈ s.held, h.2 ∈ s.facades

variable {attempts : Nat} {s t : State}

/-- A step that leaves the holdings and the facades alone. -/
structure SameHolders (s t : State) : Prop where
  held : t.held = s.held
  facades : t.facades = s.facades

theorem HoldersAttached.of_same (h : HoldersAttached s) (hst : SameHolders s t) : HoldersAttached t := by
  intro x hx
  rw [hst.held] at hx
  rw [hst.facades]
  exact h x hx

theorem sameHolders_attach (auto : Bool) (n c : Nat) {next : Attach} (hlook : next ≠ .look)
    (hmeasure : next ≠ .measure) : SameHolders s (s.attach auto n c next) := by
  cases next with
  | look => exact absurd rfl hlook
  | measure => exact absurd rfl hmeasure
  | join | clear | first | count | announce => exact ⟨rfl, rfl⟩

theorem sameHolders_reading {c : Nat} (hread : Reading s c t) : SameHolders s t := by
  cases hread with
  | interrupting | warning | resuming | counting | announcing => exact ⟨rfl, rfl⟩

theorem sameHolders_losing {c : Nat} (hloss : Losing attempts s c t) : SameHolders s t := by
  cases hloss with
  | claim | current | replaced | joined | mark | marked | warning => exact ⟨rfl, rfl⟩
  | starting =>
    unfold State.startRecovery
    split <;> exact ⟨rfl, rfl⟩

/-- An intent is taken up for an attached facade. -/
theorem HoldersAttached.hold (h : HoldersAttached s) {facade : Nat} (key : IntentKey)
    (hfacade : facade ∈ s.facades) : HoldersAttached (s.hold facade key) := by
  intro x hx
  rcases Finset.mem_insert.mp hx with rfl | hx
  · exact hfacade
  · exact h x hx

theorem HoldersAttached.holds (h : HoldersAttached s) {facade : Nat} (had : List IntentKey)
    (hfacade : facade ∈ s.facades) :
    HoldersAttached (had.foldl (fun t key => t.hold facade key) s) := by
  induction had generalizing s with
  | nil => exact h
  | cons key had ih => exact ih (h.hold key hfacade) hfacade

theorem HoldersAttached.unhold (h : HoldersAttached s) (facade : Nat) (key : IntentKey) :
    HoldersAttached (s.unhold facade key) :=
  fun x hx => h x (Finset.mem_of_mem_erase hx)

theorem HoldersAttached.intending {e : Event} (h : HoldersAttached s) (ha : Attended s e)
    (hi : Intending s e t) : HoldersAttached t := by
  cases hi with
  | register => exact fun x hx => Finset.mem_insert_of_mem (h x hx)
  | leave =>
    intro x hx
    obtain ⟨hx, hne⟩ := Finset.mem_filter.mp hx
    exact Finset.mem_erase.mpr ⟨hne, h x hx⟩
  | subscribe | allowRecovery => exact h.of_same ⟨rfl, rfl⟩
  | @subscribed c facade key acked hr =>
    -- the guard of `hold_live_intent`
    split
    · dsimp only
      split
      · next hfacade => exact HoldersAttached.hold (h.of_same ⟨rfl, rfl⟩) key hfacade
      · exact h.of_same ⟨rfl, rfl⟩
    · exact h.of_same ⟨rfl, rfl⟩
  | @release c facade key _ =>
    unfold State.release
    dsimp only
    split
    · exact h.unhold facade key
    · exact (h.unhold facade key).of_same ⟨rfl, rfl⟩
  | @releaseOrder c facade _ =>
    unfold State.releaseOrder
    dsimp only
    split
    · exact (h.unhold facade .order).unhold facade .brackets
    · exact ((h.unhold facade .order).unhold facade .brackets).of_same ⟨rfl, rfl⟩
  | @released c facade had ok hr =>
    cases ok with
    | true => exact h.of_same ⟨rfl, rfl⟩
    | false =>
      have ha : had = [] ∨ facade ∈ s.facades := by simpa [Attended, hr] using ha
      rcases ha with rfl | hfacade
      · exact h.of_same ⟨rfl, rfl⟩
      · exact HoldersAttached.holds (s := s.goto .free) h had hfacade

theorem HoldersAttached.step {e : Event} (h : HoldersAttached s) (ha : Attended s e)
    (hstep : Step attempts s e t) : HoldersAttached t := by
  cases hstep with
  | intent hi => exact h.intending ha hi
  | attach _ hlook hmeasure => exact h.of_same (sameHolders_attach _ _ _ hlook hmeasure)
  | read _ hread => exact h.of_same (sameHolders_reading hread)
  | lossStep _ hloss => exact h.of_same (sameHolders_losing hloss)
  | _ => exact h.of_same ⟨rfl, rfl⟩

/-- What is held by somebody is held by somebody attached. -/
theorem HoldersAttached.exists (h : HoldersAttached s) {key : IntentKey} (hkey : key ∈ s.heldKeys) :
    ∃ facade ∈ s.facades, (key, facade) ∈ s.held := by
  obtain ⟨⟨k, facade⟩, hx, rfl⟩ := Finset.mem_image.mp hkey
  exact ⟨facade, h _ hx, hx⟩

theorem HoldersAttached.other (h : HoldersAttached s) {key : IntentKey} {facade : Nat}
    (hkey : key ∈ (s.unhold facade key).heldKeys) :
    ∃ other ∈ s.facades, other ≠ facade ∧ (key, other) ∈ s.held := by
  obtain ⟨⟨k, other⟩, hx, rfl⟩ := Finset.mem_image.mp hkey
  obtain ⟨hne, hx⟩ := Finset.mem_erase.mp hx
  refine ⟨other, h _ hx, ?_, hx⟩
  rintro rfl
  exact hne rfl

theorem HoldersAttached.heldByAttached (h : HoldersAttached s) : s.HeldByAttached := by
  refine ⟨fun key facade hx => h (key, facade) hx, ?_, ?_, ?_⟩
  · intro auto n c key todo hjoin
    simp only [State.join] at hjoin
    split at hjoin
    · next hkey => exact h.exists hkey
    · cases hjoin
  · intro c facade key hsame hfree
    unfold State.release at hsame
    dsimp only at hsame
    split at hsame
    · next hkey => exact h.other hkey
    · rw [hfree] at hsame
      cases hsame
  · intro c facade hsame hfree
    unfold State.releaseOrder at hsame
    dsimp only at hsame
    split at hsame
    · next hgroup =>
      have hgroup : IntentKey.order ∈ ((s.unhold facade .order).unhold facade .brackets).heldKeys ∨
          IntentKey.brackets ∈ ((s.unhold facade .order).unhold facade .brackets).heldKeys := by
        simpa [State.orderGroupHeld] using hgroup
      rcases hgroup with hkey | hkey
      · obtain ⟨other, hother, hx⟩ := ((h.unhold facade .order).unhold facade .brackets).exists hkey
        obtain ⟨hne, hx⟩ := Finset.mem_erase.mp (Finset.mem_of_mem_erase hx)
        refine ⟨other, hother, ?_, .inl hx⟩
        rintro rfl
        exact hne rfl
      · obtain ⟨other, hother, hne, hx⟩ := (h.unhold facade .order).other hkey
        exact ⟨other, hother, hne, .inr (Finset.mem_of_mem_erase hx)⟩
    · rw [hfree] at hsame
      cases hsame

/-- Only attached facades hold intents, where a failed release finds its facade attached. -/
theorem heldByAttached_of_run {trace : List Event} (hrun : (machine attempts).Run Attended trace s) :
    s.HeldByAttached := by
  refine HoldersAttached.heldByAttached (hrun.invariant (I := HoldersAttached) ?_ ?_)
  · rintro s rfl x hx
    cases hx
  · intro s e t h ha hstep
    exact h.step ha (step_cases hstep)

/-- Two facades; the first holds the PnL stream, and its release is sent to the parent. -/
def releasingPnl : List Event := .register 2 :: attachedPnl ++ [Event.release 1 .pnl]

/-- The release fails with the facade attached, and the facade leaves. -/
theorem heldByAttached_releasingPnl :
    ∃ s, (machine 8).Run Attended (releasingPnl ++ [Event.released false, .leave 1]) s ∧
      s.HeldByAttached ∧ s.held = ∅ := by
  have hexec : ∃ s, (machine 8).exec Attended {}
      (releasingPnl ++ [Event.released false, .leave 1]) =
      some s ∧ s.held = ∅ := ⟨_, rfl, rfl⟩
  obtain ⟨s, hexec, hheld⟩ := hexec
  have hrun : (machine 8).Run Attended _ s := Machine.run_of_exec rfl hexec
  exact ⟨s, hrun, heldByAttached_of_run hrun, hheld⟩

/-- The facade leaves before its release fails: its hold comes back, and is re-joined. -/
theorem not_heldByAttached_left :
    ∃ s, (machine 8).Run Machine.Free (releasingPnl ++ [Event.leave 1, .released false]) s ∧
      ¬ s.HeldByAttached := by
  have hexec : ∃ s, (machine 8).exec Machine.Free {}
      (releasingPnl ++ [Event.leave 1, .released false]) =
      some s ∧ (IntentKey.pnl, 1) ∈ s.held ∧ 1 ∉ s.facades :=
    ⟨_, rfl, by decide, by decide⟩
  obtain ⟨s, hexec, hheld, hleft⟩ := hexec
  refine ⟨s, Machine.run_of_exec rfl hexec, ?_⟩
  intro h
  exact hleft (h.held _ _ hheld)

end RithmicNt.Gateway.Runtime
