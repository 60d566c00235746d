import RithmicNt.Host.JoinRuns

/-! The gate between market data and history loads, as the joins use it: who has it, and that nobody
counts a new intent while he waits for it. -/

namespace RithmicNt.Host

open RithmicNt.Lib

def IntentStore.hasLiveMdIntents (s : IntentStore) : Bool :=
  !s.ticker.keys.isEmpty || !s.book.keys.isEmpty || !s.timeBars.keys.isEmpty

theorem IntentStore.count_of_not_live {s : IntentStore} (h : s.hasLiveMdIntents = false)
    (i : MdIntent) : s.count (.md i) = 0 := by
  simp only [hasLiveMdIntents, Bool.or_eq_false_iff, Bool.not_eq_false', List.isEmpty_iff] at h
  obtain ⟨⟨hticker, hbook⟩, hbars⟩ := h
  have hzero : ∀ {κ : Type} [DecidableEq κ] {t : Tally κ} {k : κ}, t.keys = [] → t.count k = 0 := by
    intro κ _ t k hkeys
    have hout : k ∉ t.keys := by simp [hkeys]
    rw [Tally.mem_keys_iff] at hout
    omega
  cases i with
  | ticker key => exact hzero hticker
  | book key => exact hzero hbook
  | timeBars b => exact hzero hbars

namespace Joins

namespace Stage

/-- The operation waits for the gate. -/
def waits : Stage → Bool
  | .subscribing _ | .rejoining _ | .unsubscribing _ => true
  | _ => false

/-- The operation has the gate: all that market data does under a topic lock but the refresh of a
held book and a teardown. -/
def gated : Stage → Bool
  | .noted .. | .rechecking _ | .clearing _ | .rollingBack .. | .leaving _ | .leaveCalling _
  | .renoting _ => true
  | .locked _ p | .calling _ p | .marking _ p => p ≠ .refresh
  | _ => false

/-- The intent that a teardown has forgotten and not yet left. -/
def tears? : Stage → Option MdIntent
  | .tearLeaving i _ | .tearCalling i _ => some i
  | _ => none

theorem tears_of_leaves {st : Stage} {i : MdIntent} (hg : st.gated = false)
    (h : st.leaves? = some i) : st.tears? = some i := by
  cases st <;> simp_all [leaves?, tears?, gated]

end Stage

/-- The event takes the gate, or looks whether it needs it. -/
def Event.waits (s : State) : Event → Bool
  | .go a _ => (s.stage a).waits
  | _ => false

/-- The operations that have the gate are the gate's owner. -/
def Gated (s : State) : Prop := ∀ a, (s.stage a).gated = true → s.gate = some a

/-- What a step does to the gate and to the counts: it leaves the gate and counts nothing more, it
takes the gate, or it ends an operation. -/
inductive Moved (s : State) (e : Event) (t : State) : Prop
  | kept (a : Nat) (st : Stage) (hstage : t.stage = Function.update s.stage a st)
      (hgate : t.gate = s.gate) (hst : st.gated = true → (s.stage a).gated = true)
      (hcnt : ∀ i, t.cnt i ≤ s.cnt i)
  | taken (a : Nat) (st : Stage) (hstage : t.stage = Function.update s.stage a st)
      (hwaits : e.waits s = true) (hfree : s.gate = none) (hgate : t.gate = some a)
  | ended (a : Nat) (st : Stage) (hstage : t.stage = Function.update s.stage a st)
      (hst : st.gated = false) (hgate : t.gate = if s.gate = some a then none else s.gate)
      (hcnt : (∀ i, t.cnt i ≤ s.cnt i) ∨ (s.stage a).gated = true)

variable {s t : State} {e : Event} {a : Nat} {i : MdIntent}

theorem Gated.moved (h : Gated s) (hmoved : Moved s e t) : Gated t := by
  intro b hb
  cases hmoved with
  | kept a st hstage hgate hst _ =>
    rw [hstage] at hb
    rw [hgate]
    by_cases hab : b = a
    · subst hab
      exact h b (hst (by simpa using hb))
    · exact h b (by simpa [hab] using hb)
  | taken a st hstage _ hfree hgate =>
    rw [hstage] at hb
    by_cases hab : b = a
    · rw [hgate, hab]
    · cases hfree.symm.trans (h b (by simpa [hab] using hb))
  | ended a st hstage hst hgate _ =>
    rw [hstage] at hb
    by_cases hab : b = a
    · subst hab
      simp [hst] at hb
    · have howner := h b (by simpa [hab] using hb)
      simp [hgate, howner, hab]

theorem moved_goto {st : Stage} (hst : st.gated = true → (s.stage a).gated = true) :
    Moved s e (s.goto a st) :=
  .kept a st rfl rfl hst fun _ => le_rfl

theorem moved_self : Moved s e s := .kept 0 (s.stage 0) (by simp) rfl id fun _ => le_rfl

theorem moved_finish : Moved s e (s.finish a i) :=
  .ended a .idle rfl rfl rfl (.inl fun _ => le_rfl)

theorem cnt_forget_le (s : State) (a : Nat) (i j : MdIntent) :
    (s.forget a i).cnt j ≤ s.cnt j := by
  rw [cnt_forget]
  omega

theorem moved_look {first : Bool} (hst : s.stage a = .noted i first) :
    Moved s e (s.look a i first) := by
  unfold State.look
  split
  · exact moved_goto fun _ => by rw [hst]; rfl
  · simp only
    split
    · exact moved_goto fun _ => by rw [hst]; rfl
    · exact moved_finish

theorem moved_lockVenue {p : Purpose} (hst : s.stage a = .locked i p) :
    Moved s e (s.lockVenue a i p) := by
  have hshare : ∀ st : Stage, (st.gated = true → p ≠ .refresh) →
      Moved s e ((s.share a).goto a st) := by
    intro st hg
    exact .kept a st rfl rfl (fun h => by simpa [hst, Stage.gated] using hg h) fun _ => le_rfl
  unfold State.lockVenue
  split
  · exact hshare _ (by simp [Stage.gated])
  · cases p with
    | first => exact moved_goto fun _ => by rw [hst]; rfl
    | again degraded refresh =>
      cases refresh with
      | true => exact hshare _ (by simp)
      | false => exact moved_goto fun _ => by rw [hst]; rfl
    | rejoin | refresh => exact moved_finish

theorem moved_answered {p : Purpose} {ok : Bool} (hst : s.stage a = .calling i p) :
    Moved s e (s.answered a i p ok) := by
  have hgated : p ≠ .refresh → (s.stage a).gated = true := by
    intro hp
    simpa [hst, Stage.gated] using hp
  have hjoin : Moved s e ((s.addJoin i).finish a i) :=
    .ended a .idle rfl rfl rfl (.inl fun _ => le_rfl)
  have hunshare : ∀ st : Stage, p ≠ .refresh → Moved s e ((s.unshare a).goto a st) :=
    fun st hp => .kept a st rfl rfl (fun _ => hgated hp) fun _ => le_rfl
  have hclear : p ≠ .refresh → Moved s e ((s.addJoin i).goto a (.clearing i)) :=
    fun hp => .kept a _ rfl rfl (fun _ => hgated hp) fun _ => le_rfl
  unfold State.answered
  cases ok with
  | true =>
    cases p with
    | again degraded refresh =>
      cases degraded with
      | true => exact hclear (by simp)
      | false => exact hjoin
    | rejoin => exact hclear (by simp)
    | first | refresh => exact hjoin
  | false =>
    cases p with
    | first => exact hunshare _ (by simp)
    | again degraded refresh =>
      cases refresh with
      | true => exact moved_goto fun _ => hgated (by simp)
      | false => exact hunshare _ (by simp)
    | rejoin => exact moved_finish
    | refresh => exact moved_goto (by simp [Stage.gated])

theorem moved_marked {p : Purpose} (hst : s.stage a = .marking i p) :
    Moved s e (s.marked a i p) := by
  have hcnt : ∀ j, (s.markDegraded i).cnt j ≤ s.cnt j := fun j => (cnt_markDegraded j).le
  have hend : Moved s e ((s.markDegraded i).finish a i) := .ended a .idle rfl rfl rfl (.inl hcnt)
  cases p with
  | again degraded refresh =>
    exact .kept a (.rollingBack i false) rfl rfl (fun _ => by rw [hst]; rfl) hcnt
  | first | rejoin | refresh => exact hend

theorem moved_go {ok : Bool} (hgo : s.go a ok = some t) : Moved s (.go a ok) t := by
  have htake : ∀ {u : State} {st : Stage}, (s.stage a).waits = true → s.gate = none →
      u.stage = Function.update s.stage a st → u.gate = some a → Moved s (.go a ok) u :=
    fun hw hfree hstage hgate => .taken a _ hstage hw hfree hgate
  unfold State.go at hgo
  cases hst : s.stage a with
  | idle | gone =>
    rw [hst] at hgo
    cases hgo
  | subscribing i =>
    simp only [hst] at hgo
    split at hgo
    · next hfree =>
      cases hgo
      exact htake (by rw [hst]; rfl) hfree.1 rfl rfl
    · cases hgo
  | noted i first =>
    simp only [hst, Option.some.injEq] at hgo
    exact hgo ▸ moved_look hst
  | rejoining i =>
    simp only [hst] at hgo
    split at hgo
    · next hfree =>
      cases hgo
      exact htake (by rw [hst]; rfl) hfree.1 rfl rfl
    · cases hgo
  | rechecking i =>
    simp only [hst, Option.some.injEq] at hgo
    subst hgo
    split
    · exact moved_goto fun _ => by rw [hst]; rfl
    · exact moved_finish
  | refreshing i =>
    simp only [hst] at hgo
    split at hgo
    · cases hgo
      exact .kept a (.locked i .refresh) rfl rfl (by simp [Stage.gated]) fun _ => le_rfl
    · cases hgo
  | locked i p =>
    simp only [hst] at hgo
    split at hgo
    · cases hgo
    · cases hgo
      exact moved_lockVenue hst
  | calling i p =>
    simp only [hst, Option.some.injEq] at hgo
    exact hgo ▸ moved_answered hst
  | marking i p =>
    simp only [hst, Option.some.injEq] at hgo
    exact hgo ▸ moved_marked hst
  | clearing i =>
    simp only [hst, Option.some.injEq] at hgo
    subst hgo
    exact .ended a .idle rfl rfl rfl (.inl fun j => (cnt_clearDegraded j).le)
  | rollingBack i first =>
    simp only [hst, Option.some.injEq] at hgo
    subst hgo
    exact .ended a .idle rfl rfl rfl (.inl (cnt_forget_le s a i))
  | unsubscribing i =>
    simp only [hst] at hgo
    split at hgo
    · next hfree =>
      simp only [Option.some.injEq] at hgo
      subst hgo
      split
      · exact htake (by rw [hst]; rfl) hfree.1 rfl rfl
      · exact .kept a .idle rfl rfl (by simp [Stage.gated]) (cnt_forget_le s a i)
    · cases hgo
  | leaving i =>
    simp only [hst] at hgo
    split at hgo
    · cases hgo
    · cases hgo
      exact .kept a (.leaveCalling i) rfl rfl (fun _ => by rw [hst]; rfl) fun _ => le_rfl
  | leaveCalling i =>
    simp only [hst, Option.some.injEq] at hgo
    subst hgo
    split
    · exact .ended a .idle rfl rfl rfl (.inl fun _ => le_rfl)
    · exact .kept a (.renoting i) rfl rfl (fun _ => by rw [hst]; rfl) fun _ => le_rfl
  | renoting i =>
    simp only [hst, Option.some.injEq] at hgo
    subst hgo
    exact .ended a .idle rfl rfl rfl (.inr (by rw [hst]; rfl))
  | tearing todo =>
    cases todo with
    | nil =>
      simp only [hst, Option.some.injEq] at hgo
      exact hgo ▸ moved_goto (by simp [Stage.gated])
    | cons i todo =>
      simp only [hst] at hgo
      split at hgo
      · simp only [Option.some.injEq] at hgo
        subst hgo
        split
        · exact .kept a (.tearLeaving i todo) rfl rfl (by simp [Stage.gated]) (cnt_forget_le s a i)
        · exact .kept a (.tearing todo) rfl rfl (by simp [Stage.gated]) (cnt_forget_le s a i)
      · cases hgo
  | tearLeaving i todo =>
    simp only [hst] at hgo
    split at hgo
    · cases hgo
    · cases hgo
      exact .kept a (.tearCalling i todo) rfl rfl (by simp [Stage.gated]) fun _ => le_rfl
  | tearCalling i todo =>
    simp only [hst, Option.some.injEq] at hgo
    subst hgo
    have hend : ∀ u : State, u.stage = s.stage → u.gate = s.gate → (∀ j, u.cnt j ≤ s.cnt j) →
        Moved s (.go a ok) ((u.finish a i).goto a (.tearing todo)) := by
      intro u hstage hgate hcnt
      refine .ended a (.tearing todo) ?_ rfl ?_ (.inl hcnt)
      · simp [State.goto, State.finish, hstage]
      · simp [State.goto, State.finish, hgate]
    split
    · exact hend _ rfl rfl fun _ => le_rfl
    · split
      · exact hend _ rfl rfl fun _ => le_rfl
      · exact hend _ rfl rfl fun _ => le_rfl

theorem moved_cancel {landed : Bool} (h : s.cancel a landed = some t) :
    Moved s (.cancel a landed) t := by
  unfold State.cancel at h
  split at h
  · cases h
    exact moved_goto (by simp [Stage.gated])
  · cases h
    exact moved_finish
  · cases h
    exact moved_finish
  · cases h
    exact moved_finish
  · cases h
    split
    · exact .ended a .idle rfl rfl rfl (.inl fun _ => le_rfl)
    · exact moved_finish
  · cases h

theorem moved_aside (hstage : t.stage = s.stage) (hgate : t.gate = s.gate)
    (hcnt : ∀ j, t.cnt j = s.cnt j) : Moved s e t :=
  .kept 0 (s.stage 0) (by simpa using hstage) hgate id fun j => (hcnt j).le

theorem moved_pumped (h : s.pumped e = some t) : Moved s e t := by
  unfold State.pumped at h
  split at h
  all_goals try split at h
  all_goals cases h
  all_goals refine moved_aside ?_ ?_ ?_
  all_goals first
    | rfl
    | exact fun j => rfl
    | exact cnt_clearDegraded
    | exact cnt_markDegraded
    | (split <;> first | rfl | exact fun j => rfl)

theorem moved_step (h : s.step e = some t) : Moved s e t := by
  have hstay : ∀ {b : Nat} {st : Stage}, st.gated = false → Moved s e (s.goto b st) :=
    fun hst => moved_goto (by simp [hst])
  cases e with
  | subscribe b i =>
    simp only [State.step, State.subscribe] at h
    split at h
    · split at h
      · cases h
        exact moved_self
      · split at h
        · split at h
          · cases h
            exact hstay rfl
          · split at h
            · cases h
              exact hstay rfl
            · cases h
              exact moved_self
        · cases h
          exact hstay rfl
    · cases h
  | unsubscribe b i =>
    simp only [State.step, State.unsubscribe] at h
    split at h
    · split at h
      · cases h
        exact hstay rfl
      · cases h
        exact moved_self
    · cases h
  | teardown b order =>
    simp only [State.step, State.teardown] at h
    split at h
    · cases h
      exact hstay rfl
    · cases h
  | retry b i =>
    simp only [State.step] at h
    split at h
    · cases h
      exact hstay rfl
    · cases h
  | go b ok => exact moved_go h
  | cancel b landed => exact moved_cancel h
  | issue | lockRebuild | rebuilt | plan | lockPass | join | clear | passEnd | settle | mark | finish
  | connect => exact moved_pumped h
  | request => exact moved_pumped (e := .request) h

end Joins

end RithmicNt.Host
