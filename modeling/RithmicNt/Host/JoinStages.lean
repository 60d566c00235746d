import RithmicNt.Host.Joins

/-! What each operation knows at each of its stages, and why the operations of other actors leave it
alone: the topic lock keeps them from the intent. -/

namespace RithmicNt.Host.Joins

open RithmicNt.Lib

def State.cnt (s : State) (i : MdIntent) : Nat := s.store.count (.md i)

namespace Stage

/-- The intent whose topic lock the operation holds. -/
def on? : Stage → Option MdIntent
  | .noted i _ | .rechecking i | .locked i _ | .calling i _ | .marking i _ | .clearing i
  | .rollingBack i _ | .leaving i | .leaveCalling i | .renoting i | .tearLeaving i _
  | .tearCalling i _ => some i
  | .idle | .subscribing _ | .rejoining _ | .refreshing _ | .unsubscribing _ | .tearing _
  | .gone => none

/-- The operation shares the venue lock. -/
def shares : Stage → Bool
  | .calling .. | .marking .. | .clearing _ | .leaveCalling _ | .tearCalling .. => true
  | _ => false

/-- The intent that the last holder has forgotten and not yet left. -/
def leaves? : Stage → Option MdIntent
  | .leaving i | .leaveCalling i | .renoting i | .tearLeaving i _ | .tearCalling i _ => some i
  | _ => none

/-- The intent that the first holder has noted and not yet joined. -/
def first? : Stage → Option MdIntent
  | .noted i true | .locked i .first | .calling i .first | .rollingBack i true => some i
  | _ => none

theorem on_of_leaves {st : Stage} {i : MdIntent} (h : st.leaves? = some i) : st.on? = some i := by
  cases st <;> simp_all [leaves?, on?]

theorem on_of_first {st : Stage} {i : MdIntent} (h : st.first? = some i) : st.on? = some i := by
  unfold first? at h
  split at h <;> simp_all [on?]

end Stage

/-- What the purpose of a join says of the number of holders. -/
def Purpose.Ok (n : Nat) (mine : Prop) : Purpose → Prop
  | .first => n = 1 ∧ mine
  | .again _ _ => 2 ≤ n ∧ mine
  | .rejoin | .refresh => 0 < n

def Noted (n : Nat) (mine : Prop) (first : Bool) : Prop :=
  mine ∧ if first then n = 1 else 2 ≤ n

/-- What an actor knows at a stage of its operation. -/
def StageOk (s : State) (a : Nat) : Stage → Prop
  | .idle | .gone | .rejoining _ | .rechecking _ => True
  | .subscribing i => (a, i) ∉ s.held
  | .noted i first | .rollingBack i first => Noted (s.cnt i) ((a, i) ∈ s.held) first
  | .refreshing i | .unsubscribing i => (a, i) ∈ s.held
  | .locked i p | .calling i p => p.Ok (s.cnt i) ((a, i) ∈ s.held)
  | .marking i p => p ≠ .first ∧ p.Ok (s.cnt i) ((a, i) ∈ s.held)
  | .clearing i => 0 < s.cnt i ∧ i ∈ s.joined
  | .leaving i | .leaveCalling i | .renoting i => s.cnt i = 0
  | .tearing todo => todo.Nodup ∧ ∀ j ∈ todo, (a, j) ∈ s.held
  | .tearLeaving i todo | .tearCalling i todo =>
    s.cnt i = 0 ∧ todo.Nodup ∧ ∀ j ∈ todo, (a, j) ∈ s.held

def PumpPhase.writes : PumpPhase → Bool
  | .rebuilding .. | .passing .. | .clearing .. => true
  | _ => false

/-- The intent that the running pass has joined and not yet cleared. -/
def PumpPhase.confirms? : PumpPhase → Option MdIntent
  | .clearing _ _ _ i _ _ => some i
  | _ => none

structure Inv (s : State) : Prop where
  counts : ∀ i, s.cnt i = (s.held.filter (·.2 = i)).card
  marked : s.store.Marked
  locks : ∀ a i, (s.stage a).on? = some i → s.lock i.key = some a
  shares : ∀ a, (s.stage a).shares = true → a ∈ s.readers
  alone : s.writer = true → s.readers = ∅
  writes : s.pump.writes = true → s.writer = true
  stages : ∀ a, StageOk s a (s.stage a)
  joinedHeld : ∀ i ∈ s.joined, 0 < s.cnt i ∨ i ∈ s.abandoned ∨ ∃ a, (s.stage a).leaves? = some i
  heldJoined : ∀ i, 0 < s.cnt i → i ∈ s.store.degraded ∨ i ∈ s.joined ∨ s.pump.owes i ∨
    ∃ a, (s.stage a).first? = some i
  todo : ∀ i ∈ s.pump.todo, 0 < s.cnt i ∨ ∃ a, (s.stage a).leaves? = some i
  confirms : ∀ i, s.pump.confirms? = some i → i ∈ s.joined

/-- The joins of one intent beside the stage of the one actor that can have its lock. -/
structure Covered (s : State) (i : MdIntent) (st : Stage) : Prop where
  joinedHeld : i ∈ s.joined → 0 < s.cnt i ∨ i ∈ s.abandoned ∨ st.leaves? = some i
  heldJoined : 0 < s.cnt i → i ∈ s.store.degraded ∨ i ∈ s.joined ∨ s.pump.owes i ∨
    st.first? = some i
  todo : i ∈ s.pump.todo → 0 < s.cnt i ∨ st.leaves? = some i
  confirms : s.pump.confirms? = some i → i ∈ s.joined

/-- Nobody else is at work on an intent of the key that an actor has the lock of or finds free. -/
theorem Inv.other_key {s : State} {a : Nat} {i : MdIntent} (h : Inv s)
    (hlock : s.lock i.key = none ∨ s.lock i.key = some a) :
    ∀ b, b ≠ a → ∀ j, (s.stage b).on? = some j → j.key ≠ i.key := by
  intro b hb j hj hkey
  have hhas := h.locks b j hj
  rw [hkey] at hhas
  rcases hlock with hf | hf
  · rw [hf] at hhas
    cases hhas
  · rw [hf] at hhas
    exact hb (Option.some.inj hhas).symm

theorem Inv.covered {s : State} {a : Nat} {i : MdIntent} (h : Inv s)
    (hlock : s.lock i.key = none ∨ s.lock i.key = some a) : Covered s i (s.stage a) := by
  have honly : ∀ b, (s.stage b).on? = some i → b = a := by
    intro b hb
    by_contra hba
    exact h.other_key hlock b hba i hb rfl
  refine ⟨?_, ?_, ?_, h.confirms i⟩
  · intro hi
    rcases h.joinedHeld i hi with hpos | habandoned | ⟨b, hb⟩
    · exact .inl hpos
    · exact .inr (.inl habandoned)
    · rw [honly b (Stage.on_of_leaves hb)] at hb
      exact .inr (.inr hb)
  · intro hpos
    rcases h.heldJoined i hpos with hd | hj | ho | ⟨b, hb⟩
    · exact .inl hd
    · exact .inr (.inl hj)
    · exact .inr (.inr (.inl ho))
    · rw [honly b (Stage.on_of_first hb)] at hb
      exact .inr (.inr (.inr hb))
  · intro hi
    rcases h.todo i hi with hpos | ⟨b, hb⟩
    · exact .inl hpos
    · rw [honly b (Stage.on_of_leaves hb)] at hb
      exact .inr hb

/-- A step of actor `a` changes nothing but what belongs to `a` and to the intent `i`. -/
structure Local (a : Nat) (i : MdIntent) (s t : State) : Prop where
  stage : ∀ b, b ≠ a → t.stage b = s.stage b
  cnt : ∀ j, j ≠ i → t.cnt j = s.cnt j
  held : ∀ b j, b ≠ a ∨ j ≠ i → ((b, j) ∈ t.held ↔ (b, j) ∈ s.held)
  joined : ∀ j, j ≠ i → (j ∈ t.joined ↔ j ∈ s.joined)
  abandoned : ∀ j, j ≠ i → (j ∈ t.abandoned ↔ j ∈ s.abandoned)
  degraded : ∀ j, j ≠ i → (j ∈ t.store.degraded ↔ j ∈ s.store.degraded)
  lock : ∀ k, k ≠ i.key → t.lock k = s.lock k
  readers : ∀ b, b ≠ a → (b ∈ t.readers ↔ b ∈ s.readers)
  writer : t.writer = s.writer
  pump : t.pump = s.pump

/-- What a step of `a` on `i` has to establish itself. -/
structure Own (a : Nat) (i : MdIntent) (t : State) : Prop where
  counts : t.cnt i = (t.held.filter (·.2 = i)).card
  marked : i ∈ t.store.degraded → 0 < t.cnt i
  lock : ∀ j, (t.stage a).on? = some j → j = i ∧ t.lock i.key = some a
  shares : (t.stage a).shares = true → a ∈ t.readers
  alone : t.writer = true → a ∉ t.readers
  stage : StageOk t a (t.stage a)
  covered : Covered t i (t.stage a)

/-- An actor's knowledge is about its own holdings and the intent it has the lock of. -/
theorem StageOk.of_local {a b : Nat} {i : MdIntent} {s t : State} {st : Stage} (hl : Local a i s t)
    (hb : b ≠ a) (hon : st.on? ≠ some i) (h : StageOk s b st) : StageOk t b st := by
  have hmine : ∀ j, (b, j) ∈ t.held ↔ (b, j) ∈ s.held := fun j => hl.held b j (.inl hb)
  cases st with
  | idle | gone | rejoining | rechecking => trivial
  | subscribing j | refreshing j | unsubscribing j =>
    simpa only [StageOk, hmine] using h
  | noted j | rollingBack j | locked j | calling j | marking j =>
    have hj : j ≠ i := fun hji => hon (by rw [hji]; rfl)
    simpa only [StageOk, hmine, hl.cnt j hj] using h
  | clearing j =>
    have hj : j ≠ i := fun hji => hon (by rw [hji]; rfl)
    simpa only [StageOk, hl.cnt j hj, hl.joined j hj] using h
  | leaving j | leaveCalling j | renoting j =>
    have hj : j ≠ i := fun hji => hon (by rw [hji]; rfl)
    simpa only [StageOk, hl.cnt j hj] using h
  | tearing todo => simpa only [StageOk, hmine] using h
  | tearLeaving j | tearCalling j =>
    have hj : j ≠ i := fun hji => hon (by rw [hji]; rfl)
    simpa only [StageOk, hmine, hl.cnt j hj] using h

theorem filter_card_of_local {a : Nat} {i j : MdIntent} {s t : State} (hl : Local a i s t)
    (hj : j ≠ i) : (t.held.filter (·.2 = j)).card = (s.held.filter (·.2 = j)).card := by
  congr 1
  ext ⟨b, x⟩
  simp only [Finset.mem_filter]
  constructor
  · rintro ⟨hm, rfl⟩
    exact ⟨(hl.held b x (.inr hj)).mp hm, rfl⟩
  · rintro ⟨hm, rfl⟩
    exact ⟨(hl.held b x (.inr hj)).mpr hm, rfl⟩

/-- A step on one intent, by the actor that has its lock or finds it free, keeps the invariant where
its own part does. -/
theorem Inv.of_local {a : Nat} {i : MdIntent} {s t : State} (h : Inv s) (hl : Local a i s t)
    (hlock : s.lock i.key = none ∨ s.lock i.key = some a)
    (hon : ∀ j, (s.stage a).on? = some j → j = i) (hown : Own a i t) : Inv t := by
  have hother := h.other_key hlock
  have hne : ∀ b, b ≠ a → (s.stage b).on? ≠ some i := fun b hb hj => hother b hb i hj rfl
  have hkeeps : ∀ j, j ≠ i → ∀ b, (s.stage b).on? = some j → t.stage b = s.stage b :=
    fun j hji b hb => hl.stage b fun hba => hji (hon j (hba ▸ hb))
  refine ⟨?_, ?_, ?_, ?_, ?_, ?_, ?_, ?_, ?_, ?_, ?_⟩
  · intro j
    by_cases hj : j = i
    · rw [hj]
      exact hown.counts
    · rw [hl.cnt j hj, h.counts j, filter_card_of_local hl hj]
  · intro j hj
    by_cases hji : j = i
    · rw [hji] at hj ⊢
      exact hown.marked hj
    · have := h.marked j ((hl.degraded j hji).mp hj)
      show 0 < t.cnt j
      rw [hl.cnt j hji]
      exact this
  · intro b j hb
    by_cases hba : b = a
    · subst hba
      obtain ⟨rfl, hk⟩ := hown.lock j hb
      exact hk
    · rw [hl.stage b hba] at hb
      rw [hl.lock _ (hother b hba j hb)]
      exact h.locks b j hb
  · intro b hb
    by_cases hba : b = a
    · subst hba
      exact hown.shares hb
    · rw [hl.stage b hba] at hb
      exact (hl.readers b hba).mpr (h.shares b hb)
  · intro hw
    have hempty := h.alone (hl.writer ▸ hw)
    refine Finset.eq_empty_iff_forall_notMem.mpr ?_
    intro b hb
    by_cases hba : b = a
    · exact hown.alone hw (hba ▸ hb)
    · have := (hl.readers b hba).mp hb
      rw [hempty] at this
      cases this
  · rw [hl.pump, hl.writer]
    exact h.writes
  · intro b
    by_cases hba : b = a
    · rw [hba]
      exact hown.stage
    · rw [hl.stage b hba]
      exact (h.stages b).of_local hl hba (hne b hba)
  · intro j hj
    by_cases hji : j = i
    · subst hji
      rcases hown.covered.joinedHeld hj with hpos | hab | hst
      · exact .inl hpos
      · exact .inr (.inl hab)
      · exact .inr (.inr ⟨a, hst⟩)
    · rcases h.joinedHeld j ((hl.joined j hji).mp hj) with hpos | hab | ⟨b, hb⟩
      · exact .inl (by rw [hl.cnt j hji]; exact hpos)
      · exact .inr (.inl ((hl.abandoned j hji).mpr hab))
      · exact .inr (.inr ⟨b, by rw [hkeeps j hji b (Stage.on_of_leaves hb)]; exact hb⟩)
  · intro j hpos
    by_cases hji : j = i
    · subst hji
      rcases hown.covered.heldJoined hpos with hd | hj | ho | hst
      · exact .inl hd
      · exact .inr (.inl hj)
      · exact .inr (.inr (.inl ho))
      · exact .inr (.inr (.inr ⟨a, hst⟩))
    · rw [hl.cnt j hji] at hpos
      rcases h.heldJoined j hpos with hd | hj | ho | ⟨b, hb⟩
      · exact .inl ((hl.degraded j hji).mpr hd)
      · exact .inr (.inl ((hl.joined j hji).mpr hj))
      · exact .inr (.inr (.inl (by rw [hl.pump]; exact ho)))
      · exact .inr (.inr (.inr ⟨b, by rw [hkeeps j hji b (Stage.on_of_first hb)]; exact hb⟩))
  · intro j hj
    rw [hl.pump] at hj
    by_cases hji : j = i
    · subst hji
      rcases hown.covered.todo (by rw [hl.pump]; exact hj) with hpos | hst
      · exact .inl hpos
      · exact .inr ⟨a, hst⟩
    · rcases h.todo j hj with hpos | ⟨b, hb⟩
      · exact .inl (by rw [hl.cnt j hji]; exact hpos)
      · exact .inr ⟨b, by rw [hkeeps j hji b (Stage.on_of_leaves hb)]; exact hb⟩
  · intro j hj
    by_cases hji : j = i
    · subst hji
      exact hown.covered.confirms hj
    · rw [hl.pump] at hj
      exact (hl.joined j hji).mpr (h.confirms j hj)

/-- Two states that differ in stages and locks only. -/
structure Same (s t : State) : Prop where
  store : t.store = s.store
  held : t.held = s.held
  joined : t.joined = s.joined
  abandoned : t.abandoned = s.abandoned
  writer : t.writer = s.writer
  pump : t.pump = s.pump

theorem Same.trans {s t u : State} (h : Same s t) (h' : Same t u) : Same s u where
  store := h'.store.trans h.store
  held := h'.held.trans h.held
  joined := h'.joined.trans h.joined
  abandoned := h'.abandoned.trans h.abandoned
  writer := h'.writer.trans h.writer
  pump := h'.pump.trans h.pump

theorem StageOk.of_same {s t : State} (h : Same s t) {a : Nat} {st : Stage} (hst : StageOk s a st) :
    StageOk t a st := by
  have hcnt : ∀ j, t.cnt j = s.cnt j := fun j => by simp only [State.cnt, h.store]
  have hsame : StageOk t a st ↔ StageOk s a st := by
    cases st <;> simp only [StageOk, hcnt, h.held, h.joined]
  exact hsame.mpr hst

theorem Local.of_same {a : Nat} {i : MdIntent} {s t : State} (h : Same s t)
    (hstage : ∀ b, b ≠ a → t.stage b = s.stage b) (hlock : ∀ k, k ≠ i.key → t.lock k = s.lock k)
    (hreaders : ∀ b, b ≠ a → (b ∈ t.readers ↔ b ∈ s.readers)) : Local a i s t where
  stage := hstage
  cnt j _ := by simp only [State.cnt, h.store]
  held b j _ := by rw [h.held]
  joined j _ := by rw [h.joined]
  abandoned j _ := by rw [h.abandoned]
  degraded j _ := by rw [h.store]
  lock := hlock
  readers := hreaders
  writer := h.writer
  pump := h.pump

theorem Local.trans {a : Nat} {i : MdIntent} {s t u : State} (h : Local a i s t)
    (h' : Local a i t u) : Local a i s u where
  stage b hb := (h'.stage b hb).trans (h.stage b hb)
  cnt j hj := (h'.cnt j hj).trans (h.cnt j hj)
  held b j hbj := (h'.held b j hbj).trans (h.held b j hbj)
  joined j hj := (h'.joined j hj).trans (h.joined j hj)
  abandoned j hj := (h'.abandoned j hj).trans (h.abandoned j hj)
  degraded j hj := (h'.degraded j hj).trans (h.degraded j hj)
  lock k hk := (h'.lock k hk).trans (h.lock k hk)
  readers b hb := (h'.readers b hb).trans (h.readers b hb)
  writer := h'.writer.trans h.writer
  pump := h'.pump.trans h.pump

section Frames

variable (s : State) (a : Nat) (i : MdIntent)

@[simp] theorem goto_stage (st : Stage) : (s.goto a st).stage a = st := by simp [State.goto]

@[simp] theorem finish_stage : (s.finish a i).stage a = .idle := by simp [State.finish]

@[simp] theorem take_lock : (s.take a i).lock i.key = some a := by simp [State.take]

theorem cnt_note (j : MdIntent) : (s.note a i).cnt j = s.cnt j + if j = i then 1 else 0 := by
  show (s.store.noteMd i).1.count (.md j) = s.store.count (.md j) + _
  simp [s.store.count_noteMd i (.md j)]

theorem cnt_forget (j : MdIntent) : (s.forget a i).cnt j = s.cnt j - if j = i then 1 else 0 := by
  show (s.store.forgetMd i).1.count (.md j) = s.store.count (.md j) - _
  simp [s.store.count_forgetMd i (.md j)]

theorem same_goto (st : Stage) : Same s (s.goto a st) := ⟨rfl, rfl, rfl, rfl, rfl, rfl⟩

theorem same_finish : Same s (s.finish a i) := ⟨rfl, rfl, rfl, rfl, rfl, rfl⟩

theorem same_share : Same s (s.share a) := ⟨rfl, rfl, rfl, rfl, rfl, rfl⟩

theorem same_unshare : Same s (s.unshare a) := ⟨rfl, rfl, rfl, rfl, rfl, rfl⟩

theorem same_take : Same s (s.take a i) := ⟨rfl, rfl, rfl, rfl, rfl, rfl⟩

theorem same_takeGate : Same s (s.takeGate a i) := ⟨rfl, rfl, rfl, rfl, rfl, rfl⟩

theorem local_goto (st : Stage) : Local a i s (s.goto a st) :=
  .of_same (same_goto s a st) (fun _ hb => Function.update_of_ne hb _ _) (fun _ _ => rfl)
    fun _ _ => Iff.rfl

theorem local_finish : Local a i s (s.finish a i) :=
  .of_same (same_finish s a i) (fun _ hb => Function.update_of_ne hb _ _)
    (fun _ hk => Function.update_of_ne hk _ _) fun _ hb => by simp [State.finish, hb]

theorem local_share : Local a i s (s.share a) :=
  .of_same (same_share s a) (fun _ _ => rfl) (fun _ _ => rfl) fun _ hb => by simp [State.share, hb]

theorem local_unshare : Local a i s (s.unshare a) :=
  .of_same (same_unshare s a) (fun _ _ => rfl) (fun _ _ => rfl) fun _ hb => by
    simp [State.unshare, hb]

theorem local_take : Local a i s (s.take a i) :=
  .of_same (same_take s a i) (fun _ _ => rfl) (fun _ hk => Function.update_of_ne hk _ _)
    fun _ _ => Iff.rfl

theorem local_takeGate : Local a i s (s.takeGate a i) :=
  .of_same (same_takeGate s a i) (fun _ _ => rfl) (fun _ hk => Function.update_of_ne hk _ _)
    fun _ _ => Iff.rfl

theorem local_note : Local a i s (s.note a i) where
  stage _ _ := rfl
  cnt j hj := by simp [cnt_note, hj]
  held b j hbj := by
    simp only [State.note, Finset.mem_insert, Prod.mk.injEq]
    tauto
  joined _ _ := Iff.rfl
  abandoned _ _ := Iff.rfl
  degraded _ _ := by simp [State.note]
  lock _ _ := rfl
  readers _ _ := Iff.rfl
  writer := rfl
  pump := rfl

theorem local_forget : Local a i s (s.forget a i) where
  stage _ _ := rfl
  cnt j hj := by simp [cnt_forget, hj]
  held b j hbj := by
    simp only [State.forget, Finset.mem_erase, ne_eq, Prod.mk.injEq]
    tauto
  joined _ _ := Iff.rfl
  abandoned _ _ := Iff.rfl
  degraded _ hj := by
    simp only [State.forget, IntentStore.degraded_forgetMd]
    split <;> simp [hj]
  lock _ _ := rfl
  readers _ _ := Iff.rfl
  writer := rfl
  pump := rfl

/-- A change of joins, of abandoned joins and of marks at one intent. -/
theorem local_of_joins {t : State} (hseat : t = { s with
      store := t.store, joined := t.joined, abandoned := t.abandoned })
    (hcnt : ∀ j, t.cnt j = s.cnt j) (hjoined : ∀ j, j ≠ i → (j ∈ t.joined ↔ j ∈ s.joined))
    (habandoned : ∀ j, j ≠ i → (j ∈ t.abandoned ↔ j ∈ s.abandoned))
    (hdegraded : ∀ j, j ≠ i → (j ∈ t.store.degraded ↔ j ∈ s.store.degraded)) :
    Local a i s t where
  stage _ _ := by rw [hseat]
  cnt j _ := hcnt j
  held _ _ _ := by rw [hseat]
  joined := hjoined
  abandoned := habandoned
  degraded := hdegraded
  lock _ _ := by rw [hseat]
  readers _ _ := by rw [hseat]
  writer := by rw [hseat]
  pump := by rw [hseat]

theorem local_addJoin : Local a i s (s.addJoin i) :=
  local_of_joins s a i rfl (fun _ => rfl) (fun _ hj => by simp [State.addJoin, hj])
    (fun _ _ => Iff.rfl) fun _ _ => Iff.rfl

theorem local_dropJoin : Local a i s (s.dropJoin i) :=
  local_of_joins s a i rfl (fun _ => rfl) (fun _ hj => by simp [State.dropJoin, hj])
    (fun _ hj => by simp [State.dropJoin, hj]) fun _ _ => Iff.rfl

theorem local_abandon : Local a i s (s.abandon i) :=
  local_of_joins s a i rfl (fun _ => rfl) (fun _ _ => Iff.rfl)
    (fun _ hj => by simp [State.abandon, hj]) fun _ _ => Iff.rfl

theorem local_markDegraded : Local a i s (s.markDegraded i) :=
  local_of_joins s a i rfl (fun _ => s.store.count_markDegraded _ _) (fun _ _ => Iff.rfl)
    (fun _ _ => Iff.rfl) fun _ hj => by
      simp only [State.markDegraded, IntentStore.degraded_markDegraded]
      split <;> simp [hj]

theorem local_clearDegraded : Local a i s (s.clearDegraded i) :=
  local_of_joins s a i rfl (fun _ => s.store.count_clearDegraded _ _) (fun _ _ => Iff.rfl)
    (fun _ _ => Iff.rfl) fun _ hj => by
      simp [State.clearDegraded, IntentStore.clearDegraded, hj]

end Frames

/-- The locks that the stage of an actor says it has. -/
structure Seated (a : Nat) (i : MdIntent) (t : State) : Prop where
  lock : ∀ j, (t.stage a).on? = some j → j = i ∧ t.lock i.key = some a
  shares : (t.stage a).shares = true → a ∈ t.readers
  alone : t.writer = true → a ∉ t.readers

theorem seated_unlocked {a : Nat} {i : MdIntent} {t : State} (hon : (t.stage a).on? = none)
    (hshares : (t.stage a).shares = false) (halone : t.writer = true → a ∉ t.readers) :
    Seated a i t where
  lock j hj := by simp [hon] at hj
  shares hsh := by simp [hshares] at hsh
  alone := halone

theorem seated_finish (s : State) (a : Nat) (i : MdIntent) : Seated a i (s.finish a i) :=
  seated_unlocked (by simp [Stage.on?]) (by simp [Stage.shares]) fun _ => by simp [State.finish]

theorem seated_goto {s : State} {a : Nat} {i : MdIntent} {st : Stage} (hon : st.on? = some i)
    (hlock : s.lock i.key = some a) (hshares : st.shares = true → a ∈ s.readers)
    (halone : s.writer = true → a ∉ s.readers) : Seated a i (s.goto a st) where
  lock j hj := by
    rw [goto_stage, hon] at hj
    exact ⟨(Option.some.inj hj).symm, hlock⟩
  shares hsh := by
    rw [goto_stage] at hsh
    exact hshares hsh
  alone := halone

theorem Covered.of_idle {s : State} {i : MdIntent} (st : Stage) (h : Covered s i .idle) :
    Covered s i st := by
  refine ⟨fun hi => ?_, fun hpos => ?_, fun hi => ?_, h.confirms⟩
  · rcases h.joinedHeld hi with hpos | hab | hst
    · exact .inl hpos
    · exact .inr (.inl hab)
    · cases hst
  · rcases h.heldJoined hpos with hd | hj | ho | hst
    · exact .inl hd
    · exact .inr (.inl hj)
    · exact .inr (.inr (.inl ho))
    · cases hst
  · rcases h.todo hi with hpos | hst
    · exact .inl hpos
    · cases hst

/-- The end of an operation: what is left to show is that the intent is settled. -/
theorem own_finish {s : State} {a : Nat} {i : MdIntent}
    (hcounts : s.cnt i = (s.held.filter (·.2 = i)).card)
    (hmarked : i ∈ s.store.degraded → 0 < s.cnt i) (hcov : Covered s i .idle) :
    Own a i (s.finish a i) where
  counts := hcounts
  marked := hmarked
  lock := (seated_finish s a i).lock
  shares := (seated_finish s a i).shares
  alone := (seated_finish s a i).alone
  stage := by simp [StageOk]
  covered := Covered.of_idle _ ⟨hcov.joinedHeld, hcov.heldJoined, hcov.todo, hcov.confirms⟩

theorem Inv.counts_of_same {s t : State} (h : Inv s) (hsame : Same s t) (i : MdIntent) :
    t.cnt i = (t.held.filter (·.2 = i)).card := by
  simpa only [State.cnt, hsame.store, hsame.held] using h.counts i

theorem Inv.marked_of_same {s t : State} (h : Inv s) (hsame : Same s t) (i : MdIntent) :
    i ∈ t.store.degraded → 0 < t.cnt i := by
  simpa only [State.cnt, hsame.store] using h.marked i

/-- A step that moves the actor on, and changes no count, no mark and no join. -/
theorem Inv.move {a : Nat} {i : MdIntent} {s t : State} (h : Inv s) (hl : Local a i s t)
    (hsame : Same s t) (hlock : s.lock i.key = none ∨ s.lock i.key = some a)
    (hon : ∀ j, (s.stage a).on? = some j → j = i) (hseated : Seated a i t)
    (hstage : StageOk s a (t.stage a))
    (hleaves : (s.stage a).leaves? = some i → (t.stage a).leaves? = some i)
    (hfirst : (s.stage a).first? = some i → (t.stage a).first? = some i) : Inv t := by
  have hcov := h.covered (a := a) hlock
  have hcnt : t.cnt i = s.cnt i := by simp only [State.cnt, hsame.store]
  refine h.of_local hl hlock hon ⟨h.counts_of_same hsame i, h.marked_of_same hsame i, hseated.lock,
    hseated.shares, hseated.alone, hstage.of_same hsame, ?_, ?_, ?_, ?_⟩
  · rw [hsame.joined, hsame.abandoned, hcnt]
    intro hi
    rcases hcov.joinedHeld hi with hpos | hab | hst
    · exact .inl hpos
    · exact .inr (.inl hab)
    · exact .inr (.inr (hleaves hst))
  · rw [hsame.joined, hsame.store, hsame.pump, hcnt]
    intro hpos
    rcases hcov.heldJoined hpos with hd | hj | ho | hst
    · exact .inl hd
    · exact .inr (.inl hj)
    · exact .inr (.inr (.inl ho))
    · exact .inr (.inr (.inr (hfirst hst)))
  · rw [hsame.pump, hcnt]
    intro hi
    rcases hcov.todo hi with hpos | hst
    · exact .inl hpos
    · exact .inr (hleaves hst)
  · rw [hsame.pump, hsame.joined]
    exact hcov.confirms

/-- A step between stages that have no lock. -/
theorem Inv.goto_unlocked {a : Nat} {s : State} {st : Stage} (h : Inv s)
    (hfrom : (s.stage a).on? = none) (hto : st.on? = none) (hshares : st.shares = false)
    (hstage : StageOk s a st) : Inv (s.goto a st) := by
  have hne : ∀ {b i}, (s.stage b).on? = some i → (s.goto a st).stage b = s.stage b := by
    intro b i hb
    refine Function.update_of_ne ?_ _ _
    rintro rfl
    rw [hfrom] at hb
    cases hb
  have hother : ∀ b, b ≠ a → (s.goto a st).stage b = s.stage b := fun b hb =>
    Function.update_of_ne hb _ _
  refine ⟨h.counts, h.marked, ?_, ?_, h.alone, h.writes, ?_, ?_, ?_, ?_, h.confirms⟩
  · intro b i hb
    by_cases hba : b = a
    · subst hba
      rw [goto_stage, hto] at hb
      cases hb
    · rw [hother b hba] at hb
      exact h.locks b i hb
  · intro b hb
    by_cases hba : b = a
    · subst hba
      rw [goto_stage, hshares] at hb
      cases hb
    · rw [hother b hba] at hb
      exact h.shares b hb
  · intro b
    by_cases hba : b = a
    · subst hba
      rw [goto_stage]
      exact hstage.of_same (same_goto s b st)
    · rw [hother b hba]
      exact (h.stages b).of_same (same_goto s a st)
  · intro i hi
    rcases h.joinedHeld i hi with hpos | hab | ⟨b, hb⟩
    · exact .inl hpos
    · exact .inr (.inl hab)
    · exact .inr (.inr ⟨b, by rw [hne (Stage.on_of_leaves hb)]; exact hb⟩)
  · intro i hpos
    rcases h.heldJoined i hpos with hd | hj | ho | ⟨b, hb⟩
    · exact .inl hd
    · exact .inr (.inl hj)
    · exact .inr (.inr (.inl ho))
    · exact .inr (.inr (.inr ⟨b, by rw [hne (Stage.on_of_first hb)]; exact hb⟩))
  · intro i hi
    rcases h.todo i hi with hpos | ⟨b, hb⟩
    · exact .inl hpos
    · exact .inr ⟨b, by rw [hne (Stage.on_of_leaves hb)]; exact hb⟩

theorem counts_note {s : State} {a : Nat} {i : MdIntent}
    (h : s.cnt i = (s.held.filter (·.2 = i)).card) (hmine : (a, i) ∉ s.held) :
    (s.note a i).cnt i = ((s.note a i).held.filter (·.2 = i)).card := by
  have hnew : (a, i) ∉ s.held.filter (·.2 = i) := fun hm => hmine (Finset.mem_filter.mp hm).1
  rw [cnt_note, if_pos rfl, h]
  simp only [State.note, Finset.filter_insert, if_true]
  exact (Finset.card_insert_of_notMem hnew).symm

theorem counts_forget {s : State} {a : Nat} {i : MdIntent}
    (h : s.cnt i = (s.held.filter (·.2 = i)).card) (hmine : (a, i) ∈ s.held) :
    (s.forget a i).cnt i = ((s.forget a i).held.filter (·.2 = i)).card := by
  have hold : (a, i) ∈ s.held.filter (·.2 = i) := Finset.mem_filter.mpr ⟨hmine, rfl⟩
  rw [cnt_forget, if_pos rfl, h]
  simp only [State.forget, Finset.filter_erase]
  exact (Finset.card_erase_of_mem hold).symm

theorem cnt_pos_of_held {s : State} (h : Inv s) {a : Nat} {i : MdIntent} (hmine : (a, i) ∈ s.held) :
    0 < s.cnt i := by
  rw [h.counts i]
  exact Finset.card_pos.mpr ⟨(a, i), Finset.mem_filter.mpr ⟨hmine, rfl⟩⟩

end RithmicNt.Host.Joins
