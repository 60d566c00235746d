import RithmicNt.Gateway.Binding

/-! No parent whose probe is answered takes the path from an open listener while it binds; one that
leaves can. -/

namespace RithmicNt.Gateway.Binding

open RithmicNt.Lib

variable {κ : Type} {i j : Nat} {s s' : Site κ} {p q : Place κ}
  {P Q : Pool (Site κ) (Place κ)}

theorem reached_eq_some : s.reached = some i ↔ (∃ mode, s.path = some ⟨i, mode⟩) ∧ i ∈ s.listening := by
  unfold Site.reached
  rw [Option.filter_eq_some_iff, Option.map_eq_some_iff]
  constructor
  · rintro ⟨⟨⟨_, mode⟩, hpath, rfl⟩, hopen⟩
    exact ⟨⟨mode, hpath⟩, by simpa using hopen⟩
  · rintro ⟨⟨mode, hpath⟩, hopen⟩
    exact ⟨⟨_, hpath, rfl⟩, by simpa using hopen⟩

/-- What holds while parent `i` is at its place. -/
structure Knows (i : Nat) (p : Place κ) (s : Site κ) : Prop where
  locked : p.locked = true → s.bindlock = some i
  early : p.early = true → i ∉ s.bound
  listens : i ∈ s.listening ↔ p.listens = true
  dead : p = .unlinking → s.reached = none
  clear : p = .binding → s.path = none

/-- What the step of parent `i` does at the path: nothing but to its mode, a bind of the free path, or
a removal, of an open listener's socket file only on the way out. -/
inductive Change (i : Nat) (p : Place κ) (s : Site κ) (r : Site κ × Place κ) : Prop
  | same (path : r.1.path = s.path ∨ r.1.path = s.path.map fun sock => { sock with mode := 0o600 })
      (cut : r.1.cut = s.cut) (bound : r.1.bound = s.bound)
      (listening : r.1.listening = s.listening ∨ r.1.listening = s.listening.erase i)
  | bound (path : s.path = none) (bindlock : s.bindlock = some i) (h : r.1 = s.bind i)
      (place : p = .binding)
  | removed (path : r.1.path = none)
      (cut : r.1.cut = (s.reached.map fun victim => (victim, i)).toList ++ s.cut)
      (bound : r.1.bound = s.bound)
      (listening : r.1.listening = s.listening ∨ r.1.listening = s.listening.erase i)
      (own : s.reached = none ∨ i ∉ s.listening ∧ p.leaving = true ∧ r.2.gone = true)

structure Goes (i : Nat) (p : Place κ) (s : Site κ) (r : Site κ × Place κ) : Prop where
  knows : Knows i r.2 r.1
  bindlock : ∀ j, j ≠ i → s.bindlock = some j → r.1.bindlock = some j
  gone : p.gone = true → r.2.gone = true
  leaving : r.2.leaving = true → p.leaving = true ∨ p.listens = true
  change : Change i p s r

variable {r : Site κ × Place κ}

theorem Change.listening_iff (h : Change i p s r) (hj : j ≠ i) :
    j ∈ r.1.listening ↔ j ∈ s.listening := by
  have hside : r.1.listening = s.listening ∨ r.1.listening = s.listening.erase i →
      (j ∈ r.1.listening ↔ j ∈ s.listening) := by
    rintro (h | h) <;> simp [h, hj]
  cases h with
  | same _ _ _ listening => exact hside listening
  | bound _ _ h => simp [h, Site.bind, hj]
  | removed _ _ _ listening => exact hside listening

theorem Change.bound_iff (h : Change i p s r) (hj : j ≠ i) : j ∈ r.1.bound ↔ j ∈ s.bound := by
  cases h with
  | same _ _ bound => rw [bound]
  | bound _ _ h => simp [h, Site.bind, hj]
  | removed _ _ bound => rw [bound]

/-- A parent without the bind flock brings no socket file to the path. -/
theorem Change.path_owner (h : Change i p s r) (hlock : s.bindlock ≠ some i) {sock : Socket}
    (hpath : r.1.path = some sock) : ∃ mode, s.path = some ⟨sock.owner, mode⟩ := by
  cases h with
  | same path =>
    rcases path with h | h
    · exact ⟨sock.mode, h.symm.trans hpath⟩
    · obtain ⟨⟨owner, mode⟩, hs, rfl⟩ := Option.map_eq_some_iff.mp (h.symm.trans hpath)
      exact ⟨mode, hs⟩
  | bound _ bindlock => exact absurd bindlock hlock
  | removed path =>
    rw [path] at hpath
    cases hpath

theorem Change.opens (h : Change i p s r) (hlock : s.bindlock ≠ some i) {k : Nat}
    (hk : k ∈ r.1.listening) : k ∈ s.listening := by
  have hside : r.1.listening = s.listening ∨ r.1.listening = s.listening.erase i →
      k ∈ s.listening := by
    rintro (h | h) <;> rw [h] at hk
    · exact hk
    · exact Finset.mem_of_mem_erase hk
  cases h with
  | same _ _ _ listening => exact hside listening
  | bound _ bindlock => exact absurd bindlock hlock
  | removed _ _ _ listening => exact hside listening

theorem Change.mode (h : Change i p s r)
    (hmode : ∀ sock, s.path = some sock → sock.mode = Site.bindMode ∨ sock.mode = 0o600)
    {sock : Socket} (hpath : r.1.path = some sock) :
    sock.mode = Site.bindMode ∨ sock.mode = 0o600 := by
  cases h with
  | same path =>
    rcases path with h | h
    · exact hmode sock (h.symm.trans hpath)
    · obtain ⟨_, _, rfl⟩ := Option.map_eq_some_iff.mp (h.symm.trans hpath)
      exact .inr rfl
  | bound _ _ h =>
    rw [h] at hpath
    cases hpath
    exact .inl rfl
  | removed path =>
    rw [path] at hpath
    cases hpath

/-- An open listener loses its path only to a removal, and that is recorded. -/
theorem Change.reached (h : Change i p s r)
    (hreached : ∀ k ∈ s.listening, s.reached = some k ∨ ∃ j, (k, j) ∈ s.cut) {k : Nat}
    (hk : k ∈ r.1.listening) : r.1.reached = some k ∨ ∃ j, (k, j) ∈ r.1.cut := by
  have hside : r.1.listening = s.listening ∨ r.1.listening = s.listening.erase i →
      k ∈ s.listening := by
    rintro (h | h) <;> rw [h] at hk
    · exact hk
    · exact Finset.mem_of_mem_erase hk
  cases h with
  | same path cut _ listening =>
    rw [cut]
    refine (hreached k (hside listening)).imp_left ?_
    intro hs
    obtain ⟨⟨mode, hs⟩, -⟩ := reached_eq_some.mp hs
    rw [hs] at path
    rcases path with h | h
    · exact reached_eq_some.mpr ⟨⟨mode, h⟩, hk⟩
    · exact reached_eq_some.mpr ⟨⟨0o600, h⟩, hk⟩
  | bound path _ h =>
    have hnone : s.reached = none := by simp [Site.reached, path]
    by_cases hki : k = i
    · subst hki
      refine .inl (reached_eq_some.mpr ⟨⟨Site.bindMode, ?_⟩, hk⟩)
      rw [h]
      rfl
    · refine .inr ?_
      have hks : k ∈ s.listening := by simpa [h, Site.bind, hki] using hk
      rw [h]
      exact (hreached k hks).resolve_left (by simp [hnone])
  | removed _ cut _ listening =>
    refine .inr ?_
    rw [cut]
    rcases hreached k (hside listening) with h | ⟨j, hj⟩
    · exact ⟨i, List.mem_append_left _ (by simp [h])⟩
    · exact ⟨j, List.mem_append_right _ hj⟩

theorem Change.cut (h : Change i p s r) {c : Nat × Nat} (hc : c ∈ r.1.cut) :
    c ∈ s.cut ∨ c.1 ≠ i ∧ c.2 = i ∧ r.2.gone = true := by
  cases h with
  | same _ cut => exact .inl (cut ▸ hc)
  | bound _ _ h =>
    rw [h] at hc
    exact .inl hc
  | removed _ cut _ _ own =>
    rw [cut] at hc
    rcases List.mem_append.mp hc with hc | hc
    · obtain ⟨victim, hvictim, rfl⟩ : ∃ victim, s.reached = some victim ∧ (victim, i) = c := by
        simpa using hc
      rcases own with h | ⟨hshut, -, hgone⟩
      · rw [h] at hvictim
        cases hvictim
      · refine .inr ⟨?_, rfl, hgone⟩
        intro hv
        obtain rfl : victim = i := hv
        exact hshut (reached_eq_some.mp hvictim).2
    · exact .inl hc

theorem Knows.stable (hk : Knows j q s) (hg : Goes i p s r) (hj : j ≠ i) : Knows j q r.1 := by
  have hbusy : q.locked = true → s.bindlock ≠ some i := by
    intro hq h
    exact hj (Option.some.inj ((hk.locked hq).symm.trans h))
  refine ⟨fun hq => hg.bindlock j hj (hk.locked hq),
    fun hq h => hk.early hq ((hg.change.bound_iff hj).mp h),
    (hg.change.listening_iff hj).trans hk.listens, ?_, ?_⟩
  · rintro rfl
    by_contra hne
    obtain ⟨k, hreached⟩ := Option.ne_none_iff_exists'.mp hne
    obtain ⟨⟨mode, hpath⟩, hopen⟩ := reached_eq_some.mp hreached
    have hs := reached_eq_some.mpr ⟨hg.change.path_owner (hbusy rfl) hpath,
      hg.change.opens (hbusy rfl) hopen⟩
    rw [hk.dead rfl] at hs
    cases hs
  · rintro rfl
    by_contra hne
    obtain ⟨sock, hpath⟩ := Option.ne_none_iff_exists'.mp hne
    obtain ⟨mode, hs⟩ := hg.change.path_owner (hbusy rfl) hpath
    rw [hk.clear rfl] at hs
    cases hs

/-! ### Steps -/

theorem goes_leave (p : Place κ) (s : Site κ) (i : Nat) (e : Exit) : Goes i p s (s.leave i e) := by
  refine ⟨⟨by simp [Site.leave, Place.locked], by simp [Site.leave, Place.early],
    by simp [Site.leave, Site.exit, Site.close, Place.listens], by simp [Site.leave],
    by simp [Site.leave]⟩, ?_, fun _ => rfl, by simp [Site.leave, Place.leaving],
    .same (.inl rfl) rfl rfl (.inr rfl)⟩
  intro j hj hlock
  have hne : s.bindlock ≠ some i := by
    rw [hlock]
    exact fun h => hj (Option.some.inj h)
  exact (if_neg hne).trans hlock

/-- The places have the flock and the listener alike, and the step neither goes back nor leaves. -/
def Place.alike (p q : Place κ) : Bool :=
  p.locked == q.locked && p.listens == q.listens && (!q.early || p.early) && (!p.gone || q.gone) &&
    (!q.leaving || p.leaving)

/-- A step to a place that is alike, which changes the credentials at most. -/
theorem goes_on (hk : Knows i p s) (halike : p.alike q = true)
    (hdead : q = .unlinking → s.reached = none) (hclear : q = .binding → s.path = none)
    (hsame : s' = { s with credentials := s'.credentials }) : Goes i p s (s', q) := by
  simp only [Place.alike, Bool.and_eq_true, beq_iff_eq, Bool.or_eq_true, Bool.not_eq_true'] at halike
  obtain ⟨⟨⟨⟨hlocked, hlistens⟩, hearly⟩, hgone⟩, hleaving⟩ := halike
  rw [hsame]
  refine ⟨⟨fun h => hk.locked (hlocked.trans h), fun h => hk.early (hearly.resolve_left ?_), ?_, hdead,
    hclear⟩, fun _ _ h => h, fun h => hgone.resolve_left ?_, fun h => .inl (hleaving.resolve_left ?_),
    .same (.inl rfl) rfl rfl (.inl rfl)⟩
  · simp [h]
  · rw [← hlistens]
    exact hk.listens
  · simp [h]
  · simp [h]

theorem goes_bind (hk : Knows i .binding s) : Goes i .binding s (s.bind i, .stating) := by
  refine ⟨⟨fun _ => hk.locked rfl, by simp [Place.early], by simp [Site.bind, Place.listens],
    by simp, by simp⟩, fun _ _ h => h, by simp [Place.gone], by simp [Place.leaving], ?_⟩
  exact .bound (hk.clear rfl) (hk.locked rfl) rfl rfl

theorem goes_unlink (hk : Knows i .unlinking s) :
    Goes i .unlinking s (s.removeFile i, .binding) := by
  refine ⟨⟨fun _ => hk.locked rfl, fun _ => hk.early rfl, hk.listens, by simp, fun _ => rfl⟩,
    fun _ _ h => h, by simp [Place.gone], by simp [Place.leaving], ?_⟩
  exact .removed rfl rfl rfl (.inl rfl) (.inl (hk.dead rfl))

theorem goes_remove (hk : Knows i (.removing false) s) :
    Goes i (.removing false) s (s.removeFile i, .detaching) := by
  have hshut : i ∉ s.listening := fun h => absurd (hk.listens.mp h) (by simp [Place.listens])
  refine ⟨⟨by simp [Place.locked], by simp [Place.early], hk.listens, by simp, by simp⟩,
    fun _ _ h => h, by simp [Place.gone], by simp [Place.leaving], ?_⟩
  exact .removed rfl rfl rfl (.inl rfl) (.inr ⟨hshut, rfl, rfl⟩)

/-- After a connect that failed the process ends with the removal. -/
theorem goes_removeAndLeave (hk : Knows i (.removing true) s) :
    Goes i (.removing true) s ((s.removeFile i).leave i .failed) := by
  have hshut : i ∉ s.listening := fun h => absurd (hk.listens.mp h) (by simp [Place.listens])
  have hleave := goes_leave (.removing true) (s.removeFile i) i .failed
  exact ⟨hleave.knows, hleave.bindlock, fun _ => rfl, hleave.leaving,
    .removed rfl rfl rfl (.inr rfl) (.inr ⟨hshut, rfl, rfl⟩)⟩

theorem goes_bindlock (hk : Knows i .bindWait s) (hfree : s.bindlock = none) :
    Goes i .bindWait s ({ s with bindlock := some i }, .looking) := by
  refine ⟨⟨fun _ => rfl, fun _ => hk.early rfl, hk.listens, by simp, by simp⟩, ?_,
    by simp [Place.gone], by simp [Place.leaving], .same (.inl rfl) rfl rfl (.inl rfl)⟩
  intro j _ hlock
  rw [hfree] at hlock
  cases hlock

/-- The mode is set, and the flock beside the path is dropped. -/
theorem goes_setMode (hk : Knows i .settingMode s) :
    Goes i .settingMode s ({ s.setMode 0o600 with bindlock := none }, .connecting) := by
  refine ⟨⟨by simp [Place.locked], by simp [Place.early], hk.listens, by simp, by simp⟩, ?_,
    by simp [Place.gone], by simp [Place.leaving], .same (.inr rfl) rfl rfl (.inl rfl)⟩
  intro j hj hlock
  exact absurd (Option.some.inj (hlock.symm.trans (hk.locked rfl))) hj

theorem goes_close (hp : p.listens = true) (hlocked : q.locked = false) (hearly : q.early = false)
    (hlistens : q.listens = false) (hgone : p.gone = true → q.gone = true) :
    Goes i p s (s.close i, q) := by
  refine ⟨⟨by simp [hlocked], by simp [hearly], by simp [Site.close, hlistens], ?_, ?_⟩,
    fun _ _ h => h, hgone, fun _ => .inr hp, .same (.inl rfl) rfl rfl (.inr rfl)⟩
  · rintro rfl
    cases hlocked
  · rintro rfl
    cases hlocked

/-- Every step of a parent; a connect fails only where nobody listens. -/
theorem goes_run [DecidableEq κ] {a : Act} (hk : Knows i p s)
    (hok : a = .fail → p = .probing → s.reached = none) (hr : s.run i p a = some r) :
    Goes i p s r := by
  unfold Site.run at hr
  split at hr
  · cases hr
  · cases hr
    exact goes_leave _ s i _
  · cases hr
    split
    · exact goes_on hk rfl (by simp) (by simp) rfl
    · exact goes_leave _ s i _
  · cases hr
    exact goes_on hk rfl (by simp) (by simp) rfl
  · split at hr
    · next hfree =>
      cases hr
      exact goes_bindlock hk hfree
    · cases hr
  · cases hr
    split
    · exact goes_on hk rfl (by simp) (by simp) rfl
    · next hempty =>
      exact goes_on hk rfl (by simp) (fun _ => by simpa using hempty) rfl
  · cases hr
    split
    · exact goes_leave _ s i _
    · next hdead =>
      exact goes_on hk rfl (fun _ => by simpa using hdead) (by simp) rfl
  · cases hr
    exact goes_on hk rfl (fun _ => hok rfl rfl) (by simp) rfl
  · cases hr
    split
    · exact goes_unlink hk
    · exact goes_leave _ s i _
  · cases hr
    split
    · exact goes_leave _ s i _
    · exact goes_bind hk
  · cases hr
    split
    · exact goes_on hk rfl (by simp) (by simp) rfl
    · exact goes_leave _ s i _
  · cases hr
    split
    · exact goes_setMode hk
    · exact goes_leave _ s i _
  · cases hr
    exact goes_leave _ s i _
  · cases hr
    exact goes_leave _ s i _
  · cases hr
    exact goes_leave _ s i _
  · cases hr
    exact goes_leave _ s i _
  · cases hr
    exact goes_leave _ s i _
  · cases hr
    exact goes_leave _ s i _
  · cases hr
    exact goes_on hk rfl (by simp) (by simp) rfl
  · cases hr
    exact goes_on hk rfl (by simp) (by simp) rfl
  · cases hr
    exact goes_on hk rfl (by simp) (by simp) rfl
  · cases hr
    exact goes_on hk rfl (by simp) (by simp) rfl
  · cases hr
    exact goes_close rfl rfl rfl rfl (by simp [Place.gone])
  · cases hr
    exact goes_on hk rfl (by simp) (by simp) rfl
  · cases hr
    exact goes_close rfl rfl rfl rfl (by simp [Place.gone])
  · cases hr
    exact goes_close rfl rfl rfl rfl (by simp [Place.gone])
  · cases hr
    exact goes_on hk rfl (by simp) (by simp) rfl
  · next failed =>
    cases hr
    cases failed with
    | true => exact goes_removeAndLeave hk
    | false => exact goes_remove hk
  · cases hr
    exact goes_leave _ s i _
  · cases hr

/-! ### Runs -/

structure Sound (P : Pool (Site κ) (Place κ)) : Prop where
  knows : ∀ i p, P.At i p → Knows i p P.shared
  bound : ∀ i ∈ P.shared.bound, i < P.threads.length
  listening : ∀ i ∈ P.shared.listening, i < P.threads.length
  mode : ∀ sock, P.shared.path = some sock → sock.mode = Site.bindMode ∨ sock.mode = 0o600
  reached : ∀ i ∈ P.shared.listening, P.shared.reached = some i ∨ ∃ j, (i, j) ∈ P.shared.cut
  cut : ∀ k ∈ P.shared.cut, k.1 ≠ k.2 ∧ ∃ p, P.At k.2 p ∧ p.gone = true

theorem sound_add (hP : Sound P) (k : κ) : Sound (P.add (P.shared, .acquiring k)) := by
  refine ⟨?_, ?_, ?_, hP.mode, hP.reached, ?_⟩
  · intro j q hq
    rcases Pool.at_add hq with hq | ⟨rfl, rfl⟩
    · exact hP.knows j q hq
    · refine ⟨by simp [Place.locked], ?_, ?_, by simp, by simp⟩
      · intro _ h
        exact Nat.lt_irrefl _ (hP.bound _ h)
      · have hshut : P.threads.length ∉ P.shared.listening := fun h =>
          Nat.lt_irrefl _ (hP.listening _ h)
        exact iff_of_false hshut (by simp [Place.listens])
  · intro i hi
    have := hP.bound i hi
    simp only [Pool.add, List.length_append, List.length_singleton]
    omega
  · intro i hi
    have := hP.listening i hi
    simp only [Pool.add, List.length_append, List.length_singleton]
    omega
  · intro c hc
    obtain ⟨hne, p, hp, hgone⟩ := hP.cut c hc
    exact ⟨hne, p, Pool.at_add_iff.mpr (.inl hp), hgone⟩

theorem length_put (P : Pool (Site κ) (Place κ)) (i : Nat) (r : Site κ × Place κ) :
    (P.put i r).threads.length = P.threads.length := List.length_set

theorem sound_put (hP : Sound P) (hp : P.At i p) (hg : Goes i p P.shared r) : Sound (P.put i r) := by
  have hlt := hp.lt_length
  have hgone : ∀ k, (∃ q, P.At k q ∧ q.gone = true) → ∃ q, (P.put i r).At k q ∧ q.gone = true := by
    rintro k ⟨q, hq, hgone⟩
    by_cases hki : k = i
    · subst hki
      obtain rfl : p = q := Option.some.inj (hp.symm.trans hq)
      exact ⟨r.2, (Pool.at_put_iff hp).mpr (.inr ⟨rfl, rfl⟩), hg.gone hgone⟩
    · exact ⟨q, (Pool.at_put_iff hp).mpr (.inl ⟨hki, hq⟩), hgone⟩
  refine ⟨?_, ?_, ?_, ?_, ?_, ?_⟩
  · intro j q hq
    rcases Pool.at_put hq with ⟨hne, hq⟩ | ⟨rfl, rfl⟩
    · exact (hP.knows j q hq).stable hg hne
    · exact hg.knows
  · intro j hj
    rw [length_put]
    by_cases hji : j = i
    · rw [hji]
      exact hlt
    · exact hP.bound j ((hg.change.bound_iff hji).mp hj)
  · intro j hj
    rw [length_put]
    by_cases hji : j = i
    · rw [hji]
      exact hlt
    · exact hP.listening j ((hg.change.listening_iff hji).mp hj)
  · intro sock hsock
    exact hg.change.mode hP.mode hsock
  · intro k hk
    exact hg.change.reached hP.reached hk
  · intro c hc
    rcases hg.change.cut hc with hc | ⟨hne, rfl, hleft⟩
    · obtain ⟨hne, hq⟩ := hP.cut c hc
      exact ⟨hne, hgone _ hq⟩
    · exact ⟨hne, r.2, (Pool.at_put_iff hp).mpr (.inr ⟨rfl, rfl⟩), hleft⟩

section Runs

variable [DecidableEq κ] {ok : Pool (Site κ) (Place κ) → Move κ Act → Prop}
  {trace : List (Move κ Act)}

omit [DecidableEq κ] in
theorem Answered.probe {a : Act} (hok : Answered P (.run i a)) (hp : P.At i p) :
    a = .fail → p = .probing → P.shared.reached = none := by
  rintro rfl rfl
  exact hok hp

theorem sound_step {m : Move κ Act} (hP : Sound P) (hok : Answered P m)
    (h : P.step Site.code m = some Q) : Sound Q := by
  obtain ⟨k, r, rfl, hr, rfl⟩ | ⟨i, a, p, r, rfl, hp, hr, rfl⟩ := Pool.step_cases h
  · cases hr
    exact sound_add hP k
  · exact sound_put hP hp (goes_run (hP.knows i p hp) (hok.probe hp) hr)

theorem sound_of_run (h : machine.Run Answered trace P) : Sound P := by
  refine h.invariant (I := Sound) ?_ fun _ _ _ hP hok hstep => sound_step hP hok hstep
  rintro ⟨s, threads⟩ ⟨rfl, rfl⟩
  refine ⟨?_, ?_, ?_, ?_, ?_, ?_⟩ <;> simp [Pool.At]

/-- Where connects to open listeners succeed, a bind never removes the socket file of an open listener
and never finds the path taken, the file is its owner's alone, and a listener loses it only to a parent
that is on its way out. -/
theorem never_stolen (h : machine.Run Answered trace P) :
    (∀ i, P.At i .unlinking → P.shared.reached = none) ∧
    (∀ i, P.At i .binding → P.shared.path = none) ∧
    (∀ sock, P.shared.path = some sock → sock.mode &&& 0o077 = 0) ∧
    ∀ i ∈ P.shared.listening, P.shared.reached = some i ∨
      ∃ j p, (i, j) ∈ P.shared.cut ∧ j ≠ i ∧ j ∉ P.shared.listening ∧ P.At j p ∧ p.gone = true := by
  have hP := sound_of_run h
  refine ⟨fun i hi => (hP.knows i _ hi).dead rfl, fun i hi => (hP.knows i _ hi).clear rfl, ?_, ?_⟩
  · intro sock hsock
    rcases hP.mode sock hsock with h | h <;> rw [h] <;> rfl
  · intro i hi
    refine (hP.reached i hi).imp_right ?_
    rintro ⟨j, hj⟩
    obtain ⟨hne, p, hp, hgone⟩ := hP.cut _ hj
    refine ⟨j, p, hj, fun e => hne e.symm, ?_, hp, hgone⟩
    intro hopen
    have := (hP.knows j p hp).listens.mp hopen
    cases p <;> simp_all [Place.listens, Place.gone]

/-! ### Runs without a late removal -/

structure Orderly (P : Pool (Site κ) (Place κ)) : Prop extends Sound P where
  uncut : P.shared.cut = []
  late : ∀ i p, P.At i p → p.leaving = true → P.shared.reached = none

omit [DecidableEq κ] in
theorem listens_of_leaving (h : p.leaving = true) : p.listens = false := by
  cases p <;> simp_all [Place.leaving, Place.listens]

omit [DecidableEq κ] in
theorem Sound.reached_of_uncut (hP : Sound P) (huncut : P.shared.cut = []) {k : Nat}
    (hk : k ∈ P.shared.listening) : P.shared.reached = some k := by
  refine (hP.reached k hk).resolve_right ?_
  rintro ⟨j, hj⟩
  rw [huncut] at hj
  cases hj

theorem orderly_step {m : Move κ Act} (hP : Orderly P) (hok : Prompt P m)
    (h : P.step Site.code m = some Q) : Orderly Q := by
  have hQ := sound_step hP.toSound hok.answered h
  obtain ⟨k, r, rfl, hr, rfl⟩ | ⟨i, a, p, r, rfl, hp, hr, rfl⟩ := Pool.step_cases h
  · cases hr
    refine ⟨hQ, hP.uncut, ?_⟩
    intro j q hq hleaving
    rcases Pool.at_add hq with hq | ⟨-, rfl⟩
    · exact hP.late j q hq hleaving
    · cases hleaving
  · have hg := goes_run (hP.knows i p hp) (hok.answered.probe hp) hr
    have huncut : r.1.cut = [] := by
      cases hg.change with
      | same _ cut => exact cut.trans hP.uncut
      | bound _ _ h =>
        rw [h]
        exact hP.uncut
      | removed _ cut _ _ own =>
        have hnone : P.shared.reached = none := own.elim id fun h => hP.late i p hp h.2.1
        rw [cut, hnone]
        exact hP.uncut
    refine ⟨hQ, huncut, ?_⟩
    intro j q hq hleaving
    by_contra hne
    obtain ⟨k, hreached⟩ := Option.ne_none_iff_exists'.mp hne
    obtain ⟨⟨mode, hpath⟩, hk⟩ := reached_eq_some.mp hreached
    -- A parent that is past its close has no listener.
    have hshut : j = i → q = r.2 → i ∉ r.1.listening := by
      rintro rfl rfl hopen
      exact absurd (hg.knows.listens.mp hopen) (by simp [listens_of_leaving hleaving])
    have hk : k ∈ r.1.listening := hk
    have hstill : P.shared.reached = some k → False := by
      intro hs
      rcases Pool.at_put hq with ⟨-, hq⟩ | ⟨hji, hqr⟩
      · exact absurd ((hP.late j q hq hleaving).symm.trans hs) (by simp)
      · rcases hg.leaving (hqr ▸ hleaving) with hlate | hlistens
        · exact absurd ((hP.late i p hp hlate).symm.trans hs) (by simp)
        · have hi := hP.reached_of_uncut hP.uncut ((hP.knows i p hp).listens.mpr hlistens)
          obtain rfl : i = k := Option.some.inj (hi.symm.trans hs)
          exact hshut hji hqr hk
    have hpath : r.1.path = some ⟨k, mode⟩ := hpath
    have hchange := hg.change
    cases hchange with
    | same path _ _ listening =>
      have hks : k ∈ P.shared.listening := by
        rcases listening with h | h <;> rw [h] at hk
        · exact hk
        · exact Finset.mem_of_mem_erase hk
      exact hstill (hP.reached_of_uncut hP.uncut hks)
    | bound _ _ hbind place =>
      have hopen : i ∈ r.1.listening := by simp [hbind, Site.bind]
      rcases Pool.at_put hq with ⟨-, hq⟩ | ⟨hji, hqr⟩
      · have hgo : a = .go := by
          subst place
          cases a with
          | go => rfl
          | lapse => cases hr
          | fail | crash =>
            cases hr
            exact absurd (hg.knows.listens.mp hopen) (by simp [Site.leave, Place.listens])
        subst hgo place
        exact absurd (hok hp q hq.mem) (by simp [hleaving])
      · exact hshut hji hqr hopen
    | removed path =>
      rw [path] at hpath
      cases hpath

theorem orderly_of_run (h : machine.Run Prompt trace P) : Orderly P := by
  refine h.invariant (I := Orderly) ?_ fun _ _ _ hP hok hstep => orderly_step hP hok hstep
  rintro ⟨s, threads⟩ hstart
  have hstarted : machine.Run Answered [] ⟨s, threads⟩ := .start hstart
  have hP := sound_of_run hstarted
  obtain ⟨rfl, rfl⟩ := hstart
  exact ⟨hP, rfl, by simp [Pool.At]⟩

/-- Where connects to open listeners succeed and no parent binds while another has still to remove the
path, the clients reach every parent that listens: there is at most one. -/
theorem one_listener (h : machine.Run Prompt trace P) (i : Nat) :
    i ∈ P.shared.listening ↔ P.shared.reached = some i := by
  have hP := orderly_of_run h
  exact ⟨hP.reached_of_uncut hP.uncut, fun h => (reached_eq_some.mp h).2⟩

end Runs

def steps (i n : Nat) : List (Move String Act) := List.replicate n (.run i .go)

/-- The second parent takes the credentials when the first has shut down, and binds before the first
removes the path. -/
def late : List (Move String Act) :=
  Move.spawn "login" :: steps 0 10 ++ Move.spawn "login" :: steps 1 10 ++ steps 0 1

/-- It serves under the flock of its credentials, and no client can reach it. -/
theorem never_stolen_late :
    ∃ P, machine.Run Answered late P ∧ P.At 1 .serving ∧ P.shared.credentials "login" = some 1 ∧
      P.shared.reached = none ∧ ∃ j p, (1, j) ∈ P.shared.cut ∧ j ≠ 1 ∧ j ∉ P.shared.listening ∧
        P.At j p ∧ p.gone = true := by
  have hexec : ∃ P, machine.exec Answered ⟨{}, []⟩ late = some P ∧
      P.At 1 .serving ∧ P.shared.credentials "login" = some 1 ∧ P.shared.reached = none ∧
      1 ∈ P.shared.listening := ⟨_, rfl, rfl, rfl, rfl, by decide⟩
  obtain ⟨P, hexec, hserving, hflock, hnone, hopen⟩ := hexec
  have hrun : machine.Run Answered late P := Machine.run_of_exec ⟨rfl, rfl⟩ hexec
  exact ⟨P, hrun, hserving, hflock, hnone,
    ((never_stolen hrun).2.2.2 1 hopen).resolve_left (by simp [hnone])⟩

/-- The second parent has no file descriptor left for its probe. -/
def failedProbe : List (Move String Act) :=
  Move.spawn "login" :: steps 0 8 ++ Move.spawn "other" :: steps 1 4 ++
    Move.run 1 Act.fail :: steps 1 4

/-- It takes the path from a parent that listens. -/
theorem stolen_failedProbe :
    ∃ P, machine.Run Machine.Free failedProbe P ∧ P.At 0 .serving ∧ P.At 1 .connecting ∧
      P.shared.reached = some 1 ∧ P.shared.cut = [(0, 1)] := by
  have hexec : ∃ P, machine.exec Machine.Free ⟨{}, []⟩ failedProbe = some P ∧ P.At 0 .serving ∧
      P.At 1 .connecting ∧ P.shared.reached = some 1 ∧ P.shared.cut = [(0, 1)] :=
    ⟨_, rfl, rfl, rfl, rfl, rfl⟩
  obtain ⟨P, hexec, hstolen⟩ := hexec
  exact ⟨P, Machine.run_of_exec ⟨rfl, rfl⟩ hexec, hstolen⟩

/-- A parent dies, and the next one takes its socket file away. -/
def takenOver : List (Move String Act) :=
  Move.spawn "login" :: steps 0 8 ++ [Move.run 0 Act.crash, .spawn "login"] ++ steps 1 10

theorem one_listener_takenOver :
    ∃ P, machine.Run Prompt takenOver P ∧ P.At 1 .serving ∧ P.shared.reached = some 1 := by
  have hexec : ∃ P, machine.exec Prompt ⟨{}, []⟩ takenOver = some P ∧ P.At 1 .serving ∧
      1 ∈ P.shared.listening := ⟨_, rfl, rfl, by decide⟩
  obtain ⟨P, hexec, hserving, hopen⟩ := hexec
  have hrun : machine.Run Prompt takenOver P := Machine.run_of_exec ⟨rfl, rfl⟩ hexec
  exact ⟨P, hrun, hserving, (one_listener hrun 1).mp hopen⟩

end RithmicNt.Gateway.Binding
