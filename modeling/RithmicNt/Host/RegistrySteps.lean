import RithmicNt.Host.Registry

/-! What a step of one thread may do to a host, and to the hosts, the registry and the locks
together: each operation keeps what holds between any two steps, and does to the others nothing that
they do not reckon with. -/

namespace RithmicNt.Host.Registry

open RithmicNt.Lib RithmicNt.Gateway.Paths

/-- A lock that thread `i` may take or release is held by no other. -/
theorem not_held {i j : Nat} {lock : Option Nat} (h : lock = none ∨ lock = some i) (hj : j ≠ i) :
    lock ≠ some j := by
  rintro rfl
  rcases h with h | h
  · cases h
  · exact hj (Option.some.inj h)

/-! ### One host -/

/-- What a step of thread `i` may do to a host.  `quiet`: the flags of a host whose attachment gate
another thread holds stay as they are. -/
structure SessionHost.Evolves (quiet : Bool) (i : Nat) (x y : SessionHost) : Prop where
  key : y.key = x.key
  done : x.shutdownDone = true → y.shutdownDone = true
  dead : x.strongCount = 0 → y.strongCount = 0
  calls : ∀ j ≠ i, j ∈ x.calls → j ∈ y.calls
  gate : ∀ j ≠ i, x.attachmentGate = some j → y.attachmentGate = some j
  shutdownGate : ∀ j ≠ i, x.shutdownGate = some j → y.shutdownGate = some j
  path : ∀ path, y.credentialLock.path? = some path → x.credentialLock.path? = some path
  flags : quiet = true → ∀ j ≠ i, x.attachmentGate = some j →
    y.closing = x.closing ∧ y.failed = x.failed

namespace SessionHost

variable {quiet : Bool} {i : Nat} {x y z : SessionHost}

theorem Evolves.refl (quiet : Bool) (i : Nat) (x : SessionHost) : x.Evolves quiet i x :=
  ⟨rfl, id, id, fun _ _ => id, fun _ _ => id, fun _ _ => id, fun _ => id,
    fun _ _ _ _ => ⟨rfl, rfl⟩⟩

theorem Evolves.trans (h : x.Evolves quiet i y) (h' : y.Evolves quiet i z) :
    x.Evolves quiet i z where
  key := h'.key.trans h.key
  done hd := h'.done (h.done hd)
  dead hd := h'.dead (h.dead hd)
  calls j hj hm := h'.calls j hj (h.calls j hj hm)
  gate j hj hg := h'.gate j hj (h.gate j hj hg)
  shutdownGate j hj hg := h'.shutdownGate j hj (h.shutdownGate j hj hg)
  path p hp := h.path p (h'.path p hp)
  flags hq j hj hg := by
    obtain ⟨hc, hf⟩ := h.flags hq j hj hg
    obtain ⟨hc', hf'⟩ := h'.flags hq j hj (h.gate j hj hg)
    exact ⟨hc'.trans hc, hf'.trans hf⟩

theorem path?_part (lock : CredentialLock) : lock.part.path? = lock.path? := by
  cases lock <;> rfl

theorem path?_drop (x : SessionHost) : x.drop.credentialLock.path? = x.credentialLock.path? := by
  simp only [drop]
  split
  · rfl
  · exact path?_part _

theorem evolves_dropLast (x : SessionHost) : x.Evolves quiet i x.dropLast := by
  unfold dropLast
  split
  · exact ⟨rfl, id, id, fun _ _ => id, fun _ _ => id, fun _ _ => id, fun p hp => path?_drop x ▸ hp,
      fun _ _ _ _ => ⟨rfl, rfl⟩⟩
  · exact .refl quiet i x

theorem strongCount_pos (h : i ∈ x.calls) : 0 < x.strongCount := by
  have := List.length_pos_of_mem h
  unfold strongCount
  omega

theorem evolves_enter (h : 0 < x.strongCount) : x.Evolves quiet i (x.enter i) where
  key := rfl
  done := id
  dead hd := by omega
  calls _ _ hm := List.mem_cons_of_mem _ hm
  gate _ _ := id
  shutdownGate _ _ := id
  path _ := id
  flags _ _ _ _ := ⟨rfl, rfl⟩

theorem evolves_erase (x : SessionHost) :
    x.Evolves quiet i { x with calls := x.calls.erase i } where
  key := rfl
  done := id
  dead hd := by
    have := List.length_erase_le (a := i) (l := x.calls)
    simp only [strongCount] at hd ⊢
    omega
  calls _ hj hm := (List.mem_erase_of_ne hj).mpr hm
  gate _ _ := id
  shutdownGate _ _ := id
  path _ := id
  flags _ _ _ _ := ⟨rfl, rfl⟩

theorem evolves_leave (x : SessionHost) : x.Evolves quiet i (x.leave i) :=
  (evolves_erase x).trans (evolves_dropLast _)

theorem evolves_handOver (h : i ∈ x.calls) : x.Evolves quiet i (x.handOver i) where
  key := rfl
  done := id
  dead hd := by
    have := strongCount_pos h
    omega
  calls _ hj hm := (List.mem_erase_of_ne hj).mpr hm
  gate _ _ := id
  shutdownGate _ _ := id
  path _ := id
  flags _ _ _ _ := ⟨rfl, rfl⟩

theorem evolves_letGo (x : SessionHost) : x.Evolves quiet i x.letGo := by
  have h : x.Evolves quiet i { x with handles := x.handles - 1 } :=
    { Evolves.refl quiet i x with
      dead := by
        intro hd
        simp only [strongCount] at hd ⊢
        omega }
  exact h.trans (evolves_dropLast _)

theorem evolves_lockGate (h : x.attachmentGate = none) : x.Evolves quiet i (x.lockGate i) :=
  { Evolves.refl quiet i x with gate := fun _ hj hg => absurd hg (not_held (.inl h) hj) }

theorem evolves_unlockGate (h : x.attachmentGate = some i) : x.Evolves quiet i x.unlockGate :=
  { Evolves.refl quiet i x with gate := fun _ hj hg => absurd hg (not_held (.inr h) hj) }

theorem evolves_lockShutdown (h : x.shutdownGate = none) :
    x.Evolves quiet i (x.lockShutdown i) :=
  { Evolves.refl quiet i x with
    shutdownGate := fun _ hj hg => absurd hg (not_held (.inl h) hj) }

theorem evolves_unlockShutdown (h : x.shutdownGate = some i) :
    x.Evolves quiet i x.unlockShutdown :=
  { Evolves.refl quiet i x with
    shutdownGate := fun _ hj hg => absurd hg (not_held (.inr h) hj) }

end SessionHost

/-! ### The hosts, the registry and the locks -/

/-- A path that is locked, by no host and no other process: the lock of a host that is starting. -/
structure Loose (s : State) (path : OsText) : Prop where
  locked : path ∈ s.locked
  outside : path ∉ s.outside
  hosts : ∀ (h : Nat) (x : SessionHost), s.hosts[h]? = some x →
    x.credentialLock.path? ≠ some path

/-- A host that is referenced and not shut down is not one that an entry may be taken from. -/
theorem SessionHost.not_gone {x : SessionHost} (hpos : 0 < x.strongCount)
    (hd : x.shutdownDone = false) : ¬ (x.strongCount = 0 ∨ x.shutdownDone = true) := by
  rintro (hz | ht)
  · omega
  · simp [hd] at ht

/-- The host of the entry is gone or shut down. -/
def Vacant (s : State) (key : HostFingerprint) : Prop :=
  ∀ g, s.entries.get? key = some g →
    ∃ x, s.hosts[g]? = some x ∧ (x.strongCount = 0 ∨ x.shutdownDone = true)

/-- What holds between any two steps.  `gated`: so far all of them were `Gated`. -/
structure Inv (gated : Bool) (s : State) : Prop extends Exclusive s where
  owned : gated = true → ∀ o ∈ s.owned, o.terminal = false
  locked : ∀ (h : Nat) (x : SessionHost) (path : OsText), s.hosts[h]? = some x →
    x.credentialLock.path? = some path → path ∈ s.locked ∧ path ∉ s.outside
  outside : ∀ path ∈ s.outside, path ∈ s.locked
  entry : ∀ key h, s.entries.get? key = some h → ∃ x, s.hosts[h]? = some x ∧ x.key = key
  evictions : ∀ key h, (key, h) ∈ s.evictions →
    ∃ x, s.hosts[h]? = some x ∧ x.key = key ∧ x.shutdownDone = true

/-- What a step of thread `i` may do. -/
structure Evolves (quiet : Bool) (i : Nat) (s t : State) : Prop where
  hosts : ∀ (h : Nat) (x : SessionHost), s.hosts[h]? = some x →
    ∃ y, t.hosts[h]? = some y ∧ x.Evolves quiet i y
  registry : ∀ j ≠ i, s.mutex = some j → t.mutex = some j ∧ t.entries = s.entries
  loose : ∀ j ≠ i, s.mutex = some j → ∀ path, Loose s path → Loose t path

/-- A step of thread `i`, from a state that is as it should be, to such a state. -/
structure Sound (gated quiet : Bool) (i : Nat) (s t : State) : Prop where
  inv : Inv gated t
  evolves : Evolves quiet i s t

variable {gated quiet : Bool} {i : Nat} {s t u : State} {h : Nat} {f : SessionHost → SessionHost}
  {key : HostFingerprint} {path : OsText}

theorem Evolves.trans (hst : Evolves quiet i s t) (htu : Evolves quiet i t u) :
    Evolves quiet i s u where
  hosts h x hx := by
    obtain ⟨y, hy, hxy⟩ := hst.hosts h x hx
    obtain ⟨z, hz, hyz⟩ := htu.hosts h y hy
    exact ⟨z, hz, hxy.trans hyz⟩
  registry j hj hm := by
    obtain ⟨hm', he⟩ := hst.registry j hj hm
    obtain ⟨hm'', he'⟩ := htu.registry j hj hm'
    exact ⟨hm'', he'.trans he⟩
  loose j hj hm path hl :=
    htu.loose j hj (hst.registry j hj hm).1 path (hst.loose j hj hm path hl)

theorem Sound.trans (hst : Sound gated quiet i s t) (htu : Sound gated quiet i t u) :
    Sound gated quiet i s u :=
  ⟨htu.inv, hst.evolves.trans htu.evolves⟩

theorem Inv.sound_refl (hs : Inv gated s) : Sound gated quiet i s s where
  inv := hs
  evolves :=
    { hosts := fun _ x hx => ⟨x, hx, .refl quiet i x⟩
      registry := fun _ _ hm => ⟨hm, rfl⟩
      loose := fun _ _ _ _ => id }

theorem hosts_modify {g : Nat} {x : SessionHost} (hx : s.hosts[g]? = some x) :
    (s.modify h f).hosts[g]? = some (if h = g then f x else x) := by
  simp only [State.modify, List.getElem?_modify, hx]
  rfl

theorem hosts_modify_self {x : SessionHost} (hx : s.hosts[h]? = some x) :
    (s.modify h f).hosts[h]? = some (f x) := by
  rw [hosts_modify hx, if_pos rfl]

/-- The hosts after a change of one of them, and what they were before. -/
theorem of_hosts_modify {g : Nat} {y : SessionHost} (hy : (s.modify h f).hosts[g]? = some y) :
    ∃ x, s.hosts[g]? = some x ∧ y = if h = g then f x else x := by
  simp only [State.modify, List.getElem?_modify] at hy
  obtain ⟨x, hx, rfl⟩ := Option.map_eq_some_iff.mp hy
  exact ⟨x, hx, rfl⟩

section Modify

variable (hf : ∀ x, s.hosts[h]? = some x → x.Evolves quiet i (f x))
include hf

theorem evolves_ite {g : Nat} {x : SessionHost} (hx : s.hosts[g]? = some x) :
    x.Evolves quiet i (if h = g then f x else x) := by
  split
  · next e =>
    subst e
    exact hf x hx
  · exact .refl quiet i x

theorem Evolves.modify : Evolves quiet i s (s.modify h f) where
  hosts g x hx := ⟨_, hosts_modify hx, evolves_ite hf hx⟩
  registry _ _ hm := ⟨hm, rfl⟩
  loose _ _ _ path hl := by
    refine ⟨hl.locked, hl.outside, ?_⟩
    intro g y hy hp
    obtain ⟨x, hx, rfl⟩ := of_hosts_modify hy
    exact hl.hosts g x hx ((evolves_ite hf hx).path path hp)

theorem Inv.modify (hs : Inv gated s) : Inv gated (s.modify h f) where
  single g₁ g₂ y₁ y₂ path hy₁ hy₂ hp₁ hp₂ := by
    obtain ⟨x₁, hx₁, rfl⟩ := of_hosts_modify hy₁
    obtain ⟨x₂, hx₂, rfl⟩ := of_hosts_modify hy₂
    exact hs.single g₁ g₂ x₁ x₂ path hx₁ hx₂ ((evolves_ite hf hx₁).path path hp₁)
      ((evolves_ite hf hx₂).path path hp₂)
  owned := hs.owned
  evicted := hs.evicted
  kept g y hy hpos hd := by
    obtain ⟨x, hx, rfl⟩ := of_hosts_modify hy
    have hxy := evolves_ite hf hx
    rw [hxy.key]
    refine hs.kept g x hx ?_ ?_
    · refine Nat.pos_of_ne_zero fun hz => ?_
      rw [hxy.dead hz] at hpos
      omega
    · refine Bool.eq_false_iff.mpr fun ht => ?_
      rw [hxy.done ht] at hd
      cases hd
  locked g y path hy hp := by
    obtain ⟨x, hx, rfl⟩ := of_hosts_modify hy
    exact hs.locked g x path hx ((evolves_ite hf hx).path path hp)
  outside := hs.outside
  entry key g hg := by
    obtain ⟨x, hx, hk⟩ := hs.entry key g hg
    exact ⟨_, hosts_modify hx, (evolves_ite hf hx).key.trans hk⟩
  evictions key g hg := by
    obtain ⟨x, hx, hk, hd⟩ := hs.evictions key g hg
    exact ⟨_, hosts_modify hx, (evolves_ite hf hx).key.trans hk, (evolves_ite hf hx).done hd⟩

theorem Inv.sound_modify (hs : Inv gated s) : Sound gated quiet i s (s.modify h f) :=
  ⟨hs.modify hf, .modify hf⟩

end Modify

theorem Inv.sound_at {x : SessionHost} (hs : Inv gated s) (hx : s.hosts[h]? = some x)
    (hxy : x.Evolves quiet i (f x)) : Sound gated quiet i s (s.modify h f) := by
  refine hs.sound_modify ?_
  intro y hy
  obtain rfl : x = y := Option.some.inj (hx.symm.trans hy)
  exact hxy

/-- A step that only takes or releases the registry's mutex. -/
theorem Inv.sound_mutex (hs : Inv gated s) (hm : s.mutex = none ∨ s.mutex = some i)
    (m : Option Nat) : Sound gated quiet i s { s with mutex := m } where
  inv := ⟨⟨hs.single, hs.evicted, hs.kept⟩, hs.owned, hs.locked, hs.outside, hs.entry, hs.evictions⟩
  evolves :=
    { hosts := fun _ x hx => ⟨x, hx, .refl quiet i x⟩
      registry := fun _ hj hm' => absurd hm' (not_held hm hj)
      loose := fun _ _ _ _ hl => ⟨hl.locked, hl.outside, hl.hosts⟩ }

theorem Inv.sound_free (hs : Inv gated s) (hm : s.mutex = some i) : Sound gated quiet i s s.free :=
  hs.sound_mutex (.inr hm) none

theorem live_iff {g : Nat} : s.live g = true ↔ ∃ x, s.hosts[g]? = some x ∧ 0 < x.strongCount := by
  simp [State.live, Option.any_eq_true]

/-- A step of the registry: it changes the entries alone, under the mutex, and removes only hosts
that are gone or shut down. -/
theorem Inv.sound_entries (hs : Inv gated s) (entries : Dict HostFingerprint Nat)
    (hm : s.mutex = none ∨ s.mutex = some i)
    (hsub : ∀ key h, entries.get? key = some h → s.entries.get? key = some h)
    (hkeep : ∀ key h, s.entries.get? key = some h → entries.get? key = some h ∨
      ∃ x, s.hosts[h]? = some x ∧ (x.strongCount = 0 ∨ x.shutdownDone = true)) :
    Sound gated quiet i s { s with entries } where
  inv :=
    { single := hs.single
      owned := hs.owned
      evicted := hs.evicted
      kept := by
        intro h x hx hpos hd
        rcases hkeep x.key h (hs.kept h x hx hpos hd) with he | ⟨y, hy, hgone⟩
        · exact he
        · obtain rfl : x = y := Option.some.inj (hx.symm.trans hy)
          exact absurd hgone (SessionHost.not_gone hpos hd)
      locked := hs.locked
      outside := hs.outside
      entry := fun key h he => hs.entry key h (hsub key h he)
      evictions := hs.evictions }
  evolves :=
    { hosts := fun _ x hx => ⟨x, hx, .refl quiet i x⟩
      registry := fun _ hj hm' => absurd hm' (not_held hm hj)
      loose := fun _ _ _ _ hl => ⟨hl.locked, hl.outside, hl.hosts⟩ }

theorem Inv.sound_retain (hs : Inv gated s) (hm : s.mutex = some i) :
    Sound gated quiet i s s.retain := by
  refine hs.sound_entries _ (.inr hm) ?_ ?_
  · intro key h he
    exact (Dict.get?_filter.mp he).1
  · intro key h he
    obtain ⟨x, hx, -⟩ := hs.entry key h he
    by_cases hpos : 0 < x.strongCount
    · exact .inl (Dict.get?_filter.mpr ⟨he, live_iff.mpr ⟨x, hx, hpos⟩⟩)
    · exact .inr ⟨x, hx, .inl (by omega)⟩

/-- Only the histories and the tasks to be run change. -/
theorem Inv.sound_log {evictions : List (HostFingerprint × Nat)} {owned : List Owned}
    {evicted : List Eviction} (hs : Inv gated s)
    (htasks : ∀ key h, (key, h) ∈ evictions →
      ∃ x, s.hosts[h]? = some x ∧ x.key = key ∧ x.shutdownDone = true)
    (howned : gated = true → ∀ o ∈ owned, o.terminal = false)
    (hevicted : ∀ e ∈ evicted, e.removed = e.host) :
    Sound gated quiet i s { s with evictions, owned, evicted } where
  inv := ⟨⟨hs.single, hevicted, hs.kept⟩, howned, hs.locked, hs.outside, hs.entry, htasks⟩
  evolves :=
    { hosts := fun _ x hx => ⟨x, hx, .refl quiet i x⟩
      registry := fun _ _ hm => ⟨hm, rfl⟩
      loose := fun _ _ _ _ hl => ⟨hl.locked, hl.outside, hl.hosts⟩ }

theorem Inv.sound_evict (hs : Inv gated s) (hm : s.mutex = none) (hmem : (key, h) ∈ s.evictions) :
    Sound gated quiet i s (s.evict key h) := by
  have htasks : ∀ key' h', (key', h') ∈ s.evictions.erase (key, h) →
      ∃ x, s.hosts[h']? = some x ∧ x.key = key' ∧ x.shutdownDone = true :=
    fun key' h' he => hs.evictions key' h' (List.mem_of_mem_erase he)
  have herase : Sound gated quiet i s { s with evictions := s.evictions.erase (key, h) } :=
    hs.sound_log htasks hs.owned hs.evicted
  simp only [State.evict]
  split
  · next g hg =>
    split
    · next heq =>
      subst heq
      -- The entry is the host's own, and the host is shut down.
      obtain ⟨x, hx, -, hdone⟩ := hs.evictions key g hmem
      have hentries : Sound gated quiet i { s with evictions := s.evictions.erase (key, g) }
          { s with
            evictions := s.evictions.erase (key, g)
            entries := s.entries.filter (·.1 ≠ key) } := by
        refine herase.inv.sound_entries _ (.inl hm) ?_ ?_
        · intro key' h' he
          exact (Dict.get?_filter.mp he).1
        · intro key' h' he
          by_cases hk : key' = key
          · subst hk
            obtain rfl : g = h' := Option.some.inj (hg.symm.trans he)
            exact .inr ⟨x, hx, .inr hdone⟩
          · exact .inl (Dict.get?_filter.mpr ⟨he, by simpa using hk⟩)
      refine (herase.trans hentries).trans (hentries.inv.sound_log htasks hs.owned ?_)
      intro e he
      rcases List.mem_cons.mp he with rfl | he
      · rfl
      · exact hs.evicted e he
    · exact herase
  · exact herase

/-- A path is locked that was free. -/
theorem Inv.sound_acquire (hs : Inv gated s) (hm : s.mutex = some i) (hfree : path ∉ s.locked) :
    Sound gated quiet i s { s with locked := path :: s.locked } ∧
      Loose { s with locked := path :: s.locked } path := by
  refine ⟨⟨⟨⟨hs.single, hs.evicted, hs.kept⟩, hs.owned, ?_, ?_, hs.entry, hs.evictions⟩, ?_⟩, ?_⟩
  · intro h x p hx hp
    obtain ⟨hl, ho⟩ := hs.locked h x p hx hp
    exact ⟨List.mem_cons_of_mem _ hl, ho⟩
  · intro p hp
    exact List.mem_cons_of_mem _ (hs.outside p hp)
  · refine ⟨fun _ x hx => ⟨x, hx, .refl quiet i x⟩, fun _ _ hm' => ⟨hm', rfl⟩, ?_⟩
    exact fun j hj hm' => absurd hm' (not_held (.inr hm) hj)
  · refine ⟨List.mem_cons_self .., fun ho => hfree (hs.outside path ho), ?_⟩
    intro h x hx hp
    exact hfree (hs.locked h x path hx hp).1

/-- A host drops its lock. -/
theorem Inv.sound_release {x : SessionHost} (hs : Inv gated s) (hx : s.hosts[h]? = some x)
    (hp : x.credentialLock.path? = some path) :
    Sound gated quiet i s ((s.modify h ({ · with credentialLock := .none })).unlock path) := by
  have hmod : Sound gated quiet i s (s.modify h ({ · with credentialLock := .none })) := by
    refine hs.sound_modify ?_
    intro y _
    exact { SessionHost.Evolves.refl quiet i y with path := fun p hp => by cases hp }
  -- No other host and no other process has the path.
  have hothers : ∀ (g : Nat) (y : SessionHost) (p : OsText),
      (s.modify h ({ · with credentialLock := .none })).hosts[g]? = some y →
      y.credentialLock.path? = some p → p ≠ path := by
    intro g y p hy hp' heq
    subst heq
    obtain ⟨z, hz, rfl⟩ := of_hosts_modify hy
    split at hp'
    · cases hp'
    · next hne => exact hne (hs.single h g x z p hx hz hp hp')
  have houtside : path ∉ s.outside := (hs.locked h x path hx hp).2
  have hkeep : ∀ p, p ≠ path → p ∈ s.locked → p ∈ s.locked.filter (· ≠ path) := by
    intro p hne hmem
    exact List.mem_filter.mpr ⟨hmem, by simpa using hne⟩
  have hinv := hmod.inv
  refine ⟨⟨⟨hinv.single, hinv.evicted, hinv.kept⟩, hinv.owned, ?_, ?_, hinv.entry, hinv.evictions⟩,
    hmod.evolves.hosts, hmod.evolves.registry, ?_⟩
  · intro g y p hy hp'
    obtain ⟨hl, ho⟩ := hinv.locked g y p hy hp'
    exact ⟨hkeep p (hothers g y p hy hp') hl, ho⟩
  · intro p hmem
    exact hkeep p (fun heq => houtside (heq ▸ hmem)) (hs.outside p hmem)
  · intro j hj hm p hl
    have hl' := hmod.evolves.loose j hj hm p hl
    have hne : p ≠ path := by
      intro heq
      exact hl.hosts h x hx (heq ▸ hp)
    exact ⟨hkeep p hne hl.locked, hl'.outside, hl'.hosts⟩

/-- Another process locks a path that was free. -/
theorem Inv.sound_take (hs : Inv gated s) (hfree : path ∉ s.locked) :
    Sound gated quiet i s { s with locked := path :: s.locked, outside := path :: s.outside } := by
  have hne : ∀ p ∈ s.locked, p ≠ path := fun p hp heq => hfree (heq ▸ hp)
  refine ⟨⟨⟨hs.single, hs.evicted, hs.kept⟩, hs.owned, ?_, ?_, hs.entry, hs.evictions⟩,
    fun _ x hx => ⟨x, hx, .refl quiet i x⟩, fun _ _ hm => ⟨hm, rfl⟩, ?_⟩
  · intro h x p hx hp
    obtain ⟨hl, ho⟩ := hs.locked h x p hx hp
    exact ⟨List.mem_cons_of_mem _ hl, by simp [hne p hl, ho]⟩
  · intro p hp
    rcases List.mem_cons.mp hp with rfl | hp
    · exact List.mem_cons_self ..
    · exact List.mem_cons_of_mem _ (hs.outside p hp)
  · intro j hj hm p hl
    exact ⟨List.mem_cons_of_mem _ hl.locked, by simp [hne p hl.locked, hl.outside], hl.hosts⟩

theorem Inv.sound_give (hs : Inv gated s) (hmem : path ∈ s.outside) :
    Sound gated quiet i s { s.unlock path with outside := s.outside.filter (· ≠ path) } := by
  have hkeep : ∀ p ∈ s.locked, p ∉ s.outside →
      p ∈ s.locked.filter (· ≠ path) ∧ p ∉ s.outside.filter (· ≠ path) := by
    intro p hl ho
    have hne : p ≠ path := fun heq => ho (heq ▸ hmem)
    exact ⟨List.mem_filter.mpr ⟨hl, by simpa using hne⟩, fun hp => ho (List.mem_filter.mp hp).1⟩
  refine ⟨⟨⟨hs.single, hs.evicted, hs.kept⟩, hs.owned, ?_, ?_, hs.entry, hs.evictions⟩,
    fun _ x hx => ⟨x, hx, .refl quiet i x⟩, fun _ _ hm => ⟨hm, rfl⟩, ?_⟩
  · intro h x p hx hp
    obtain ⟨hl, ho⟩ := hs.locked h x p hx hp
    exact hkeep p hl ho
  · intro p hp
    obtain ⟨hp, hne⟩ := List.mem_filter.mp hp
    exact List.mem_filter.mpr ⟨hs.outside p hp, hne⟩
  · intro j hj hm p hl
    obtain ⟨hl', ho'⟩ := hkeep p hl.locked hl.outside
    exact ⟨hl', ho', hl.hosts⟩

theorem hosts_begin {g : Nat} {x : SessionHost} (hx : s.hosts[g]? = some x) :
    (s.begin key path).hosts[g]? = some x := by
  obtain ⟨hlt, -⟩ := List.getElem?_eq_some_iff.mp hx
  simp only [State.begin]
  rw [List.getElem?_append_left hlt]
  exact hx

theorem of_hosts_begin {g : Nat} {y : SessionHost} (hy : (s.begin key path).hosts[g]? = some y) :
    s.hosts[g]? = some y ∨ g = s.hosts.length ∧ y = { key, credentialLock := .held path } := by
  simp only [State.begin] at hy
  rw [List.getElem?_append] at hy
  split at hy
  · exact .inl hy
  · rw [List.getElem?_singleton] at hy
    split at hy
    · exact .inr ⟨by omega, (Option.some.inj hy).symm⟩
    · cases hy

theorem hosts_begin_last :
    (s.begin key path).hosts[s.hosts.length]? = some { key, credentialLock := .held path } := by
  simp [State.begin]

/-- A host starts in a vacant entry, with a lock that nobody else has. -/
theorem Inv.sound_begin (hs : Inv gated s) (hm : s.mutex = some i) (hvacant : Vacant s key)
    (hloose : Loose s path) : Sound gated quiet i s (s.begin key path) := by
  have hne : ∀ (g : Nat) (x : SessionHost), s.hosts[g]? = some x → 0 < x.strongCount →
      x.shutdownDone = false → x.key ≠ key := by
    intro g x hx hpos hd heq
    obtain ⟨y, hy, hgone⟩ := hvacant g (heq ▸ hs.kept g x hx hpos hd)
    obtain rfl : x = y := Option.some.inj (hx.symm.trans hy)
    exact SessionHost.not_gone hpos hd hgone
  refine ⟨⟨⟨?_, hs.evicted, ?_⟩, hs.owned, ?_, hs.outside, ?_, ?_⟩, ?_, ?_, ?_⟩
  · intro g₁ g₂ y₁ y₂ p hy₁ hy₂ hp₁ hp₂
    rcases of_hosts_begin hy₁ with hy₁ | ⟨rfl, rfl⟩ <;>
      rcases of_hosts_begin hy₂ with hy₂ | ⟨rfl, rfl⟩
    · exact hs.single g₁ g₂ y₁ y₂ p hy₁ hy₂ hp₁ hp₂
    · cases hp₂
      exact absurd hp₁ (hloose.hosts g₁ y₁ hy₁)
    · cases hp₁
      exact absurd hp₂ (hloose.hosts g₂ y₂ hy₂)
    · rfl
  · intro g y hy hpos hd
    rcases of_hosts_begin hy with hy | ⟨rfl, rfl⟩
    · exact (Dict.get?_set_of_ne _ (hne g y hy hpos hd) _).trans (hs.kept g y hy hpos hd)
    · exact Dict.get?_set_self ..
  · intro g y p hy hp
    rcases of_hosts_begin hy with hy | ⟨rfl, rfl⟩
    · exact hs.locked g y p hy hp
    · cases hp
      exact ⟨hloose.locked, hloose.outside⟩
  · intro key' g hg
    simp only [State.begin, Dict.get?_set] at hg
    split at hg
    · next heq =>
      cases hg
      exact ⟨_, hosts_begin_last, heq.symm⟩
    · obtain ⟨x, hx, hk⟩ := hs.entry key' g hg
      exact ⟨x, hosts_begin hx, hk⟩
  · intro key' g hg
    obtain ⟨x, hx, hk⟩ := hs.evictions key' g hg
    exact ⟨x, hosts_begin hx, hk⟩
  · exact fun g x hx => ⟨x, hosts_begin hx, .refl quiet i x⟩
  · exact fun j hj hm' => absurd hm' (not_held (.inr hm) hj)
  · exact fun j hj hm' => absurd hm' (not_held (.inr hm) hj)

end RithmicNt.Host.Registry
