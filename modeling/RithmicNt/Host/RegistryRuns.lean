import RithmicNt.Host.RegistrySteps

/-! The registry over whole runs: what holds while a thread is at its place, the steps of every
call, and the runs of any threads together. -/

namespace RithmicNt.Host.Registry

open RithmicNt.Lib RithmicNt.Gateway.Paths

variable {gated quiet : Bool} {i : Nat} {s t u : State} {h : Nat} {f : SessionHost → SessionHost}
  {key : HostFingerprint} {path : OsText}

/-! ### What holds at a place -/

/-- Thread `i` is in a call of host `h`, of which `Q` holds. -/
def InCall (s : State) (i h : Nat) (Q : SessionHost → Prop) : Prop :=
  ∃ x, s.hosts[h]? = some x ∧ i ∈ x.calls ∧ Q x

def At (i : Nat) (s : State) : Place → Prop
  | .start _ _ .waiting => True
  | .start _ _ .retain | .start _ _ .upgrade => s.mutex = some i
  | .start key _ (.closing h) | .start key _ (.failed h) =>
    s.mutex = some i ∧ s.entries.get? key = some h ∧ InCall s i h fun _ => True
  | .start key _ .acquire => s.mutex = some i ∧ Vacant s key
  | .start key path .begin => s.mutex = some i ∧ Vacant s key ∧ Loose s path
  | .attach h _ pc => InCall s i h fun x => pc ≠ .gate → x.attachmentGate = some i
  | .detach h pc => InCall s i h fun x => pc ≠ .gate → x.attachmentGate = some i
  | .shutdown h caller pc =>
    (InCall s i h fun x =>
      (pc ≠ .gate → x.shutdownGate = some i) ∧ (pc = .callback → x.shutdownDone = true)) ∧
    ∀ key path, caller = some (key, path) → s.mutex = some i ∧ s.entries.get? key = some h
  | .pump _ | .ended _ => True

/-- The flags that an `attach_owned` has loaded are still off. -/
def Open (gated : Bool) (s : State) (p : Place) : Prop :=
  gated = true → ∀ (h : Nat) (x : SessionHost), s.hosts[h]? = some x →
    (p.pastClosing h = true → x.closing = false) ∧ (p.pastFailed h = true → x.failed = false)

theorem InCall.mono {j : Nat} {Q : SessionHost → Prop} (hst : Evolves quiet i s t) (hj : j ≠ i)
    (hQ : ∀ x y : SessionHost, x.Evolves quiet i y → Q x → Q y) (hc : InCall s j h Q) :
    InCall t j h Q := by
  obtain ⟨x, hx, hmem, hq⟩ := hc
  obtain ⟨y, hy, hxy⟩ := hst.hosts h x hx
  exact ⟨y, hy, hxy.calls j hj hmem, hQ x y hxy hq⟩

theorem Vacant.mono (hst : Evolves quiet i s t) (he : t.entries = s.entries) (hv : Vacant s key) :
    Vacant t key := by
  intro g hg
  rw [he] at hg
  obtain ⟨x, hx, hgone⟩ := hv g hg
  obtain ⟨y, hy, hxy⟩ := hst.hosts g x hx
  refine ⟨y, hy, ?_⟩
  rcases hgone with hz | hd
  · exact .inl (hxy.dead hz)
  · exact .inr (hxy.done hd)

/-- The steps of the other threads keep what holds at a place. -/
theorem At.mono {j : Nat} {p : Place} (hst : Evolves quiet i s t) (hj : j ≠ i) (hp : At j s p) :
    At j t p := by
  have hgate : ∀ x y : SessionHost, x.Evolves quiet i y → x.attachmentGate = some j →
      y.attachmentGate = some j := fun x y hxy => hxy.gate j hj
  cases p with
  | start key path pc =>
    cases pc with
    | waiting => trivial
    | retain => exact (hst.registry j hj hp).1
    | upgrade => exact (hst.registry j hj hp).1
    | closing h | failed h =>
      obtain ⟨hm, he, hc⟩ := hp
      obtain ⟨hm', he'⟩ := hst.registry j hj hm
      exact ⟨hm', he' ▸ he, hc.mono hst hj fun _ _ _ => id⟩
    | acquire =>
      obtain ⟨hm, hv⟩ := hp
      obtain ⟨hm', he'⟩ := hst.registry j hj hm
      exact ⟨hm', hv.mono hst he'⟩
    | begin =>
      obtain ⟨hm, hv, hl⟩ := hp
      obtain ⟨hm', he'⟩ := hst.registry j hj hm
      exact ⟨hm', hv.mono hst he', hst.loose j hj hm _ hl⟩
  | attach h owned pc =>
    exact InCall.mono hst hj (fun x y hxy hg hpc => hgate x y hxy (hg hpc)) hp
  | detach h pc => exact InCall.mono hst hj (fun x y hxy hg hpc => hgate x y hxy (hg hpc)) hp
  | shutdown h caller pc =>
    obtain ⟨hc, hcaller⟩ := hp
    refine ⟨hc.mono hst hj fun x y hxy hx => ?_, fun key path heq => ?_⟩
    · exact ⟨fun hpc => hxy.shutdownGate j hj (hx.1 hpc), fun hpc => hxy.done (hx.2 hpc)⟩
    · obtain ⟨hm, he⟩ := hcaller key path heq
      obtain ⟨hm', he'⟩ := hst.registry j hj hm
      exact ⟨hm', he' ▸ he⟩
  | pump h => trivial
  | ended outcome => trivial

theorem pastClosing_of_pastFailed {p : Place} (hp : p.pastFailed h = true) :
    p.pastClosing h = true := by
  unfold Place.pastFailed at hp
  split at hp
  · exact hp
  · exact hp
  · cases hp

/-- An `attach_owned` that has loaded a flag has the gate. -/
theorem gate_of_pastClosing {p : Place} (hp : p.pastClosing h = true) (hat : At i s p) :
    ∃ x, s.hosts[h]? = some x ∧ x.attachmentGate = some i := by
  have hplace : ∃ pc, pc ≠ .gate ∧ p = .attach h true pc := by
    unfold Place.pastClosing at hp
    split at hp
    · exact ⟨.failed, by decide, by rw [of_decide_eq_true hp]⟩
    · exact ⟨.count, by decide, by rw [of_decide_eq_true hp]⟩
    · exact ⟨.register, by decide, by rw [of_decide_eq_true hp]⟩
    · cases hp
  obtain ⟨pc, hpc, rfl⟩ := hplace
  obtain ⟨x, hx, -, hg⟩ := hat
  exact ⟨x, hx, hg hpc⟩

theorem Open.mono {j : Nat} {p : Place} (hst : Evolves true i s t) (hj : j ≠ i) (hat : At j s p)
    (ho : Open gated s p) : Open gated t p := by
  have hflags : ∀ (h : Nat) (y : SessionHost), t.hosts[h]? = some y → p.pastClosing h = true →
      ∃ x, s.hosts[h]? = some x ∧ y.closing = x.closing ∧ y.failed = x.failed := by
    intro h y hy hp
    obtain ⟨x, hx, hg⟩ := gate_of_pastClosing hp hat
    obtain ⟨y', hy', hxy⟩ := hst.hosts h x hx
    obtain rfl : y' = y := Option.some.inj (hy'.symm.trans hy)
    exact ⟨x, hx, hxy.flags rfl j hj hg⟩
  intro hgated h y hy
  refine ⟨fun hp => ?_, fun hp => ?_⟩
  · obtain ⟨x, hx, hc, -⟩ := hflags h y hy hp
    exact hc.trans ((ho hgated h x hx).1 hp)
  · obtain ⟨x, hx, -, hf⟩ := hflags h y hy (pastClosing_of_pastFailed hp)
    exact hf.trans ((ho hgated h x hx).2 hp)

/-- A place at which no flag has been loaded. -/
theorem open_of_not_past {p : Place} (hp : ∀ h, p.pastClosing h = false) : Open gated s p := by
  intro _ h x _
  refine ⟨fun hc => ?_, fun hf => ?_⟩
  · simp [hp h] at hc
  · exact absurd (pastClosing_of_pastFailed hf) (by simp [hp h])

/-! ### The steps of a call -/

/-- Thread `i` goes on to a place of which all holds that is to hold there. -/
structure Next (gated quiet : Bool) (i : Nat) (s : State) (r : State × Place) : Prop where
  sound : Sound gated quiet i s r.1
  place : At i r.1 r.2
  isOpen : Open gated r.1 r.2

theorem Sound.ended (hst : Sound gated quiet i s t) (outcome : Outcome) :
    Next gated quiet i s (t, .ended outcome) :=
  ⟨hst, trivial, open_of_not_past fun _ => rfl⟩

theorem Sound.start (hst : Sound gated quiet i s t) {pc : Start}
    (hat : At i t (.start key path pc)) : Next gated quiet i s (t, .start key path pc) :=
  ⟨hst, hat, open_of_not_past fun _ => rfl⟩

theorem Sound.shutdown (hst : Sound gated quiet i s t) {caller : Option (HostFingerprint × OsText)}
    {pc : Shutdown} (hat : At i t (.shutdown h caller pc)) :
    Next gated quiet i s (t, .shutdown h caller pc) :=
  ⟨hst, hat, open_of_not_past fun _ => rfl⟩

/-- A `get_or_start` that found its host terminal. -/
theorem at_shutdown_gate (hm : s.mutex = some i) (he : s.entries.get? key = some h)
    (hc : InCall s i h fun _ => True) : At i s (.shutdown h (some (key, path)) .gate) := by
  obtain ⟨x, hx, hmem, -⟩ := hc
  refine ⟨⟨x, hx, hmem, fun hne => absurd rfl hne, fun hpc => by cases hpc⟩, ?_⟩
  intro key' path' heq
  cases heq
  exact ⟨hm, he⟩

theorem vacant_of_not_live (hs : Inv gated s) (he : s.entries.get? key = some h)
    (hlive : ¬ s.live h = true) : Vacant s key := by
  intro g hg
  obtain rfl : h = g := Option.some.inj (he.symm.trans hg)
  obtain ⟨x, hx, -⟩ := hs.entry key h hg
  refine ⟨x, hx, .inl ?_⟩
  by_contra hpos
  exact hlive (live_iff.mpr ⟨x, hx, by omega⟩)

theorem getOrStart_next {pc : Start} {a : Action} {r : State × Place} (hs : Inv gated s)
    (hp : At i s (.start key path pc)) (hr : getOrStart i s key path pc a = some r) :
    Next gated true i s r := by
  unfold getOrStart at hr
  split at hr
  · -- waiting
    split at hr
    · next hm =>
      cases hr
      exact (hs.sound_mutex (.inl hm) _).start rfl
    · cases hr
  · cases hr
    exact hs.sound_refl.ended _
  · cases hr
    exact (hs.sound_retain hp).start hp
  · -- upgrade
    split at hr
    · next h he =>
      split at hr
      · next hlive =>
        cases hr
        obtain ⟨x, hx, hpos⟩ := live_iff.mp hlive
        refine (hs.sound_at hx (SessionHost.evolves_enter hpos)).start ⟨hp, he, ?_⟩
        exact ⟨_, hosts_modify_self hx, List.mem_cons_self .., trivial⟩
      · next hlive =>
        cases hr
        exact hs.sound_refl.start ⟨hp, vacant_of_not_live hs he hlive⟩
    · next he =>
      cases hr
      exact hs.sound_refl.start ⟨hp, fun g hg => by simp [he] at hg⟩
  · -- the load of `closing`
    obtain ⟨x, -, rfl⟩ := Option.map_eq_some_iff.mp hr
    obtain ⟨hm, he, hc⟩ := hp
    split
    · exact hs.sound_refl.shutdown (at_shutdown_gate hm he hc)
    · exact hs.sound_refl.start ⟨hm, he, hc⟩
  · -- the load of `failed`
    next h =>
    obtain ⟨x, -, rfl⟩ := Option.map_eq_some_iff.mp hr
    obtain ⟨hm, he, hc⟩ := hp
    split
    · exact hs.sound_refl.shutdown (at_shutdown_gate hm he hc)
    · obtain ⟨y, hy, hmem, -⟩ := hc
      have hmod : Sound gated true i s (s.modify h (·.handOver i)) :=
        hs.sound_at hy (SessionHost.evolves_handOver hmem)
      exact (hmod.trans (hmod.inv.sound_free hm)).ended _
  · -- acquire
    obtain ⟨hm, hv⟩ := hp
    split at hr
    · cases hr
      exact (hs.sound_free hm).ended _
    · next hfree =>
      cases hr
      obtain ⟨hsound, hloose⟩ := hs.sound_acquire hm hfree
      exact hsound.start ⟨hm, hv, hloose⟩
  · cases hr
    exact (hs.sound_free hp.1).ended _
  · -- begin
    cases hr
    obtain ⟨hm, hv, hl⟩ := hp
    have hbegin : Sound gated true i s (s.begin key path) := hs.sound_begin hm hv hl
    exact (hbegin.trans (hbegin.inv.sound_free hm)).ended _
  · cases hr

theorem SessionHost.evolves_registered {x : SessionHost} (hmem : i ∈ x.calls)
    (hg : x.attachmentGate = some i) : x.Evolves quiet i (registered i x) :=
  { SessionHost.evolves_unlockGate hg with
    dead := fun hd => by
      have := SessionHost.strongCount_pos hmem
      omega
    calls := fun _ hj hm => (List.mem_erase_of_ne hj).mpr hm }

theorem SessionHost.evolves_refused {x : SessionHost} (hg : x.attachmentGate = some i) :
    x.Evolves quiet i (x.unlockGate.leave i) :=
  (SessionHost.evolves_unlockGate hg).trans (SessionHost.evolves_leave _)

/-- An `attach` of a host that the flags of are off as far as they have been loaded. -/
theorem open_attach {owned : Bool} {pc : Attach}
    (hx : gated = true → ∀ x : SessionHost, s.hosts[h]? = some x → owned = true →
      x.closing = false ∧ (pc ≠ .failed → x.failed = false)) :
    Open gated s (.attach h owned pc) := by
  cases owned with
  | false => exact open_of_not_past fun _ => rfl
  | true =>
    cases pc with
    | gate => exact open_of_not_past fun _ => rfl
    | closing => exact open_of_not_past fun _ => rfl
    | failed =>
      intro hgated g x hg
      refine ⟨fun hc => ?_, fun hf => (by cases hf)⟩
      obtain rfl : h = g := of_decide_eq_true hc
      exact (hx hgated x hg rfl).1
    | count | register =>
      intro hgated g x hg
      refine ⟨fun hc => ?_, fun hc => ?_⟩
      · obtain rfl : h = g := of_decide_eq_true hc
        exact (hx hgated x hg rfl).1
      · obtain rfl : h = g := of_decide_eq_true hc
        exact (hx hgated x hg rfl).2 (by decide)

theorem attach_next {owned : Bool} {pc : Attach} {a : Action} {r : State × Place} (hs : Inv gated s)
    (hp : At i s (.attach h owned pc)) (ho : Open gated s (.attach h owned pc))
    (hr : attach i s h owned pc a = some r) : Next gated true i s r := by
  obtain ⟨x, hx, hmem, hg⟩ := hp
  have hrefuse : pc ≠ .gate → Next gated true i s (refuse i s h) := fun hpc =>
    (hs.sound_at hx (SessionHost.evolves_refused (hg hpc))).ended _
  unfold attach at hr
  simp only [hx, Option.bind_some, Option.map_some] at hr
  split at hr
  · -- The gate.
    split at hr
    · next hfree =>
      cases hr
      refine ⟨hs.sound_at hx (SessionHost.evolves_lockGate hfree), ?_, ?_⟩
      · exact ⟨_, hosts_modify_self hx, hmem, fun _ => rfl⟩
      · cases owned <;> exact open_of_not_past fun _ => rfl
    · cases hr
  · -- The load of `closing`.
    cases hr
    split
    · exact hrefuse (by decide)
    · next hclosing =>
      refine ⟨hs.sound_refl, ⟨x, hx, hmem, fun _ => hg (by decide)⟩, open_attach fun _ y hy _ => ?_⟩
      obtain rfl : x = y := Option.some.inj (hx.symm.trans hy)
      exact ⟨by simpa using hclosing, fun hne => absurd rfl hne⟩
  · -- The load of `failed`.
    cases hr
    split
    · exact hrefuse (by decide)
    · next hfailed =>
      refine ⟨hs.sound_refl, ⟨x, hx, hmem, fun _ => hg (by decide)⟩,
        open_attach fun hgated y hy howned => ?_⟩
      obtain rfl : x = y := Option.some.inj (hx.symm.trans hy)
      subst howned
      exact ⟨(ho hgated h x hx).1 (by simp [Place.pastClosing]), fun _ => by simpa using hfailed⟩
  · -- The count.
    cases hr
    refine ⟨hs.sound_at hx ?_, ⟨_, hosts_modify_self hx, hmem, fun _ => hg (by decide)⟩,
      open_attach fun hgated y hy howned => ?_⟩
    · exact { SessionHost.Evolves.refl true i x with }
    · subst howned
      rw [hosts_modify_self hx] at hy
      cases hy
      exact ⟨(ho hgated h x hx).1 (by simp [Place.pastClosing]),
        fun _ => (ho hgated h x hx).2 (by simp [Place.pastFailed])⟩
  · -- The session.
    cases hr
    have hmod : Sound gated true i s (s.modify h (registered i)) :=
      hs.sound_at hx (SessionHost.evolves_registered hmem (hg (by decide)))
    cases owned with
    | false => exact hmod.ended _
    | true =>
      refine (hmod.trans (hmod.inv.sound_log hmod.inv.evictions ?_ hmod.inv.evicted)).ended _
      intro hgated o hmem
      rcases List.mem_cons.mp hmem with rfl | hmem
      · simp [SessionHost.isTerminal, (ho hgated h x hx).1 (by simp [Place.pastClosing]),
          (ho hgated h x hx).2 (by simp [Place.pastFailed])]
      · exact hs.owned hgated o hmem
  · cases hr

theorem Sound.detach (hst : Sound gated quiet i s t) {pc : Detach} (hat : At i t (.detach h pc)) :
    Next gated quiet i s (t, .detach h pc) :=
  ⟨hst, hat, open_of_not_past fun _ => rfl⟩

theorem at_shutdown_task {x : SessionHost} (hx : s.hosts[h]? = some x) (hmem : i ∈ x.calls) :
    At i s (.shutdown h none .gate) :=
  ⟨⟨x, hx, hmem, fun hne => absurd rfl hne, fun hpc => (by cases hpc)⟩,
    fun _ _ heq => (by cases heq)⟩

theorem detached_next {pc : Detach} {a : Action} {r : State × Place} (hs : Inv gated s)
    (hp : At i s (.detach h pc)) (hr : detached i s h pc a = some r) : Next gated true i s r := by
  obtain ⟨x, hx, hmem, hg⟩ := hp
  unfold detached at hr
  simp only [hx, Option.bind_some, Option.map_some] at hr
  split at hr
  · -- The gate.
    split at hr
    · next hfree =>
      cases hr
      exact (hs.sound_at hx (SessionHost.evolves_lockGate hfree)).detach
        ⟨_, hosts_modify_self hx, hmem, fun _ => rfl⟩
    · cases hr
  · cases hr
    exact (hs.sound_at hx (SessionHost.evolves_leave x)).ended _
  · cases hr
    refine (hs.sound_at hx ?_).detach ⟨_, hosts_modify_self hx, hmem, fun _ => hg (by decide)⟩
    exact { SessionHost.Evolves.refl true i x with }
  · cases hr
    exact hs.sound_refl.detach ⟨x, hx, hmem, fun _ => hg (by simp)⟩
  · next last =>
    have hgate : x.attachmentGate = some i := hg (by simp)
    split at hr
    · -- The store of `closing`, under the gate.
      cases hr
      have hev : x.Evolves true i x.unlockGate := SessionHost.evolves_unlockGate hgate
      refine (hs.sound_at hx ?_).shutdown (at_shutdown_task (hosts_modify_self hx) hmem)
      exact { hev with flags := fun _ j hj hg' => absurd hg' (not_held (.inr hgate) hj) }
    · cases hr
      exact (hs.sound_at hx (SessionHost.evolves_refused hgate)).ended _
  · cases hr

theorem Sound.trans_next {r : State × Place} (hst : Sound gated quiet i s t)
    (hr : Next gated quiet i t r) : Next gated quiet i s r :=
  ⟨hst.trans hr.sound, hr.place, hr.isOpen⟩

section Shutdown

variable {caller : Option (HostFingerprint × OsText)} {x : SessionHost}

theorem SessionHost.evolves_failed (x : SessionHost) :
    x.Evolves false i { x with failed := true } :=
  { SessionHost.Evolves.refl false i x with flags := fun hq => (by cases hq) }

/-- The store of `closing` outside the gate, which is not quiet. -/
theorem SessionHost.evolves_closing (x : SessionHost) :
    x.Evolves false i { x with closing := true } :=
  { SessionHost.Evolves.refl false i x with flags := fun hq => (by cases hq) }

theorem SessionHost.evolves_returned (hg : x.shutdownGate = some i) :
    x.Evolves quiet i (x.unlockShutdown.leave i) :=
  (SessionHost.evolves_unlockShutdown hg).trans (SessionHost.evolves_leave _)

/-- A shutdown that returns has shut its host down: the entry is vacant. -/
theorem returned_next (hs : Inv gated s) (hx : s.hosts[h]? = some x) (hg : x.shutdownGate = some i)
    (hd : x.shutdownDone = true)
    (hcaller : ∀ key path, caller = some (key, path) →
      s.mutex = some i ∧ s.entries.get? key = some h) :
    Next gated quiet i s (returned i s h caller) := by
  have hev : x.Evolves quiet i (x.unlockShutdown.leave i) := SessionHost.evolves_returned hg
  have hmod : Sound gated quiet i s (s.modify h fun x => x.unlockShutdown.leave i) :=
    hs.sound_at hx hev
  cases caller with
  | none => exact hmod.ended _
  | some c =>
    obtain ⟨key, path⟩ := c
    obtain ⟨hm, he⟩ := hcaller key path rfl
    refine hmod.start ⟨hm, ?_⟩
    intro g hg
    obtain rfl : h = g := Option.some.inj (he.symm.trans hg)
    exact ⟨_, hosts_modify_self hx, .inr (hev.done hd)⟩

theorem abandon_next (hs : Inv gated s) (hx : s.hosts[h]? = some x) (hev : x.Evolves quiet i (f x))
    (hcaller : ∀ key path, caller = some (key, path) →
      s.mutex = some i ∧ s.entries.get? key = some h) :
    Next gated quiet i s (abandon i s h caller f) := by
  have hmod : Sound gated quiet i s (s.modify h fun x => (f x).leave i) :=
    hs.sound_at hx (hev.trans (SessionHost.evolves_leave _))
  unfold abandon
  cases caller with
  | none => exact hmod.ended _
  | some c =>
    obtain ⟨key, path⟩ := c
    obtain ⟨hm, -⟩ := hcaller key path rfl
    exact (hmod.trans (hmod.inv.sound_free hm)).ended _

/-- The callback of a shutdown spawns its task. -/
theorem sound_callback (hs : Inv gated s) (hx : s.hosts[h]? = some x) (hd : x.shutdownDone = true) :
    Sound gated quiet i s { s.modify h ({ · with onShutdown := false }) with
      evictions := s.evictions ++ [(x.key, h)] } := by
  have hmod : Sound gated quiet i s (s.modify h ({ · with onShutdown := false })) :=
    hs.sound_at hx { SessionHost.Evolves.refl quiet i x with }
  refine hmod.trans (hmod.inv.sound_log ?_ hmod.inv.owned hmod.inv.evicted)
  intro key g hg
  rcases List.mem_append.mp hg with hg | hg
  · exact hmod.inv.evictions key g hg
  · cases List.mem_singleton.mp hg
    exact ⟨_, hosts_modify_self hx, rfl, hd⟩

theorem at_shutdown {pc : Shutdown} (hx : s.hosts[h]? = some x) (hmem : i ∈ x.calls)
    (hg : x.shutdownGate = some i) (hpc : pc ≠ .callback)
    (hcaller : ∀ key path, caller = some (key, path) →
      s.mutex = some i ∧ s.entries.get? key = some h) : At i s (.shutdown h caller pc) :=
  ⟨⟨x, hx, hmem, fun _ => hg, fun hpc' => absurd hpc' hpc⟩, hcaller⟩

theorem shutdown_next {pc : Shutdown} {a : Action} {r : State × Place} (hs : Inv gated s)
    (hp : At i s (.shutdown h caller pc)) (hr : shutdown i s h caller pc a = some r) :
    Next gated (decide (pc ≠ .close)) i s r := by
  obtain ⟨⟨x, hx, hmem, hg, hd⟩, hcaller⟩ := hp
  unfold shutdown at hr
  simp only [hx, Option.bind_some, Option.map_some] at hr
  split at hr
  · -- The gate.
    split at hr
    · next hfree =>
      cases hr
      exact (hs.sound_at hx (SessionHost.evolves_lockShutdown hfree)).shutdown
        (at_shutdown (hosts_modify_self hx) hmem rfl (by decide) hcaller)
    · cases hr
  · cases hr
    exact abandon_next hs hx (.refl _ i x) hcaller
  · cases hr
    split
    · next hdone => exact returned_next hs hx (hg (by decide)) hdone hcaller
    · exact hs.sound_refl.shutdown (at_shutdown hx hmem (hg (by decide)) (by decide) hcaller)
  · -- The store of `closing`.
    cases hr
    exact (hs.sound_at hx (SessionHost.evolves_closing x)).shutdown
      (at_shutdown (hosts_modify_self hx) hmem (hg (by decide)) (by decide) hcaller)
  · cases hr
    refine (hs.sound_at hx ?_).shutdown
      (at_shutdown (hosts_modify_self hx) hmem (hg (by decide)) (by decide) hcaller)
    exact { SessionHost.Evolves.refl _ i x with }
  · cases hr
    exact hs.sound_refl.shutdown (at_shutdown hx hmem (hg (by decide)) (by decide) hcaller)
  · cases hr
    exact abandon_next hs hx (SessionHost.evolves_unlockShutdown (hg (by decide))) hcaller
  · cases hr
    exact abandon_next hs hx (SessionHost.evolves_unlockShutdown (hg (by decide))) hcaller
  · -- The lock.
    cases hr
    split
    · next p hlock =>
      have hpath : x.credentialLock.path? = some p := by rw [hlock]; rfl
      exact (hs.sound_release hx hpath).shutdown
        (at_shutdown (hosts_modify_self hx) hmem (hg (by decide)) (by decide) hcaller)
    · exact hs.sound_refl.shutdown (at_shutdown hx hmem (hg (by decide)) (by decide) hcaller)
  · cases hr
    refine (hs.sound_at hx ?_).shutdown
      ⟨⟨_, hosts_modify_self hx, hmem, fun _ => hg (by decide), fun _ => rfl⟩, hcaller⟩
    exact { SessionHost.Evolves.refl _ i x with done := fun _ => rfl }
  · -- The callback.
    cases hr
    have hdone : x.shutdownDone = true := hd rfl
    have hgate : x.shutdownGate = some i := hg (by decide)
    split
    · have hcall : Sound gated true i s _ := sound_callback hs hx hdone
      exact hcall.trans_next
        (returned_next hcall.inv (hosts_modify_self hx) hgate hdone hcaller)
    · exact returned_next hs hx hgate hdone hcaller
  · cases hr

end Shutdown

theorem pumpFailed_next {a : Action} {r : State × Place} (hs : Inv gated s)
    (hr : pumpFailed i s h a = some r) : Next gated true i s r := by
  unfold pumpFailed at hr
  split at hr
  · obtain ⟨x, hx, hr⟩ := Option.bind_eq_some_iff.mp hr
    split at hr
    · cases hr
    · split at hr
      · next hpos =>
        cases hr
        exact (hs.sound_at hx (SessionHost.evolves_enter hpos)).shutdown
          (at_shutdown_task (hosts_modify_self hx) (List.mem_cons_self ..))
      · cases hr
        exact hs.sound_refl.ended _
  · cases hr

theorem enterCall_sound {p : Place} {r : State × Place} (hs : Inv gated s)
    (hr : enterCall i s h p = some r) : ∃ x : SessionHost,
      (s.modify h (·.enter i)).hosts[h]? = some (x.enter i) ∧
      Sound gated true i s (s.modify h (·.enter i)) ∧ r = (s.modify h (·.enter i), p) := by
  obtain ⟨x, hx, hr⟩ := Option.bind_eq_some_iff.mp hr
  split at hr
  · next hpos =>
    have hlive : 0 < x.strongCount := by
      unfold SessionHost.strongCount
      omega
    exact ⟨x, hosts_modify_self hx, hs.sound_at hx (SessionHost.evolves_enter hlive),
      (Option.some.inj hr).symm⟩
  · cases hr

/-- What begins in a state, and from which place. -/
theorem spawn_next {k : Call} {r : State × Place} (hs : Inv gated s) (hr : spawn i s k = some r) :
    Next gated (storesFailed (.spawn k)).isNone i s r := by
  cases k with
  | getOrStart key lockDir lockFilename =>
    cases hr
    exact hs.sound_refl.start trivial
  | attach h owned =>
    obtain ⟨x, hx, hsound, rfl⟩ := enterCall_sound hs hr
    refine ⟨hsound, ⟨_, hx, List.mem_cons_self .., fun hne => absurd rfl hne⟩, ?_⟩
    cases owned <;> exact open_of_not_past fun _ => rfl
  | detach h =>
    obtain ⟨x, hx, hr⟩ := Option.bind_eq_some_iff.mp hr
    split at hr
    · next hpos =>
      cases hr
      have hlive : 0 < x.strongCount := by
        unfold SessionHost.strongCount
        omega
      have hev : x.Evolves true i (x.enter i) := SessionHost.evolves_enter hlive
      refine (hs.sound_at hx ?_).detach
        ⟨_, hosts_modify_self hx, List.mem_cons_self .., fun hne => absurd rfl hne⟩
      exact { hev with dead := fun hd => absurd hd (by omega) }
    · cases hr
  | shutdown h =>
    obtain ⟨x, hx, hsound, rfl⟩ := enterCall_sound hs hr
    exact hsound.shutdown (at_shutdown_task hx (List.mem_cons_self ..))
  | recoveryFails h =>
    obtain ⟨x, hx, hr⟩ := Option.bind_eq_some_iff.mp hr
    split at hr
    · cases hr
      refine ⟨hs.sound_at hx ?_, trivial, open_of_not_past fun _ => rfl⟩
      exact SessionHost.evolves_failed x
    · cases hr
  | letGo h =>
    obtain ⟨x, hx, hr⟩ := Option.bind_eq_some_iff.mp hr
    split at hr
    · cases hr
      exact (hs.sound_at hx (SessionHost.evolves_letGo x)).ended _
    · cases hr
  | evict key h =>
    simp only [spawn] at hr
    split at hr
    · next hmem =>
      cases hr
      exact (hs.sound_evict hmem.2 hmem.1).ended _
    · cases hr
  | dropped h =>
    obtain ⟨x, hx, hr⟩ := Option.bind_eq_some_iff.mp hr
    split at hr
    · next path hlock =>
      cases hr
      have hpath : x.credentialLock.path? = some path := by rw [hlock]; rfl
      exact (hs.sound_release hx hpath).ended _
    · cases hr
  | take path =>
    simp only [spawn] at hr
    split at hr
    · next hfree =>
      cases hr
      exact (hs.sound_take hfree).ended _
    · cases hr
  | give path =>
    simp only [spawn] at hr
    split at hr
    · next hmem =>
      cases hr
      exact (hs.sound_give hmem).ended _
    · cases hr

theorem run_next {p : Place} {a : Action} {r : State × Place} (hs : Inv gated s) (hp : At i s p)
    (ho : Open gated s p) (hr : run i s p a = some r) (hclose : ∀ h c, p ≠ .shutdown h c .close) :
    Next gated true i s r := by
  cases p with
  | start key path pc => exact getOrStart_next hs hp hr
  | attach h owned pc => exact attach_next hs hp ho hr
  | detach h pc => exact detached_next hs hp hr
  | shutdown h caller pc =>
    have hpc : pc ≠ .close := fun heq => hclose h caller (heq ▸ rfl)
    have hnext := shutdown_next hs hp hr
    rwa [decide_eq_true hpc] at hnext
  | pump h => exact pumpFailed_next hs hr
  | ended outcome => cases hr

/-! ### Runs -/

/-- A change of one host that leaves on what an `attach_owned` of it has found off. -/
theorem Open.modify {p : Place}
    (hf : gated = true → ∀ x, (p.pastClosing h = true → (f x).closing = x.closing) ∧
      (p.pastFailed h = true → (f x).failed = x.failed)) (ho : Open gated s p) :
    Open gated (s.modify h f) p := by
  intro hgated g y hy
  obtain ⟨x, hx, rfl⟩ := of_hosts_modify hy
  obtain ⟨hc, hd⟩ := ho hgated g x hx
  split
  · next heq =>
    subst heq
    obtain ⟨hc', hd'⟩ := hf hgated x
    exact ⟨fun hp => (hc' hp).trans (hc hp), fun hp => (hd' hp).trans (hd hp)⟩
  · exact ⟨hc, hd⟩

/-- What holds while a thread is at a place, of the whole state. -/
def Fine (gated : Bool) (i : Nat) (p : Place) (s : State) : Prop := At i s p ∧ Open gated s p

section Pool

variable {P : Pool State Place} {r : State × Place}

theorem Next.keeps (hP : P.Holds (Inv gated) (Fine gated)) (hn : Next gated quiet i P.shared r)
    (hopen : ∀ j q, j ≠ i → P.At j q → Open gated r.1 q) :
    P.Keeps (Inv gated) (Fine gated) i r where
  shared := hn.sound.inv
  own := ⟨hn.place, hn.isOpen⟩
  others j q hj hq := ⟨(hP.places j q hq).1.mono hn.sound.evolves hj, hopen j q hj hq⟩

theorem Next.keeps_of_quiet (hP : P.Holds (Inv gated) (Fine gated))
    (hn : Next gated true i P.shared r) : P.Keeps (Inv gated) (Fine gated) i r := by
  refine hn.keeps hP fun j q hj hq => ?_
  obtain ⟨hat, ho⟩ := hP.places j q hq
  exact ho.mono hn.sound.evolves hj hat

theorem spawn_keeps {k : Call} (hP : P.Holds (Inv gated) (Fine gated))
    (hr : spawn i P.shared k = some r) (hok : gated = true → Gated P (.spawn k)) :
    P.Keeps (Inv gated) (Fine gated) i r := by
  have hn := spawn_next hP.shared hr
  by_cases hk : ∃ h, k = .recoveryFails h
  · obtain ⟨h, rfl⟩ := hk
    refine hn.keeps hP fun j q hj hq => ?_
    obtain ⟨x, hx, hr⟩ := Option.bind_eq_some_iff.mp hr
    split at hr
    · cases hr
      refine (hP.places j q hq).2.modify fun hgated x => ⟨fun _ => rfl, fun hp => ?_⟩
      have hnot := (hok hgated).1
      simp only [storesFailed, Option.all_some, List.all_eq_true] at hnot
      have hq' := hnot q (List.mem_of_getElem? hq)
      rw [hp] at hq'
      cases hq'
    · cases hr
  · have hquiet : (storesFailed (.spawn k)).isNone = true := by
      cases k <;> first | rfl | exact absurd ⟨_, rfl⟩ hk
    rw [hquiet] at hn
    exact hn.keeps_of_quiet hP

theorem run_keeps {p : Place} {a : Action} (hP : P.Holds (Inv gated) (Fine gated)) (hp : P.At i p)
    (hr : run i P.shared p a = some r) (hok : gated = true → Gated P (.run i a)) :
    P.Keeps (Inv gated) (Fine gated) i r := by
  obtain ⟨hat, ho⟩ := hP.places i p hp
  by_cases hclose : ∃ h c, p = .shutdown h c .close
  · obtain ⟨h, c, rfl⟩ := hclose
    have hstore : storesClosing P (.run i a) = some h := by
      simp only [storesClosing]
      rw [show P.threads[i]? = some (.shutdown h c .close) from hp]
    refine (shutdown_next hP.shared hat hr).keeps hP fun j q hj hq => ?_
    cases a with
    | next =>
      cases hr
      refine (hP.places j q hq).2.modify fun hgated x => ⟨fun hp => ?_, fun _ => rfl⟩
      have hnot := (hok hgated).2
      simp only [hstore, Option.all_some, List.all_eq_true] at hnot
      have hq' := hnot q (List.mem_of_getElem? hq)
      rw [hp] at hq'
      cases hq'
    | cancel => cases hr
    | ioError => cases hr
  · exact (run_next hP.shared hat ho hr fun h c heq => hclose ⟨h, c, heq⟩).keeps_of_quiet hP

end Pool

theorem inv_start : Inv gated {} where
  single _ _ _ _ _ hx := by simp at hx
  evicted _ he := by cases he
  kept _ _ hx := by simp at hx
  owned _ _ ho := by cases ho
  locked _ _ _ hx := by simp at hx
  outside _ hp := by cases hp
  entry _ _ he := by cases he
  evictions _ _ he := by cases he

theorem inv_of_run {ok : Pool State Place → Move Call Action → Prop}
    (hok : gated = true → ∀ P m, ok P m → Gated P m) {trace : List (Move Call Action)}
    {P : Pool State Place} (h : machine.Run ok trace P) : Inv gated P.shared := by
  have hholds : P.Holds (Inv gated) (Fine gated) := by
    refine Program.holds_of_run ?_ ?_ ?_ h
    · rintro s rfl
      exact inv_start
    · intro P k r hP hr hm
      exact spawn_keeps hP hr fun hg => hok hg P _ hm
    · intro P i a p r hP hp hr hm
      exact run_keeps hP hp hr fun hg => hok hg P _ hm
  exact hholds.shared

/-- In every run one host holds the lock of a path and no eviction takes the entry of another host
away; where `closing` and `failed` are stored outside the gate only while no `attach_owned` of the
host is past its load of the flag, none returns a session of a terminal host either. -/
theorem exclusive_of_run {trace : List (Move Call Action)} {P : Pool State Place}
    (h : machine.Run Machine.Free trace P) :
    Exclusive P.shared ∧ (machine.Run Gated trace P → Safe P.shared) := by
  refine ⟨(inv_of_run (fun hg : false = true => by cases hg) h).toExclusive, fun hgated => ?_⟩
  have hinv : Inv true P.shared := inv_of_run (fun _ _ _ hm => hm) hgated
  exact ⟨hinv.toExclusive, hinv.owned rfl⟩

/-! ### Two runs -/

def trader : HostFingerprint := .new "trader" "Rithmic Test" "wss://rituz00100.rithmic.com" "Test"

/-- A `get_or_start` under the lock file `rgw.lock`. -/
def getHost : Move Call Action :=
  .spawn (.getOrStart trader (text "/run/rgw") (some (text "rgw.lock")))

def steps (i n : Nat) : List (Move Call Action) := List.replicate n (.run i .next)

/-- The host starts and is attached, and its recovery fails; the next `get_or_start` shuts it down
and starts another, which the eviction of the first leaves registered and which is attached. -/
def replaced : List (Move Call Action) :=
  getHost :: steps 0 5 ++ Move.spawn (Call.attach 0 true) :: steps 1 5 ++
    Move.spawn (Call.recoveryFails 0) :: getHost :: steps 3 15 ++
    [Move.spawn (Call.evict trader 0), .spawn (.attach 1 true)] ++ steps 5 5

theorem safe_replaced : ∃ P, machine.Run Machine.Free replaced P ∧ machine.Run Gated replaced P ∧
    P.shared.entries.get? trader = some 1 ∧ P.shared.owned = [⟨1, false⟩, ⟨0, false⟩] ∧
    Exclusive P.shared ∧ Safe P.shared := by
  have hrun : ∃ P, machine.exec Gated { shared := {} } replaced = some P ∧
      P.shared.entries.get? trader = some 1 ∧ P.shared.owned = [⟨1, false⟩, ⟨0, false⟩] :=
    ⟨_, rfl, by decide, by decide⟩
  obtain ⟨P, hP, hentry, howned⟩ := hrun
  have hgated : machine.Run Gated replaced P := Machine.run_of_exec ⟨rfl, rfl⟩ hP
  have hfree : machine.Run Machine.Free replaced P := hgated.mono fun _ _ _ => trivial
  obtain ⟨hexclusive, hsafe⟩ := exclusive_of_run hfree
  exact ⟨P, hfree, hgated, hentry, howned, hexclusive, hsafe hgated⟩

/-- The recovery of a connected host fails while a second `attach_owned` is between its check and
its return. -/
def attachedLate : List (Move Call Action) :=
  getHost :: steps 0 5 ++ Move.spawn (Call.attach 0 true) :: steps 1 5 ++
    Move.spawn (Call.attach 0 true) :: steps 2 3 ++ Move.spawn (Call.recoveryFails 0) :: steps 2 2

theorem attached_late : ∃ P, machine.Run Machine.Free attachedLate P ∧
    P.shared.owned = [⟨0, true⟩, ⟨0, false⟩] ∧ ¬ Safe P.shared := by
  have hrun : ∃ P, machine.exec Machine.Free { shared := {} } attachedLate = some P ∧
      P.shared.owned = [⟨0, true⟩, ⟨0, false⟩] := ⟨_, rfl, by decide⟩
  obtain ⟨P, hP, howned⟩ := hrun
  refine ⟨P, Machine.run_of_exec ⟨rfl, rfl⟩ hP, howned, fun hsafe => ?_⟩
  have hterminal : true = false := hsafe.owned ⟨0, true⟩ (by simp [howned])
  cases hterminal

end RithmicNt.Host.Registry
