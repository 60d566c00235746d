import RithmicNt.Gateway.Calls

/-! Commands over the gateway socket are sent at most once, and end as what their bytes allow. -/

namespace RithmicNt.Gateway.Calls

open RithmicNt.Lib

variable {β : Type} {payload : Nat → β → Bytes} {disconnect : Nat → Bytes}

/-- What a stage of a command says of the connections that have bytes of it. -/
def WroteOk (s : State β) (k : Nat) : Stage → Prop
  | .idle | .locating _ | .queued .. | .ended .refused | .ended .notSent => ∀ c, (k, c) ∉ s.wrote
  | .writing _ c _ _ _ | .breaking _ c _ | .waiting _ c _ => ∀ d, (k, d) ∈ s.wrote → d = c
  | .ended (.answered ..) | .ended (.unexpected ..) | .ended .outcomeUnknown | .cancelled =>
    ∀ c d, (k, c) ∈ s.wrote → (k, d) ∈ s.wrote → c = d
  | .ended .failed => False

/-- The caller may have an entry in a table of waiters. -/
def Stage.Waits : Stage → Prop
  | .idle | .locating _ | .breaking .. => False
  | _ => True

/-- The connection and the id of the request that the stage is about. -/
def Stage.request? : Stage → Option (Nat × Nat)
  | .queued _ c id _ | .writing _ c id _ _ | .breaking _ c id | .waiting _ c id
  | .ended (.answered c id _) | .ended (.unexpected c id _) => some (c, id)
  | _ => none

structure Inv (s : State β) : Prop where
  unissued : ∀ k, s.stage k = .idle → ∀ c, (k, c) ∉ s.wrote
  wrote : ∀ k, s.mode k = .command → WroteOk s k (s.stage k)
  pending : ∀ c id k, (s.conns c).pending id = some k → s.asked k = some (c, id) ∧
    (s.stage k).Waits
  inbox : ∀ k c id r, s.inbox k = some (c, id, r) → s.asked k = some (c, id)
  request : ∀ k c id, (s.stage k).request? = some (c, id) → s.asked k = some (c, id)

/-- A step of caller `k` leaves the other callers alone and adds no waiter but `k`. -/
structure Elsewhere (k : Nat) (s t : State β) : Prop where
  stage : ∀ j, j ≠ k → t.stage j = s.stage j
  mode : ∀ j, j ≠ k → t.mode j = s.mode j
  asked : ∀ j, j ≠ k → t.asked j = s.asked j
  inbox : ∀ j, j ≠ k → t.inbox j = s.inbox j
  wrote : ∀ j c, j ≠ k → ((j, c) ∈ t.wrote ↔ (j, c) ∈ s.wrote)
  pending : ∀ c id j, j ≠ k → (t.conns c).pending id = some j → (s.conns c).pending id = some j

theorem WroteOk.of_iff {s t : State β} {k : Nat} (h : ∀ c, (k, c) ∈ t.wrote ↔ (k, c) ∈ s.wrote)
    {st : Stage} : WroteOk t k st ↔ WroteOk s k st := by
  cases st with
  | ended r => cases r <;> simp only [WroteOk, h]
  | _ => simp only [WroteOk, h]

theorem Inv.of_elsewhere {k : Nat} {s t : State β} (h : Inv s) (he : Elsewhere k s t)
    (hidle : t.stage k = .idle → ∀ c, (k, c) ∉ t.wrote)
    (hwrote : t.mode k = .command → WroteOk t k (t.stage k))
    (hpending : ∀ c id, (t.conns c).pending id = some k → t.asked k = some (c, id) ∧
      (t.stage k).Waits)
    (hinbox : ∀ c id r, t.inbox k = some (c, id, r) → t.asked k = some (c, id))
    (hrequest : ∀ c id, (t.stage k).request? = some (c, id) → t.asked k = some (c, id)) :
    Inv t := by
  refine ⟨?_, ?_, ?_, ?_, ?_⟩
  · intro j hj c
    by_cases hjk : j = k
    · subst hjk
      exact hidle hj c
    · rw [he.stage j hjk] at hj
      rw [he.wrote j c hjk]
      exact h.unissued j hj c
  · intro j hj
    by_cases hjk : j = k
    · subst hjk
      exact hwrote hj
    · rw [he.mode j hjk] at hj
      rw [he.stage j hjk]
      exact (WroteOk.of_iff fun c => he.wrote j c hjk).mpr (h.wrote j hj)
  · intro c id j hj
    by_cases hjk : j = k
    · subst hjk
      exact hpending c id hj
    · rw [he.asked j hjk, he.stage j hjk]
      exact h.pending c id j (he.pending c id j hjk hj)
  · intro j c id r hj
    by_cases hjk : j = k
    · subst hjk
      exact hinbox c id r hj
    · rw [he.inbox j hjk] at hj
      rw [he.asked j hjk]
      exact h.inbox j c id r hj
  · intro j c id hj
    by_cases hjk : j = k
    · subst hjk
      exact hrequest c id hj
    · rw [he.stage j hjk] at hj
      rw [he.asked j hjk]
      exact h.request j c id hj

/-- A step of a connection: the callers keep their stages; the table of waiters only loses entries,
and a reply goes to the waiter of its id. -/
theorem Inv.of_table {s t : State β} (h : Inv s) (hstage : t.stage = s.stage) (hmode : t.mode = s.mode)
    (hasked : t.asked = s.asked) (hwrote : t.wrote = s.wrote)
    (hpending : ∀ c id k, (t.conns c).pending id = some k → (s.conns c).pending id = some k)
    (hinbox : ∀ k c id r, t.inbox k = some (c, id, r) →
      s.inbox k = some (c, id, r) ∨ (s.conns c).pending id = some k) : Inv t := by
  refine ⟨?_, ?_, ?_, ?_, ?_⟩
  · rw [hstage, hwrote]
    exact h.unissued
  · rw [hstage, hmode]
    exact fun k hk => (WroteOk.of_iff fun c => by rw [hwrote]).mpr (h.wrote k hk)
  · rw [hstage, hasked]
    exact fun c id k hk => h.pending c id k (hpending c id k hk)
  · rw [hasked]
    intro k c id r hk
    rcases hinbox k c id r hk with hk | hk
    · exact h.inbox k c id r hk
    · exact (h.pending c id k hk).1
  · rw [hstage, hasked]
    exact h.request

/-- One connection changes, and its table of waiters only loses entries. -/
theorem Inv.setConn {s : State β} (h : Inv s) (c : Nat) {x : Connection}
    (hx : ∀ id k, x.pending id = some k → (s.conns c).pending id = some k) : Inv (s.setConn c x) := by
  refine h.of_table rfl rfl rfl rfl ?_ fun k c id r hk => .inl hk
  intro d id k hk
  by_cases hd : d = c
  · subst hd
    rw [State.setConn_self] at hk
    exact hx id k hk
  · rw [State.setConn_of_ne s x hd] at hk
    exact hk

/-- A caller goes on to another stage. -/
theorem Inv.goto {s : State β} {k : Nat} {st : Stage} (h : Inv s)
    (hwrote : s.mode k = .command → WroteOk s k st) (hidle : st ≠ .idle)
    (hwaits : st.Waits ∨ ∀ c id, (s.conns c).pending id ≠ some k)
    (hrequest : ∀ c id, st.request? = some (c, id) → s.asked k = some (c, id)) :
    Inv (s.goto k st) := by
  have hst : (s.goto k st).stage k = st := by simp [State.goto]
  refine h.of_elsewhere (k := k) ⟨fun j hj => Function.update_of_ne hj _ _, fun _ _ => rfl,
    fun _ _ => rfl, fun _ _ => rfl, fun _ _ _ => Iff.rfl, fun _ _ _ _ hp => hp⟩ ?_ ?_ ?_ ?_ ?_
  · rw [hst]
    exact fun hi => absurd hi hidle
  · rw [hst]
    exact fun hm => (WroteOk.of_iff fun _ => Iff.rfl).mpr (hwrote hm)
  · intro c id hp
    rw [hst]
    have hp : (s.conns c).pending id = some k := hp
    exact ⟨(h.pending c id k hp).1, hwaits.resolve_right fun hnone => hnone c id hp⟩
  · exact h.inbox k
  · rw [hst]
    exact hrequest

theorem Connection.pend_cases {x : Connection} {id k i j : Nat}
    (h : (x.pend id k).pending i = some j) : x.pending i = some j ∨ (j = k ∧ i = id) := by
  by_cases hi : i = id
  · subst hi
    simp only [Connection.pend, Function.update_self] at h
    exact .inr ⟨(Option.some.inj h).symm, rfl⟩
  · simp only [Connection.pend, Function.update_of_ne hi] at h
    exact .inl h

/-- A reply is the parent's answer, unless `ack` does not know it. -/
theorem Result.ofReply_cases (mode : Mode) (c id : Nat) (r : Reply) :
    Result.ofReply mode c id r = .answered c id (mapReply r) ∨
      mode = .command ∧ ∃ shown, r = .other shown ∧
        Result.ofReply mode c id r = .unexpected c id (Calls.unexpected "Ack" shown) := by
  unfold Result.ofReply
  split
  · next shown => exact .inr ⟨rfl, shown, rfl, rfl⟩
  · exact .inl rfl

section Steps

variable {s t : State β} {k : Nat}

/-- No entry is left once the one of the caller's request is gone. -/
theorem Inv.none_pending {c id : Nat} (h : Inv s) (hrequest : (s.stage k).request? = some (c, id))
    (hgone : (s.conns c).pending id ≠ some k) : ∀ d j, (s.conns d).pending j ≠ some k := by
  intro d j hp
  have hasked := (h.pending d j k hp).1
  rw [h.request k c id hrequest] at hasked
  cases hasked
  exact hgone hp

theorem Inv.none_waits (h : Inv s) (hst : ¬ (s.stage k).Waits) :
    ∀ d j, (s.conns d).pending j ≠ some k :=
  fun d j hp => hst (h.pending d j k hp).2

/-- A caller ends without a reply. -/
theorem Inv.fail {r : Result} (h : Inv s) (hwrote : s.mode k = .command → WroteOk s k (.ended r))
    (hr : (Stage.ended r).request? = none) : Inv (s.goto k (.ended r)) :=
  h.goto hwrote (by simp) (.inl trivial) (by simp [hr])

/-- A caller tries again, or ends where it has done so before. -/
theorem Inv.retry {r : Result} {retried : Bool} (h : Inv s)
    (hwrote : s.mode k = .command → WroteOk s k (.ended r) ∧ ∀ c, (k, c) ∉ s.wrote)
    (hr : (Stage.ended r).request? = none) (hnone : ∀ c id, (s.conns c).pending id ≠ some k) :
    Inv (s.goto k (if retried then .ended r else .locating true)) := by
  cases retried with
  | true => exact h.fail (fun hm => (hwrote hm).1) hr
  | false => exact h.goto (fun hm => (hwrote hm).2) (by simp) (.inr hnone) (by simp [Stage.request?])

theorem Inv.notSent {retried : Bool} (h : Inv s) (hwrote : s.mode k = .command → ∀ c, (k, c) ∉ s.wrote)
    (hnone : ∀ c id, (s.conns c).pending id ≠ some k) : Inv (s.notSent k retried) := by
  unfold State.notSent
  split
  · next hm => exact h.fail (by simp [hm]) rfl
  · exact h.retry (fun hm => ⟨hwrote hm, hwrote hm⟩) rfl hnone
  · next hm => exact h.retry (by simp [hm]) rfl hnone
  · next hm => exact h.retry (by simp [hm]) rfl hnone

/-- Bytes on one connection only. -/
theorem wrote_once {c : Nat} (h : ∀ d, (k, d) ∈ s.wrote → d = c) :
    ∀ d e, (k, d) ∈ s.wrote → (k, e) ∈ s.wrote → d = e :=
  fun d e hd he => (h d hd).trans (h e he).symm

theorem Inv.sent {retried : Bool} {c : Nat} (h : Inv s)
    (hwrote : s.mode k = .command → ∀ d, (k, d) ∈ s.wrote → d = c)
    (hnone : ∀ c id, (s.conns c).pending id ≠ some k) : Inv (s.sent k retried) := by
  unfold State.sent
  split
  · exact h.fail (fun hm => wrote_once (hwrote hm)) rfl
  · next hm => exact h.retry (by simp [hm]) rfl hnone
  · next hm => exact h.fail (by simp [hm]) rfl
  · next hm => exact h.fail (by simp [hm]) rfl

theorem Inv.issue {mode : Mode} {body : β} {admitted : Bool} (h : Inv s) (hst : s.stage k = .idle) :
    Inv { s with
      mode := Function.update s.mode k mode
      body := Function.update s.body k (some body)
      stage := Function.update s.stage k (if admitted then .locating false else .ended .refused) } := by
  have hnone := h.none_waits (k := k) (by rw [hst]; exact id)
  have hun := h.unissued k hst
  refine h.of_elsewhere (k := k) ⟨fun j hj => Function.update_of_ne hj _ _,
    fun j hj => Function.update_of_ne hj _ _, fun _ _ => rfl, fun _ _ => rfl, fun _ _ _ => Iff.rfl,
    fun _ _ _ _ hp => hp⟩ (fun _ => hun) ?_ ?_ (h.inbox k) ?_
  · intro _
    simp only [Function.update_self]
    cases admitted <;> exact hun
  · exact fun c id hp => absurd hp (hnone c id)
  · simp only [Function.update_self]
    cases admitted <;> simp [Stage.request?]

theorem Inv.start {retried : Bool} {c : Nat} (h : Inv s) (hst : s.stage k = .locating retried) :
    Inv (s.start payload k c retried) := by
  have hnone := h.none_waits (k := k) (by rw [hst]; exact id)
  have hwrote : s.mode k = .command → ∀ c, (k, c) ∉ s.wrote := by
    intro hm
    have := h.wrote k hm
    rw [hst] at this
    exact this
  unfold State.start
  simp only
  split
  · exact h.notSent hwrote hnone
  · split
    · have hset : Inv (s.setConn c (s.conns c).takeId) := h.setConn c fun _ _ hp => hp
      refine hset.notSent hwrote fun d id hp => hnone d id ?_
      by_cases hd : d = c
      · subst hd
        rwa [State.setConn_self] at hp
      · rwa [State.setConn_of_ne _ _ hd] at hp
    · next frame _ =>
      have hpend : ∀ d id j, ((s.setConn c ((s.conns c).takeId.pend (s.conns c).nextId k)).conns
          d).pending id = some j →
          (s.conns d).pending id = some j ∨ (j = k ∧ d = c ∧ id = (s.conns c).nextId) := by
        intro d id j hp
        by_cases hd : d = c
        · subst hd
          rw [State.setConn_self] at hp
          exact (Connection.pend_cases hp).imp_right fun hk => ⟨hk.1, rfl, hk.2⟩
        · rw [State.setConn_of_ne _ _ hd] at hp
          exact .inl hp
      refine h.of_elsewhere (k := k) ⟨fun j hj => Function.update_of_ne hj _ _, fun _ _ => rfl,
        fun j hj => Function.update_of_ne hj _ _, fun j hj => Function.update_of_ne hj _ _,
        fun _ _ _ => Iff.rfl, fun d id j hj hp => ?_⟩ ?_ ?_ ?_ ?_ ?_
      · exact (hpend d id j hp).resolve_right fun hk => hj hk.1
      · simp
      · simp only [Function.update_self]
        exact hwrote
      · intro d id hp
        rcases hpend d id k hp with hp | ⟨-, rfl, rfl⟩
        · exact absurd hp (hnone d id)
        · simp [Stage.Waits]
      · simp
      · simp [Stage.request?]

theorem unpend_cases {c id d j i : Nat} (h : ((s.unpend c id).conns d).pending j = some i) :
    (s.conns d).pending j = some i ∧ ¬ (d = c ∧ j = id) := by
  unfold State.unpend at h
  by_cases hd : d = c
  · subst hd
    rw [State.setConn_self] at h
    by_cases hj : j = id
    · subst hj
      simp at h
    · simp only [Function.update_of_ne hj] at h
      exact ⟨h, fun hb => hj hb.2⟩
  · rw [State.setConn_of_ne _ _ hd] at h
    exact ⟨h, fun hb => hd hb.1⟩

theorem Inv.unpend (h : Inv s) (c id : Nat) : Inv (s.unpend c id) :=
  h.of_table rfl rfl rfl rfl (fun _ _ _ hp => (unpend_cases hp).1) fun _ _ _ _ hk => .inl hk

/-- After its entry is taken out the caller has none. -/
theorem Inv.none_unpend {c id : Nat} (h : Inv s) (hrequest : (s.stage k).request? = some (c, id)) :
    ∀ d j, ((s.unpend c id).conns d).pending j ≠ some k := by
  refine (h.unpend c id).none_pending hrequest fun hp => ?_
  exact (unpend_cases hp).2 ⟨rfl, rfl⟩

theorem Inv.wrote_at {st : Stage} (h : Inv s) (hst : s.stage k = st) (hm : s.mode k = .command) :
    WroteOk s k st := by
  have := h.wrote k hm
  rwa [hst] at this

theorem Inv.lock {retried : Bool} {c id : Nat} {frame : Bytes} (h : Inv s)
    (hst : s.stage k = .queued retried c id frame) : Inv (s.lock k retried c id frame) := by
  have hrequest : (s.stage k).request? = some (c, id) := by rw [hst]; rfl
  unfold State.lock
  split
  · exact (h.unpend c id).notSent (fun hm => h.wrote_at hst hm) (h.none_unpend hrequest)
  · have hset : Inv (s.setConn c { s.conns c with writer := some (.call k) }) :=
      h.setConn c fun _ _ hp => hp
    refine hset.goto ?_ (by simp) (.inl trivial) ?_
    · intro hm d hd
      exact absurd hd (h.wrote_at hst hm d)
    · rintro d j ⟨⟩
      exact h.request k c id hrequest

theorem Inv.write {retried : Bool} {c id n m : Nat} {frame : Bytes} (h : Inv s)
    (hst : s.stage k = .writing retried c id frame n) :
    Inv (s.write k retried c id frame n m) := by
  have hrequest : (s.stage k).request? = some (c, id) := by rw [hst]; rfl
  have hset : Inv (s.setConn c ((s.conns c).write frame n m)) := h.setConn c fun _ _ hp => hp
  have hstage : (s.write k retried c id frame n m).stage k = .writing retried c id frame (n + m) := by
    simp [State.write, State.goto]
  refine hset.of_elsewhere (k := k) ⟨fun j hj => Function.update_of_ne hj _ _, fun _ _ => rfl,
    fun _ _ => rfl, fun _ _ => rfl, fun j d hj => ?_, fun _ _ _ _ hp => hp⟩ ?_ ?_ ?_ (h.inbox k) ?_
  · simp [State.write, State.goto, State.setConn, hj]
  · simp [hstage]
  · rw [hstage]
    intro hm d hd
    rcases Finset.mem_insert.mp hd with heq | hd
    · exact (Prod.mk.inj heq).2
    · exact h.wrote_at hst hm d hd
  · intro d j hp
    rw [hstage]
    exact ⟨(hset.pending d j k hp).1, trivial⟩
  · rw [hstage]
    rintro d j ⟨⟩
    exact h.request k c id hrequest

theorem Inv.written {retried : Bool} {c id n : Nat} {frame : Bytes} (h : Inv s)
    (hst : s.stage k = .writing retried c id frame n) :
    Inv ((s.release c).goto k (.waiting retried c id)) := by
  have hset : Inv (s.release c) := h.setConn c fun _ _ hp => hp
  refine hset.goto (fun hm => h.wrote_at hst hm) (by simp) (.inl trivial) ?_
  rintro d j ⟨⟩
  exact h.request k c id (by rw [hst]; rfl)

theorem Inv.writeFailed {retried : Bool} {c id n : Nat} {frame : Bytes} (h : Inv s)
    (hst : s.stage k = .writing retried c id frame n) :
    Inv ((s.setConn c (s.conns c).failAll).goto k (.breaking retried c id)) := by
  have hrequest : (s.stage k).request? = some (c, id) := by rw [hst]; rfl
  have hset : Inv (s.setConn c (s.conns c).failAll) := h.setConn c (by simp [Connection.failAll])
  refine hset.goto (fun hm => h.wrote_at hst hm) (by simp) (.inr ?_) ?_
  · exact hset.none_pending hrequest (by simp [Connection.failAll])
  · rintro d j ⟨⟩
    exact h.request k c id hrequest

theorem Inv.broke {retried ok : Bool} {c id : Nat} (h : Inv s)
    (hst : s.stage k = .breaking retried c id) :
    Inv ((s.setConn c { s.conns c with writer := none, shut := (s.conns c).shut || ok }).sent k
      retried) := by
  have hset : Inv (s.setConn c { s.conns c with writer := none, shut := (s.conns c).shut || ok }) :=
    h.setConn c fun _ _ hp => hp
  refine hset.sent (fun hm => h.wrote_at hst hm) (hset.none_waits ?_)
  show ¬ (s.stage k).Waits
  rw [hst]
  exact fun hwaits => hwaits

theorem Inv.reply {c id : Nat} {r : Reply} (h : Inv s) : Inv (s.reply c id r) := by
  unfold State.reply
  split
  · exact h
  · next k hk =>
    refine h.of_table rfl rfl rfl rfl (fun _ _ _ hp => (unpend_cases hp).1) ?_
    intro j d i r' hj
    by_cases hjk : j = k
    · subst hjk
      simp only [Function.update_self, Option.some.injEq, Prod.mk.injEq] at hj
      obtain ⟨rfl, rfl, -⟩ := hj
      exact .inr hk
    · simp only [Function.update_of_ne hjk] at hj
      exact .inl hj

theorem Inv.take {retried : Bool} {b i c id : Nat} {r : Reply} (h : Inv s)
    (hst : s.stage k = .waiting retried b i) (hbox : s.inbox k = some (c, id, r)) :
    Inv (s.goto k (.ended (.ofReply (s.mode k) c id r))) := by
  have hasked := h.inbox k c id r hbox
  rcases Result.ofReply_cases (s.mode k) c id r with heq | ⟨-, shown, -, heq⟩
  · rw [heq]
    refine h.goto (fun hm => wrote_once (h.wrote_at hst hm)) (by simp) (.inl trivial) ?_
    rintro d j ⟨⟩
    exact hasked
  · rw [heq]
    refine h.goto (fun hm => wrote_once (h.wrote_at hst hm)) (by simp) (.inl trivial) ?_
    rintro d j ⟨⟩
    exact hasked

theorem Inv.cancel (h : Inv s) (hstep : s.cancel k = some t) : Inv t := by
  have hnever : ∀ c id, Stage.cancelled.request? = some (c, id) → s.asked k = some (c, id) := by
    simp [Stage.request?]
  unfold State.cancel at hstep
  split at hstep
  · next retried hst =>
    cases hstep
    exact h.goto (fun hm c d hc => absurd hc (h.wrote_at hst hm c)) (by simp) (.inl trivial) hnever
  · next retried c id frame hst =>
    cases hstep
    exact h.goto (fun hm c d hc => absurd hc (h.wrote_at hst hm c)) (by simp) (.inl trivial) hnever
  · next retried c id hst =>
    cases hstep
    exact h.goto (fun hm => wrote_once (h.wrote_at hst hm)) (by simp) (.inl trivial) hnever
  · next retried c id frame n hst =>
    cases hstep
    have hset : Inv (s.release c) := h.setConn c fun _ _ hp => hp
    exact hset.goto (fun hm => wrote_once (h.wrote_at hst hm)) (by simp) (.inl trivial) hnever
  · next retried c id hst =>
    cases hstep
    have hset : Inv (s.release c) := h.setConn c fun _ _ hp => hp
    exact hset.goto (fun hm => wrote_once (h.wrote_at hst hm)) (by simp) (.inl trivial) hnever
  · cases hstep
  · cases hstep
  · cases hstep

theorem Inv.shutdown {c : Nat} (h : Inv s) : Inv (s.shutdown disconnect c) := by
  unfold State.shutdown
  simp only
  split
  · exact h.setConn c (by simp [Connection.failAll])
  · split
    · exact h.setConn c (by simp [Connection.failAll])
    · exact h.setConn c fun _ _ hp => hp

theorem Inv.step {e : Event β} (h : Inv s) (hstep : Step payload disconnect s e t) : Inv t := by
  cases hstep with
  | @attach _ frame _ =>
    have hset := h.setConn s.nextConn (x := { chunks := [⟨frame, frame.length⟩] }) (by simp)
    exact hset.of_table rfl rfl rfl rfl (fun _ _ _ hp => hp) fun _ _ _ _ hk => .inl hk
  | lose => exact h.setConn _ (by simp [Connection.failAll])
  | issue hst => exact h.issue hst
  | @unreachable k _ hst =>
    split
    · refine h.fail (fun hm => ?_) rfl
      have hnone : ∀ c, (k, c) ∉ s.wrote := h.wrote_at hst hm
      exact hnone
    · next hm => exact h.fail (absurd · hm) rfl
  | start hst => exact h.start hst
  | lock hst => exact h.lock hst
  | write hst => exact h.write hst
  | written hst => exact h.written hst
  | writeFailed hst => exact h.writeFailed hst
  | broke hst => exact h.broke hst
  | reply => exact h.reply
  | take hst hbox => exact h.take hst hbox
  | dropped hst hgone =>
    exact h.sent (fun hm => h.wrote_at hst hm) (h.none_pending (by rw [hst]; rfl) hgone)
  | timeout hst =>
    exact (h.unpend _ _).sent (fun hm => h.wrote_at hst hm) (h.none_unpend (by rw [hst]; rfl))
  | cancel hcancel => exact h.cancel hcancel
  | shutdown => exact h.shutdown
  | lockShutdown => exact h.setConn _ fun _ _ hp => hp
  | writeShutdown => exact h.setConn _ fun _ _ hp => hp
  | writtenShutdown => exact h.setConn _ fun _ _ hp => hp
  | releaseShutdown => exact h.setConn _ fun _ _ hp => hp
  | endShutdown => exact h.setConn _ (by simp [Connection.failAll])

theorem inv_of_run {ok : State β → Event β → Prop} {trace : List (Event β)}
    (hrun : (machine payload disconnect).Run ok trace s) : Inv s := by
  refine hrun.invariant ?_ ?_
  · rintro s rfl
    refine ⟨by simp, ?_, by simp, by simp, by simp [Stage.request?]⟩
    intro k hm
    cases hm
  · intro s e t hinv _ hstep
    exact hinv.step (step_cases hstep)

end Steps

/-- What the code promises of a command: its bytes are on one connection at most; it ends as not sent
only without a byte on any, and with one as the reply or as an unknown outcome; and the reply it got
is the one with the id of its own request on that connection. -/
structure AtMostOnce (s : State β) (k : Nat) : Prop where
  once : ∀ c d, (k, c) ∈ s.wrote → (k, d) ∈ s.wrote → c = d
  notSent : s.stage k = .ended .notSent → ∀ c, (k, c) ∉ s.wrote
  unknown : ∀ c r, (k, c) ∈ s.wrote → s.stage k = .ended r →
    r = .outcomeUnknown ∨ ∃ d id e, r = .answered d id e
  delivered : ∀ c id r, s.inbox k = some (c, id, r) → s.asked k = some (c, id)
  answered : ∀ c id e, s.stage k = .ended (.answered c id e) → s.asked k = some (c, id)

/-- The parent answers a command with an `Ack` or an `Error` frame. -/
def Understood (s : State β) : Event β → Prop
  | .reply c id (.other _) => ∀ k ∈ (s.conns c).pending id, s.mode k ≠ .command
  | _ => True

instance (s : State β) : DecidablePred (Understood s)
  | .reply c id (.other _) =>
    inferInstanceAs (Decidable (∀ k ∈ (s.conns c).pending id, s.mode k ≠ .command))
  | .reply _ _ .ack | .reply _ _ (.error ..) => .isTrue trivial
  | .attach _ | .lose _ | .issue .. | .unreachable _ | .start .. | .lock _ | .write .. | .written _ |
    .writeFailed _ | .broke .. | .take _ | .dropped _ | .timeout _ | .cancel _ | .shutdown _ |
    .lockShutdown _ | .writeShutdown .. | .writtenShutdown _ | .releaseShutdown .. |
    .endShutdown _ => .isTrue trivial

def Stage.Unexpected : Stage → Prop
  | .ended (.unexpected ..) => True
  | _ => False

/-- No command has, or has ended over, a reply that `ack` does not know. -/
structure Known (s : State β) : Prop where
  fresh : ∀ k, s.stage k = .idle → s.inbox k = none
  inbox : ∀ k c id shown, s.inbox k = some (c, id, .other shown) → s.mode k ≠ .command
  ended : ∀ k, s.mode k = .command → ¬ (s.stage k).Unexpected

section Replies

variable {s t : State β} {k : Nat}

/-- A step that hands out no reply: caller `k` goes on or ends, and its inbox is at most emptied. -/
theorem Known.of_stage (h : Known s) (hstage : ∀ j, j ≠ k → t.stage j = s.stage j)
    (hmode : t.mode = s.mode) (hinbox : ∀ j, t.inbox j = s.inbox j ∨ t.inbox j = none)
    (hidle : t.stage k ≠ .idle) (hk : t.mode k = .command → ¬ (t.stage k).Unexpected) : Known t := by
  refine ⟨?_, ?_, ?_⟩
  · intro j hj
    by_cases hjk : j = k
    · subst hjk
      exact absurd hj hidle
    · rw [hstage j hjk] at hj
      exact (hinbox j).elim (fun heq => heq.trans (h.fresh j hj)) id
  · intro j c id shown hj
    rw [hmode]
    rcases hinbox j with heq | hnone
    · rw [heq] at hj
      exact h.inbox j c id shown hj
    · rw [hnone] at hj
      cases hj
  · intro j hj
    by_cases hjk : j = k
    · subst hjk
      exact hk hj
    · rw [hmode] at hj
      rw [hstage j hjk]
      exact h.ended j hj

theorem Known.setConn (h : Known s) (c : Nat) (x : Connection) : Known (s.setConn c x) :=
  ⟨h.fresh, h.inbox, h.ended⟩

theorem Known.goto {st : Stage} (h : Known s) (hidle : st ≠ .idle)
    (hst : s.mode k = .command → ¬ st.Unexpected) : Known (s.goto k st) := by
  have hk : (s.goto k st).stage k = st := by simp [State.goto]
  refine h.of_stage (k := k) (fun j hj => Function.update_of_ne hj _ _) rfl (fun _ => .inl rfl) ?_ ?_
  · rwa [hk]
  · rwa [hk]

theorem Known.retry {r : Result} {retried : Bool} (h : Known s) (hr : ¬ (Stage.ended r).Unexpected) :
    Known (s.goto k (if retried then .ended r else .locating true)) := by
  cases retried with
  | true => exact h.goto (by simp) fun _ => hr
  | false => exact h.goto (by simp) fun _ => id

theorem Known.notSent {retried : Bool} (h : Known s) : Known (s.notSent k retried) := by
  unfold State.notSent
  split
  · exact h.goto (by simp) fun _ => id
  all_goals exact h.retry id

theorem Known.sent {retried : Bool} (h : Known s) : Known (s.sent k retried) := by
  unfold State.sent
  split
  · exact h.goto (by simp) fun _ => id
  · exact h.retry id
  · exact h.goto (by simp) fun _ => id
  · exact h.goto (by simp) fun _ => id

theorem Known.issue {mode : Mode} {body : β} {admitted : Bool} (h : Known s) (hst : s.stage k = .idle) :
    Known { s with
      mode := Function.update s.mode k mode
      body := Function.update s.body k (some body)
      stage := Function.update s.stage k (if admitted then .locating false else .ended .refused) } := by
  refine ⟨?_, ?_, ?_⟩
  · intro j hj
    by_cases hjk : j = k
    · subst hjk
      exact h.fresh j hst
    · simp only [Function.update_of_ne hjk] at hj
      exact h.fresh j hj
  · intro j c id shown hj
    by_cases hjk : j = k
    · subst hjk
      exact absurd (hj.symm.trans (h.fresh j hst)) (by simp)
    · simp only [Function.update_of_ne hjk]
      exact h.inbox j c id shown hj
  · intro j hj
    by_cases hjk : j = k
    · subst hjk
      simp only [Function.update_self]
      cases admitted <;> exact id
    · simp only [Function.update_of_ne hjk] at hj ⊢
      exact h.ended j hj

theorem Known.start {retried : Bool} {c : Nat} (h : Known s) : Known (s.start payload k c retried) := by
  unfold State.start
  simp only
  split
  · exact h.notSent
  · split
    · exact (h.setConn _ _).notSent
    · refine h.of_stage (k := k) (fun j hj => Function.update_of_ne hj _ _) rfl (fun j => ?_)
        (by simp) fun _ => by simp [Stage.Unexpected]
      by_cases hj : j = k
      · subst hj
        exact .inr (Function.update_self _ _ _)
      · exact .inl (Function.update_of_ne hj _ _)

theorem Known.lock {retried : Bool} {c id : Nat} {frame : Bytes} (h : Known s) :
    Known (s.lock k retried c id frame) := by
  unfold State.lock
  split
  · exact (h.setConn _ _).notSent
  · exact (h.setConn _ _).goto (by simp) fun _ hun => hun

theorem Known.write {retried : Bool} {c id n m : Nat} {frame : Bytes} (h : Known s) :
    Known (s.write k retried c id frame n m) := by
  have hgoto : Known ((s.setConn c ((s.conns c).write frame n m)).goto k
      (.writing retried c id frame (n + m))) := (h.setConn c _).goto (by simp) fun _ hun => hun
  exact ⟨hgoto.fresh, hgoto.inbox, hgoto.ended⟩

theorem Known.cancel (h : Known s) (hstep : s.cancel k = some t) : Known t := by
  unfold State.cancel at hstep
  split at hstep
  iterate 3
    · cases hstep
      exact h.goto (by simp) fun _ => id
  iterate 2
    · cases hstep
      exact (h.setConn _ _).goto (by simp) fun _ => id
  all_goals cases hstep

/-- The waiter of a reply is not idle. -/
theorem Known.reply {c id : Nat} {r : Reply} (h : Known s) (hinv : Inv s)
    (hok : Understood s (.reply c id r)) : Known (s.reply c id r) := by
  unfold State.reply
  split
  · exact h
  · next k hk =>
    refine ⟨?_, ?_, h.ended⟩
    · intro j hj
      have hidle : s.stage j = .idle := hj
      have hjk : j ≠ k := by
        rintro rfl
        have hwaits := (hinv.pending c id j hk).2
        rw [hidle] at hwaits
        exact hwaits
      simp only [Function.update_of_ne hjk]
      exact h.fresh j hj
    · intro j d i shown hj
      by_cases hjk : j = k
      · subst hjk
        simp only [Function.update_self, Option.some.injEq, Prod.mk.injEq] at hj
        obtain ⟨-, -, rfl⟩ := hj
        exact hok j hk
      · simp only [Function.update_of_ne hjk] at hj
        exact h.inbox j d i shown hj

/-- The reply that a command takes is known to `ack`. -/
theorem Known.take {c id : Nat} {r : Reply} (h : Known s) (hbox : s.inbox k = some (c, id, r)) :
    Known (s.goto k (.ended (.ofReply (s.mode k) c id r))) := by
  refine h.goto (by simp) fun hm => ?_
  rcases Result.ofReply_cases (s.mode k) c id r with heq | ⟨-, shown, rfl, -⟩
  · rw [heq]
    exact fun hunexpected => hunexpected
  · exact absurd hm (h.inbox k c id shown hbox)

theorem Known.shutdown {c : Nat} (h : Known s) : Known (s.shutdown disconnect c) := by
  unfold State.shutdown
  simp only
  split
  · exact h.setConn _ _
  · split <;> exact h.setConn _ _

theorem Known.step {e : Event β} (h : Known s) (hinv : Inv s) (hok : Understood s e)
    (hstep : Step payload disconnect s e t) : Known t := by
  cases hstep with
  | attach => exact ⟨h.fresh, h.inbox, h.ended⟩
  | lose => exact h.setConn _ _
  | issue hst => exact h.issue hst
  | unreachable =>
    split <;> exact h.goto (by simp) fun _ => id
  | start => exact h.start
  | lock => exact h.lock
  | write => exact h.write
  | written => exact (h.setConn _ _).goto (by simp) fun _ => id
  | writeFailed => exact (h.setConn _ _).goto (by simp) fun _ => id
  | broke => exact (h.setConn _ _).sent
  | reply => exact h.reply hinv hok
  | take _ hbox => exact h.take hbox
  | dropped => exact h.sent
  | timeout => exact (h.setConn _ _).sent
  | cancel hcancel => exact h.cancel hcancel
  | shutdown => exact h.shutdown
  | lockShutdown => exact h.setConn _ _
  | writeShutdown => exact h.setConn _ _
  | writtenShutdown => exact h.setConn _ _
  | releaseShutdown => exact h.setConn _ _
  | endShutdown => exact h.setConn _ _

theorem known_of_run {trace : List (Event β)}
    (hrun : (machine payload disconnect).Run Understood trace s) : Inv s ∧ Known s := by
  induction hrun with
  | start hs =>
    obtain rfl := hs
    have hstart : (machine payload disconnect).Run Understood [] {} := .start rfl
    refine ⟨inv_of_run hstart, ?_⟩
    refine ⟨by simp, by simp, fun k _ => ?_⟩
    exact id
  | next _ hok hstep ih =>
    have hcase := step_cases hstep
    exact ⟨ih.1.step hcase, ih.2.step ih.1 hok hcase⟩

end Replies

/-- In every run of attaches, losses, failing and partial writes, timeouts, replies, cancelled callers
and shutdowns in which the parent answers commands with `Ack` and `Error` frames, every command is sent
at most once and ends accordingly. -/
theorem commands_at_most_once {trace : List (Event β)} {s : State β}
    (hrun : (machine payload disconnect).Run Understood trace s) {k : Nat}
    (hmode : s.mode k = .command) : AtMostOnce s k := by
  obtain ⟨h, hknown⟩ := known_of_run hrun
  have hw := h.wrote k hmode
  have hended := hknown.ended k hmode
  refine ⟨?_, ?_, ?_, h.inbox k, fun c id e hst => h.request k c id (by rw [hst]; rfl)⟩
  · intro c d hc hd
    cases hst : s.stage k with
    | idle | locating | queued =>
      rw [hst] at hw
      exact absurd hc (hw c)
    | writing | breaking | waiting =>
      rw [hst] at hw
      exact (hw c hc).trans (hw d hd).symm
    | cancelled =>
      rw [hst] at hw
      exact hw c d hc hd
    | ended r =>
      rw [hst] at hw
      cases r with
      | refused | notSent => exact absurd hc (hw c)
      | answered | unexpected | outcomeUnknown => exact hw c d hc hd
      | failed => exact hw.elim
  · intro hst
    rw [hst] at hw
    exact hw
  · intro c r hc hst
    rw [hst] at hw hended
    cases r with
    | refused | notSent => exact absurd hc (hw c)
    | answered d id e => exact .inr ⟨d, id, e, rfl⟩
    | unexpected => exact absurd trivial hended
    | outcomeUnknown => exact .inl rfl
    | failed => exact hw.elim

/-- A command is answered; the write of the next one fails after two bytes. -/
def cutCommand : List (Event Unit) :=
  [.attach [], .issue 0 .command () true, .start 0 0, .lock 0, .write 0 5, .written 0,
    .reply 0 1 .ack, .take 0, .issue 1 .command () true, .start 1 0, .lock 1, .write 1 2,
    .writeFailed 1, .broke 1 true]

theorem cut_command_unknown : ∃ s,
    (machine (fun _ _ => [7]) fun _ => [9]).Run Understood cutCommand s ∧
    s.stage 0 = .ended (.answered 0 1 none) ∧ AtMostOnce s 0 ∧
    (1, 0) ∈ s.wrote ∧ s.stage 1 = .ended .outcomeUnknown ∧ AtMostOnce s 1 := by
  have hexec : ∃ s,
      (machine (fun _ _ => [7]) fun _ => [9]).exec Understood {} cutCommand = some s ∧
      s.stage 0 = .ended (.answered 0 1 none) ∧ (1, 0) ∈ s.wrote ∧
      s.stage 1 = .ended .outcomeUnknown ∧ s.mode 0 = .command ∧ s.mode 1 = .command :=
    ⟨_, rfl, rfl, by decide, rfl, rfl, rfl⟩
  obtain ⟨s, hexec, hanswered, hwrote, hstage, hmode0, hmode1⟩ := hexec
  have hrun : (machine (fun _ _ => [7]) fun _ => [9]).Run Understood _ s :=
    Machine.run_of_exec rfl hexec
  exact ⟨s, hrun, hanswered, commands_at_most_once hrun hmode0, hwrote, hstage,
    commands_at_most_once hrun hmode1⟩

/-- The parent answers a written command with a body that is no `Ack`. -/
def strangeReply : List (Event Unit) :=
  [.attach [], .issue 0 .command () true, .start 0 0, .lock 0, .write 0 5, .written 0,
    .reply 0 1 (.other "Some(Pong)"), .take 0]

/-- The command ends with a protocol error, though all of it was written. -/
theorem strange_reply_protocol : ∃ s,
    (machine (fun _ _ => [7]) fun _ => [9]).Run Machine.Free strangeReply s ∧
    s.mode 0 = .command ∧ (0, 0) ∈ s.wrote ∧
    s.stage 0 = .ended (.unexpected 0 1 (.protocol "expected Ack, got Some(Pong)")) ∧
    ¬ AtMostOnce s 0 := by
  have hexec : ∃ s, (machine (fun _ _ => [7]) fun _ => [9]).exec Machine.Free {} strangeReply = some s ∧
      s.mode 0 = .command ∧ (0, 0) ∈ s.wrote ∧
      s.stage 0 = .ended (.unexpected 0 1 (.protocol "expected Ack, got Some(Pong)")) :=
    ⟨_, rfl, rfl, by decide, rfl⟩
  obtain ⟨s, hexec, hmode, hwrote, hstage⟩ := hexec
  refine ⟨s, Machine.run_of_exec rfl hexec, hmode, hwrote, hstage, fun h => ?_⟩
  rcases h.unknown 0 _ hwrote hstage with heq | ⟨d, id, e, heq⟩ <;> cases heq

end RithmicNt.Gateway.Calls
