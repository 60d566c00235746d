import Mathlib.Data.List.Range
import RithmicNt.Gateway.RuntimeReports

/-! The lifecycle of the gateway client over whole runs: a `Resumed` that is the last event the
facades got is true of the connection the client is attached to. -/

namespace RithmicNt.Gateway.Runtime

open RithmicNt.Lib

/-- Who has counted the generation up and not sent its `Resumed` yet: a reader, or the lock holder. -/
inductive Announces (s : State) : Option Nat → Nat → Prop
  | reader {c generation : Nat} : (s.conns c).reader = .announcing generation →
      Announces s (some c) generation
  | attach {auto : Bool} {n c generation : Nat} :
      s.redial = .attaching auto n c (.announce generation) → Announces s none generation

structure Counting (s : State) : Prop where
  total : Counted s
  counted : ∀ w generation, Announces s w generation → s.counted = [generation]
  one : ∀ w w' generation generation', Announces s w generation → Announces s w' generation' → w = w'
  first : s.redial.isFirst = true → s.generation = 0

/-- A step that neither counts nor sends a `Resumed`. -/
structure Uncounted (s t : State) : Prop where
  generation : t.generation = s.generation
  announced : announced t.sent = announced s.sent
  counted : t.counted = s.counted
  announces : ∀ w generation, Announces t w generation → Announces s w generation
  first : t.redial.isFirst = true → s.redial.isFirst = true ∨ s.generation = 0

variable {s t : State} {attempts : Nat}

theorem Counting.of_uncounted (h : Counting s) (hst : Uncounted s t) : Counting t where
  total := by
    obtain ⟨base, hbase, htotal⟩ := h.total
    refine ⟨base, hbase, ?_⟩
    rw [hst.generation, hst.announced, hst.counted]
    exact htotal
  counted w generation hw := by
    rw [hst.counted]
    exact h.counted w generation (hst.announces w generation hw)
  one w w' generation generation' hw hw' :=
    h.one w w' generation generation' (hst.announces w _ hw) (hst.announces w' _ hw')
  first hfirst := by
    rw [hst.generation]
    rcases hst.first hfirst with hfirst | hzero
    · exact h.first hfirst
    · exact hzero

/-- The generation is counted up by `w`, with no other count unsent. -/
theorem Counting.count {w : Option Nat} (h : Counting s) (hnone : s.counted = [])
    (hgen : t.generation = s.generation + 1) (hsent : t.sent = s.sent)
    (hcounted : t.counted = s.counted ++ [s.generation + 1])
    (hwho : ∀ w' generation, Announces t w' generation →
      w' = w ∧ generation = s.generation + 1 ∨ Announces s w' generation)
    (hfirst : t.redial.isFirst = false) : Counting t := by
  have honly : ∀ w' generation, Announces t w' generation → w' = w ∧ generation = s.generation + 1 := by
    intro w' generation hw'
    rcases hwho w' generation hw' with hmine | hother
    · exact hmine
    · cases hnone.symm.trans (h.counted _ _ hother)
  obtain ⟨base, hbase, hlist, htotal⟩ := h.total
  rw [hnone, List.append_nil] at hlist htotal
  refine ⟨⟨base, hbase, ?_, ?_⟩, ?_, ?_, ?_⟩
  · rw [hsent, hcounted, hnone, List.nil_append, List.length_append, List.length_singleton,
      List.range'_concat, ← hlist, htotal]
    congr 2
    omega
  · rw [hgen, hsent, hcounted, hnone, List.nil_append, List.length_append, List.length_singleton]
    omega
  · intro w' generation hw'
    rw [hcounted, hnone, (honly w' generation hw').2]
    rfl
  · intro w' w'' generation generation' hw' hw''
    exact (honly w' _ hw').1.trans (honly w'' _ hw'').1.symm
  · intro hf
    cases hfirst.symm.trans hf

theorem announced_append_quiet (l : List SessionEvent) {e : SessionEvent} (he : announced [e] = []) :
    announced (l ++ [e]) = announced l := by
  simp only [announced, List.filterMap_append] at he ⊢
  rw [he, List.append_nil]

theorem announced_append_resumed (l : List SessionEvent) (generation : Nat) :
    announced (l ++ [SessionEvent.resumed generation]) = announced l ++ [generation] := by
  simp [announced]

/-- What `w` has counted is sent. -/
theorem Counting.announce {w : Option Nat} {generation : Nat} (h : Counting s)
    (hw : Announces s w generation) (hgen : t.generation = s.generation)
    (hsent : t.sent = s.sent ++ [SessionEvent.resumed generation])
    (hcounted : t.counted = s.counted.erase generation)
    (hwho : ∀ w' generation, Announces t w' generation → Announces s w' generation ∧ w' ≠ w)
    (hfirst : t.redial.isFirst = true → s.redial.isFirst = true) : Counting t := by
  have hnone : ∀ w' generation', ¬ Announces t w' generation' := by
    intro w' generation' hw'
    obtain ⟨hother, hne⟩ := hwho w' generation' hw'
    exact hne (h.one _ _ _ _ hother hw)
  have hmine := h.counted w generation hw
  have hempty : t.counted = [] := by
    rw [hcounted, hmine, List.erase_cons_head]
  refine ⟨?_, fun w' g hw' => absurd hw' (hnone w' g), fun w' _ g _ hw' => absurd hw' (hnone w' g),
    fun hf => ?_⟩
  · obtain ⟨base, hbase, htotal⟩ := h.total
    refine ⟨base, hbase, ?_⟩
    rw [hempty, hgen, hsent, announced_append_resumed, List.append_nil, ← hmine]
    exact htotal
  · rw [hgen]
    exact h.first (hfirst hf)

/-- The first attach sets the generation. -/
theorem Counting.setFirst (h : Counting s) (hfirst : s.redial.isFirst = true) :
    Counting { s with generation := 1, redial := .free } := by
  have hzero := h.first hfirst
  obtain ⟨base, hbase, hlist, htotal⟩ := h.total
  have hnil : announced s.sent ++ s.counted = [] := List.length_eq_zero_iff.mp (by omega)
  have hreader : ∀ w generation,
      Announces { s with generation := 1, redial := .free } w generation → Announces s w generation := by
    intro w generation hw
    cases hw with
    | reader hr => exact .reader hr
    | attach hr => cases hr
  refine ⟨⟨1, le_refl _, ?_, ?_⟩, ?_, ?_, fun hf => by cases hf⟩
  · simp [hnil]
  · simp [hnil]
  · exact fun w generation hw => h.counted w generation (hreader w generation hw)
  · exact fun w w' g g' hw hw' => h.one w w' g g' (hreader w g hw) (hreader w' g' hw')

/-- Whoever is about to send has been before, where no reader comes to it and the lock holder has not. -/
theorem announces_of_same (hreaders : ∀ c g, (t.conns c).reader = .announcing g →
      (s.conns c).reader = .announcing g)
    (hredial : t.redial = s.redial ∨ ∀ auto n c g, t.redial ≠ .attaching auto n c (.announce g))
    (w : Option Nat) (generation : Nat) (hw : Announces t w generation) : Announces s w generation := by
  cases hw with
  | reader hr => exact .reader (hreaders _ _ hr)
  | attach hr =>
    rcases hredial with hsame | hnot
    · exact .attach (hsame.symm.trans hr)
    · exact absurd hr (hnot _ _ _ _)

/-- A step of the lock holder. -/
theorem uncounted_redial (hconns : ∀ c, (t.conns c).reader = (s.conns c).reader)
    (hgen : t.generation = s.generation) (hann : announced t.sent = announced s.sent)
    (hcounted : t.counted = s.counted)
    (hredial : ∀ auto n c g, t.redial ≠ .attaching auto n c (.announce g))
    (hfirst : t.redial.isFirst = true → s.generation = 0) : Uncounted s t where
  generation := hgen
  announced := hann
  counted := hcounted
  announces := announces_of_same (fun c _ hr => (hconns c).symm.trans hr) (.inr hredial)
  first hf := .inr (hfirst hf)

/-- A step on one connection. -/
theorem uncounted_setConn {c : Nat} {x : Connection} (hconns : t.conns = Function.update s.conns c x)
    (hr : t.redial = s.redial) (hgen : t.generation = s.generation)
    (hann : announced t.sent = announced s.sent) (hcounted : t.counted = s.counted)
    (hx : ∀ g, x.reader = .announcing g → (s.conns c).reader = .announcing g) : Uncounted s t where
  generation := hgen
  announced := hann
  counted := hcounted
  announces := by
    refine announces_of_same (fun d g hd => ?_) (.inl hr)
    rw [hconns] at hd
    by_cases hdc : d = c
    · subst hdc
      rw [Function.update_self] at hd
      exact hx g hd
    · rw [Function.update_of_ne hdc] at hd
      exact hd
  first hf := by
    rw [hr] at hf
    exact .inl hf

theorem reader_update {c : Nat} {x : Connection} (hx : x.reader = (s.conns c).reader) (d : Nat) :
    (Function.update s.conns c x d).reader = (s.conns d).reader := by
  by_cases hd : d = c
  · rw [hd, Function.update_self, hx]
  · rw [Function.update_of_ne hd]

theorem Quiescent.uncounted (h : Quiescent s t) : Uncounted s t where
  generation := h.generation
  announced := by rw [h.sent]
  counted := h.counted
  announces := by
    refine announces_of_same (fun c g hr => ?_) (h.attaching.imp id fun hnot auto n c g heq => ?_)
    · obtain ⟨acked, -, heq⟩ := h.conns c
      rw [heq] at hr
      exact hr
    · rw [heq] at hnot
      cases hnot
  first hf := by
    rcases h.attaching with hsame | hnot
    · exact .inl (hsame ▸ hf)
    · cases hr : t.redial <;> simp_all [Redial.isFirst, Redial.isAttaching]

theorem uncounted_onward {r : Redial} (ho : Onward s r) : Uncounted s (s.goto r) := by
  refine uncounted_redial (fun _ => rfl) rfl rfl rfl ?_ ?_
  · intro auto n c g heq
    cases ho with
    | measure | refused | unclosed =>
      simp only [State.goto] at heq
      split at heq <;> cases heq
    | dial | retry | reporting | snapshot | passed | awaiting | joined | look | join | unintended =>
      cases heq
  · intro hf
    cases ho with
    | measure =>
      simp only [State.goto] at hf
      split at hf
      · next hzero => exact hzero
      · cases hf
    | refused | unclosed =>
      simp only [State.goto] at hf
      split at hf <;> cases hf
    | dial | retry | reporting | snapshot | passed | awaiting | joined | look | join | unintended =>
      cases hf

theorem Counting.attach {auto : Bool} {n c : Nat} {next : Attach} (h : Counting s)
    (hr : s.redial = .attaching auto n c next) (hlook : next ≠ .look) (hmeasure : next ≠ .measure)
    (horder : s.redial.InOrder s) : Counting (s.attach auto n c next) := by
  cases next with
  | look => exact absurd rfl hlook
  | measure => exact absurd rfl hmeasure
  | join =>
    exact h.of_uncounted (uncounted_redial (reader_update rfl) rfl rfl rfl nofun fun hf => by cases hf)
  | clear => exact h.of_uncounted (uncounted_redial (fun _ => rfl) rfl rfl rfl nofun fun hf => by cases hf)
  | first => exact h.setFirst (by rw [hr]; rfl)
  | count =>
    rw [hr] at horder
    refine h.count (w := none) horder rfl rfl rfl (fun w' generation hw' => ?_) rfl
    cases hw' with
    | reader hread => exact .inr (.reader hread)
    | attach heq =>
      cases heq
      exact .inl ⟨rfl, rfl⟩
  | announce generation =>
    refine h.announce (.attach hr) rfl rfl rfl (fun w' generation' hw' => ?_) fun hf => by cases hf
    cases hw' with
    | reader hread => exact ⟨.reader hread, nofun⟩
    | attach heq => cases heq

theorem Counting.read {c : Nat} (h : Counting s) (horder : (s.conns c).reader.InOrder s c)
    (hread : Reading s c t) : Counting t := by
  cases hread with
  | interrupting =>
    exact h.of_uncounted (uncounted_setConn rfl rfl rfl rfl rfl fun _ hg => by cases hg)
  | warning =>
    exact h.of_uncounted (uncounted_setConn rfl rfl rfl (announced_append_quiet _ rfl) rfl
      fun _ hg => by cases hg)
  | resuming =>
    refine h.of_uncounted (uncounted_setConn rfl rfl rfl rfl rfl fun g hg => ?_)
    simp only at hg
    split at hg <;> cases hg
  | counting hr =>
    rw [hr] at horder
    refine h.count (w := some c) horder.1 rfl rfl rfl (fun w' generation hw' => ?_) horder.2
    cases hw' with
    | @reader d _ hreader =>
      by_cases hd : d = c
      · subst hd
        simp only [State.setReader, State.count, setConn_self, Reader.announcing.injEq] at hreader
        exact .inl ⟨rfl, hreader.symm⟩
      · simp only [State.setReader, State.count, setConn_of_ne _ hd] at hreader
        exact .inr (.reader hreader)
    | attach heq => exact .inr (.attach heq)
  | announcing hr =>
    refine h.announce (.reader hr) rfl rfl rfl (fun w' generation' hw' => ?_) id
    cases hw' with
    | @reader d _ hreader =>
      by_cases hd : d = c
      · subst hd
        simp [State.setReader, State.resumed] at hreader
      · simp only [State.setReader, State.resumed, setConn_of_ne _ hd] at hreader
        refine ⟨.reader hreader, fun heq => hd ?_⟩
        exact Option.some.inj heq
    | attach heq => exact ⟨.attach heq, fun hw => by cases hw⟩

theorem Counting.lossStep {c : Nat} (h : Counting s) (hloss : Losing attempts s c t) : Counting t := by
  cases hloss with
  | claim | current | replaced | joined | mark | marked =>
    exact h.of_uncounted (uncounted_setConn rfl rfl rfl rfl rfl fun _ hg => hg)
  | warning =>
    exact h.of_uncounted (uncounted_setConn rfl rfl rfl (announced_append_quiet _ rfl) rfl
      fun _ hg => hg)
  | starting =>
    unfold State.startRecovery
    split <;> exact h.of_uncounted (uncounted_setConn rfl rfl rfl rfl rfl fun _ hg => hg)

theorem counting_start : Counting {} := by
  refine ⟨⟨0, by omega, rfl, rfl⟩, ?_, ?_, fun hf => by cases hf⟩
  · intro w generation hw
    cases hw with
    | reader hr | attach hr => cases hr
  · intro w w' generation generation' hw
    cases hw with
    | reader hr | attach hr => cases hr

theorem Counting.step {e : Event} (h : Counting s) (hplaced : Placed s) (horder : InOrder s e)
    (hstep : Step attempts s e t) : Counting t := by
  cases hstep with
  | intent hi => exact h.of_uncounted (hplaced.quiescent hi).uncounted
  | onward ho => exact h.of_uncounted (uncounted_onward ho)
  | recover | fail | clear | publish | undialed | unjoined =>
    exact h.of_uncounted (uncounted_redial (fun _ => rfl) rfl rfl rfl nofun fun hf => by cases hf)
  | failed =>
    exact h.of_uncounted (uncounted_redial (fun _ => rfl) rfl (announced_append_quiet _ rfl) rfl nofun
      fun hf => by cases hf)
  | connected =>
    have hnew : s.conns s.nextConnId = {} := hplaced.fresh _ (le_refl _)
    exact h.of_uncounted (uncounted_redial (reader_update (by rw [hnew])) rfl rfl rfl nofun
      fun hf => by cases hf)
  | joinAcked | intend =>
    exact h.of_uncounted (uncounted_redial (reader_update rfl) rfl rfl rfl nofun fun hf => by cases hf)
  | @shutDown auto =>
    refine h.of_uncounted (uncounted_redial (reader_update rfl) rfl rfl rfl ?_ ?_)
    · cases auto <;> exact nofun
    · cases auto <;> exact fun hf => by cases hf
  | attach hr hlook hmeasure => exact h.attach hr hlook hmeasure horder
  | @frame c f =>
    refine h.of_uncounted (uncounted_setConn rfl rfl rfl rfl rfl fun g hg => ?_)
    cases f <;> cases hg
  | read _ hread => exact h.read horder hread
  | lost | broken | report =>
    exact h.of_uncounted (uncounted_setConn rfl rfl rfl rfl rfl fun _ hg => hg)
  | lossStep _ hloss => exact h.lossStep hloss

structure Inv (s : State) : Prop where
  conns : ConnsOk s
  placed : Placed s
  told : Told s
  counting : Counting s

theorem Inv.step {e : Event} (h : Inv s) (horder : InOrder s e) (hstep : Step attempts s e t) :
    Inv t where
  conns := h.conns.step h.placed hstep
  placed := h.placed.step h.conns hstep
  told := h.told.step h.placed h.conns horder hstep
  counting := h.counting.step h.placed horder hstep

theorem Inv.attached {c : Nat} (h : Inv s) (hup : Up s c) : Attached s c := by
  refine ⟨hup.conn, hup.joined, fun key hk => ?_, hup.quiet, ?_⟩
  · rcases h.placed.acked c hup.conn hup.joined key hk with hacked | hnil
    · exact hacked
    · cases hnil
  · by_cases hsettled : (s.conns c).loss.settled = true
    · exact .inr (.inr (hup.settled hsettled))
    · exact .inr (.inl ⟨h.placed.unintended c hup.conn hup.joined, by simpa using hsettled⟩)

theorem Inv.sound (h : Inv s) : Sound s := by
  refine ⟨fun generation hlast => ?_, h.counting.total⟩
  obtain ⟨c, hup⟩ := h.told generation hlast
  exact ⟨c, h.attached hup⟩

/-- In every run whose steps are in order, a last `Resumed` is true of the connection the client is
attached to, and each `Resumed` counts the generation up by one. -/
theorem resumed_sound_of_run {trace : List Event} (hrun : (machine attempts).Run InOrder trace s) :
    Sound s := by
  refine Inv.sound (hrun.invariant ?_ ?_)
  · rintro s rfl
    exact ⟨connsOk_start, placed_start, told_start, counting_start⟩
  · intro s e t h horder hstep
    exact h.step horder (step_cases hstep)

/-- The first attach of a client with one facade that holds the PnL stream. -/
def attachedPnl : List Event :=
  [Event.register 1, .dial, .connected, .publish, .snapshot [], .join] ++
    List.replicate 6 Event.finish ++ [Event.subscribe 1 .pnl, .subscribed true]

/-- The socket is lost, and the recovery has re-joined the PnL stream on a second one. -/
def rejoinedPnl : List Event :=
  attachedPnl ++ [Event.lost 1, .report 1] ++ List.replicate 6 (Event.lossStep 1) ++
    [Event.recover, .retry, .connected, .publish, .snapshot [.pnl], .join, .joinAcked, .join]

theorem resumed_after_rejoin :
    ∃ s, (machine 8).Run InOrder (rejoinedPnl ++ List.replicate 7 Event.finish) s ∧
      s.sent.getLast? = some (.resumed 2) ∧ Sound s := by
  have hexec : ∃ s, (machine 8).exec InOrder {} (rejoinedPnl ++ List.replicate 7 Event.finish) = some s ∧
      s.sent.getLast? = some (.resumed 2) := ⟨_, rfl, rfl⟩
  obtain ⟨s, hexec, hlast⟩ := hexec
  have hrun : (machine 8).Run InOrder _ s := Machine.run_of_exec rfl hexec
  exact ⟨s, hrun, hlast, resumed_sound_of_run hrun⟩

/-- The lock holder's knowledge needs no condition on the steps. -/
theorem placed_of_run {ok : State → Event → Prop} {trace : List Event}
    (hrun : (machine attempts).Run ok trace s) : Placed s := by
  have hboth : ConnsOk s ∧ Placed s := by
    refine hrun.invariant (I := fun s => ConnsOk s ∧ Placed s) ?_ ?_
    · rintro s rfl
      exact ⟨connsOk_start, placed_start⟩
    · rintro s e t ⟨hok, hplaced⟩ - hstep
      exact ⟨hok.step hplaced (step_cases hstep), hplaced.step hok (step_cases hstep)⟩
  exact hboth.2

/-- The last word is a `Resumed`, and the `Interrupted` of the published connection's loss went
before. -/
structure Lost (s : State) (c : Nat) : Prop where
  last : ∃ generation, s.sent.getLast? = some (.resumed generation)
  conn : s.conn = some c
  closed : (s.conns c).closed = true
  settled : (s.conns c).loss.settled = true
  unmarked : ∀ d < s.nextConnId, (s.conns d).loss.isMarked = false

theorem Lost.not_sound {c : Nat} (h : Lost s c) (hplaced : Placed s) : ¬ Sound s := by
  rintro ⟨hsound, -⟩
  obtain ⟨generation, hlast⟩ := h.last
  obtain ⟨d, hd⟩ := hsound generation hlast
  have hdc : d = c := Option.some.inj (hd.conn.symm.trans h.conn)
  subst hdc
  rcases hd.opened with hopen | ⟨-, hunsettled⟩ | ⟨e, he⟩
  · cases hopen.symm.trans h.closed
  · cases hunsettled.symm.trans h.settled
  · cases (h.unmarked e (hplaced.marked_lt he)).symm.trans he

/-- The parent interrupts the new connection, before the attach is announced. -/
def interruptedWithin (finishes : Nat) : List Event :=
  rejoinedPnl ++ List.replicate finishes Event.finish ++ [Event.frame 2 .interrupted, .read 2, .read 2] ++
    List.replicate (7 - finishes) Event.finish

/-- A reader has loaded `recovering` when a write fails on its connection; it goes on when the loss is
reported. -/
def brokenWithinRead : List Event :=
  attachedPnl ++ [Event.frame 1 .resumed, .read 1, .broken 1, .report 1] ++
    List.replicate 5 (Event.lossStep 1) ++ [Event.read 1, .read 1]

/-- Without a recovery, a reader reads on after a write has failed. -/
def readAfterBroken : List Event :=
  attachedPnl ++ [Event.broken 1, .report 1] ++ List.replicate 6 (Event.lossStep 1) ++
    [Event.frame 1 .resumed, .read 1, .read 1, .read 1]

/-- A caller's flight replaces a lost connection before the report of the loss has looked at it. -/
def replacedUnreported : List Event :=
  rejoinedPnl ++ List.replicate 7 Event.finish ++
    [Event.broken 2, .report 2, .lossStep 2, .dial, .connected, .publish]

/-- A reader counts, and `finish_attach` counts and sends before it. -/
def countedTwice : List Event :=
  rejoinedPnl ++ List.replicate 4 Event.finish ++ [Event.frame 2 .resumed, .read 2, .read 2] ++
    List.replicate 3 Event.finish ++ [Event.read 2]

/-- The first attach of a connection sets the generation back. -/
def countedBeforeFirst : List Event :=
  [Event.register 1, .dial, .connected, .publish, .snapshot [], .join] ++
    List.replicate 5 Event.finish ++
    [Event.frame 1 .resumed, .read 1, .read 1, .read 1, .frame 1 .resumed, .read 1, .read 1, .read 1,
      .finish]

theorem not_sound_interrupted {finishes : Nat} (h : finishes = 0 ∨ finishes = 6) :
    ∃ s, (machine 8).Run Machine.Free (interruptedWithin finishes) s ∧ ¬ Sound s := by
  have hexec : ∃ s, (machine 8).exec Machine.Free {} (interruptedWithin finishes) = some s ∧
      s.sent.getLast? = some (.resumed 2) ∧ s.conn = some 2 ∧ ¬ (s.conns 2).Quiet := by
    rcases h with rfl | rfl
    · exact ⟨_, rfl, rfl, rfl, by decide⟩
    · exact ⟨_, rfl, rfl, rfl, by decide⟩
  obtain ⟨s, hexec, hlast, hconn, hloud⟩ := hexec
  refine ⟨s, Machine.run_of_exec rfl hexec, ?_⟩
  rintro ⟨hsound, -⟩
  obtain ⟨c, hc⟩ := hsound 2 hlast
  cases hconn.symm.trans hc.conn
  exact hloud hc.frame

theorem not_sound_lost :
    (∃ s, (machine 8).Run Machine.Free brokenWithinRead s ∧ ¬ Sound s) ∧
    ∃ s, (machine 0).Run Machine.Free readAfterBroken s ∧ ¬ Sound s := by
  have hwithin : ∃ s, (machine 8).exec Machine.Free {} brokenWithinRead = some s ∧ Lost s 1 :=
    ⟨_, rfl, ⟨2, rfl⟩, rfl, rfl, rfl, by decide⟩
  have hafter : ∃ s, (machine 0).exec Machine.Free {} readAfterBroken = some s ∧ Lost s 1 :=
    ⟨_, rfl, ⟨2, rfl⟩, rfl, rfl, rfl, by decide⟩
  obtain ⟨s, hexec, hlost⟩ := hwithin
  obtain ⟨t, hexec', hlost'⟩ := hafter
  have hrun : (machine 8).Run Machine.Free _ s := Machine.run_of_exec rfl hexec
  have hrun' : (machine 0).Run Machine.Free _ t := Machine.run_of_exec rfl hexec'
  exact ⟨⟨s, hrun, hlost.not_sound (placed_of_run hrun)⟩,
    t, hrun', hlost'.not_sound (placed_of_run hrun')⟩

theorem not_sound_replaced :
    ∃ s, (machine 8).Run Machine.Free replacedUnreported s ∧ ¬ Sound s := by
  have hexec : ∃ s, (machine 8).exec Machine.Free {} replacedUnreported = some s ∧
      s.sent.getLast? = some (.resumed 2) ∧ s.conn = some 3 ∧ (s.conns 3).joined = false :=
    ⟨_, rfl, rfl, rfl, rfl⟩
  obtain ⟨s, hexec, hlast, hconn, hunjoined⟩ := hexec
  refine ⟨s, Machine.run_of_exec rfl hexec, ?_⟩
  rintro ⟨hsound, -⟩
  obtain ⟨c, hc⟩ := hsound 2 hlast
  cases hconn.symm.trans hc.conn
  cases hunjoined.symm.trans hc.joined

theorem not_sound_counted :
    (∃ s, (machine 8).Run Machine.Free countedTwice s ∧ ¬ Sound s) ∧
    ∃ s, (machine 8).Run Machine.Free countedBeforeFirst s ∧ ¬ Sound s := by
  have htwice : ∃ s, (machine 8).exec Machine.Free {} countedTwice = some s ∧
      announced s.sent ++ s.counted = [3, 2] := ⟨_, rfl, rfl⟩
  have hfirst : ∃ s, (machine 8).exec Machine.Free {} countedBeforeFirst = some s ∧
      announced s.sent ++ s.counted = [1, 2] ∧ s.generation = 1 := ⟨_, rfl, rfl, rfl⟩
  obtain ⟨s, hexec, hlist⟩ := htwice
  obtain ⟨t, hexec', hlist', hgen⟩ := hfirst
  refine ⟨⟨s, Machine.run_of_exec rfl hexec, ?_⟩, t, Machine.run_of_exec rfl hexec', ?_⟩
  · rintro ⟨-, base, hbase, hcounted, -⟩
    rw [hlist] at hcounted
    simp [List.range'] at hcounted
    omega
  · rintro ⟨-, base, hbase, -, htotal⟩
    rw [hlist', hgen] at htotal
    simp at htotal

/-- Each condition is needed: the parent interrupts the new connection before `finish_attach`, or
within it; a reader sends its `Resumed` for a connection that is lost; a lost connection is replaced
before the facades are told; two are counted at once; and the first attach sets the generation back. -/
theorem resumed_while_interrupted :
    (∃ s, (machine 8).Run Machine.Free (interruptedWithin 0) s ∧ ¬ Sound s) ∧
    (∃ s, (machine 8).Run Machine.Free (interruptedWithin 6) s ∧ ¬ Sound s) ∧
    (∃ s, (machine 8).Run Machine.Free brokenWithinRead s ∧ ¬ Sound s) ∧
    (∃ s, (machine 0).Run Machine.Free readAfterBroken s ∧ ¬ Sound s) ∧
    (∃ s, (machine 8).Run Machine.Free replacedUnreported s ∧ ¬ Sound s) ∧
    (∃ s, (machine 8).Run Machine.Free countedTwice s ∧ ¬ Sound s) ∧
    ∃ s, (machine 8).Run Machine.Free countedBeforeFirst s ∧ ¬ Sound s :=
  ⟨not_sound_interrupted (.inl rfl), not_sound_interrupted (.inr rfl), not_sound_lost.1,
    not_sound_lost.2, not_sound_replaced, not_sound_counted⟩

end RithmicNt.Gateway.Runtime
