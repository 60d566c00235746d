import RithmicNt.Gateway.RuntimeSteps

/-! What the facades of the gateway client are told: while their last word is a `Resumed`, a loss or an
interruption of the attached connection still has its `Interrupted` ahead. -/

namespace RithmicNt.Gateway.Runtime

open RithmicNt.Lib

/-- A report is about to send `Interrupted`. -/
def Pending (s : State) : Prop := ∃ d, (s.conns d).loss.isMarked = true

/-- The connection that a last `Resumed` is about. -/
structure Up (s : State) (c : Nat) : Prop where
  conn : s.conn = some c
  joined : (s.conns c).joined = true
  quiet : (s.conns c).Quiet
  recovering : s.recovering = true → Pending s
  settled : (s.conns c).loss.settled = true → Pending s

def Told (s : State) : Prop := ∀ g, s.sent.getLast? = some (.resumed g) → ∃ c, Up s c

/-- What may happen to a connection between two words to the facades. -/
structure Later (x y : Connection) : Prop where
  joined : x.joined = true → y.joined = true
  quiet : x.Quiet → y.Quiet
  marked : x.loss.isMarked = true → y.loss.isMarked = true

theorem Later.refl (x : Connection) : Later x x := ⟨id, id, id⟩

/-- A step that the facades hear nothing of.  A report ends without an `Interrupted` only over a
connection that is not published, or within a recovery. -/
structure Unheard (s t : State) : Prop where
  sent : t.sent = s.sent
  conn : t.conn = s.conn
  conns : ∀ d, Later (s.conns d) (t.conns d)
  recovering : t.recovering = true → s.recovering = true ∨ Pending t
  settled : ∀ d, s.conn = some d → (t.conns d).loss.settled = true →
    (s.conns d).loss.settled = true ∨ s.recovering = true

section Steps

variable {attempts : Nat} {s t : State}

theorem Pending.of_unheard (h : Pending s) (hst : Unheard s t) : Pending t := by
  obtain ⟨d, hd⟩ := h
  exact ⟨d, (hst.conns d).marked hd⟩

theorem Up.of_unheard {c : Nat} (h : Up s c) (hst : Unheard s t) : Up t c where
  conn := hst.conn.trans h.conn
  joined := (hst.conns c).joined h.joined
  quiet := (hst.conns c).quiet h.quiet
  recovering hr := by
    rcases hst.recovering hr with hr | hpending
    · exact (h.recovering hr).of_unheard hst
    · exact hpending
  settled hl := by
    rcases hst.settled c h.conn hl with hl | hr
    · exact (h.settled hl).of_unheard hst
    · exact (h.recovering hr).of_unheard hst

theorem Told.of_unheard (h : Told s) (hst : Unheard s t) : Told t := by
  intro g hg
  rw [hst.sent] at hg
  obtain ⟨c, hc⟩ := h g hg
  exact ⟨c, hc.of_unheard hst⟩

/-- The last word is another one. -/
theorem told_append {e : SessionEvent} (hsent : t.sent = s.sent ++ [e])
    (he : ∀ g, e ≠ .resumed g) : Told t := by
  intro g hg
  rw [hsent] at hg
  simp only [List.getLast?_append, List.getLast?_singleton, Option.some_or] at hg
  exact absurd (Option.some.inj hg) (he g)

theorem unheard_same (hconns : t.conns = s.conns) (hsent : t.sent = s.sent) (hconn : t.conn = s.conn)
    (hrec : t.recovering = true → s.recovering = true) : Unheard s t where
  sent := hsent
  conn := hconn
  conns d := by
    rw [hconns]
    exact .refl _
  recovering hr := .inl (hrec hr)
  settled d _ hl := by
    rw [hconns] at hl
    exact .inl hl

theorem unheard_update {c : Nat} {x : Connection} (hconns : t.conns = Function.update s.conns c x)
    (hsent : t.sent = s.sent) (hconn : t.conn = s.conn) (hx : Later (s.conns c) x)
    (hrec : t.recovering = true → s.recovering = true ∨ x.loss.isMarked = true)
    (hsettled : s.conn = some c → x.loss.settled = true →
      (s.conns c).loss.settled = true ∨ s.recovering = true) : Unheard s t where
  sent := hsent
  conn := hconn
  conns d := by
    rw [hconns]
    by_cases hd : d = c
    · rw [hd, Function.update_self]
      exact hx
    · rw [Function.update_of_ne hd]
      exact .refl _
  recovering hr := by
    refine (hrec hr).imp id fun hmarked => ⟨c, ?_⟩
    rw [hconns, Function.update_self]
    exact hmarked
  settled d hd hl := by
    rw [hconns] at hl
    by_cases hdc : d = c
    · subst hdc
      rw [Function.update_self] at hl
      exact hsettled hd hl
    · rw [Function.update_of_ne hdc] at hl
      exact .inl hl

/-- A step on one connection that leaves the report of its loss alone. -/
theorem unheard_setConn {c : Nat} {x : Connection} (hconns : t.conns = Function.update s.conns c x)
    (hsent : t.sent = s.sent) (hconn : t.conn = s.conn) (hrec : t.recovering = s.recovering)
    (hjoined : (s.conns c).joined = true → x.joined = true) (hquiet : (s.conns c).Quiet → x.Quiet)
    (hloss : x.loss = (s.conns c).loss) : Unheard s t := by
  refine unheard_update hconns hsent hconn ⟨hjoined, hquiet, ?_⟩ (fun hr => .inl ?_) fun _ hl => .inl ?_
  · rw [hloss]
    exact id
  · rw [← hrec]
    exact hr
  · rw [← hloss]
    exact hl

theorem Silent.unheard (h : Silent s t) : Unheard s t := by
  refine ⟨h.sent, h.conn, fun d => ?_, fun hr => .inl ?_, fun d _ hl => .inl ?_⟩
  · obtain ⟨acked, -, heq⟩ := h.conns d
    rw [heq]
    exact ⟨id, id, id⟩
  · rw [← h.recovering]
    exact hr
  · obtain ⟨acked, -, heq⟩ := h.conns d
    rw [heq] at hl
    exact hl

theorem Loss.not_settled {l : Loss} (h : l.early = true) : l.settled = false := by
  cases l with
  | unreported | primed | claimed => rfl
  | current | marked | warning | starting | done => cases h

theorem Connection.Ok.unreported {x : Connection} (h : x.Ok) (hopen : x.closed = false) :
    x.loss = .unreported := by
  by_contra hne
  cases hopen.symm.trans (h.lost hne)

theorem Placed.marked_lt {d : Nat} (h : Placed s) (hd : (s.conns d).loss.isMarked = true) :
    d < s.nextConnId := by
  by_contra hge
  rw [h.fresh d (by omega)] at hd
  cases hd

/-- With the loss of the published connection settled, the last word is no `Resumed`. -/
theorem Settled.not_resumed (h : Settled s) (hplaced : Placed s) (htold : Told s) (g : Nat) :
    s.sent.getLast? ≠ some (.resumed g) := by
  intro hg
  obtain ⟨c, hc⟩ := htold g hg
  obtain ⟨hsettled, hunmarked⟩ := h c hc.conn hc.joined
  obtain ⟨d, hd⟩ := hc.settled hsettled
  cases (hunmarked d (hplaced.marked_lt hd)).symm.trans hd

theorem told_of_not_resumed (hnot : ∀ g, s.sent.getLast? ≠ some (.resumed g))
    (hsent : t.sent = s.sent) : Told t := by
  intro g hg
  rw [hsent] at hg
  exact absurd hg (hnot g)

/-- A flight that has joined nothing yet fails: nobody was told that it is up. -/
theorem Told.unjoined {auto : Bool} {n c : Nat} (h : Told s) (hpub : Published s c false) :
    Told (s.takeConn auto n) := by
  refine told_of_not_resumed (fun g hg => ?_) rfl
  obtain ⟨d, hd⟩ := h g hg
  cases (hpub.unjoined d hd.conn).symm.trans hd.joined

theorem Told.connected {auto : Bool} {n : Nat} (h : Told s) (hplaced : Placed s) :
    Told { s.setConn s.nextConnId { reading := true } with
      nextConnId := s.nextConnId + 1
      redial := .connected auto n s.nextConnId } := by
  have hnew : s.conns s.nextConnId = {} := hplaced.fresh _ (le_refl _)
  refine h.of_unheard (unheard_setConn rfl rfl rfl rfl ?_ ?_ ?_)
  · rw [hnew]
    exact id
  · rw [hnew]
    exact id
  · rw [hnew]

theorem Told.attach {auto : Bool} {n c : Nat} {next : Attach} (h : Told s) (hplaced : Placed s)
    (hr : s.redial = .attaching auto n c next) (hlook : next ≠ .look) (hmeasure : next ≠ .measure)
    (horder : s.redial.InOrder s) : Told (s.attach auto n c next) := by
  cases next with
  | look => exact absurd rfl hlook
  | measure => exact absurd rfl hmeasure
  | join => exact h.of_unheard (unheard_setConn rfl rfl rfl rfl (fun _ => rfl) id rfl)
  | clear => exact h.of_unheard (unheard_same rfl rfl rfl fun hrec => by cases hrec)
  | first => exact h.of_unheard (unheard_same rfl rfl rfl id)
  | count => exact h.of_unheard (unheard_same rfl rfl rfl id)
  | announce generation =>
    have hat := hplaced.redial_at hr
    obtain ⟨hpub, -, hearly⟩ := hat
    rw [hr] at horder
    obtain ⟨hrec, hquiet⟩ := horder
    refine fun g _ => ⟨c, hpub.conn, hpub.joined, hquiet, fun hrec' => ?_, fun hl => ?_⟩
    · cases hrec.symm.trans hrec'
    · cases (Loss.not_settled (hearly (by simp))).symm.trans hl

/-- The reader of the attached connection passes a resumption on. -/
theorem told_announcing {c generation : Nat} (hok : ConnsOk s)
    (hreader : (s.conns c).reader = .announcing generation) (hrec : s.recovering = false)
    (hlive : s.live? = some c) : Told ((s.setReader c .waiting).resumed generation) := by
  obtain ⟨hconn, hopen, hjoined⟩ := live_eq_some.mp hlive
  have hframe : (s.conns c).lastFrame = some .resumed := (hok c).resumes (by rw [hreader]; rfl)
  have hloss := (hok c).unreported hopen
  refine fun g _ => ⟨c, hconn, ?_, .inl ?_, fun hrec' => ?_, fun hl => ?_⟩
  · simpa [State.setReader, State.resumed] using hjoined
  · simp [State.setReader, State.resumed, hframe]
  · cases hrec.symm.trans hrec'
  · simp [State.setReader, State.resumed, hloss, Loss.settled] at hl

theorem Told.read {c : Nat} (h : Told s) (hok : ConnsOk s) (horder : (s.conns c).reader.InOrder s c)
    (hread : Reading s c t) : Told t := by
  cases hread with
  | interrupting =>
    exact h.of_unheard (unheard_setConn rfl rfl rfl rfl id (fun _ => .inr rfl) rfl)
  | warning => exact told_append rfl nofun
  | resuming hr | counting hr =>
    have hframe : (s.conns c).lastFrame = some .resumed := (hok c).resumes (by rw [hr]; rfl)
    refine h.of_unheard (unheard_setConn rfl rfl rfl rfl id (fun _ => .inl ?_) rfl)
    simp [hframe]
  | announcing hr =>
    rw [hr] at horder
    exact told_announcing hok hr horder.1 horder.2

theorem Told.lossStep {c : Nat} (h : Told s) (hloss : Losing attempts s c t) : Told t := by
  cases hloss with
  | claim hl =>
    refine h.of_unheard (unheard_update rfl rfl rfl ⟨id, id, ?_⟩ .inl fun _ hl' => by cases hl')
    simp [hl, Loss.isMarked]
  | current hl =>
    refine h.of_unheard (unheard_update rfl rfl rfl ⟨id, id, ?_⟩ .inl fun _ hl' => by cases hl')
    simp [hl, Loss.isMarked]
  | replaced hl _ hconn =>
    refine h.of_unheard (unheard_update rfl rfl rfl ⟨id, id, ?_⟩ .inl fun hmine _ => absurd hmine hconn)
    simp [hl, Loss.isMarked]
  | joined hl hrec =>
    refine h.of_unheard (unheard_update rfl rfl rfl ⟨id, id, ?_⟩ .inl fun _ _ => .inr hrec)
    simp [hl, Loss.isMarked]
  | mark hl =>
    exact h.of_unheard (unheard_update rfl rfl rfl ⟨id, id, fun _ => rfl⟩ (fun _ => .inr rfl)
      fun _ hl' => by cases hl')
  | marked hl =>
    exact h.of_unheard (unheard_update rfl rfl rfl ⟨id, id, fun _ => rfl⟩ .inl
      fun _ hl' => by cases hl')
  | warning => exact told_append rfl nofun
  | starting hl =>
    have hmarked : (s.conns c).loss.isMarked = true → Loss.done.isMarked = true := by
      simp [hl, Loss.isMarked]
    have hsettled : (s.conns c).loss.settled = true := by
      rw [hl]
      rfl
    unfold State.startRecovery
    split
    · exact h.of_unheard (unheard_update rfl rfl rfl ⟨id, id, hmarked⟩ (fun hr => by cases hr)
        fun _ _ => .inl hsettled)
    · exact h.of_unheard (unheard_update rfl rfl rfl ⟨id, id, hmarked⟩ .inl fun _ _ => .inl hsettled)

theorem told_start : Told {} := by
  intro g hg
  cases hg

theorem Told.step {e : Event} (h : Told s) (hplaced : Placed s) (hok : ConnsOk s)
    (horder : InOrder s e) (hstep : Step attempts s e t) : Told t := by
  cases hstep with
  | intent hi => exact h.of_unheard (hplaced.quiescent hi).unheard
  | onward => exact h.of_unheard (unheard_same rfl rfl rfl id)
  | recover | fail => exact h.of_unheard (unheard_same rfl rfl rfl id)
  | failed => exact told_append rfl nofun
  | clear => exact h.of_unheard (unheard_same rfl rfl rfl fun hrec => by cases hrec)
  | connected => exact h.connected hplaced
  | publish =>
    have hsettled : Settled s := horder
    exact told_of_not_resumed (hsettled.not_resumed hplaced h) rfl
  | undialed hr =>
    have hsettled : Settled s := horder (by rw [hr]; rfl)
    exact told_of_not_resumed (hsettled.not_resumed hplaced h) rfl
  | unjoined hr =>
    obtain hr | ⟨key, rest, -, hr⟩ := hr
    · exact h.unjoined (hplaced.redial_at hr).1
    · exact h.unjoined (hplaced.redial_at hr).1
  | joinAcked | intend | shutDown | lost | broken =>
    exact h.of_unheard (unheard_setConn rfl rfl rfl rfl id id rfl)
  | attach hr hlook hmeasure => exact h.attach hplaced hr hlook hmeasure horder
  | @frame c f =>
    refine h.of_unheard (unheard_setConn rfl rfl rfl rfl id (fun _ => ?_) rfl)
    cases f with
    | interrupted => exact .inr rfl
    | resumed => exact .inl (by simp)
  | read _ hread => exact h.read hok horder hread
  | report hc hclosed hl =>
    refine h.of_unheard (unheard_update rfl rfl rfl ⟨id, id, ?_⟩ .inl fun _ hl' => by cases hl')
    simp [hl, Loss.isMarked]
  | lossStep _ hloss => exact h.lossStep hloss

theorem connsOk_start : ConnsOk {} := fun _ => ⟨fun h => absurd rfl h, fun h => by cases h⟩

theorem ConnsOk.read {c : Nat} (h : ConnsOk s) (hread : Reading s c t) : ConnsOk t := by
  cases hread with
  | interrupting => exact h.update ⟨(h c).lost, fun hr => by cases hr⟩
  | warning => exact h.update ⟨(h c).lost, fun hr => by cases hr⟩
  | resuming hr => exact h.update ⟨(h c).lost, fun _ => (h c).resumes (by rw [hr]; rfl)⟩
  | counting hr => exact h.update ⟨(h c).lost, fun _ => (h c).resumes (by rw [hr]; rfl)⟩
  | announcing => exact h.update ⟨(h c).lost, fun hr => by cases hr⟩

theorem ConnsOk.lossStep {c : Nat} (h : ConnsOk s) (hloss : Losing attempts s c t) : ConnsOk t := by
  have hclosed : ∀ {l : Loss}, (s.conns c).loss = l → l ≠ .unreported → (s.conns c).closed = true := by
    rintro l rfl hne
    exact (h c).lost hne
  cases hloss with
  | claim hl | current hl | replaced hl | joined hl | mark hl | marked hl | warning hl =>
    exact h.update ⟨fun _ => hclosed hl nofun, (h c).resumes⟩
  | starting hl =>
    unfold State.startRecovery
    split <;> exact h.update ⟨fun _ => hclosed hl nofun, (h c).resumes⟩

theorem ConnsOk.attach {auto : Bool} {n c : Nat} {next : Attach} (h : ConnsOk s)
    (hlook : next ≠ .look) (hmeasure : next ≠ .measure) : ConnsOk (s.attach auto n c next) := by
  cases next with
  | look => exact absurd rfl hlook
  | measure => exact absurd rfl hmeasure
  | join => exact h.update ⟨(h c).lost, (h c).resumes⟩
  | clear | first | count | announce => exact h

theorem ConnsOk.step {e : Event} (h : ConnsOk s) (hplaced : Placed s) (hstep : Step attempts s e t) :
    ConnsOk t := by
  cases hstep with
  | intent hi => exact h.of_silent (hplaced.quiescent hi).toSilent
  | onward | recover | fail | failed | clear | publish | undialed | unjoined => exact h
  | connected => exact h.update ⟨fun hl => absurd rfl hl, fun hr => by cases hr⟩
  | @joinAcked _ _ c | @intend _ _ c => exact h.update ⟨(h c).lost, (h c).resumes⟩
  | attach _ hlook hmeasure => exact h.attach hlook hmeasure
  | @shutDown _ _ c | @lost c | @broken c => exact h.update ⟨fun _ => rfl, (h c).resumes⟩
  | @frame c f =>
    refine h.update ⟨(h c).lost, ?_⟩
    cases f with
    | interrupted => exact fun hr => by cases hr
    | resumed => exact fun _ => rfl
  | read _ hread => exact h.read hread
  | @report c _ hclosed => exact h.update ⟨fun _ => hclosed, (h c).resumes⟩
  | lossStep _ hloss => exact h.lossStep hloss

end Steps

end RithmicNt.Gateway.Runtime
