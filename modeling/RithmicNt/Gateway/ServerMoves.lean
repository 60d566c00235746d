import RithmicNt.Gateway.Server

/-! What a step of a served connection does, as long as the peer keeps reading, the host does not fail
and no reply is lost. -/

namespace RithmicNt.Gateway.Server

open RithmicNt.Lib
open RithmicNt.Gateway.Calls (Bytes maxFrameLen)

variable {ρ : Type} {prost : Prost}
  {encodedLen : Frame ρ → Nat}

/-- A request with a fresh id that is not zero, and no `Disconnect`. -/
def Reading.Fresh (s : State ρ) : Reading ρ → Prop
  | .answer frame => frame.requestId ∉ s.seen
  | .request req => req.id ≠ 0 ∧ req.id ∉ s.seen ∧ req.body ≠ .disconnect
  | .skip | .stop => True

instance (s : State ρ) : DecidablePred (Reading.Fresh s)
  | .answer frame => inferInstanceAs (Decidable (frame.requestId ∉ s.seen))
  | .request req =>
    inferInstanceAs (Decidable (req.id ≠ 0 ∧ req.id ∉ s.seen ∧ req.body ≠ .disconnect))
  | .skip | .stop => .isTrue trivial

/-- The peer sends fresh ids and no `Disconnect` and keeps reading, and the host does not fail. -/
def Served (prost : Prost) (s : State ρ) : Event ρ → Prop
  | .arrive payload => (readPayload prost payload).Fresh s
  | .writeFailed | .hostFailed => False
  | _ => True

instance (s : State ρ) : DecidablePred (Served prost s) := by
  intro e
  cases e with
  | arrive payload => exact inferInstanceAs (Decidable ((readPayload prost payload).Fresh s))
  | writeFailed => exact .isFalse id
  | hostFailed => exact .isFalse id
  | _ => exact .isTrue trivial

/-- No reply is left to write. -/
structure State.Flushed (s : State ρ) : Prop where
  slowQueue : s.slowQueue = []
  slowHeld : s.slowHeld = none
  tasks : s.tasks = []
  replies : s.replies = []
  writer : s.writer = .idle ∨ s.writer = .ended

instance [DecidableEq ρ] (s : State ρ) : Decidable s.Flushed :=
  decidable_of_iff (s.slowQueue = [] ∧ s.slowHeld = none ∧ s.tasks = [] ∧ s.replies = [] ∧
    (s.writer = .idle ∨ s.writer = .ended))
    ⟨fun ⟨hq, hheld, ht, hr, hw⟩ => ⟨hq, hheld, ht, hr, hw⟩,
      fun h => ⟨h.slowQueue, h.slowHeld, h.tasks, h.replies, h.writer⟩⟩

/-- No handler of the slow lane panics, and the writer's two seconds at the end of the
connection are over only when no reply is left. -/
def Lossless (s : State ρ) : Event ρ → Prop
  | .slowHandled _ none => False
  | .abort => s.Flushed
  | _ => True

instance [DecidableEq ρ] (s : State ρ) : DecidablePred (Lossless s) := by
  intro e
  cases e with
  | slowHandled i outcome =>
    cases outcome with
    | none => exact .isFalse id
    | some body => exact .isTrue trivial
  | abort => exact inferInstanceAs (Decidable s.Flushed)
  | _ => exact .isTrue trivial

def Kept (prost : Prost) (s : State ρ) (e : Event ρ) : Prop :=
  Served prost s e ∧ Lossless s e

instance [DecidableEq ρ] (s : State ρ) : DecidablePred (Kept prost s) :=
  fun e => inferInstanceAs (Decidable (Served prost s e ∧ Lossless s e))

/-- Where the tasks of the connection can be. -/
structure Live (s : State ρ) : Prop where
  stop : s.stop = false
  writer : s.writer = .ended →
    s.Flushed ∧ s.reader = .ended ∧ s.commands = .ended ∧ (s.main = .flushing ∨ s.main = .finished)
  commands : s.commands = .ended → s.reader = .ended ∧ s.commandQueue = []
  main : s.main = .flushing ∨ s.main = .finished → s.commands = .ended
  stopping : s.main ≠ .stopping
  notifying : ∀ frame, s.main = .notifying frame → frame.requestId = 0
  queue : ∀ req ∈ s.commandQueue, req.body ≠ .disconnect
  handing : ∀ req, s.reader = .handing req → req.body ≠ .disconnect
  dispatching : ∀ req, s.commands = .dispatching req → req.body ≠ .disconnect
  replying : ∀ frame close, s.commands = .replying frame close → close = false

/-- The steps. -/
inductive Move (s : State ρ) : State ρ → Prop
  | answer (frame : Frame ρ) : s.reader = .reading → frame.requestId ≠ 0 →
      frame.requestId ∉ s.seen →
      Move s { s with reader := .replying frame, seen := s.seen ++ [frame.requestId] }
  | command (req : Request) : s.reader = .reading → req.id ≠ 0 → req.id ∉ s.seen →
      req.body ≠ .disconnect →
      Move s { s with
        reader := .handing req, seen := s.seen ++ [req.id], arrived := s.arrived ++ [req.id] }
  | slow (req : Request) : s.reader = .reading → req.id ≠ 0 → req.id ∉ s.seen →
      Move s { s with slowQueue := s.slowQueue ++ [req], seen := s.seen ++ [req.id] }
  | readerEnd : s.reader = .reading → Move s { s with reader := .ended }
  | readerReply (frame : Frame ρ) : s.reader = .replying frame →
      Move s { s.push frame with reader := .reading }
  | readerHand (req : Request) : s.reader = .handing req → s.commands ≠ .ended →
      Move s { s with reader := .reading, commandQueue := s.commandQueue ++ [req] }
  | take (req : Request) (rest : List Request) : s.commands = .waiting →
      s.commandQueue = req :: rest → Move s (s.take req rest)
  | commandsEnd : s.commands = .waiting → s.commandQueue = [] → s.reader = .ended →
      Move s { s with commands := .ended }
  | handled (req : Request) (outcome : Option (Reply ρ)) : s.commands = .dispatching req →
      Move s (s.handled req outcome)
  | commandReply (frame : Frame ρ) (close : Bool) : s.commands = .replying frame close →
      Move s { s.push frame with commands := .waiting }
  | slowTake (req : Request) (rest : List Request) : s.slowHeld = none → s.slowQueue = req :: rest →
      Move s { s with slowHeld := some req, slowQueue := rest }
  | slowSpawn (req : Request) : s.slowHeld = some req →
      Move s { s with slowHeld := none, tasks := s.tasks ++ [Task.spawned req] }
  | slowStart (i : Nat) (req : Request) : s.tasks[i]? = some (.spawned req) →
      Move s { s with
        tasks := s.tasks.set i (.dispatching req), slowBegan := s.slowBegan ++ [req.id] }
  | slowRefuse (i : Nat) (req : Request) : s.tasks[i]? = some (.spawned req) →
      Move s { s with tasks := s.tasks.set i (.replying (notReadyFrame req.id)) }
  | slowHandled (i : Nat) (req : Request) (body : Reply ρ) : s.tasks[i]? = some (.dispatching req) →
      Move s { s with tasks := s.tasks.set i (.replying ⟨req.id, body⟩) }
  | slowReply (i : Nat) (frame : Frame ρ) : s.tasks[i]? = some (.replying frame) →
      Move s { s.push frame with tasks := s.tasks.eraseIdx i }
  | writerTake (frame wire : Frame ρ) (rest : List (Frame ρ)) : s.writer = .idle →
      s.replies = frame :: rest → wire.requestId = frame.requestId →
      Move s { s with writer := .writing wire, replies := rest }
  | fanout : s.writer = .idle → Move s { s with writer := .writing ⟨0, .event⟩ }
  | written (frame : Frame ρ) : s.writer = .writing frame →
      Move s { s with writer := .idle, wire := s.wire ++ [frame] }
  | notified (frame : Frame ρ) : s.main = .notifying frame → frame.requestId = 0 →
      Move s { s.push frame with main := .serving }
  | writerEnd (main : Main ρ) : s.Flushed → s.main = .flushing ∨ s.main = .finished →
      main = .flushing ∨ main = .finished → Move s { s with writer := .ended, main := main }
  | setReady (ready : Bool) : Move s { s with ready := ready }
  | session : s.main = .serving → Move s { s with main := .notifying ⟨0, .event⟩ }
  | commandsDone : s.main = .serving → s.commands = .ended → Move s { s with main := .flushing }

theorem requestIdOf_ne_zero {payload : Bytes} {id : UInt64}
    (h : requestIdOf prost payload = some id) : id ≠ 0 := by
  obtain ⟨⟨tag, wire, rest⟩, -, h⟩ := Option.bind_eq_some_iff.mp h
  dsimp only at h
  split at h
  · cases h
  · simpa using (Option.filter_eq_some_iff.mp h).2

theorem readPayload_answer {payload : Bytes} {frame : Frame ρ}
    (h : readPayload prost payload = .answer frame) : frame.requestId ≠ 0 := by
  unfold readPayload at h
  split at h
  · split at h
    · next hid =>
      cases h
      exact requestIdOf_ne_zero hid
    · cases h
  · split at h
    · next hid =>
      cases h
      exact hid
    · cases h
  · cases h

/-- The reader takes a payload. -/
theorem move_arrive {s : State ρ} {r : Reading ρ} (hr : s.reader = .reading) (hfresh : r.Fresh s)
    (hanswer : ∀ frame, r = .answer frame → frame.requestId ≠ 0) : Move s (s.arrive r) := by
  cases r with
  | stop => exact .readerEnd hr
  | skip => exact .setReady s.ready
  | answer frame => exact .answer frame hr (hanswer frame rfl) hfresh
  | request req =>
    obtain ⟨hzero, hseen, hbody⟩ := hfresh
    unfold State.arrive
    simp only
    split
    · exact .command req hr hzero hseen hbody
    · split
      · exact .slow req hr hzero hseen
      · exact .answer (errorFrame req.id "busy" _) hr hzero hseen

theorem toWire_eq_some (hfit : ∀ id len, encodedLen
      (errorFrame id "response_too_large" (frameTooLarge len)) ≤ maxFrameLen) (frame : Frame ρ) :
    ∃ wire, toWire encodedLen frame = some wire ∧ wire.requestId = frame.requestId := by
  unfold toWire
  split
  · exact ⟨frame, rfl, rfl⟩
  · simp only [hfit, if_true]
    exact ⟨_, rfl, rfl⟩

section Steps

variable {s t : State ρ} {e : Event ρ}

theorem Live.writer_ne (h : Live s) (hr : s.reader ≠ .ended ∨ s.commands ≠ .ended ∨ s.tasks ≠ []) :
    s.writer ≠ .ended := by
  intro hw
  obtain ⟨hflushed, hreader, hcommands, -⟩ := h.writer hw
  rcases hr with hr | hr | hr
  · exact hr hreader
  · exact hr hcommands
  · exact hr hflushed.tasks

theorem Live.writer_ne_of_main (h : Live s) (hm : ¬ (s.main = .flushing ∨ s.main = .finished)) :
    s.writer ≠ .ended :=
  fun hw => hm (h.writer hw).2.2.2

theorem move_readerReply (h : Live s) (hstep : s.step prost encodedLen .readerReply = some t) :
    Move s t := by
  simp only [State.step] at hstep
  split at hstep
  · next frame hr =>
    have hw := h.writer_ne (.inl (by simp [hr]))
    split at hstep
    · next hm => exact absurd (Writer.isEnded_iff.mp hm) hw
    · split at hstep <;> cases hstep
      exact .readerReply frame hr
  · cases hstep

theorem move_readerHand (h : Live s) (hstep : s.step prost encodedLen .readerHand = some t) :
    Move s t := by
  simp only [State.step] at hstep
  split at hstep
  · next req hr =>
    have hc : s.commands ≠ .ended := by
      intro hc
      simp [(h.commands hc).1] at hr
    split at hstep
    · next hm => exact absurd (Commands.isEnded_iff.mp hm) hc
    · split at hstep <;> cases hstep
      exact .readerHand req hr hc
  · cases hstep

theorem move_command (h : Live s) (hstep : s.step prost encodedLen .command = some t) :
    Move s t := by
  simp only [State.step] at hstep
  split at hstep
  · next hc =>
    rw [if_neg (by simp [h.stop])] at hstep
    split at hstep
    · next req rest hq =>
      cases hstep
      exact .take req rest hc hq
    · next hq =>
      split at hstep
      · next hm =>
        cases hstep
        exact .commandsEnd hc hq (Reader.isEnded_iff.mp hm)
      · cases hstep
  · cases hstep

theorem move_commandReply (h : Live s) (hstep : s.step prost encodedLen .commandReply = some t) :
    Move s t := by
  simp only [State.step] at hstep
  split at hstep
  · next frame close hc =>
    have hw := h.writer_ne (.inr (.inl (by simp [hc])))
    split at hstep
    · next hm => exact absurd (Writer.isEnded_iff.mp hm) hw
    · have hclose := h.replying frame close hc
      subst hclose
      split at hstep <;> cases hstep
      exact .commandReply frame false hc
  · cases hstep

theorem move_slowReply {i : Nat} (h : Live s)
    (hstep : s.step prost encodedLen (.slowReply i) = some t) : Move s t := by
  simp only [State.step] at hstep
  split at hstep
  · next frame ht =>
    have hw := h.writer_ne (.inr (.inr fun hnil => by simp [hnil] at ht))
    split at hstep
    · next hm => exact absurd (Writer.isEnded_iff.mp hm) hw
    · split at hstep <;> cases hstep
      exact .slowReply i frame ht
  · cases hstep

theorem move_notified (h : Live s) (hstep : s.step prost encodedLen .notified = some t) :
    Move s t := by
  simp only [State.step] at hstep
  split at hstep
  · next frame hm =>
    have hw := h.writer_ne_of_main (by simp [hm])
    split at hstep
    · next hm => exact absurd (Writer.isEnded_iff.mp hm) hw
    · split at hstep <;> cases hstep
      exact .notified frame hm (h.notifying frame hm)
  · cases hstep

theorem move_commandsDone (h : Live s) (hstep : s.step prost encodedLen .commandsDone = some t) :
    Move s t := by
  simp only [State.step] at hstep
  split at hstep
  · next hm hc =>
    cases hstep
    have hr := (h.commands hc).1
    have heq : { s with reader := .ended, main := .flushing } = { s with main := .flushing } := by
      rw [← hr]
    rw [heq]
    exact .commandsDone hm hc
  · next hm _ => exact absurd hm h.stopping
  · cases hstep

theorem move_writerEnd (hstep : s.step prost encodedLen .writerEnd = some t) : Move s t := by
  simp only [State.step] at hstep
  split at hstep
  · next hw hr =>
    split at hstep
    · next hgone =>
      cases hstep
      simp only [State.sendersGone, Bool.and_eq_true, List.isEmpty_iff, Option.isNone_iff_eq_none]
        at hgone
      obtain ⟨⟨⟨⟨-, hq⟩, hheld⟩, htasks⟩, hmain⟩ := hgone
      have hmain := Main.hasLeft_iff.mp hmain
      exact .writerEnd s.main ⟨hq, hheld, htasks, hr, .inl hw⟩ hmain hmain
    · cases hstep
  · cases hstep

theorem step_move (hfit : ∀ id len, encodedLen
      (errorFrame id "response_too_large" (frameTooLarge len)) ≤ maxFrameLen) (h : Live s)
    (hok : Kept prost s e) (hstep : s.step prost encodedLen e = some t) : Move s t := by
  cases e with
  | arrive payload =>
    obtain ⟨hr, rfl⟩ := State.step_arrive hstep
    exact move_arrive hr hok.1 fun frame hf => readPayload_answer hf
  | readEnd =>
    simp only [State.step] at hstep
    split at hstep
    · next hr =>
      cases hstep
      exact .readerEnd hr
    · cases hstep
  | readerReply => exact move_readerReply h hstep
  | readerHand => exact move_readerHand h hstep
  | command => exact move_command h hstep
  | handled outcome =>
    simp only [State.step] at hstep
    split at hstep
    · next req hc =>
      cases hstep
      exact .handled req outcome hc
    · cases hstep
  | commandReply => exact move_commandReply h hstep
  | slowTake =>
    simp only [State.step] at hstep
    split at hstep
    · next req rest hheld hq =>
      cases hstep
      exact .slowTake req rest hheld hq
    · cases hstep
  | slowSpawn =>
    simp only [State.step] at hstep
    split at hstep
    · next req hheld =>
      split at hstep <;> cases hstep
      exact .slowSpawn req hheld
    · cases hstep
  | slowStart i =>
    simp only [State.step] at hstep
    split at hstep
    · next req ht =>
      split at hstep <;> cases hstep
      · exact .slowStart i req ht
      · exact .slowRefuse i req ht
    · cases hstep
  | slowHandled i outcome =>
    simp only [State.step] at hstep
    split at hstep
    · next req ht =>
      cases outcome with
      | none => exact hok.2.elim
      | some body =>
        cases hstep
        exact .slowHandled i req body ht
    · cases hstep
  | slowReply i => exact move_slowReply h hstep
  | writerTake =>
    simp only [State.step] at hstep
    split at hstep
    · next frame rest hw hr =>
      obtain ⟨wire, hwire, hid⟩ := toWire_eq_some hfit frame
      rw [hwire] at hstep
      cases hstep
      exact .writerTake frame wire rest hw hr hid
    · cases hstep
  | fanout =>
    simp only [State.step] at hstep
    split at hstep
    · next hw _ =>
      cases hstep
      exact .fanout hw
    · cases hstep
  | written =>
    simp only [State.step] at hstep
    split at hstep
    · next frame hw =>
      cases hstep
      exact .written frame hw
    · cases hstep
  | writeFailed => exact hok.1.elim
  | writerEnd => exact move_writerEnd hstep
  | setReady ready =>
    cases hstep
    exact .setReady ready
  | session =>
    simp only [State.step] at hstep
    split at hstep
    · next hm =>
      cases hstep
      exact .session hm
    · cases hstep
  | notified => exact move_notified h hstep
  | hostFailed => exact hok.1.elim
  | writerGone =>
    simp only [State.step] at hstep
    split at hstep
    · next hm hw =>
      exact absurd hw (h.writer_ne_of_main (by simp [hm]))
    · cases hstep
  | commandsDone => exact move_commandsDone h hstep
  | abort =>
    simp only [State.step] at hstep
    split at hstep
    · next hm =>
      cases hstep
      exact .writerEnd .finished hok.2 (.inl hm) (.inr rfl)
    · cases hstep

theorem Live.move (h : Live s) (hm : Move s t) : Live t := by
  cases hm with
  | answer frame hr =>
    have hw := h.writer_ne (.inl (by simp [hr]))
    exact { h with
      writer := fun hw' => absurd hw' hw
      commands := fun hc => by simp [(h.commands hc).1] at hr
      handing := by simp }
  | command req hr _ _ hbody =>
    have hw := h.writer_ne (.inl (by simp [hr]))
    exact { h with
      writer := fun hw' => absurd hw' hw
      commands := fun hc => by simp [(h.commands hc).1] at hr
      handing := by
        rintro _ ⟨⟩
        exact hbody }
  | slow req hr =>
    have hw := h.writer_ne (.inl (by simp [hr]))
    exact { h with writer := fun hw' => absurd hw' hw }
  | readerEnd hr =>
    have hw := h.writer_ne (.inl (by simp [hr]))
    exact { h with
      writer := fun hw' => absurd hw' hw
      commands := fun hc => ⟨rfl, (h.commands hc).2⟩
      handing := by simp }
  | readerReply frame hr =>
    have hw := h.writer_ne (.inl (by simp [hr]))
    exact { h with
      writer := fun hw' => absurd hw' hw
      commands := fun hc => by simp [(h.commands hc).1] at hr
      handing := by simp }
  | readerHand req hr hc =>
    have hw := h.writer_ne (.inr (.inl hc))
    exact { h with
      writer := fun hw' => absurd hw' hw
      commands := fun hc' => absurd hc' hc
      queue := by
        intro r hmem
        rcases List.mem_append.mp hmem with hmem | hmem
        · exact h.queue r hmem
        · rw [List.mem_singleton.mp hmem]
          exact h.handing req hr
      handing := by simp }
  | take req rest hc hq =>
    have hw := h.writer_ne (.inr (.inl (by simp [hc])))
    have hrest : ∀ r ∈ rest, r.body ≠ .disconnect := fun r hr => h.queue r (by simp [hq, hr])
    have hbody := h.queue req (by simp [hq])
    have hmain : ∀ m, s.main = m → ¬ (m = .flushing ∨ m = .finished) := by
      rintro m rfl hm
      simp [h.main hm] at hc
    unfold State.take
    split
    · exact { h with
        writer := fun hw' => absurd hw' hw
        commands := by simp
        main := fun hm => absurd hm (hmain _ rfl)
        queue := hrest
        dispatching := by simp
        replying := by simp }
    · exact { h with
        writer := fun hw' => absurd hw' hw
        commands := by simp
        main := fun hm => absurd hm (hmain _ rfl)
        queue := hrest
        dispatching := by
          rintro _ ⟨⟩
          exact hbody
        replying := by simp }
  | commandsEnd hc hq hr =>
    have hw := h.writer_ne (.inr (.inl (by simp [hc])))
    exact { h with
      writer := fun hw' => absurd hw' hw
      commands := fun _ => ⟨hr, hq⟩
      main := fun _ => rfl
      dispatching := by simp
      replying := by simp }
  | handled req outcome hc =>
    have hw := h.writer_ne (.inr (.inl (by simp [hc])))
    exact { h with
      writer := fun hw' => absurd hw' hw
      commands := by simp [State.handled]
      main := fun hm => by simp [h.main hm] at hc
      dispatching := by simp [State.handled]
      replying := by
        intro frame close heq
        simp only [State.handled, Commands.replying.injEq] at heq
        rw [← heq.2]
        exact decide_eq_false (h.dispatching req hc) }
  | commandReply frame close hc =>
    have hw := h.writer_ne (.inr (.inl (by simp [hc])))
    exact { h with
      writer := fun hw' => absurd hw' hw
      commands := by simp
      main := fun hm => by simp [h.main hm] at hc
      dispatching := by simp
      replying := by simp }
  | slowTake req rest hheld hq =>
    exact { h with writer := fun hw => by simp [(h.writer hw).1.slowQueue] at hq }
  | slowSpawn req hheld =>
    exact { h with writer := fun hw => by simp [(h.writer hw).1.slowHeld] at hheld }
  | slowStart i req ht =>
    exact { h with writer := fun hw => by simp [(h.writer hw).1.tasks] at ht }
  | slowRefuse i req ht =>
    exact { h with writer := fun hw => by simp [(h.writer hw).1.tasks] at ht }
  | slowHandled i req body ht =>
    exact { h with writer := fun hw => by simp [(h.writer hw).1.tasks] at ht }
  | slowReply i frame ht =>
    have hw := h.writer_ne (.inr (.inr fun hnil => by simp [hnil] at ht))
    exact { h with writer := fun hw' => absurd hw' hw }
  | writerTake frame wire rest hw =>
    exact { h with writer := by simp }
  | fanout hw =>
    exact { h with writer := by simp }
  | written frame hw =>
    exact { h with writer := by simp }
  | notified frame hm =>
    have hw := h.writer_ne_of_main (by simp [hm])
    exact { h with
      writer := fun hw' => absurd hw' hw
      main := by simp
      stopping := by simp
      notifying := by simp }
  | writerEnd main hflushed hleft hmain =>
    have hc := h.main hleft
    exact { h with
      writer := fun _ => ⟨⟨hflushed.slowQueue, hflushed.slowHeld, hflushed.tasks, hflushed.replies,
        .inr rfl⟩, (h.commands hc).1, hc, hmain⟩
      main := fun _ => hc
      stopping := by rcases hmain with rfl | rfl <;> simp
      notifying := by rcases hmain with rfl | rfl <;> simp }
  | setReady ready =>
    exact { h with
      writer := by
        intro hw
        obtain ⟨hf, hrest⟩ := h.writer hw
        exact ⟨⟨hf.slowQueue, hf.slowHeld, hf.tasks, hf.replies, hf.writer⟩, hrest⟩ }
  | session hm =>
    have hw := h.writer_ne_of_main (by simp [hm])
    exact { h with
      writer := fun hw' => absurd hw' hw
      main := by simp
      stopping := by simp
      notifying := by
        rintro _ ⟨⟩
        rfl }
  | commandsDone hm hc =>
    have hw := h.writer_ne_of_main (by simp [hm])
    exact { h with
      writer := fun hw' => absurd hw' hw
      main := fun _ => hc
      stopping := by simp
      notifying := by simp }

end Steps

end RithmicNt.Gateway.Server
