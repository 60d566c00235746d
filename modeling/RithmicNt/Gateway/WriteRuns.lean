import RithmicNt.Gateway.Frames

/-! What the calls and the shutdown of a gateway connection leave on its socket. -/

namespace RithmicNt.Gateway.Calls

open RithmicNt.Lib

variable {β : Type} {payload : Nat → β → Bytes} {disconnect : Nat → Bytes}

def Chunk.Whole (chunk : Chunk) : Prop :=
  chunk.n = chunk.frame.length

instance (chunk : Chunk) : Decidable chunk.Whole :=
  inferInstanceAs (Decidable (_ = _))

/-- Every frame of the stream is complete. -/
def Connection.Whole (x : Connection) : Prop :=
  ∀ chunk ∈ x.chunks, chunk.Whole

instance (x : Connection) : Decidable x.Whole :=
  inferInstanceAs (Decidable (∀ chunk ∈ x.chunks, chunk.Whole))

/-- What was written to the socket. -/
def Connection.bytes (x : Connection) : Bytes :=
  x.chunks.flatMap fun chunk => chunk.frame.take chunk.n

/-- Only the last write on a connection may be of a part of a frame: nothing was written after it. -/
structure Intact (x : Connection) : Prop where
  whole : ∀ chunk ∈ x.chunks.dropLast, chunk.Whole
  framed : Framed x.bytes

/-- The connection that a caller has a frame for. -/
def Stage.conn? : Stage → Option Nat
  | .queued _ c _ _ | .writing _ c _ _ _ | .breaking _ c _ => some c
  | _ => none

/-- In the middle of a `write_all`: some bytes of the frame are written and some are not. -/
def Stage.Cutting : Stage → Prop
  | .writing _ _ _ frame n => 0 < n ∧ n < frame.length
  | _ => False

instance : DecidablePred Stage.Cutting
  | .writing _ _ _ frame n => inferInstanceAs (Decidable (0 < n ∧ n < frame.length))
  | .idle | .locating _ | .queued .. | .breaking .. | .waiting .. | .ended _ | .cancelled =>
    .isFalse id

/-- The steps that leave no cut frame to a later writer: no call is dropped in the middle of its
`write_all`; and where a failed or timed out write left a cut frame, no shutdown that waited for the
writer, and no call between the release of the writer by the shutdown and its mark, takes it before
the write half is shut. -/
def Uncut (s : State β) : Event β → Prop
  | .cancel k => ¬ (s.stage k).Cutting
  | .lockShutdown c => (s.conns c).Whole ∨ (s.conns c).shut = true
  | .lock k => ∀ c ∈ (s.stage k).conn?, (s.conns c).closing = .released →
      (s.conns c).Whole ∨ (s.conns c).shut = true
  | _ => True

instance (s : State β) : DecidablePred (Uncut s) := by
  intro e
  cases e with
  | cancel k => exact inferInstanceAs (Decidable (¬ (s.stage k).Cutting))
  | lockShutdown c => exact inferInstanceAs (Decidable ((s.conns c).Whole ∨ (s.conns c).shut = true))
  | lock k =>
    exact inferInstanceAs (Decidable (∀ c ∈ (s.stage k).conn?, (s.conns c).closing = .released →
      (s.conns c).Whole ∨ (s.conns c).shut = true))
  | _ => exact .isTrue trivial

/-- A writer of `frame` that has written `n` bytes of it. -/
structure Progress (x : Connection) (frame : Bytes) (n : Nat) : Prop where
  encoded : Encoded frame
  le : n ≤ frame.length
  fresh : n = 0 → x.Whole ∨ x.shut = true
  last : 0 < n → x.chunks = x.chunks.dropLast ++ [⟨frame, n⟩]

/-- What the stage of caller `k` says of the connection it is on. -/
def CallOk (x : Connection) (k : Nat) : Stage → Prop
  | .queued _ _ _ frame => Encoded frame
  | .writing _ _ _ frame n => x.writer = some (.call k) ∧ Progress x frame n
  | .breaking _ _ _ => x.writer = some (.call k) ∧ x.closed = true
  | _ => True

def ClosingOk (x : Connection) : Closing → Prop
  | .queued frame => Encoded frame
  | .writing frame n => x.writer = some .shutdown ∧ Progress x frame n
  | .finishing => x.writer = some .shutdown
  | _ => True

structure ConnOk (x : Connection) : Prop where
  encoded : ∀ chunk ∈ x.chunks, Encoded chunk.frame ∧ chunk.n ≤ chunk.frame.length
  whole : ∀ chunk ∈ x.chunks.dropLast, chunk.Whole
  free : x.writer = none → x.Whole ∨ x.shut = true ∨ x.closed = true ∨ x.closing = .released
  closing : ClosingOk x x.closing

structure Writes (s : State β) : Prop where
  conn : ∀ c, ConnOk (s.conns c)
  call : ∀ k c, (s.stage k).conn? = some c → c < s.nextConn ∧ CallOk (s.conns c) k (s.stage k)

/-! ### One connection -/

section Connection

variable {x y : Connection} {frame : Bytes} {n m : Nat}

theorem Framed.cons {f r : Bytes} (hf : Encoded f) (h : Framed r) : Framed (f ++ r) := by
  obtain ⟨frames, tail, rfl, hframes, htail⟩ := h
  refine ⟨f :: frames, tail, by simp, ?_, htail⟩
  intro g hg
  rcases List.mem_cons.mp hg with rfl | hg
  · exact hf
  · exact hframes g hg

theorem framed_of_chunks {chunks : List Chunk}
    (hencoded : ∀ chunk ∈ chunks, Encoded chunk.frame ∧ chunk.n ≤ chunk.frame.length)
    (hwhole : ∀ chunk ∈ chunks.dropLast, chunk.Whole) :
    Framed (chunks.flatMap fun chunk => chunk.frame.take chunk.n) := by
  induction chunks with
  | nil => exact ⟨[], [], rfl, by simp, .inl rfl⟩
  | cons a rest ih =>
    obtain ⟨hframe, hle⟩ := hencoded a (by simp)
    have htail := ih (fun chunk hc => hencoded chunk (by simp [hc]))
    rw [List.flatMap_cons]
    cases rest with
    | nil =>
      by_cases ha : a.n = a.frame.length
      · refine ⟨[a.frame], [], ?_, by simpa using hframe, .inl rfl⟩
        simp [ha]
      · refine ⟨[], a.frame.take a.n, by simp, by simp, .inr ⟨a.frame, hframe, ?_, ?_⟩⟩
        · exact List.take_prefix ..
        · intro heq
          have := congrArg List.length heq
          rw [List.length_take] at this
          omega
    | cons b rest =>
      have ha : a.n = a.frame.length := hwhole a (by simp)
      rw [ha, List.take_length]
      exact (htail fun chunk hc => hwhole chunk (by simp [hc])).cons hframe

theorem ConnOk.intact (h : ConnOk x) : Intact x :=
  ⟨h.whole, framed_of_chunks h.encoded h.whole⟩

/-- A frame that is written to its end leaves the stream whole. -/
theorem Progress.whole (hp : Progress x frame frame.length)
    (hx : ∀ chunk ∈ x.chunks.dropLast, chunk.Whole) : x.Whole := by
  have hpos : 0 < frame.length := List.length_pos_iff.mpr hp.encoded.ne_nil
  intro chunk hc
  rw [hp.last hpos] at hc
  rcases List.mem_append.mp hc with hc | hc
  · exact hx chunk hc
  · rw [List.mem_singleton.mp hc]
    rfl

theorem Progress.congr (hp : Progress x frame n) (hchunks : y.chunks = x.chunks)
    (hshut : x.shut = true → y.shut = true) : Progress y frame n := by
  refine ⟨hp.encoded, hp.le, fun hn => ?_, by rw [hchunks]; exact hp.last⟩
  unfold Connection.Whole
  rw [hchunks]
  exact (hp.fresh hn).imp_right hshut

/-- The chunks after a write by the holder of the writer. -/
theorem Progress.write (hp : Progress x frame n) (hx : ConnOk x) (hshut : x.shut = false)
    (hm : 0 < m) (hle : n + m ≤ frame.length) :
    (∀ chunk ∈ (x.write frame n m).chunks, Encoded chunk.frame ∧ chunk.n ≤ chunk.frame.length) ∧
    (∀ chunk ∈ (x.write frame n m).chunks.dropLast, chunk.Whole) ∧
    Progress (x.write frame n m) frame (n + m) := by
  have hrest : ∃ rest, (x.write frame n m).chunks = rest ++ [⟨frame, n + m⟩] ∧
      (∀ chunk ∈ rest, chunk.Whole) ∧ ∀ chunk ∈ rest, chunk ∈ x.chunks := by
    by_cases hn : n = 0
    · subst hn
      refine ⟨x.chunks, by simp [Connection.write], ?_, fun _ hc => hc⟩
      exact (hp.fresh rfl).resolve_right (by simp [hshut])
    · exact ⟨x.chunks.dropLast, by simp [Connection.write, hn], hx.whole,
        fun _ hc => List.mem_of_mem_dropLast hc⟩
  obtain ⟨rest, heq, hwhole, hmem⟩ := hrest
  refine ⟨?_, ?_, hp.encoded, hle, fun hz => ?_, fun _ => ?_⟩
  · intro chunk hc
    rw [heq] at hc
    rcases List.mem_append.mp hc with hc | hc
    · exact hx.encoded chunk (hmem chunk hc)
    · rw [List.mem_singleton.mp hc]
      exact ⟨hp.encoded, hle⟩
  · rw [heq, List.dropLast_concat]
    exact hwhole
  · omega
  · rw [heq, List.dropLast_concat]

/-- A connection goes from `x` to `y` and leaves the caller's hold on it alone. -/
def Keeps (k : Nat) (x y : Connection) : Prop :=
  x.writer = some (.call k) →
    y.writer = x.writer ∧ y.chunks = x.chunks ∧ (x.shut = true → y.shut = true) ∧
      (x.closed = true → y.closed = true)

theorem CallOk.keeps {k : Nat} {st : Stage} (h : CallOk x k st) (hk : Keeps k x y) :
    CallOk y k st := by
  cases st with
  | writing retried c id frame n =>
    obtain ⟨hwriter, hp⟩ := h
    obtain ⟨hw, hchunks, hshut, -⟩ := hk hwriter
    exact ⟨hw.trans hwriter, hp.congr hchunks hshut⟩
  | breaking retried c id =>
    obtain ⟨hwriter, hclosed⟩ := h
    obtain ⟨hw, -, -, hc⟩ := hk hwriter
    exact ⟨hw.trans hwriter, hc hclosed⟩
  | _ => exact h

theorem ClosingOk.congr {st : Closing} (h : ClosingOk x st) (hwriter : y.writer = x.writer)
    (hchunks : y.chunks = x.chunks) (hshut : x.shut = true → y.shut = true) : ClosingOk y st := by
  cases st with
  | writing frame n => exact ⟨hwriter.trans h.1, h.2.congr hchunks hshut⟩
  | finishing => exact hwriter.trans h
  | _ => exact h

/-- The shutdown is not at the writer while a caller holds it or nobody does. -/
theorem ClosingOk.congr_of_ne {st : Closing} (h : ClosingOk x st) (hne : x.writer ≠ some .shutdown) :
    ClosingOk y st := by
  cases st with
  | writing frame n => exact absurd h.1 hne
  | finishing => exact absurd h hne
  | _ => exact h

/-- The frames, the writer and the shutdown stay as they are. -/
theorem ConnOk.same (h : ConnOk x) (hchunks : y.chunks = x.chunks) (hwriter : y.writer = x.writer)
    (hclosing : y.closing = x.closing) (hshut : x.shut = true → y.shut = true)
    (hclosed : x.closed = true → y.closed = true) : ConnOk y := by
  refine ⟨?_, ?_, ?_, ?_⟩
  · rw [hchunks]
    exact h.encoded
  · rw [hchunks]
    exact h.whole
  · rw [hwriter, hclosing]
    unfold Connection.Whole
    rw [hchunks]
    exact fun hnone => (h.free hnone).imp_right fun hrest =>
      hrest.imp hshut fun hrest => hrest.imp_left hclosed
  · rw [hclosing]
    exact h.closing.congr hwriter hchunks hshut

/-- The writer, which the shutdown does not hold, changes hands or is given back. -/
theorem ConnOk.pass (h : ConnOk x) (hne : x.writer ≠ some .shutdown) (hchunks : y.chunks = x.chunks)
    (hclosing : y.closing = x.closing)
    (hfree : y.writer = none → x.Whole ∨ y.shut = true ∨ y.closed = true) : ConnOk y := by
  refine ⟨?_, ?_, ?_, ?_⟩
  · rw [hchunks]
    exact h.encoded
  · rw [hchunks]
    exact h.whole
  · unfold Connection.Whole
    rw [hchunks]
    exact fun hnone => (hfree hnone).imp_right fun hrest => hrest.imp_right .inl
  · rw [hclosing]
    exact h.closing.congr_of_ne hne

/-- The shutdown goes on to another stage. -/
theorem ConnOk.close (h : ConnOk x) (hchunks : y.chunks = x.chunks)
    (hfree : y.writer = none → x.Whole ∨ y.shut = true ∨ y.closed = true ∨ y.closing = .released)
    (hclosing : ClosingOk y y.closing) : ConnOk y := by
  refine ⟨?_, ?_, ?_, hclosing⟩
  · rw [hchunks]
    exact h.encoded
  · rw [hchunks]
    exact h.whole
  · unfold Connection.Whole
    rw [hchunks]
    exact hfree

theorem Keeps.of_ne {k : Nat} (h : x.writer ≠ some (.call k)) : Keeps k x y :=
  fun hw => absurd hw h

end Connection

/-! ### One step -/

section Steps

variable {s t : State β} {k c : Nat}

/-- A step of caller `k` on connection `c`. -/
theorem Writes.of_call (h : Writes s) (k c : Nat) (hnext : s.nextConn ≤ t.nextConn)
    (hstage : ∀ j, j ≠ k → t.stage j = s.stage j) (hconns : ∀ d, d ≠ c → t.conns d = s.conns d)
    (hc : ConnOk (t.conns c)) (hkeeps : ∀ j, j ≠ k → Keeps j (s.conns c) (t.conns c))
    (hk : ∀ d, (t.stage k).conn? = some d → d < t.nextConn ∧ CallOk (t.conns d) k (t.stage k)) :
    Writes t := by
  constructor
  · intro d
    by_cases hd : d = c
    · subst hd
      exact hc
    · rw [hconns d hd]
      exact h.conn d
  · intro j d hj
    by_cases hjk : j = k
    · subst hjk
      exact hk d hj
    · rw [hstage j hjk] at hj ⊢
      obtain ⟨hlt, hok⟩ := h.call j d hj
      refine ⟨hlt.trans_le hnext, ?_⟩
      by_cases hd : d = c
      · subst hd
        exact hok.keeps (hkeeps j hjk)
      · rw [hconns d hd]
        exact hok

/-- A step of a connection. -/
theorem Writes.setConn {x : Connection} (h : Writes s) (hx : ConnOk x)
    (hkeeps : ∀ j, Keeps j (s.conns c) x) : Writes (s.setConn c x) := by
  refine h.of_call 0 c le_rfl (fun _ _ => rfl) (fun _ hd => State.setConn_of_ne s x hd)
    (by simpa using hx) (by simpa using fun j _ => hkeeps j) ?_
  intro d hd
  obtain ⟨hlt, hok⟩ := h.call 0 d hd
  refine ⟨hlt, ?_⟩
  by_cases hdc : d = c
  · subst hdc
    rw [State.setConn_self]
    exact hok.keeps (hkeeps 0)
  · rw [State.setConn_of_ne s x hdc]
    exact hok

/-- A caller goes on to a stage without a frame, and may give the writer back. -/
theorem Writes.leave {st : Stage} {x : Connection} (h : Writes s) (hx : ConnOk x)
    (hkeeps : ∀ j, j ≠ k → Keeps j (s.conns c) x) (hst : st.conn? = none) :
    Writes ((s.setConn c x).goto k st) := by
  refine h.of_call k c le_rfl (fun j hj => Function.update_of_ne hj _ _)
    (fun d hd => State.setConn_of_ne s x hd) (by simpa [State.goto] using hx)
    (by simpa [State.goto] using hkeeps) ?_
  intro d hd
  simp [State.goto, hst] at hd

theorem Writes.goto {st : Stage} (h : Writes s) (hst : st.conn? = none) : Writes (s.goto k st) := by
  refine h.of_call k 0 le_rfl (fun j hj => Function.update_of_ne hj _ _) (fun _ _ => rfl)
    (h.conn 0) (fun _ _ hw => ⟨rfl, rfl, id, id⟩) ?_
  intro d hd
  simp [State.goto, hst] at hd

theorem notSent_eq (s : State β) (k : Nat) (retried : Bool) :
    ∃ st, st.conn? = none ∧ s.notSent k retried = s.goto k st := by
  unfold State.notSent
  split <;> cases retried <;> exact ⟨_, rfl, rfl⟩

theorem sent_eq (s : State β) (k : Nat) (retried : Bool) :
    ∃ st, st.conn? = none ∧ s.sent k retried = s.goto k st := by
  unfold State.sent
  split <;> cases retried <;> exact ⟨_, rfl, rfl⟩

theorem Writes.lose (h : Writes s) (c : Nat) : Writes (s.setConn c (s.conns c).failAll) :=
  h.setConn ((h.conn c).same rfl rfl rfl id fun _ => rfl) fun _ _ => ⟨rfl, rfl, id, fun _ => rfl⟩

theorem Writes.unpend (h : Writes s) (c id : Nat) : Writes (s.unpend c id) :=
  h.setConn ((h.conn c).same rfl rfl rfl (fun hs => hs) fun hc => hc) fun _ _ =>
    ⟨rfl, rfl, fun hs => hs, fun hc => hc⟩

theorem Writes.notSent {retried : Bool} (h : Writes s) : Writes (s.notSent k retried) := by
  obtain ⟨st, hst, heq⟩ := notSent_eq s k retried
  rw [heq]
  exact h.goto hst

theorem Writes.sent {retried : Bool} (h : Writes s) : Writes (s.sent k retried) := by
  obtain ⟨st, hst, heq⟩ := sent_eq s k retried
  rw [heq]
  exact h.goto hst

theorem Writes.attach {handshake frame : Bytes} (h : Writes s) (hframe : encode handshake = some frame) :
    Writes { s.setConn s.nextConn { chunks := [⟨frame, frame.length⟩] } with
      nextConn := s.nextConn + 1 } := by
  constructor
  · intro c
    by_cases hc : c = s.nextConn
    · subst hc
      show ConnOk ((s.setConn _ _).conns _)
      rw [State.setConn_self]
      refine ⟨?_, by simp, fun _ => .inl ?_, trivial⟩
      · intro chunk hchunk
        rw [List.mem_singleton.mp hchunk]
        exact ⟨⟨handshake, hframe⟩, le_rfl⟩
      · intro chunk hchunk
        rw [List.mem_singleton.mp hchunk]
        rfl
    · show ConnOk ((s.setConn _ _).conns _)
      rw [State.setConn_of_ne s _ hc]
      exact h.conn c
  · intro k c hk
    obtain ⟨hlt, hok⟩ := h.call k c hk
    refine ⟨Nat.lt_succ_of_lt hlt, ?_⟩
    show CallOk ((s.setConn _ _).conns c) k (s.stage k)
    rw [State.setConn_of_ne s _ hlt.ne]
    exact hok

theorem Writes.start {retried : Bool} (h : Writes s) (hc : c < s.nextConn) :
    Writes (s.start payload k c retried) := by
  unfold State.start
  simp only
  split
  · exact h.notSent
  · split
    · have hset : Writes (s.setConn c (s.conns c).takeId) :=
        h.setConn ((h.conn c).same rfl rfl rfl id id) fun _ _ => ⟨rfl, rfl, id, id⟩
      exact hset.notSent
    · next frame hframe =>
      obtain ⟨body, -, hencode⟩ := Option.bind_eq_some_iff.mp hframe
      refine h.of_call k c le_rfl (fun j hj => Function.update_of_ne hj _ _)
        (fun d hd => State.setConn_of_ne s _ hd) ?_ ?_ ?_
      · show ConnOk ((s.setConn c _).conns c)
        rw [State.setConn_self]
        exact (h.conn c).same rfl rfl rfl id id
      · intro j _
        show Keeps j _ ((s.setConn c _).conns c)
        rw [State.setConn_self]
        exact fun _ => ⟨rfl, rfl, id, id⟩
      · simp only [Function.update_self, Stage.conn?, Option.some.injEq]
        rintro d rfl
        exact ⟨hc, _, hencode⟩

theorem Writes.lock {retried : Bool} {id : Nat} {frame : Bytes} (h : Writes s)
    (hst : s.stage k = .queued retried c id frame) (hfree : (s.conns c).writer = none)
    (hok : Uncut s (.lock k)) : Writes (s.lock k retried c id frame) := by
  obtain ⟨hlt, hframe⟩ := h.call k c (by rw [hst]; rfl)
  rw [hst] at hframe
  unfold State.lock
  split
  · exact (h.unpend c id).notSent
  · next hclosed =>
    have hfresh : (s.conns c).Whole ∨ (s.conns c).shut = true := by
      rcases (h.conn c).free hfree with hw | hs | hcl | hr
      · exact .inl hw
      · exact .inr hs
      · exact absurd hcl hclosed
      · exact hok c (by rw [hst]; rfl) hr
    refine h.of_call k c le_rfl (fun j hj => Function.update_of_ne hj _ _)
      (fun d hd => State.setConn_of_ne s _ hd) ?_ ?_ ?_
    · show ConnOk ((s.setConn c _).conns c)
      rw [State.setConn_self]
      exact (h.conn c).pass (by simp [hfree]) rfl rfl (by simp)
    · exact fun j _ => Keeps.of_ne (by simp [hfree])
    · simp only [State.goto, Function.update_self, Stage.conn?, Option.some.injEq]
      rintro d rfl
      rw [State.setConn_self]
      exact ⟨hlt, rfl, hframe, Nat.zero_le _, fun _ => hfresh, by simp⟩

/-- A caller at the writer has it. -/
theorem Writes.writing_at {retried : Bool} {id n : Nat} {frame : Bytes} (h : Writes s)
    (hst : s.stage k = .writing retried c id frame n) :
    c < s.nextConn ∧ (s.conns c).writer = some (.call k) ∧ Progress (s.conns c) frame n := by
  have hk := h.call k c (by rw [hst]; rfl)
  rw [hst] at hk
  exact hk

theorem Writes.breaking_at {retried : Bool} {id : Nat} (h : Writes s)
    (hst : s.stage k = .breaking retried c id) :
    c < s.nextConn ∧ (s.conns c).writer = some (.call k) ∧ (s.conns c).closed = true := by
  have hk := h.call k c (by rw [hst]; rfl)
  rw [hst] at hk
  exact hk

/-- The other callers do not have the writer that caller `k` has. -/
theorem Keeps.of_holder {x y : Connection} (h : x.writer = some (.call k)) :
    ∀ j, j ≠ k → Keeps j x y := by
  intro j hj
  refine Keeps.of_ne ?_
  rw [h]
  simpa using fun hkj => hj hkj.symm

theorem Writes.write {retried : Bool} {id n m : Nat} {frame : Bytes} (h : Writes s)
    (hst : s.stage k = .writing retried c id frame n) (hshut : (s.conns c).shut = false)
    (hm : 0 < m) (hle : n + m ≤ frame.length) : Writes (s.write k retried c id frame n m) := by
  obtain ⟨hlt, hwriter, hp⟩ := h.writing_at hst
  obtain ⟨hencoded, hwhole, hprogress⟩ := hp.write (h.conn c) hshut hm hle
  refine h.of_call k c le_rfl (fun j hj => Function.update_of_ne hj _ _)
    (fun d hd => State.setConn_of_ne s _ hd) ?_ (Keeps.of_holder hwriter) ?_
  · show ConnOk ((s.setConn c _).conns c)
    rw [State.setConn_self]
    refine ⟨hencoded, hwhole, ?_, (h.conn c).closing.congr_of_ne (by simp [hwriter])⟩
    simp [Connection.write, hwriter]
  · simp only [State.write, State.goto, Function.update_self, Stage.conn?, Option.some.injEq]
    rintro d rfl
    rw [State.setConn_self]
    exact ⟨hlt, hwriter, hprogress⟩

theorem Writes.release (h : Writes s) (hwriter : (s.conns c).writer = some (.call k)) {st : Stage}
    (hst : st.conn? = none)
    (hfree : (s.conns c).Whole ∨ (s.conns c).shut = true ∨ (s.conns c).closed = true) :
    Writes ((s.release c).goto k st) :=
  h.leave ((h.conn c).pass (by simp [hwriter]) rfl rfl fun _ => hfree) (Keeps.of_holder hwriter) hst

theorem Writes.written {retried : Bool} {id : Nat} {frame : Bytes} (h : Writes s)
    (hst : s.stage k = .writing retried c id frame frame.length) :
    Writes ((s.release c).goto k (.waiting retried c id)) := by
  obtain ⟨-, hwriter, hp⟩ := h.writing_at hst
  exact h.release hwriter rfl (.inl (hp.whole (h.conn c).whole))

theorem Writes.writeFailed {retried : Bool} {id n : Nat} {frame : Bytes} (h : Writes s)
    (hst : s.stage k = .writing retried c id frame n) :
    Writes ((s.setConn c (s.conns c).failAll).goto k (.breaking retried c id)) := by
  obtain ⟨hlt, hwriter, -⟩ := h.writing_at hst
  refine h.of_call k c le_rfl (fun j hj => Function.update_of_ne hj _ _)
    (fun d hd => State.setConn_of_ne s _ hd) ?_ (Keeps.of_holder hwriter) ?_
  · show ConnOk ((s.setConn c _).conns c)
    rw [State.setConn_self]
    exact (h.conn c).same rfl rfl rfl (fun hs => hs) fun _ => rfl
  · simp only [State.goto, Function.update_self, Stage.conn?, Option.some.injEq]
    rintro d rfl
    rw [State.setConn_self]
    exact ⟨hlt, hwriter, rfl⟩

theorem Writes.broke {retried ok : Bool} {id : Nat} (h : Writes s)
    (hst : s.stage k = .breaking retried c id) :
    Writes ((s.setConn c { s.conns c with writer := none, shut := (s.conns c).shut || ok }).sent k
      retried) := by
  obtain ⟨-, hwriter, hclosed⟩ := h.breaking_at hst
  obtain ⟨st, hnone, heq⟩ := sent_eq
    (s.setConn c { s.conns c with writer := none, shut := (s.conns c).shut || ok }) k retried
  rw [heq]
  exact h.leave ((h.conn c).pass (by simp [hwriter]) rfl rfl fun _ => .inr (.inr hclosed))
    (Keeps.of_holder hwriter) hnone

theorem Writes.reply {id : Nat} {r : Reply} (h : Writes s) : Writes (s.reply c id r) := by
  unfold State.reply
  split
  · exact h
  · exact ⟨(h.unpend c id).conn, (h.unpend c id).call⟩

theorem Writes.cancel (h : Writes s) (hok : Uncut s (.cancel k)) (hstep : s.cancel k = some t) :
    Writes t := by
  unfold State.cancel at hstep
  split at hstep
  · cases hstep
    exact h.goto rfl
  · cases hstep
    exact h.goto rfl
  · cases hstep
    exact h.goto rfl
  · next retried c id frame n hst =>
    cases hstep
    obtain ⟨-, hwriter, hp⟩ := h.writing_at hst
    have hcut : ¬ (0 < n ∧ n < frame.length) := by
      have hcut : ¬ (s.stage k).Cutting := hok
      rw [hst] at hcut
      exact hcut
    refine h.release hwriter rfl ?_
    rcases Nat.eq_zero_or_pos n with hn | hn
    · exact (hp.fresh hn).imp_right .inl
    · have hn : n = frame.length := le_antisymm hp.le (not_lt.mp fun hlt => hcut ⟨hn, hlt⟩)
      subst hn
      exact .inl (hp.whole (h.conn c).whole)
  · next hst =>
    cases hstep
    obtain ⟨-, hwriter, hclosed⟩ := h.breaking_at hst
    exact h.release hwriter rfl (.inr (.inr hclosed))
  · cases hstep
  · cases hstep
  · cases hstep

theorem Writes.shutdown (h : Writes s)
    (hopen : (s.conns c).closing = .opened ∨ (s.conns c).closing = .done) :
    Writes (s.shutdown disconnect c) := by
  have hx := h.conn c
  unfold State.shutdown
  simp only
  split
  · exact h.setConn (hx.close rfl (fun _ => .inr (.inr (.inl rfl))) trivial) fun _ _ =>
      ⟨rfl, rfl, id, fun _ => rfl⟩
  · split
    · exact h.setConn (hx.close rfl (fun _ => .inr (.inr (.inl rfl))) trivial) fun _ _ =>
        ⟨rfl, rfl, id, fun _ => rfl⟩
    · next frame hframe =>
      refine h.setConn (hx.close rfl (fun hnone => ?_) ⟨_, hframe⟩) fun _ _ => ⟨rfl, rfl, id, id⟩
      rcases hx.free hnone with hw | hs | hc | hr
      · exact .inl hw
      · exact .inr (.inl hs)
      · exact .inr (.inr (.inl hc))
      · rw [hr] at hopen
        simp at hopen

/-- What the shutdown of a connection knows of it. -/
theorem Writes.closing_at {st : Closing} (h : Writes s) (hst : (s.conns c).closing = st) :
    ClosingOk (s.conns c) st := by
  have := (h.conn c).closing
  rwa [hst] at this

theorem Writes.lockShutdown {frame : Bytes} (h : Writes s)
    (hst : (s.conns c).closing = .queued frame) (hfree : (s.conns c).writer = none)
    (hok : Uncut s (.lockShutdown c)) :
    Writes (s.setConn c
      { s.conns c with writer := some .shutdown, closing := .writing frame 0 }) := by
  refine h.setConn ((h.conn c).close rfl (by simp) ?_) fun _ => Keeps.of_ne (by simp [hfree])
  exact ⟨rfl, h.closing_at hst, Nat.zero_le _, fun _ => hok, by simp⟩

theorem Writes.writeShutdown {frame : Bytes} {n m : Nat} (h : Writes s)
    (hst : (s.conns c).closing = .writing frame n) (hshut : (s.conns c).shut = false)
    (hm : 0 < m) (hle : n + m ≤ frame.length) :
    Writes (s.setConn c { (s.conns c).write frame n m with closing := .writing frame (n + m) }) := by
  obtain ⟨hwriter, hp⟩ := h.closing_at hst
  obtain ⟨hencoded, hwhole, hprogress⟩ := hp.write (h.conn c) hshut hm hle
  refine h.setConn ⟨hencoded, hwhole, ?_, hwriter, hprogress.congr rfl id⟩ fun _ => Keeps.of_ne ?_
  · simp [Connection.write, hwriter]
  · simp [hwriter]

theorem Writes.writtenShutdown {frame : Bytes} {n : Nat} (h : Writes s)
    (hst : (s.conns c).closing = .writing frame n) :
    Writes (s.setConn c { s.conns c with closing := .finishing }) := by
  obtain ⟨hwriter, -⟩ := h.closing_at hst
  exact h.setConn ((h.conn c).close rfl (by simp [hwriter]) hwriter) fun _ =>
    Keeps.of_ne (by simp [hwriter])

theorem Writes.releaseShutdown {ok : Bool} (h : Writes s) (hst : (s.conns c).closing = .finishing) :
    Writes (s.setConn c { s.conns c with
      writer := none, shut := (s.conns c).shut || ok, closing := .released }) := by
  have hwriter : (s.conns c).writer = some .shutdown := h.closing_at hst
  exact h.setConn ((h.conn c).close rfl (fun _ => .inr (.inr (.inr rfl))) trivial) fun _ =>
    Keeps.of_ne (by simp [hwriter])

theorem Writes.endShutdown (h : Writes s) (c : Nat) :
    Writes (s.setConn c { (s.conns c).failAll with closing := .done }) :=
  h.setConn ((h.conn c).close rfl (fun _ => .inr (.inr (.inl rfl))) trivial) fun _ _ =>
    ⟨rfl, rfl, id, fun _ => rfl⟩

theorem Writes.step {e : Event β} (h : Writes s) (hok : Uncut s e)
    (hstep : Step payload disconnect s e t) : Writes t := by
  cases hstep with
  | attach hframe => exact h.attach hframe
  | lose => exact h.lose _
  | @issue k _ _ admitted =>
    have hgoto : Writes (s.goto k (if admitted then .locating false else .ended .refused)) :=
      h.goto (by cases admitted <;> rfl)
    exact ⟨hgoto.conn, hgoto.call⟩
  | unreachable => exact h.goto rfl
  | start _ hc => exact h.start hc
  | lock hst hfree => exact h.lock hst hfree hok
  | write hst hshut hm hle => exact h.write hst hshut hm hle
  | written hst => exact h.written hst
  | writeFailed hst => exact h.writeFailed hst
  | broke hst => exact h.broke hst
  | reply => exact h.reply
  | take => exact h.goto rfl
  | dropped => exact h.sent
  | timeout => exact (h.unpend _ _).sent
  | cancel hcancel => exact h.cancel hok hcancel
  | shutdown hopen => exact h.shutdown hopen
  | lockShutdown hst hfree => exact h.lockShutdown hst hfree hok
  | writeShutdown hst hshut hm hle => exact h.writeShutdown hst hshut hm hle
  | writtenShutdown hst => exact h.writtenShutdown hst
  | releaseShutdown hst => exact h.releaseShutdown hst
  | endShutdown => exact h.endShutdown _

theorem writes_of_run {trace : List (Event β)}
    (hrun : (machine payload disconnect).Run Uncut trace s) : Writes s := by
  refine hrun.invariant ?_ ?_
  · rintro s rfl
    refine ⟨fun c => ⟨by simp, by simp, fun _ => .inl ?_, trivial⟩, by simp [Stage.conn?]⟩
    intro chunk hc
    cases hc
  · intro s e t hinv hok hstep
    exact hinv.step hok (step_cases hstep)

end Steps

/-- In every run of calls, failing and partial writes, cancelled callers and shutdowns in which no cut
frame is left to a later writer, every connection has complete frames on it and at most one cut frame,
at the end. -/
theorem intact_of_run {trace : List (Event β)} {s : State β}
    (hrun : (machine payload disconnect).Run Uncut trace s) (c : Nat) : Intact (s.conns c) :=
  ((writes_of_run hrun).conn c).intact

/-- The protobuf bytes of `SubscribePnl` and of `Disconnect` under an id below 128. -/
def subscribePnl (id : Nat) (_ : Unit) : Bytes := [8, UInt8.ofNat id, 218, 1, 0]

def disconnectBytes (id : Nat) : Bytes := [8, UInt8.ofNat id, 178, 1, 0]

/-- A `Handshake` without texts. -/
def handshakeBytes : Bytes := [18, 0]

/-- One call is answered; the write of the next one fails after four bytes. -/
def failedWrite : List (Event Unit) :=
  [.attach handshakeBytes, .issue 0 .direct () true, .start 0 0, .lock 0, .write 0 9, .written 0,
    .reply 0 1 .ack, .take 0, .issue 1 .direct () true, .start 1 0, .lock 1, .write 1 4, .shutdown 0,
    .writeFailed 1, .broke 1 true, .lockShutdown 0, .writtenShutdown 0, .releaseShutdown 0 false,
    .endShutdown 0]

theorem intact_after_failed_write : ∃ s, (machine subscribePnl disconnectBytes).Run Uncut failedWrite s ∧
    (s.conns 0).bytes = [0, 0, 0, 2, 18, 0] ++ [0, 0, 0, 5, 8, 1, 218, 1, 0] ++ [0, 0, 0, 5] ∧
    Intact (s.conns 0) := by
  have hexec : ∃ s, (machine subscribePnl disconnectBytes).exec Uncut {} failedWrite = some s ∧
      (s.conns 0).bytes = [0, 0, 0, 2, 18, 0] ++ [0, 0, 0, 5, 8, 1, 218, 1, 0] ++ [0, 0, 0, 5] :=
    ⟨_, rfl, rfl⟩
  obtain ⟨s, hexec, hbytes⟩ := hexec
  have hrun : (machine subscribePnl disconnectBytes).Run Uncut _ s := Machine.run_of_exec rfl hexec
  exact ⟨s, hrun, hbytes, intact_of_run hrun 0⟩

/-- A re-join times out four bytes into a request, and the connection is shut down. -/
def rejoinTimeout : List (Event Unit) :=
  [.attach handshakeBytes, .issue 0 .direct () true, .start 0 0, .lock 0, .write 0 4, .cancel 0,
    .shutdown 0, .lockShutdown 0, .writeShutdown 0 9]

/-- A shutdown waits for the writer of a write that fails, and the write half cannot be shut. -/
def lateShutdown : List (Event Unit) :=
  [.attach handshakeBytes, .issue 0 .direct () true, .start 0 0, .lock 0, .write 0 4, .shutdown 0,
    .writeFailed 0, .broke 0 false, .lockShutdown 0, .writeShutdown 0 9]

/-- A call takes the writer after a cut `Disconnect`, before the shutdown marks the connection. -/
def lateCall : List (Event Unit) :=
  [.attach handshakeBytes, .issue 0 .direct () true, .start 0 0, .issue 1 .direct () true, .start 1 0,
    .shutdown 0, .lockShutdown 0, .writeShutdown 0 4, .writtenShutdown 0, .releaseShutdown 0 false,
    .lock 1, .write 1 9]

/-- The four bytes of a length, then a frame: the length takes in the head of the frame. -/
theorem not_framed {b : UInt8} {r : Bytes} (hb : 1 < b.toNat) :
    ¬ Framed ([0, 0, 0, 2, 18, 0] ++ ([0, 0, 0, 5, 0, 0, 0, 5, 8] ++ b :: r)) := by
  intro h
  have h := Framed.of_append ⟨[18, 0], rfl⟩ h
  have h := Framed.of_append ⟨[0, 0, 0, 5, 8], rfl⟩ h
  exact absurd h.head_le (by omega)

/-- A frame follows a cut one. -/
theorem cut_frame_followed :
    (∃ s, (machine subscribePnl disconnectBytes).Run Machine.Free rejoinTimeout s ∧
      ¬ Intact (s.conns 0)) ∧
    (∃ s, (machine subscribePnl disconnectBytes).Run Machine.Free lateShutdown s ∧
      ¬ Intact (s.conns 0)) ∧
    (∃ s, (machine subscribePnl disconnectBytes).Run Machine.Free lateCall s ∧
      ¬ Intact (s.conns 0)) := by
  refine ⟨⟨_, Machine.run_of_exec rfl rfl, fun h => ?_⟩, ⟨_, Machine.run_of_exec rfl rfl, fun h => ?_⟩,
    ⟨_, Machine.run_of_exec rfl rfl, fun h => ?_⟩⟩
  · exact not_framed (by decide) h.framed
  · exact not_framed (by decide) h.framed
  · exact not_framed (by decide) h.framed

end RithmicNt.Gateway.Calls
