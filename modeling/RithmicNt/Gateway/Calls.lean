import Mathlib.Algebra.Ring.Nat
import Mathlib.Data.Finset.Basic
import Mathlib.Logic.Function.Basic
import RithmicNt.Lib.Machine

/-! Requests over the gateway connections of one client: `RemoteSession::call` with its retry and
`ack` around it, `Connection::call` cut at its awaits, the reader that hands out replies, and the
shutdown of a connection.  The protobuf bytes of a frame are a parameter. -/

namespace RithmicNt.Gateway.Calls

open RithmicNt.Lib

abbrev Bytes := List UInt8

def maxFrameLen : Nat := 16 * 1024 * 1024

/-- `u32::to_be_bytes`. -/
def be32 (n : Nat) : Bytes :=
  [UInt8.ofNat (n >>> 24), UInt8.ofNat (n >>> 16), UInt8.ofNat (n >>> 8), UInt8.ofNat n]

/-- `codec::encode`: the length and the payload; `none` where the frame is too large. -/
def encode (payload : Bytes) : Option Bytes :=
  if payload.length > maxFrameLen then none else some (be32 payload.length ++ payload)

/-- `Mode`, and the requests of a re-join or an intent operation, which go to `Connection::call`
directly. -/
inductive Mode
  | read
  | command
  | intent
  | direct
  deriving DecidableEq, Repr

/-- A reply, as far as `map_reply` and `ack` look into it; `shown` is the `Debug` text of any other
body. -/
inductive Reply
  | error (code message : String)
  | ack
  | other (shown : String)
  deriving DecidableEq, Repr

inductive Error
  | reconciliationUnavailable (message : String)
  | rejected (message : String)
  | notSent (message : String)
  | outcomeUnknown (message : String)
  | gateway (code message : String)
  | protocol (message : String)
  deriving DecidableEq, Repr

/-- `map_reply`: the error that a reply stands for, if it is one. -/
def mapReply : Reply → Option Error
  | .ack | .other _ => none
  | .error code message =>
    if code = "reconciliation_unavailable" then some (.reconciliationUnavailable message)
    else if code = "venue_rejected" then some (.rejected message)
    else if code = "not_sent" then some (.notSent message)
    else if code = "bad_request" then some (.notSent message)
    else if code = "not_ready" then some (.notSent message)
    else if code = "venue_unknown" then some (.outcomeUnknown message)
    else if code = "internal" then some (.outcomeUnknown message)
    else some (.gateway code message)

def unexpected (want shown : String) : Error := .protocol ("expected " ++ want ++ ", got " ++ shown)

/-- What a caller gets: a refusal before anything is tried, what the reply to its request stands for,
or a failure of the client's own; `unexpected` is that of `ack` over a reply it does not know, and
`failed` the plain error of the other modes. -/
inductive Result
  | refused
  | answered (c id : Nat) (error : Option Error)
  | unexpected (c id : Nat) (error : Error)
  | notSent
  | outcomeUnknown
  | failed
  deriving DecidableEq, Repr

/-- The end of a call over the reply to its request.  Every command goes through `ack`; the bodies
that the other requests want are not told apart. -/
def Result.ofReply (mode : Mode) (c id : Nat) (r : Reply) : Result :=
  match mode, r with
  | .command, .other shown => .unexpected c id (Calls.unexpected "Ack" shown)
  | _, r => .answered c id (mapReply r)

/-- Where a request is.  `queued`: waiting for the writer of connection `c`; `writing`: with the
writer, `n` bytes of the frame written; `breaking`: in `break_connection`; `waiting`: for the
reply. -/
inductive Stage
  | idle
  | locating (retried : Bool)
  | queued (retried : Bool) (c id : Nat) (frame : Bytes)
  | writing (retried : Bool) (c id : Nat) (frame : Bytes) (n : Nat)
  | breaking (retried : Bool) (c id : Nat)
  | waiting (retried : Bool) (c id : Nat)
  | ended (r : Result)
  | cancelled
  deriving DecidableEq, Repr

/-- Where the shutdown of a connection is. -/
inductive Closing
  | opened
  | queued (frame : Bytes)
  | writing (frame : Bytes) (n : Nat)
  | finishing
  | released
  | done
  deriving DecidableEq, Repr

inductive Holder
  | call (k : Nat)
  | shutdown
  deriving DecidableEq, Repr

/-- The bytes of one frame on a socket: the first `n`. -/
structure Chunk where
  frame : Bytes
  n : Nat
  deriving DecidableEq, Repr

/-- `shut`: the write half is shut down; `chunks`: what was written. -/
structure Connection where
  closed : Bool := false
  shut : Bool := false
  nextId : Nat := 1
  pending : Nat → Option Nat := fun _ => none
  writer : Option Holder := none
  closing : Closing := .opened
  chunks : List Chunk := []

/-- `asked`: connection and id of a caller's last request; `inbox`: the reply handed to it; `wrote`:
the callers and connections with a byte of the caller's body written. -/
structure State (β : Type) where
  conns : Nat → Connection := fun _ => {}
  nextConn : Nat := 0
  mode : Nat → Mode := fun _ => .read
  body : Nat → Option β := fun _ => none
  stage : Nat → Stage := fun _ => .idle
  asked : Nat → Option (Nat × Nat) := fun _ => none
  inbox : Nat → Option (Nat × Nat × Reply) := fun _ => none
  wrote : Finset (Nat × Nat) := ∅

inductive Event (β : Type)
  /-- A connection is attached, after its handshake frame. -/
  | attach (handshake : Bytes)
  | lose (c : Nat)
  | issue (k : Nat) (mode : Mode) (body : β) (admitted : Bool)
  /-- `ensure_live` fails. -/
  | unreachable (k : Nat)
  | start (k c : Nat)
  | lock (k : Nat)
  | write (k m : Nat)
  | written (k : Nat)
  /-- The write fails or times out. -/
  | writeFailed (k : Nat)
  /-- The end of `break_connection`; `ok`: the write half is shut. -/
  | broke (k : Nat) (ok : Bool)
  | reply (c id : Nat) (r : Reply)
  | take (k : Nat)
  /-- The sender of the reply is gone. -/
  | dropped (k : Nat)
  | timeout (k : Nat)
  | cancel (k : Nat)
  | shutdown (c : Nat)
  | lockShutdown (c : Nat)
  | writeShutdown (c m : Nat)
  /-- The write of the `Disconnect` frame ends: done, failed or timed out. -/
  | writtenShutdown (c : Nat)
  /-- The writer is given back; `ok`: the write half is shut. -/
  | releaseShutdown (c : Nat) (ok : Bool)
  | endShutdown (c : Nat)

section

variable {β : Type}

/-- The ids are `u64`. -/
def Connection.takeId (x : Connection) : Connection := { x with nextId := (x.nextId + 1) % 2 ^ 64 }

def Connection.pend (x : Connection) (id k : Nat) : Connection :=
  { x with pending := Function.update x.pending id (some k) }

def Connection.failAll (x : Connection) : Connection :=
  { x with closed := true, pending := fun _ => none }

/-- `m` more bytes of a frame of which `n` are written. -/
def Connection.write (x : Connection) (frame : Bytes) (n m : Nat) : Connection :=
  { x with chunks :=
      if n = 0 then x.chunks ++ [⟨frame, m⟩] else x.chunks.dropLast ++ [⟨frame, n + m⟩] }

namespace State

def setConn (s : State β) (c : Nat) (x : Connection) : State β :=
  { s with conns := Function.update s.conns c x }

@[simp] theorem setConn_self (s : State β) (c : Nat) (x : Connection) :
    (s.setConn c x).conns c = x := by
  simp [setConn]

theorem setConn_of_ne (s : State β) {c d : Nat} (x : Connection) (h : d ≠ c) :
    (s.setConn c x).conns d = s.conns d :=
  Function.update_of_ne h _ _

def goto (s : State β) (k : Nat) (stage : Stage) : State β :=
  { s with stage := Function.update s.stage k stage }

def release (s : State β) (c : Nat) : State β := s.setConn c { s.conns c with writer := none }

def unpend (s : State β) (c id : Nat) : State β :=
  s.setConn c { s.conns c with pending := Function.update (s.conns c).pending id none }

/-- `CallError::NotSent`: one retry, then the caller's failure. -/
def notSent (s : State β) (k : Nat) (retried : Bool) : State β :=
  match s.mode k with
  | .direct => s.goto k (.ended .failed)
  | .command => s.goto k (if retried then .ended .notSent else .locating true)
  | .read | .intent => s.goto k (if retried then .ended .failed else .locating true)

/-- `CallError::Sent`: a read is retried. -/
def sent (s : State β) (k : Nat) (retried : Bool) : State β :=
  match s.mode k with
  | .command => s.goto k (.ended .outcomeUnknown)
  | .read => s.goto k (if retried then .ended .failed else .locating true)
  | .intent | .direct => s.goto k (.ended .failed)

/-- The caller goes on to `Connection::call` on `c`. -/
def start (payload : Nat → β → Bytes) (s : State β) (k c : Nat) (retried : Bool) : State β :=
  let x := s.conns c
  if x.closed then s.notSent k retried
  else
    match (s.body k).bind fun body => encode (payload x.nextId body) with
    | none => (s.setConn c x.takeId).notSent k retried
    | some frame =>
      { s.setConn c (x.takeId.pend x.nextId k) with
        stage := Function.update s.stage k (.queued retried c x.nextId frame)
        asked := Function.update s.asked k (some (c, x.nextId))
        inbox := Function.update s.inbox k none }

def lock (s : State β) (k : Nat) (retried : Bool) (c id : Nat) (frame : Bytes) : State β :=
  if (s.conns c).closed then (s.unpend c id).notSent k retried
  else (s.setConn c { s.conns c with writer := some (.call k) }).goto k
    (.writing retried c id frame 0)

def write (s : State β) (k : Nat) (retried : Bool) (c id : Nat) (frame : Bytes) (n m : Nat) :
    State β :=
  { (s.setConn c ((s.conns c).write frame n m)).goto k (.writing retried c id frame (n + m)) with
    wrote := insert (k, c) s.wrote }

/-- The reader takes the waiter of the id out of the table and hands it the frame. -/
def reply (s : State β) (c id : Nat) (r : Reply) : State β :=
  match (s.conns c).pending id with
  | none => s
  | some k => { s.unpend c id with inbox := Function.update s.inbox k (some (c, id, r)) }

/-- The caller's future is dropped: the writer, if it has it, is free. -/
def cancel (s : State β) (k : Nat) : Option (State β) :=
  match s.stage k with
  | .locating _ | .queued .. | .waiting .. => some (s.goto k .cancelled)
  | .writing _ c _ _ _ | .breaking _ c _ => some ((s.release c).goto k .cancelled)
  | .idle | .ended _ | .cancelled => none

def shutdown (disconnect : Nat → Bytes) (s : State β) (c : Nat) : State β :=
  let x := s.conns c
  if x.closed then s.setConn c { x.failAll with closing := .done }
  else
    match encode (disconnect x.nextId) with
    | none => s.setConn c { x.takeId.failAll with closing := .done }
    | some frame => s.setConn c { x.takeId with closing := .queued frame }

end State

/-- `payload` and `disconnect` are the protobuf bytes of a request and of the `Disconnect` request
under an id. -/
def State.step (payload : Nat → β → Bytes) (disconnect : Nat → Bytes) (s : State β) :
    Event β → Option (State β)
  | .attach handshake =>
    match encode handshake with
    | some frame => some { s.setConn s.nextConn { chunks := [⟨frame, frame.length⟩] } with
        nextConn := s.nextConn + 1 }
    | none => none
  | .lose c => if c < s.nextConn then some (s.setConn c (s.conns c).failAll) else none
  | .issue k mode body admitted =>
    if s.stage k = .idle then
      some { s with
        mode := Function.update s.mode k mode
        body := Function.update s.body k (some body)
        stage := Function.update s.stage k
          (if admitted then .locating false else .ended .refused) }
    else none
  | .unreachable k =>
    match s.stage k with
    | .locating _ => some (s.goto k (.ended (if s.mode k = .command then .notSent else .failed)))
    | _ => none
  | .start k c =>
    match s.stage k with
    | .locating retried => if c < s.nextConn then some (s.start payload k c retried) else none
    | _ => none
  | .lock k =>
    match s.stage k with
    | .queued retried c id frame =>
      if (s.conns c).writer = none then some (s.lock k retried c id frame) else none
    | _ => none
  | .write k m =>
    match s.stage k with
    | .writing retried c id frame n =>
      if (s.conns c).shut = false ∧ 0 < m ∧ n + m ≤ frame.length then
        some (s.write k retried c id frame n m)
      else none
    | _ => none
  | .written k =>
    match s.stage k with
    | .writing retried c id frame n =>
      if n = frame.length then some ((s.release c).goto k (.waiting retried c id)) else none
    | _ => none
  | .writeFailed k =>
    match s.stage k with
    | .writing retried c id _ _ =>
      some ((s.setConn c (s.conns c).failAll).goto k (.breaking retried c id))
    | _ => none
  | .broke k ok =>
    match s.stage k with
    | .breaking retried c _ =>
      some ((s.setConn c { s.conns c with writer := none, shut := (s.conns c).shut || ok }).sent k
        retried)
    | _ => none
  | .reply c id r => if c < s.nextConn then some (s.reply c id r) else none
  | .take k =>
    match s.stage k, s.inbox k with
    | .waiting _ _ _, some (c, id, r) => some (s.goto k (.ended (.ofReply (s.mode k) c id r)))
    | _, _ => none
  | .dropped k =>
    match s.stage k, s.inbox k with
    | .waiting retried c id, none =>
      if (s.conns c).pending id ≠ some k then some (s.sent k retried) else none
    | _, _ => none
  | .timeout k =>
    match s.stage k with
    | .waiting retried c id => some ((s.unpend c id).sent k retried)
    | _ => none
  | .cancel k => s.cancel k
  | .shutdown c =>
    if c < s.nextConn ∧ ((s.conns c).closing = .opened ∨ (s.conns c).closing = .done) then
      some (s.shutdown disconnect c)
    else none
  | .lockShutdown c =>
    match (s.conns c).closing with
    | .queued frame =>
      if (s.conns c).writer = none then
        some (s.setConn c { s.conns c with writer := some .shutdown, closing := .writing frame 0 })
      else none
    | _ => none
  | .writeShutdown c m =>
    match (s.conns c).closing with
    | .writing frame n =>
      if (s.conns c).shut = false ∧ 0 < m ∧ n + m ≤ frame.length then
        some (s.setConn c { (s.conns c).write frame n m with closing := .writing frame (n + m) })
      else none
    | _ => none
  | .writtenShutdown c =>
    match (s.conns c).closing with
    | .writing _ _ => some (s.setConn c { s.conns c with closing := .finishing })
    | _ => none
  | .releaseShutdown c ok =>
    match (s.conns c).closing with
    | .finishing => some (s.setConn c { s.conns c with
        writer := none, shut := (s.conns c).shut || ok, closing := .released })
    | _ => none
  | .endShutdown c =>
    match (s.conns c).closing with
    | .released => some (s.setConn c { (s.conns c).failAll with closing := .done })
    | _ => none

def machine (payload : Nat → β → Bytes) (disconnect : Nat → Bytes) :
    Machine (State β) (Event β) where
  Start s := s = {}
  step := State.step payload disconnect

/-- The steps, with what each of them found. -/
inductive Step (payload : Nat → β → Bytes) (disconnect : Nat → Bytes) (s : State β) :
    Event β → State β → Prop
  | attach {handshake frame : Bytes} : encode handshake = some frame →
      Step payload disconnect s (.attach handshake)
        { s.setConn s.nextConn { chunks := [⟨frame, frame.length⟩] } with nextConn := s.nextConn + 1 }
  | lose {c : Nat} : Step payload disconnect s (.lose c) (s.setConn c (s.conns c).failAll)
  | issue {k : Nat} {mode : Mode} {body : β} {admitted : Bool} : s.stage k = .idle →
      Step payload disconnect s (.issue k mode body admitted)
        { s with
          mode := Function.update s.mode k mode
          body := Function.update s.body k (some body)
          stage := Function.update s.stage k
            (if admitted then .locating false else .ended .refused) }
  | unreachable {k : Nat} {retried : Bool} : s.stage k = .locating retried →
      Step payload disconnect s (.unreachable k)
        (s.goto k (.ended (if s.mode k = .command then .notSent else .failed)))
  | start {k c : Nat} {retried : Bool} : s.stage k = .locating retried → c < s.nextConn →
      Step payload disconnect s (.start k c) (s.start payload k c retried)
  | lock {k c id : Nat} {retried : Bool} {frame : Bytes} :
      s.stage k = .queued retried c id frame → (s.conns c).writer = none →
      Step payload disconnect s (.lock k) (s.lock k retried c id frame)
  | write {k c id n m : Nat} {retried : Bool} {frame : Bytes} :
      s.stage k = .writing retried c id frame n → (s.conns c).shut = false → 0 < m →
      n + m ≤ frame.length → Step payload disconnect s (.write k m) (s.write k retried c id frame n m)
  | written {k c id : Nat} {retried : Bool} {frame : Bytes} :
      s.stage k = .writing retried c id frame frame.length →
      Step payload disconnect s (.written k) ((s.release c).goto k (.waiting retried c id))
  | writeFailed {k c id n : Nat} {retried : Bool} {frame : Bytes} :
      s.stage k = .writing retried c id frame n →
      Step payload disconnect s (.writeFailed k)
        ((s.setConn c (s.conns c).failAll).goto k (.breaking retried c id))
  | broke {k c id : Nat} {retried ok : Bool} : s.stage k = .breaking retried c id →
      Step payload disconnect s (.broke k ok)
        ((s.setConn c { s.conns c with writer := none, shut := (s.conns c).shut || ok }).sent k
          retried)
  | reply {c id : Nat} {r : Reply} : Step payload disconnect s (.reply c id r) (s.reply c id r)
  | take {k b i c id : Nat} {retried : Bool} {r : Reply} : s.stage k = .waiting retried b i →
      s.inbox k = some (c, id, r) →
      Step payload disconnect s (.take k) (s.goto k (.ended (.ofReply (s.mode k) c id r)))
  | dropped {k c id : Nat} {retried : Bool} : s.stage k = .waiting retried c id →
      (s.conns c).pending id ≠ some k → Step payload disconnect s (.dropped k) (s.sent k retried)
  | timeout {k c id : Nat} {retried : Bool} : s.stage k = .waiting retried c id →
      Step payload disconnect s (.timeout k) ((s.unpend c id).sent k retried)
  | cancel {k : Nat} {t : State β} : s.cancel k = some t → Step payload disconnect s (.cancel k) t
  | shutdown {c : Nat} : (s.conns c).closing = .opened ∨ (s.conns c).closing = .done →
      Step payload disconnect s (.shutdown c) (s.shutdown disconnect c)
  | lockShutdown {c : Nat} {frame : Bytes} : (s.conns c).closing = .queued frame →
      (s.conns c).writer = none →
      Step payload disconnect s (.lockShutdown c)
        (s.setConn c { s.conns c with writer := some .shutdown, closing := .writing frame 0 })
  | writeShutdown {c n m : Nat} {frame : Bytes} : (s.conns c).closing = .writing frame n →
      (s.conns c).shut = false → 0 < m → n + m ≤ frame.length →
      Step payload disconnect s (.writeShutdown c m)
        (s.setConn c { (s.conns c).write frame n m with closing := .writing frame (n + m) })
  | writtenShutdown {c n : Nat} {frame : Bytes} : (s.conns c).closing = .writing frame n →
      Step payload disconnect s (.writtenShutdown c)
        (s.setConn c { s.conns c with closing := .finishing })
  | releaseShutdown {c : Nat} {ok : Bool} : (s.conns c).closing = .finishing →
      Step payload disconnect s (.releaseShutdown c ok)
        (s.setConn c { s.conns c with
          writer := none, shut := (s.conns c).shut || ok, closing := .released })
  | endShutdown {c : Nat} :
      Step payload disconnect s (.endShutdown c)
        (s.setConn c { (s.conns c).failAll with closing := .done })

theorem step_cases {payload : Nat → β → Bytes} {disconnect : Nat → Bytes} {s t : State β}
    {e : Event β} (h : s.step payload disconnect e = some t) : Step payload disconnect s e t := by
  cases e with
  | attach handshake =>
    simp only [State.step] at h
    split at h <;> cases h
    next hframe => exact .attach hframe
  | lose c =>
    simp only [State.step] at h
    split at h <;> cases h
    exact .lose
  | issue k mode body admitted =>
    simp only [State.step] at h
    split at h <;> cases h
    next hst => exact .issue hst
  | unreachable k =>
    simp only [State.step] at h
    split at h <;> cases h
    next hst => exact .unreachable hst
  | start k c =>
    simp only [State.step] at h
    split at h
    · next hst =>
      split at h <;> cases h
      next hc => exact .start hst hc
    · cases h
  | lock k =>
    simp only [State.step] at h
    split at h
    · next hst =>
      split at h <;> cases h
      next hfree => exact .lock hst hfree
    · cases h
  | write k m =>
    simp only [State.step] at h
    split at h
    · next hst =>
      split at h <;> cases h
      next hcond => exact .write hst hcond.1 hcond.2.1 hcond.2.2
    · cases h
  | written k =>
    simp only [State.step] at h
    split at h
    · next hst =>
      split at h <;> cases h
      next hn =>
      subst hn
      exact .written hst
    · cases h
  | writeFailed k =>
    simp only [State.step] at h
    split at h <;> cases h
    next hst => exact .writeFailed hst
  | broke k ok =>
    simp only [State.step] at h
    split at h <;> cases h
    next hst => exact .broke hst
  | reply c id r =>
    simp only [State.step] at h
    split at h <;> cases h
    exact .reply
  | take k =>
    simp only [State.step] at h
    split at h <;> cases h
    next hst hbox => exact .take hst hbox
  | dropped k =>
    simp only [State.step] at h
    split at h
    · next hst _ =>
      split at h <;> cases h
      next hgone => exact .dropped hst hgone
    · cases h
  | timeout k =>
    simp only [State.step] at h
    split at h <;> cases h
    next hst => exact .timeout hst
  | cancel k => exact .cancel h
  | shutdown c =>
    simp only [State.step] at h
    split at h <;> cases h
    next hcond => exact .shutdown hcond.2
  | lockShutdown c =>
    simp only [State.step] at h
    split at h
    · next hst =>
      split at h <;> cases h
      next hfree => exact .lockShutdown hst hfree
    · cases h
  | writeShutdown c m =>
    simp only [State.step] at h
    split at h
    · next hst =>
      split at h <;> cases h
      next hcond => exact .writeShutdown hst hcond.1 hcond.2.1 hcond.2.2
    · cases h
  | writtenShutdown c =>
    simp only [State.step] at h
    split at h <;> cases h
    next hst => exact .writtenShutdown hst
  | releaseShutdown c ok =>
    simp only [State.step] at h
    split at h <;> cases h
    next hst => exact .releaseShutdown hst
  | endShutdown c =>
    simp only [State.step] at h
    split at h <;> cases h
    exact .endShutdown

end

end RithmicNt.Gateway.Calls
