import RithmicNt.Gateway.Calls

/-! One connection of the gateway server: the reader, the command lane, the slow lane and the writer
over their bounded queues, and the task that waits for them.  What a handler answers is free; the
protobuf decoders and the encoded length of a reply are parameters. -/

namespace RithmicNt.Gateway.Server

open RithmicNt.Lib
open RithmicNt.Gateway.Calls (Bytes maxFrameLen)

def Limit.commandQueue : Nat := 256

def Limit.slowQueue : Nat := 64

def Limit.slowConcurrency : Nat := 4

inductive Lane
  | command
  | slow
  deriving DecidableEq, Repr

/-- The bodies a client sends; `other` are those of the parent's own frames. -/
inductive Body
  | handshake
  | disconnect
  | getLiveMdState
  | subscribe
  | subscribeBook
  | subscribeTimeBars
  | subscribePnl
  | subscribeOrderUpdates
  | subscribeBracketUpdates
  | unsubscribe
  | unsubscribeBook
  | unsubscribeTimeBars
  | disconnectPnl
  | disconnectOrder
  | requestPlants
  | ensurePnl
  | ensureOrder
  | resetTickerPlant
  | getFrontMonth
  | getReferenceData
  | resolvedAccount
  | loadTicks
  | loadTimeBars
  | probeTimeBars
  | loadOrders
  | loadProductRmsInfo
  | loadAccountRmsInfo
  | loadFillHistory
  | loadOrderHistoryDates
  | loadOrderHistory
  | placeOrder
  | placeBracketOrder
  | adjustBracketStop
  | adjustBracketTarget
  | cancelOrder
  | modifyOrder
  | cancelAllOrders
  | other
  deriving DecidableEq, Repr

def laneOf : Body → Lane
  | .getFrontMonth | .getReferenceData | .resolvedAccount | .loadTicks | .loadTimeBars
  | .probeTimeBars | .loadOrders | .loadProductRmsInfo | .loadAccountRmsInfo | .loadFillHistory
  | .loadOrderHistoryDates | .loadOrderHistory => .slow
  | _ => .command

structure Request where
  id : UInt64
  body : Body
  deriving DecidableEq, Repr

/-- The body of a frame to the client; `ρ`: what the handlers answer. -/
inductive Reply (ρ : Type)
  | error (code message : String)
  | event
  | value (r : ρ)
  deriving DecidableEq, Repr

structure Frame (ρ : Type) where
  requestId : UInt64
  body : Reply ρ
  deriving DecidableEq, Repr

/-! ### Reading a request -/

inductive WireType
  | varint
  | sixtyFourBit
  | lengthDelimited
  | startGroup
  | endGroup
  | thirtyTwoBit
  deriving DecidableEq, Repr

/-- The decoders of the protobuf library: of a frame, the id and the body of a request or the text of the
error; of a field's key, its tag and wire type; of a number.  The last two leave the rest of the bytes. -/
structure Prost where
  decode : Bytes → Except String (UInt64 × Option Body)
  decodeKey : Bytes → Option (UInt32 × WireType × Bytes)
  decodeVarint : Bytes → Option (UInt64 × Bytes)

/-- The id of a frame that failed to decode. -/
def requestIdOf (prost : Prost) (payload : Bytes) : Option UInt64 :=
  (prost.decodeKey payload).bind fun (tag, wire, rest) =>
    if tag ≠ 1 ∨ wire ≠ .varint then none
    else ((prost.decodeVarint rest).map Prod.fst).filter (· ≠ 0)

section

variable {ρ : Type}

def errorFrame (id : UInt64) (code message : String) : Frame ρ :=
  ⟨id, .error code message⟩

def notReadyFrame (id : UInt64) : Frame ρ :=
  errorFrame id "not_sent" "gateway not ready (plants reconnecting); request not sent"

/-- What the reader makes of a payload. -/
inductive Reading (ρ : Type)
  | answer (frame : Frame ρ)
  | skip
  | request (req : Request)
  | stop
  deriving DecidableEq, Repr

def readPayload (prost : Prost) (payload : Bytes) : Reading ρ :=
  match prost.decode payload with
  | .error e =>
    match requestIdOf prost payload with
    | some id => .answer (errorFrame id "bad_request" ("undecodable request: " ++ e))
    | none => .stop
  | .ok (id, none) =>
    if id ≠ 0 then .answer (errorFrame id "bad_request" "request carries no body") else .skip
  | .ok (id, some body) => .request ⟨id, body⟩

/-! ### The tasks -/

inductive Reader (ρ : Type)
  | reading
  | replying (frame : Frame ρ)
  | handing (req : Request)
  | ended
  deriving DecidableEq, Repr

inductive Commands (ρ : Type)
  | waiting
  | dispatching (req : Request)
  | replying (frame : Frame ρ) (closeAfter : Bool)
  | ended
  deriving DecidableEq, Repr

/-- A slow request with its permit. -/
inductive Task (ρ : Type)
  | spawned (req : Request)
  | dispatching (req : Request)
  | replying (frame : Frame ρ)
  deriving DecidableEq, Repr

inductive Writer (ρ : Type)
  | idle
  | writing (frame : Frame ρ)
  | ended
  deriving DecidableEq, Repr

/-- `serve_connection_halves` itself: in its loop, sending a session event to the client, waiting for
the command lane, waiting for the writer, done. -/
inductive Main (ρ : Type)
  | serving
  | notifying (frame : Frame ρ)
  | stopping
  | flushing
  | finished
  deriving DecidableEq, Repr

/-- What the command lane did with a request. -/
inductive Entry
  | refused (id : UInt64)
  | began (id : UInt64)
  | ended (id : UInt64)
  deriving DecidableEq, Repr

/-- `slowHeld`: the request that waits for a permit.  `seen`: the ids that were read, `arrived`: those
for the command lane; `log` and `slowBegan`: what was dispatched on either lane. -/
structure State (ρ : Type) where
  reader : Reader ρ := .reading
  commandQueue : List Request := []
  commands : Commands ρ := .waiting
  slowQueue : List Request := []
  slowHeld : Option Request := none
  tasks : List (Task ρ) := []
  replies : List (Frame ρ) := []
  writer : Writer ρ := .idle
  main : Main ρ := .serving
  stop : Bool := false
  ready : Bool := true
  wire : List (Frame ρ) := []
  seen : List UInt64 := []
  arrived : List UInt64 := []
  log : List Entry := []
  slowBegan : List UInt64 := []

inductive Event (ρ : Type)
  | arrive (payload : Bytes)
  /-- The peer closed, or the stream broke. -/
  | readEnd
  | readerReply
  | readerHand
  | command
  /-- The handler of the command lane ends; `none`: it panics. -/
  | handled (outcome : Option (Reply ρ))
  | commandReply
  | slowTake
  | slowSpawn
  | slowStart (i : Nat)
  | slowHandled (i : Nat) (outcome : Option (Reply ρ))
  | slowReply (i : Nat)
  | writerTake
  | fanout
  | written
  | writeFailed
  | writerEnd
  | setReady (ready : Bool)
  /-- The session is interrupted or resumed. -/
  | session
  | notified
  /-- The recovery failed, or the session's events are gone. -/
  | hostFailed
  | writerGone
  | commandsDone
  /-- The writer had its two seconds. -/
  | abort
  deriving Repr

/-- A step of the connection's own tasks. -/
def Event.Own : Event ρ → Prop
  | .arrive _ | .readEnd | .fanout | .writeFailed | .setReady _ | .session | .hostFailed => False
  | _ => True

def Reader.isEnded : Reader ρ → Bool
  | .ended => true
  | _ => false

def Commands.isEnded : Commands ρ → Bool
  | .ended => true
  | _ => false

def Writer.isEnded : Writer ρ → Bool
  | .ended => true
  | _ => false

/-- The loop is left, and with it the sender of session events. -/
def Main.hasLeft : Main ρ → Bool
  | .flushing | .finished => true
  | _ => false

@[simp] theorem Reader.isEnded_iff {r : Reader ρ} : r.isEnded = true ↔ r = .ended := by
  cases r <;> simp [isEnded]

@[simp] theorem Commands.isEnded_iff {c : Commands ρ} : c.isEnded = true ↔ c = .ended := by
  cases c <;> simp [isEnded]

@[simp] theorem Writer.isEnded_iff {w : Writer ρ} : w.isEnded = true ↔ w = .ended := by
  cases w <;> simp [isEnded]

@[simp] theorem Main.hasLeft_iff {m : Main ρ} : m.hasLeft = true ↔ m = .flushing ∨ m = .finished := by
  cases m <;> simp [hasLeft]

namespace State

def hasRoom (s : State ρ) : Bool := s.replies.length < Limit.commandQueue + Limit.slowQueue

def push (s : State ρ) (frame : Frame ρ) : State ρ := { s with replies := s.replies ++ [frame] }

def arrive (s : State ρ) : Reading ρ → State ρ
  | .stop => { s with reader := .ended }
  | .skip => s
  | .answer frame => { s with reader := .replying frame, seen := s.seen ++ [frame.requestId] }
  | .request req =>
    match laneOf req.body with
    | .command => { s with
        reader := .handing req
        seen := s.seen ++ [req.id]
        arrived := s.arrived ++ [req.id] }
    | .slow =>
      if s.slowQueue.length < Limit.slowQueue then
        { s with slowQueue := s.slowQueue ++ [req], seen := s.seen ++ [req.id] }
      else { s with
        reader := .replying
          (errorFrame req.id "busy" "too many slow requests in flight on this connection")
        seen := s.seen ++ [req.id] }

/-- The command lane takes a request. -/
def take (s : State ρ) (req : Request) (rest : List Request) : State ρ :=
  if req.body ≠ .disconnect ∧ s.ready = false then
    { s with
      commandQueue := rest
      commands := .replying (notReadyFrame req.id) false
      log := s.log ++ [Entry.refused req.id] }
  else
    { s with
      commandQueue := rest
      commands := .dispatching req
      log := s.log ++ [Entry.began req.id] }

def handled (s : State ρ) (req : Request) (outcome : Option (Reply ρ)) : State ρ :=
  let frame := match outcome with
    | some body => ⟨req.id, body⟩
    | none => errorFrame req.id "internal" "the parent failed while serving this request"
  { s with
    commands := .replying frame (req.body = .disconnect)
    log := s.log ++ [Entry.ended req.id] }

/-- Every sender of replies is gone. -/
def sendersGone (s : State ρ) : Bool :=
  s.reader.isEnded && s.commands.isEnded && s.slowQueue.isEmpty &&
    s.slowHeld.isNone && s.tasks.isEmpty && s.main.hasLeft

end State

/-- The error of `codec::encode` for a frame of that length. -/
def frameTooLarge (len : Nat) : String :=
  "frame too large: " ++ toString (min len (2 ^ 32 - 1)) ++ " bytes (max " ++
    toString maxFrameLen ++ ")"

/-- What the writer puts on the wire for a reply. -/
def toWire (encodedLen : Frame ρ → Nat) (frame : Frame ρ) : Option (Frame ρ) :=
  if encodedLen frame ≤ maxFrameLen then some frame
  else
    let error := errorFrame frame.requestId "response_too_large" (frameTooLarge (encodedLen frame))
    if encodedLen error ≤ maxFrameLen then some error else none

def State.step (prost : Prost) (encodedLen : Frame ρ → Nat) (s : State ρ) :
    Event ρ → Option (State ρ)
  | .arrive payload =>
    match s.reader with
    | .reading => some (s.arrive (readPayload prost payload))
    | _ => none
  | .readEnd =>
    match s.reader with
    | .reading => some { s with reader := .ended }
    | _ => none
  | .readerReply =>
    match s.reader with
    | .replying frame =>
      if s.writer.isEnded then some { s with reader := .ended }
      else if s.hasRoom then some { s.push frame with reader := .reading }
      else none
    | _ => none
  | .readerHand =>
    match s.reader with
    | .handing req =>
      if s.commands.isEnded then some { s with reader := .ended }
      else if s.commandQueue.length < Limit.commandQueue then
        some { s with reader := .reading, commandQueue := s.commandQueue ++ [req] }
      else none
    | _ => none
  | .command =>
    match s.commands with
    | .waiting =>
      if s.stop then some { s with commands := .ended }
      else
        match s.commandQueue with
        | req :: rest => some (s.take req rest)
        | [] => if s.reader.isEnded then some { s with commands := .ended } else none
    | _ => none
  | .handled outcome =>
    match s.commands with
    | .dispatching req => some (s.handled req outcome)
    | _ => none
  | .commandReply =>
    match s.commands with
    | .replying frame closeAfter =>
      if s.writer.isEnded then some { s with commands := .ended }
      else if s.hasRoom then
        some { s.push frame with commands := if closeAfter then .ended else .waiting }
      else none
    | _ => none
  | .slowTake =>
    match s.slowHeld, s.slowQueue with
    | none, req :: rest => some { s with slowHeld := some req, slowQueue := rest }
    | _, _ => none
  | .slowSpawn =>
    match s.slowHeld with
    | some req =>
      if s.tasks.length < Limit.slowConcurrency then
        some { s with slowHeld := none, tasks := s.tasks ++ [Task.spawned req] }
      else none
    | none => none
  | .slowStart i =>
    match s.tasks[i]? with
    | some (.spawned req) =>
      if s.ready then
        some { s with
          tasks := s.tasks.set i (.dispatching req), slowBegan := s.slowBegan ++ [req.id] }
      else some { s with tasks := s.tasks.set i (.replying (notReadyFrame req.id)) }
    | _ => none
  | .slowHandled i outcome =>
    match s.tasks[i]? with
    | some (.dispatching req) =>
      match outcome with
      | some body => some { s with tasks := s.tasks.set i (.replying ⟨req.id, body⟩) }
      | none => some { s with tasks := s.tasks.eraseIdx i }
    | _ => none
  | .slowReply i =>
    match s.tasks[i]? with
    | some (.replying frame) =>
      if s.writer.isEnded then some { s with tasks := s.tasks.eraseIdx i }
      else if s.hasRoom then some { s.push frame with tasks := s.tasks.eraseIdx i }
      else none
    | _ => none
  | .writerTake =>
    match s.writer, s.replies with
    | .idle, frame :: rest =>
      match toWire encodedLen frame with
      | some wire => some { s with writer := .writing wire, replies := rest }
      | none => some { s with replies := rest }
    | _, _ => none
  | .fanout =>
    match s.writer, s.replies with
    | .idle, [] => some { s with writer := .writing ⟨0, .event⟩ }
    | _, _ => none
  | .written =>
    match s.writer with
    | .writing frame => some { s with writer := .idle, wire := s.wire ++ [frame] }
    | _ => none
  | .writeFailed =>
    match s.writer with
    | .writing _ => some { s with writer := .ended }
    | _ => none
  | .writerEnd =>
    match s.writer, s.replies with
    | .idle, [] => if s.sendersGone then some { s with writer := .ended } else none
    | _, _ => none
  | .setReady ready => some { s with ready := ready }
  | .session =>
    match s.main with
    | .serving => some { s with main := .notifying ⟨0, .event⟩ }
    | _ => none
  | .notified =>
    match s.main with
    | .notifying frame =>
      if s.writer.isEnded then some { s with stop := true, main := .stopping }
      else if s.hasRoom then some { s.push frame with main := .serving }
      else none
    | _ => none
  | .hostFailed =>
    match s.main with
    | .serving => some { s with reader := .ended, stop := true, main := .stopping }
    | _ => none
  | .writerGone =>
    match s.main, s.writer with
    | .serving, .ended => some { s with stop := true, main := .stopping }
    | _, _ => none
  | .commandsDone =>
    match s.main, s.commands with
    | .serving, .ended => some { s with reader := .ended, main := .flushing }
    | .stopping, .ended => some { s with reader := .ended, main := .flushing }
    | _, _ => none
  | .abort =>
    match s.main with
    | .flushing => some { s with writer := .ended, main := .finished }
    | _ => none

theorem State.step_arrive {prost : Prost}
    {encodedLen : Frame ρ → Nat} {s t : State ρ} {payload : Bytes}
    (h : s.step prost encodedLen (.arrive payload) = some t) :
    s.reader = .reading ∧ t = s.arrive (readPayload prost payload) := by
  simp only [State.step] at h
  split at h
  · next hr => exact ⟨hr, (Option.some.inj h).symm⟩
  · cases h

def machine (prost : Prost) (encodedLen : Frame ρ → Nat) :
    Machine (State ρ) (Event ρ) where
  Start s := s = {}
  step := State.step prost encodedLen

end

end RithmicNt.Gateway.Server
