import Mathlib.Data.Finset.Basic
import Mathlib.Data.Finset.Image
import Mathlib.Logic.Function.Basic
import RithmicNt.Lib.Machine

/-! The shared runtime of the gateway client: one socket to the parent, its loss and re-dial with the
re-join of every held intent, the facades' intents, and the lifecycle frames of the parent on each
connection.  The tasks run on several threads: each load, store and send of what they share is a step
of its own. -/

namespace RithmicNt.Gateway.Runtime

open RithmicNt.Lib

/-- The derived order is the one the re-join sorts by. -/
inductive IntentKey
  | ticker (symbol exchange : String)
  | book (symbol exchange : String)
  | timeBars (symbol exchange : String) (barType period : Int)
  | pnl
  | order
  | brackets
  deriving DecidableEq, Repr, Ord

inductive SessionEvent
  | interrupted (generation : Nat) (cause : String)
  | resumed (generation : Nat)
  | recoveryFailed (generation attempts : Nat)
  deriving DecidableEq, Repr

/-- `TransportInterrupted` and `TransportResumed`. -/
inductive Lifecycle
  | interrupted
  | resumed
  deriving DecidableEq, Repr

/-- What the reader of a connection does next with a lifecycle frame.  Over an interruption it loads the
generation (`interrupting`) and sends `Interrupted` (`warning`); over a resumption it loads `recovering`
(`resuming`), counts the generation up (`counting`) and sends `Resumed` (`announcing`). -/
inductive Reader
  | waiting
  | interrupting
  | warning (generation : Nat)
  | resuming
  | counting
  | announcing (generation : Nat)
  deriving DecidableEq, Repr

/-- How far the report of a connection's loss has come: a reporter has found the close not `intentional`
(`primed`), has won the swap of `loss_reported` (`claimed`), has found the connection published
(`current`), and `recovering` unset, which it set (`marked`).  It loads the generation, sends
`Interrupted` (`warning`) and starts the recovery (`starting`). -/
inductive Loss
  | unreported
  | primed
  | claimed
  | current
  | marked
  | warning (generation : Nat)
  | starting
  | done
  deriving DecidableEq, Repr

/-- `reading`: the reader task has not ended; `lastFrame`: the last lifecycle frame it has taken; `acked`:
the intents whose subscribe the parent has acknowledged on this connection. -/
structure Connection where
  closed : Bool := false
  joined : Bool := false
  intentional : Bool := false
  loss : Loss := .unreported
  reading : Bool := false
  reader : Reader := .waiting
  lastFrame : Option Lifecycle := none
  acked : Finset IntentKey := ∅

/-- What `finish_attach` does next, with the mutex of `conn` locked and no failure found: it loads
`closed`, stores `joined`, stores `recovering`, loads the generation, and stores the first one or counts
up and sends `Resumed`. -/
inductive Attach
  | look
  | join
  | clear
  | measure
  | first
  | count
  | announce (generation : Nat)
  deriving DecidableEq, Repr

/-- Who has the `redial` lock, and where it is.  A flight is one of the recovery task (`auto`) or of a
caller of `ensure_live`; `n` counts the attempts of a recovery. -/
inductive Redial
  | free
  | dialing (auto : Bool) (n : Nat)
  | connected (auto : Bool) (n c : Nat)
  | published (auto : Bool) (n c : Nat)
  | joining (auto : Bool) (n c : Nat) (todo : List IntentKey)
  | awaiting (auto : Bool) (n c : Nat) (key : IntentKey) (todo : List IntentKey)
  | joined (auto : Bool) (n c : Nat)
  | attaching (auto : Bool) (n c : Nat) (next : Attach)
  | intending (auto : Bool) (n : Nat) (c : Option Nat)
  | closing (auto : Bool) (n : Nat) (c : Option Nat)
  | pausing (n : Nat)
  | failing (n : Nat)
  | reporting (n generation : Nat)
  | clearing
  | subscribing (c facade : Nat) (key : IntentKey)
  | releasing (c facade : Nat) (had : List IntentKey)
  deriving DecidableEq, Repr

structure State where
  conn : Option Nat := none
  conns : Nat → Connection := fun _ => {}
  nextConnId : Nat := 1
  generation : Nat := 0
  recovering : Bool := false
  failed : Bool := false
  /-- The recovery tasks that have been spawned and wait for `redial`. -/
  spawned : Nat := 0
  redial : Redial := .free
  facades : Finset Nat := ∅
  held : Finset (IntentKey × Nat) := ∅
  /-- What was sent to the facades. -/
  sent : List SessionEvent := []
  /-- The generations that were counted up to and whose `Resumed` is still to be sent. -/
  counted : List Nat := []

inductive Event
  | register (facade : Nat)
  | leave (facade : Nat)
  | subscribe (facade : Nat) (key : IntentKey)
  | subscribed (acked : Bool)
  | release (facade : Nat) (key : IntentKey)
  | releaseOrder (facade : Nat)
  | released (ok : Bool)
  | allowRecovery
  /-- A caller of `ensure_live` has found nothing live and no recovery, and starts a flight. -/
  | dial
  /-- The recovery task has the lock. -/
  | recover
  | retry
  /-- The end of a recovery that spent its attempts, step by step. -/
  | giveUp
  /-- The handshake is done, and the reader of the connection runs. -/
  | connected
  | publish
  /-- `keys` is the sorted list of the held intents. -/
  | snapshot (keys : List IntentKey)
  /-- The flight fails where it waits: a dial error, a failed or refused subscribe, or its timeout. -/
  | flightFailed
  | join
  | joinAcked
  /-- `finish_attach`, step by step. -/
  | finish
  /-- The shutdown of a flight's connection begins: `intentional` is stored. -/
  | intend
  | shutDown
  /-- The reader takes a lifecycle frame. -/
  | frame (c : Nat) (f : Lifecycle)
  /-- The reader goes on with it. -/
  | read (c : Nat)
  /-- The reader of the connection ends, at the end of the stream or aborted. -/
  | lost (c : Nat)
  /-- A write on the connection fails, which marks it closed. -/
  | broken (c : Nat)
  /-- `report_loss` of a closed connection, by anybody. -/
  | report (c : Nat)
  /-- The report goes on. -/
  | lossStep (c : Nat)
  deriving DecidableEq, Repr

/-- It is about to send an `Interrupted`. -/
def Reader.interrupts : Reader → Bool
  | .interrupting | .warning _ => true
  | _ => false

/-- It has taken a resumption. -/
def Reader.resumes : Reader → Bool
  | .resuming | .counting | .announcing _ => true
  | _ => false

/-- The report has set `recovering`, and its `Interrupted` is still to be sent. -/
def Loss.isMarked : Loss → Bool
  | .marked | .warning _ => true
  | _ => false

/-- The report has sent its `Interrupted`, or needs none. -/
def Loss.settled : Loss → Bool
  | .starting | .done => true
  | _ => false

/-- The report has not looked at `conn` yet. -/
def Loss.early : Loss → Bool
  | .unreported | .primed | .claimed => true
  | _ => false

/-- It holds the mutex of `conn`. -/
def Redial.isAttaching : Redial → Bool
  | .attaching .. => true
  | _ => false

def Redial.isDialing : Redial → Bool
  | .dialing .. => true
  | _ => false

/-- `finish_attach` has found the generation 0, and not set it yet. -/
def Redial.isFirst : Redial → Bool
  | .attaching _ _ _ .first => true
  | _ => false

/-- `finish_attach` has stored `joined`. -/
def Attach.pastJoin : Attach → Bool
  | .look | .join => false
  | _ => true

/-- The last lifecycle frame is no interruption, or the reader has still to pass it on. -/
def Connection.Quiet (x : Connection) : Prop :=
  x.lastFrame ≠ some .interrupted ∨ x.reader.interrupts = true

instance : DecidablePred Connection.Quiet :=
  fun x => inferInstanceAs (Decidable (x.lastFrame ≠ some .interrupted ∨ x.reader.interrupts = true))

namespace State

def setConn (s : State) (c : Nat) (x : Connection) : State :=
  { s with conns := Function.update s.conns c x }

def setReader (s : State) (c : Nat) (r : Reader) : State := s.setConn c { s.conns c with reader := r }

def setLoss (s : State) (c : Nat) (l : Loss) : State := s.setConn c { s.conns c with loss := l }

def close (s : State) (c : Nat) : State := s.setConn c { s.conns c with closed := true }

def goto (s : State) (r : Redial) : State := { s with redial := r }

def heldKeys (s : State) : Finset IntentKey := s.held.image Prod.fst

/-- The published connection is open and joined. -/
def live? (s : State) : Option Nat :=
  s.conn.filter fun c => !(s.conns c).closed && (s.conns c).joined

def interrupted (s : State) (generation : Nat) (cause : String) : State :=
  { s with sent := s.sent ++ [SessionEvent.interrupted generation cause] }

/-- `fetch_add` of the generation. -/
def count (s : State) : State :=
  { s with generation := s.generation + 1, counted := s.counted ++ [s.generation + 1] }

def resumed (s : State) (generation : Nat) : State :=
  { s with
    sent := s.sent ++ [SessionEvent.resumed generation]
    counted := s.counted.erase generation }

def frame (s : State) (c : Nat) (f : Lifecycle) : State :=
  s.setConn c { s.conns c with
    lastFrame := some f
    reader := match f with
      | .interrupted => .interrupting
      | .resumed => .resuming }

/-- `on_parent_interrupted` and `on_parent_resumed`. -/
def read (s : State) (c : Nat) : Option State :=
  match (s.conns c).reader with
  | .waiting => none
  | .interrupting => some (s.setReader c (.warning s.generation))
  | .warning generation =>
    some ((s.setReader c .waiting).interrupted generation "parent plant interrupted")
  | .resuming => some (s.setReader c (if s.recovering then .waiting else .counting))
  | .counting => some (s.setReader c (.announcing (s.generation + 1))).count
  | .announcing generation => some ((s.setReader c .waiting).resumed generation)

/-- Without recovery attempts the mark is taken back at once. -/
def startRecovery (attempts : Nat) (s : State) : State :=
  if attempts = 0 then { s with recovering := false } else { s with spawned := s.spawned + 1 }

/-- `report_loss` and `on_connection_lost` from the swap of `loss_reported` on.  The look at `conn` waits
while `finish_attach` has its mutex. -/
def lossStep (attempts : Nat) (s : State) (c : Nat) : Option State :=
  match (s.conns c).loss with
  | .unreported | .done => none
  | .primed => some (s.setLoss c .claimed)
  | .claimed =>
    if s.redial.isAttaching then none
    else some (s.setLoss c (if s.conn = some c then .current else .done))
  | .current =>
    some (if s.recovering then s.setLoss c .done
      else { s.setLoss c .marked with recovering := true })
  | .marked => some (s.setLoss c (.warning s.generation))
  | .warning generation => some ((s.setLoss c .starting).interrupted generation "socket lost")
  | .starting => some ((s.setLoss c .done).startRecovery attempts)

/-- `attach_and_rejoin` fails: the published connection is taken, to be shut down. -/
def takeConn (s : State) (auto : Bool) (n : Nat) : State :=
  { s with conn := none, redial := .intending auto n s.conn }

def publish (s : State) (auto : Bool) (n c : Nat) : State :=
  { s with conn := some c, redial := .published auto n c }

def snapshot (s : State) (auto : Bool) (n c : Nat) (keys : List IntentKey) : Option State :=
  if keys.toFinset = s.heldKeys ∧ keys.Pairwise (fun a b => compare a b = .lt) then
    some (s.goto (.joining auto n c keys))
  else none

/-- The next intent of the re-join; one that has lost its holders meanwhile is passed over. -/
def join (s : State) (auto : Bool) (n c : Nat) : List IntentKey → State
  | [] => if (s.conns c).closed then s.takeConn auto n else s.goto (.joined auto n c)
  | key :: todo =>
    if key ∈ s.heldKeys then s.goto (.awaiting auto n c key todo)
    else s.goto (.joining auto n c todo)

/-- `finish_attach` fails: the recovery task shuts the connection down, another caller leaves it. -/
def refused (s : State) (auto : Bool) (n c : Nat) : State :=
  s.goto (if auto then .intending auto n (some c) else .free)

def attach (s : State) (auto : Bool) (n c : Nat) : Attach → State
  | .look =>
    if (s.conns c).closed then s.refused auto n c else s.goto (.attaching auto n c .join)
  | .join =>
    (s.setConn c { s.conns c with joined := true }).goto (.attaching auto n c .clear)
  | .clear => { s with recovering := false, redial := .attaching auto n c .measure }
  | .measure => s.goto (.attaching auto n c (if s.generation = 0 then .first else .count))
  | .first => { s with generation := 1, redial := .free }
  | .count => s.count.goto (.attaching auto n c (.announce (s.generation + 1)))
  | .announce generation => (s.resumed generation).goto .free

def finish (s : State) : Option State :=
  match s.redial with
  | .joined auto n c =>
    some (if s.failed then s.refused auto n c else s.goto (.attaching auto n c .look))
  | .attaching auto n c next => some (s.attach auto n c next)
  | _ => none

def intend (s : State) (auto : Bool) (n : Nat) (c : Option Nat) : State :=
  match c with
  | none => s.goto (.closing auto n none)
  | some c => (s.setConn c { s.conns c with intentional := true }).goto (.closing auto n (some c))

def shutDown (s : State) (auto : Bool) (n : Nat) (c : Option Nat) : State :=
  let t := match c with
    | none => s
    | some c => s.close c
  t.goto (if auto then .pausing n else .free)

/-- The end of `start_recovery` without a connection. -/
def giveUp (s : State) : Option State :=
  match s.redial with
  | .pausing n => some { s with failed := true, redial := .failing n }
  | .failing n => some (s.goto (.reporting n s.generation))
  | .reporting n generation =>
    some { s with sent := s.sent ++ [SessionEvent.recoveryFailed generation n], redial := .clearing }
  | .clearing => some { s with recovering := false, redial := .free }
  | _ => none

def orderGroupHeld (s : State) : Bool := .order ∈ s.heldKeys ∨ .brackets ∈ s.heldKeys

def unhold (s : State) (facade : Nat) (key : IntentKey) : State :=
  { s with held := s.held.erase (key, facade) }

def hold (s : State) (facade : Nat) (key : IntentKey) : State :=
  { s with held := insert (key, facade) s.held }

def release (s : State) (c facade : Nat) (key : IntentKey) : State :=
  let t := s.unhold facade key
  let had := if (key, facade) ∈ s.held then [key] else []
  if key ∈ t.heldKeys then t else { t with redial := .releasing c facade had }

def releaseOrder (s : State) (c facade : Nat) : State :=
  let t := (s.unhold facade .order).unhold facade .brackets
  let had := [IntentKey.order, IntentKey.brackets].filter fun key => (key, facade) ∈ s.held
  if t.orderGroupHeld then t else { t with redial := .releasing c facade had }

def step (attempts : Nat) (s : State) : Event → Option State
  | .register facade => some { s with facades := insert facade s.facades }
  | .leave facade =>
    some { s with
      facades := s.facades.erase facade
      held := s.held.filter fun h => h.2 ≠ facade }
  | .subscribe facade key =>
    match s.redial, s.live? with
    | .free, some c => some (s.goto (.subscribing c facade key))
    | _, _ => none
  | .subscribed acked =>
    match s.redial with
    | .subscribing c facade key =>
      let t := s.goto .free
      some (if acked then
        let t := t.setConn c { s.conns c with acked := insert key (s.conns c).acked }
        if facade ∈ s.facades then t.hold facade key else t
      else t)
    | _ => none
  | .release facade key =>
    match s.redial, s.live? with
    | .free, some c => some (s.release c facade key)
    | _, _ => none
  | .releaseOrder facade =>
    match s.redial, s.live? with
    | .free, some c => some (s.releaseOrder c facade)
    | _, _ => none
  | .released ok =>
    match s.redial with
    | .releasing _ facade had =>
      let t := s.goto .free
      some (if ok then t else had.foldl (fun t key => t.hold facade key) t)
    | _ => none
  | .allowRecovery => some { s with failed := false }
  | .dial =>
    if s.redial = .free ∧ s.failed = false ∧ s.live? = none ∧ s.recovering = false then
      some (s.goto (.dialing false 0))
    else none
  | .recover =>
    if s.redial = .free ∧ 0 < s.spawned then
      some { s with spawned := s.spawned - 1, redial := .pausing 0 }
    else none
  | .retry =>
    match s.redial with
    | .pausing n => if n < attempts then some (s.goto (.dialing true (n + 1))) else none
    | _ => none
  | .giveUp => s.giveUp
  | .connected =>
    match s.redial with
    | .dialing auto n =>
      some { s.setConn s.nextConnId { reading := true } with
        nextConnId := s.nextConnId + 1
        redial := .connected auto n s.nextConnId }
    | _ => none
  | .publish =>
    match s.redial with
    | .connected auto n c => some (s.publish auto n c)
    | _ => none
  | .snapshot keys =>
    match s.redial with
    | .published auto n c => s.snapshot auto n c keys
    | _ => none
  | .flightFailed =>
    match s.redial with
    | .dialing auto n | .joining auto n _ _ | .awaiting auto n _ _ _ => some (s.takeConn auto n)
    | _ => none
  | .join =>
    match s.redial with
    | .joining auto n c todo => some (s.join auto n c todo)
    | _ => none
  | .joinAcked =>
    match s.redial with
    | .awaiting auto n c key todo =>
      some ((s.setConn c { s.conns c with acked := insert key (s.conns c).acked }).goto
        (.joining auto n c todo))
    | _ => none
  | .finish => s.finish
  | .intend =>
    match s.redial with
    | .intending auto n c => some (s.intend auto n c)
    | _ => none
  | .shutDown =>
    match s.redial with
    | .closing auto n c => some (s.shutDown auto n c)
    | _ => none
  | .frame c f =>
    if c < s.nextConnId ∧ (s.conns c).reading ∧ (s.conns c).reader = .waiting then some (s.frame c f)
    else none
  | .read c => if c < s.nextConnId then s.read c else none
  | .lost c =>
    if c < s.nextConnId ∧ (s.conns c).reading ∧ (s.conns c).reader = .waiting then
      some (s.setConn c { s.conns c with closed := true, reading := false })
    else none
  | .broken c => if c < s.nextConnId then some (s.close c) else none
  | .report c =>
    if c < s.nextConnId ∧ (s.conns c).closed ∧ (s.conns c).intentional = false ∧
        (s.conns c).loss = .unreported then
      some (s.setLoss c .primed)
    else none
  | .lossStep c => if c < s.nextConnId then s.lossStep attempts c else none

end State

def machine (attempts : Nat) : Machine State Event where
  Start s := s = {}
  step := State.step attempts

/-- The steps of the facades, with what each of them found. -/
inductive Intending (s : State) : Event → State → Prop
  | register {facade : Nat} :
      Intending s (.register facade) { s with facades := insert facade s.facades }
  | leave {facade : Nat} :
      Intending s (.leave facade)
        { s with
          facades := s.facades.erase facade
          held := s.held.filter fun h => h.2 ≠ facade }
  | subscribe {c facade : Nat} {key : IntentKey} : s.redial = .free → s.live? = some c →
      Intending s (.subscribe facade key) (s.goto (.subscribing c facade key))
  | subscribed {c facade : Nat} {key : IntentKey} {acked : Bool} :
      s.redial = .subscribing c facade key →
      Intending s (.subscribed acked)
        (if acked then
          let t := (s.goto .free).setConn c
            { s.conns c with acked := insert key (s.conns c).acked }
          if facade ∈ s.facades then t.hold facade key else t
        else s.goto .free)
  | release {c facade : Nat} {key : IntentKey} : s.redial = .free → s.live? = some c →
      Intending s (.release facade key) (s.release c facade key)
  | releaseOrder {c facade : Nat} : s.redial = .free → s.live? = some c →
      Intending s (.releaseOrder facade) (s.releaseOrder c facade)
  | released {c facade : Nat} {had : List IntentKey} {ok : Bool} :
      s.redial = .releasing c facade had →
      Intending s (.released ok)
        (if ok then s.goto .free
        else had.foldl (fun t key => t.hold facade key) (s.goto .free))
  | allowRecovery : Intending s .allowRecovery { s with failed := false }

/-- What a flight does that waits or only looks: it goes on to another place and leaves the
connections alone. -/
inductive Onward (s : State) : Redial → Prop
  | dial : s.redial = .free → Onward s (.dialing false 0)
  | retry {n : Nat} : s.redial = .pausing n → Onward s (.dialing true (n + 1))
  | reporting {n : Nat} : s.redial = .failing n → Onward s (.reporting n s.generation)
  | snapshot {auto : Bool} {n c : Nat} {keys : List IntentKey} : s.redial = .published auto n c →
      keys.toFinset = s.heldKeys → Onward s (.joining auto n c keys)
  | passed {auto : Bool} {n c : Nat} {key : IntentKey} {todo : List IntentKey} :
      s.redial = .joining auto n c (key :: todo) → key ∉ s.heldKeys →
      Onward s (.joining auto n c todo)
  | awaiting {auto : Bool} {n c : Nat} {key : IntentKey} {todo : List IntentKey} :
      s.redial = .joining auto n c (key :: todo) → Onward s (.awaiting auto n c key todo)
  | joined {auto : Bool} {n c : Nat} : s.redial = .joining auto n c [] →
      Onward s (.joined auto n c)
  | refused {auto : Bool} {n c : Nat} :
      (s.redial = .joined auto n c ∨ s.redial = .attaching auto n c .look) →
      Onward s (if auto then .intending auto n (some c) else .free)
  | look {auto : Bool} {n c : Nat} : s.redial = .joined auto n c →
      Onward s (.attaching auto n c .look)
  | join {auto : Bool} {n c : Nat} : s.redial = .attaching auto n c .look →
      (s.conns c).closed = false → Onward s (.attaching auto n c .join)
  | measure {auto : Bool} {n c : Nat} : s.redial = .attaching auto n c .measure →
      Onward s (.attaching auto n c (if s.generation = 0 then .first else .count))
  | unintended {auto : Bool} {n : Nat} : s.redial = .intending auto n none →
      Onward s (.closing auto n none)
  | unclosed {auto : Bool} {n : Nat} : s.redial = .closing auto n none →
      Onward s (if auto then .pausing n else .free)

/-- The steps of a reader over a frame it has taken. -/
inductive Reading (s : State) (c : Nat) : State → Prop
  | interrupting : (s.conns c).reader = .interrupting →
      Reading s c (s.setReader c (.warning s.generation))
  | warning {generation : Nat} : (s.conns c).reader = .warning generation →
      Reading s c ((s.setReader c .waiting).interrupted generation "parent plant interrupted")
  | resuming : (s.conns c).reader = .resuming →
      Reading s c (s.setReader c (if s.recovering then .waiting else .counting))
  | counting : (s.conns c).reader = .counting →
      Reading s c (s.setReader c (.announcing (s.generation + 1))).count
  | announcing {generation : Nat} : (s.conns c).reader = .announcing generation →
      Reading s c ((s.setReader c .waiting).resumed generation)

/-- The steps of the report of a loss. -/
inductive Losing (attempts : Nat) (s : State) (c : Nat) : State → Prop
  | claim : (s.conns c).loss = .primed → Losing attempts s c (s.setLoss c .claimed)
  | current : (s.conns c).loss = .claimed → s.redial.isAttaching = false → s.conn = some c →
      Losing attempts s c (s.setLoss c .current)
  | replaced : (s.conns c).loss = .claimed → s.redial.isAttaching = false → s.conn ≠ some c →
      Losing attempts s c (s.setLoss c .done)
  | joined : (s.conns c).loss = .current → s.recovering = true →
      Losing attempts s c (s.setLoss c .done)
  | mark : (s.conns c).loss = .current →
      Losing attempts s c { s.setLoss c .marked with recovering := true }
  | marked : (s.conns c).loss = .marked → Losing attempts s c (s.setLoss c (.warning s.generation))
  | warning {generation : Nat} : (s.conns c).loss = .warning generation →
      Losing attempts s c ((s.setLoss c .starting).interrupted generation "socket lost")
  | starting : (s.conns c).loss = .starting →
      Losing attempts s c ((s.setLoss c .done).startRecovery attempts)

/-- The steps, with what each of them found. -/
inductive Step (attempts : Nat) (s : State) : Event → State → Prop
  | intent {e : Event} {t : State} : Intending s e t → Step attempts s e t
  | onward {e : Event} {r : Redial} : Onward s r → Step attempts s e (s.goto r)
  | recover : s.redial = .free →
      Step attempts s .recover { s with spawned := s.spawned - 1, redial := .pausing 0 }
  | fail {n : Nat} : s.redial = .pausing n →
      Step attempts s .giveUp { s with failed := true, redial := .failing n }
  | failed {n generation : Nat} : s.redial = .reporting n generation →
      Step attempts s .giveUp
        { s with sent := s.sent ++ [SessionEvent.recoveryFailed generation n], redial := .clearing }
  | clear : s.redial = .clearing →
      Step attempts s .giveUp { s with recovering := false, redial := .free }
  | connected {auto : Bool} {n : Nat} : s.redial = .dialing auto n →
      Step attempts s .connected
        { s.setConn s.nextConnId { reading := true } with
          nextConnId := s.nextConnId + 1
          redial := .connected auto n s.nextConnId }
  | publish {auto : Bool} {n c : Nat} : s.redial = .connected auto n c →
      Step attempts s .publish (s.publish auto n c)
  | undialed {auto : Bool} {n : Nat} : s.redial = .dialing auto n →
      Step attempts s .flightFailed (s.takeConn auto n)
  | unjoined {e : Event} {auto : Bool} {n c : Nat} {todo : List IntentKey} :
      (s.redial = .joining auto n c todo ∨
        ∃ key rest, todo = key :: rest ∧ s.redial = .awaiting auto n c key rest) →
      Step attempts s e (s.takeConn auto n)
  | joinAcked {auto : Bool} {n c : Nat} {key : IntentKey} {todo : List IntentKey} :
      s.redial = .awaiting auto n c key todo →
      Step attempts s .joinAcked
        ((s.setConn c { s.conns c with acked := insert key (s.conns c).acked }).goto
          (.joining auto n c todo))
  | attach {auto : Bool} {n c : Nat} {next : Attach} : s.redial = .attaching auto n c next →
      next ≠ .look → next ≠ .measure → Step attempts s .finish (s.attach auto n c next)
  | intend {auto : Bool} {n c : Nat} : s.redial = .intending auto n (some c) →
      Step attempts s .intend (s.intend auto n (some c))
  | shutDown {auto : Bool} {n c : Nat} : s.redial = .closing auto n (some c) →
      Step attempts s .shutDown (s.shutDown auto n (some c))
  | frame {c : Nat} {f : Lifecycle} : c < s.nextConnId → (s.conns c).reader = .waiting →
      Step attempts s (.frame c f) (s.frame c f)
  | read {c : Nat} {t : State} : c < s.nextConnId → Reading s c t → Step attempts s (.read c) t
  | lost {c : Nat} : c < s.nextConnId →
      Step attempts s (.lost c) (s.setConn c { s.conns c with closed := true, reading := false })
  | broken {c : Nat} : c < s.nextConnId → Step attempts s (.broken c) (s.close c)
  | report {c : Nat} : c < s.nextConnId → (s.conns c).closed = true →
      (s.conns c).loss = .unreported → Step attempts s (.report c) (s.setLoss c .primed)
  | lossStep {c : Nat} {t : State} : c < s.nextConnId → Losing attempts s c t →
      Step attempts s (.lossStep c) t

section Cases

variable {attempts : Nat} {s t : State}

theorem reading_cases {c : Nat} (h : s.read c = some t) : Reading s c t := by
  unfold State.read at h
  split at h <;> cases h
  · next hr => exact .interrupting hr
  · next hr => exact .warning hr
  · next hr => exact .resuming hr
  · next hr => exact .counting hr
  · next hr => exact .announcing hr

theorem losing_cases {c : Nat} (h : s.lossStep attempts c = some t) : Losing attempts s c t := by
  unfold State.lossStep at h
  split at h
  · cases h
  · cases h
  · next hl =>
    cases h
    exact .claim hl
  · next hl =>
    split at h
    · cases h
    · next hfree =>
      have hfree : s.redial.isAttaching = false := by simpa using hfree
      cases h
      split
      · next hconn => exact .current hl hfree hconn
      · next hconn => exact .replaced hl hfree hconn
  · next hl =>
    cases h
    split
    · next hrec => exact .joined hl hrec
    · exact .mark hl
  · next hl =>
    cases h
    exact .marked hl
  · next hl =>
    cases h
    exact .warning hl
  · next hl =>
    cases h
    exact .starting hl

theorem join_cases {auto : Bool} {n c : Nat} {todo : List IntentKey}
    (hr : s.redial = .joining auto n c todo) : Step attempts s .join (s.join auto n c todo) := by
  cases todo with
  | nil =>
    simp only [State.join]
    split
    · exact .unjoined (.inl hr)
    · exact .onward (.joined hr)
  | cons key todo =>
    simp only [State.join]
    split
    · exact .onward (.awaiting hr)
    · next hout => exact .onward (.passed hr hout)

theorem finish_cases (h : s.finish = some t) : Step attempts s .finish t := by
  unfold State.finish at h
  split at h
  · next hr =>
    cases h
    split
    · exact .onward (.refused (.inl hr))
    · exact .onward (.look hr)
  · next auto n c next hr =>
    cases h
    by_cases hlook : next = .look
    · subst hlook
      simp only [State.attach]
      split
      · exact .onward (.refused (.inr hr))
      · next hopen => exact .onward (.join hr (by simpa using hopen))
    · by_cases hmeasure : next = .measure
      · subst hmeasure
        exact .onward (.measure hr)
      · exact .attach hr hlook hmeasure
  · cases h

theorem giveUp_cases (h : s.giveUp = some t) : Step attempts s .giveUp t := by
  unfold State.giveUp at h
  split at h <;> cases h
  · next hr => exact .fail hr
  · next hr => exact .onward (.reporting hr)
  · next hr => exact .failed hr
  · next hr => exact .clear hr

theorem step_cases {e : Event} (h : s.step attempts e = some t) : Step attempts s e t := by
  cases e with
  | register facade =>
    cases h
    exact .intent .register
  | leave facade =>
    cases h
    exact .intent .leave
  | subscribe facade key =>
    simp only [State.step] at h
    split at h <;> cases h
    next hr hlive => exact .intent (.subscribe hr hlive)
  | subscribed acked =>
    simp only [State.step] at h
    split at h <;> cases h
    next hr => exact .intent (.subscribed hr)
  | release facade key =>
    simp only [State.step] at h
    split at h <;> cases h
    next hr hlive => exact .intent (.release hr hlive)
  | releaseOrder facade =>
    simp only [State.step] at h
    split at h <;> cases h
    next hr hlive => exact .intent (.releaseOrder hr hlive)
  | released ok =>
    simp only [State.step] at h
    split at h <;> cases h
    next hr => exact .intent (.released hr)
  | allowRecovery =>
    cases h
    exact .intent .allowRecovery
  | dial =>
    simp only [State.step] at h
    split at h <;> cases h
    next hcan => exact .onward (.dial hcan.1)
  | recover =>
    simp only [State.step] at h
    split at h <;> cases h
    next hcan => exact .recover hcan.1
  | retry =>
    simp only [State.step] at h
    split at h
    · next hr =>
      split at h <;> cases h
      exact .onward (.retry hr)
    · cases h
  | giveUp => exact giveUp_cases h
  | connected =>
    simp only [State.step] at h
    split at h <;> cases h
    next hr => exact .connected hr
  | publish =>
    simp only [State.step] at h
    split at h <;> cases h
    next hr => exact .publish hr
  | snapshot keys =>
    simp only [State.step] at h
    split at h
    · next hr =>
      unfold State.snapshot at h
      split at h <;> cases h
      next hkeys => exact .onward (.snapshot hr hkeys.1)
    · cases h
  | flightFailed =>
    simp only [State.step] at h
    split at h <;> cases h
    · next hr => exact .undialed hr
    · next hr => exact .unjoined (.inl hr)
    · next hr => exact .unjoined (.inr ⟨_, _, rfl, hr⟩)
  | join =>
    simp only [State.step] at h
    split at h <;> cases h
    next hr => exact join_cases hr
  | joinAcked =>
    simp only [State.step] at h
    split at h <;> cases h
    next hr => exact .joinAcked hr
  | finish => exact finish_cases h
  | intend =>
    simp only [State.step] at h
    split at h <;> cases h
    next c hr =>
      cases c with
      | none => exact .onward (.unintended hr)
      | some c => exact .intend hr
  | shutDown =>
    simp only [State.step] at h
    split at h <;> cases h
    next c hr =>
      cases c with
      | none => exact .onward (.unclosed hr)
      | some c => exact .shutDown hr
  | frame c f =>
    simp only [State.step] at h
    split at h <;> cases h
    next hcan => exact .frame hcan.1 hcan.2.2
  | read c =>
    simp only [State.step] at h
    split at h
    · next hc => exact .read hc (reading_cases h)
    · cases h
  | lost c =>
    simp only [State.step] at h
    split at h <;> cases h
    next hcan => exact .lost hcan.1
  | broken c =>
    simp only [State.step] at h
    split at h <;> cases h
    next hc => exact .broken hc
  | report c =>
    simp only [State.step] at h
    split at h <;> cases h
    next hcan => exact .report hcan.1 hcan.2.1 hcan.2.2.2
  | lossStep c =>
    simp only [State.step] at h
    split at h
    · next hc => exact .lossStep hc (losing_cases h)
    · cases h

end Cases

/-- The client is attached: the published connection is joined and open, every held intent was
acknowledged on it, and the parent's last lifecycle frame on it is not an interruption.  A loss or an
interruption counts once its `Interrupted` is sent; the closed connection may also be one whose loss
has joined another report that is about to send it. -/
structure Attached (s : State) (c : Nat) : Prop where
  conn : s.conn = some c
  joined : (s.conns c).joined = true
  acked : ∀ key ∈ s.heldKeys, key ∈ (s.conns c).acked
  frame : (s.conns c).Quiet
  opened : (s.conns c).closed = false ∨
    ((s.conns c).intentional = false ∧ (s.conns c).loss.settled = false) ∨
    ∃ d, (s.conns d).loss.isMarked = true

/-- The generations that were announced, in order. -/
def announced (sent : List SessionEvent) : List Nat :=
  sent.filterMap fun
    | .resumed generation => some generation
    | _ => none

/-- What was announced, with what is counted and still to be announced, counts up by one each time to
the generation; `base` is 1 once a first attach has set the generation. -/
def Counted (s : State) : Prop :=
  ∃ base ≤ 1, announced s.sent ++ s.counted =
      List.range' (base + 1) (announced s.sent ++ s.counted).length ∧
    s.generation = base + (announced s.sent ++ s.counted).length

/-- What the facades may rely on after a `Resumed`. -/
def Sound (s : State) : Prop :=
  (∀ generation, s.sent.getLast? = some (.resumed generation) → ∃ c, Attached s c) ∧ Counted s

/-- If the published connection is a joined one, the report of its loss has sent its `Interrupted` or
needed none, and no report is about to send one. -/
def Settled (s : State) : Prop :=
  ∀ c ∈ s.conn, (s.conns c).joined = true → (s.conns c).loss.settled = true ∧
    ∀ d < s.nextConnId, (s.conns d).loss.isMarked = false

instance (s : State) : Decidable (Settled s) :=
  inferInstanceAs (Decidable (∀ c ∈ s.conn, (s.conns c).joined = true →
    (s.conns c).loss.settled = true ∧ ∀ d < s.nextConnId, (s.conns d).loss.isMarked = false))

/-- `finish_attach` counts while no other `Resumed` is counted and unsent, and sends its own while no
loss has set `recovering` again and the parent has not interrupted its connection. -/
def Redial.InOrder (s : State) : Redial → Prop
  | .attaching _ _ _ .count => s.counted = []
  | .attaching _ _ c (.announce _) => s.recovering = false ∧ (s.conns c).Quiet
  | _ => True

/-- A reader counts while no other `Resumed` is counted and unsent and no first attach is about to set
the generation, and sends its own while no recovery runs and its connection is the attached one. -/
def Reader.InOrder (s : State) (c : Nat) : Reader → Prop
  | .counting => s.counted = [] ∧ s.redial.isFirst = false
  | .announcing _ => s.recovering = false ∧ s.live? = some c
  | _ => True

/-- The conditions on the steps: of `finish_attach` and of the readers as above, and a flight replaces a
joined connection, or takes it down after it failed to dial, only with its loss settled. -/
def InOrder (s : State) : Event → Prop
  | .publish => Settled s
  | .flightFailed => s.redial.isDialing = true → Settled s
  | .finish => s.redial.InOrder s
  | .read c => (s.conns c).reader.InOrder s c
  | _ => True

instance (s : State) (r : Redial) : Decidable (r.InOrder s) := by
  unfold Redial.InOrder
  split <;> infer_instance

instance (s : State) (c : Nat) (r : Reader) : Decidable (r.InOrder s c) := by
  unfold Reader.InOrder
  split <;> infer_instance

instance (s : State) (e : Event) : Decidable (InOrder s e) := by
  unfold InOrder
  split <;> infer_instance

end RithmicNt.Gateway.Runtime
