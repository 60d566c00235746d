import RithmicNt.Lib.Machine
import RithmicNt.Adapter.Pnl

/-! The PnL stream around the client: the venue pushes rows into the session queue, polls in worker
threads take them out, the poller dispatches what a poll returns, and re-arm barriers wait for an
observation.  A step is one push, one move of a poll, one loop callback up to its next await, or a
move of the clock. -/

namespace RithmicNt.Adapter.Pnl

open RithmicNt.Lib RithmicNt.Exec

/-- A call of `next_events`.  It notes the epoch when it starts and returns what it has taken. -/
structure Poll where
  id : Nat
  epoch : Nat
  stream : Nat
  batch : Option (List Delivery) := none

/-- Where a barrier is: before the PnL gate, waiting in it, or woken by the row that was pushed
then. -/
inductive Wait
  | pending
  | waiting
  | woken (pushed : Nat)
  deriving DecidableEq, Repr

/-- A re-arm barrier that a `Resumed` or an order gap started. -/
structure Barrier where
  id : Nat
  start : Nat
  wait : Wait := .pending
  deriving DecidableEq, Repr

/-- The client and what moves around it.  The last three fields are a record: the number of the
current stream, the position rows that `next_events` returned on it, and the start of the barrier
that the last step let through the gate, with the push of the row that let it through. -/
structure State where
  client : Client := {}
  now : Nat := 0
  queue : List Delivery := []
  polls : List Poll := []
  nextPoll : Nat := 0
  barriers : List Barrier := []
  nextBarrier : Nat := 0
  stream : Nat := 0
  returned : List InstrumentPnl := []
  passed : Option (Nat × Nat) := none

inductive Event
  | push (delivery : Delivery)
  | pollStart
  /-- A poll takes the first `n` rows of the queue. -/
  | dequeue (i n : Nat)
  /-- The poller gets the batch of a poll and dispatches it. -/
  | dispatch (i : Nat)
  | pollEnds (i : Nat) (resync : Bool)
  | connect
  | restore (enableTrading : Bool)
  | orderGap
  | awaitPnl (i : Nat)
  | resume (i : Nat)
  | abort (i : Nat)
  /-- Another path of the client seeds the account. -/
  | seedAccount (hint : Option String) (publishes : Bool)
  | massStatus (cache : PositionCache)
  | advance (d : Nat)

namespace State

def poll? (s : State) (i : Nat) : Option Poll := s.polls.find? (·.id == i)

def barrier? (s : State) (i : Nat) : Option Barrier := s.barriers.find? (·.id == i)

def dropPoll (s : State) (i : Nat) : State :=
  { s with polls := s.polls.filter (·.id != i) }

def setBatch (s : State) (i : Nat) (batch : List Delivery) : State :=
  { s with polls := s.polls.map fun p => if p.id = i then { p with batch := some batch } else p }

def dropBarrier (s : State) (i : Nat) : State :=
  { s with barriers := s.barriers.filter (·.id != i) }

def setWait (s : State) (i : Nat) (wait : Wait) : State :=
  { s with barriers := s.barriers.map fun b => if b.id = i then { b with wait := wait } else b }

def addBarrier (s : State) : State :=
  { s with
    barriers := s.barriers ++ [{ id := s.nextBarrier, start := s.now }]
    nextBarrier := s.nextBarrier + 1 }

def newStream (s : State) (client : Client) : State :=
  { s with client := client, stream := s.stream + 1, returned := [] }

/-- `Event.set` wakes the barriers that wait for it; a later `clear` does not put them back. -/
def wake (barriers : List Barrier) (before after : Option Nat) : List Barrier :=
  match before, after with
  | none, some pushed =>
    barriers.map fun b => if b.wait = .waiting then { b with wait := .woken pushed } else b
  | _, _ => barriers

def positionRows (batch : List Delivery) : List InstrumentPnl :=
  batch.filterMap fun d => match d.row with
    | .instrument e => some e
    | _ => none

/-- The rest of an iteration of the poller, once it has the batch of a poll: `dispatch_current`
ignores the rows of an older epoch, and a gap ends in a resync whatever the epoch. -/
def dispatch (env : Env) (s : State) (p : Poll) (batch : List Delivery) : State :=
  let client :=
    if p.epoch = s.client.epoch then s.client.dispatchBatch env batch else s.client
  let returned :=
    if p.stream = s.stream then s.returned ++ positionRows batch else s.returned
  let barriers := wake s.barriers s.client.observed client.observed
  let s := { s with client := client, returned := returned, barriers := barriers }
  if batch.any (fun d => match d.row with | .gap _ => true | _ => false) then
    s.newStream s.client.resyncPnlSubscription
  else s

end State

/-- One step.  Steps are numbered from 1, and a push is stamped with its number. -/
def step (env : Env) (s : State) (event : Event) : Option State :=
  let s := { s with now := s.now + 1, passed := none }
  match event with
  | .push delivery => some { s with queue := s.queue ++ [{ delivery with pushed := s.now }] }
  | .pollStart => some { s with
      polls := s.polls ++ [{ id := s.nextPoll, epoch := s.client.epoch, stream := s.stream }]
      nextPoll := s.nextPoll + 1 }
  | .dequeue i n =>
    match s.poll? i with
    | some { batch := none, .. } =>
      some { s.setBatch i (s.queue.take n) with queue := s.queue.drop n }
    | _ => none
  | .dispatch i =>
    match s.poll? i with
    | some p =>
      match p.batch with
      | some batch => some ((s.dropPoll i).dispatch env p batch)
      | none => none
    | none => none
  | .pollEnds i resync =>
    match s.poll? i with
    | none => none
    | some _ =>
      let s := s.dropPoll i
      if resync then some (s.newStream s.client.resyncPnlSubscription) else some s
  | .connect => some (s.newStream s.client.forgetPnlState)
  | .restore enableTrading =>
    let s := s.newStream s.client.forgetPnlState
    if enableTrading then some s.addBarrier else some s
  | .orderGap => some { s with client := s.client.recoverOrderGap }.addBarrier
  | .awaitPnl i =>
    match s.barrier? i with
    | some ⟨_, start, .pending⟩ =>
      match s.client.observed with
      | some pushed => some { s.dropBarrier i with passed := some (start, pushed) }
      | none => some (s.setWait i .waiting)
    | _ => none
  | .resume i =>
    match s.barrier? i with
    | some ⟨_, start, .woken pushed⟩ => some { s.dropBarrier i with passed := some (start, pushed) }
    | _ => none
  | .abort i =>
    match s.barrier? i with
    | some _ => some (s.dropBarrier i)
    | none => none
  | .seedAccount hint publishes =>
    let account := (s.client.account.seedIfNeeded env.accepts env.source hint publishes).1
    some { s with client := { s.client with account := account } }
  | .massStatus cache =>
    let id := (s.client.massStatusPositions env cache).2
    let account := { s.client.account with id := id }
    some { s with client := { s.client with account := account, clock := s.client.clock + 1 } }
  | .advance d => some { s with client := { s.client with clock := s.client.clock + d } }

def machine (env : Env) : Machine State Event where
  Start s := s = {}
  step := step env

/-- Everything that a step can do, from the state that has the number of the step. -/
inductive Step (env : Env) (s : State) : Event → State → Prop
  | push (d : Delivery) :
      Step env s (.push d) { s with queue := s.queue ++ [{ d with pushed := s.now }] }
  | pollStart : Step env s .pollStart { s with
      polls := s.polls ++ [{ id := s.nextPoll, epoch := s.client.epoch, stream := s.stream }]
      nextPoll := s.nextPoll + 1 }
  | dequeue (i n : Nat) : Step env s (.dequeue i n)
      { s.setBatch i (s.queue.take n) with queue := s.queue.drop n }
  | dispatch {i : Nat} {p : Poll} {batch : List Delivery} (hp : s.poll? i = some p)
      (hbatch : p.batch = some batch) :
      Step env s (.dispatch i) ((s.dropPoll i).dispatch env p batch)
  | pollEnds (i : Nat) : Step env s (.pollEnds i false) (s.dropPoll i)
  | pollResyncs (i : Nat) : Step env s (.pollEnds i true)
      ((s.dropPoll i).newStream s.client.resyncPnlSubscription)
  | connect : Step env s .connect (s.newStream s.client.forgetPnlState)
  | restore : Step env s (.restore false) (s.newStream s.client.forgetPnlState)
  | restoreTrading : Step env s (.restore true) (s.newStream s.client.forgetPnlState).addBarrier
  | orderGap : Step env s .orderGap { s with client := s.client.recoverOrderGap }.addBarrier
  | passes {i start pushed : Nat} {b : Barrier} (hb : s.barrier? i = some b) (hstart : b.start = start)
      (hp : s.client.observed = some pushed) :
      Step env s (.awaitPnl i) { s.dropBarrier i with passed := some (start, pushed) }
  | waits (i : Nat) : Step env s (.awaitPnl i) (s.setWait i .waiting)
  | resumes {i start pushed : Nat} {b : Barrier} (hb : s.barrier? i = some b)
      (hstart : b.start = start) (hwait : b.wait = .woken pushed) :
      Step env s (.resume i) { s.dropBarrier i with passed := some (start, pushed) }
  | abort (i : Nat) : Step env s (.abort i) (s.dropBarrier i)
  | client {event : Event} {account : Account} {clock : Nat} (hclock : s.client.clock ≤ clock) :
      Step env s event { s with client := { s.client with account := account, clock := clock } }

theorem step_cases {env : Env} {s t : State} {event : Event} (h : step env s event = some t) :
    Step env { s with now := s.now + 1, passed := none } event t := by
  unfold step at h
  generalize ({ s with now := s.now + 1, passed := none } : State) = s' at h ⊢
  dsimp only at h
  cases event with
  | push d =>
    obtain rfl := Option.some.inj h
    exact .push d
  | pollStart =>
    obtain rfl := Option.some.inj h
    exact .pollStart
  | dequeue i n =>
    dsimp only at h
    split at h
    · obtain rfl := Option.some.inj h
      exact .dequeue i n
    · cases h
  | dispatch i =>
    dsimp only at h
    split at h
    · next p hp =>
      split at h
      · next batch hbatch =>
        obtain rfl := Option.some.inj h
        exact .dispatch hp hbatch
      · cases h
    · cases h
  | pollEnds i resync =>
    dsimp only at h
    split at h
    · cases h
    · cases resync with
      | false =>
        obtain rfl := Option.some.inj h
        exact .pollEnds i
      | true =>
        obtain rfl := Option.some.inj h
        exact .pollResyncs i
  | connect =>
    obtain rfl := Option.some.inj h
    exact .connect
  | restore trading =>
    cases trading with
    | false =>
      obtain rfl := Option.some.inj h
      exact .restore
    | true =>
      obtain rfl := Option.some.inj h
      exact .restoreTrading
  | orderGap =>
    obtain rfl := Option.some.inj h
    exact .orderGap
  | awaitPnl i =>
    dsimp only at h
    split at h
    · next id start hb =>
      split at h
      · next pushed hp =>
        obtain rfl := Option.some.inj h
        exact .passes hb rfl hp
      · obtain rfl := Option.some.inj h
        exact .waits i
    · cases h
  | resume i =>
    dsimp only at h
    split at h
    · next id start pushed hb =>
      obtain rfl := Option.some.inj h
      exact .resumes hb rfl rfl
    · cases h
  | abort i =>
    dsimp only at h
    split at h
    · obtain rfl := Option.some.inj h
      exact .abort i
    · cases h
  | seedAccount hint publishes =>
    obtain rfl := Option.some.inj h
    exact .client (Nat.le_refl _)
  | massStatus cache =>
    obtain rfl := Option.some.inj h
    exact .client (Nat.le_succ _)
  | advance d =>
    obtain rfl := Option.some.inj h
    exact .client (Nat.le_add_right _ _)

end RithmicNt.Adapter.Pnl
