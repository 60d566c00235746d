import RithmicNt.Host.Batches
import RithmicNt.Lib.Machine

/-! The publishers of a host beside its attachments.  Every look at a delivery, every load of a flag or
of the count of native sessions and every push is a step, and between any two of them attachments come,
subscribe, are claimed for a transport and go. -/

namespace RithmicNt.Host.Publishers

open RithmicNt.Lib RithmicNt.Host.Fanout RithmicNt.Host.Attachment RithmicNt.Host.Batches

variable {δ β : Type}

/-- How far a session has come with the calls that take it off the count of native sessions. -/
inductive Life
  | live
  /-- `take_events` has claimed the queues; the native flag is next. -/
  | claimed
  /-- It has swapped the flag; the count is next. -/
  | releasing
  /-- The drop of the session has closed the queues; the native flag is next. -/
  | closed
  | leaving
  | gone
  deriving DecidableEq, Repr

/-- A session holder has a reference to it. -/
def Life.isHeld (life : Life) : Bool := life = .live || life = .claimed || life = .releasing

structure Session where
  native : Bool
  life : Life := .live
  deriving DecidableEq, Repr

/-- An upgraded delivery, with its attachment. -/
abbrev Target := Nat × DeliveryTopic

/-- What is left of handing out a record: deliveries that are held already, others that are still to
be looked at, and the receivers of a topic. -/
inductive Pending
  | held (target : Target)
  | weak (r : Weak)
  | ring (key : SubKey)

/-- What consumers are looked for. -/
inductive Task (δ : Type)
  | batch (first : Event δ) (rest : List (Event δ))
  | event (event : Event δ)

/-- Where a publisher stands.  In all but the first two it holds the read guard of the topics. -/
inductive Phase (δ β : Type)
  | idle
  /-- A gap of a market-data stream waits for the guard. -/
  | gapping (fan : Fan δ β)
  /-- `held` is the first consumer that was found. -/
  | looking (task : Task δ) (kind : Kind) (held : Option Target) (rest : List Weak)
  /-- The only consumer is asked whether it is a transport. -/
  | asking (task : Task δ) (kind : Kind) (only : Target)
  | owning (first : Event δ) (rest : List (Event δ)) (only : Target)
  /-- The count of native sessions is loaded next. -/
  | making (kind : Kind) (event : Event δ) (pending : List Pending)
  /-- The count was 0. -/
  | encoding (kind : Kind) (event : Event δ) (pending : List Pending)
  | sharing (fan : Fan δ β) (pending : List Pending)

/-- `todo` are the events that are published one by one. -/
structure Publisher (δ β : Type) where
  todo : List (Event δ) := []
  phase : Phase δ β := .idle

/-- `readers` counts the read guards of the topics. -/
structure State (δ β : Type) where
  capacity : Nat
  hub : Hub δ β
  sessions : Dict Nat Session := .empty
  publishers : Nat → Publisher δ β := fun _ => {}
  readers : Nat := 0

inductive Act (δ β : Type)
  | publishPlantEvents (p : Nat) (events : List (Event δ))
  | publishPlantEvent (p : Nat) (event : Event δ)
  | advance (p : Nat)
  | attach (id : Nat) (native : Bool)
  | takeEvents (id : Nat)
  | swapNative (id : Nat)
  | nativeDetached (id : Nat)
  | drop (id : Nat)
  | close (id : Nat)
  | flush (id : Nat)
  | nextEvents (id : Nat) (stream : Stream) (max : Nat)
  | tryRecv (id : Nat)
  | addInterest (key : SubKey)
  | removeInterest (key : SubKey)
  | ensureDelivery (id : Nat) (key : SubKey)
  | syncKinds (id : Nat) (key : SubKey) (mask : UInt8)
  | dropDelivery (id : Nat) (key : SubKey)
  | releaseTopic (id : Nat) (key : SubKey)
  | subscribeReceiver (key : SubKey)
  | dropReceiver (key : SubKey)
  | setEncoder (encode : Event δ → β)

/-- The deliveries of a topic and its receivers, as `SubState::publish` goes through them. -/
def pendingOf (key : SubKey) (st : SubState) : List Pending := st.deliveries.map .weak ++ [.ring key]

namespace State

/-- A host with no session, with or without an encoder. -/
def start (capacity : Nat) (encoder : Option (Event δ → β)) : State δ β where
  capacity := capacity
  hub :=
    { net := {}
      nativeSessions := 0
      encoder := encoder
      channels := fun _ => none
      attachments := fun _ => .new capacity }

def setPublisher (s : State δ β) (p : Nat) (x : Publisher δ β) : State δ β :=
  { s with publishers := Function.update s.publishers p x }

def setSession (s : State δ β) (id : Nat) (x : Session) : State δ β :=
  { s with sessions := s.sessions.set id x }

def setDelivery (s : State δ β) (id : Nat) (d : Delivery δ β) : State δ β :=
  { s with hub := s.hub.setAttachment id d }

def setNet (s : State δ β) (net : Net) : State δ β := { s with hub := { s.hub with net } }

/-! ### Publishers -/

/-- The publisher goes on in `phase`, which holds the guard. -/
def goto (s : State δ β) (p : Nat) (phase : Phase δ β) : State δ β :=
  s.setPublisher p { s.publishers p with phase }

/-- The publisher takes the guard. -/
def enter (s : State δ β) (p : Nat) (phase : Phase δ β) : State δ β :=
  { s with readers := s.readers + 1 }.goto p phase

/-- The publisher lets the guard go. -/
def leave (s : State δ β) (p : Nat) : State δ β := { s with readers := s.readers - 1 }.goto p .idle

/-- A delivery as the iteration over `wanted` sees it at this moment. -/
def wanted (s : State δ β) (r : Weak) (kind : Kind) : Option Target :=
  (s.hub.net.upgrade r).bind fun topic =>
    if topic.wants (s.hub.net.wires r.session).cells kind then some (r.session, topic) else none

/-- `SubState::event`, or nothing where the topic is not there. -/
def event (s : State δ β) (p : Nat) (key : SubKey) (kind : Kind) (event : Event δ) : State δ β :=
  match s.hub.net.subs.get? key with
  | none => s
  | some st =>
    if s.hub.receiverCount key = 0 then s.enter p (.looking (.event event) kind none st.deliveries)
    else s.enter p (.making kind event (pendingOf key st))

/-- `publish_plant_event`: a gap of a market-data stream is a record before the guard is taken. -/
def publishPlantEvent (s : State δ β) (p : Nat) (event : Event δ) : State δ β :=
  let kind := if event.plant = .bracketUpdate then Kind.brackets else .any
  match routeOf event.plant with
  | .topic key kind => s.event p key kind event
  | .gap .ticker | .gap .history => s.goto p (.gapping (s.hub.fan .any event))
  | .pnl => s.event p pnlKey kind event
  | .order => s.event p orderKey kind event
  | .other => s.event p otherKey kind event
  | .gap stream => s.event p (gapKey stream) kind event

/-- `publish_plant_events`: the consumers of the first event's topic are looked at first. -/
def publishPlantEvents (s : State δ β) (p : Nat) (events : List (Event δ)) : State δ β :=
  let s := s.setPublisher p { todo := events }
  match events with
  | [] => s
  | first :: rest =>
    match routeOf first.plant with
    | .topic key kind =>
      match s.hub.net.subs.get? key with
      | none => s
      | some st =>
        if s.hub.receiverCount key = 0 then s.enter p (.looking (.batch first rest) kind none st.deliveries)
        else s
    | _ => s

/-- The search for consumers is over: `held` is the only one, if there is one. -/
def looked (s : State δ β) (p : Nat) (task : Task δ) (kind : Kind) (held : Option Target) : State δ β :=
  match held with
  | none => s.leave p
  | some only => s.goto p (.asking task kind only)

/-- A second consumer is found. -/
def multicast (s : State δ β) (p : Nat) (task : Task δ) (kind : Kind) (first second : Target)
    (rest : List Weak) : State δ β :=
  match task with
  | .batch .. => s.leave p
  | .event event => s.goto p (.making kind event (.held first :: .held second :: rest.map .weak))

def look (s : State δ β) (p : Nat) (task : Task δ) (kind : Kind) (held : Option Target) (r : Weak)
    (rest : List Weak) : State δ β :=
  match s.wanted r kind, held with
  | none, held => s.goto p (.looking task kind held rest)
  | some first, none => s.goto p (.looking task kind (some first) rest)
  | some second, some first => s.multicast p task kind first second rest

/-- The load of `is_transport`.  A batch that its consumer does not take whole is published event by
event. -/
def ask (s : State δ β) (p : Nat) (task : Task δ) (kind : Kind) (only : Target) : State δ β :=
  match task with
  | .batch first rest =>
    if !(s.hub.attachments only.1).transport &&
        (first :: rest).all fun event => routeOf event.plant = routeOf first.plant then
      (s.setPublisher p { todo := [] }).goto p (.owning first rest only)
    else s.leave p
  | .event event =>
    if (s.hub.attachments only.1).transport then s.goto p (.making kind event [.held only])
    else s.goto p (.owning event [] only)

/-- The first half of `fan`: the load of the count, which a gap does not need. -/
def make (s : State δ β) (p : Nat) (kind : Kind) (event : Event δ) (pending : List Pending) :
    State δ β :=
  if !event.plant.isGap && s.hub.nativeSessions = 0 then s.goto p (.encoding kind event pending)
  else s.goto p (.sharing (.native kind event) pending)

/-- The second half of `fan`: the encoder, where the host has one by now. -/
def encoded (s : State δ β) (kind : Kind) (event : Event δ) : Fan δ β :=
  match s.hub.encoder with
  | some encode => .encoded kind (encode event)
  | none => .native kind event

def share (s : State δ β) (fan : Fan δ β) : Pending → State δ β
  | .held target => { s with hub := s.hub.shared fan target }
  | .weak r =>
    match s.wanted r fan.kind with
    | none => s
    | some target => { s with hub := s.hub.shared fan target }
  | .ring key => { s with hub := s.hub.send key fan }

def advance (s : State δ β) (p : Nat) : Option (State δ β) :=
  match s.publishers p with
  | ⟨[], .idle⟩ => none
  | ⟨event :: todo, .idle⟩ => some ((s.setPublisher p { todo }).publishPlantEvent p event)
  | ⟨_, .gapping fan⟩ =>
    some (s.enter p (.sharing fan
      ((s.hub.net.subs.entries.filter fun e => !internal e.1.symbol).flatMap fun e =>
        pendingOf e.1 e.2)))
  | ⟨_, .looking task kind held []⟩ => some (s.looked p task kind held)
  | ⟨_, .looking task kind held (r :: rest)⟩ => some (s.look p task kind held r rest)
  | ⟨_, .asking task kind only⟩ => some (s.ask p task kind only)
  | ⟨_, .owning first rest only⟩ =>
    some ((s.setDelivery only.1
      ((s.hub.attachments only.1).push first.stream (.batch first rest))).leave p)
  | ⟨_, .making kind event pending⟩ => some (s.make p kind event pending)
  | ⟨_, .encoding kind event pending⟩ =>
    some (s.goto p (.sharing (s.encoded kind event) pending))
  | ⟨_, .sharing _ []⟩ => some (s.leave p)
  | ⟨_, .sharing fan (next :: pending)⟩ => some ((s.share fan next).goto p (.sharing fan pending))

/-! ### Sessions -/

/-- The count goes up before anything can be delivered to the session. -/
def attach (s : State δ β) (id : Nat) (native : Bool) : State δ β :=
  let d : Delivery δ β := if native then .new s.capacity else .newTransport s.capacity
  let count := s.hub.nativeSessions + if native then 1 else 0
  { s with
    hub := { s.hub.setAttachment id d with nativeSessions := count }
    sessions := s.sessions.set id { native } }

/-- `Delivery::take_events`; a claim that is refused changes nothing. -/
def takeEvents (s : State δ β) (id : Nat) (x : Session) : State δ β :=
  let d := s.hub.attachments id
  if d.nativeStarted || d.transport then s
  else (s.setDelivery id d.takeEvents).setSession id { x with life := .claimed }

def countDown (s : State δ β) : State δ β :=
  { s with hub := { s.hub with nativeSessions := s.hub.nativeSessions - 1 } }

/-- The swap of the native flag in `take_events` or in the drop. -/
def swapNative (s : State δ β) (id : Nat) (x : Session) : Option (State δ β) :=
  match x.life with
  | .claimed =>
    some (s.setSession id { native := false, life := if x.native then .releasing else .live })
  | .closed => some (s.setSession id { native := false, life := if x.native then .leaving else .gone })
  | _ => none

def nativeDetached (s : State δ β) (id : Nat) (x : Session) : Option (State δ β) :=
  match x.life with
  | .releasing => some (s.countDown.setSession id { x with life := .live })
  | .leaving => some (s.countDown.setSession id { x with life := .gone })
  | _ => none

/-- A call on the delivery of a session that somebody holds. -/
def onDelivery (s : State δ β) (id : Nat) (f : Delivery δ β → Option (Delivery δ β)) :
    Option (State δ β) :=
  (s.sessions.get? id).bind fun x =>
    if x.life.isHeld then (f (s.hub.attachments id)).map (s.setDelivery id) else none

/-- A change of the topics, which waits for the readers. -/
def write (s : State δ β) (net : Net) : Option (State δ β) :=
  if s.readers = 0 then some (s.setNet net) else none

/-- A native read that panics has no next state.  The receiver of a transport outlives its session. -/
def step (s : State δ β) : Act δ β → Option (State δ β)
  | .publishPlantEvents p events =>
    match s.publishers p with
    | ⟨[], .idle⟩ => some (s.publishPlantEvents p events)
    | _ => none
  | .publishPlantEvent p event =>
    match s.publishers p with
    | ⟨[], .idle⟩ => some (s.publishPlantEvent p event)
    | _ => none
  | .advance p => s.advance p
  | .attach id native => if (s.sessions.get? id).isSome then none else some (s.attach id native)
  | .takeEvents id =>
    (s.sessions.get? id).bind fun x => if x.life.isHeld then some (s.takeEvents id x) else none
  | .swapNative id => (s.sessions.get? id).bind fun x => s.swapNative id x
  | .nativeDetached id => (s.sessions.get? id).bind fun x => s.nativeDetached id x
  | .drop id =>
    (s.sessions.get? id).bind fun x =>
      if x.life = .live then
        some ((s.setDelivery id (s.hub.attachments id).close).setSession id { x with life := .closed })
      else none
  | .close id => s.onDelivery id fun d => some d.close
  | .flush id => s.onDelivery id fun d => some d.flush
  | .nextEvents id stream max => s.onDelivery id fun d => (d.nextEvents stream max).map Prod.snd
  | .tryRecv id =>
    let d := s.hub.attachments id
    if (s.sessions.get? id).isSome && d.transport then d.tryRecv.map fun r => s.setDelivery id r.2
    else none
  | .addInterest key => s.write (s.hub.net.addInterest key)
  | .removeInterest key => s.write (s.hub.net.removeInterest key)
  | .ensureDelivery id key =>
    (s.sessions.get? id).bind fun x =>
      if x.life.isHeld then s.write (s.hub.net.ensureDelivery id key) else none
  | .syncKinds id key mask =>
    some (s.setNet (s.hub.net.setWires id ((s.hub.net.wires id).syncKinds key mask)))
  | .dropDelivery id key =>
    some (s.setNet (s.hub.net.setWires id ((s.hub.net.wires id).dropDelivery key)))
  | .releaseTopic id key =>
    some (s.setNet (s.hub.net.setWires id ((s.hub.net.wires id).release key)))
  | .subscribeReceiver key =>
    match s.hub.net.subs.get? key with
    | none => none
    | some _ =>
      let c := (s.hub.channels key).getD { receivers := 0 }
      some { s with hub := { s.hub with
        channels := Function.update s.hub.channels key (some { c with receivers := c.receivers + 1 }) } }
  | .dropReceiver key =>
    (s.hub.channels key).map fun c =>
      { s with hub := { s.hub with
        channels := Function.update s.hub.channels key (some { c with receivers := c.receivers - 1 }) } }
  | .setEncoder encode =>
    if s.hub.encoder.isSome then none else some { s with hub := { s.hub with encoder := some encode } }

end State

def machine : Machine (State δ β) (Act δ β) where
  Start s := ∃ capacity encoder, s = .start capacity encoder
  step := State.step

end RithmicNt.Host.Publishers
