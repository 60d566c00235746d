import RithmicNt.Host.Session

/-! The subscription operations of one session, run to completion: hub interest, typed intents, the
venue call and what a failed call rolls back. -/

namespace RithmicNt.Host

open RithmicNt.Lib

/-- The host state and the session's context, as an operation passes them along. -/
structure Scope where
  state : HostState
  client : SessionCtx

/-- How the venue answers each call that one operation can make, and what the pump has left in the
ready flag by the time the operation has the venue lock. -/
structure Answers where
  ready : Bool := true
  join : Except Error Unit := .ok ()
  refreshBook : Except Error Unit := .ok ()
  leave : Except Error Unit := .ok ()
  pnlSnapshot : Except Error Unit := .ok ()
  ensurePnlPlant : Except Error Unit := .ok ()
  subscribePnl : Except Error Unit := .ok ()
  disconnectPnlPlant : Except Error Unit := .ok ()
  subscribeOrderUpdates : Except Error Unit := .ok ()
  subscribeBracketUpdates : Except Error Unit := .ok ()
  disconnectOrderPlant : Except Error Unit := .ok ()

namespace Scope

def lockVenue (s : Scope) (a : Answers) : Scope :=
  { s with state := { s.state with ready := a.ready } }

def note (s : Scope) (i : Intent) : Scope :=
  { s with state := { s.state with store := (s.state.store.note i).1 } }

def forget (s : Scope) (i : Intent) : Scope :=
  { s with state := { s.state with store := (s.state.store.forget i).1 } }

def markDegraded (s : Scope) (i : MdIntent) : Scope :=
  { s with state := { s.state with store := s.state.store.markDegraded i } }

def clearDegraded (s : Scope) (i : MdIntent) : Scope :=
  { s with state := { s.state with store := s.state.store.clearDegraded i } }

def addInterest (s : Scope) (key : SubKey) : Scope :=
  { s with state := { s.state with hub := (s.state.hub.bump key).1 } }

def removeInterest (s : Scope) (key : SubKey) : Scope :=
  { s with state := { s.state with hub := (s.state.hub.drop key).1 } }

def insert (s : Scope) (i : MdIntent) : Scope := { s with client := s.client.insert i }

def remove (s : Scope) (i : MdIntent) : Scope := { s with client := s.client.remove i }

def dropDelivery (s : Scope) (key : SubKey) : Scope := { s with client := s.client.dropDelivery key }

def setPnl (s : Scope) (b : Bool) : Scope := { s with client := { s.client with pnl := b } }

def setOrder (s : Scope) (b : Bool) : Scope := { s with client := { s.client with order := b } }

def setBrackets (s : Scope) (b : Bool) : Scope :=
  { s with client := { s.client with brackets := b }.syncKinds orderKey }

end Scope

abbrev Reply := Scope × Except Error Unit

/-- Whether the session was on the topic already is read by the caller, before. -/
def attachSharedTopic (s : Scope) (key : SubKey) : Scope :=
  let s := if key ∈ s.client.subscribed then s else s.addInterest key
  { s with client := s.client.ensureDelivery s.state.hub key }

def rollbackSharedTopic (s : Scope) (key : SubKey) (hadDelivery : Bool) : Scope :=
  if hadDelivery then s else (s.dropDelivery key).removeInterest key

def releaseMdIfUnused (s : Scope) (key : SubKey) : Scope :=
  if s.client.wantsMd key then s else (s.dropDelivery key).removeInterest key

def subscribeFailedCode : MdIntent → String
  | .ticker _ => "subscribe_failed"
  | .book _ => "subscribe_book_failed"
  | .timeBars _ => "subscribe_time_bars_failed"

def unsubscribeFailedCode : MdIntent → String
  | .ticker _ => "unsubscribe_failed"
  | .book _ => "unsubscribe_book_failed"
  | .timeBars _ => "unsubscribe_time_bars_failed"

def isBook : MdIntent → Bool
  | .book _ => true
  | _ => false

/-- The join of a degraded intent on behalf of a session that holds it. -/
def rejoinDegraded (a : Answers) (i : MdIntent) (s : Scope) : Reply :=
  if !s.state.store.isDegraded i then (s, .ok ())
  else if !s.state.session then (s, .error noVenue)
  else
    let s := s.lockVenue a
    match s.state.checkReady with
    | .error e => (s, .error e)
    | .ok () =>
      match (if isBook i then a.refreshBook else a.join) with
      | .ok () => (s.clearDegraded i, .ok ())
      | .error e => (s, .error (codedError (subscribeFailedCode i) e))

/-- A repeated subscribe of a book asks the venue for a fresh snapshot. -/
def refreshHeld (a : Answers) (i : MdIntent) (s : Scope) : Reply :=
  if !isBook i then (s, .ok ())
  else if !s.state.session then (s, .error noVenue)
  else
    let s := s.lockVenue a
    match s.state.checkReady with
    | .error e => (s, .error e)
    | .ok () =>
      match a.refreshBook with
      | .ok () => (s, .ok ())
      | .error e => (s.markDegraded i, .error (codedError (subscribeFailedCode i) e))

def rollbackSubscribe (s : Scope) (i : MdIntent) (hadDelivery : Bool) : Scope :=
  rollbackSharedTopic ((s.remove i).forget (.md i)) i.key hadDelivery

/-- The venue's part of a subscribe: the join of the first holder, of a degraded intent, and the
snapshot of a later holder of a book. -/
def joinNoted (a : Answers) (i : MdIntent) (s : Scope) (isFirst hadDelivery : Bool) : Reply :=
  let degraded := !isFirst && s.state.store.isDegraded i
  let refresh := !isFirst && isBook i
  if isFirst || degraded || refresh then
    if !s.state.session then (rollbackSubscribe s i hadDelivery, .error noVenue)
    else
      let s := s.lockVenue a
      let joined : Except Error Unit := match s.state.checkReady with
        | .error e => .error e
        | .ok () => if refresh then a.refreshBook else a.join
      match joined with
      | .ok () => (if degraded then s.clearDegraded i else s, .ok ())
      | .error e =>
        let s := if refresh then s.markDegraded i else s
        (rollbackSubscribe s i hadDelivery, .error (codedError (subscribeFailedCode i) e))
  else (s, .ok ())

def subscribeTopic (a : Answers) (i : MdIntent) (s : Scope) : Reply :=
  if s.client.has i then
    if s.state.store.isDegraded i then rejoinDegraded a i s else refreshHeld a i s
  else
    let hadDelivery := i.key ∈ s.client.subscribed
    let s := attachSharedTopic s i.key
    let isFirst := (s.state.store.note (.md i)).2
    joinNoted a i ((s.note (.md i)).insert i) isFirst hadDelivery

def unsubscribeTopic (a : Answers) (i : MdIntent) (s : Scope) : Reply :=
  if !s.client.has i then (s, .ok ())
  else
    let last := (s.state.store.forget (.md i)).2
    let left := (s.remove i).forget (.md i)
    if last && s.state.session then
      match a.leave with
      | .ok () => (releaseMdIfUnused left i.key, .ok ())
      | .error e =>
        (((left.note (.md i)).insert i), .error (codedError (unsubscribeFailedCode i) e))
    else (releaseMdIfUnused left i.key, .ok ())

def joinPnl (a : Answers) (first : Bool) : Except Error Unit :=
  if first then
    match a.ensurePnlPlant with
    | .ok () => a.subscribePnl
    | .error e => .error e
  else a.pnlSnapshot

def subscribePnl (a : Answers) (s : Scope) : Reply :=
  if !s.state.session then (s, .error noVenue)
  else
    let s := s.lockVenue a
    match s.state.checkReady with
    | .error e => (s, .error e)
    | .ok () =>
      if s.client.pnl then (s, a.pnlSnapshot.mapError (codedError "subscribe_pnl_failed"))
      else
        let hadDelivery := pnlKey ∈ s.client.subscribed
        let s := attachSharedTopic s pnlKey
        let first := (s.state.store.note .pnl).2
        let s := (s.note .pnl).setPnl true
        match joinPnl a first with
        | .ok () => (s, .ok ())
        | .error e =>
          (rollbackSharedTopic ((s.setPnl false).forget .pnl) pnlKey hadDelivery,
            .error (codedError "subscribe_pnl_failed" e))

def leavePnl (a : Answers) (rollback : Bool) (s : Scope) : Scope × Except (String × Error) Unit :=
  if !s.client.pnl then (s, .ok ())
  else
    let last := (s.state.store.forget .pnl).2
    let s := (s.setPnl false).forget .pnl
    if last && s.state.session then
      match a.disconnectPnlPlant with
      | .ok () => (s, .ok ())
      | .error e =>
        (if rollback then (s.note .pnl).setPnl true else s, .error ("disconnect_pnl_failed", e))
    else (s, .ok ())

/-- The end of `disconnect_pnl` and of `disconnect_order`. -/
def releaseTopic (s : Scope) (key : SubKey) : Scope :=
  if key ∈ s.client.subscribed then (s.dropDelivery key).removeInterest key else s

def disconnectPnl (a : Answers) (s : Scope) : Reply :=
  match leavePnl a true s with
  | (s, .error (code, e)) => (s, .error (codedError code e))
  | (s, .ok ()) => (releaseTopic s pnlKey, .ok ())

/-- What a failed `subscribe_order_plant_stream` takes back; the order intent stays where the venue
does not leave its plant. -/
def rollbackOrderPlantStreamIntroductions (a : Answers) (s : Scope)
    (hadDelivery introducedOrder introducedBrackets : Bool) : Scope :=
  let s := if introducedBrackets then (s.setBrackets false).forget .brackets else s
  if !introducedOrder then s
  else
    let last := (s.state.store.forget .order).2
    let s := (s.setOrder false).forget .order
    if last && s.state.session then
      match a.disconnectOrderPlant with
      | .ok () => rollbackSharedTopic s orderKey hadDelivery
      | .error _ => (s.note .order).setOrder true
    else rollbackSharedTopic s orderKey hadDelivery

/-- The venue calls of `subscribe_order_plant_stream`. -/
def joinOrderPlant (a : Answers) (firstOrder firstBrackets : Bool) : Except Error Unit :=
  match (if firstOrder then a.subscribeOrderUpdates else .ok ()) with
  | .error e => .error (codedError "subscribe_order_updates_failed" e)
  | .ok () =>
    match (if firstBrackets then a.subscribeBracketUpdates else .ok ()) with
    | .error e => .error (codedError "subscribe_bracket_updates_failed" e)
    | .ok () => .ok ()

/-- Both streams are noted before either is recorded in the session. -/
def noteStreams (needOrder needBrackets : Bool) (s : Scope) : Scope :=
  let s := if needOrder then s.note .order else s
  let s := if needBrackets then s.note .brackets else s
  let s := if needOrder then s.setOrder true else s
  if needBrackets then s.setBrackets true else s

def subscribeOrderPlantStream (a : Answers) (deniedMsg : String) (wantBrackets : Bool)
    (s : Scope) : Reply :=
  if !s.state.trading then (s, .error (.gateway "trading_disabled" deniedMsg))
  else
    let needOrder := !s.client.order
    let needBrackets := wantBrackets && !s.client.brackets
    if !needOrder && !needBrackets then (s, .ok ())
    else
      let hadDelivery := orderKey ∈ s.client.subscribed
      let s := attachSharedTopic s orderKey
      let firstOrder := needOrder && (s.state.store.note .order).2
      let firstBrackets := needBrackets && (s.state.store.note .brackets).2
      let s := noteStreams needOrder needBrackets s
      if !s.state.session then
        (rollbackOrderPlantStreamIntroductions a s hadDelivery needOrder needBrackets,
          .error noVenue)
      else
        match joinOrderPlant a firstOrder firstBrackets with
        | .ok () => (s, .ok ())
        | .error e =>
          (rollbackOrderPlantStreamIntroductions a s hadDelivery needOrder needBrackets, .error e)

/-- `reseat_order_plant_without_brackets`: the answer of its disconnect is not read. -/
def reseatOrderPlantWithoutBrackets (a : Answers) (s : Scope) : Except Error Unit :=
  if s.state.session then a.subscribeOrderUpdates else .ok ()

def clearClientBrackets (s : Scope) : Scope :=
  if s.client.brackets then (s.setBrackets false).forget .brackets else s

/-- The scope in which `leave_order` has forgotten both streams. -/
def forgetOrderStreams (s : Scope) : Scope :=
  let s := clearClientBrackets s
  if s.client.order then (s.setOrder false).forget .order else s

def lastOrder (s : Scope) : Bool := s.client.order && (s.state.store.forget .order).2

/-- The last holder of the brackets leaves while other sessions hold the order stream: the plant is
re-seated without brackets. -/
def reseats (s : Scope) : Bool :=
  s.client.brackets && (s.state.store.forget .brackets).2 && !lastOrder s &&
    decide (0 < (forgetOrderStreams s).state.store.order)

def leaveOrder (a : Answers) (rollback : Bool) (s : Scope) :
    Scope × Except (String × Error) Unit :=
  if !s.client.order && !s.client.brackets then (s, .ok ())
  else
    let left := forgetOrderStreams s
    match (if lastOrder s && s.state.session then a.disconnectOrderPlant else .ok ()) with
    | .error e =>
      (if rollback then
          let t := (left.note .order).setOrder true
          if s.client.brackets then (t.note .brackets).setBrackets true else t
        else left, .error ("disconnect_order_failed", e))
    | .ok () =>
      if reseats s then
        match reseatOrderPlantWithoutBrackets a s with
        | .ok () => (left, .ok ())
        | .error e =>
          ({ left with state := left.state.requestReconnect }, .error ("reseat_order_failed", e))
      else (left, .ok ())

def disconnectOrder (a : Answers) (s : Scope) : Reply :=
  match leaveOrder a true s with
  | (s, .error (code, e)) => (s, .error (codedError code e))
  | (s, .ok ()) => (releaseTopic s orderKey, .ok ())

/-- The order in which a teardown drains the sets of a session. -/
structure DrainOrder where
  ticker : List SubKey := []
  book : List SubKey := []
  timeBars : List TimeBarIntent := []
  subscribed : List SubKey := []
  deriving DecidableEq, Repr

def DrainOrder.Of (d : DrainOrder) (c : SessionCtx) : Prop :=
  (d.ticker.Nodup ∧ d.ticker.toFinset = c.ticker) ∧ (d.book.Nodup ∧ d.book.toFinset = c.book) ∧
    (d.timeBars.Nodup ∧ d.timeBars.toFinset = c.timeBars) ∧
    d.subscribed.Nodup ∧ d.subscribed.toFinset = c.subscribed

instance (d : DrainOrder) (c : SessionCtx) : Decidable (d.Of c) :=
  inferInstanceAs (Decidable (_ ∧ _ ∧ _ ∧ _))

def DrainOrder.md (d : DrainOrder) : List MdIntent :=
  d.ticker.map .ticker ++ d.book.map .book ++ d.timeBars.map .timeBars

/-- What is left of the host state when a session is torn down: the venue's answers to the leaves
of its market data are not read. -/
def teardown (a : Answers) (d : DrainOrder) (s : Scope) : HostState :=
  let client := { s.client with topics := ∅, ticker := ∅, book := ∅, timeBars := ∅ }
  let s : Scope := ⟨(d.md.foldl (fun s i => s.forget (.md i)) s).state, client⟩
  let s := (leavePnl a false s).1
  let s := (leaveOrder a false s).1
  (d.subscribed.foldl Scope.removeInterest s).state

end RithmicNt.Host
