import Mathlib.Data.Finset.Card
import RithmicNt.Host.Restore
import RithmicNt.Host.Subscriptions
import RithmicNt.Lib.Machine

/-! Market-data joins at the venue, with every session's subscribe, unsubscribe and teardown, the
background retry of degraded joins and the pump's recovery cut at their awaits and locks. -/

namespace RithmicNt.Host.Joins

open RithmicNt.Lib

/-- Why an operation calls the venue for a join: for the first holder, for a later one (of a degraded
intent, or with the snapshot of a book), for a degraded intent that is held, or for the snapshot of
a book that is held. -/
inductive Purpose
  | first
  | again (degraded refresh : Bool)
  | rejoin
  | refresh
  deriving DecidableEq, Repr

/-- Where the operation of an actor is.  From `noted`, `rechecking` and `locked` on the topic lock is
held; in `calling`, `marking`, `clearing`, `leaveCalling` and `tearCalling` the venue lock, shared. -/
inductive Stage
  | idle
  | subscribing (i : MdIntent)
  | noted (i : MdIntent) (first : Bool)
  | rejoining (i : MdIntent)
  | rechecking (i : MdIntent)
  | refreshing (i : MdIntent)
  | locked (i : MdIntent) (p : Purpose)
  | calling (i : MdIntent) (p : Purpose)
  | marking (i : MdIntent) (p : Purpose)
  | clearing (i : MdIntent)
  | rollingBack (i : MdIntent) (first : Bool)
  | unsubscribing (i : MdIntent)
  | leaving (i : MdIntent)
  | leaveCalling (i : MdIntent)
  | renoting (i : MdIntent)
  | tearing (todo : List MdIntent)
  | tearLeaving (i : MdIntent) (todo : List MdIntent)
  | tearCalling (i : MdIntent) (todo : List MdIntent)
  | gone
  deriving DecidableEq, Repr

/-- Where the pump is.  In `rebuilding`, `passing` and `clearing` it has the venue lock alone. -/
inductive PumpPhase
  | serving
  | recovering (n : Nat) (scope : Recovery)
  | rebuilding (n : Nat) (scope : Recovery)
  | rebuilt (n : Nat) (scope : Recovery)
  | restoring (n : Nat) (scope : Recovery) (p : Nat) (pending : List MdIntent)
  | passing (n : Nat) (scope : Recovery) (p : Nat) (todo failed : List MdIntent)
  | clearing (n : Nat) (scope : Recovery) (p : Nat) (i : MdIntent) (todo failed : List MdIntent)
  | restored (n : Nat) (scope : Recovery) (pending : List MdIntent) (account : Bool)
  | marking (n : Nat) (scope : Recovery) (todo : List MdIntent)
  | failed
  deriving DecidableEq, Repr

/-- Actors are the sessions and the background retries.  `held`: who holds what; `joined`: the joins
of the current incarnation of the venue; `abandoned`: those of them whose leave failed in a
teardown. -/
structure State where
  store : IntentStore := {}
  held : Finset (Nat × MdIntent) := ∅
  joined : Finset MdIntent := ∅
  abandoned : Finset MdIntent := ∅
  ready : Bool := true
  stage : Nat → Stage := fun _ => .idle
  gate : Option Nat := none
  lock : SubKey → Option Nat := fun _ => none
  readers : Finset Nat := ∅
  writer : Bool := false
  pump : PumpPhase := .serving

inductive Event
  | subscribe (a : Nat) (i : MdIntent)
  | unsubscribe (a : Nat) (i : MdIntent)
  | teardown (a : Nat) (order : List MdIntent)
  | retry (a : Nat) (i : MdIntent)
  /-- The actor's operation goes on to its next await; `ok` is the venue's answer. -/
  | go (a : Nat) (ok : Bool)
  /-- A background retry is dropped; `landed`: the join it was waiting for has reached the venue. -/
  | cancel (a : Nat) (landed : Bool)
  | issue (scope : Recovery)
  | lockRebuild
  | rebuilt (ok dropped : Bool)
  | plan
  | lockPass
  | join (ok : Bool)
  | clear
  | passEnd (account : Bool)
  | settle
  | mark
  | finish (forced : Bool)
  | request
  | connect
  deriving DecidableEq, Repr

namespace State

def goto (s : State) (a : Nat) (stage : Stage) : State :=
  { s with stage := Function.update s.stage a stage }

/-- The end of an operation on `i`: its locks are released. -/
def finish (s : State) (a : Nat) (i : MdIntent) : State :=
  { s with
    stage := Function.update s.stage a .idle
    lock := Function.update s.lock i.key none
    gate := if s.gate = some a then none else s.gate
    readers := s.readers.erase a }

def take (s : State) (a : Nat) (i : MdIntent) : State :=
  { s with lock := Function.update s.lock i.key (some a) }

def takeGate (s : State) (a : Nat) (i : MdIntent) : State := { s.take a i with gate := some a }

def free (s : State) (i : MdIntent) : Bool := s.lock i.key = none

def share (s : State) (a : Nat) : State := { s with readers := insert a s.readers }

def unshare (s : State) (a : Nat) : State := { s with readers := s.readers.erase a }

/-- `note` and `client_insert`. -/
def note (s : State) (a : Nat) (i : MdIntent) : State :=
  { s with store := (s.store.noteMd i).1, held := insert (a, i) s.held }

/-- `client_remove` and `forget`. -/
def forget (s : State) (a : Nat) (i : MdIntent) : State :=
  { s with store := (s.store.forgetMd i).1, held := s.held.erase (a, i) }

def markDegraded (s : State) (i : MdIntent) : State := { s with store := s.store.markDegraded i }

def clearDegraded (s : State) (i : MdIntent) : State := { s with store := s.store.clearDegraded i }

def addJoin (s : State) (i : MdIntent) : State := { s with joined := insert i s.joined }

def dropJoin (s : State) (i : MdIntent) : State :=
  { s with joined := s.joined.erase i, abandoned := s.abandoned.erase i }

def abandon (s : State) (i : MdIntent) : State := { s with abandoned := insert i s.abandoned }

/-- The joins of the plants that `scope` rebuilds are gone. -/
def dropScope (s : State) (scope : Recovery) : State :=
  { s with
    joined := s.joined.filter fun i => scope.carries (Intent.md i).stream = false
    abandoned := s.abandoned.filter fun i => scope.carries (Intent.md i).stream = false }

/-- After the note of a subscribe: which venue call it needs, if any. -/
def look (s : State) (a : Nat) (i : MdIntent) (first : Bool) : State :=
  if first then s.goto a (.locked i .first)
  else
    let degraded := s.store.isDegraded i
    if degraded || isBook i then s.goto a (.locked i (.again degraded (isBook i)))
    else s.finish a i

/-- The venue lock is taken, and the readiness checked under it. -/
def lockVenue (s : State) (a : Nat) (i : MdIntent) (p : Purpose) : State :=
  if s.ready then (s.share a).goto a (.calling i p)
  else
    match p with
    | .first => s.goto a (.rollingBack i true)
    | .again _ refresh =>
      if refresh then (s.share a).goto a (.marking i p) else s.goto a (.rollingBack i false)
    | .rejoin | .refresh => s.finish a i

def answered (s : State) (a : Nat) (i : MdIntent) (p : Purpose) (ok : Bool) : State :=
  if ok then
    match p with
    | .again true _ | .rejoin => (s.addJoin i).goto a (.clearing i)
    | .first | .again false _ | .refresh => (s.addJoin i).finish a i
  else
    match p with
    | .first => (s.unshare a).goto a (.rollingBack i true)
    | .again _ true | .refresh => s.goto a (.marking i p)
    | .again _ false => (s.unshare a).goto a (.rollingBack i false)
    | .rejoin => s.finish a i

def marked (s : State) (a : Nat) (i : MdIntent) (p : Purpose) : State :=
  match p with
  | .again _ _ => ((s.markDegraded i).unshare a).goto a (.rollingBack i false)
  | .first | .rejoin | .refresh => (s.markDegraded i).finish a i

def go (s : State) (a : Nat) (ok : Bool) : Option State :=
  match s.stage a with
  | .idle | .gone => none
  | .subscribing i =>
    if s.gate = none ∧ s.free i then
      some (((s.takeGate a i).note a i).goto a (.noted i (s.store.noteMd i).2))
    else none
  | .noted i first => some (s.look a i first)
  | .rejoining i =>
    if s.gate = none ∧ s.free i then some ((s.takeGate a i).goto a (.rechecking i)) else none
  | .rechecking i =>
    some (if s.store.isDegraded i then s.goto a (.locked i .rejoin) else s.finish a i)
  | .refreshing i => if s.free i then some ((s.take a i).goto a (.locked i .refresh)) else none
  | .locked i p => if s.writer then none else some (s.lockVenue a i p)
  | .calling i p => some (s.answered a i p ok)
  | .marking i p => some (s.marked a i p)
  | .clearing i => some ((s.clearDegraded i).finish a i)
  | .rollingBack i _ => some ((s.forget a i).finish a i)
  | .unsubscribing i =>
    if s.gate = none ∧ s.free i then
      some (if (s.store.forgetMd i).2 then ((s.takeGate a i).forget a i).goto a (.leaving i)
        else (s.forget a i).goto a .idle)
    else none
  | .leaving i => if s.writer then none else some ((s.share a).goto a (.leaveCalling i))
  | .leaveCalling i =>
    some (if ok then (s.dropJoin i).finish a i else (s.unshare a).goto a (.renoting i))
  | .renoting i => some ((s.note a i).finish a i)
  | .tearing [] => some (s.goto a .gone)
  | .tearing (i :: todo) =>
    if s.free i then
      some (if (s.store.forgetMd i).2 then ((s.take a i).forget a i).goto a (.tearLeaving i todo)
        else (s.forget a i).goto a (.tearing todo))
    else none
  | .tearLeaving i todo => if s.writer then none else some ((s.share a).goto a (.tearCalling i todo))
  | .tearCalling i todo =>
    let t := if ok then s.dropJoin i else if i ∈ s.joined then s.abandon i else s
    some ((t.finish a i).goto a (.tearing todo))

/-- A session asks for a topic; the operation starts behind the `active` check. -/
def subscribe (s : State) (a : Nat) (i : MdIntent) : Option State :=
  if s.stage a = .idle then
    if !s.ready then some s
    else if (a, i) ∈ s.held then
      if s.store.isDegraded i then some (s.goto a (.rejoining i))
      else if isBook i then some (s.goto a (.refreshing i))
      else some s
    else some (s.goto a (.subscribing i))
  else none

def unsubscribe (s : State) (a : Nat) (i : MdIntent) : Option State :=
  if s.stage a = .idle then
    if s.ready ∧ (a, i) ∈ s.held then some (s.goto a (.unsubscribing i)) else some s
  else none

/-- `order`: the order in which the session's sets are drained. -/
def teardown (s : State) (a : Nat) (order : List MdIntent) : Option State :=
  if s.stage a = .idle ∧ order.Nodup ∧
      order.toFinset = (s.held.filter (·.1 = a)).image Prod.snd then
    some (s.goto a (.tearing order))
  else none

def cancel (s : State) (a : Nat) (landed : Bool) : Option State :=
  match s.stage a with
  | .rejoining _ => some (s.goto a .idle)
  | .rechecking i | .locked i .rejoin | .clearing i => some (s.finish a i)
  | .calling i .rejoin => some ((if landed then s.addJoin i else s).finish a i)
  | _ => none

def nextAttempt (n : Nat) (scope : Recovery) : PumpPhase :=
  if n < 3 then .recovering (n + 1) scope else .failed

/-- A step of the pump. -/
def pumped (s : State) (e : Event) : Option State :=
  match e, s.pump with
  | .issue scope, .serving => some { s with ready := false, pump := .recovering 1 scope }
  | .lockRebuild, .recovering n scope =>
    if s.readers = ∅ ∧ !s.writer then some { s with writer := true, pump := .rebuilding n scope }
    else none
  | .rebuilt ok dropped, .rebuilding n scope =>
    if ok then some { s.dropScope scope with writer := false, pump := .rebuilt n scope }
    else
      some { (if dropped then s.dropScope scope else s) with
        writer := false, pump := nextAttempt n scope }
  | .plan, .rebuilt n scope =>
    some { s with pump := .restoring n scope 1 (scope.plan s.store.restorePlan).mdIntents }
  | .lockPass, .restoring n scope p pending =>
    if s.readers = ∅ ∧ !s.writer then
      some { s with writer := true, pump := .passing n scope p (pending.filter s.store.holdsMd) [] }
    else none
  | .join ok, .passing n scope p (i :: todo) failed =>
    if ok then some { s.addJoin i with pump := .clearing n scope p i todo failed }
    else some { s with pump := .passing n scope p todo (failed ++ [i]) }
  | .clear, .clearing n scope p i todo failed =>
    some { s.clearDegraded i with pump := .passing n scope p todo failed }
  | .passEnd account, .passing n scope p [] failed =>
    some { s with
      writer := false
      pump :=
        if (account || !failed.isEmpty) && p < 3 then .restoring n scope (p + 1) failed
        else .restored n scope failed account }
  | .settle, .restored n scope pending account =>
    some { s with pump := if account then nextAttempt n .login else .marking n scope pending }
  | .mark, .marking n scope (i :: todo) =>
    some { s.markDegraded i with pump := .marking n scope todo }
  | .finish forced, .marking n _ [] =>
    if forced then some { s with pump := nextAttempt n .login }
    else some { s with ready := true, pump := .serving }
  | .request, _ => some { s with ready := false }
  | .connect, .serving => some { s with ready := true }
  | _, _ => none

def step (s : State) : Event → Option State
  | .subscribe a i => s.subscribe a i
  | .unsubscribe a i => s.unsubscribe a i
  | .teardown a order => s.teardown a order
  | .retry a i => if s.stage a = .idle then some (s.goto a (.rejoining i)) else none
  | .go a ok => s.go a ok
  | .cancel a landed => s.cancel a landed
  | e => s.pumped e

end State

def machine : Machine State Event where
  Start s := ∃ ready, s = { ready }
  step := State.step

/-- No operation is in flight and the host is ready. -/
def Quiescent (s : State) : Prop :=
  (∀ a, s.stage a = .idle ∨ s.stage a = .gone) ∧ s.pump = .serving ∧ s.ready = true

/-- Some session holds the intent. -/
def Held (s : State) (i : MdIntent) : Prop := ∃ a, (a, i) ∈ s.held

/-- The joins that the running pass has still to issue. -/
def PumpPhase.todo : PumpPhase → List MdIntent
  | .passing _ _ _ todo _ | .clearing _ _ _ _ todo _ => todo
  | _ => []

/-- The recovery has still to join the intent, or to mark it degraded. -/
def PumpPhase.owes (i : MdIntent) : PumpPhase → Prop
  | .serving => False
  | .recovering _ scope | .rebuilding _ scope | .rebuilt _ scope =>
    scope.carries (Intent.md i).stream = true
  | .restoring _ _ _ pending | .restored _ _ pending false => i ∈ pending
  | .passing _ _ _ todo missed | .clearing _ _ _ _ todo missed => i ∈ todo ∨ i ∈ missed
  | .marking _ _ todo => i ∈ todo
  | .restored _ _ _ true | .failed => True

instance (i : MdIntent) : DecidablePred (PumpPhase.owes i) := by
  intro p
  cases p with
  | serving => exact .isFalse id
  | recovering n scope | rebuilding n scope | rebuilt n scope =>
    exact inferInstanceAs (Decidable (scope.carries (Intent.md i).stream = true))
  | restoring n scope p pending => exact inferInstanceAs (Decidable (i ∈ pending))
  | restored n scope pending account =>
    cases account with
    | false => exact inferInstanceAs (Decidable (i ∈ pending))
    | true => exact .isTrue trivial
  | passing n scope p todo missed => exact inferInstanceAs (Decidable (i ∈ todo ∨ i ∈ missed))
  | clearing n scope p j todo missed => exact inferInstanceAs (Decidable (i ∈ todo ∨ i ∈ missed))
  | marking n scope todo => exact inferInstanceAs (Decidable (i ∈ todo))
  | failed => exact .isTrue trivial

/-- The stage is not the roll back of a first holder whose intent is joined at the venue, or about to
be joined by the running pass, and not the re-note of a failed unsubscribe whose intent is neither
joined nor owed by the recovery. -/
def Timely (s : State) : Stage → Prop
  | .rollingBack i true => (i ∈ s.joined → i ∈ s.abandoned) ∧ i ∉ s.pump.todo
  | .renoting i => i ∈ s.joined ∨ s.pump.owes i
  | _ => True

instance (s : State) : DecidablePred (Timely s) := by
  intro st
  cases st with
  | rollingBack i first =>
    cases first with
    | false => exact .isTrue trivial
    | true =>
      exact inferInstanceAs (Decidable ((i ∈ s.joined → i ∈ s.abandoned) ∧ i ∉ s.pump.todo))
  | renoting i => exact inferInstanceAs (Decidable (i ∈ s.joined ∨ s.pump.owes i))
  | _ => exact .isTrue trivial

/-- No actor goes on from a stage that is not timely. -/
def InTime (s : State) : Event → Prop
  | .go a _ => Timely s (s.stage a)
  | _ => True

instance (s : State) : DecidablePred (InTime s) := by
  intro e
  cases e with
  | go a ok => exact inferInstanceAs (Decidable (Timely s (s.stage a)))
  | _ => exact .isTrue trivial

end RithmicNt.Host.Joins
