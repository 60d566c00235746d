import Mathlib.Data.List.Infix
import Mathlib.Logic.Function.Basic
import RithmicNt.Lib.Machine

/-! The four poll loops of the adapter, cut at their awaits: `PlantPoller` for the order and PnL
streams, `_poll_channel_loop` for the ticker and history streams, which share one resync. -/

namespace RithmicNt.Adapter.Polling

open RithmicNt.Lib

/-- The class of an exception: one of `CHANNEL_ERRORS`, or another one. -/
inductive FailureKind
  | lagged
  | closed
  | notConnected
  | channel
  | other
  deriving DecidableEq, Repr

structure PollFailure where
  kind : FailureKind
  code : Option String := none
  text : String := ""
  deriving DecidableEq, Repr

namespace PollFailure

def lower (s : String) : List Char := s.toList.map Char.toLower

def mentions (e : PollFailure) (phrase : String) : Bool := phrase.toList <:+: lower e.text

def isChannel (e : PollFailure) : Bool := e.kind != .other

def reconnectableCodes : List String :=
  ["not_connected", "eof", "shutting_down", "transport_reset", "frame_too_large"]

/-- `is_reconnectable_poll_error`. -/
def isReconnectable (e : PollFailure) : Bool :=
  e.isChannel ||
    (e.code.any fun code => reconnectableCodes.any fun known => lower code == known.toList) ||
    e.mentions "forced logout" || e.mentions "connection closed" || e.mentions "not connected" ||
    e.mentions "not_connected" || e.mentions "channel closed" || e.mentions "channel lagged"

/-- `is_terminal_poll_error`. -/
def isTerminal (e : PollFailure) : Bool :=
  match e.kind with
  | .closed | .notConnected => true
  | .lagged => false
  | .channel | .other => e.mentions "forced logout" || e.mentions "session closed"

end PollFailure

/-- How the handler of an event ends: it handles it, it cannot read it (`UnreadableEventError`, and
`ConvertError` in the data client, which skips the event), or it raises. -/
inductive Handled
  | ok
  | unreadable
  | raised
  deriving DecidableEq, Repr

/-- An event of a batch, with the end of its handler. -/
inductive Item
  | gap
  | event (outcome : Handled)
  deriving DecidableEq, Repr

inductive Poller
  | order
  | pnl
  | ticker
  | history
  deriving DecidableEq, Repr

/-- The pollers of the data client. -/
def Poller.isData : Poller → Bool
  | .order | .pnl => false
  | .ticker | .history => true

/-- Where a poller is.  `resyncing`: in `on_resync`, after lost events or after a channel error;
`recovering`: in `on_gap`, with the delay before its next try; `handling`: in the batch loop of the
data client; `queued`: waiting for the resync lock since the given generation; `replaying`: under that
lock. -/
inductive Phase
  | stopped
  | polling
  | resyncing (lost : Bool)
  | recovering (delay : Nat)
  | handling (rest : List Item)
  | queued (startGen : Nat) (rest : List Item)
  | replaying (rest : List Item)
  deriving DecidableEq, Repr

/-- Delays in milliseconds.  `owed`: no recovery that began after the poller's last batch with lost
events was dequeued has succeeded; `covers`: the pollers that owed one when the running replay
began. -/
structure State where
  phase : Poller → Phase := fun _ => .stopped
  backoff : Poller → Nat := fun _ => 50
  transientStreak : Nat := 0
  resyncGeneration : Nat := 0
  resyncLock : Option Poller := none
  owed : Poller → Bool := fun _ => false
  covers : Poller → Bool := fun _ => false

inductive Event
  | start (p : Poller)
  | cancel (p : Poller)
  /-- `should_poll` of the history loop says no. -/
  | idle (p : Poller)
  | polled (p : Poller) (batch : List Item)
  | pollFailed (p : Poller) (e : PollFailure)
  /-- `on_resync` or `on_gap` returns, or raises. -/
  | answered (p : Poller) (ok : Bool)
  /-- The data client goes on to the next event of its batch. -/
  | next (p : Poller)
  /-- The resync lock is granted. -/
  | granted (p : Poller)
  /-- `resync_ticker_session` returns, or raises. -/
  | replayed (p : Poller) (ok : Bool)
  deriving DecidableEq, Repr

def minBackoff : Nat := 50

def maxTransient : Nat := 5

def nextBackoff (backoff : Nat) : Nat := min (backoff * 2) 2000

/-- The batch loop of `PlantPoller`: how many events are lost, or `none` where the handler of an order
event raises. -/
def handleBatch (p : Poller) : List Item → Option Nat
  | [] => some 0
  | .gap :: rest | .event .unreadable :: rest => (handleBatch p rest).map (· + 1)
  | .event .ok :: rest => handleBatch p rest
  | .event .raised :: rest => if p = .order then none else handleBatch p rest

namespace State

def goto (s : State) (p : Poller) (phase : Phase) : State :=
  { s with phase := Function.update s.phase p phase }

def wait (s : State) (p : Poller) (backoff : Nat) : State :=
  { s with backoff := Function.update s.backoff p backoff }

def owe (s : State) (p : Poller) (lost : Bool) : State :=
  { s with
    owed := Function.update s.owed p (s.owed p || lost)
    covers := Function.update s.covers p false }

def settle (s : State) (p : Poller) : State := { s with owed := Function.update s.owed p false }

/-- A new streak of transient errors for the order poller. -/
def resetStreak (s : State) (p : Poller) : State :=
  { s with transientStreak := if p = .order then 0 else s.transientStreak }

def release (s : State) (p : Poller) : State :=
  { s with resyncLock := if s.resyncLock = some p then none else s.resyncLock }

/-- `poll_iteration` once a batch is there. -/
def plantBatch (s : State) (p : Poller) (batch : List Item) : State :=
  match handleBatch p batch with
  | none => (s.owe p true).goto p .stopped
  | some 0 => s.goto p .polling
  | some (_ + 1) =>
    (s.owe p true).goto p (if p = .order then .recovering minBackoff else .resyncing true)

def plantFailed (s : State) (p : Poller) (e : PollFailure) : State :=
  if !e.isChannel && !e.isTerminal && !e.isReconnectable then
    if p = .order then
      let s := { s with transientStreak := s.transientStreak + 1 }
      if s.transientStreak ≥ maxTransient then s.goto p .stopped else s
    else s
  else if e.isTerminal then s.goto p .stopped
  else if !e.isChannel then s.wait p (nextBackoff (s.backoff p))
  else s.goto p (.resyncing false)

/-- The end of `_resync`, or of one round of `_recover_gap`. -/
def plantAnswered (s : State) (p : Poller) (ok : Bool) : Option State :=
  match s.phase p with
  | .resyncing _ =>
    if ok then
      some ((((s.settle p).wait p minBackoff).resetStreak p).goto p .polling)
    else some ((s.wait p (nextBackoff (s.backoff p))).goto p .polling)
  | .recovering delay =>
    some (if ok then (s.settle p).goto p .polling else s.goto p (.recovering (nextBackoff delay)))
  | _ => none

def dataFailed (s : State) (p : Poller) (e : PollFailure) : State :=
  if e.isTerminal then s.goto p .stopped else s.wait p (nextBackoff (s.backoff p))

def dataNext (s : State) (p : Poller) : Option State :=
  match s.phase p with
  | .handling [] => some (s.goto p .polling)
  | .handling (.gap :: rest) => some (s.goto p (.queued s.resyncGeneration rest))
  | .handling (.event .raised :: _) => some (s.goto p .stopped)
  | .handling (.event _ :: rest) => some (s.goto p (.handling rest))
  | _ => none

/-- `_resync_ticker_subscription` under its lock: another resync that has ended meanwhile is enough. -/
def granted (s : State) (p : Poller) : Option State :=
  match s.phase p with
  | .queued startGen rest =>
    if s.resyncLock = none then
      if s.resyncGeneration ≠ startGen then some ((s.wait p minBackoff).goto p (.handling rest))
      else some { s.goto p (.replaying rest) with
        resyncLock := some p, covers := fun q => q.isData && s.owed q }
    else none
  | _ => none

/-- The end of the replay: of `_resync_channel` too. -/
def replayed (s : State) (p : Poller) (ok : Bool) : Option State :=
  match s.phase p with
  | .replaying rest =>
    if ok then
      some { ((s.wait p minBackoff).release p).goto p (.handling rest) with
        resyncGeneration := s.resyncGeneration + 1
        owed := fun q => s.owed q && !s.covers q }
    else some (((s.wait p (nextBackoff (s.backoff p))).release p).goto p (.handling rest))
  | _ => none

def polled (s : State) (p : Poller) (batch : List Item) : State :=
  if p.isData then ((s.owe p (decide (.gap ∈ batch))).wait p minBackoff).goto p (.handling batch)
  else s.plantBatch p batch

def pollFailed (s : State) (p : Poller) (e : PollFailure) : State :=
  if p.isData then s.dataFailed p e else s.plantFailed p e

def step (s : State) : Event → Option State
  | .start p =>
    if s.phase p = .stopped then
      some ((((s.settle p).wait p minBackoff).resetStreak p).goto p .polling)
    else none
  | .cancel p => some ((s.release p).goto p .stopped)
  | .idle p => if s.phase p = .polling ∧ p = .history then some s else none
  | .polled p batch => if s.phase p = .polling then some (s.polled p batch) else none
  | .pollFailed p e => if s.phase p = .polling then some (s.pollFailed p e) else none
  | .answered p ok => s.plantAnswered p ok
  | .next p => s.dataNext p
  | .granted p => s.granted p
  | .replayed p ok => s.replayed p ok

end State

def machine : Machine State Event where
  Start s := s = {}
  step := State.step

/-- No poller is about to poll while it owes the recovery of an event that it has dequeued. -/
def Recovered (s : State) : Prop := ∀ p, s.phase p = .polling → s.owed p = false

/-- The poller has recovered meanwhile, or has another gap of its batch to recover. -/
def Excused (s : State) (p : Poller) (rest : List Item) : Prop := s.owed p = false ∨ .gap ∈ rest

instance (s : State) (p : Poller) (rest : List Item) : Decidable (Excused s p rest) :=
  inferInstanceAs (Decidable (_ ∨ _))

/-- What an attempt that fails in this phase is excused by. -/
def Phase.Fails (s : State) (p : Poller) : Phase → Prop
  | .resyncing lost => lost = false
  | .replaying rest => Excused s p rest
  | _ => True

/-- What an attempt that finds the generation changed is excused by. -/
def Phase.Skips (s : State) (p : Poller) : Phase → Prop
  | .queued startGen rest => s.resyncGeneration = startGen ∨ Excused s p rest
  | _ => True

instance (s : State) (p : Poller) : DecidablePred (Phase.Fails s p)
  | .resyncing lost => inferInstanceAs (Decidable (lost = false))
  | .replaying rest => inferInstanceAs (Decidable (Excused s p rest))
  | .stopped | .polling | .recovering _ | .handling _ | .queued .. => .isTrue trivial

instance (s : State) (p : Poller) : DecidablePred (Phase.Skips s p)
  | .queued startGen rest =>
    inferInstanceAs (Decidable (s.resyncGeneration = startGen ∨ Excused s p rest))
  | .stopped | .polling | .resyncing _ | .recovering _ | .handling _ | .replaying _ =>
    .isTrue trivial

/-- No attempt to recover lost events without `on_gap` fails, unless another one of the same batch
makes up for it, and none is skipped for a resync that began before the gap was dequeued. -/
def Attempts (s : State) : Event → Prop
  | .answered p ok | .replayed p ok => ok = true ∨ (s.phase p).Fails s p
  | .granted p => (s.phase p).Skips s p
  | _ => True

instance (s : State) : DecidablePred (Attempts s)
  | .answered p ok | .replayed p ok =>
    inferInstanceAs (Decidable (ok = true ∨ (s.phase p).Fails s p))
  | .granted p => inferInstanceAs (Decidable ((s.phase p).Skips s p))
  | .start _ | .cancel _ | .idle _ | .polled .. | .pollFailed .. | .next _ => .isTrue trivial

end RithmicNt.Adapter.Polling
