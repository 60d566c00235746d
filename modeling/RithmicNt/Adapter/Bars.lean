import Mathlib.Data.Finset.Basic
import Mathlib.Data.Finset.Filter
import RithmicNt.Lib.Pool

/-! Live time bars of the data client.  A bar type is registered in one dictionary under two periods,
its own and the same in seconds, and the venue echoes seconds.  A call works on the dictionary, asks the
session from a thread where it has to, and goes on once that has answered; other calls and bars come in
between. -/

namespace RithmicNt.Adapter.Bars

open RithmicNt.Lib

/-- `BarAggregation`; the rest carry how they print. -/
inductive Aggregation
  | second
  | minute
  | hour
  | day
  | week
  | other (name repr : String)
  deriving DecidableEq, Repr

inductive PriceType
  | bid
  | ask
  | mid
  | last
  | mark
  deriving DecidableEq, Repr

structure BarType where
  instrument : String
  step : Nat
  aggregation : Aggregation
  priceType : PriceType := .last
  external : Bool := true
  deriving DecidableEq, Repr

namespace Aggregation

def name : Aggregation → String
  | second => "SECOND"
  | minute => "MINUTE"
  | hour => "HOUR"
  | day => "DAY"
  | week => "WEEK"
  | other name _ => name

/-- The seconds of one step, 0 where the table of the source has none. -/
def seconds : Aggregation → Nat
  | second => 1
  | minute => 60
  | hour => 3600
  | day => 86400
  | week => 604800
  | other .. => 0

end Aggregation

def PriceType.name : PriceType → String
  | bid => "BID"
  | ask => "ASK"
  | mid => "MID"
  | last => "LAST"
  | mark => "MARK"

namespace BarType

def text (b : BarType) : String :=
  b.instrument ++ "-" ++ toString b.step ++ "-" ++ b.aggregation.name ++ "-" ++ b.priceType.name ++
    "-" ++ if b.external then "EXTERNAL" else "INTERNAL"

/-- The duration of a bar. -/
def seconds (b : BarType) : Nat := b.step * b.aggregation.seconds

/-- `_bar_type_duration_ns`: 0 for the bars whose marker is a date. -/
def durationNs (b : BarType) : Int :=
  match b.aggregation with
  | .second => b.step * 1000000000
  | .minute => b.step * 60 * 1000000000
  | .hour => b.step * 60 * 60 * 1000000000
  | _ => 0

end BarType

def rithmicSecond : Int := 1

def rithmicMinute : Int := 2

def rithmicDaily : Int := 3

def rithmicWeekly : Int := 4

def externalBarAdvertised (b : BarType) : Bool :=
  (b.aggregation = .minute ∧ b.step ∈ [1, 15, 60]) ∨ (b.aggregation = .hour ∧ b.step = 1) ∨
    (b.aggregation = .day ∧ b.step = 1)

def barTypeToRithmic (b : BarType) : Except String (Int × Int) :=
  if b.step < 1 then .error ("bar step must be >= 1, got " ++ toString b.step)
  else
    match b.aggregation with
    | .second => .ok (rithmicSecond, b.step)
    | .minute => .ok (rithmicMinute, b.step)
    | .hour => .ok (rithmicMinute, b.step * 60)
    | .day => .ok (rithmicDaily, b.step)
    | .week => .ok (rithmicWeekly, b.step)
    | .other _ repr => .error ("unsupported bar aggregation " ++ repr ++ " for Rithmic history " ++
        "(supported: SECOND, MINUTE, HOUR→minute, DAY, WEEK)")

def barWirePeriodKeys (b : BarType) : Except String (List Int) := do
  let (_, period) ← barTypeToRithmic b
  let seconds : Int := b.seconds
  return if seconds ≠ 0 ∧ seconds ≠ period then [period, seconds] else [period]

/-- The keys of the dictionary; with the native period, a feed of the venue. -/
structure Key where
  symbol : String
  exchange : String
  rtype : Int
  period : Int
  deriving DecidableEq, Repr

/-- A `time_bar` event.  `period` is the number that its text is, `none` where it has none; `close` is
the `ts_event` of its fields, `none` where these do not convert. -/
structure TimeBar where
  symbol : Option String
  exchange : Option String
  barType : Option Int
  period : Option Int
  close : Option Int
  deriving DecidableEq, Repr

/-- `_bar_types` and the marks of `_bar_seq`. -/
structure Client where
  barTypes : Key → Option (Finset BarType) := fun _ => none
  last : BarType → Option Int := fun _ => none

/-- Where a call waits for the thread of the session; `saved` are the entries that an unsubscription puts
back where it fails. -/
inductive Place
  | subscribing (b : BarType) (feed : Key)
  | unsubscribing (b : BarType) (feed : Key) (saved : List (Key × Finset BarType))
  deriving DecidableEq

/-- A piece of a call ends where it waits, or at the end of the call with what that raised. -/
inductive Progress
  | waits (p : Place)
  | ended (raised : Option String)
  deriving DecidableEq

namespace Client

def barTypesForEvent (c : Client) (e : TimeBar) : Finset BarType :=
  (c.barTypes ⟨e.symbol.getD "", e.exchange.getD "", e.barType.getD 0, e.period.getD 1⟩).getD ∅

/-- `setdefault(key, set()).add(bar_type)`. -/
def add (b : BarType) (types : Key → Option (Finset BarType)) (key : Key) :
    Key → Option (Finset BarType) :=
  Function.update types key (some (insert b ((types key).getD ∅)))

/-- A set that is empty after the removal goes too. -/
def discard (b : BarType) (types : Key → Option (Finset BarType)) (key : Key) :
    Key → Option (Finset BarType) :=
  match types key with
  | none => types
  | some mapped =>
    if mapped.erase b = ∅ then Function.update types key none
    else Function.update types key (some (mapped.erase b))

def restore (types : Key → Option (Finset BarType)) (saved : Key × Finset BarType) :
    Key → Option (Finset BarType) :=
  Function.update types saved.1 (if saved.2 = ∅ then none else some saved.2)

def noRoute (instrument : String) : String :=
  "no Rithmic route for " ++ instrument ++ "; load instruments before subscribe/request"

section Calls

variable (route : String → Option (String × String))

/-- `_subscribe_bars` up to its wait. -/
def subscribeBars (b : BarType) : Progress :=
  if !b.external then .ended none
  else if !externalBarAdvertised b then
    .ended (some ("live EXTERNAL bars not advertised for " ++ b.text ++
      "; use request_bars for lookback or INTERNAL 1s from ticks"))
  else
    match route b.instrument with
    | none => .ended (some (noRoute b.instrument))
    | some (symbol, exchange) =>
      match barTypeToRithmic b with
      | .ok (rtype, period) => .waits (.subscribing b ⟨symbol, exchange, rtype, period⟩)
      | .error failure => .ended (some failure)

/-- `_unsubscribe_bars` up to its wait. -/
def unsubscribeBars (c : Client) (b : BarType) : Client × Progress :=
  if !b.external then (c, .ended none)
  else if !externalBarAdvertised b then (c, .ended none)
  else
    match route b.instrument with
    | none => (c, .ended (some (noRoute b.instrument)))
    | some (symbol, exchange) =>
      match barTypeToRithmic b, barWirePeriodKeys b with
      | .ok (rtype, period), .ok periods =>
        let keys := periods.map (Key.mk symbol exchange rtype)
        let saved := keys.map fun key => (key, (c.barTypes key).getD ∅)
        let types := keys.foldl (discard b) c.barTypes
        ({ c with barTypes := types },
          if keys.any fun key => (types key).isSome then .ended none
          else .waits (.unsubscribing b ⟨symbol, exchange, rtype, period⟩ saved))
      | .error failure, _ | _, .error failure => (c, .ended (some failure))

end Calls

/-- A call after its wait, with the client and what it raises; `session` is what the request to the
session failed with, if it did. -/
def resume (c : Client) (session : Option String) : Place → Client × Option String
  | .subscribing b feed =>
    match session with
    | some failure => (c, some failure)
    | none =>
      match barWirePeriodKeys b with
      | .ok periods =>
        ({ c with
          barTypes := (periods.map (Key.mk feed.symbol feed.exchange feed.rtype)).foldl (add b)
            c.barTypes }, none)
      | .error failure => (c, some failure)
  | .unsubscribing _ _ saved =>
    match session with
    | none => (c, none)
    | some failure => ({ c with barTypes := saved.foldl restore c.barTypes }, some failure)

/-- The stamp of a bar: its close, or its open. -/
def stamp (onClose : Bool) (b : BarType) (close : Int) : Int :=
  if onClose then close else close - b.durationNs

/-- `admit` lets a bar through that is later than the mark of its bar type. -/
def Admits (last : BarType → Option Int) (b : BarType) (ts : Int) : Prop := (last b).getD (-1) < ts

instance (last : BarType → Option Int) (b : BarType) (ts : Int) : Decidable (Admits last b ts) :=
  inferInstanceAs (Decidable ((last b).getD (-1) < ts))

/-- The bars of an event that are handed on.  The guard has a mark for each bar type, and each comes
up once. -/
def dispatch (c : Client) (onClose : Bool) (e : TimeBar) : Client × Finset BarType :=
  match e.close with
  | none => (c, ∅)
  | some close =>
    let delivered := (c.barTypesForEvent e).filter fun b => Admits c.last b (stamp onClose b close)
    ({ c with last := fun b => if b ∈ delivered then some (stamp onClose b close) else c.last b },
      delivered)

/-- A bar of a history request raises the mark. -/
def note (c : Client) (b : BarType) (ts : Int) : Client :=
  { c with last := Function.update c.last b (some (max ((c.last b).getD 0) ts)) }

end Client

/-! ### Runs -/

/-- The seconds of one native period. -/
def unitSeconds (rtype : Int) : Int :=
  if rtype = rithmicSecond then 1
  else if rtype = rithmicMinute then 60
  else if rtype = rithmicDaily then 86400
  else 604800

/-- The duration of the bars of a feed. -/
def Key.seconds (feed : Key) : Int := feed.period * unitSeconds feed.rtype

/-- The venue's bar on a feed: its period is in seconds. -/
def Key.echo (feed : Key) (close : Option Int) : TimeBar where
  symbol := some feed.symbol
  exchange := some feed.exchange
  barType := some feed.rtype
  period := some feed.seconds
  close := close

/-- The feeds of the advertised bar types. -/
def Key.Advertised (feed : Key) : Prop :=
  (feed.rtype, feed.period) ∈ [(rithmicMinute, 1), (rithmicMinute, 15), (rithmicMinute, 60),
    (rithmicDaily, 1)]

instance : DecidablePred Key.Advertised := fun _ => inferInstanceAs (Decidable (_ ∈ _))

/-- A call, a bar of a feed, or a bar of a history request. -/
inductive Call
  | subscribe (b : BarType)
  | unsubscribe (b : BarType)
  | event (feed : Key) (close : Option Int)
  | history (b : BarType) (ts : Int)
  deriving DecidableEq, Repr

/-- The thread of the session has done a request, with what that failed with; the call goes on. -/
inductive Act
  | answer (session : Option String)
  | resume
  deriving DecidableEq, Repr

/-- `answer` is that of the session, once its thread is done. -/
inductive Stage
  | waiting (p : Place) (answer : Option (Option String))
  | ended (raised : Option String)
  deriving DecidableEq

def Progress.stage : Progress → Stage
  | .waits p => .waiting p none
  | .ended raised => .ended raised

/-- A bar of a feed as it was dispatched, with the registered bar types and the marks it met. -/
structure Dispatch where
  feed : Key
  close : Option Int
  registered : Finset BarType
  last : BarType → Option Int
  delivered : Finset BarType

/-- The client with the bar types whose subscription stands, the feeds that the venue sends, and the
bars so far.  A bar type is registered by the end of a call that subscribes it, until the begin of one
that unsubscribes it; `removed` are the calls that took one out, which put it back where they fail. -/
structure Market where
  client : Client := {}
  registered : Finset BarType := ∅
  removed : Finset Nat := ∅
  feeds : Finset Key := ∅
  log : List Dispatch := []

namespace Place

def barType : Place → BarType
  | subscribing b _ | unsubscribing b _ _ => b

def feed : Place → Key
  | subscribing _ feed | unsubscribing _ feed _ => feed

/-- The venue after the request. -/
def apply (feeds : Finset Key) : Place → Finset Key
  | subscribing _ feed => insert feed feeds
  | unsubscribing _ feed _ => feeds.erase feed

end Place

section Runs

variable (route : String → Option (String × String)) (onClose : Bool)

namespace Market

/-- Call `n` takes a bar type out. -/
def remove (m : Market) (n : Nat) (b : BarType) : Market :=
  { m with
    registered := m.registered.erase b
    removed := if b ∈ m.registered then insert n m.removed else m.removed }

/-- Call `n` up to its wait. -/
def begin (n : Nat) (m : Market) : Call → Option (Market × Stage)
  | .subscribe b => some (m, (Client.subscribeBars route b).stage)
  | .unsubscribe b =>
    let (client, progress) := m.client.unsubscribeBars route b
    match progress with
    | .ended (some failure) => some ({ m with client }, .ended (some failure))
    | progress => some (({ m with client }).remove n b, progress.stage)
  | .event feed close =>
    if feed.Advertised then
      let (client, delivered) := m.client.dispatch onClose (feed.echo close)
      some ({ m with
        client
        log := m.log ++ [⟨feed, close, m.registered, m.client.last, delivered⟩] }, .ended none)
    else none
  | .history b ts => some ({ m with client := m.client.note b ts }, .ended none)

/-- The bar types after the end of call `n`. -/
def settle (m : Market) (n : Nat) (session : Option String) : Place → Finset BarType
  | .subscribing b _ => if session = none then insert b m.registered else m.registered
  | .unsubscribing b _ _ =>
    if session ≠ none ∧ n ∈ m.removed then insert b m.registered else m.registered

/-- The thread of the session, and call `n` after its wait.  A request that fails changes nothing at the
venue. -/
def advance (n : Nat) (m : Market) : Stage → Act → Option (Market × Stage)
  | .waiting p none, .answer session =>
    some ({ m with feeds := if session = none then p.apply m.feeds else m.feeds },
      .waiting p (some session))
  | .waiting p (some session), .resume =>
    let (client, raised) := m.client.resume session p
    some ({ m with client, registered := m.settle n session p }, .ended raised)
  | _, _ => none

end Market

def code : Program Market Stage Call Act where
  spawn := Market.begin route onClose
  run := Market.advance

/-- A client that has subscribed nothing, and any calls and bars. -/
def bars : Machine (Pool Market Stage) (Move Call Act) := (code route onClose).machine fun m => m = {}

/-- The bar type is of the instrument of a feed. -/
def Of (feed : Key) (b : BarType) : Prop := route b.instrument = some (feed.symbol, feed.exchange)

instance (feed : Key) : DecidablePred (Of route feed) :=
  fun _ => inferInstanceAs (Decidable (_ = _))

/-- The feed that serves a bar type. -/
def feedOf (b : BarType) : Option Key :=
  match route b.instrument, barTypeToRithmic b with
  | some (symbol, exchange), .ok (rtype, period) => some ⟨symbol, exchange, rtype, period⟩
  | _, _ => none

/-- The bar went to the registered bar types of its instrument and its duration, but for those that
had it already. -/
def Dispatch.Exact (d : Dispatch) : Prop :=
  ∀ close, d.close = some close → ∀ b, b ∈ d.delivered ↔ b ∈ d.registered ∧ Of route d.feed b ∧
    (b.seconds : Int) = d.feed.seconds ∧ Client.Admits d.last b (Client.stamp onClose b close)

/-- Every bar went where it belongs, the venue sends the feeds of the registered bar types, and while no
call is in flight no others. -/
structure Exact (P : Pool Market Stage) : Prop where
  bars : ∀ d ∈ P.shared.log, d.Exact route onClose
  sent : ∀ b ∈ P.shared.registered, ∃ feed ∈ P.shared.feeds, feedOf route b = some feed
  ended : ∀ feed ∈ P.shared.feeds, (∃ b ∈ P.shared.registered, feedOf route b = some feed) ∨
    ∃ n p a, P.At n (.waiting p a) ∧ p.feed = feed

/-- The duration whose native period is this duration's period in seconds, or the other way round. -/
def rival (seconds : Nat) : Nat :=
  if seconds = 60 then 3600 else if seconds = 3600 then 60 else 0

/-- The bar types are of one instrument and of one duration or two rival ones. -/
def Near (b b' : BarType) : Prop :=
  route b'.instrument = route b.instrument ∧ (b'.seconds = b.seconds ∨ b'.seconds = rival b.seconds)

instance (b b' : BarType) : Decidable (Near route b b') := inferInstanceAs (Decidable (_ ∧ (_ ∨ _)))

/-- What a bar type has to be for a subscription to register it. -/
structure Ready (b : BarType) : Prop where
  external : b.external = true
  advertised : externalBarAdvertised b = true
  routed : (route b.instrument).isSome

instance (b : BarType) : Decidable (Ready route b) :=
  decidable_of_iff (b.external = true ∧ externalBarAdvertised b = true ∧ (route b.instrument).isSome)
    ⟨fun h => ⟨h.1, h.2.1, h.2.2⟩, fun h => ⟨h.external, h.advertised, h.routed⟩⟩

/-- A call near the bar type waits for the session. -/
def Stage.near (b : BarType) : Stage → Bool
  | .waiting p _ => decide (Near route b p.barType)
  | .ended _ => false

/-- An unsubscription near the bar type waits for the session. -/
def Stage.leavesNear (b : BarType) : Stage → Bool
  | .waiting (.unsubscribing b' _ _) _ => decide (Near route b b')
  | _ => false

/-- Where the bar type is the last of its duration, none of the rival one is registered. -/
def LastApart (m : Market) (b : BarType) : Prop :=
  b ∈ m.registered →
    (∀ b' ∈ m.registered, b' ≠ b → route b'.instrument = route b.instrument →
      b'.seconds ≠ b.seconds) →
    ∀ b' ∈ m.registered, route b'.instrument = route b.instrument → b'.seconds ≠ rival b.seconds

/-- Where no other bar type near this one is registered, no call near it waits for the session. -/
def Unhurried (P : Pool Market Stage) (b : BarType) : Prop :=
  Ready route b → (∀ b' ∈ P.shared.registered, b' ≠ b → ¬ Near route b b') →
    ∀ st ∈ P.threads, st.near route b = false

instance (m : Market) (b : BarType) : Decidable (LastApart route m b) :=
  inferInstanceAs (Decidable (_ → (∀ b' ∈ m.registered, _) → _))

instance (P : Pool Market Stage) (b : BarType) : Decidable (Unhurried route P b) :=
  inferInstanceAs (Decidable (_ → (∀ b' ∈ P.shared.registered, _) → _))

/-- A one-minute bar comes while no bar type of sixty minutes is registered for its instrument, and the
last bar type of the one duration is removed while none of the other is registered.  No subscription
begins while an unsubscription near it waits for the session, and no unsubscription that finds no other
bar type near its own begins while a call near it waits. -/
def Apart (P : Pool Market Stage) : Move Call Act → Prop
  | .spawn (.event feed _) => feed.rtype = rithmicMinute ∧ feed.period = 1 →
    ∀ b ∈ P.shared.registered, Of route feed b → b.seconds ≠ 3600
  | .spawn (.unsubscribe b) => LastApart route P.shared b ∧ Unhurried route P b
  | .spawn (.subscribe b) => Ready route b → ∀ st ∈ P.threads, st.leavesNear route b = false
  | _ => True

instance (P : Pool Market Stage) : DecidablePred (Apart route P) := by
  intro m
  unfold Apart
  split <;> infer_instance

end Runs

/-! ### Wire periods -/

theorem barWirePeriodKeys_of {b : BarType} {rtype period : Int}
    (h : barTypeToRithmic b = .ok (rtype, period)) (hzero : (b.seconds : Int) ≠ 0)
    (hne : (b.seconds : Int) ≠ period) : barWirePeriodKeys b = .ok [period, b.seconds] := by
  simp only [barWirePeriodKeys, h, bind, Except.bind, pure, Except.pure]
  rw [if_pos ⟨hzero, hne⟩]

/-- What the advertised bar types are on the wire: minutes, with the period in both units, or days. -/
theorem wire_of_advertised {b : BarType} (h : externalBarAdvertised b = true) : ∃ rtype period : Int,
    barTypeToRithmic b = .ok (rtype, period) ∧ barWirePeriodKeys b = .ok [period, b.seconds] ∧
    ((rtype = 2 ∧ b.seconds = 60 * period ∧ (period = 1 ∨ period = 15 ∨ period = 60)) ∨
      (rtype = 3 ∧ period = 1 ∧ b.seconds = 86400)) := by
  simp only [externalBarAdvertised, decide_eq_true_eq, List.mem_cons, List.not_mem_nil,
    or_false] at h
  have hstep : ¬ b.step < 1 := by omega
  obtain ⟨hagg, hstep'⟩ | ⟨hagg, hstep'⟩ | ⟨hagg, hstep'⟩ := h
  · have hto : barTypeToRithmic b = .ok (2, b.step) := by
      simp [barTypeToRithmic, hstep, hagg, rithmicMinute]
    have hseconds : b.seconds = b.step * 60 := by simp [BarType.seconds, hagg, Aggregation.seconds]
    have hkeys := barWirePeriodKeys_of hto (by omega) (by omega)
    exact ⟨2, b.step, hto, hkeys, .inl ⟨rfl, by omega, by omega⟩⟩
  · have hto : barTypeToRithmic b = .ok (2, 60) := by
      simp [barTypeToRithmic, hagg, hstep', rithmicMinute]
    have hseconds : b.seconds = 3600 := by
      simp [BarType.seconds, hagg, hstep', Aggregation.seconds]
    have hkeys := barWirePeriodKeys_of hto (by omega) (by omega)
    exact ⟨2, 60, hto, hkeys, .inl ⟨rfl, by omega, by omega⟩⟩
  · have hto : barTypeToRithmic b = .ok (3, 1) := by
      simp [barTypeToRithmic, hagg, hstep', rithmicDaily]
    have hseconds : b.seconds = 86400 := by
      simp [BarType.seconds, hagg, hstep', Aggregation.seconds]
    have hkeys := barWirePeriodKeys_of hto (by omega) (by omega)
    exact ⟨3, 1, hto, hkeys, .inr ⟨rfl, rfl, hseconds⟩⟩

section Keys

variable (route : String → Option (String × String))

/-- The keys that a bar type is registered under. -/
def keysOf (b : BarType) : List Key :=
  match route b.instrument, barTypeToRithmic b, barWirePeriodKeys b with
  | some (symbol, exchange), .ok (rtype, _), .ok periods =>
    periods.map (Key.mk symbol exchange rtype)
  | _, _, _ => []

variable {route} {b b' : BarType}

/-- The feed and the keys of a bar type are those that the calls work out. -/
theorem Ready.request (h : Ready route b) {symbol exchange : String}
    (hroute : route b.instrument = some (symbol, exchange)) : ∃ rtype period periods,
    barTypeToRithmic b = .ok (rtype, period) ∧ barWirePeriodKeys b = .ok periods ∧
    feedOf route b = some ⟨symbol, exchange, rtype, period⟩ ∧
    keysOf route b = periods.map (Key.mk symbol exchange rtype) := by
  obtain ⟨rtype, period, hto, hkeys, -⟩ := wire_of_advertised h.advertised
  refine ⟨rtype, period, _, hto, hkeys, ?_, ?_⟩
  · simp [feedOf, hroute, hto]
  · simp [keysOf, hroute, hto, hkeys]

/-- The route, the feed and the keys of a bar type that can be registered. -/
theorem Ready.wire (h : Ready route b) : ∃ symbol exchange, ∃ rtype period : Int,
    route b.instrument = some (symbol, exchange) ∧
    feedOf route b = some ⟨symbol, exchange, rtype, period⟩ ∧
    keysOf route b = [⟨symbol, exchange, rtype, period⟩, ⟨symbol, exchange, rtype, b.seconds⟩] ∧
    ((rtype = 2 ∧ b.seconds = 60 * period ∧ (period = 1 ∨ period = 15 ∨ period = 60)) ∨
      (rtype = 3 ∧ period = 1 ∧ b.seconds = 86400)) := by
  obtain ⟨⟨symbol, exchange⟩, hroute⟩ := Option.isSome_iff_exists.mp h.routed
  obtain ⟨rtype, period, hto, hkeys, hcases⟩ := wire_of_advertised h.advertised
  refine ⟨symbol, exchange, rtype, period, hroute, ?_, ?_, hcases⟩
  · simp [feedOf, hroute, hto]
  · simp [keysOf, hroute, hto, hkeys]

/-- One feed serves one route and one duration. -/
theorem Ready.feedOf_eq_iff (h : Ready route b) (h' : Ready route b') :
    feedOf route b' = feedOf route b ↔
      route b'.instrument = route b.instrument ∧ b'.seconds = b.seconds := by
  obtain ⟨s, e, r, p, hroute, hfeed, -, hwire⟩ := h.wire
  obtain ⟨s', e', r', p', hroute', hfeed', -, hwire'⟩ := h'.wire
  simp only [hroute, hroute', hfeed, hfeed', Option.some.injEq, Key.mk.injEq, Prod.mk.injEq]
  constructor
  · rintro ⟨rfl, rfl, rfl, rfl⟩
    exact ⟨⟨rfl, rfl⟩, by omega⟩
  · rintro ⟨⟨rfl, rfl⟩, hseconds⟩
    exact ⟨rfl, rfl, by omega, by omega⟩

/-- Two bar types of a route share a key where they are of one duration, or of one minute and of
sixty. -/
theorem Ready.shares_key_iff (h : Ready route b) (h' : Ready route b') :
    (∃ key ∈ keysOf route b, key ∈ keysOf route b') ↔ Near route b b' := by
  obtain ⟨s, e, r, p, hroute, -, hkeys, hwire⟩ := h.wire
  obtain ⟨s', e', r', p', hroute', -, hkeys', hwire'⟩ := h'.wire
  simp only [hroute, hroute', hkeys, hkeys', List.mem_cons, List.not_mem_nil, or_false,
    exists_eq_or_imp, exists_eq_left, Key.mk.injEq, Option.some.injEq, Prod.mk.injEq, Near, rival]
  constructor
  · rintro ((⟨rfl, rfl, rfl, hp⟩ | ⟨rfl, rfl, rfl, hp⟩) | (⟨rfl, rfl, rfl, hp⟩ | ⟨rfl, rfl, rfl, hp⟩)) <;>
      exact ⟨⟨rfl, rfl⟩, by split <;> (try split) <;> omega⟩
  · rintro ⟨⟨rfl, rfl⟩, hseconds⟩
    have hr : r' = r := by
      split at hseconds
      · omega
      · split at hseconds <;> omega
    subst hr
    simp only [true_and]
    split at hseconds
    · omega
    · split at hseconds <;> omega

/-- The key of a bar of a feed is a key of the bar types of its instrument and its duration; of a
one-minute feed, also of those of sixty minutes. -/
theorem Ready.echo_mem_iff (h : Ready route b) {feed : Key} (hfeed : feed.Advertised)
    (hapart : feed.rtype = rithmicMinute ∧ feed.period = 1 → Of route feed b → b.seconds ≠ 3600) :
    (⟨feed.symbol, feed.exchange, feed.rtype, feed.seconds⟩ : Key) ∈ keysOf route b ↔
      Of route feed b ∧ (b.seconds : Int) = feed.seconds := by
  obtain ⟨s, e, r, p, hroute, -, hkeys, hwire⟩ := h.wire
  obtain ⟨symbol, exchange, rtype, period⟩ := feed
  simp only [Key.Advertised, List.mem_cons, List.not_mem_nil, or_false, Prod.mk.injEq,
    rithmicMinute, rithmicDaily] at hfeed
  simp only [Of, hroute, Option.some.injEq, Prod.mk.injEq, rithmicMinute] at hapart
  have hunit : (rtype = 2 → unitSeconds rtype = 60) ∧ (rtype = 3 → unitSeconds rtype = 86400) := by
    refine ⟨?_, ?_⟩ <;> rintro rfl <;> rfl
  simp only [hkeys, List.mem_cons, List.not_mem_nil, or_false, Key.mk.injEq, Of, hroute,
    Option.some.injEq, Prod.mk.injEq, Key.seconds]
  generalize unitSeconds rtype = unit at hunit ⊢
  constructor
  · rintro (⟨rfl, rfl, rfl, hp⟩ | ⟨rfl, rfl, rfl, hp⟩)
    · refine ⟨⟨rfl, rfl⟩, ?_⟩
      have hne : rtype = 2 ∧ period = 1 → b.seconds ≠ 3600 := fun hone => hapart hone ⟨rfl, rfl⟩
      obtain ⟨rfl, rfl⟩ | ⟨rfl, rfl⟩ | ⟨rfl, rfl⟩ | ⟨rfl, rfl⟩ := hfeed <;> omega
    · exact ⟨⟨rfl, rfl⟩, hp.symm⟩
  · rintro ⟨⟨rfl, rfl⟩, hseconds⟩
    right
    refine ⟨rfl, rfl, ?_, hseconds.symm⟩
    obtain ⟨rfl, rfl⟩ | ⟨rfl, rfl⟩ | ⟨rfl, rfl⟩ | ⟨rfl, rfl⟩ := hfeed <;> omega

end Keys

/-! ### The dictionary -/

/-- The entry of a set: none where it is empty. -/
def entry (S : Finset BarType) : Option (Finset BarType) := if S = ∅ then none else some S

@[simp] theorem getD_entry (S : Finset BarType) : (entry S).getD ∅ = S := by
  unfold entry
  split
  · next h => simp [h]
  · rfl

theorem entry_of_mem {S : Finset BarType} {b : BarType} (h : b ∈ S) : entry S = some S := by
  unfold entry
  rw [if_neg (Finset.ne_empty_of_mem h)]

@[simp] theorem isSome_entry (S : Finset BarType) : (entry S).isSome = true ↔ ∃ b, b ∈ S := by
  unfold entry
  split
  · next h => simp [h]
  · next h =>
    rw [Option.isSome_some, eq_self, true_iff]
    exact Finset.nonempty_iff_ne_empty.mpr h

namespace Client

variable {b : BarType} {types : Key → Option (Finset BarType)} {key : Key} {keys : List Key}

theorem add_apply (k : Key) :
    add b types key k = if k = key then entry (insert b ((types k).getD ∅)) else types k := by
  rw [add, Function.update_apply]
  split
  · next h => rw [h, entry_of_mem (Finset.mem_insert_self _ _)]
  · rfl

theorem discard_apply (k : Key) :
    discard b types key k = if k = key then entry (((types k).getD ∅).erase b) else types k := by
  by_cases hk : k = key
  · subst hk
    rw [if_pos rfl, discard]
    cases hmapped : types k with
    | none => simp [hmapped, entry]
    | some mapped =>
      simp only [Option.getD_some, entry]
      split <;> simp
  · rw [if_neg hk, discard]
    cases types key with
    | none => rfl
    | some mapped =>
      simp only
      split <;> rw [Function.update_of_ne hk]

theorem restore_apply {S : Finset BarType} (k : Key) :
    restore types (key, S) k = if k = key then entry S else types k := by
  rw [restore, Function.update_apply, entry]

theorem foldl_add_apply (k : Key) : keys.foldl (add b) types k =
    if k ∈ keys then entry (insert b ((types k).getD ∅)) else types k := by
  induction keys generalizing types with
  | nil => simp
  | cons key keys ih =>
    rw [List.foldl_cons, ih, add_apply]
    by_cases hk : k = key <;> simp [hk]

theorem foldl_discard_apply (k : Key) : keys.foldl (discard b) types k =
    if k ∈ keys then entry (((types k).getD ∅).erase b) else types k := by
  induction keys generalizing types with
  | nil => simp
  | cons key keys ih =>
    rw [List.foldl_cons, ih, discard_apply]
    by_cases hk : k = key <;> simp [hk]

theorem foldl_restore_apply {f : Key → Finset BarType} (k : Key) :
    (keys.map fun key => (key, f key)).foldl restore types k =
      if k ∈ keys then entry (f k) else types k := by
  induction keys generalizing types with
  | nil => simp
  | cons key keys ih =>
    rw [List.map_cons, List.foldl_cons, ih, restore_apply]
    by_cases hk : k = key <;> simp [hk]

/-! ### The calls -/

/-- A subscription ends at once, or waits with the feed of a bar type that can be registered. -/
theorem subscribeBars_cases (route : String → Option (String × String)) (b : BarType) :
    (∃ raised, subscribeBars route b = .ended raised) ∨
    ∃ feed, Ready route b ∧ feedOf route b = some feed ∧
      subscribeBars route b = .waits (.subscribing b feed) := by
  unfold subscribeBars
  by_cases hexternal : b.external = true
  · rw [if_neg (by simp [hexternal])]
    by_cases hadvertised : externalBarAdvertised b = true
    · rw [if_neg (by simp [hadvertised])]
      cases hroute : route b.instrument with
      | none => exact .inl ⟨_, rfl⟩
      | some r =>
        obtain ⟨symbol, exchange⟩ := r
        have hready : Ready route b := ⟨hexternal, hadvertised, by simp [hroute]⟩
        obtain ⟨rtype, period, periods, hto, -, hfeed, -⟩ := hready.request hroute
        simp only [hto]
        exact .inr ⟨_, hready, hfeed, rfl⟩
    · exact .inl ⟨_, if_pos (by simp [hadvertised])⟩
  · exact .inl ⟨_, if_pos (by simp [hexternal])⟩

/-- The dictionary after the bar type is taken out of its keys. -/
def without (route : String → Option (String × String)) (c : Client) (b : BarType) :
    Key → Option (Finset BarType) := (keysOf route b).foldl (discard b) c.barTypes

/-- The cases of an unsubscription: there is nothing to remove; a key is still used; or it waits with
the entries that the keys had. -/
theorem unsubscribeBars_cases (route : String → Option (String × String)) (c : Client) (b : BarType) :
    (¬ Ready route b ∧ ∃ raised, c.unsubscribeBars route b = (c, .ended raised)) ∨
    (Ready route b ∧ (∃ key ∈ keysOf route b, (c.without route b key).isSome) ∧
      c.unsubscribeBars route b = ({ c with barTypes := c.without route b }, .ended none)) ∨
    ∃ feed, Ready route b ∧ feedOf route b = some feed ∧
      (∀ key ∈ keysOf route b, ¬ (c.without route b key).isSome) ∧
      c.unsubscribeBars route b = ({ c with barTypes := c.without route b },
        .waits (.unsubscribing b feed
          ((keysOf route b).map fun key => (key, (c.barTypes key).getD ∅)))) := by
  unfold unsubscribeBars without
  by_cases hexternal : b.external = true
  · rw [if_neg (by simp [hexternal])]
    by_cases hadvertised : externalBarAdvertised b = true
    · rw [if_neg (by simp [hadvertised])]
      cases hroute : route b.instrument with
      | none => exact .inl ⟨fun h => by simpa [hroute] using h.routed, _, rfl⟩
      | some r =>
        obtain ⟨symbol, exchange⟩ := r
        have hready : Ready route b := ⟨hexternal, hadvertised, by simp [hroute]⟩
        obtain ⟨rtype, period, periods, hto, hperiods, hfeed, hkeys⟩ := hready.request hroute
        simp only [hto, hperiods, hkeys]
        generalize periods.map (Key.mk symbol exchange rtype) = keys
        split
        · next hany => exact .inr (.inl ⟨hready, List.any_eq_true.mp hany, rfl⟩)
        · next hany =>
          have hnone : ∀ key ∈ keys, ¬ (keys.foldl (discard b) c.barTypes key).isSome = true := by
            intro key hkey hsome
            exact hany (List.any_eq_true.mpr ⟨key, hkey, hsome⟩)
          exact .inr (.inr ⟨_, hready, hfeed, hnone, rfl⟩)
    · exact .inl ⟨fun h => hadvertised h.advertised, _, if_pos (by simp [hadvertised])⟩
  · exact .inl ⟨fun h => hexternal h.external, _, if_pos (by simp [hexternal])⟩

/-- The end of a subscription registers under the keys of the bar type. -/
theorem resume_subscribing {route : String → Option (String × String)} {feed : Key}
    (hb : Ready route b) (hfeed : feedOf route b = some feed) (c : Client) :
    c.resume none (.subscribing b feed) =
      ({ c with barTypes := (keysOf route b).foldl (add b) c.barTypes }, none) := by
  obtain ⟨⟨symbol, exchange⟩, hroute⟩ := Option.isSome_iff_exists.mp hb.routed
  obtain ⟨rtype, period, periods, -, hperiods, hfeed', hkeys⟩ := hb.request hroute
  obtain rfl := Option.some.inj (hfeed.symm.trans hfeed')
  simp only [resume, hperiods, hkeys]

/-- No call changes the marks. -/
theorem last_unsubscribeBars (route : String → Option (String × String)) (c : Client) (b : BarType) :
    (c.unsubscribeBars route b).1.last = c.last := by
  rcases unsubscribeBars_cases route c b with ⟨-, _, h⟩ | ⟨-, -, h⟩ | ⟨_, -, -, -, h⟩ <;> rw [h]

theorem last_resume (c : Client) (session : Option String) (p : Place) :
    (c.resume session p).1.last = c.last := by
  unfold resume
  split
  · split
    · rfl
    · split <;> rfl
  · split <;> rfl

end Client

end RithmicNt.Adapter.Bars
