import Mathlib.Data.Finset.SDiff
import RithmicNt.Host.Restore
import RithmicNt.Lib.Pool

/-! The plants of a session and their logins at the venue: connects, disconnects, bring-ups and
resets as threads, each cut at its awaits.  A call of the session runs under its lock `inner`; a
ticker reset holds `ticker_reset` throughout and the session only to begin and to finish. -/

namespace RithmicNt.Plants.Logins

open RithmicNt.Lib RithmicNt.Host

structure PlantSet where
  ticker : Bool := false
  history : Bool := false
  pnl : Bool := false
  deriving DecidableEq, Repr

def PlantSet.union (s extra : PlantSet) : PlantSet where
  ticker := s.ticker || extra.ticker
  history := s.history || extra.history
  pnl := s.pnl || extra.pnl

/-- A login at the venue: the plant it is for, and its number among the logins of the session. -/
abbrev Login := Stream × Nat

/-- `config`: `to_rithmic_config` succeeds; `account`: the configuration names the account; `slot`:
the fields `ticker`, `history`, `pnl` and `order`, with the login of the plant that is there.
`opened` are the logins made and not yet logged out, `letGo` those of them whose plant was dropped
without a logout.  `down`: a disconnect or the roll back of a connect has closed every plant, and
nothing that brings a plant up has begun since; `renewing`: the epoch of the ticker reset in flight. -/
structure Session where
  config : Bool
  account : Bool
  plants : PlantSet
  resolvedAccount : Bool
  slot : Stream → Option Nat := fun _ => none
  epoch : Nat := 0
  reset : Option Nat := none
  inner : Option Nat := none
  logins : Nat := 0
  opened : Finset Login := ∅
  letGo : Finset Login := ∅
  down : Bool := false
  renewing : Option Nat := none

def Session.withPlants (config account : Bool) (plants : PlantSet) : Session where
  config := config
  account := account
  plants := plants
  resolvedAccount := account

inductive Answer
  | ok
  | alreadyConnected
  | failed
  | dropped
  deriving DecidableEq, Repr

/-- `ensurePlant` is `ensure_order_plant` or `ensure_pnl_plant`; `subscribeOrders` is either subscribe of
the order plant, `disconnectPlant` either disconnect of one plant. -/
inductive Call
  | connect
  | disconnect
  | requestPlants (extra : PlantSet)
  | ensurePlant (p : Stream)
  | subscribeOrders
  | disconnectPlant (p : Stream)
  | resetTicker
  | resetHistory
  deriving DecidableEq, Repr

/-- The calls that bring plants up. -/
inductive Task
  | connect
  | requestPlants
  | ensurePlant
  | subscribeOrders
  | resetHistory
  deriving DecidableEq, Repr

/-- What follows a row of closes: `down` where every plant is closed, `finish` where one is. -/
inductive Next
  | down (a : Answer)
  | finish (a : Answer)
  | reopenHistory
  deriving DecidableEq, Repr

/-- Where a call waits.  It holds the session from `opening` to `closing`; a ticker reset holds the
reset lock from `innerWait` on, with the epoch it began in, and the session in `tickerDropping`.
`discovering`, `listing` and `leaving` are the stages of `resolve_account`. -/
inductive Place
  | resetWait (c : Call)
  | innerWait (c : Call)
  | opening (t : Task) (p : Stream)
  | probing (t : Task)
  | discovering (t : Task) (p : Stream)
  | listing (t : Task) (p : Stream) (n : Nat)
  | leaving (t : Task) (p : Stream) (n : Nat) (picked : Bool)
  | subscribing (openedHere : Bool)
  | closing (next : Next) (p : Stream) (n : Nat) (rest : List Stream)
  | tickerClosing (epoch n : Nat) (wanted : Bool)
  | tickerOpening (epoch : Nat)
  | tickerFinish (epoch : Nat) (plant : Option Nat)
  | tickerDropping (epoch n : Nat)
  | done (a : Answer)
  deriving DecidableEq, Repr

/-- `answer`: the venue answers a request; a login that it refuses is logged out again before the
answer.  `drop`: the future of the call is dropped; `landed`: a login it was waiting for has reached
the venue. -/
inductive Act
  | go
  | answer (ok : Bool)
  | drop (landed : Bool)
  deriving DecidableEq, Repr

namespace Session

def release (s : Session) (i : Nat) : Session :=
  { s with
    reset := if s.reset = some i then none else s.reset
    inner := if s.inner = some i then none else s.inner
    renewing := if s.reset = some i then none else s.renewing }

def finish (s : Session) (i : Nat) (a : Answer) : Session × Place := (s.release i, .done a)

/-- A login for `p` succeeds. -/
def login (s : Session) (p : Stream) : Session :=
  { s with logins := s.logins + 1, opened := insert (p, s.logins) s.opened }

def install (s : Session) (p : Stream) (n : Nat) : Session :=
  { s with slot := Function.update s.slot p (some n) }

def vacate (s : Session) (p : Stream) : Session := { s with slot := Function.update s.slot p none }

def logout (s : Session) (l : Login) : Session := { s with opened := s.opened.erase l }

def abandon (s : Session) (l : Login) : Session := { s with letGo := insert l s.letGo }

def isUp (s : Session) : Bool :=
  (s.slot .ticker).isSome || (s.slot .history).isSome || (s.slot .pnl).isSome

/-! ### Closing -/

def after (s : Session) (i : Nat) : Next → Session × Place
  | .down a => ({ s with down := true } : Session).finish i a
  | .finish a => s.finish i a
  | .reopenHistory =>
    if !s.plants.history then s.finish i .ok
    else if s.config then (s, .opening .resetHistory .history)
    else s.finish i .failed

/-- Each plant is taken out of the session and logged out, in the order of the list. -/
def close (s : Session) (i : Nat) (next : Next) : List Stream → Session × Place
  | [] => s.after i next
  | p :: rest =>
    match s.slot p with
    | some n => (s.vacate p, .closing next p n rest)
    | none => s.close i next rest

def disconnect (s : Session) (i : Nat) (a : Answer) : Session × Place :=
  ({ s with epoch := s.epoch + 1 } : Session).close i (.down a) [.order, .pnl, .history, .ticker]

/-! ### Bring-ups -/

/-- The last line of `connect` sets the order plant to `None`. -/
def connected (s : Session) (i : Nat) : Session × Place :=
  match s.slot .order with
  | some n => ((s.vacate .order).abandon (.order, n)).finish i .ok
  | none => s.finish i .ok

def connectPnl (s : Session) (i : Nat) : Session × Place :=
  if s.plants.pnl && s.account then (s, .opening .connect .pnl) else s.connected i

def connectHistory (s : Session) (i : Nat) : Session × Place :=
  if s.plants.history then (s, .opening .connect .history) else s.connectPnl i

def connectTicker (s : Session) (i : Nat) : Session × Place :=
  if s.plants.ticker then (s, .opening .connect .ticker) else s.connectHistory i

def connect (s : Session) (i : Nat) : Session × Place :=
  if s.isUp then s.finish i .alreadyConnected
  else
    let s : Session := { s with epoch := s.epoch + 1 }
    if s.config then s.connectTicker i else s.finish i .failed

def ensured (s : Session) (i : Nat) (openedHere : Bool) : Task → Session × Place
  | .subscribeOrders => (s, .subscribing openedHere)
  | _ => s.finish i .ok

/-- The account is resolved. -/
def connectPlant (s : Session) (i : Nat) (t : Task) (p : Stream) : Session × Place :=
  let s : Session := { s with resolvedAccount := true }
  if s.config then (s, .opening t p) else s.finish i .failed

def ensurePlant (s : Session) (i : Nat) (t : Task) (p : Stream) : Session × Place :=
  if (s.slot p).isSome then s.ensured i false t
  else if (s.slot .ticker).isNone then s.finish i .failed
  else if s.account || s.resolvedAccount then s.connectPlant i t p
  else if s.config then (s, .discovering t p)
  else s.finish i .failed

def requestPnl (s : Session) (i : Nat) : Session × Place :=
  if s.plants.pnl && (s.slot .pnl).isNone && s.account then s.ensurePlant i .requestPlants .pnl
  else s.finish i .ok

def requestHistory (s : Session) (i : Nat) : Session × Place :=
  if s.plants.history && (s.slot .history).isNone then (s, .opening .requestPlants .history)
  else s.requestPnl i

def requestTicker (s : Session) (i : Nat) : Session × Place :=
  if s.plants.ticker && (s.slot .ticker).isNone then (s, .opening .requestPlants .ticker)
  else s.requestHistory i

def requestPlants (s : Session) (i : Nat) (extra : PlantSet) : Session × Place :=
  let s : Session := { s with plants := s.plants.union extra }
  if !s.isUp then s.finish i .ok
  else if s.config then s.requestTicker i
  else s.finish i .failed

/-- `connect_*` returns a plant. -/
def plantConnected (s : Session) (i : Nat) (t : Task) (p : Stream) : Session × Place :=
  let s := (s.login p).install p s.logins
  match t, p with
  | .connect, .ticker => s.connectHistory i
  | .connect, .history => (s, .probing .connect)
  | .connect, _ => s.connected i
  | .requestPlants, .ticker => s.requestHistory i
  | .requestPlants, .history => (s, .probing .requestPlants)
  | .resetHistory, _ => (s, .probing .resetHistory)
  | t, _ => s.ensured i true t

def unopened (s : Session) (i : Nat) : Task → Session × Place
  | .connect => s.disconnect i .failed
  | _ => s.finish i .failed

def proved (s : Session) (i : Nat) : Task → Session × Place
  | .connect => s.connectPnl i
  | .requestPlants => s.requestPnl i
  | _ => s.finish i .ok

/-- A history plant that answers no load is closed again, unless it replaces another. -/
def unproved (s : Session) (i : Nat) : Task → Session × Place
  | .connect => s.disconnect i .failed
  | .requestPlants => s.close i (.finish .failed) [.history]
  | _ => s.finish i .failed

/-! ### Ticker resets -/

def beginTickerReset (s : Session) (i : Nat) : Session × Place :=
  if s.plants.ticker && !s.config then s.finish i .failed
  else
    let s : Session := { s with renewing := some s.epoch }
    match s.slot .ticker with
    | some n => (s.vacate .ticker, .tickerClosing s.epoch n s.plants.ticker)
    | none => (s, if s.plants.ticker then .tickerOpening s.epoch else .tickerFinish s.epoch none)

def finishTickerReset (s : Session) (i epoch : Nat) : Option Nat → Session × Place
  | none => s.finish i .ok
  | some n =>
    if epoch = s.epoch ∧ s.slot .ticker = none then (s.install .ticker n).finish i .ok
    else ({ s with inner := some i }, .tickerDropping epoch n)

/-! ### Steps -/

/-- The call has the session.  Only a disconnect leaves it down. -/
def enter (s : Session) (i : Nat) : Call → Session × Place
  | .connect => ({ s with inner := some i, down := false } : Session).connect i
  | .disconnect => ({ s with inner := some i } : Session).disconnect i .ok
  | .requestPlants extra =>
    ({ s with inner := some i, down := false } : Session).requestPlants i extra
  | .ensurePlant p => ({ s with inner := some i, down := false } : Session).ensurePlant i .ensurePlant p
  | .subscribeOrders =>
    ({ s with inner := some i, down := false } : Session).ensurePlant i .subscribeOrders .order
  | .disconnectPlant p => ({ s with inner := some i } : Session).close i (.finish .ok) [p]
  | .resetTicker => ({ s with down := false } : Session).beginTickerReset i
  | .resetHistory =>
    ({ s with inner := some i, down := false } : Session).close i .reopenHistory [.history]

end Session

namespace Call

/-- `bring_up` and `reset_ticker` wait for the reset lock first. -/
def first (c : Call) : Place :=
  match c with
  | .connect | .requestPlants _ | .ensurePlant _ | .subscribeOrders | .resetTicker => .resetWait c
  | .disconnect | .disconnectPlant _ | .resetHistory => .innerWait c

/-- The calls of the source: a session ensures or disconnects its order plant or its PnL plant. -/
def Valid : Call → Prop
  | .ensurePlant p | .disconnectPlant p => p = .order ∨ p = .pnl
  | _ => True

instance : DecidablePred Valid := by
  intro c
  unfold Valid
  split <;> infer_instance

end Call

namespace Place

/-- The login that the call has in its hands. -/
def hand : Place → Option Login
  | .listing _ _ n | .leaving _ _ n _ => some (.order, n)
  | .closing _ p n _ => some (p, n)
  | .tickerClosing _ n _ | .tickerDropping _ n => some (.ticker, n)
  | .tickerFinish _ n => n.map (Prod.mk .ticker)
  | _ => none

/-- The plant that the call waits to be logged in. -/
def awaits : Place → Option Stream
  | .opening _ p => some p
  | .discovering _ _ => some .order
  | .tickerOpening _ => some .ticker
  | _ => none

end Place

namespace Session

/-- What the call has in its hands is dropped with it, and with it what it waits for. -/
def drop (s : Session) (i : Nat) (landed : Bool) (p : Place) : Session × Place :=
  match p.hand, p.awaits with
  | some l, _ => (s.abandon l).finish i .dropped
  | none, some p =>
    if landed then ((s.login p).abandon (p, s.logins)).finish i .dropped else s.finish i .dropped
  | none, none => s.finish i .dropped

def run (i : Nat) (s : Session) : Place → Act → Option (Session × Place)
  | .done _, _ => none
  | p, .drop landed => some (s.drop i landed p)
  | .resetWait c, .go =>
    if s.reset = none then some ({ s with reset := some i }, .innerWait c) else none
  | .innerWait c, .go => if s.inner = none then some (s.enter i c) else none
  | .opening t p, .answer ok => some (if ok then s.plantConnected i t p else s.unopened i t)
  | .probing t, .answer ok => some (if ok then s.proved i t else s.unproved i t)
  | .discovering t p, .answer ok =>
    some (if ok then (s.login .order, .listing t p s.logins) else s.finish i .failed)
  | .listing t p n, .answer picked => some (s, .leaving t p n picked)
  | .leaving t p n picked, .go =>
    let s := s.logout (.order, n)
    some (if picked then s.connectPlant i t p else s.finish i .failed)
  | .subscribing openedHere, .answer ok =>
    some (if ok then s.finish i .ok
      else if openedHere then s.close i (.finish .failed) [.order]
      else s.finish i .failed)
  | .closing next p n rest, .go => some ((s.logout (p, n)).close i next rest)
  | .tickerClosing epoch n wanted, .go =>
    some (s.logout (.ticker, n), if wanted then .tickerOpening epoch else .tickerFinish epoch none)
  | .tickerOpening epoch, .answer ok =>
    some (if ok then (s.login .ticker, .tickerFinish epoch (some s.logins)) else s.finish i .failed)
  | .tickerFinish epoch n, .go =>
    if s.inner = none then some (s.finishTickerReset i epoch n) else none
  | .tickerDropping _ n, .go => some ((s.logout (.ticker, n)).finish i .ok)
  | _, _ => none

def spawn (_ : Nat) (s : Session) (c : Call) : Option (Session × Place) :=
  if c.Valid then some (s, c.first) else none

def code : Program Session Place Call Act where
  spawn := spawn
  run := run

end Session

def machine : Machine (Pool Session Place) (Move Call Act) :=
  Session.code.machine fun s => ∃ config account plants, s = .withPlants config account plants

/-- A login that is open and was not let go. -/
def Session.Kept (s : Session) (l : Login) : Prop := l ∈ s.opened ∧ l ∉ s.letGo

instance (s : Session) : DecidablePred s.Kept := fun _ => inferInstanceAs (Decidable (_ ∧ _))

/-- No future is dropped, and no connect that goes on finds an order plant. -/
def Careful (P : Pool Session Place) : Move Call Act → Prop
  | .run _ (.drop _) => False
  | .run i _ => P.threads[i]? = some (.innerWait .connect) → P.shared.slot .order = none ∨ P.shared.isUp
  | .spawn _ => True

instance (P : Pool Session Place) : DecidablePred (Careful P) := by
  intro m
  unfold Careful
  split <;> infer_instance

end RithmicNt.Plants.Logins
