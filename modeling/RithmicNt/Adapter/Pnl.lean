import RithmicNt.Lib.Dict
import RithmicNt.Exec.Ident
import RithmicNt.Exec.Exposure
import RithmicNt.Adapter.Account

/-! The PnL side of the execution client: the rows of the PnL stream, the state they leave behind,
what resets that state, and the two readings of it, the exposure net and the position reports of a
mass status. -/

namespace RithmicNt.Adapter.Pnl

open RithmicNt.Lib RithmicNt.Exec

/-- What the handlers call and this repository does not define. -/
structure Env where
  /-- The uppercase table of Unicode. -/
  upper : Char → List Char
  /-- `Decimal(text)`: `none` where it raises, `some none` where the value is not finite. -/
  decimal : String → Option (Option Rat)
  accepts : Accepts
  instrumentIdOk : String → Bool
  source : AccountSource

structure AccountPnl where
  accountId : Option String := none
  cashOnHand : Option String := none
  accountBalance : Option String := none
  deriving DecidableEq, Repr

structure InstrumentPnl where
  accountId : Option String := none
  symbol : Option String := none
  exchange : Option String := none
  netQuantity : Option Int := none
  deriving DecidableEq, Repr

inductive Row
  | account (event : AccountPnl)
  | instrument (event : InstrumentPnl)
  /-- The stream dropped events for a slow consumer. -/
  | gap (skipped : Nat)
  deriving DecidableEq, Repr

/-- A row on its way to the handlers.  The two flags say whether the account states published while
it is handled, the seed and its own, reach the engine. -/
structure Delivery where
  row : Row
  /-- When the venue pushed the row. -/
  pushed : Nat
  seedPublishes : Bool := true
  statePublishes : Bool := true
  /-- How far the clock moves before it is handled. -/
  elapsed : Nat := 0
  deriving DecidableEq, Repr

/-- The fields of a readable `instrument_pnl` row. -/
structure Position where
  accountId : Option String
  instrumentId : String
  symbol : String
  side : PositionSide
  quantity : Int
  deriving DecidableEq, Repr

def Position.row (p : Position) : PositionRow := ⟨p.symbol, p.quantity, p.side⟩

/-- The mark that a row without a symbol leaves: it could be any root. -/
def anySymbol : String := "*"

/-- `self._unreadable_position_symbols` gains this on an unreadable row. -/
def InstrumentPnl.mark (d : InstrumentPnl) : String :=
  let symbol := strip (d.symbol.getD "")
  if symbol = "" then anySymbol else symbol

/-- The fields of the client that the PnL stream writes. -/
structure Client where
  /-- The last reading of the clock; each reading is later than the one before. -/
  clock : Nat := 0
  account : Account := {}
  epoch : Nat := 0
  /-- `_pnl_snapshot_observed`: when it is set, when the row that set it was pushed. -/
  observed : Option Nat := none
  liveSince : Option Nat := none
  positions : Dict String Position := .empty
  seen : Dict String Nat := .empty
  unreadable : List String := []

section

variable (env : Env)

/-- `instrument_pnl_to_fields`; `none` where it raises. -/
def instrumentPnlToFields (d : InstrumentPnl) : Option Position := do
  let symbol ← d.symbol
  let net ← d.netQuantity
  let id ← (instrumentId env.upper symbol d.exchange venue).toOption
  let side := if net > 0 then .long else if net < 0 then .short else .flat
  return ⟨d.accountId, id, symbol, side, net.natAbs⟩

/-- The account id and the finite balance of an `account_pnl` row; `none` where it is ignored. -/
def accountPnlBalance (d : AccountPnl) : Option (String × Rat) := do
  let id ← d.accountId
  let free ← env.decimal ((d.cashOnHand.or d.accountBalance).getD "0")
  return (id, ← free)

/-- Whether the handler of a row may set `_pnl_snapshot_observed`. -/
def Row.isEvidence : Row → Bool
  | .account d => (accountPnlBalance env d).isSome
  | .instrument d => (instrumentPnlToFields env d).isSome
  | .gap _ => false

namespace Client

/-- `_note_pnl_observed`, with the clock reading of the caller or one of its own.  `Event.set` does
nothing when the event is set already. -/
def notePnlObserved (c : Client) (now : Option Nat) (pushed : Nat) : Client :=
  let c := match c.liveSince, now with
    | some _, _ => c
    | none, some now => { c with liveSince := some now }
    | none, none => { c with clock := c.clock + 1, liveSince := some (c.clock + 1) }
  { c with observed := c.observed.or (some pushed) }

def publishAccount (c : Client) (d : AccountPnl) (by_ : Delivery) : Client × Outcome :=
  match accountPnlBalance env d with
  | none => (c, .returned)
  | some (raw, free) =>
    let id := venue ++ "-" ++ raw
    if env.accepts.accountId id = false then (c, .raised)
    else
      let account := { c.account with id := c.account.id.or (some id) }
      let (account, outcome) :=
        account.seedIfNeeded env.accepts env.source (some raw) by_.seedPublishes
      let c := { c with account := account }
      if outcome = .raised then (c, .raised)
      else if env.accepts.money free = false then (c, .raised)
      else
        let key := (id, defaultAccountCurrency, free)
        if c.account.stateKey = some key then (c.notePnlObserved none by_.pushed, .returned)
        else
          let c := { c with clock := c.clock + 1 }
          if by_.statePublishes = false then (c, .raised)
          else
            let c := { c with account := { c.account with stateKey := some key } }
            (c.notePnlObserved none by_.pushed, .returned)

/-- `_cache_position` of a readable row, up to the position write and the seeding.  One clock
reading serves both stamps. -/
def writePosition (c : Client) (fields : Position) (seedPublishes : Bool) : Client × Outcome :=
  let c := { c with
    unreadable := c.unreadable.filter (· ≠ strip fields.symbol)
    clock := c.clock + 1
    positions := c.positions.set fields.instrumentId fields }
  match Account.truthy fields.accountId with
  | none => (c, .returned)
  | some raw =>
    let (account, outcome) := c.account.seedIfNeeded env.accepts env.source (some raw) seedPublishes
    ({ c with account := account }, outcome)

/-- `_cache_position`.  Its last step publishes an exposure snapshot, which reads the clock. -/
def cachePosition (c : Client) (d : InstrumentPnl) (by_ : Delivery) : Client × Outcome :=
  match instrumentPnlToFields env d with
  | none => ({ c with unreadable := c.unreadable.insert d.mark }, .returned)
  | some fields =>
    let now := c.clock + 1
    let (c, outcome) := c.writePosition env fields by_.seedPublishes
    match outcome with
    | .raised => (c, .raised)
    | .returned =>
      let c := c.notePnlObserved (some now) by_.pushed
      ({ c with seen := c.seen.set fields.instrumentId now, clock := c.clock + 1 }, .returned)

/-- `_dispatch_pnl_event`.  The poller takes out the gaps before. -/
def dispatchPnlEvent (c : Client) (by_ : Delivery) : Client × Outcome :=
  let c := { c with clock := c.clock + by_.elapsed }
  match by_.row with
  | .account d => c.publishAccount env d by_
  | .instrument d => c.cachePosition env d by_
  | .gap _ => (c, .returned)

def dispatchBatch (c : Client) (batch : List Delivery) : Client :=
  batch.foldl (fun c by_ => (c.dispatchPnlEvent env by_).1) c

end Client

end

namespace Client

def forgetPnlState (c : Client) : Client :=
  { c with
    epoch := c.epoch + 1, observed := none, liveSince := none
    positions := .empty, seen := .empty, unreadable := [] }

/-- `_resync_pnl_subscription` up to its first await. -/
def resyncPnlSubscription (c : Client) : Client :=
  { c with
    liveSince := none, epoch := c.epoch + 1, observed := none
    unreadable := c.unreadable.filter (· ≠ anySymbol) }

/-- What `_recover_order_gap` does to the PnL state. -/
def recoverOrderGap (c : Client) : Client :=
  { c with epoch := c.epoch + 1, observed := none }

/-! ### Readings -/

variable (env : Env)

def positionUnreadableFor (c : Client) (root : String) : Bool :=
  c.unreadable.any fun symbol => symbol == anySymbol || matchesRoot env.upper symbol root

def rowsSeenSince (c : Client) (live : Nat) : Dict String Position :=
  c.positions.filter fun entry => live ≤ (c.seen.get? entry.1).getD 0

/-- The PnL leg of `_exposure_snapshot`: the net, and since when the stream is live. -/
def exposureNet (c : Client) (root : String) : Option (Int × Nat) :=
  let live := if c.positionUnreadableFor env root then none else c.liveSince
  live.map fun live =>
    (signedNet env.upper ((c.rowsSeenSince live).entries.map (·.2.row)) root, live)

def positionsKnown (c : Client) : Bool :=
  c.liveSince.isSome && !c.unreadable.contains anySymbol

end Client

/-- A `PositionStatusReport`, less its ids and times. -/
structure PositionReport where
  instrumentId : String
  side : PositionSide
  quantity : Int
  deriving DecidableEq, Repr

/-- The engine's cache: the instruments of its open positions at the venue, and those that are
loaded.  The constructors of the two reports may raise. -/
structure PositionCache where
  opens : List String
  loaded : String → Bool
  reportOk : Position → Bool
  flatOk : String → Bool

namespace Client

variable (env : Env)

/-- The loop of `generate_position_status_reports`: the reports so far, the account id, which the
loop may set, and whether it has raised. -/
structure ReportLoop where
  reports : List PositionReport
  accountId : Option String
  outcome : Outcome

/-- The body of the loop, with no instrument filter. -/
def positionReportStep (c : Client) (cache : PositionCache) (loop : ReportLoop)
    (fields : Position) : ReportLoop :=
  let symbol := strip fields.symbol
  if loop.outcome = .raised then loop
  else if symbol ≠ "" ∧ symbol ∈ c.unreadable then loop
  else if env.instrumentIdOk fields.instrumentId = false then { loop with outcome := .raised }
  else if cache.loaded fields.instrumentId = false then loop
  else
    -- `_position_report_from_fields`
    match loop.accountId.or
      ((Account.truthy fields.accountId).map fun raw => venue ++ "-" ++ raw) with
    | none => loop
    | some id =>
      if loop.accountId.isNone ∧ env.accepts.accountId id = false then
        { loop with outcome := .raised }
      else if cache.reportOk fields = false then
        { loop with accountId := some id, outcome := .raised }
      else
        { loop with
          reports := loop.reports ++ [⟨fields.instrumentId, fields.side, fields.quantity⟩]
          accountId := some id }

def positionStatusReports (c : Client) (cache : PositionCache) : ReportLoop :=
  let start : ReportLoop := ⟨[], c.account.id, .returned⟩
  match c.positionsKnown, c.liveSince with
  | true, some live =>
    ((c.rowsSeenSince live).entries.map (·.2)).foldl (c.positionReportStep env cache) start
  | _, _ => start

/-- `augment_soft_mass_flat_for_cache_opens`; `none` where it raises. -/
def augmentSoftMassFlatForCacheOpens (cache : PositionCache) (accountId : Option String)
    (reports : List PositionReport) : Option (List PositionReport) :=
  match accountId with
  | none => some reports
  | some _ =>
    let covered := reports.map (·.instrumentId)
    let flats := cache.opens.filter fun id => id ∉ covered ∧ cache.loaded id
    if flats.all cache.flatOk then some (reports ++ flats.map fun id => ⟨id, .flat, 0⟩) else none

/-- The position reports that `generate_mass_status` adds, `none` where it adds nothing because
something raised, and the account id afterwards. -/
def massStatusPositions (c : Client) (cache : PositionCache) :
    Option (List PositionReport) × Option String :=
  let loop := c.positionStatusReports env cache
  let reports := match loop.outcome with
    | .raised => none
    | .returned =>
      if c.positionsKnown then augmentSoftMassFlatForCacheOpens cache loop.accountId loop.reports
      else some loop.reports
  (reports, loop.accountId)

end Client

/-! ### What one row does -/

section

variable (env : Env)

/-- Everything that the handler of a row can do to the client: nothing beyond the clock and the
account, an observation by an account row, a mark by an unreadable position row, a position write
that the seeding cut short, or a whole position row. -/
inductive Effect (d : Delivery) (c : Client) : Client → Outcome → Prop
  | quiet {clock : Nat} {account : Account} {outcome : Outcome} :
      (∀ e, d.row ≠ .instrument e) → c.clock ≤ clock →
      Effect d c { c with clock := clock, account := account } outcome
  | observed {clock live : Nat} {account : Account} :
      (∀ e, d.row ≠ .instrument e) → d.row.isEvidence env = true → c.clock < live →
      c.clock ≤ clock → (c.liveSince = none → live ≤ clock) →
      Effect d c { c with
        clock := clock, account := account, liveSince := c.liveSince.or (some live)
        observed := c.observed.or (some d.pushed) } .returned
  | unreadable {clock : Nat} {e : InstrumentPnl} :
      d.row = .instrument e → instrumentPnlToFields env e = none → c.clock ≤ clock →
      Effect d c { c with clock := clock, unreadable := c.unreadable.insert e.mark } .returned
  | cut {clock : Nat} {account : Account} {e : InstrumentPnl} {fields : Position} :
      d.row = .instrument e → instrumentPnlToFields env e = some fields → c.clock ≤ clock →
      Effect d c { c with
        clock := clock, account := account
        unreadable := c.unreadable.filter (· ≠ strip fields.symbol)
        positions := c.positions.set fields.instrumentId fields } .raised
  | position {clock now : Nat} {account : Account} {e : InstrumentPnl} {fields : Position} :
      d.row = .instrument e → instrumentPnlToFields env e = some fields → c.clock < now →
      now ≤ clock →
      Effect d c { c with
        clock := clock, account := account
        unreadable := c.unreadable.filter (· ≠ strip fields.symbol)
        positions := c.positions.set fields.instrumentId fields
        liveSince := c.liveSince.or (some now), observed := c.observed.or (some d.pushed)
        seen := c.seen.set fields.instrumentId now } .returned

variable {env}

theorem Client.notePnlObserved_none (c : Client) (pushed : Nat) : ∃ clock live,
    c.clock < live ∧ c.clock ≤ clock ∧ (c.liveSince = none → live ≤ clock) ∧
      c.notePnlObserved none pushed = { c with
        clock := clock, liveSince := c.liveSince.or (some live)
        observed := c.observed.or (some pushed) } := by
  unfold Client.notePnlObserved
  cases hlive : c.liveSince with
  | none => exact ⟨c.clock + 1, c.clock + 1, by omega, by omega, by omega, by simp⟩
  | some live =>
    exact ⟨c.clock, c.clock + 1, by omega, by omega, (fun h => by cases h), by simp [hlive]⟩

theorem Client.notePnlObserved_some (c : Client) (now pushed : Nat) :
    c.notePnlObserved (some now) pushed = { c with
      liveSince := c.liveSince.or (some now), observed := c.observed.or (some pushed) } := by
  unfold Client.notePnlObserved
  cases hlive : c.liveSince <;> simp [hlive]

theorem Client.publishAccount_effect (c : Client) {d : Delivery} {e : AccountPnl}
    (hrow : d.row = .account e) :
    Effect env d c (c.publishAccount env e d).1 (c.publishAccount env e d).2 := by
  have hno : ∀ e', d.row ≠ .instrument e' := by simp [hrow]
  unfold Client.publishAccount
  split
  · exact .quiet hno (Nat.le_refl _)
  · next raw free hbalance =>
    have hevidence : d.row.isEvidence env = true := by simp [hrow, Row.isEvidence, hbalance]
    dsimp only
    split
    · exact .quiet hno (Nat.le_refl _)
    · split
      · exact .quiet hno (Nat.le_refl _)
      · split
        · exact .quiet hno (Nat.le_refl _)
        · split
          · obtain ⟨clock, live, hlt, hle, hlive, heq⟩ := Client.notePnlObserved_none
              { c with account := _ } d.pushed
            rw [heq]
            exact .observed hno hevidence hlt hle hlive
          · split
            · exact .quiet hno (Nat.le_succ _)
            · obtain ⟨clock, live, hlt, hle, hlive, heq⟩ := Client.notePnlObserved_none
                { c with clock := c.clock + 1, account := _ } d.pushed
              rw [heq]
              exact .observed hno hevidence (Nat.lt_of_succ_lt hlt) (Nat.le_of_succ_le hle) hlive

theorem Client.writePosition_fst (env : Env) (c : Client) (fields : Position) (publishes : Bool) :
    ∃ account, (c.writePosition env fields publishes).1 = { c with
      clock := c.clock + 1, account := account
      unreadable := c.unreadable.filter (· ≠ strip fields.symbol)
      positions := c.positions.set fields.instrumentId fields } := by
  unfold Client.writePosition
  dsimp only
  split
  · exact ⟨_, rfl⟩
  · exact ⟨_, rfl⟩

theorem Client.cachePosition_effect (c : Client) {d : Delivery} {e : InstrumentPnl}
    (hrow : d.row = .instrument e) :
    Effect env d c (c.cachePosition env e d).1 (c.cachePosition env e d).2 := by
  unfold Client.cachePosition
  split
  · next hnone => exact .unreadable hrow hnone (Nat.le_refl _)
  · next fields hfields =>
    obtain ⟨account, hwrite⟩ := Client.writePosition_fst env c fields d.seedPublishes
    dsimp only
    split
    · rw [hwrite]
      exact .cut hrow hfields (Nat.le_succ _)
    · rw [hwrite, Client.notePnlObserved_some]
      exact .position hrow hfields (Nat.lt_succ_self _) (Nat.le_succ _)

theorem Effect.of_later {d : Delivery} {c c' : Client} {outcome : Outcome} {clock : Nat}
    (h : Effect env d { c with clock := clock } c' outcome) (hclock : c.clock ≤ clock) :
    Effect env d c c' outcome := by
  cases h with
  | quiet hrow hle => exact .quiet hrow (Nat.le_trans hclock hle)
  | observed hrow hevidence hlt hle hlive =>
    exact .observed hrow hevidence (Nat.lt_of_le_of_lt hclock hlt) (Nat.le_trans hclock hle) hlive
  | unreadable hrow hnone hle => exact .unreadable hrow hnone (Nat.le_trans hclock hle)
  | cut hrow hfields hle => exact .cut hrow hfields (Nat.le_trans hclock hle)
  | position hrow hfields hlt hle =>
    exact .position hrow hfields (Nat.lt_of_le_of_lt hclock hlt) hle

theorem Client.dispatchPnlEvent_effect (c : Client) (d : Delivery) :
    Effect env d c (c.dispatchPnlEvent env d).1 (c.dispatchPnlEvent env d).2 := by
  have hclock : c.clock ≤ c.clock + d.elapsed := Nat.le_add_right _ _
  unfold Client.dispatchPnlEvent
  dsimp only
  split
  · next e hrow => exact (Client.publishAccount_effect _ hrow).of_later hclock
  · next e hrow => exact (Client.cachePosition_effect _ hrow).of_later hclock
  · next hrow => exact .quiet (by simp [hrow]) hclock

end

end RithmicNt.Adapter.Pnl
