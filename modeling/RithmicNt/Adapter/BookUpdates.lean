import Mathlib.Data.List.ModifyLast
import RithmicNt.Lib.Results
import RithmicNt.Exec.IdentCodec
import RithmicNt.Adapter.MarketData

/-! The order-book messages of the venue on their way to the engine: `order_book_to_fields`, the deltas of
a message, and the assembler that collects the parts of an update until its end. -/

namespace RithmicNt.Adapter.BookUpdates

open RithmicNt.Exec RithmicNt.Lib RithmicNt.Adapter.MarketData

/-- What comes from the language and the engine: `π` are floats, `ρ` prices.  `fixed` is the format `.nf`;
`intOf` and `priceOfStr` are `none`, and `quantityFits` and `idParses` false, where they raise. -/
structure Runtime (π ρ : Type) where
  upper : Char → List Char
  intOf : π → Option Int
  fixed : π → Nat → String
  priceOfStr : String → Option ρ
  quantityFits : Int → Bool
  idParses : String → Bool

/-- A `ConvertError` with its text or of an instrument id, or another exception. -/
inductive Fault
  | convert (text : String)
  | ident (e : IdentError)
  | other
  deriving DecidableEq, Repr

/-! ### Messages -/

/-- An `order_book` event.  The keys of the two price lists may be missing, or hold `None`. -/
structure OrderBook (π : Type) where
  symbol : Option String
  exchange : Option String := none
  updateType : Option Int := none
  bidPrice : Option (Option (List (Option π))) := some (some [])
  bidSize : Option (List (Option π)) := some []
  askPrice : Option (Option (List (Option π))) := some (some [])
  askSize : Option (List (Option π)) := some []
  tsEventNs : Option Int := none
  ssboe : Option Int := none
  usecs : Option Int := none
  deriving DecidableEq, Repr

inductive BookSide
  | buy
  | sell
  deriving DecidableEq, Repr

structure Level (π : Type) where
  side : BookSide
  price : π
  size : π
  orderId : Nat
  deriving DecidableEq, Repr

structure Fields (π : Type) where
  instrumentId : String
  updateKind : UpdateKind
  levels : List (Level π)
  tsEvent : Int
  deriving DecidableEq, Repr

section

variable {π ρ : Type} (r : Runtime π ρ)

/-- `_ts_ns`. -/
def OrderBook.tsNs (d : OrderBook π) : Option Int :=
  match d.tsEventNs with
  | some ts => some ts
  | none => d.ssboe.map fun s => s * 1000000000 + d.usecs.getD 0 * 1000

/-- The levels of one side, the first of them at index `i`. -/
def sideLevels (label : String) (side : BookSide) (base i : Nat) :
    List (Option π) → List (Option π) → Except Fault (List (Level π))
  | some price :: prices, some size :: sizes => do
    let rest ← sideLevels label side base (i + 1) prices sizes
    return ⟨side, price, size, base + i + 1⟩ :: rest
  | _ :: _, _ :: _ => .error (.convert (label ++ " level " ++ toString i ++ " has null price/size"))
  | _, _ => .ok []

def sameLength (label : String) (prices sizes : List (Option π)) : Except Fault Unit :=
  if prices.length ≠ sizes.length then
    .error (.convert (label ++ "_price/" ++ label ++ "_size length mismatch: " ++
      toString prices.length ++ " vs " ++ toString sizes.length))
  else .ok ()

/-- `book_update_kind`, on an `i32`. -/
def bookUpdateKind : Int → Option UpdateKind
  | 1 => some .clear
  | 2 => some .noBook
  | 3 => some .snapshot
  | 4 => some .beginPart
  | 5 => some .middlePart
  | 6 => some .endPart
  | 7 => some .solo
  | _ => none

def OrderBook.kind (d : OrderBook π) : Except Fault UpdateKind :=
  match d.updateType with
  | none => .ok .snapshot
  | some updateType =>
    if updateType < -2147483648 ∨ 2147483647 < updateType then .error .other
    else match bookUpdateKind updateType with
      | some kind => .ok kind
      | none => .error (.convert ("unknown order book update_type: " ++ toString updateType))

def OrderBook.instrument (d : OrderBook π) (symbol : String) : Except Fault String :=
  (instrumentId r.upper symbol d.exchange venueName).mapError .ident

def orderBookToFields (d : OrderBook π) (tsInit : Option Int) : Except Fault (Fields π) :=
  match d.symbol with
  | none => .error (.convert "missing required fields: symbol")
  | some symbol =>
    match d.tsNs.or tsInit with
    | none => .error (.convert "missing timestamp fields: ts_event_ns or ssboe")
    | some tsEvent =>
      match d.bidPrice, d.askPrice with
      | some bids, some asks => do
        sameLength "bid" (bids.getD []) (d.bidSize.getD [])
        sameLength "ask" (asks.getD []) (d.askSize.getD [])
        let bidLevels ← sideLevels "bid" .buy 0 0 (bids.getD []) (d.bidSize.getD [])
        let askLevels ← sideLevels "ask" .sell 1000000 0 (asks.getD []) (d.askSize.getD [])
        let updateKind ← d.kind
        let instrumentId ← d.instrument r symbol
        return { instrumentId, updateKind, tsEvent, levels := bidLevels ++ askLevels }
      | _, _ => .error (.convert "missing required fields: bid_price, ask_price")

/-! ### Deltas -/

inductive BookAction
  | clear
  | add
  | update
  | delete
  deriving DecidableEq, Repr

/-- `F_SNAPSHOT` and `F_LAST`. -/
structure Flags where
  snapshot : Bool := false
  last : Bool := false
  deriving DecidableEq, Repr

structure BookOrder (ρ : Type) where
  side : BookSide
  price : ρ
  size : Int
  orderId : Nat
  deriving DecidableEq, Repr

structure Delta (ρ : Type) where
  instrumentId : String
  action : BookAction
  order : Option (BookOrder ρ)
  flags : Flags
  tsEvent : Int
  tsInit : Int
  deriving DecidableEq, Repr

structure Batch (ρ : Type) where
  instrumentId : String
  deltas : List (Delta ρ)
  deriving DecidableEq, Repr

def priceFromWire (value : π) (precision : Int) : Except Fault ρ :=
  if precision < 0 then
    .error (.convert ("price_precision must be >= 0, got " ++ toString precision))
  else match r.priceOfStr (r.fixed value precision.toNat) with
    | some price => .ok price
    | none => .error .other

def levelSize (level : Level π) : Except Fault Int :=
  match r.intOf level.size with
  | none => .error .other
  | some size =>
    if size < 0 then
      .error (.convert ("order book level size must be >= 0, got " ++ toString size))
    else .ok size

def bookOrder (precision : Int) (level : Level π) (size : Int) : Except Fault (BookOrder ρ) := do
  let price ← priceFromWire r level.price precision
  if r.quantityFits size then return ⟨level.side, price, size, level.orderId⟩ else .error .other

/-- The orders of a snapshot: a level without a size is left out. -/
def snapshotOrders (precision : Int) : List (Level π) → Except Fault (List (BookOrder ρ))
  | [] => .ok []
  | level :: levels => do
    let size ← levelSize r level
    if size = 0 then snapshotOrders precision levels
    else
      let order ← bookOrder r precision level size
      let orders ← snapshotOrders precision levels
      return order :: orders

def clearDelta (f : Fields π) (last : Bool) (tsInit : Int) : Delta ρ where
  instrumentId := f.instrumentId
  action := .clear
  order := none
  flags := ⟨true, last⟩
  tsEvent := f.tsEvent
  tsInit := tsInit

/-- The deltas that add orders, the last of them with `F_LAST`. -/
def addDeltas (f : Fields π) (tsInit : Int) : List (BookOrder ρ) → List (Delta ρ)
  | [] => []
  | order :: orders =>
    ⟨f.instrumentId, .add, some order, ⟨true, orders.isEmpty⟩, f.tsEvent, tsInit⟩ ::
      addDeltas f tsInit orders

def fieldsToOrderBookDeltas (f : Fields π) (tsInit precision : Int) : Except Fault (Batch ρ) := do
  let adds ← snapshotOrders r precision f.levels
  return ⟨f.instrumentId, clearDelta f adds.isEmpty tsInit :: addDeltas f tsInit adds⟩

/-- The delta of a changed level; one of size zero has left the book. -/
def changedLevel (f : Fields π) (tsInit precision : Int) (level : Level π) :
    Except Fault (Delta ρ) := do
  let size ← levelSize r level
  let order ← bookOrder r precision level size
  return ⟨f.instrumentId, if size = 0 then .delete else .update, some order, {}, f.tsEvent, tsInit⟩

def changedLevels (f : Fields π) (tsInit precision : Int) : Except Fault (List (Delta ρ)) :=
  f.levels.mapM (changedLevel r f tsInit precision)

/-- The deltas as one batch, with `F_LAST` on the last of them. -/
def closedBatch (instrumentId : String) (deltas : List (Delta ρ)) : Batch ρ :=
  ⟨instrumentId, deltas.modifyLast fun d => { d with flags := { d.flags with last := true } }⟩

/-! ### The assembler -/

structure BookAssembler (ρ : Type) where
  pending : Dict String (List (Delta ρ)) := .empty

def BookAssembler.reset (_ : BookAssembler ρ) : BookAssembler ρ := {}

/-- What an event comes to.  A `ConvertError` is counted, another exception logged. -/
inductive Outcome (ρ : Type)
  | nothing
  | handled (batch : Batch ρ)
  | dropped (fault : Fault)
  deriving DecidableEq, Repr

def Outcome.ofExcept : Except Fault (Option (Batch ρ)) → Outcome ρ
  | .ok none => .nothing
  | .ok (some batch) => .handled batch
  | .error fault => .dropped fault

/-- A batch of changed levels, if there are any. -/
def closed (instrumentId : String) (deltas : List (Delta ρ)) : Option (Batch ρ) :=
  if deltas = [] then none else some (closedBatch instrumentId deltas)

namespace BookAssembler

/-- What is held of a contract. -/
def held (a : BookAssembler ρ) (k : String) : List (Delta ρ) := (a.pending.get? k).getD []

def put (a : BookAssembler ρ) (k : String) (deltas : List (Delta ρ)) : BookAssembler ρ :=
  { a with pending := a.pending.set k deltas }

def pop (a : BookAssembler ρ) (k : String) : BookAssembler ρ :=
  { a with pending := a.pending.filter fun e => e.1 ≠ k }

/-- `BookAssembler.feed`: a snapshot that raises has taken the parts with it, a part that raises has left
them. -/
def feed (a : BookAssembler ρ) (f : Fields π) (tsInit precision : Int) :
    BookAssembler ρ × Except Fault (Option (Batch ρ)) :=
  match f.updateKind with
  | .snapshot => (a.pop f.instrumentId, (fieldsToOrderBookDeltas r f tsInit precision).map some)
  | .clear | .noBook =>
    (a.pop f.instrumentId, .ok (some ⟨f.instrumentId, [clearDelta f true tsInit]⟩))
  | kind =>
    match changedLevels r f tsInit precision with
    | .error fault => (a, .error fault)
    | .ok changed =>
      match kind with
      | .beginPart => (a.put f.instrumentId changed, .ok none)
      | .middlePart => (a.put f.instrumentId (a.held f.instrumentId ++ changed), .ok none)
      | .endPart =>
        (a.pop f.instrumentId, .ok (closed f.instrumentId (a.held f.instrumentId ++ changed)))
      | _ => (a, .ok (closed f.instrumentId changed))

end BookAssembler

/-- An event, the adapter's clock and the precision of its contract in the cache, when it is
dispatched. -/
structure Received (π : Type) where
  book : OrderBook π
  tsInit : Int
  precision : Option Int
  deriving DecidableEq, Repr

def pricePrecision (x : Received π) (instrumentId : String) : Except Fault Int :=
  if !r.idParses instrumentId then .error .other
  else match x.precision with
    | none => .error (.convert ("instrument not in cache: " ++ instrumentId))
    | some precision => .ok precision

/-- What is fed to the assembler, if anything is. -/
def Received.fields (x : Received π) : Except Fault (Fields π × Int) := do
  let f ← orderBookToFields r x.book (some x.tsInit)
  let precision ← pricePrecision r x f.instrumentId
  return (f, precision)

/-- The `order_book` branch of `_dispatch_event`. -/
def dispatch (a : BookAssembler ρ) (x : Received π) : BookAssembler ρ × Outcome ρ :=
  match x.fields r with
  | .error fault => (a, .dropped fault)
  | .ok (f, precision) =>
    let (a, result) := a.feed r f x.tsInit precision
    (a, .ofExcept result)

inductive Event (π : Type)
  | message (x : Received π)
  | reset
  deriving DecidableEq, Repr

def step (a : BookAssembler ρ) : Event π → BookAssembler ρ
  | .message x => (dispatch r a x).1
  | .reset => a.reset

def after (events : List (Event π)) : BookAssembler ρ := events.foldl (step r) {}

/-! ### What an event does -/

/-- The contract of an event, also of one that does not convert. -/
def Received.instrument (x : Received π) : Option String :=
  x.book.symbol.bind fun symbol => (x.book.instrument r symbol).toOption

/-- What an event is to a contract, if it is about it and has a kind. -/
def Received.partOf (x : Received π) (k : String) : Option UpdateKind :=
  if x.instrument r = some k then x.book.kind.toOption else none

/-- The deltas of a part. -/
def Received.deltas (x : Received π) : Except Fault (List (Delta ρ)) := do
  let (f, precision) ← x.fields r
  changedLevels r f x.tsInit precision

/-- What is held of its contract after an event of a kind. -/
def Received.heldAfter (x : Received π) (held : List (Delta ρ)) : UpdateKind → List (Delta ρ)
  | .snapshot | .clear | .noBook => if (x.fields r).toBool then [] else held
  | .solo => held
  | .beginPart =>
    match x.deltas r with
    | .ok changed => changed
    | .error _ => held
  | .middlePart =>
    match x.deltas r with
    | .ok changed => held ++ changed
    | .error _ => held
  | .endPart =>
    match x.deltas r with
    | .ok _ => []
    | .error _ => held

variable {r} {a : BookAssembler ρ} {x : Received π} {k : String} {f : Fields π} {precision : Int}

theorem fields_of_orderBookToFields {d : OrderBook π} {tsInit : Option Int}
    (h : orderBookToFields r d tsInit = .ok f) :
    d.kind = .ok f.updateKind ∧ ∃ symbol, d.symbol = some symbol ∧
      d.instrument r symbol = .ok f.instrumentId := by
  unfold orderBookToFields at h
  split at h
  · cases h
  · next symbol hsymbol =>
    split at h
    · cases h
    · split at h
      · obtain ⟨-, -, h⟩ := bind_eq_ok.mp h
        obtain ⟨-, -, h⟩ := bind_eq_ok.mp h
        obtain ⟨_, -, h⟩ := bind_eq_ok.mp h
        obtain ⟨_, -, h⟩ := bind_eq_ok.mp h
        obtain ⟨kind, hkind, h⟩ := bind_eq_ok.mp h
        obtain ⟨id, hid, h⟩ := bind_eq_ok.mp h
        cases h
        exact ⟨hkind, symbol, hsymbol, hid⟩
      · cases h

theorem orderBookToFields_of_fields (h : x.fields r = .ok (f, precision)) :
    orderBookToFields r x.book (some x.tsInit) = .ok f := by
  obtain ⟨f', hf, h⟩ := bind_eq_ok.mp h
  obtain ⟨_, -, h⟩ := bind_eq_ok.mp h
  cases h
  exact hf

/-- What is fed is what the event says it is. -/
theorem partOf_of_fields (h : x.fields r = .ok (f, precision)) :
    x.partOf r k = if f.instrumentId = k then some f.updateKind else none := by
  obtain ⟨hkind, symbol, hsymbol, hid⟩ :=
    fields_of_orderBookToFields (orderBookToFields_of_fields h)
  have hinstrument : x.instrument r = some f.instrumentId := by
    simp [Received.instrument, hsymbol, hid, Except.toOption]
  simp [Received.partOf, hinstrument, hkind, Except.toOption]

theorem deltas_of_fields (h : x.fields r = .ok (f, precision)) :
    x.deltas r = changedLevels r f x.tsInit precision := by
  simp [Received.deltas, h, bind, Except.bind]

theorem deltas_of_error {fault : Fault} (h : x.fields r = .error fault) :
    x.deltas r = (.error fault : Except Fault (List (Delta ρ))) := by
  simp [Received.deltas, h, bind, Except.bind]

theorem closed_eq_some {deltas : List (Delta ρ)} {b : Batch ρ} :
    closed k deltas = some b ↔ deltas ≠ [] ∧ b = closedBatch k deltas := by
  unfold closed
  split
  · next hnil => simp [hnil]
  · next hne => simp [hne, eq_comm]

theorem ofExcept_eq_handled {result : Except Fault (Option (Batch ρ))} {b : Batch ρ} :
    Outcome.ofExcept result = .handled b ↔ result = .ok (some b) := by
  cases result with
  | error fault => simp [Outcome.ofExcept]
  | ok out => cases out <;> simp [Outcome.ofExcept]

namespace BookAssembler

theorem held_put (a : BookAssembler ρ) (j k : String) (deltas : List (Delta ρ)) :
    (a.put j deltas).held k = if j = k then deltas else a.held k :=
  a.pending.getD_set j k deltas []

theorem held_pop (a : BookAssembler ρ) (j k : String) :
    (a.pop j).held k = if j = k then [] else a.held k :=
  a.pending.getD_filter_ne j k []

/-- Feeding changes what is held of its contract, as its kind says. -/
theorem held_feed (a : BookAssembler ρ) (k : String) (hx : x.fields r = .ok (f, precision)) :
    (a.feed r f x.tsInit precision).1.held k =
      if f.instrumentId = k then x.heldAfter r (a.held k) f.updateKind else a.held k := by
  by_cases hk : f.instrumentId = k
  · subst hk
    rw [if_pos rfl]
    cases hkind : f.updateKind with
    | snapshot | clear | noBook =>
      simp [feed, hkind, held_pop, Received.heldAfter, hx, Except.toBool]
    | beginPart | middlePart | endPart | solo =>
      cases hchanged : changedLevels r f x.tsInit precision with
      | error fault => simp [feed, hkind, hchanged, Received.heldAfter, deltas_of_fields hx]
      | ok changed =>
        simp [feed, hkind, hchanged, Received.heldAfter, deltas_of_fields hx, held_put, held_pop]
  · rw [if_neg hk]
    cases hkind : f.updateKind with
    | snapshot | clear | noBook => simp [feed, hkind, held_pop, hk]
    | beginPart | middlePart | endPart | solo =>
      cases hchanged : changedLevels r f x.tsInit precision with
      | error fault => simp [feed, hkind, hchanged]
      | ok changed => simp [feed, hkind, hchanged, held_put, held_pop, hk]

/-- Only an end gives out what is held. -/
theorem feed_result (a : BookAssembler ρ) (tsInit : Int) :
    (a.feed r f tsInit precision).2 =
      match f.updateKind with
      | .snapshot => (fieldsToOrderBookDeltas r f tsInit precision).map some
      | .clear | .noBook => .ok (some ⟨f.instrumentId, [clearDelta f true tsInit]⟩)
      | .beginPart | .middlePart => (changedLevels r f tsInit precision).map fun _ => none
      | .endPart => (changedLevels r f tsInit precision).map fun changed =>
        closed f.instrumentId (a.held f.instrumentId ++ changed)
      | .solo => (changedLevels r f tsInit precision).map (closed f.instrumentId) := by
  unfold feed
  cases f.updateKind with
  | snapshot | clear | noBook => rfl
  | beginPart | middlePart | endPart | solo => cases changedLevels r f tsInit precision <;> rfl

theorem instrumentId_of_feed {tsInit : Int} {b : Batch ρ}
    (h : (a.feed r f tsInit precision).2 = .ok (some b)) : b.instrumentId = f.instrumentId := by
  rw [feed_result] at h
  split at h
  · obtain ⟨b', hb', heq⟩ := map_eq_ok.mp h
    cases heq
    obtain ⟨_, -, h⟩ := bind_eq_ok.mp hb'
    cases h
    rfl
  · cases h
    rfl
  · cases h
    rfl
  · obtain ⟨_, -, heq⟩ := map_eq_ok.mp h
    cases heq
  · obtain ⟨_, -, heq⟩ := map_eq_ok.mp h
    cases heq
  · obtain ⟨_, -, heq⟩ := map_eq_ok.mp h
    rw [(closed_eq_some.mp heq).2]
    rfl
  · obtain ⟨_, -, heq⟩ := map_eq_ok.mp h
    rw [(closed_eq_some.mp heq).2]
    rfl

end BookAssembler

theorem dispatch_of_error {fault : Fault} (hx : x.fields r = .error fault) (a : BookAssembler ρ) :
    dispatch r a x = (a, .dropped fault) := by
  rw [dispatch, hx]

theorem dispatch_of_fields (hx : x.fields r = .ok (f, precision)) (a : BookAssembler ρ) :
    dispatch r a x = ((a.feed r f x.tsInit precision).1,
      .ofExcept (a.feed r f x.tsInit precision).2) := by
  rw [dispatch, hx]

/-- An event changes what is held of a contract only as what it is to that contract. -/
theorem held_dispatch (a : BookAssembler ρ) (x : Received π) (k : String) :
    (dispatch r a x).1.held k =
      match x.partOf r k with
      | none => a.held k
      | some kind => x.heldAfter r (a.held k) kind := by
  cases hx : x.fields r with
  | error fault =>
    have hdeltas : x.deltas r = (.error fault : Except Fault (List (Delta ρ))) := deltas_of_error hx
    rw [dispatch_of_error hx]
    cases x.partOf r k with
    | none => rfl
    | some kind => cases kind <;> simp [Received.heldAfter, hx, hdeltas, Except.toBool]
  | ok fed =>
    obtain ⟨f, precision⟩ := fed
    rw [dispatch_of_fields hx, partOf_of_fields hx, a.held_feed k hx]
    split
    · rfl
    · rfl

/-- A batch that is handed on is of the contract of its event, and the event has a kind. -/
theorem partOf_of_handled {b : Batch ρ} (h : (dispatch r a x).2 = .handled b) :
    ∃ kind, x.partOf r b.instrumentId = some kind := by
  cases hx : x.fields r with
  | error fault =>
    rw [dispatch_of_error hx] at h
    cases h
  | ok fed =>
    obtain ⟨f, precision⟩ := fed
    rw [dispatch_of_fields hx] at h
    refine ⟨f.updateKind, ?_⟩
    have hid := BookAssembler.instrumentId_of_feed (ofExcept_eq_handled.mp h)
    rw [partOf_of_fields hx, hid, if_pos rfl]

/-- An end gives out what is held and its own levels. -/
theorem dispatch_end (a : BookAssembler ρ) (h : x.partOf r k = some .endPart) :
    (dispatch r a x).2 =
      .ofExcept ((x.deltas r).map fun changed => closed k (a.held k ++ changed)) := by
  cases hx : x.fields r with
  | error fault =>
    rw [dispatch_of_error hx, deltas_of_error hx]
    rfl
  | ok fed =>
    obtain ⟨f, precision⟩ := fed
    rw [partOf_of_fields hx] at h
    split at h
    · next hk =>
      subst hk
      rw [dispatch_of_fields hx, deltas_of_fields hx, BookAssembler.feed_result, Option.some.inj h]
    · cases h

/-- What any other event comes to does not depend on what is held. -/
theorem dispatch_not_end (a a' : BookAssembler ρ) (h : x.book.kind ≠ .ok .endPart) :
    (dispatch r a x).2 = (dispatch r a' x).2 := by
  cases hx : x.fields r with
  | error fault => rw [dispatch_of_error hx, dispatch_of_error hx]
  | ok fed =>
    obtain ⟨f, precision⟩ := fed
    rw [dispatch_of_fields hx, dispatch_of_fields hx, BookAssembler.feed_result,
      BookAssembler.feed_result]
    cases hkind : f.updateKind with
    | endPart => exact absurd (hkind ▸ (fields_of_orderBookToFields (orderBookToFields_of_fields hx)).1) h
    | snapshot | clear | noBook | beginPart | middlePart | solo => rfl

/-! ### Closed batches -/

def Delta.unflagged (d : Delta ρ) : Delta ρ := { d with flags := {} }

theorem unflagged_of_plain {d : Delta ρ} (h : d.flags = {}) : d.unflagged = d := by
  unfold Delta.unflagged
  rw [← h]

theorem flags_of_changedLevel {tsInit : Int} {level : Level π} {d : Delta ρ}
    (h : changedLevel r f tsInit precision level = .ok d) : d.flags = {} := by
  obtain ⟨_, -, h⟩ := bind_eq_ok.mp h
  obtain ⟨_, -, h⟩ := bind_eq_ok.mp h
  cases h
  rfl

theorem flags_of_mapM {tsInit : Int} {levels : List (Level π)} {ds : List (Delta ρ)}
    (h : levels.mapM (changedLevel r f tsInit precision) = .ok ds) : ∀ d ∈ ds, d.flags = {} := by
  induction levels generalizing ds with
  | nil =>
    cases h
    simp
  | cons level levels ih =>
    rw [List.mapM_cons] at h
    obtain ⟨d, hd, h⟩ := bind_eq_ok.mp h
    obtain ⟨rest, hrest, h⟩ := bind_eq_ok.mp h
    cases h
    intro d' hd'
    rcases List.mem_cons.mp hd' with rfl | hmem
    · exact flags_of_changedLevel hd
    · exact ih hrest d' hmem

/-- The levels of a part carry no flags. -/
theorem flags_of_deltas {ds : List (Delta ρ)} (h : x.deltas r = .ok ds) :
    ∀ d ∈ ds, d.flags = {} := by
  obtain ⟨⟨f, precision⟩, -, h⟩ := bind_eq_ok.mp h
  exact flags_of_mapM h

theorem closedBatch_concat (k : String) (init : List (Delta ρ)) (d : Delta ρ) :
    (closedBatch k (init ++ [d])).deltas = init ++ [{ d with flags := { d.flags with last := true } }] := by
  simp [closedBatch, List.modifyLast_concat]

/-- The batch has the deltas in order, with `F_LAST` on the last of them only. -/
theorem closedBatch_spec {ds : List (Delta ρ)} (hplain : ∀ d ∈ ds, d.flags = {}) :
    (closedBatch k ds).deltas.map Delta.unflagged = ds ∧
      ∀ i d, (closedBatch k ds).deltas[i]? = some d →
        (d.flags.last = true ↔ i + 1 = (closedBatch k ds).deltas.length) := by
  rcases List.eq_nil_or_concat ds with rfl | ⟨init, last, rfl⟩
  · simp [closedBatch, List.modifyLast, List.modifyLast.go]
  · rw [List.concat_eq_append] at hplain ⊢
    have hinit : ∀ d ∈ init, d.flags = {} := fun d hd => hplain d (by simp [hd])
    have hlast : last.flags = {} := hplain last (by simp)
    rw [closedBatch_concat]
    constructor
    · rw [List.map_append, List.map_singleton]
      have hmap : init.map Delta.unflagged = init := by
        conv_rhs => rw [← List.map_id init]
        exact List.map_congr_left fun d hd => unflagged_of_plain (hinit d hd)
      rw [hmap, ← unflagged_of_plain hlast]
      rfl
    · intro i d hd
      rw [List.length_append, List.length_singleton]
      by_cases hi : i < init.length
      · rw [List.getElem?_append_left hi] at hd
        rw [hinit d (List.mem_of_getElem? hd)]
        exact iff_of_false nofun (by omega)
      · rw [List.getElem?_append_right (by omega)] at hd
        obtain ⟨hlt, rfl⟩ := List.getElem?_eq_some_iff.mp hd
        rw [List.length_singleton] at hlt
        have hat : i - init.length = 0 := by omega
        exact iff_of_true (by simp [hat]) (by omega)

/-! ### The client of converted events

`MarketData.Client` takes each event with the deltas that it converts to.  On events that convert it
holds, part by part, what the assembler holds. -/

/-- The deltas that the client holds of a contract. -/
def clientHeld {π : Type} (c : Client π (Delta ρ)) (k : String) : List (Delta ρ) :=
  ((c.pending.get? k).getD []).flatMap MarketData.Part.deltas

theorem clientHeld_set {π : Type} (c : Client π (Delta ρ)) (j k : String)
    (parts : List (MarketData.Part (Delta ρ))) :
    clientHeld { c with pending := c.pending.set j parts } k =
      if j = k then parts.flatMap MarketData.Part.deltas else clientHeld c k := by
  unfold clientHeld
  rw [Dict.getD_set]
  split
  · rfl
  · rfl

theorem clientHeld_pop {π : Type} (c : Client π (Delta ρ)) (j k : String) :
    clientHeld { c with pending := c.pending.filter fun e => e.1 ≠ j } k =
      if j = k then [] else clientHeld c k := by
  unfold clientHeld
  rw [Dict.getD_filter_ne]
  split
  · rfl
  · rfl

/-- The assembler and the client hold the same after an event that converts. -/
theorem held_eq_clientHeld {π' : Type} {c : Client π' (Delta ρ)} (h : ∀ k, a.held k = clientHeld c k)
    (hx : x.fields r = .ok (f, precision)) {ds : List (Delta ρ)} (hds : x.deltas r = .ok ds)
    (epoch : Nat) (k : String) :
    (dispatch r a x).1.held k =
      clientHeld (c.feed ⟨f.instrumentId, f.updateKind, ds⟩ epoch).1 k := by
  rw [dispatch_of_fields hx, a.held_feed k hx, h k]
  cases hkind : f.updateKind with
  | snapshot | clear | noBook =>
    simp only [Client.feed, clientHeld_pop]
    simp [Received.heldAfter, hx, Except.toBool]
  | solo => simp [Client.feed, Received.heldAfter]
  | beginPart =>
    simp only [Client.feed, clientHeld_set]
    simp [Received.heldAfter, hds]
  | middlePart =>
    simp only [Client.feed, clientHeld_set, Received.heldAfter, hds, List.flatMap_append,
      List.flatMap_singleton]
    by_cases hk : f.instrumentId = k
    · rw [if_pos hk, if_pos hk, hk]
      rfl
    · rw [if_neg hk, if_neg hk]
  | endPart =>
    simp only [Client.feed, clientHeld_pop]
    simp [Received.heldAfter, hds]

/-- What the assembler closes at an end is what the client gives out as its parts. -/
theorem end_eq_client {π' : Type} {c : Client π' (Delta ρ)} (h : ∀ k, a.held k = clientHeld c k)
    {ds : List (Delta ρ)} (hx : x.partOf r k = some .endPart) (hds : x.deltas r = .ok ds)
    (epoch : Nat) :
    (dispatch r a x).2 = match (c.feed ⟨k, .endPart, ds⟩ epoch).2 with
      | some (.book _ parts) => .handled (closedBatch k (parts.flatMap MarketData.Part.deltas))
      | _ => .nothing := by
  have hparts : ((c.pending.get? k).getD [] ++ [(⟨ds, epoch⟩ : MarketData.Part (Delta ρ))]).flatMap MarketData.Part.deltas =
      clientHeld c k ++ ds := by simp [clientHeld]
  rw [dispatch_end a hx, hds, h k]
  simp only [Client.feed, Except.map, closed, hparts]
  by_cases hnil : clientHeld c k ++ ds = []
  · rw [if_pos hnil, if_pos hnil]
    rfl
  · rw [if_neg hnil, if_neg hnil]
    simp only [hparts]
    rfl

end

end RithmicNt.Adapter.BookUpdates
