import RithmicNt.Host.Fanout
import RithmicNt.Lib.Backlog

/-! The queues of one attachment: four bounded streams of owned and shared records with a global
numbering, read natively per stream or merged by number for a transport.  `Queue.backlog` is what a
queue holds whatever way its records are grouped. -/

namespace RithmicNt.Host.Attachment

open RithmicNt.Lib RithmicNt.Host.Fanout

/-- A venue event; `body` is what neither routing nor the queues read. -/
inductive Event (δ : Type)
  | lastTrade (symbol exchange : Option String) (body : δ)
  | bbo (symbol exchange : Option String) (body : δ)
  | orderBook (symbol exchange : Option String) (body : δ)
  | timeBar (symbol exchange : Option String) (body : δ)
  | accountPnl (body : δ)
  | instrumentPnl (body : δ)
  | orderNotification (body : δ)
  | bracketUpdate (body : δ)
  | gap (stream : Stream) (skipped : Nat)
  | other (body : δ)
  deriving DecidableEq, Repr

/-- An event shared by its holders: typed, or encoded once for the wire. -/
inductive Fan (δ β : Type)
  | native (kind : Kind) (event : Event δ)
  | encoded (kind : Kind) (bytes : β)
  deriving DecidableEq, Repr

/-- A queued slot.  An owned batch is never empty. -/
inductive Record (δ β : Type)
  | batch (first : Event δ) (rest : List (Event δ))
  | shared (fan : Fan δ β)
  deriving DecidableEq, Repr

inductive Taken (δ β : Type)
  | owned (event : Event δ)
  | shared (fan : Fan δ β)
  deriving DecidableEq, Repr

variable {δ β : Type}

def Event.plant : Event δ → PlantEvent
  | .lastTrade symbol exchange _ => .lastTrade symbol exchange
  | .bbo symbol exchange _ => .bbo symbol exchange
  | .orderBook symbol exchange _ => .orderBook symbol exchange
  | .timeBar symbol exchange _ => .timeBar symbol exchange
  | .accountPnl _ => .accountPnl
  | .instrumentPnl _ => .instrumentPnl
  | .orderNotification _ => .orderNotification
  | .bracketUpdate _ => .bracketUpdate
  | .gap stream skipped => .gap stream skipped
  | .other _ => .other

/-- `stream_of`. -/
def Event.stream (e : Event δ) : Stream := streamOf e.plant

namespace Fan

def kind : Fan δ β → Kind
  | .native kind _ | .encoded kind _ => kind

def event : Fan δ β → Option (Event δ)
  | .native _ event => some event
  | .encoded .. => none

end Fan

def Record.len : Record δ β → Nat
  | .batch _ rest => rest.length + 1
  | .shared _ => 1

namespace Taken

def event : Taken δ β → Option (Event δ)
  | .owned event => some event
  | .shared fan => fan.event

def intoFan : Taken δ β → Fan δ β
  | .owned event => .native .any event
  | .shared fan => fan

/-- What a lost record adds to the count of its gap. -/
def weight (t : Taken δ β) : Nat :=
  match t.event with
  | some (.gap _ skipped) => skipped
  | _ => 1

end Taken

structure Queue (δ β : Type) where
  records : List (Nat × Record δ β) := []
  skipped : Nat := 0
  gapSequence : Nat := 0

namespace Queue

/-- The `len` field: events, not records. -/
def len (q : Queue δ β) : Nat := (q.records.map fun r => r.2.len).sum

def head (q : Queue δ β) : Option Nat :=
  if 0 < q.skipped then some q.gapSequence else q.records.head?.map Prod.fst

def popRecord (q : Queue δ β) : Option ((Nat × Taken δ β) × Queue δ β) :=
  match q.records with
  | [] => none
  | (sequence, .batch event []) :: records =>
    some ((sequence, .owned event), { q with records })
  | (sequence, .batch event (next :: rest)) :: records =>
    some ((sequence, .owned event), { q with records := (sequence + 1, .batch next rest) :: records })
  | (sequence, .shared fan) :: records => some ((sequence, .shared fan), { q with records })

def pop (q : Queue δ β) (stream : Stream) : Option (Taken δ β × Queue δ β) :=
  if 0 < q.skipped then some (.owned (.gap stream q.skipped), { q with skipped := 0 })
  else q.popRecord.map fun r => (r.1.2, r.2)

/-- One pass of the loop that keeps the bound.  The `u64` count wraps. -/
def evict (q : Queue δ β) : Queue δ β :=
  match q.popRecord with
  | none => q
  | some ((sequence, lost), rest) =>
    { rest with
      skipped := (q.skipped + lost.weight) % 2 ^ 64
      gapSequence := if q.skipped = 0 then sequence else q.gapSequence }

def push (q : Queue δ β) (capacity sequence : Nat) (record : Record δ β) : Queue δ β :=
  let q := { q with records := q.records ++ [(sequence, record)] }
  evict^[q.len - capacity] q

/-- `pop` as often as a batch needs, each record as an event.  `none` is the panic on an encoded
record. -/
def popEvents (stream : Stream) : Nat → Queue δ β → Option (List (Event δ) × Queue δ β)
  | 0, q => some ([], q)
  | count + 1, q =>
    (q.pop stream).bind fun (taken, q) =>
      taken.event.bind fun event =>
        (popEvents stream count q).map fun (batch, q) => (event :: batch, q)

end Queue

/-- `barriers` has the numbers of the flushes that no reader has taken.  `sequence` is a `u64` that only
counts up (`Merged.Inv.sequence_eq`). -/
structure Delivery (δ β : Type) where
  capacity : Nat
  queues : Stream → Queue δ β := fun _ => {}
  barriers : List Nat := []
  sequence : Nat := 0
  nativeStarted : Bool := false
  closed : Bool := false
  transport : Bool := false

/-- The answer of a native read. -/
inductive Batch (δ : Type)
  | events (events : List (Event δ))
  | channelClosed
  deriving DecidableEq, Repr

inductive Polled (δ : Type)
  | event (event : Option (Event δ))
  | channelLagged (skipped : Nat)
  | channelClosed
  deriving DecidableEq, Repr

/-- What a transport takes next: a barrier, or the head of a stream. -/
inductive Next
  | barrier (sequence : Nat)
  | head (sequence : Nat) (stream : Stream)
  deriving DecidableEq, Repr

inductive Received (δ β : Type)
  | flush
  | fan (fan : Fan δ β)
  deriving DecidableEq, Repr

def allStreams : List Stream := [.ticker, .history, .pnl, .order]

/-- `min_by_key` of the sequence: the first of the least. -/
def least : List (Nat × Stream) → Option (Nat × Stream)
  | [] => none
  | x :: xs =>
    match least xs with
    | none => some x
    | some y => if y.1 < x.1 then some y else some x

namespace Delivery

def new (capacity : Nat) : Delivery δ β := { capacity := max capacity 1 }

def newTransport (capacity : Nat) : Delivery δ β := { new capacity with transport := true }

def setQueue (d : Delivery δ β) (stream : Stream) (q : Queue δ β) : Delivery δ β :=
  { d with queues := Function.update d.queues stream q }

def push (d : Delivery δ β) (stream : Stream) (record : Record δ β) : Delivery δ β :=
  if d.closed then d
  else
    { d with sequence := d.sequence + record.len }.setQueue stream
      ((d.queues stream).push d.capacity (d.sequence + 1) record)

/-- `none` is the panic on an empty batch. -/
def batch (d : Delivery δ β) : List (Event δ) → Option (Delivery δ β)
  | [] => none
  | first :: rest => some (d.push first.stream (.batch first rest))

def shared (d : Delivery δ β) (stream : Stream) (fan : Fan δ β) : Delivery δ β :=
  d.push stream (.shared fan)

def close (d : Delivery δ β) : Delivery δ β := { d with closed := true }

def flush (d : Delivery δ β) : Delivery δ β :=
  if !d.transport then { d with nativeStarted := true }
  else if d.closed then d
  else { d with sequence := d.sequence + 1, barriers := d.barriers ++ [d.sequence + 1] }

def takeEvents (d : Delivery δ β) : Delivery δ β :=
  if d.nativeStarted then d else { d with transport := true }

/-- The records of a stream one by one, up to `max`; an empty batch once the wait is over. -/
def singles (d : Delivery δ β) (stream : Stream) (max : Nat) : Option (Batch δ × Delivery δ β) :=
  let q := d.queues stream
  let count := min max (q.len + if 0 < q.skipped then 1 else 0)
  if 0 < count then
    (q.popEvents stream count).map fun (events, q) => (.events events, d.setQueue stream q)
  else if d.closed then some (.channelClosed, d)
  else some (.events [], d)

/-- The look of `next_events` that answers: a whole batch where one fits, else single records. -/
def nextEvents (d : Delivery δ β) (stream : Stream) (max : Nat) :
    Option (Batch δ × Delivery δ β) :=
  let max := Nat.max max 1
  let d := { d with nativeStarted := true }
  let q := d.queues stream
  match q.records with
  | (_, .batch first rest) :: records =>
    if q.skipped = 0 ∧ rest.length + 1 ≤ max then
      some (.events (first :: rest), d.setQueue stream { q with records })
    else d.singles stream max
  | _ => d.singles stream max

def poll (d : Delivery δ β) (stream : Stream) : Option (Polled δ × Delivery δ β) :=
  (d.nextEvents stream 1).map fun (answer, d) =>
    match answer with
    | .channelClosed => (.channelClosed, d)
    | .events events =>
      match events.getLast? with
      | some (.gap _ skipped) => (.channelLagged skipped, d)
      | event => (.event event, d)

def heads (d : Delivery δ β) : List (Nat × Stream) :=
  allStreams.filterMap fun stream => (d.queues stream).head.map fun sequence => (sequence, stream)

def next (d : Delivery δ β) : Option Next :=
  match d.barriers, least d.heads with
  | [], none => none
  | [], some (sequence, stream) => some (.head sequence stream)
  | barrier :: _, none => some (.barrier barrier)
  | barrier :: _, some (sequence, stream) =>
    if barrier < sequence then some (.barrier barrier) else some (.head sequence stream)

def tryRecv (d : Delivery δ β) : Option (Received δ β × Delivery δ β) :=
  match d.next with
  | none => none
  | some (.barrier _) => some (.flush, { d with barriers := d.barriers.tail })
  | some (.head _ stream) =>
    ((d.queues stream).pop stream).map fun (taken, q) => (.fan taken.intoFan, d.setQueue stream q)

end Delivery

/-! ### What a queue holds -/

/-- What is recorded of the records that a queue has lost since its last gap. -/
structure Loss where
  skipped : Nat
  gapSequence : Nat
  deriving DecidableEq, Repr

def Loss.add (l : Loss) (x : Nat × Taken δ β) : Loss where
  skipped := (l.skipped + x.2.weight) % 2 ^ 64
  gapSequence := if l.skipped = 0 then x.1 else l.gapSequence

def numbered : Nat → List (Taken δ β) → List (Nat × Taken δ β)
  | _, [] => []
  | n, t :: ts => (n, t) :: numbered (n + 1) ts

def Record.taken : Record δ β → List (Taken δ β)
  | .batch first rest => .owned first :: rest.map .owned
  | .shared fan => [.shared fan]

/-- The events of a queue with their numbers, in the order of the stream. -/
def Queue.items (q : Queue δ β) : List (Nat × Taken δ β) :=
  q.records.flatMap fun r => numbered r.1 r.2.taken

def Queue.backlog (q : Queue δ β) : Backlog (Nat × Taken δ β) Loss :=
  ⟨q.items, ⟨q.skipped, q.gapSequence⟩⟩

@[simp] theorem Record.length_taken (r : Record δ β) : r.taken.length = r.len := by
  cases r with
  | batch first rest => simp [taken, len]
  | shared fan => rfl

@[simp] theorem length_numbered (n : Nat) (ts : List (Taken δ β)) :
    (numbered n ts).length = ts.length := by
  induction ts generalizing n with
  | nil => rfl
  | cons t ts ih => simp [numbered, ih]

@[simp] theorem map_snd_numbered (n : Nat) (ts : List (Taken δ β)) :
    (numbered n ts).map Prod.snd = ts := by
  induction ts generalizing n with
  | nil => rfl
  | cons t ts ih => simp [numbered, ih]

namespace Queue

variable {q q' : Queue δ β}

theorem len_eq (q : Queue δ β) : q.len = q.items.length := by
  unfold len items
  induction q.records with
  | nil => rfl
  | cons r records ih =>
    rw [List.map_cons, List.sum_cons, ih, List.flatMap_cons, List.length_append, length_numbered,
      Record.length_taken]

theorem popRecord_eq_none : q.popRecord = none ↔ q.items = [] := by
  unfold popRecord items
  match q.records with
  | [] => simp
  | (sequence, .batch event []) :: records => simp [Record.taken, numbered]
  | (sequence, .batch event (next :: rest)) :: records => simp [Record.taken, numbered]
  | (sequence, .shared fan) :: records => simp [Record.taken, numbered]

/-- `popRecord` takes the first event and changes nothing else. -/
theorem popRecord_eq_some {x : Nat × Taken δ β} (h : q.popRecord = some (x, q')) :
    q.items = x :: q'.items ∧ q'.skipped = q.skipped ∧ q'.gapSequence = q.gapSequence := by
  unfold popRecord at h
  unfold items
  match hq : q.records with
  | [] => simp [hq] at h
  | (sequence, .batch event []) :: records =>
    simp only [hq, Option.some.injEq, Prod.mk.injEq] at h
    obtain ⟨rfl, rfl⟩ := h
    simp [Record.taken, numbered]
  | (sequence, .batch event (next :: rest)) :: records =>
    simp only [hq, Option.some.injEq, Prod.mk.injEq] at h
    obtain ⟨rfl, rfl⟩ := h
    simp [Record.taken, numbered]
  | (sequence, .shared fan) :: records =>
    simp only [hq, Option.some.injEq, Prod.mk.injEq] at h
    obtain ⟨rfl, rfl⟩ := h
    simp [Record.taken, numbered]

theorem backlog_evict (q : Queue δ β) : q.evict.backlog =
    ⟨q.items.drop 1, (q.items.take 1).foldl Loss.add ⟨q.skipped, q.gapSequence⟩⟩ := by
  unfold evict
  cases h : q.popRecord with
  | none =>
    have hnil := popRecord_eq_none.mp h
    rw [hnil, backlog, hnil]
    rfl
  | some r =>
    obtain ⟨⟨sequence, lost⟩, rest⟩ := r
    obtain ⟨hitems, -, -⟩ := popRecord_eq_some h
    rw [hitems]
    rfl

theorem backlog_evict_iterate (n : Nat) (q : Queue δ β) : (evict^[n] q).backlog =
    ⟨q.items.drop n, (q.items.take n).foldl Loss.add ⟨q.skipped, q.gapSequence⟩⟩ := by
  induction n generalizing q with
  | zero => rfl
  | succ n ih =>
    have h := backlog_evict q
    have hitems : q.evict.items = q.items.drop 1 := congrArg Backlog.items h
    have hloss : (⟨q.evict.skipped, q.evict.gapSequence⟩ : Loss) =
        (q.items.take 1).foldl Loss.add ⟨q.skipped, q.gapSequence⟩ := congrArg Backlog.loss h
    rw [Function.iterate_succ_apply, ih, hitems, hloss, List.drop_drop, ← List.foldl_append,
      Nat.add_comm n 1, List.take_add]

/-- A push keeps the bound by dropping the oldest events, whatever their records. -/
theorem backlog_push (q : Queue δ β) (capacity sequence : Nat) (record : Record δ β) :
    (q.push capacity sequence record).backlog =
      q.backlog.push Loss.add capacity (numbered sequence record.taken) := by
  have hitems : ({ q with records := q.records ++ [(sequence, record)] } : Queue δ β).items =
      q.items ++ numbered sequence record.taken := by
    simp [items]
  unfold push
  rw [backlog_evict_iterate, len_eq, hitems]
  rfl

end Queue

end RithmicNt.Host.Attachment
