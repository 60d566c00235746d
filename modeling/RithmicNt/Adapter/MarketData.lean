import RithmicNt.Lib.Dict
import RithmicNt.Lib.Machine

/-! The market data of the data client: one-sided best bids and offers that are merged into quotes, and
book updates that come in parts.  What is half received is dropped at a break of the stream, by the
resync of a gap and by the reconcile task after the transport has resumed.  Over every run no quote and
no book batch is put together across a break, as long as the reconcile runs between the last event from
before the break and the first one after it, and the resync of a gap is not skipped over stored data. -/

namespace RithmicNt.Adapter.MarketData

open RithmicNt.Lib

variable {π δ : Type}

/-! ### Events -/

/-- A `bbo` event: either side may be missing. -/
structure Bbo (π : Type) where
  symbol : String
  exchange : Option String := none
  bidPrice : Option π := none
  bidSize : Option Int := none
  askPrice : Option π := none
  askSize : Option Int := none
  ts : Option Int := none
  deriving DecidableEq, Repr

inductive UpdateKind
  | snapshot
  | clear
  | noBook
  | solo
  | beginPart
  | middlePart
  | endPart
  deriving DecidableEq, Repr

/-- An `order_book` event with the deltas that its levels convert to. -/
structure BookUpdate (δ : Type) where
  instrument : String
  kind : UpdateKind
  deltas : List δ
  deriving DecidableEq, Repr

inductive Event (π δ : Type)
  | bbo (e : Bbo π)
  | orderBook (u : BookUpdate δ)
  deriving DecidableEq, Repr

/-- An event as the venue pushed it, with the number of breaks before, which the client never sees. -/
structure Pushed (π δ : Type) where
  event : Event π δ
  epoch : Nat
  deriving DecidableEq, Repr

/-- What the session queues on the ticker stream.  A gap begins an epoch. -/
inductive Item (π δ : Type)
  | event (p : Pushed π δ)
  | gap (epoch : Nat)
  deriving DecidableEq, Repr

def Item.epoch : Item π δ → Nat
  | .event p => p.epoch
  | .gap epoch => epoch

/-! ### The client -/

/-- A side of a quote, and the epoch it was pushed in. -/
structure Side (π : Type) where
  price : π
  size : Int
  epoch : Nat
  deriving DecidableEq, Repr

/-- The accumulator of a symbol. -/
structure BboState (π : Type) where
  exchange : Option String := none
  tsEvent : Option Int := none
  bid : Option (Side π) := none
  ask : Option (Side π) := none
  deriving DecidableEq, Repr

structure Quote (π : Type) where
  symbol : String
  exchange : Option String
  bid : Side π
  ask : Side π
  tsEvent : Int
  deriving DecidableEq, Repr

/-- The deltas of one message of a book update. -/
structure Part (δ : Type) where
  deltas : List δ
  epoch : Nat
  deriving DecidableEq, Repr

inductive Output (π δ : Type)
  | quote (q : Quote π)
  | book (instrument : String) (parts : List (Part δ))
  deriving DecidableEq, Repr

/-- `_bbo_state` and the parts that `_books` has collected. -/
structure Client (π δ : Type) where
  bboState : Dict String (BboState π) := .empty
  pending : Dict String (List (Part δ)) := .empty

/-- A side that is there replaces the stored one, price and size together. -/
def mergeSide (price : Option π) (size : Option Int) (epoch : Nat) (old : Option (Side π)) :
    Option (Side π) :=
  match price with
  | some price => some ⟨price, size.getD 0, epoch⟩
  | none => old

def BboState.merge (state : BboState π) (e : Bbo π) (epoch : Nat) : BboState π where
  exchange := e.exchange.or state.exchange
  tsEvent := e.ts.or state.tsEvent
  bid := mergeSide e.bidPrice e.bidSize epoch state.bid
  ask := mergeSide e.askPrice e.askSize epoch state.ask

/-- The quote of an accumulator, once both sides and a time are there and no size is empty. -/
def BboState.quote (state : BboState π) (symbol : String) : Option (Quote π) :=
  match state.bid, state.ask, state.tsEvent with
  | some bid, some ask, some ts =>
    if bid.size < 1 ∨ ask.size < 1 then none else some ⟨symbol, state.exchange, bid, ask, ts⟩
  | _, _, _ => none

namespace Client

/-- `_bbo_state.clear()` and `_books.reset()`. -/
def clear (_ : Client π δ) : Client π δ := {}

/-- `BookAssembler.feed`. -/
def feed (c : Client π δ) (u : BookUpdate δ) (epoch : Nat) : Client π δ × Option (Output π δ) :=
  let pop := { c with pending := c.pending.filter fun e => e.1 ≠ u.instrument }
  let part : Part δ := ⟨u.deltas, epoch⟩
  match u.kind with
  | .snapshot | .clear | .noBook => (pop, some (.book u.instrument [part]))
  | .beginPart => ({ c with pending := c.pending.set u.instrument [part] }, none)
  | .middlePart =>
    ({ c with
      pending := c.pending.set u.instrument ((c.pending.get? u.instrument).getD [] ++ [part]) }, none)
  | .solo => (c, if u.deltas = [] then none else some (.book u.instrument [part]))
  | .endPart =>
    let parts := (c.pending.get? u.instrument).getD [] ++ [part]
    (pop, if parts.flatMap Part.deltas = [] then none else some (.book u.instrument parts))

section Dispatch

variable (instrumentId : String → Option String → String) (known : String → Bool)

/-- The branches of `_dispatch_event` that keep state.  `known`: the instrument is in the cache, and has
a precision. -/
def dispatch (c : Client π δ) (p : Pushed π δ) : Client π δ × Option (Output π δ) :=
  match p.event with
  | .bbo e =>
    if e.symbol = "" then (c, none)
    else
      let key := e.symbol ++ ":" ++ e.exchange.getD ""
      let state := ((c.bboState.get? key).getD {}).merge e p.epoch
      let c := { c with bboState := c.bboState.set key state }
      match state.quote e.symbol with
      | none => (c, none)
      | some q => (c, if known (instrumentId q.symbol q.exchange) then some (.quote q) else none)
  | .orderBook u => if known u.instrument then c.feed u p.epoch else (c, none)

end Dispatch

end Client

/-! ### The loops -/

/-- The poll loops of the data client; both resync the ticker subscriptions. -/
inductive Loop
  | ticker
  | history
  deriving DecidableEq, Repr

/-- Where a loop is in `_resync_ticker_subscription`: waiting for the lock since the given generation,
or holding it while the intents are replayed. -/
inductive Resync
  | idle
  | waiting (startGen : Nat)
  | replaying
  deriving DecidableEq, Repr

/-- Where the ticker loop is.  `returning`: the batch is taken from the queue by the thread of
`next_events` and not yet handed to the event loop. -/
inductive Poller (π δ : Type)
  | polling
  | returning (batch : List (Item π δ))
  | handling (rest : List (Item π δ))
  | resyncing (rest : List (Item π δ))
  deriving DecidableEq, Repr

/-- What the poller has taken from the queue and not dispatched. -/
def Poller.batch : Poller π δ → List (Item π δ)
  | .polling => []
  | .returning batch | .handling batch | .resyncing batch => batch

def pollBatch : Nat := 256

/-- `epoch`: the breaks so far; `owed`: the epochs that began with a `Resumed` after which no reconcile
has run. -/
structure State (π δ : Type) where
  queue : List (Item π δ) := []
  poller : Poller π δ := .polling
  client : Client π δ := {}
  resyncLock : Option Loop := none
  resyncGeneration : Nat := 0
  resync : Loop → Resync := fun _ => .idle
  up : Bool := true
  epoch : Nat := 0
  owed : List Nat := []
  emitted : List (Output π δ) := []

inductive Step (π δ : Type)
  | push (event : Event π δ)
  /-- The session drops events of a slow consumer and queues a gap for them. -/
  | gap
  | interrupted
  | resumed
  /-- The task after the `Resumed` that began the epoch runs `_reconcile_md_after_resumed`. -/
  | reconcile (epoch : Nat)
  /-- The thread of `next_events` takes a batch. -/
  | take (n : Nat)
  | returned
  /-- The ticker loop goes on to the next event of its batch. -/
  | next
  /-- The history loop meets a gap. -/
  | historyGap
  /-- The resync lock is granted. -/
  | granted (loop : Loop)
  /-- `resync_ticker_session` returns, or raises. -/
  | replayed (loop : Loop) (ok : Bool)
  deriving DecidableEq, Repr

def Loop.other : Loop → Loop
  | .ticker => .history
  | .history => .ticker

/-- A resync waits while the lock is held, and behind the loop that waits for it. -/
def Resync.isIdle : Resync → Bool
  | .idle => true
  | _ => false

namespace State

/-- The resync lock is taken, and what is half received goes. -/
def enter (s : State π δ) (loop : Loop) : State π δ :=
  { s with
    client := s.client.clear
    resyncLock := some loop
    resync := Function.update s.resync loop .replaying }

/-- A resync that finds the lock free goes on without a wait. -/
def beginResync (s : State π δ) (loop : Loop) : State π δ :=
  if s.resyncLock = none ∧ (s.resync loop.other).isIdle then s.enter loop
  else { s with resync := Function.update s.resync loop (.waiting s.resyncGeneration) }

/-- The end of a resync; the ticker loop goes on with its batch. -/
def endResync (s : State π δ) (loop : Loop) : State π δ :=
  { s with
    resync := Function.update s.resync loop .idle
    poller := match loop, s.poller with
      | .ticker, .resyncing rest => .handling rest
      | _, poller => poller }

section Steps

variable (instrumentId : String → Option String → String) (known : String → Bool)

def dispatch (s : State π δ) (p : Pushed π δ) : State π δ :=
  let (client, output) := s.client.dispatch instrumentId known p
  { s with client, emitted := s.emitted ++ output.toList }

/-- The code runs from one event to the next without an await; other steps in between are more than it
has. -/
def next (s : State π δ) : Option (State π δ) :=
  match s.poller with
  | .handling [] => some { s with poller := .polling }
  | .handling (.event p :: rest) =>
    some ({ s with poller := .handling rest }.dispatch instrumentId known p)
  | .handling (.gap _ :: rest) => some ({ s with poller := .resyncing rest }.beginResync .ticker)
  | _ => none

def granted (s : State π δ) (loop : Loop) : Option (State π δ) :=
  match s.resync loop with
  | .waiting startGen =>
    if s.resyncLock = none then
      if s.resyncGeneration ≠ startGen then some (s.endResync loop) else some (s.enter loop)
    else none
  | _ => none

def replayed (s : State π δ) (loop : Loop) (ok : Bool) : Option (State π δ) :=
  if s.resync loop = .replaying then
    some ({ s with
      resyncLock := none
      resyncGeneration := if ok then s.resyncGeneration + 1 else s.resyncGeneration }.endResync loop)
  else none

def step (s : State π δ) : Step π δ → Option (State π δ)
  | .push event => some { s with queue := s.queue ++ [Item.event ⟨event, s.epoch⟩] }
  | .gap => some { s with queue := s.queue ++ [Item.gap (s.epoch + 1)], epoch := s.epoch + 1 }
  | .interrupted => if s.up then some { s with up := false } else none
  | .resumed =>
    if s.up then none
    else some { s with up := true, epoch := s.epoch + 1, owed := s.owed ++ [s.epoch + 1] }
  | .reconcile epoch =>
    if epoch ∈ s.owed then
      some { s with client := s.client.clear, owed := s.owed.filter fun t => epoch < t }
    else none
  | .take n =>
    match s.poller with
    | .polling =>
      if n ≤ pollBatch then
        some { s with poller := .returning (s.queue.take n), queue := s.queue.drop n }
      else none
    | _ => none
  | .returned =>
    match s.poller with
    | .returning batch => some { s with poller := .handling batch }
    | _ => none
  | .next => s.next instrumentId known
  | .historyGap => if (s.resync .history).isIdle then some (s.beginResync .history) else none
  | .granted loop => s.granted loop
  | .replayed loop ok => s.replayed loop ok

end Steps

/-- What is still to be dispatched, in its order. -/
def remaining (s : State π δ) : List (Item π δ) := s.poller.batch ++ s.queue

end State

/-- A client that has received nothing, and any order of steps. -/
def stream (instrumentId : String → Option String → String) (known : String → Bool) :
    Machine (State π δ) (Step π δ) where
  Start s := s = {}
  step := State.step instrumentId known

/-- All that an output is made of was pushed in one epoch. -/
def Output.Unbroken : Output π δ → Prop
  | .quote q => q.bid.epoch = q.ask.epoch
  | .book _ parts => ∀ p ∈ parts, ∀ q ∈ parts, p.epoch = q.epoch

/-- The item is no event from before the epoch. -/
def Item.Since (epoch : Nat) : Item π δ → Prop
  | .event p => epoch ≤ p.epoch
  | .gap _ => True

/-- The event that is dispatched next is from before each of the epochs. -/
def Poller.Before (epochs : List Nat) : Poller π δ → Prop
  | .handling (.event p :: _) => ∀ t ∈ epochs, p.epoch < t
  | _ => True

/-- The reconcile after a `Resumed` comes when no event from before is left, and before an event from
after is dispatched; the resync of a gap on the ticker stream is skipped only where nothing is
stored. -/
def Settled (s : State π δ) : Step π δ → Prop
  | .reconcile epoch => ∀ i ∈ s.remaining, i.Since epoch
  | .next => s.poller.Before s.owed
  | .granted .ticker =>
    s.resync .ticker = .waiting s.resyncGeneration ∨
      (s.client.bboState.entries = [] ∧ s.client.pending.entries = [])
  | _ => True

instance (epoch : Nat) : DecidablePred fun i : Item π δ => i.Since epoch
  | .event p => inferInstanceAs (Decidable (epoch ≤ p.epoch))
  | .gap _ => inferInstanceAs (Decidable True)

instance (epochs : List Nat) : DecidablePred fun p : Poller π δ => p.Before epochs
  | .handling (.event p :: _) => inferInstanceAs (Decidable (∀ t ∈ epochs, p.epoch < t))
  | .handling [] | .handling (.gap _ :: _) => inferInstanceAs (Decidable True)
  | .polling | .returning _ | .resyncing _ => inferInstanceAs (Decidable True)

instance (s : State π δ) : DecidablePred (Settled s)
  | .reconcile epoch => inferInstanceAs (Decidable (∀ i ∈ s.remaining, i.Since epoch))
  | .next => inferInstanceAs (Decidable (s.poller.Before s.owed))
  | .granted .ticker => inferInstanceAs (Decidable (_ ∨ (_ = [] ∧ _ = [])))
  | .granted .history => .isTrue trivial
  | .push _ | .gap | .interrupted | .resumed | .take _ | .returned | .historyGap | .replayed .. =>
    .isTrue trivial

/-! ### What the client stores -/

namespace Client

/-- The epochs of what is stored. -/
inductive Holds (c : Client π δ) : Nat → Prop
  | bid {key : String} {state : BboState π} {side : Side π} :
      c.bboState.get? key = some state → state.bid = some side → Holds c side.epoch
  | ask {key : String} {state : BboState π} {side : Side π} :
      c.bboState.get? key = some state → state.ask = some side → Holds c side.epoch
  | part {key : String} {parts : List (Part δ)} {p : Part δ} :
      c.pending.get? key = some parts → p ∈ parts → Holds c p.epoch

/-- All that is stored is of one epoch. -/
def Uniform (c : Client π δ) (n : Nat) : Prop := ∀ e, c.Holds e → e = n

variable {c : Client π δ} {n e : Nat}

theorem not_holds_of_empty (hbbo : c.bboState.entries = []) (hpending : c.pending.entries = []) :
    ¬ c.Holds e := by
  intro h
  cases h with
  | bid hget _ | ask hget _ =>
    have hmem := Dict.mem_entries_iff.mpr hget
    simp [hbbo] at hmem
  | part hget _ =>
    have hmem := Dict.mem_entries_iff.mpr hget
    simp [hpending] at hmem

@[simp] theorem not_holds_clear : ¬ c.clear.Holds e := not_holds_of_empty rfl rfl

theorem Uniform.part (h : c.Uniform n) {key : String} {p : Part δ}
    (hp : p ∈ (c.pending.get? key).getD []) : p.epoch = n := by
  cases hget : c.pending.get? key with
  | none => simp [hget] at hp
  | some parts =>
    rw [hget] at hp
    exact h _ (.part hget hp)

theorem mergeSide_epoch {price : Option π} {size : Option Int} {old : Option (Side π)} {side : Side π}
    (hold : ∀ s, old = some s → s.epoch = n) (h : mergeSide price size n old = some side) :
    side.epoch = n := by
  cases price with
  | none => exact hold side h
  | some price =>
    simp only [mergeSide, Option.some.injEq] at h
    rw [← h]

/-- Writing an accumulator whose sides are of the epoch. -/
theorem Uniform.setBbo (h : c.Uniform n) (key : String) {state : BboState π}
    (hbid : ∀ s, state.bid = some s → s.epoch = n) (hask : ∀ s, state.ask = some s → s.epoch = n) :
    Uniform { c with bboState := c.bboState.set key state } n := by
  intro e he
  cases he with
  | bid hget hside =>
    rw [Dict.get?_set] at hget
    split at hget
    · cases hget
      exact hbid _ hside
    · exact h _ (.bid hget hside)
  | ask hget hside =>
    rw [Dict.get?_set] at hget
    split at hget
    · cases hget
      exact hask _ hside
    · exact h _ (.ask hget hside)
  | part hget hp => exact h _ (.part hget hp)

theorem Uniform.setPending (h : c.Uniform n) {key : String} {parts : List (Part δ)}
    (hparts : ∀ p ∈ parts, p.epoch = n) :
    Uniform { c with pending := c.pending.set key parts } n := by
  intro e he
  cases he with
  | bid hget hside => exact h _ (.bid hget hside)
  | ask hget hside => exact h _ (.ask hget hside)
  | part hget hp =>
    rw [Dict.get?_set] at hget
    split at hget
    · cases hget
      exact hparts _ hp
    · exact h _ (.part hget hp)

theorem Uniform.pop (h : c.Uniform n) (key : String) :
    Uniform { c with pending := c.pending.filter fun e => e.1 ≠ key } n := by
  intro e he
  cases he with
  | bid hget hside => exact h _ (.bid hget hside)
  | ask hget hside => exact h _ (.ask hget hside)
  | part hget hp => exact h _ (.part (Dict.get?_filter.mp hget).1 hp)

theorem unbroken_of_epoch {instrument : String} {parts : List (Part δ)}
    (h : ∀ p ∈ parts, p.epoch = n) : (Output.book instrument parts : Output π δ).Unbroken := by
  intro p hp q hq
  rw [h p hp, h q hq]

/-- A book update of the epoch leaves parts of the epoch, and is emitted with such. -/
theorem Uniform.feed (h : c.Uniform n) (u : BookUpdate δ) :
    (c.feed u n).1.Uniform n ∧ ∀ o, (c.feed u n).2 = some o → o.Unbroken := by
  have hone : ∀ p ∈ [(⟨u.deltas, n⟩ : Part δ)], p.epoch = n := by simp
  have hall : ∀ p ∈ (c.pending.get? u.instrument).getD [] ++ [(⟨u.deltas, n⟩ : Part δ)],
      p.epoch = n := by
    intro p hp
    obtain hp | hp := List.mem_append.mp hp
    · exact h.part hp
    · exact hone p hp
  unfold Client.feed
  cases u.kind with
  | snapshot | clear | noBook =>
    refine ⟨h.pop _, ?_⟩
    rintro o ⟨⟩
    exact unbroken_of_epoch hone
  | beginPart => exact ⟨h.setPending hone, by simp⟩
  | middlePart => exact ⟨h.setPending hall, by simp⟩
  | solo =>
    refine ⟨h, fun o ho => ?_⟩
    simp only at ho
    split at ho
    · cases ho
    · cases ho
      exact unbroken_of_epoch hone
  | endPart =>
    refine ⟨h.pop _, fun o ho => ?_⟩
    simp only at ho
    split at ho
    · cases ho
    · cases ho
      exact unbroken_of_epoch hall

theorem quote_sides {state : BboState π} {symbol : String} {q : Quote π}
    (h : state.quote symbol = some q) : state.bid = some q.bid ∧ state.ask = some q.ask := by
  unfold BboState.quote at h
  split at h
  · next bid ask ts hbid hask hts =>
    split at h
    · cases h
    · cases h
      exact ⟨hbid, hask⟩
  · cases h

/-- An event of the epoch of all that is stored keeps it so, and what it completes is of the epoch. -/
theorem Uniform.dispatch {p : Pushed π δ} (h : c.Uniform p.epoch)
    (instrumentId : String → Option String → String) (known : String → Bool) :
    (c.dispatch instrumentId known p).1.Uniform p.epoch ∧
      ∀ o, (c.dispatch instrumentId known p).2 = some o → o.Unbroken := by
  obtain ⟨event, n⟩ := p
  simp only at h ⊢
  unfold Client.dispatch
  cases event with
  | orderBook u =>
    simp only
    split
    · exact h.feed u
    · exact ⟨h, by simp⟩
  | bbo b =>
    simp only
    split
    · exact ⟨h, by simp⟩
    · generalize hkey : b.symbol ++ ":" ++ b.exchange.getD "" = key
      generalize hstate : ((c.bboState.get? key).getD {}).merge b n = state
      have hold : (∀ s, ((c.bboState.get? key).getD {}).bid = some s → s.epoch = n) ∧
          ∀ s, ((c.bboState.get? key).getD {}).ask = some s → s.epoch = n := by
        cases hget : c.bboState.get? key with
        | none => simp
        | some old => exact ⟨fun s hs => h _ (.bid hget hs), fun s hs => h _ (.ask hget hs)⟩
      have hbid : ∀ s, state.bid = some s → s.epoch = n := by
        intro s hs
        rw [← hstate] at hs
        exact mergeSide_epoch hold.1 hs
      have hask : ∀ s, state.ask = some s → s.epoch = n := by
        intro s hs
        rw [← hstate] at hs
        exact mergeSide_epoch hold.2 hs
      have huniform := h.setBbo key hbid hask
      split
      · exact ⟨huniform, by simp⟩
      · next q hq =>
        obtain ⟨hqbid, hqask⟩ := quote_sides hq
        refine ⟨huniform, fun o ho => ?_⟩
        simp only at ho
        split at ho
        · cases ho
          exact (hbid _ hqbid).trans (hask _ hqask).symm
        · cases ho

end Client

end RithmicNt.Adapter.MarketData
