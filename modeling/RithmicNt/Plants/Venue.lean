import Mathlib.Data.Finset.Basic
import RithmicNt.Lib.Pool

/-! The venue's order plant: commands, reads, bring-ups, disconnects and ticker resets as threads,
each cut at its awaits.  A thread that waits for a lock goes on when it is free. -/

namespace RithmicNt.Plants

open RithmicNt.Lib

/-- `readers` and `writer` hold `session_ops`, `reset` and `inner` the mutexes of their names.  An
order plant has a number, which its handles carry.  `sent` records the commands sent, by plant;
`settled` their number when `disconnect_order_plant` returned, until a bring-up starts. -/
structure Venue where
  ticker : Bool := true
  order : Option Nat := none
  plants : Nat := 0
  orderCache : Option Nat := none
  orderClosed : Bool := false
  tradingEnabled : Bool := false
  cancelAllEnabled : Bool := false
  disconnecting : Nat := 0
  readers : Finset Nat := ∅
  writer : Option Nat := none
  reset : Option Nat := none
  inner : Option Nat := none
  sent : List Nat := []
  settled : Option Nat := none

/-- What an order handle is for.  A command whose terms do not parse is not sent. -/
inductive Purpose
  | command (parses : Bool)
  | read
  deriving DecidableEq

/-- The calls that bring the order plant up. -/
inductive BringUp
  | handle (p : Purpose)
  | ensure
  | subscribe
  deriving DecidableEq

inductive Answer
  | ok
  | denied
  | notSent
  | failed
  | dropped
  deriving DecidableEq

/-- Where a call waits, or stands between two reads of what others write: in `handleLook` it has found
the plant not closed and is about to look for its handle.  It holds the reset lock from `innerWait` on and the session's lock from
`connecting` on; a disconnect holds `session_ops` from `writeHeld` on and the session in `closing`. -/
inductive Place
  | opsWait (parses : Bool)
  | handleLook (p : Purpose)
  | resetWait (b : BringUp)
  | innerWait (b : BringUp)
  | connecting (b : BringUp)
  | subscribing (openedHere : Bool)
  | rollingBack
  | requesting (p : Purpose) (handle : Nat)
  | writeWait
  | writeHeld
  | closing
  | tickerWait
  | tickerInner
  | reconnecting
  | tickerFinish
  | done (a : Answer)
  deriving DecidableEq

inductive Call
  | allow (trading cancelAll : Bool)
  | command (cancelAll parses : Bool)
  | read
  | ensureOrderPlant
  | subscribeOrders
  | disconnectOrderPlant
  | resetTicker

/-- `giveUp`: the wait of a disconnect for the operations in flight times out.  `drop`: the future
of the call is dropped. -/
inductive Act
  | go
  | answer (ok : Bool)
  | giveUp
  | drop
  deriving DecidableEq

namespace Venue

/-- The guards that thread `i` has are dropped. -/
def release (s : Venue) (i : Nat) : Venue :=
  { s with
    readers := s.readers.erase i
    writer := if s.writer = some i then none else s.writer
    reset := if s.reset = some i then none else s.reset
    inner := if s.inner = some i then none else s.inner }

def finish (s : Venue) (i : Nat) (a : Answer) : Venue × Place := (s.release i, .done a)

def syncCaches (s : Venue) : Venue := { s with orderCache := s.order }

def request (s : Venue) (i : Nat) (p : Purpose) (handle : Nat) : Venue × Place :=
  match p with
  | .command true => ({ s with sent := s.sent ++ [handle] }, .requesting p handle)
  | .command false => s.finish i .notSent
  | .read => (s, .requesting p handle)

/-- `command_handle` up to the check of `order_closed`. -/
def commandHandle (s : Venue) (i : Nat) (p : Purpose) : Venue × Place :=
  if s.orderClosed then s.finish i .notSent else (s, .handleLook p)

/-- `order_handle` up to the wait in `bring_up`. -/
def orderHandle (s : Venue) (i : Nat) (p : Purpose) : Venue × Place :=
  match s.orderCache with
  | some handle => s.request i p handle
  | none => (s, .resetWait (.handle p))

/-- A bring-up has found or connected the order plant. -/
def ensured (s : Venue) (i : Nat) (openedHere : Bool) : BringUp → Venue × Place
  | .handle p =>
    match s.order with
    | some handle => ({ s.syncCaches with reset := none, inner := none } : Venue).request i p handle
    | none => s.syncCaches.finish i .notSent
  | .ensure => ({ s.syncCaches with orderClosed := false } : Venue).finish i .ok
  | .subscribe => (s, .subscribing openedHere)

def unensured (s : Venue) (i : Nat) : BringUp → Venue × Place
  | .handle _ => s.syncCaches.finish i .notSent
  | _ => s.syncCaches.finish i .failed

def ensureOrderPlant (s : Venue) (i : Nat) (b : BringUp) : Venue × Place :=
  if s.order.isSome then s.ensured i false b
  else if s.ticker then (s, .connecting b)
  else s.unensured i b

/-- A disconnect returns. -/
def settle (s : Venue) : Venue :=
  { s with
    disconnecting := s.disconnecting - 1
    settled := some (s.settled.getD s.sent.length) }

def closed (s : Venue) (i : Nat) : Venue × Place :=
  ({ s.syncCaches with orderClosed := true } : Venue).settle.finish i .ok

def spawn (i : Nat) (s : Venue) : Call → Option (Venue × Place)
  | .allow trading cancelAll => some
      ({ s with
        tradingEnabled := s.tradingEnabled || trading
        cancelAllEnabled := s.cancelAllEnabled || cancelAll }, .done .ok)
  | .command cancelAll parses =>
    if !(if cancelAll then s.cancelAllEnabled else s.tradingEnabled) then some (s, .done .denied)
    else if 0 < s.disconnecting then some (s, .done .notSent)
    else some (s, .opsWait parses)
  | .read =>
    if s.tradingEnabled then some (s.commandHandle i .read) else some (s, .done .denied)
  | .ensureOrderPlant =>
    if s.tradingEnabled then some ({ s with settled := none }, .resetWait .ensure)
    else some (s, .done .denied)
  | .subscribeOrders =>
    if s.tradingEnabled then some ({ s with settled := none }, .resetWait .subscribe)
    else some (s, .done .denied)
  | .disconnectOrderPlant => some ({ s with disconnecting := s.disconnecting + 1 }, .writeWait)
  | .resetTicker => some (s, .tickerWait)

/-- A dropped disconnect no longer counts as one in progress. -/
def drop (s : Venue) (i : Nat) : Place → Option (Venue × Place)
  | .done _ | .handleLook _ => none
  | .writeWait | .writeHeld | .closing =>
    some (({ s with disconnecting := s.disconnecting - 1 } : Venue).finish i .dropped)
  | _ => some (s.finish i .dropped)

def run (i : Nat) (s : Venue) : Place → Act → Option (Venue × Place)
  | .opsWait parses, .go =>
    if s.writer ≠ none then none
    else if 0 < s.disconnecting then some (s, .done .notSent)
    else some (({ s with readers := insert i s.readers } : Venue).commandHandle i (.command parses))
  | .handleLook p, .go => some (s.orderHandle i p)
  | .resetWait b, .go =>
    if s.reset = none then some ({ s with reset := some i }, .innerWait b) else none
  | .innerWait b, .go =>
    if s.inner = none then some (({ s with inner := some i } : Venue).ensureOrderPlant i b) else none
  | .connecting b, .answer true =>
    some (({ s with order := some s.plants, plants := s.plants + 1 } : Venue).ensured i true b)
  | .connecting b, .answer false => some (s.unensured i b)
  | .subscribing _, .answer true =>
    some (({ s.syncCaches with orderClosed := false } : Venue).finish i .ok)
  | .subscribing openedHere, .answer false =>
    if openedHere then some ({ s with order := none }, .rollingBack)
    else some (s.syncCaches.finish i .failed)
  | .rollingBack, .go => some (s.syncCaches.finish i .failed)
  | .requesting _ _, .answer ok => some (s.finish i (if ok then .ok else .failed))
  | .writeWait, .go =>
    if s.writer = none ∧ s.readers = ∅ then some ({ s with writer := some i }, .writeHeld) else none
  | .writeWait, .giveUp => some (s.settle.finish i .failed)
  | .writeHeld, .go =>
    if s.inner ≠ none then none
    else if s.order.isSome then some ({ s with inner := some i, order := none }, .closing)
    else some (({ s with inner := some i } : Venue).closed i)
  | .closing, .go => some (s.closed i)
  | .tickerWait, .go =>
    if s.reset = none then some ({ s with reset := some i }, .tickerInner) else none
  | .tickerInner, .go =>
    if s.inner = none then some ({ s with ticker := false }, .reconnecting) else none
  | .reconnecting, .answer true => some (s, .tickerFinish)
  | .reconnecting, .answer false => some (s.finish i .failed)
  | .tickerFinish, .go =>
    if s.inner = none then some (({ s with ticker := true } : Venue).finish i .ok) else none
  | p, .drop => s.drop i p
  | _, _ => none

def code : Program Venue Place Call Act where
  spawn := spawn
  run := run

end Venue

/-- Any plants connected, any gates open. -/
def machine : Machine (Pool Venue Place) (Move Call Act) :=
  Venue.code.machine fun s =>
    s.readers = ∅ ∧ s.writer = none ∧ s.inner = none ∧ s.reset = none ∧ s.settled = none

namespace Place

def hasOps : Place → Bool
  | .handleLook (.command _) | .resetWait (.handle (.command _))
  | .innerWait (.handle (.command _)) | .connecting (.handle (.command _))
  | .requesting (.command _) _ => true
  | _ => false

def hasWrite : Place → Bool
  | .writeHeld | .closing => true
  | _ => false

def hasInner : Place → Bool
  | .connecting _ | .subscribing _ | .rollingBack | .closing => true
  | _ => false

/-- From here the call may bring the order plant up, or send a command. -/
def opens : Place → Bool
  | .handleLook _ | .resetWait _ | .innerWait _ | .connecting _ | .subscribing _ | .rollingBack => true
  | _ => false

/-- A read that is past its check and has no handle yet, or a bring-up that waits for the session. -/
def waits : Place → Bool
  | .handleLook .read | .resetWait (.handle .read) | .innerWait (.handle .read)
  | .resetWait .ensure | .innerWait .ensure | .resetWait .subscribe | .innerWait .subscribe => true
  | _ => false

/-- The next step of a disconnect returns. -/
def returns (s : Venue) : Place → Bool
  | .writeHeld => s.order.isNone
  | .closing => true
  | _ => false

end Place

/-- The order plant is down and no command was sent since a disconnect returned, unless a bring-up has
started since. -/
def Venue.StaysDown (s : Venue) : Prop :=
  ∀ n, s.settled = some n → s.order = none ∧ s.sent.length = n

/-- No disconnect times out, and when one returns no read stands between its check and its handle and no
bring-up waits for the session. -/
def Quiet (P : Pool Venue Place) : Move Call Act → Prop
  | .run _ .giveUp => False
  | .run i .go => ∀ p ∈ P.threads[i]?, p.returns P.shared = true → ∀ q ∈ P.threads, q.waits = false
  | _ => True

instance (P : Pool Venue Place) (m : Move Call Act) : Decidable (Quiet P m) := by
  unfold Quiet
  split <;> infer_instance

structure Venue.Sound (s : Venue) : Prop where
  exclusive : s.writer ≠ none → s.readers = ∅
  settled : ∀ n, s.settled = some n → s.order = none ∧ s.orderClosed = true ∧ s.sent.length = n

/-- What holds while thread `i` is at `p`: the locks that it has, and what they protect. -/
structure Knows (i : Nat) (p : Place) (s : Venue) : Prop where
  ops : p.hasOps = true → i ∈ s.readers
  write : p.hasWrite = true → s.writer = some i
  inner : p.hasInner = true → s.inner = some i
  opens : p.opens = true → s.settled = none
  closing : p = .closing → s.order = none

/-- A step of another thread leaves what thread `j` has. -/
structure Spares (j : Nat) (s s' : Venue) : Prop where
  ops : j ∈ s.readers → j ∈ s'.readers
  write : s.writer = some j → s'.writer = some j
  inner : s.inner = some j → s'.inner = some j ∧ s'.order = s.order

/-- A step of thread `i` to `r` in which no disconnect returns. -/
structure Works (i : Nat) (s : Venue) (r : Venue × Place) : Prop where
  sound : r.1.Sound
  knows : Knows i r.2 r.1
  spares : ∀ j, j ≠ i → Spares j s r.1
  settled : s.settled = none → r.1.settled = none

variable {i j : Nat} {s s' t : Venue} {p q : Place} {b : BringUp}

theorem Spares.refl : Spares j s s := ⟨id, id, fun h => ⟨h, rfl⟩⟩

theorem Spares.trans (h : Spares j s s') (h' : Spares j s' t) : Spares j s t := by
  refine ⟨fun hj => h'.ops (h.ops hj), fun hj => h'.write (h.write hj), ?_⟩
  intro hj
  obtain ⟨hinner, horder⟩ := h.inner hj
  obtain ⟨hinner', horder'⟩ := h'.inner hinner
  exact ⟨hinner', horder'.trans horder⟩

/-- The locks and the order plant are as they were. -/
theorem spares_same (hreaders : s'.readers = s.readers) (hwriter : s'.writer = s.writer)
    (hinner : s'.inner = s.inner) (horder : s'.order = s.order) : Spares j s s' :=
  ⟨fun hj => hreaders ▸ hj, fun hj => hwriter ▸ hj, fun hj => ⟨hinner ▸ hj, horder⟩⟩

/-- Thread `i` has the session, so that no other thread does. -/
theorem spares_of_inner (hinner : s.inner = some i) (hj : j ≠ i) (hreaders : s'.readers = s.readers)
    (hwriter : s'.writer = s.writer) : Spares j s s' := by
  refine ⟨fun hj => hreaders ▸ hj, fun hj => hwriter ▸ hj, ?_⟩
  intro hj'
  exact absurd (Option.some.inj (hj'.symm.trans hinner)) hj

theorem Knows.stable (h : Knows j q s) (hs : Spares j s t)
    (hsettled : q.opens = true → s.settled = none → t.settled = none) : Knows j q t := by
  refine ⟨fun hq => hs.ops (h.ops hq), fun hq => hs.write (h.write hq),
    fun hq => (hs.inner (h.inner hq)).1, fun hq => hsettled hq (h.opens hq), ?_⟩
  intro hq
  have hinner := h.inner (by rw [hq]; rfl)
  exact (hs.inner hinner).2.trans (h.closing hq)

theorem Works.after {r : Venue × Place} (h : Works i s' r) (hs : ∀ j, j ≠ i → Spares j s s')
    (hsettled : s.settled = none → s'.settled = none) : Works i s r :=
  ⟨h.sound, h.knows, fun j hj => (hs j hj).trans (h.spares j hj),
    fun hn => h.settled (hsettled hn)⟩

/-- At most places a thread holds nothing. -/
theorem knows_bare (hops : p.hasOps = false) (hwrite : p.hasWrite = false)
    (hinner : p.hasInner = false) (hopens : p.opens = false) : Knows i p s := by
  refine ⟨by simp [hops], by simp [hwrite], by simp [hinner], by simp [hopens], ?_⟩
  rintro rfl
  cases hwrite

theorem knows_done (i : Nat) (a : Answer) (s : Venue) : Knows i (.done a) s :=
  knows_bare rfl rfl rfl rfl

theorem spares_release (hj : j ≠ i) : Spares j s (s.release i) := by
  refine ⟨?_, ?_, ?_⟩
  · intro h
    exact Finset.mem_erase.mpr ⟨hj, h⟩
  · intro h
    have hne : s.writer ≠ some i := by
      rw [h]
      exact fun e => hj (Option.some.inj e)
    exact (if_neg hne).trans h
  · intro h
    have hne : s.inner ≠ some i := by
      rw [h]
      exact fun e => hj (Option.some.inj e)
    exact ⟨(if_neg hne).trans h, rfl⟩

theorem Venue.Sound.release (h : s.Sound) (i : Nat) : (s.release i).Sound := by
  refine ⟨?_, h.settled⟩
  intro hw
  have hw : s.writer ≠ none := by
    intro hn
    simp [Venue.release, hn] at hw
  show s.readers.erase i = ∅
  rw [h.exclusive hw, Finset.erase_empty]

theorem works_finish (h : s.Sound) (a : Answer) : Works i s (s.finish i a) :=
  ⟨h.release i, knows_done i a _, fun _ hj => spares_release hj, id⟩

theorem Venue.Sound.syncCaches (h : s.Sound) : s.syncCaches.Sound := ⟨h.exclusive, h.settled⟩

/-- A command is sent only while no disconnect has settled. -/
theorem works_request {p : Purpose} (h : s.Sound) (hn : s.settled = none)
    (hops : ∀ parses, p = .command parses → i ∈ s.readers) (handle : Nat) :
    Works i s (s.request i p handle) := by
  have hknows : ∀ t : Venue, t.readers = s.readers → Knows i (.requesting p handle) t := by
    intro t ht
    refine ⟨?_, by simp [Place.hasWrite], by simp [Place.hasInner], by simp [Place.opens], by simp⟩
    intro hp
    rw [ht]
    cases p with
    | command parses => exact hops parses rfl
    | read => cases hp
  cases p with
  | command parses =>
    cases parses with
    | true =>
      refine ⟨⟨h.exclusive, ?_⟩, hknows _ rfl, fun _ _ => spares_same rfl rfl rfl rfl, id⟩
      intro n hsome
      change s.settled = some n at hsome
      rw [hn] at hsome
      cases hsome
    | false => exact works_finish h .notSent
  | read => exact ⟨h, hknows s rfl, fun _ _ => .refl, id⟩

theorem Venue.Sound.settled_eq_none (h : s.Sound) (hopen : s.orderClosed = false) :
    s.settled = none := by
  cases hn : s.settled with
  | none => rfl
  | some n =>
    have := (h.settled n hn).2.1
    simp [hopen] at this

theorem works_commandHandle {p : Purpose} (h : s.Sound)
    (hops : ∀ parses, p = .command parses → i ∈ s.readers) : Works i s (s.commandHandle i p) := by
  unfold Venue.commandHandle
  split
  · exact works_finish h .notSent
  · next hopen =>
    have hn := h.settled_eq_none (by simpa using hopen)
    refine ⟨h, ⟨?_, by simp [Place.hasWrite], by simp [Place.hasInner], fun _ => hn, by simp⟩,
      fun _ _ => .refl, id⟩
    intro hp
    cases p with
    | command parses => exact hops parses rfl
    | read => cases hp

theorem works_orderHandle {p : Purpose} (h : s.Sound) (hk : Knows i (.handleLook p) s) :
    Works i s (s.orderHandle i p) := by
  have hops : ∀ parses, p = .command parses → i ∈ s.readers := by
    rintro parses rfl
    exact hk.ops rfl
  unfold Venue.orderHandle
  split
  · exact works_request h (hk.opens rfl) hops _
  · refine ⟨h, ⟨?_, by simp [Place.hasWrite], by simp [Place.hasInner], fun _ => hk.opens rfl,
      by simp⟩, fun _ _ => .refl, id⟩
    intro hp
    cases p with
    | command parses => exact hops parses rfl
    | read => cases hp

/-- The step of a bring-up that has the session. -/
theorem works_ensured (h : s.Sound) (hn : s.settled = none) (hinner : s.inner = some i)
    (hops : ∀ parses, b = .handle (.command parses) → i ∈ s.readers) (openedHere : Bool) :
    Works i s (s.ensured i openedHere b) := by
  cases b with
  | handle p =>
    simp only [Venue.ensured]
    split
    · refine (works_request (s := { s.syncCaches with reset := none, inner := none })
        ⟨h.exclusive, h.settled⟩ hn ?_ _).after ?_ id
      · rintro parses rfl
        exact hops parses rfl
      · intro j hj
        exact spares_of_inner hinner hj rfl rfl
    · exact (works_finish h.syncCaches .notSent).after (fun _ _ => spares_same rfl rfl rfl rfl) id
  | ensure =>
    refine (works_finish (s := { s.syncCaches with orderClosed := false }) ⟨h.exclusive, ?_⟩
      .ok).after (fun _ _ => spares_same rfl rfl rfl rfl) id
    intro n hsome
    exact absurd (hn.symm.trans hsome) (by simp)
  | subscribe =>
    have hknows : Knows i (.subscribing openedHere) s :=
      ⟨by simp [Place.hasOps], by simp [Place.hasWrite], fun _ => hinner, fun _ => hn, by simp⟩
    exact ⟨h, hknows, fun _ _ => .refl, id⟩

theorem works_unensured (h : s.Sound) (b : BringUp) : Works i s (s.unensured i b) := by
  have hsync : ∀ a, Works i s (s.syncCaches.finish i a) := fun a =>
    (works_finish h.syncCaches a).after (fun _ _ => spares_same rfl rfl rfl rfl) id
  cases b with
  | handle p => exact hsync .notSent
  | ensure => exact hsync .failed
  | subscribe => exact hsync .failed

theorem works_ensureOrderPlant (h : s.Sound) (hn : s.settled = none) (hinner : s.inner = some i)
    (hops : ∀ parses, b = .handle (.command parses) → i ∈ s.readers) :
    Works i s (s.ensureOrderPlant i b) := by
  unfold Venue.ensureOrderPlant
  split
  · exact works_ensured h hn hinner hops false
  · split
    · refine ⟨h, ⟨?_, by simp [Place.hasWrite], fun _ => hinner, fun _ => hn, by simp⟩,
        fun _ _ => .refl, id⟩
      intro hp
      cases b with
      | handle p =>
        cases p with
        | command parses => exact hops parses rfl
        | read => cases hp
      | ensure => cases hp
      | subscribe => cases hp
    · exact works_unensured h b

/-- What the place of a bring-up says about its locks. -/
theorem hasOps_of_command {parses : Bool} (hb : b = .handle (.command parses)) :
    (Place.resetWait b).hasOps = true ∧ (Place.innerWait b).hasOps = true ∧
      (Place.connecting b).hasOps = true := by
  subst hb
  exact ⟨rfl, rfl, rfl⟩

/-- A lock that is free is taken from nobody. -/
theorem spares_inner (hfree : s.inner = none) : Spares j s { s with inner := some i } := by
  refine ⟨id, id, ?_⟩
  intro hj
  rw [hfree] at hj
  cases hj

theorem works_drop (h : s.Sound) {r : Venue × Place} (hr : s.drop i p = some r) : Works i s r := by
  have hsame : ∀ n, Works i s (({ s with disconnecting := n } : Venue).finish i .dropped) :=
    fun n => (works_finish (s := { s with disconnecting := n }) ⟨h.exclusive, h.settled⟩
      .dropped).after (fun _ _ => spares_same rfl rfl rfl rfl) id
  unfold Venue.drop at hr
  split at hr
  · cases hr
  · cases hr
  · cases hr
    exact hsame _
  · cases hr
    exact hsame _
  · cases hr
    exact hsame _
  · cases hr
    exact works_finish h .dropped

/-- A command takes `session_ops`. -/
theorem works_opsWait {parses : Bool} (h : s.Sound) (hw : s.writer = none) :
    Works i s (({ s with readers := insert i s.readers } : Venue).commandHandle i
      (.command parses)) := by
  refine (works_commandHandle (s := { s with readers := insert i s.readers })
    ⟨fun hw' => absurd hw hw', h.settled⟩ ?_).after ?_ id
  · intro _ _
    exact Finset.mem_insert_self i _
  · intro j _
    exact ⟨fun hj => Finset.mem_insert_of_mem hj, id, fun hj => ⟨hj, rfl⟩⟩

theorem works_resetWait (h : s.Sound) (hk : Knows i (.resetWait b) s) :
    Works i s ({ s with reset := some i }, .innerWait b) := by
  refine ⟨⟨h.exclusive, h.settled⟩, ⟨fun hp => hk.ops ?_, by simp [Place.hasWrite],
    by simp [Place.hasInner], fun _ => hk.opens rfl, by simp⟩,
    fun _ _ => spares_same rfl rfl rfl rfl, id⟩
  cases b with
  | handle p =>
    cases p with
    | command parses => rfl
    | read => cases hp
  | ensure => cases hp
  | subscribe => cases hp

/-- The plant is connected under the session's lock. -/
theorem works_connected (h : s.Sound) (hk : Knows i (.connecting b) s) :
    Works i s (({ s with order := some s.plants, plants := s.plants + 1 } : Venue).ensured i true
      b) := by
  have hn := hk.opens rfl
  have hinner := hk.inner rfl
  refine (works_ensured (s := { s with order := some s.plants, plants := s.plants + 1 })
    ⟨h.exclusive, ?_⟩ hn hinner ?_ true).after ?_ id
  · intro n hsome
    exact absurd (hn.symm.trans hsome) (by simp)
  · intro parses hb
    exact hk.ops (hasOps_of_command hb).2.2
  · intro j hj
    exact spares_of_inner hinner hj rfl rfl

theorem works_subscribed {openedHere : Bool} (h : s.Sound)
    (hk : Knows i (.subscribing openedHere) s) :
    Works i s (({ s.syncCaches with orderClosed := false } : Venue).finish i .ok) := by
  have hn := hk.opens rfl
  refine (works_finish (s := { s.syncCaches with orderClosed := false }) ⟨h.exclusive, ?_⟩
    .ok).after (fun _ _ => spares_same rfl rfl rfl rfl) id
  intro n hsome
  exact absurd (hn.symm.trans hsome) (by simp)

/-- A subscribe that has opened the plant takes it down again. -/
theorem works_rollBack {openedHere : Bool} (h : s.Sound)
    (hk : Knows i (.subscribing openedHere) s) :
    Works i s ({ s with order := none }, .rollingBack) := by
  have hn := hk.opens rfl
  have hinner := hk.inner rfl
  refine ⟨⟨h.exclusive, ?_⟩, ⟨by simp [Place.hasOps], by simp [Place.hasWrite], fun _ => hinner,
    fun _ => hn, by simp⟩, fun j hj => spares_of_inner hinner hj rfl rfl, id⟩
  intro n hsome
  exact absurd (hn.symm.trans hsome) (by simp)

/-- A disconnect takes `session_ops` alone. -/
theorem works_writeWait (h : s.Sound) (hwriter : s.writer = none) (hreaders : s.readers = ∅) :
    Works i s ({ s with writer := some i }, .writeHeld) := by
  refine ⟨⟨fun _ => hreaders, h.settled⟩, ⟨by simp [Place.hasOps], fun _ => rfl,
    by simp [Place.hasInner], by simp [Place.opens], by simp⟩, ?_, id⟩
  intro j _
  refine ⟨id, ?_, fun hj => ⟨hj, rfl⟩⟩
  intro hj
  rw [hwriter] at hj
  cases hj

/-- A disconnect that has the session takes the plant down. -/
theorem works_writeHeld (h : s.Sound) (hk : Knows i .writeHeld s) (hfree : s.inner = none) :
    Works i s ({ s with inner := some i, order := none }, .closing) := by
  refine ⟨⟨h.exclusive, ?_⟩, ⟨by simp [Place.hasOps], fun _ => hk.write rfl, fun _ => rfl,
    by simp [Place.opens], fun _ => rfl⟩, ?_, id⟩
  · intro n hsome
    exact ⟨rfl, (h.settled n hsome).2⟩
  · intro j _
    refine ⟨id, id, ?_⟩
    intro hj
    rw [hfree] at hj
    cases hj

/-- Everything that a step does, apart from the return of a disconnect. -/
theorem works_run {a : Act} {r : Venue × Place} (h : s.Sound) (hk : Knows i p s)
    (hr : Venue.run i s p a = some r) (hreturns : a = .go → p.returns s = false)
    (hgiveUp : a ≠ .giveUp) : Works i s r := by
  unfold Venue.run at hr
  split at hr
  · split at hr
    · cases hr
    · next hw =>
      split at hr
      · cases hr
        exact ⟨h, knows_done i _ s, fun _ _ => .refl, id⟩
      · cases hr
        exact works_opsWait h (by simpa using hw)
  · cases hr
    exact works_orderHandle h hk
  · split at hr
    · cases hr
      exact works_resetWait h hk
    · cases hr
  · next b =>
    split at hr
    · next hfree =>
      cases hr
      refine (works_ensureOrderPlant (s := { s with inner := some i }) ⟨h.exclusive, h.settled⟩
        (hk.opens rfl) rfl ?_).after (fun _ _ => spares_inner hfree) id
      intro parses hb
      exact hk.ops (hasOps_of_command hb).2.1
    · cases hr
  · cases hr
    exact works_connected h hk
  · cases hr
    exact works_unensured h _
  · cases hr
    exact works_subscribed h hk
  · split at hr
    · cases hr
      exact works_rollBack h hk
    · cases hr
      exact (works_finish h.syncCaches .failed).after (fun _ _ => spares_same rfl rfl rfl rfl) id
  · cases hr
    exact (works_finish h.syncCaches .failed).after (fun _ _ => spares_same rfl rfl rfl rfl) id
  · cases hr
    exact works_finish h _
  · split at hr
    · next hfree =>
      cases hr
      exact works_writeWait h hfree.1 hfree.2
    · cases hr
  · exact absurd rfl hgiveUp
  · have horder := hreturns rfl
    split at hr
    · cases hr
    · next hfree =>
      split at hr
      · cases hr
        exact works_writeHeld h hk (by simpa using hfree)
      · next hdown =>
        simp [Place.returns] at horder
        simp [horder] at hdown
  · exact absurd (hreturns rfl) (by simp [Place.returns])
  · split at hr
    · cases hr
      exact ⟨⟨h.exclusive, h.settled⟩, knows_bare rfl rfl rfl rfl,
        fun _ _ => spares_same rfl rfl rfl rfl, id⟩
    · cases hr
  · split at hr
    · cases hr
      exact ⟨⟨h.exclusive, h.settled⟩, knows_bare rfl rfl rfl rfl,
        fun _ _ => spares_same rfl rfl rfl rfl, id⟩
    · cases hr
  · cases hr
    exact ⟨h, knows_bare rfl rfl rfl rfl, fun _ _ => .refl, id⟩
  · cases hr
    exact works_finish h _
  · split at hr
    · cases hr
      exact (works_finish (s := { s with ticker := true }) ⟨h.exclusive, h.settled⟩ .ok).after
        (fun _ _ => spares_same rfl rfl rfl rfl) id
    · cases hr
  · exact works_drop h hr
  · cases hr

theorem works_spawn {c : Call} {r : Venue × Place} (h : s.Sound)
    (hr : Venue.spawn i s c = some r) : Works i s r := by
  have hsame : ∀ p : Place, p.hasOps = false → p.hasWrite = false → p.hasInner = false →
      p.opens = false → Works i s (s, p) := fun p hops hwrite hinner hopens =>
    ⟨h, knows_bare hops hwrite hinner hopens, fun _ _ => .refl, id⟩
  have hup : ∀ b : BringUp, (Place.resetWait b).hasOps = false →
      Works i s ({ s with settled := none }, .resetWait b) := by
    intro b hb
    refine ⟨⟨h.exclusive, by simp⟩, ⟨by simp [hb], by simp [Place.hasWrite], by simp [Place.hasInner],
      fun _ => rfl, by simp⟩, fun _ _ => spares_same rfl rfl rfl rfl, fun _ => rfl⟩
  cases c with
  | allow trading cancelAll =>
    cases hr
    exact ⟨⟨h.exclusive, h.settled⟩, knows_done _ _ _, fun _ _ => spares_same rfl rfl rfl rfl, id⟩
  | command cancelAll parses =>
    simp only [Venue.spawn] at hr
    generalize (if cancelAll then s.cancelAllEnabled else s.tradingEnabled) = gate at hr
    split at hr
    · cases hr
      exact hsame _ rfl rfl rfl rfl
    · split at hr
      · cases hr
        exact hsame _ rfl rfl rfl rfl
      · cases hr
        exact hsame _ rfl rfl rfl rfl
  | read =>
    simp only [Venue.spawn] at hr
    split at hr
    · cases hr
      exact works_commandHandle h (by simp)
    · cases hr
      exact hsame _ rfl rfl rfl rfl
  | ensureOrderPlant =>
    simp only [Venue.spawn] at hr
    split at hr
    · cases hr
      exact hup _ rfl
    · cases hr
      exact hsame _ rfl rfl rfl rfl
  | subscribeOrders =>
    simp only [Venue.spawn] at hr
    split at hr
    · cases hr
      exact hup _ rfl
    · cases hr
      exact hsame _ rfl rfl rfl rfl
  | disconnectOrderPlant =>
    cases hr
    exact ⟨⟨h.exclusive, h.settled⟩, knows_bare rfl rfl rfl rfl,
      fun _ _ => spares_same rfl rfl rfl rfl, id⟩
  | resetTicker =>
    cases hr
    exact hsame _ rfl rfl rfl rfl

section Runs

variable {P : Pool Venue Place}

theorem Works.keeps {r : Venue × Place} (hP : P.Holds Venue.Sound Knows) (h : Works i P.shared r) :
    P.Keeps Venue.Sound Knows i r := by
  refine ⟨h.sound, h.knows, ?_⟩
  intro j q hj hq
  exact (hP.places j q hq).stable (h.spares j hj) fun _ => h.settled

theorem opens_cases (h : q.opens = true) : q.waits = true ∨ q.hasOps = true ∨ q.hasInner = true := by
  cases q with
  | handleLook p =>
    cases p with
    | command parses => exact .inr (.inl rfl)
    | read => exact .inl rfl
  | resetWait b | innerWait b =>
    rcases b with ⟨⟨parses⟩ | _⟩ | _ | _
    · exact .inr (.inl rfl)
    · exact .inl rfl
    · exact .inl rfl
    · exact .inl rfl
  | connecting b => exact .inr (.inr rfl)
  | subscribing openedHere => exact .inr (.inr rfl)
  | rollingBack => exact .inr (.inr rfl)
  | _ => cases h

/-- A disconnect returns with the order plant down, and no other thread on its way to bring it up: the
commands are kept out by `session_ops`, the reads and bring-ups with the session by its lock. -/
theorem keeps_closed (hP : P.Holds Venue.Sound Knows) (hwriter : P.shared.writer = some i)
    (horder : P.shared.order = none) (hinner : ∀ j, j ≠ i → P.shared.inner ≠ some j)
    (hquiet : ∀ q ∈ P.threads, q.waits = false) {s : Venue} (hs : s = { P.shared with inner := some i }) :
    P.Keeps Venue.Sound Knows i (s.closed i) := by
  have hsent : P.shared.settled.getD P.shared.sent.length = P.shared.sent.length := by
    cases hn : P.shared.settled with
    | none => rfl
    | some n => exact (hP.shared.settled n hn).2.2.symm
  have hsound : ({ s.syncCaches with orderClosed := true } : Venue).settle.Sound := by
    subst hs
    refine ⟨hP.shared.exclusive, ?_⟩
    intro n hsome
    cases hsome
    exact ⟨horder, rfl, hsent.symm⟩
  refine ⟨hsound.release i, knows_done _ _ _, ?_⟩
  intro j q hj hq
  have hspares : Spares j P.shared ({ s.syncCaches with orderClosed := true } : Venue).settle := by
    subst hs
    refine ⟨id, id, ?_⟩
    intro h
    exact absurd h (hinner j hj)
  have hknows := hP.places j q hq
  refine hknows.stable (hspares.trans (spares_release hj)) ?_
  intro hopens
  exfalso
  rcases opens_cases hopens with h | h | h
  · have := hquiet q (List.mem_of_getElem? hq)
    simp [h] at this
  · have hnone := hP.shared.exclusive (by rw [hwriter]; simp)
    have := hknows.ops h
    simp [hnone] at this
  · exact hinner j hj (hknows.inner h)

theorem keeps_run {a : Act} {r : Venue × Place} (hP : P.Holds Venue.Sound Knows) (hp : P.At i p)
    (hr : Venue.run i P.shared p a = some r) (hquiet : Quiet P (.run i a)) :
    P.Keeps Venue.Sound Knows i r := by
  have hk := hP.places i p hp
  by_cases hreturns : a = .go ∧ p.returns P.shared = true
  · obtain ⟨rfl, hreturns⟩ := hreturns
    have hquiet := hquiet p hp hreturns
    unfold Place.returns at hreturns
    split at hreturns
    · have horder : P.shared.order = none := by simpa using hreturns
      simp only [Venue.run, horder, Option.isSome_none] at hr
      split at hr
      · cases hr
      · next hfree =>
        have hfree : P.shared.inner = none := by simpa using hfree
        cases hr
        exact keeps_closed hP (hk.write rfl) horder (by simp [hfree]) hquiet (by simp [horder])
    · cases hr
      have hinner := hk.inner rfl
      refine keeps_closed hP (hk.write rfl) (hk.closing rfl) ?_ hquiet (by rw [← hinner])
      intro j hj h
      exact hj (Option.some.inj (h.symm.trans hinner))
    · cases hreturns
  · refine Works.keeps hP (works_run hP.shared hk hr ?_ ?_)
    · intro ha
      by_contra h
      exact hreturns ⟨ha, by simpa using h⟩
    · rintro rfl
      exact hquiet

/-- An explicitly disconnected order plant stays down, and no command is sent to it. -/
theorem staysDown_of_run {trace : List (Move Call Act)} (h : machine.Run Quiet trace P) :
    P.shared.StaysDown := by
  have hP : P.Holds Venue.Sound Knows := by
    refine Program.holds_of_run ?_ ?_ ?_ h
    · rintro s ⟨hreaders, -, -, -, hsettled⟩
      refine ⟨fun _ => hreaders, ?_⟩
      intro n hn
      simp [hsettled] at hn
    · intro P c r hP hr _
      exact Works.keeps hP (works_spawn hP.shared hr)
    · intro P i a p r hP hp hr hquiet
      exact keeps_run hP hp hr hquiet
  intro n hn
  obtain ⟨horder, -, hsent⟩ := hP.shared.settled n hn
  exact ⟨horder, hsent⟩

end Runs

/-- A command on a connected plant, a disconnect that waits for it, and a command and a read after it. -/
def disconnected : List (Move Call Act) :=
  [.spawn .ensureOrderPlant, .run 0 .go, .run 0 .go, .run 0 (.answer true),
    .spawn (.command false true), .run 1 .go, .run 1 .go, .spawn .disconnectOrderPlant,
    .run 1 (.answer true), .run 2 .go, .run 2 .go, .run 2 .go, .spawn (.command false true), .run 3 .go, .spawn .read]

theorem staysDown_disconnected :
    ∃ P, machine.Run Quiet disconnected P ∧ P.shared.StaysDown ∧ P.shared.settled = some 1 ∧
      P.At 3 (.done .notSent) ∧ P.At 4 (.done .notSent) := by
  have hexec : ∃ P, machine.exec Quiet ⟨{ tradingEnabled := true }, []⟩ disconnected = some P ∧
      P.shared.settled = some 1 ∧ P.At 3 (.done .notSent) ∧ P.At 4 (.done .notSent) :=
    ⟨_, rfl, rfl, rfl, rfl⟩
  obtain ⟨P, hexec, hsettled, hcommand, hread⟩ := hexec
  have hrun : machine.Run Quiet disconnected P :=
    Machine.run_of_exec ⟨⟨rfl, rfl, rfl, rfl, rfl⟩, rfl⟩ hexec
  exact ⟨P, hrun, staysDown_of_run hrun, hsettled, hcommand, hread⟩

/-- A read that waits behind a bring-up connects the order plant again after the disconnect. -/
theorem not_staysDown_read :
    ∃ P, machine.Run Machine.Free
      [.spawn .ensureOrderPlant, .run 0 .go, .run 0 .go, .spawn .read, .run 1 .go,
        .spawn .disconnectOrderPlant, .run 2 .go, .run 0 (.answer true), .run 1 .go, .run 2 .go,
        .run 2 .go, .run 1 .go, .run 1 (.answer true)] P ∧
      P.At 2 (.done .ok) ∧ ¬ P.shared.StaysDown := by
  have hexec : ∃ P, machine.exec Machine.Free ⟨{ tradingEnabled := true }, []⟩
      [.spawn .ensureOrderPlant, .run 0 .go, .run 0 .go, .spawn .read, .run 1 .go,
        .spawn .disconnectOrderPlant, .run 2 .go, .run 0 (.answer true), .run 1 .go, .run 2 .go,
        .run 2 .go, .run 1 .go, .run 1 (.answer true)] = some P ∧
      P.At 2 (.done .ok) ∧ P.shared.settled = some 0 ∧ P.shared.order = some 1 :=
    ⟨_, rfl, rfl, rfl, rfl⟩
  obtain ⟨P, hexec, hdone, hsettled, horder⟩ := hexec
  refine ⟨P, Machine.run_of_exec ⟨⟨rfl, rfl, rfl, rfl, rfl⟩, rfl⟩ hexec, hdone, ?_⟩
  intro h
  have := (h 0 hsettled).1
  simp [horder] at this

end RithmicNt.Plants
