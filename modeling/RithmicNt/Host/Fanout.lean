import Mathlib.Logic.Function.Basic
import RithmicNt.Host.Restore
import RithmicNt.Host.Session

/-! The host's fan-out hub: the topics it counts interest in, the delivery topics its sessions hold on
them, and the attachments that an event of the venue is queued to. -/

namespace RithmicNt.Host.Fanout

open RithmicNt.Lib

inductive PlantEvent
  | lastTrade (symbol exchange : Option String)
  | bbo (symbol exchange : Option String)
  | orderBook (symbol exchange : Option String)
  | timeBar (symbol exchange : Option String)
  | accountPnl
  | instrumentPnl
  | orderNotification
  | bracketUpdate
  | gap (stream : Stream) (skipped : Nat)
  | other
  deriving DecidableEq, Repr

inductive Route
  | topic (key : SubKey) (kind : Kind)
  | pnl
  | order
  | other
  | gap (stream : Stream)
  deriving DecidableEq, Repr

def text (field : Option String) : String := field.getD ""

/-- Bracket updates ride the order-plant stream. -/
def routeOf : PlantEvent → Route
  | .lastTrade symbol exchange | .bbo symbol exchange => .topic ⟨text symbol, text exchange⟩ .ticker
  | .orderBook symbol exchange => .topic ⟨text symbol, text exchange⟩ .book
  | .timeBar symbol exchange => .topic ⟨text symbol, text exchange⟩ .bars
  | .accountPnl | .instrumentPnl => .pnl
  | .orderNotification | .bracketUpdate => .order
  | .gap stream _ => .gap stream
  | .other => .other

def streamOf : PlantEvent → Stream
  | .timeBar .. => .history
  | .accountPnl | .instrumentPnl => .pnl
  | .orderNotification | .bracketUpdate => .order
  | .gap stream _ => stream
  | .lastTrade .. | .bbo .. | .orderBook .. | .other => .ticker

def PlantEvent.isGap : PlantEvent → Bool
  | .gap .. => true
  | _ => false

def otherKey : SubKey := ⟨"__other__", ""⟩

def gapKey : Stream → SubKey
  | .pnl => pnlKey
  | .order => orderKey
  | .ticker | .history => ⟨"__gap__", ""⟩

/-- The symbol starts with `__`, as the internal keys do. -/
def internal (symbol : String) : Bool := "__".toList.isPrefixOf symbol.toList

/-- `stream` of a delivery topic, by the symbol of its key. -/
def topicStream (symbol : String) : Stream :=
  if symbol = "__pnl__" then .pnl else if symbol = "__order__" then .order else .ticker

/-- `kinds` is the number of the interest cell that the topic shares with its session. -/
structure DeliveryTopic where
  kinds : Nat
  stream : Stream
  deriving DecidableEq, Repr

/-- A weak reference to a delivery topic, by the session that made it and its number there. -/
structure Weak where
  session : Nat
  serial : Nat
  deriving DecidableEq, Repr

structure SubState where
  refcount : Nat
  deliveries : List Weak := []
  deriving DecidableEq, Repr

/-- The delivery part of a session's context, with the objects the session has made: its interest
cells by their numbers, and its delivery topics as long as its map holds them. -/
structure Wires where
  subscribed : Finset SubKey := ∅
  kinds : SubKey → Option Nat := fun _ => none
  topics : SubKey → Option Nat := fun _ => none
  cells : Nat → UInt8 := fun _ => 0
  made : Nat → Option DeliveryTopic := fun _ => none
  next : Nat := 0

/-- The hub and the sessions that it delivers to. -/
structure Net where
  subs : Dict SubKey SubState := .empty
  wires : Nat → Wires := fun _ => {}

/-- A record in the queue of an attachment. -/
structure Queued where
  session : Nat
  stream : Stream
  event : PlantEvent
  deriving DecidableEq, Repr

def addInterest (subs : Dict SubKey SubState) (key : SubKey) : Dict SubKey SubState :=
  match subs.get? key with
  | some st => subs.set key { st with refcount := st.refcount + 1 }
  | none => subs.set key { refcount := 1 }

def removeInterest (subs : Dict SubKey SubState) (key : SubKey) : Dict SubKey SubState :=
  match subs.get? key with
  | none => subs
  | some st =>
    if st.refcount - 1 = 0 then subs.filter fun e => e.1 ≠ key
    else subs.set key { st with refcount := st.refcount - 1 }

namespace DeliveryTopic

def wants (t : DeliveryTopic) (cells : Nat → UInt8) (kind : Kind) : Bool :=
  kind = .any || cells t.kinds &&& kind.bit ≠ 0

/-- The queue of a record: its stream is read off the event, or off the topic where the attachment
takes the encoded form.  A gap is never encoded. -/
def lane (t : DeliveryTopic) (encoded : Bool) (kind : Kind) (event : PlantEvent) : Stream :=
  if encoded && !event.isGap then
    if kind = .bars then .history else t.stream
  else streamOf event

end DeliveryTopic

namespace Wires

/-- `kinds.entry(key)`: a new cell where the session has none for the key. -/
def entry (w : Wires) (key : SubKey) : Wires × Nat :=
  match w.kinds key with
  | some x => (w, x)
  | none =>
    ({ w with
      kinds := Function.update w.kinds key (some w.next)
      cells := Function.update w.cells w.next 0
      next := w.next + 1 }, w.next)

/-- The topic of the key, if the map has one, goes with its only strong reference. -/
def release (w : Wires) (key : SubKey) : Wires :=
  match w.topics key with
  | none => w
  | some t =>
    { w with topics := Function.update w.topics key none, made := Function.update w.made t none }

def syncKinds (w : Wires) (key : SubKey) (mask : UInt8) : Wires :=
  if mask = 0 ∧ key ∉ w.subscribed then { w with kinds := Function.update w.kinds key none }
  else
    let (w, x) := w.entry key
    { w with cells := Function.update w.cells x mask }

def dropDelivery (w : Wires) (key : SubKey) : Wires :=
  let w := w.release key
  { w with kinds := Function.update w.kinds key none, subscribed := w.subscribed.erase key }

/-- The interest of the session in a topic. -/
def interest (w : Wires) (key : SubKey) : Option UInt8 := (w.kinds key).map w.cells

end Wires

namespace Net

def setWires (n : Net) (id : Nat) (w : Wires) : Net :=
  { n with wires := Function.update n.wires id w }

def upgrade (n : Net) (r : Weak) : Option DeliveryTopic := (n.wires r.session).made r.serial

def addInterest (n : Net) (key : SubKey) : Net := { n with subs := Fanout.addInterest n.subs key }

def removeInterest (n : Net) (key : SubKey) : Net :=
  { n with subs := Fanout.removeInterest n.subs key }

/-- The net with a new delivery topic, and its number. -/
def subscribeDelivery (n : Net) (id : Nat) (key : SubKey) (cell : Nat) : Option (Net × Nat) :=
  match n.subs.get? key with
  | none => none
  | some st =>
    let w := n.wires id
    let live := st.deliveries.filter fun r => (n.upgrade r).isSome
    let topic : DeliveryTopic := ⟨cell, topicStream key.symbol⟩
    let subs := n.subs.set key { st with deliveries := live ++ [(⟨id, w.next⟩ : Weak)] }
    some ({ n with subs }.setWires id
      { w with made := Function.update w.made w.next (some topic), next := w.next + 1 }, w.next)

def ensureDelivery (n : Net) (id : Nat) (key : SubKey) : Net :=
  if key ∈ (n.wires id).subscribed then n
  else
    let (w, cell) := (n.wires id).entry key
    let n := n.setWires id w
    match n.subscribeDelivery id key cell with
    | none => n
    | some (n, t) =>
      let w := (n.wires id).release key
      n.setWires id { w with
        topics := Function.update w.topics key (some t)
        subscribed := insert key w.subscribed }

/-- What a live topic that wants the kind puts into the queue of its attachment. -/
def deliver (n : Net) (encoded : Nat → Bool) (kind : Kind) (event : PlantEvent) (r : Weak) :
    Option Queued :=
  (n.upgrade r).bind fun topic =>
    if topic.wants (n.wires r.session).cells kind then
      some ⟨r.session, topic.lane (encoded r.session) kind event, event⟩
    else none

/-- `SubState::event` and `SubState::publish`. -/
def publish (n : Net) (encoded : Nat → Bool) (st : SubState) (kind : Kind) (event : PlantEvent) :
    List Queued :=
  st.deliveries.filterMap (n.deliver encoded kind event)

def publishAt (n : Net) (encoded : Nat → Bool) (key : SubKey) (kind : Kind) (event : PlantEvent) :
    List Queued :=
  match n.subs.get? key with
  | none => []
  | some st => n.publish encoded st kind event

def publishSymbols (n : Net) (encoded : Nat → Bool) (event : PlantEvent) : List Queued :=
  (n.subs.entries.filter fun e => !internal e.1.symbol).flatMap fun e =>
    n.publish encoded e.2 .any event

def publishPlantEvent (n : Net) (encoded : Nat → Bool) (event : PlantEvent) : List Queued :=
  let kind := if event = .bracketUpdate then Kind.brackets else .any
  match routeOf event with
  | .topic key kind => n.publishAt encoded key kind event
  | .gap .ticker | .gap .history => n.publishSymbols encoded event
  | .pnl => n.publishAt encoded pnlKey kind event
  | .order => n.publishAt encoded orderKey kind event
  | .other => n.publishAt encoded otherKey kind event
  | .gap stream => n.publishAt encoded (gapKey stream) kind event

/-- What one attachment is queued of an event. -/
def received (n : Net) (encoded : Nat → Bool) (id : Nat) (event : PlantEvent) :
    List (Stream × PlantEvent) :=
  ((n.publishPlantEvent encoded event).filter (·.session = id)).map fun q => (q.stream, q.event)

end Net

/-- The objects of a session belong together: its map holds the live topics, one for each key it is on,
and a topic and its key share a cell that no other key has. -/
structure Wires.Wired (w : Wires) : Prop where
  topics : ∀ k, (w.topics k).isSome = true ↔ k ∈ w.subscribed
  live : ∀ k t, w.topics k = some t →
    ∃ x, w.made t = some ⟨x, topicStream k.symbol⟩ ∧ w.kinds k = some x
  held : ∀ t d, w.made t = some d → ∃ k, w.topics k = some t
  cells : ∀ k k' x, w.kinds k = some x → w.kinds k' = some x → k = k'
  freshCell : ∀ k x, w.kinds k = some x → x < w.next
  freshTopic : ∀ t d, w.made t = some d → t < w.next

/-- A topic of the hub has interest and names each delivery once; one that is live is in the map of
its session under the key of the topic. -/
structure Net.Linked (n : Net) : Prop where
  wired : ∀ id, (n.wires id).Wired
  pos : ∀ k st, n.subs.get? k = some st → 0 < st.refcount
  nodup : ∀ k st, n.subs.get? k = some st → st.deliveries.Nodup
  fresh : ∀ k st, n.subs.get? k = some st →
    ∀ r ∈ st.deliveries, r.serial < (n.wires r.session).next
  owned : ∀ k st, n.subs.get? k = some st → ∀ r ∈ st.deliveries, ∀ d, n.upgrade r = some d →
    (n.wires r.session).topics k = some r.serial

/-- The hub knows every delivery that a session has on the topic. -/
def Net.Present (n : Net) (key : SubKey) : Prop :=
  ∀ id t, (n.wires id).topics key = some t →
    ∃ st, n.subs.get? key = some st ∧ (⟨id, t⟩ : Weak) ∈ st.deliveries

/-- The session is on the topic and its interest has the kind. -/
def Wires.Reaches (w : Wires) (key : SubKey) (kind : Kind) : Prop :=
  key ∈ w.subscribed ∧ (kind = .any ∨ ∃ v, w.interest key = some v ∧ v &&& kind.bit ≠ 0)

theorem filterMap_eq_of_unique {α β : Type*} [DecidableEq α] {l : List α} (hl : l.Nodup)
    {f : α → Option β} {a : α} (h : ∀ x ∈ l, (f x).isSome = true → x = a) :
    l.filterMap f = if a ∈ l then (f a).toList else [] := by
  induction l with
  | nil => rfl
  | cons x l ih =>
    obtain ⟨hx, hl⟩ := List.nodup_cons.mp hl
    have ih := ih hl fun y hy => h y (List.mem_cons_of_mem x hy)
    by_cases hxa : x = a
    · subst hxa
      rw [if_neg hx] at ih
      rw [if_pos List.mem_cons_self]
      cases hf : f x with
      | none => simp [hf, ih]
      | some b => simp [hf, ih]
    · have hnone : f x = none := by
        cases hf : f x with
        | none => rfl
        | some b => exact absurd (h x List.mem_cons_self (by simp [hf])) hxa
      simp [hnone, ih, Ne.symm hxa]

namespace Net

variable {n : Net} {encoded : Nat → Bool} {kind : Kind} {event : PlantEvent} {id : Nat}
  {key : SubKey} {st : SubState}

theorem deliver_isSome_iff {r : Weak} : (n.deliver encoded kind event r).isSome = true ↔
    ∃ d, n.upgrade r = some d ∧ d.wants (n.wires r.session).cells kind = true := by
  unfold deliver
  cases n.upgrade r with
  | none => simp
  | some d =>
    by_cases hw : d.wants (n.wires r.session).cells kind = true <;> simp [hw]

theorem wants_iff {d : DeliveryTopic} {cells : Nat → UInt8} :
    d.wants cells kind = true ↔ kind = .any ∨ cells d.kinds &&& kind.bit ≠ 0 := by
  simp [DeliveryTopic.wants]

/-- What an attachment is queued on one topic: at most the record of its own live delivery. -/
theorem filter_publish (h : n.Linked) (hst : n.subs.get? key = some st) {t : Nat}
    (ht : ∀ r ∈ st.deliveries, r.session = id → (n.upgrade r).isSome = true → r.serial = t) :
    (n.publish encoded st kind event).filter (·.session = id) =
      if (⟨id, t⟩ : Weak) ∈ st.deliveries then (n.deliver encoded kind event ⟨id, t⟩).toList
      else [] := by
  unfold publish
  rw [List.filter_filterMap]
  have hown : ∀ r : Weak, (Option.filter (fun q : Queued => decide (q.session = id))
      (n.deliver encoded kind event r)).isSome = true →
      r.session = id ∧ (n.upgrade r).isSome = true := by
    intro r hr
    obtain ⟨q, hq⟩ := Option.isSome_iff_exists.mp hr
    obtain ⟨hq, hid⟩ := Option.filter_eq_some_iff.mp hq
    obtain ⟨d, hd, hw⟩ := deliver_isSome_iff.mp (Option.isSome_of_eq_some hq)
    refine ⟨?_, Option.isSome_of_eq_some hd⟩
    have hsession : q.session = r.session := by
      unfold deliver at hq
      rw [hd] at hq
      simp only [Option.bind_some, hw, if_true, Option.some.injEq] at hq
      rw [← hq]
    rw [← hsession]
    simpa using hid
  rw [filterMap_eq_of_unique (h.nodup key st hst) (a := ⟨id, t⟩)]
  · split
    · congr 1
      cases hq : n.deliver encoded kind event ⟨id, t⟩ with
      | none => rfl
      | some q =>
        have hsession : q.session = id := by
          obtain ⟨d, hd, hw⟩ := deliver_isSome_iff.mp (Option.isSome_of_eq_some hq)
          unfold deliver at hq
          rw [hd] at hq
          simp only [Option.bind_some, hw, if_true, Option.some.injEq] at hq
          rw [← hq]
        simp [Option.filter, hsession]
    · rfl
  · intro r hr hsome
    obtain ⟨hid, hlive⟩ := hown r hsome
    cases r with
    | mk session serial =>
      cases hid
      have := ht ⟨session, serial⟩ hr rfl hlive
      cases this
      rfl

theorem serial_of_topics (h : n.Linked) (hst : n.subs.get? key = some st) {t : Nat}
    (ht : (n.wires id).topics key = some t) :
    ∀ r ∈ st.deliveries, r.session = id → (n.upgrade r).isSome = true → r.serial = t := by
  intro r hr hid hlive
  obtain ⟨d, hd⟩ := Option.isSome_iff_exists.mp hlive
  have howned := h.owned key st hst r hr d hd
  rw [hid, ht] at howned
  exact (Option.some.inj howned).symm

/-- The record of an attachment that is on the topic. -/
theorem deliver_of_topics (h : n.Linked) {t : Nat} (ht : (n.wires id).topics key = some t) :
    ((n.wires id).Reaches key kind → ∃ d : DeliveryTopic, d.stream = topicStream key.symbol ∧
      n.deliver encoded kind event ⟨id, t⟩ = some ⟨id, d.lane (encoded id) kind event, event⟩) ∧
    (¬ (n.wires id).Reaches key kind → n.deliver encoded kind event ⟨id, t⟩ = none) := by
  obtain ⟨x, hmade, hkinds⟩ := (h.wired id).live key t ht
  have hmem : key ∈ (n.wires id).subscribed := ((h.wired id).topics key).mp (by simp [ht])
  have hinterest : (n.wires id).interest key = some ((n.wires id).cells x) := by
    simp [Wires.interest, hkinds]
  have hwants : (⟨x, topicStream key.symbol⟩ : DeliveryTopic).wants (n.wires id).cells kind = true ↔
      (n.wires id).Reaches key kind := by
    rw [wants_iff, Wires.Reaches, hinterest]
    simp [hmem]
  have hup : n.upgrade ⟨id, t⟩ = some ⟨x, topicStream key.symbol⟩ := hmade
  constructor
  · intro hreach
    refine ⟨⟨x, topicStream key.symbol⟩, rfl, ?_⟩
    unfold deliver
    rw [hup]
    simp [hwants.mpr hreach]
  · intro hreach
    unfold deliver
    rw [hup]
    simp [mt hwants.mp hreach]

/-- Nothing is queued to a session that is not on the topic, or whose interest lacks the kind. -/
theorem filter_publish_of_not_reaches (h : n.Linked) (hst : n.subs.get? key = some st)
    (hnot : ¬ (n.wires id).Reaches key kind) :
    (n.publish encoded st kind event).filter (·.session = id) = [] := by
  cases ht : (n.wires id).topics key with
  | some t =>
    rw [filter_publish h hst (serial_of_topics h hst ht)]
    rw [(deliver_of_topics h ht).2 hnot]
    split <;> rfl
  | none =>
    have hdead : ∀ r ∈ st.deliveries, r.session = id → n.upgrade r = none := by
      intro r hr hid
      cases hd : n.upgrade r with
      | none => rfl
      | some d =>
        have := h.owned key st hst r hr d hd
        rw [hid, ht] at this
        cases this
    rw [filter_publish h hst (t := 0)]
    · split
      · next hmem =>
        unfold deliver
        rw [hdead _ hmem rfl]
        rfl
      · rfl
    · intro r hr hid hlive
      rw [hdead r hr hid] at hlive
      cases hlive

/-- One record is queued to a session that is on the topic, as the hub knows, and wants the kind. -/
theorem filter_publish_of_reaches (h : n.Linked) (hp : n.Present key)
    (hst : n.subs.get? key = some st) (hreach : (n.wires id).Reaches key kind) :
    ∃ d : DeliveryTopic, d.stream = topicStream key.symbol ∧
      (n.publish encoded st kind event).filter (·.session = id) =
        [⟨id, d.lane (encoded id) kind event, event⟩] := by
  obtain ⟨t, ht⟩ := Option.isSome_iff_exists.mp (((h.wired id).topics key).mpr hreach.1)
  obtain ⟨st', hst', hmem⟩ := hp id t ht
  cases hst.symm.trans hst'
  obtain ⟨d, hstream, hd⟩ : ∃ d : DeliveryTopic, d.stream = topicStream key.symbol ∧
      n.deliver encoded kind event ⟨id, t⟩ = some ⟨id, d.lane (encoded id) kind event, event⟩ :=
    (deliver_of_topics h ht).1 hreach
  refine ⟨d, hstream, ?_⟩
  rw [filter_publish h hst (serial_of_topics h hst ht), if_pos hmem, hd]
  rfl

theorem filter_publishAt_of_not_reaches (h : n.Linked)
    (hnot : ¬ (n.wires id).Reaches key kind) :
    (n.publishAt encoded key kind event).filter (·.session = id) = [] := by
  unfold publishAt
  cases hst : n.subs.get? key with
  | none => rfl
  | some st => exact filter_publish_of_not_reaches h hst hnot

theorem filter_publishAt_of_reaches (h : n.Linked) (hp : n.Present key)
    (hreach : (n.wires id).Reaches key kind) :
    ∃ d : DeliveryTopic, d.stream = topicStream key.symbol ∧
      (n.publishAt encoded key kind event).filter (·.session = id) =
        [⟨id, d.lane (encoded id) kind event, event⟩] := by
  obtain ⟨t, ht⟩ := Option.isSome_iff_exists.mp (((h.wired id).topics key).mpr hreach.1)
  obtain ⟨st, hst, -⟩ := hp id t ht
  unfold publishAt
  rw [hst]
  exact filter_publish_of_reaches h hp hst hreach

end Net

end RithmicNt.Host.Fanout
