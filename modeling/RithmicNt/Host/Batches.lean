import RithmicNt.Host.Attachment

/-! A batch of venue events published at once, against the same events published one by one: the sole
native holder of a topic is handed the whole batch, and its queue cannot tell. -/

namespace RithmicNt.Host.Batches

open RithmicNt.Lib RithmicNt.Host.Fanout RithmicNt.Host.Attachment

variable {δ β : Type}

/-- The compatibility ring of a topic, by its receivers and what was sent to them. -/
structure Channel (δ β : Type) where
  receivers : Nat
  sent : List (Fan δ β) := []

/-- The hub with the queues of the attachments that its deliveries lead to. -/
structure Hub (δ β : Type) where
  net : Net
  nativeSessions : Nat
  encoder : Option (Event δ → β)
  channels : SubKey → Option (Channel δ β)
  attachments : Nat → Delivery δ β

namespace Hub

def setAttachment (h : Hub δ β) (id : Nat) (d : Delivery δ β) : Hub δ β :=
  { h with attachments := Function.update h.attachments id d }

/-- A record is encoded where no native session can need it; a gap never is. -/
def fan (h : Hub δ β) (kind : Kind) (event : Event δ) : Fan δ β :=
  if !event.plant.isGap && h.nativeSessions = 0 then
    match h.encoder with
    | some encode => .encoded kind (encode event)
    | none => .native kind event
  else .native kind event

def receiverCount (h : Hub δ β) (key : SubKey) : Nat :=
  (h.channels key).elim 0 Channel.receivers

/-- `send` on the ring: without a receiver the record is dropped. -/
def send (h : Hub δ β) (key : SubKey) (fan : Fan δ β) : Hub δ β :=
  match h.channels key with
  | none => h
  | some c =>
    if c.receivers = 0 then h
    else
      let c := { c with sent := c.sent ++ [fan] }
      { h with channels := Function.update h.channels key (some c) }

/-- The live deliveries of a topic that want the kind, with their attachments. -/
def wanted (h : Hub δ β) (st : SubState) (kind : Kind) : List (Nat × DeliveryTopic) :=
  st.deliveries.filterMap fun r =>
    (h.net.upgrade r).bind fun topic =>
      if topic.wants (h.net.wires r.session).cells kind then some (r.session, topic) else none

/-- `DeliveryTopic::shared`. -/
def shared (h : Hub δ β) (fan : Fan δ β) (target : Nat × DeliveryTopic) : Hub δ β :=
  let stream :=
    match fan.event with
    | some event => event.stream
    | none => if fan.kind = .bars then .history else target.2.stream
  h.setAttachment target.1 ((h.attachments target.1).shared stream fan)

/-- `SubState::publish`. -/
def publish (h : Hub δ β) (key : SubKey) (st : SubState) (fan : Fan δ β) : Hub δ β :=
  ((h.wanted st fan.kind).foldl (fun h target => h.shared fan target) h).send key fan

/-- `SubState::event`: the only consumer of a record owns it. -/
def event (h : Hub δ β) (key : SubKey) (st : SubState) (kind : Kind) (event : Event δ) : Hub δ β :=
  if h.receiverCount key = 0 then
    match h.wanted st kind with
    | [] => h
    | [only] =>
      if (h.attachments only.1).transport then h.shared (h.fan kind event) only
      else h.setAttachment only.1 ((h.attachments only.1).push event.stream (.batch event []))
    | first :: second :: rest =>
      (first :: second :: rest).foldl (fun h' target => h'.shared (h.fan kind event) target) h
  else h.publish key st (h.fan kind event)

def eventAt (h : Hub δ β) (key : SubKey) (kind : Kind) (event : Event δ) : Hub δ β :=
  match h.net.subs.get? key with
  | none => h
  | some st => h.event key st kind event

def publishSymbols (h : Hub δ β) (fan : Fan δ β) : Hub δ β :=
  (h.net.subs.entries.filter fun e => !internal e.1.symbol).foldl
    (fun h e => h.publish e.1 e.2 fan) h

def publishPlantEvent (h : Hub δ β) (event : Event δ) : Hub δ β :=
  let kind := if event.plant = .bracketUpdate then Kind.brackets else .any
  match routeOf event.plant with
  | .topic key kind => h.eventAt key kind event
  | .gap .ticker | .gap .history => h.publishSymbols (h.fan .any event)
  | .pnl => h.eventAt pnlKey kind event
  | .order => h.eventAt orderKey kind event
  | .other => h.eventAt otherKey kind event
  | .gap stream => h.eventAt (gapKey stream) kind event

/-- The attachment that is handed a whole batch: the only consumer of the first event's topic, native,
where all events have the one route. -/
def sole (h : Hub δ β) (first : Event δ) (rest : List (Event δ)) : Option Nat :=
  match routeOf first.plant with
  | .topic key kind =>
    (h.net.subs.get? key).bind fun st =>
      if h.receiverCount key = 0 then
        match h.wanted st kind with
        | [only] =>
          if !(h.attachments only.1).transport &&
              (first :: rest).all fun event => routeOf event.plant = routeOf first.plant then
            some only.1
          else none
        | _ => none
      else none
  | _ => none

def publishPlantEvents (h : Hub δ β) : List (Event δ) → Hub δ β
  | [] => h
  | first :: rest =>
    match h.sole first rest with
    | some id =>
      h.setAttachment id ((h.attachments id).push first.stream (.batch first rest))
    | none => (first :: rest).foldl publishPlantEvent h

end Hub

/-- Two attachments with the same content, however their records are grouped. -/
structure Alike (d d' : Delivery δ β) : Prop where
  capacity : d.capacity = d'.capacity
  queues : ∀ stream, (d.queues stream).backlog = (d'.queues stream).backlog
  barriers : d.barriers = d'.barriers
  sequence : d.sequence = d'.sequence
  nativeStarted : d.nativeStarted = d'.nativeStarted
  closed : d.closed = d'.closed
  transport : d.transport = d'.transport

/-- Two hubs with the same topics, the same frames sent to receivers, and attachments of the same
content. -/
structure Hub.Alike (h h' : Hub δ β) : Prop where
  net : h.net = h'.net
  nativeSessions : h.nativeSessions = h'.nativeSessions
  encoder : h.encoder = h'.encoder
  channels : h.channels = h'.channels
  attachments : ∀ id, Batches.Alike (h.attachments id) (h'.attachments id)

/-! ### One attachment -/

/-- Events on one stream, one by one. -/
def pushEach (stream : Stream) (d : Delivery δ β) (events : List (Event δ)) : Delivery δ β :=
  events.foldl (fun d event => d.push stream (.batch event [])) d

theorem Alike.refl (d : Delivery δ β) : Alike d d := ⟨rfl, fun _ => rfl, rfl, rfl, rfl, rfl, rfl⟩

section Push

variable {d d' : Delivery δ β} {stream : Stream}

theorem push_of_closed (record : Record δ β) (h : d.closed = true) : d.push stream record = d := by
  unfold Delivery.push
  rw [if_pos h]

@[simp] theorem closed_push (record : Record δ β) : (d.push stream record).closed = d.closed := by
  unfold Delivery.push Delivery.setQueue
  split <;> rfl

@[simp] theorem transport_push (record : Record δ β) :
    (d.push stream record).transport = d.transport := by
  unfold Delivery.push Delivery.setQueue
  split <;> rfl

/-- What a push does to an open attachment. -/
theorem backlog_push (record : Record δ β) (h : d.closed = false) (s : Stream) :
    ((d.push stream record).queues s).backlog =
      if s = stream then
        (d.queues s).backlog.push Loss.add d.capacity (numbered (d.sequence + 1) record.taken)
      else (d.queues s).backlog := by
  unfold Delivery.push Delivery.setQueue
  rw [h]
  by_cases hs : s = stream
  · subst hs
    rw [if_pos rfl, ← Queue.backlog_push]
    simp
  · rw [if_neg hs]
    simp [Function.update_of_ne hs]

/-- One event and then a batch are the batch with the event in front. -/
theorem alike_push_cons (first event : Event δ) (rest : List (Event δ)) :
    Alike (d.push stream (.batch first (event :: rest)))
      ((d.push stream (.batch first [])).push stream (.batch event rest)) := by
  by_cases hclosed : d.closed = true
  · rw [push_of_closed _ hclosed, push_of_closed _ hclosed, push_of_closed _ hclosed]
    exact .refl d
  · have hopen : d.closed = false := by simpa using hclosed
    have hopen' : (d.push stream (.batch first [] : Record δ β)).closed = false := by
      rw [closed_push, hopen]
    have hfields : ∀ record : Record δ β, (d.push stream record).capacity = d.capacity ∧
        (d.push stream record).sequence = d.sequence + record.len := by
      intro record
      simp [Delivery.push, Delivery.setQueue, hopen]
    refine ⟨?_, ?_, ?_, ?_, ?_, by simp, by simp⟩
    · simp [Delivery.push, Delivery.setQueue, hopen]
    · intro s
      rw [backlog_push _ hopen, backlog_push _ hopen', backlog_push _ hopen]
      split
      · rw [(hfields _).1, (hfields _).2, Backlog.push_push]
        rfl
      · rfl
    · simp [Delivery.push, Delivery.setQueue, hopen]
    · simp [Delivery.push, Delivery.setQueue, hopen, Record.len]
      omega
    · simp [Delivery.push, Delivery.setQueue, hopen]

theorem Alike.trans {d'' : Delivery δ β} (h : Alike d d') (h' : Alike d' d'') : Alike d d'' where
  capacity := h.capacity.trans h'.capacity
  queues s := (h.queues s).trans (h'.queues s)
  barriers := h.barriers.trans h'.barriers
  sequence := h.sequence.trans h'.sequence
  nativeStarted := h.nativeStarted.trans h'.nativeStarted
  closed := h.closed.trans h'.closed
  transport := h.transport.trans h'.transport

/-- A batch leaves what its events leave one by one: the queue drops the same events, wherever in the
batch the bound is reached. -/
theorem alike_pushEach (first : Event δ) (rest : List (Event δ)) :
    Alike (d.push stream (.batch first rest)) (pushEach stream d (first :: rest)) := by
  induction rest generalizing d first with
  | nil => exact .refl _
  | cons event rest ih => exact (alike_push_cons first event rest).trans (ih event)

end Push

/-! ### The hub -/

namespace Hub

variable {h : Hub δ β} {key : SubKey} {kind : Kind} {st : SubState} {only : Nat × DeliveryTopic}

theorem Alike.refl (h : Hub δ β) : h.Alike h := ⟨rfl, rfl, rfl, rfl, fun _ => .refl _⟩

/-- A market-data route decides the stream. -/
theorem stream_of_topic {event : Event δ} (hroute : routeOf event.plant = .topic key kind) :
    event.stream = if kind = .bars then .history else .ticker := by
  cases event <;> simp [Event.plant, routeOf] at hroute <;> obtain ⟨-, rfl⟩ := hroute <;> rfl

/-- What the events of the sole holder's topic do, published one by one. -/
theorem foldl_publishPlantEvent (hst : h.net.subs.get? key = some st)
    (hzero : h.receiverCount key = 0) (honly : h.wanted st kind = [only]) {d : Delivery δ β}
    (hnative : d.transport = false) {events : List (Event δ)}
    (hroutes : ∀ event ∈ events, routeOf event.plant = .topic key kind) :
    events.foldl publishPlantEvent (h.setAttachment only.1 d) = h.setAttachment only.1
      (pushEach (if kind = .bars then .history else .ticker) d events) := by
  induction events generalizing d with
  | nil => rfl
  | cons event events ih =>
    have hroute := hroutes event List.mem_cons_self
    have hsame : ((h.setAttachment only.1 d).attachments only.1) = d := by
      simp [setAttachment]
    have hstep : (h.setAttachment only.1 d).publishPlantEvent event = h.setAttachment only.1
        (d.push (if kind = .bars then .history else .ticker) (.batch event [])) := by
      have hwanted : (h.setAttachment only.1 d).wanted st kind = [only] := honly
      have hcount : (h.setAttachment only.1 d).receiverCount key = 0 := hzero
      have hget : (h.setAttachment only.1 d).net.subs.get? key = some st := hst
      simp only [publishPlantEvent, hroute, eventAt, hget, Hub.event, hcount, if_true, hwanted,
        hsame, hnative, Bool.false_eq_true, if_false, stream_of_topic hroute]
      simp [setAttachment]
    rw [List.foldl_cons, hstep, ih (by simpa using hnative)
      fun e he => hroutes e (List.mem_cons_of_mem event he)]
    rfl

/-- When a batch goes to a sole holder. -/
theorem sole_eq_some {first : Event δ} {rest : List (Event δ)} {id : Nat}
    (hsole : h.sole first rest = some id) : ∃ key kind st only,
      h.net.subs.get? key = some st ∧ h.receiverCount key = 0 ∧ h.wanted st kind = [only] ∧
      only.1 = id ∧ (h.attachments id).transport = false ∧
      ∀ event ∈ first :: rest, routeOf event.plant = .topic key kind := by
  unfold sole at hsole
  split at hsole
  · next key kind hroute =>
    obtain ⟨st, hst, hrest⟩ := Option.bind_eq_some_iff.mp hsole
    split at hrest
    · next hzero =>
      split at hrest
      · next only honly =>
        split at hrest
        · next hall =>
          cases hrest
          rw [Bool.and_eq_true, List.all_eq_true] at hall
          obtain ⟨hnative, hall⟩ := hall
          refine ⟨key, kind, st, only, hst, hzero, honly, rfl, by simpa using hnative, ?_⟩
          intro event he
          rw [of_decide_eq_true (hall event he), hroute]
        · cases hrest
      · cases hrest
    · cases hrest
  · cases hsole

/-- A batch that is published at once leaves every attachment and every receiver with what its events
leave one by one. -/
theorem publishPlantEvents_alike (h : Hub δ β) (events : List (Event δ)) :
    (h.publishPlantEvents events).Alike (events.foldl publishPlantEvent h) := by
  cases events with
  | nil => exact .refl h
  | cons first rest =>
    simp only [publishPlantEvents]
    cases hsole : h.sole first rest with
    | none => exact .refl _
    | some id =>
      obtain ⟨key, kind, st, only, hst, hzero, honly, rfl, hnative, hroutes⟩ := sole_eq_some hsole
      have heach := foldl_publishPlantEvent hst hzero honly hnative hroutes
      have hself : h.setAttachment only.1 (h.attachments only.1) = h := by
        simp [setAttachment]
      rw [hself] at heach
      rw [heach, stream_of_topic (hroutes first List.mem_cons_self)]
      refine ⟨rfl, rfl, rfl, rfl, fun id => ?_⟩
      by_cases hid : id = only.1
      · subst hid
        simp only [setAttachment, Function.update_self]
        exact alike_pushEach first rest
      · simp only [setAttachment, Function.update_of_ne hid]
        exact .refl _

end Hub

end RithmicNt.Host.Batches
