import RithmicNt.Gateway.Failures
import RithmicNt.Host.StreamRuns
import RithmicNt.Lib.Broadcast

/-! The forwarders of one plant.  Each attachment of the plant's lane has a task that takes messages
from the plant's broadcast channel and queues what they convert to, while the consumer of the lane
takes from the other end.  An operation of the lane is one step, as in its own runs. -/

namespace RithmicNt.Plants.Forward

open RithmicNt.Lib RithmicNt.Lib.Broadcast RithmicNt.Host.Streams RithmicNt.Gateway.Failures

/-- What is read of an error of the venue library. -/
structure RithmicError where
  forcedLogout : Bool
  connectionIssue : Bool
  text : String

structure Response (μ : Type) where
  error : Option RithmicError
  message : μ

def connectionFailure (e : RithmicError) : Option Error :=
  if e.forcedLogout then some (.transport e.text)
  else if e.connectionIssue then some (.rithmic e.text)
  else none

def mapConnectionResponse {μ α : Type} (plantEvent : Response μ → PlantEvent α)
    (resp : Response μ) : Except Error (Option (PlantEvent α)) :=
  match resp.error.bind connectionFailure with
  | some failure => .error failure
  | none => .ok (some (plantEvent resp))

/-- A conversion gives nothing where it panics.  An item that a subscription's filter passes over is one
without an event. -/
abbrev Conversion (ι α : Type) := ι → Option (Except Error (Option (PlantEvent α)))

def panicText (plant : String) : String :=
  plant ++ " event conversion panicked; plant stream stopped"

/-- Where the task is: `sending` waits for room in the lane, and `closing` has recorded a panic.  An
aborted task may have had a message in hand. -/
inductive Forwarder (α : Type)
  | receiving
  | sending (msg : Msg α)
  | closing
  | stopped
  | aborted (msg : Option (Msg α))

def Forwarder.hand {α : Type} : Forwarder α → List (Msg α)
  | .sending msg => [msg]
  | .aborted msg => msg.toList
  | _ => []

/-- The lane's traffic, and for each attachment the receiver of the plant's channel, the task that
reads it, and whether its guard is dropped. -/
structure State (ι α : Type) where
  traffic : Traffic α := {}
  feed : Nat → Receiver ι := fun _ => {}
  task : Nat → Forwarder α := fun _ => .receiving
  dropped : Nat → Bool := fun _ => false

/-- A step of the consumer. -/
def consumes {α : Type} : Host.Streams.Event α → Bool
  | .take .. | .recv _ | .notified _ | .timeout | .cancel => true
  | _ => false

inductive Act (ι α : Type)
  | attach
  /-- The plant of an attachment broadcasts. -/
  | push (generation : Nat) (item : ι)
  | hangUp (generation : Nat)
  | run (generation : Nat)
  /-- The guard is dropped: the task is to be aborted, and the lane is detached. -/
  | drop (generation : Nat)
  | detach (generation : Nat)
  | abort (generation : Nat)
  | consume (a : Host.Streams.Event α)

namespace State

variable {ι α : Type} (cap : Nat) (plant : String) (conv : Conversion ι α)

def setTask (s : State ι α) (g : Nat) (task : Forwarder α) : State ι α :=
  { s with task := Function.update s.task g task }

def setFeed (s : State ι α) (g : Nat) (feed : Receiver ι) : State ι α :=
  { s with feed := Function.update s.feed g feed }

def fail (s : State ι α) (g : Nat) (failure : Failure) : State ι α :=
  { s with traffic := s.traffic.setLane (s.traffic.lane.record g failure) }

def close (s : State ι α) (g : Nat) : State ι α :=
  { s with traffic := s.traffic.setLane (s.traffic.lane.closeTx g) }

/-- What the task of attachment `g` does with a message of the plant. -/
def handle (s : State ι α) (g : Nat) : Option (Except Error (Option (PlantEvent α))) → State ι α
  | some (.ok (some event)) => s.setTask g (.sending (msgOf event))
  | some (.ok none) => s
  | some (.error (.rithmic text)) => s.fail g (.rithmic text)
  | some (.error (.transport text)) => s.fail g (.transport text)
  | some (.error other) => s.fail g (.rithmic other.text)
  | none => (s.fail g (.rithmic (panicText plant))).setTask g .closing

/-- The task of attachment `g` goes on to its next await. -/
def forward (s : State ι α) (g : Nat) : Option (State ι α) :=
  match s.task g with
  | .receiving =>
    ((s.feed g).recv cap).map fun (answer, feed) =>
      match answer with
      | .ok item => (s.setFeed g feed).handle plant g (conv item)
      | .error (.lagged skipped) => (s.setFeed g feed).setTask g (.sending (.gap skipped))
      | .error .closed => (s.close g).setTask g .stopped
  | .sending msg =>
    (s.traffic.send g msg).map fun traffic => { s with traffic }.setTask g .receiving
  | .closing => some ((s.close g).setTask g .stopped)
  | .stopped | .aborted _ => none

/-- Where the task waits it can be aborted. -/
def cancel (s : State ι α) (g : Nat) : Option (State ι α) :=
  match s.task g with
  | .receiving => some (s.setTask g (.aborted none))
  | .sending msg => some (s.setTask g (.aborted (some msg)))
  | _ => none

def step (s : State ι α) : Act ι α → Option (State ι α)
  | .attach =>
    let g := s.traffic.lane.generation + 1
    (s.traffic.step .attach).map fun traffic =>
      ({ s with traffic, dropped := Function.update s.dropped g false }.setFeed g {}).setTask g
        .receiving
  | .push g item =>
    if g ∈ s.traffic.txs ∧ (s.feed g).closed = false then
      some (s.setFeed g ((s.feed g).send item))
    else none
  | .hangUp g => if g ∈ s.traffic.txs then some (s.setFeed g (s.feed g).close) else none
  | .run g => if g ∈ s.traffic.txs then s.forward cap plant conv g else none
  | .drop g =>
    if g ∈ s.traffic.txs then some { s with dropped := Function.update s.dropped g true } else none
  | .detach g =>
    if s.dropped g then (s.traffic.step (.detach g)).map fun traffic => { s with traffic } else none
  | .abort g => if s.dropped g then s.cancel g else none
  | .consume a =>
    if consumes a then (s.traffic.step a).map fun traffic => { s with traffic } else none

end State

def machine {ι α : Type} (cap : Nat) (plant : String) (conv : Conversion ι α) :
    Machine (State ι α) (Act ι α) where
  Start s := s = {}
  step := State.step cap plant conv

/-! ### What a lane is sent -/

section Accounts

variable {ι α : Type}

/-- The messages of a conversion: none but that of an event. -/
def msgsOf : Option (Except Error (Option (PlantEvent α))) → List (Msg α)
  | some (.ok (some event)) => [msgOf event]
  | _ => []

/-- What a conversion without an event is recorded as. -/
def failureOf (plant : String) : Option (Except Error (Option (PlantEvent α))) → Option Failure
  | some (.ok _) => none
  | some (.error (.rithmic text)) => some (.rithmic text)
  | some (.error (.transport text)) => some (.transport text)
  | some (.error other) => some (.rithmic other.text)
  | none => some (.rithmic (panicText plant))

/-- The messages tell in order what became of the items: each was converted, or is one of those that a
gap counts. -/
inductive Accounts (conv : Conversion ι α) : List ι → List (Msg α) → Prop
  | nil : Accounts conv [] []
  | item {items : List ι} {msgs : List (Msg α)} (item : ι) : Accounts conv items msgs →
      Accounts conv (items ++ [item]) (msgs ++ msgsOf (conv item))
  | lagged {items lost : List ι} {msgs : List (Msg α)} : lost ≠ [] → Accounts conv items msgs →
      Accounts conv (items ++ lost) (msgs ++ [Msg.gap lost.length])

/-- The events that items convert to. -/
def eventsIn (conv : Conversion ι α) (items : List ι) : List (Msg α) :=
  (items.flatMap fun item => msgsOf (conv item)).filter Msg.isEvent

theorem Accounts.events {conv : Conversion ι α} {items : List ι} {msgs : List (Msg α)}
    (h : Accounts conv items msgs) : (msgs.filter Msg.isEvent).Sublist (eventsIn conv items) := by
  induction h with
  | nil => exact .slnil
  | item item _ ih =>
    have hitem : (msgsOf (conv item)).filter Msg.isEvent = eventsIn conv [item] := by
      simp [eventsIn]
    have hsplit : ∀ items, eventsIn conv (items ++ [item]) =
        eventsIn conv items ++ eventsIn conv [item] := by
      intro items
      simp [eventsIn]
    rw [List.filter_append, hitem, hsplit]
    exact ih.append_right _
  | @lagged items lost msgs _ _ ih =>
    have hsplit : eventsIn conv (items ++ lost) = eventsIn conv items ++ eventsIn conv lost := by
      simp [eventsIn]
    have hgap : (msgs ++ [Msg.gap lost.length]).filter Msg.isEvent = msgs.filter Msg.isEvent := by
      simp [Msg.isEvent]
    rw [hgap, hsplit]
    exact ih.trans (List.sublist_append_left _ _)

/-- The last item is one whose conversion panics. -/
def Panicked (conv : Conversion ι α) (items : List ι) : Prop :=
  ∃ item, items.getLast? = some item ∧ conv item = none

/-- What holds of one attachment that sent `sent`: a task that has stopped has read its channel to the
end, or met a panic. -/
structure Attached (conv : Conversion ι α) (sent : List (Msg α)) (feed : Receiver ι)
    (task : Forwarder α) (dropped : Bool) : Prop where
  sound : feed.Sound
  account : Accounts conv feed.behind (sent ++ task.hand)
  stopped : task = .stopped →
    feed.closed = true ∧ feed.behind = feed.sent ∨ Panicked conv feed.behind
  closing : task = .closing → Panicked conv feed.behind
  aborted : ∀ msg, task = .aborted msg → dropped = true

variable {conv : Conversion ι α} {sent : List (Msg α)} {feed feed' : Receiver ι} {task : Forwarder α}
  {dropped : Bool} {cap : Nat}

theorem attached_fresh : Attached conv [] {} .receiving false :=
  ⟨Nat.le_refl 0, .nil, by simp, by simp, by simp⟩

namespace Attached

theorem push (h : Attached conv sent feed task dropped) (hopen : feed.closed = false) (item : ι) :
    Attached conv sent (feed.send item) task dropped := by
  have hbehind := Receiver.behind_send h.sound item
  refine ⟨h.sound.send item, ?_, ?_, ?_, h.aborted⟩
  · rw [hbehind]
    exact h.account
  · intro hstopped
    rw [hbehind]
    rcases h.stopped hstopped with ⟨hclosed, -⟩ | hpanic
    · rw [hopen] at hclosed
      cases hclosed
    · exact .inr hpanic
  · rw [hbehind]
    exact h.closing

theorem hangUp (h : Attached conv sent feed task dropped) :
    Attached conv sent feed.close task dropped := by
  refine ⟨h.sound, h.account, ?_, h.closing, h.aborted⟩
  intro hstopped
  exact (h.stopped hstopped).imp_left fun hall => ⟨rfl, hall.2⟩

theorem drop (h : Attached conv sent feed task dropped) : Attached conv sent feed task true :=
  ⟨h.sound, h.account, h.stopped, h.closing, fun _ _ => rfl⟩

/-- An abort keeps what the task has in hand. -/
theorem abort (h : Attached conv sent feed task true) {msg : Option (Msg α)}
    (hhand : msg.toList = task.hand) : Attached conv sent feed (.aborted msg) true := by
  refine ⟨h.sound, ?_, by simp, by simp, fun _ _ => rfl⟩
  change Accounts conv feed.behind (sent ++ msg.toList)
  rw [hhand]
  exact h.account

/-- The task reads an item, and goes on with the message of its event. -/
theorem read (h : Attached conv sent feed .receiving dropped) {item : ι}
    (hrecv : feed.recv cap = some (.ok item, feed'))
    (hhand : task.hand = msgsOf (conv item)) (hgoes : task = .receiving ∨ ∃ msg, task = .sending msg) :
    Attached conv sent feed' task dropped := by
  obtain ⟨hbehind, -, -, hsound⟩ := Receiver.recv_ok hrecv
  have haccount : Accounts conv feed.behind sent := by simpa [Forwarder.hand] using h.account
  refine ⟨hsound, ?_, ?_, ?_, ?_⟩
  · rw [hbehind, hhand]
    exact .item item haccount
  · rcases hgoes with rfl | ⟨msg, rfl⟩ <;> simp
  · rcases hgoes with rfl | ⟨msg, rfl⟩ <;> simp
  · rcases hgoes with rfl | ⟨msg, rfl⟩ <;> simp

theorem lag (h : Attached conv sent feed .receiving dropped) {skipped : Nat}
    (hrecv : feed.recv cap = some (.error (.lagged skipped), feed')) :
    Attached conv sent feed' (.sending (.gap skipped)) dropped := by
  obtain ⟨⟨lost, hlength, hlost, hbehind⟩, -, -, hsound⟩ := Receiver.recv_lagged hrecv
  have haccount : Accounts conv feed.behind sent := by simpa [Forwarder.hand] using h.account
  refine ⟨hsound, ?_, by simp, by simp, by simp⟩
  rw [hbehind, ← hlength]
  exact .lagged hlost haccount

theorem sends {msg : Msg α} (h : Attached conv sent feed (.sending msg) dropped) :
    Attached conv (sent ++ [msg]) feed .receiving dropped := by
  refine ⟨h.sound, ?_, by simp, by simp, by simp⟩
  simpa [Forwarder.hand] using h.account

theorem panics (h : Attached conv sent feed .receiving dropped) (hpanic : Panicked conv feed.behind) :
    Attached conv sent feed .closing dropped :=
  ⟨h.sound, h.account, by simp, fun _ => hpanic, by simp⟩

theorem stops (h : Attached conv sent feed task dropped) (hhand : task.hand = [])
    (hend : feed.closed = true ∧ feed.behind = feed.sent ∨ Panicked conv feed.behind) :
    Attached conv sent feed .stopped dropped := by
  refine ⟨h.sound, ?_, fun _ => hend, by simp, by simp⟩
  have haccount := h.account
  rw [hhand] at haccount
  exact haccount

end Attached

end Accounts

end RithmicNt.Plants.Forward
