import Mathlib.Data.Finset.Basic
import RithmicNt.Host.Gates
import RithmicNt.Lib.Pool

/-! Order commands beside the interruptions and rebuilds of the host.  A step is one statement that
reads or writes what another task may write or read (the subscription to the interruption watch, the
check that the host is ready, each store of an interruption), or one of the two polls of the command's
select: of the interruption watch, and then of the venue's future. -/

namespace RithmicNt.Host.Commands

open RithmicNt.Lib

inductive Command
  | placeOrder
  | placeBracketOrder
  | adjustBracketStop
  | adjustBracketTarget
  | cancelOrder
  | modifyOrder
  | cancelAllOrders
  deriving DecidableEq

def Command.method : Command → Method
  | .placeOrder => .placeOrder
  | .placeBracketOrder => .placeBracketOrder
  | .adjustBracketStop => .adjustBracketStop
  | .adjustBracketTarget => .adjustBracketTarget
  | .cancelOrder => .cancelOrder
  | .modifyOrder => .modifyOrder
  | .cancelAllOrders => .cancelAllOrders

structure SessionState where
  detached : Bool := false
  disconnecting : Nat := 0
  orderClosed : Bool := false
  deriving DecidableEq

/-- A poll of a venue's command future: what the command saw of the interruption watch and of the host
when it subscribed, what the same select saw of the watch, and what is so at the poll.  `result`: what
the future is ready with. -/
structure Poll (ρ : Type) where
  command : Nat
  seen : Nat
  wasReady : Bool
  resumesThen : Nat
  watched : Nat
  signal : Nat
  resumes : Nat
  down : Bool
  rebuilding : Bool
  result : Option ρ

/-- `readers` and `writer` hold the venue's gate.  `resumes` counts the stores of `ready := true`;
`down`: an interruption was signalled, and the host has not been ready since; `polls` is a record. -/
structure State (ρ : Type) where
  venue : Bool := true
  ready : Bool := false
  recovering : Bool := false
  interruption : Nat := 0
  gates : Gates := {}
  sessions : Nat → SessionState := fun _ => {}
  readers : Finset Nat := ∅
  writer : Option Nat := none
  resumes : Nat := 0
  down : Bool := false
  polls : List (Poll ρ) := []

inductive Answer (ρ : Type)
  | refused (e : Error)
  | outcomeUnknown (message : String)
  | venue (result : ρ)

/-- Where a task is.  The pump has stored `recovering` in `marking`, `ready` in `unready`, and has
signalled in `interrupted`.  A select is about to poll the watch in `selecting`, and has found nothing
there in `watched`. -/
inductive Place (ρ : Type)
  | gateWait (session : Nat)
  | venueWait (session : Nat)
  | locked (session : Nat)
  | subscribed (session seen : Nat) (wasReady : Bool) (resumesThen : Nat)
  | selecting (seen : Nat) (wasReady : Bool) (resumesThen : Nat)
  | watched (seen : Nat) (wasReady : Bool) (resumesThen version : Nat)
  | answered (a : Answer ρ)
  | dropped
  | serving
  | marking
  | unready
  | interrupted
  | rebuilding
  | resuming
  | requesting
  | connectWait
  | connecting
  | closing
  | closingVenue
  | finished

inductive Call
  | command (session : Nat) (c : Command)
  | setSession (session : Nat) (c : SessionState)
  | openGates (trading cancelAll : Bool)
  | pump
  | requestReconnect
  | connect
  | shutdown

/-- `resume` and `giveUp`: a recovery has restored the intents, or has failed too often. -/
inductive Act (ρ : Type)
  | go
  | poll (result : Option ρ)
  | answer (ok : Bool)
  | resume
  | giveUp
  | drop

def disconnectInProgress : String := "session disconnect in progress; order operation rejected"

def orderPlantClosed : String :=
  "order plant was disconnected; ensure it (or subscribe to order updates) first"

def interruptedMsg : String := "venue interrupted during command; reconcile before acting"

namespace State

variable {ρ : Type}

def active (s : State ρ) (session : Nat) : Except Error Unit :=
  if (s.sessions session).detached then .error (.notSent "session detached")
  else if s.ready then .ok ()
  else .error (.notSent "gateway not ready (plants reconnecting); request not sent")

def notDisconnecting (s : State ρ) (session : Nat) : Except Error Unit :=
  if (s.sessions session).disconnecting ≠ 0 then .error (.notSent disconnectInProgress) else .ok ()

/-- `command_guard` before it waits for the order gate, and with it. -/
def guard (s : State ρ) (session : Nat) (c : Command) : Except Error Unit := do
  s.active session
  requireGate s.gates c.method
  s.notDisconnecting session

def guarded (s : State ρ) (session : Nat) : Except Error Unit := do
  s.active session
  s.notDisconnecting session
  if (s.sessions session).orderClosed then .error (.notSent orderPlantClosed)
  if s.venue then .ok () else .error noVenue

def release (s : State ρ) (i : Nat) : State ρ :=
  { s with
    readers := s.readers.erase i
    writer := if s.writer = some i then none else s.writer }

/-- The task ends, or leaves the venue to go on at `p`. -/
def leave (s : State ρ) (i : Nat) (p : Place ρ) : State ρ × Place ρ := (s.release i, p)

def becomeReady (s : State ρ) : State ρ :=
  { s with ready := true, resumes := s.resumes + 1, down := false }

/-- The biased select polls the interruption watch first. -/
def watch (s : State ρ) (i seen : Nat) (wasReady : Bool) (resumesThen : Nat) : State ρ × Place ρ :=
  if s.interruption ≠ seen then s.leave i (.answered (.outcomeUnknown interruptedMsg))
  else (s, .watched seen wasReady resumesThen s.interruption)

/-- Then it polls the venue's future. -/
def pollVenue (s : State ρ) (i seen : Nat) (wasReady : Bool) (resumesThen version : Nat)
    (result : Option ρ) : State ρ × Place ρ :=
  let poll : Poll ρ := ⟨i, seen, wasReady, resumesThen, version, s.interruption, s.resumes, s.down,
    s.writer.isSome, result⟩
  let s := { s with polls := s.polls ++ [poll] }
  match result with
  | some r => s.leave i (.answered (.venue r))
  | none => (s, .selecting seen wasReady resumesThen)

/-- The venue's gate is taken alone. -/
def alone (s : State ρ) (i : Nat) (p : Place ρ) : Option (State ρ × Place ρ) :=
  if s.writer = none ∧ s.readers = ∅ then some ({ s with writer := some i }, p) else none

def spawn (_ : Nat) (s : State ρ) : Call → Option (State ρ × Place ρ)
  | .command session c =>
    match s.guard session c with
    | .error e => some (s, .answered (.refused e))
    | .ok () => some (s, .gateWait session)
  | .setSession session c =>
    some ({ s with sessions := Function.update s.sessions session c }, .finished)
  | .openGates trading cancelAll =>
    some ({ s with gates := s.gates.open trading cancelAll }, .finished)
  | .pump => some (s, .serving)
  | .requestReconnect => some ({ s with recovering := true }, .requesting)
  | .connect => some (s, .connectWait)
  | .shutdown => some ({ s with ready := false }, .closing)

def run (i : Nat) (s : State ρ) : Place ρ → Act ρ → Option (State ρ × Place ρ)
  | .gateWait session, .go =>
    match s.guarded session with
    | .error e => some (s, .answered (.refused e))
    | .ok () => some (s, .venueWait session)
  | .venueWait session, .go =>
    if s.writer = none then some ({ s with readers := insert i s.readers }, .locked session)
    else none
  | .locked session, .go => some (s, .subscribed session s.interruption s.ready s.resumes)
  | .subscribed session seen wasReady resumesThen, .go =>
    match s.active session with
    | .error e => some (s.leave i (.answered (.refused e)))
    | .ok () => some (s, .selecting seen wasReady resumesThen)
  | .selecting seen wasReady resumesThen, .go => some (s.watch i seen wasReady resumesThen)
  | .watched seen wasReady resumesThen version, .poll result =>
    some (s.pollVenue i seen wasReady resumesThen version result)
  | .gateWait _, .drop | .venueWait _, .drop | .selecting _ _ _, .drop => some (s.leave i .dropped)
  -- the stores of `interrupt`
  | .serving, .go => some ({ s with recovering := true }, .marking)
  | .marking, .go => some ({ s with ready := false }, .unready)
  | .unready, .go =>
    some ({ s with interruption := s.interruption + 1, down := !s.ready }, .interrupted)
  -- a rebuild or a restore pass
  | .interrupted, .go => s.alone i .rebuilding
  | .rebuilding, .answer _ => some (s.leave i .interrupted)
  | .interrupted, .resume => some ({ s with recovering := false }, .resuming)
  | .resuming, .go => some (s.becomeReady, .serving)
  | .interrupted, .giveUp => some ({ s with recovering := false }, .finished)
  | .requesting, .go => some ({ s with ready := false }, .finished)
  | .connectWait, .go =>
    if s.writer ≠ none ∨ s.readers ≠ ∅ then none
    else if s.recovering then some (s, .connectWait)
    else if s.ready then some (s, .finished)
    else some ({ s with writer := some i }, .connecting)
  | .connecting, .answer true => some (s.becomeReady.leave i .finished)
  | .connecting, .answer false => some (s.leave i .finished)
  | .closing, .go => s.alone i .closingVenue
  | .closingVenue, .answer _ => some (s.leave i .finished)
  -- the pump is aborted, or the caller of `connect` or `shutdown` goes away
  | .serving, .drop | .interrupted, .drop | .rebuilding, .drop | .connectWait, .drop
  | .connecting, .drop | .closing, .drop | .closingVenue, .drop => some (s.leave i .finished)
  | _, _ => none

def code : Program (State ρ) (Place ρ) Call (Act ρ) where
  spawn := spawn
  run := run

end State

/-- Any gates open, any sessions attached, connected or not. -/
def machine (ρ : Type) : Machine (Pool (State ρ) (Place ρ)) (Move Call (Act ρ)) :=
  State.code.machine fun s =>
    s.readers = ∅ ∧ s.writer = none ∧ s.down = false ∧ s.polls = []

variable {ρ : Type}

/-- The poll comes before the signal that the command subscribed to, and no interruption stands
signalled that the host has not resumed from. -/
def Poll.Unfired (p : Poll ρ) : Prop := p.signal = p.seen ∧ p.down = false

/-- The host was ready when the command subscribed, or has become ready since; the plants are not being
rebuilt; the same select has found no signal at the watch; and if none has fired since then, the host is
not down. -/
structure Poll.Timely (p : Poll ρ) : Prop where
  ready : p.wasReady = true ∨ p.resumesThen < p.resumes
  notRebuilding : p.rebuilding = false
  watched : p.watched = p.seen
  unfired : p.signal = p.watched → p.Unfired

/-- A command that the host has refused was never polled, one that was polled is answered by the
venue or as unknown, every poll was timely, and none but the last poll of a command comes after its
signal. -/
structure Safe (P : Pool (State ρ) (Place ρ)) : Prop where
  refused : ∀ i e, P.At i (.answered (.refused e)) → ∀ p ∈ P.shared.polls, p.command ≠ i
  answered : ∀ i a, P.At i (.answered a) → (∃ p ∈ P.shared.polls, p.command = i) →
    (∃ m, a = .outcomeUnknown m) ∨
      ∃ r, a = .venue r ∧ ∃ p ∈ P.shared.polls, p.command = i ∧ p.result = some r
  timely : ∀ p ∈ P.shared.polls, p.Timely
  last : P.shared.polls.Pairwise fun p q => p.command = q.command → p.Unfired

structure State.Sound (s : State ρ) : Prop where
  exclusive : s.writer ≠ none → s.readers = ∅
  down : s.down = true → s.ready = false
  timely : ∀ p ∈ s.polls, p.Timely
  last : s.polls.Pairwise fun p q => p.command = q.command → p.Unfired

/-- The command has not been polled. -/
def State.Fresh (s : State ρ) (i : Nat) : Prop := ∀ p ∈ s.polls, p.command ≠ i

/-- The polls of the command belong to its subscription, and their signals have fired by now. -/
def State.Subscribed (s : State ρ) (i seen : Nat) : Prop :=
  ∀ p ∈ s.polls, p.command = i → p.seen = seen ∧ seen ≤ p.signal ∧ p.signal ≤ s.interruption

/-- What a command knows at its place. -/
def Knows (i : Nat) (p : Place ρ) (s : State ρ) : Prop :=
  match p with
  | .gateWait _ | .venueWait _ | .answered (.refused _) => s.Fresh i
  | .locked _ => s.Fresh i ∧ i ∈ s.readers
  | .subscribed _ seen wasReady resumesThen =>
    s.Fresh i ∧ i ∈ s.readers ∧ seen ≤ s.interruption ∧ resumesThen ≤ s.resumes ∧
      (s.ready = true → wasReady = true ∨ resumesThen < s.resumes)
  | .selecting seen wasReady resumesThen =>
    i ∈ s.readers ∧ seen ≤ s.interruption ∧ (wasReady = true ∨ resumesThen < s.resumes) ∧
      (s.interruption = seen → s.down = false) ∧ s.Subscribed i seen
  | .watched seen wasReady resumesThen version =>
    i ∈ s.readers ∧ seen ≤ s.interruption ∧ (wasReady = true ∨ resumesThen < s.resumes) ∧
      (s.interruption = seen → s.down = false) ∧ s.Subscribed i seen ∧ version = seen ∧
      ∀ p ∈ s.polls, p.command = i → p.Unfired
  | .answered (.venue r) => ∃ p ∈ s.polls, p.command = i ∧ p.result = some r
  | _ => True

/-- What a step of another task leaves of what command `j` knows: an interruption is a new signal, and
readiness returns with a new resume. -/
structure Spares (j : Nat) (s t : State ρ) : Prop where
  polls : s.polls.filter (·.command = j) = t.polls.filter (·.command = j)
  readers : j ∈ s.readers → j ∈ t.readers
  interruption : s.interruption ≤ t.interruption
  resumes : s.resumes ≤ t.resumes
  ready : t.ready = true → s.ready = true ∨ s.resumes < t.resumes
  down : t.down = true → s.down = true ∨ s.interruption < t.interruption

/-- A step of task `i` to `r`. -/
structure Works (i : Nat) (s : State ρ) (r : State ρ × Place ρ) : Prop where
  sound : r.1.Sound
  knows : Knows i r.2 r.1
  spares : ∀ j, j ≠ i → Spares j s r.1

variable {i j : Nat} {s t u : State ρ} {p q : Place ρ}

theorem Spares.refl : Spares j s s := ⟨rfl, id, Nat.le_refl _, Nat.le_refl _, .inl, .inl⟩

theorem Spares.trans (h : Spares j s t) (h' : Spares j t u) : Spares j s u := by
  refine ⟨h.polls.trans h'.polls, fun hj => h'.readers (h.readers hj),
    h.interruption.trans h'.interruption, h.resumes.trans h'.resumes, ?_, ?_⟩
  · intro hu
    have hresumes := h.resumes
    have hresumes' := h'.resumes
    rcases h'.ready hu with ht | hlt
    · rcases h.ready ht with hs | hlt
      · exact .inl hs
      · exact .inr (by omega)
    · exact .inr (by omega)
  · intro hu
    have hinterruption := h.interruption
    have hinterruption' := h'.interruption
    rcases h'.down hu with ht | hlt
    · rcases h.down ht with hs | hlt
      · exact .inl hs
      · exact .inr (by omega)
    · exact .inr (by omega)

theorem mem_polls_iff (h : Spares j s t) {p : Poll ρ} (hp : p.command = j) :
    p ∈ s.polls ↔ p ∈ t.polls := by
  have := congrArg (p ∈ ·) h.polls
  simpa [hp] using this

theorem Spares.fresh (h : Spares j s t) (hs : s.Fresh j) : t.Fresh j := by
  intro p hp hj
  exact hs p ((mem_polls_iff h hj).mpr hp) hj

theorem Spares.subscribed {seen : Nat} (h : Spares j s t) (hs : s.Subscribed j seen) :
    t.Subscribed j seen := by
  intro p hp hj
  obtain ⟨hseen, hle, hsignal⟩ := hs p ((mem_polls_iff h hj).mpr hp) hj
  exact ⟨hseen, hle, hsignal.trans h.interruption⟩

/-- A signal since the subscription is not the one that the command saw. -/
theorem Spares.notDown {seen : Nat} (h : Spares j s t) (hseen : seen ≤ s.interruption)
    (hdown : s.interruption = seen → s.down = false) : t.interruption = seen → t.down = false := by
  intro heq
  have hi := h.interruption
  by_contra hnot
  rcases h.down (by simpa using hnot) with hs | hlt
  · have := hdown (by omega)
    simp [hs] at this
  · omega

theorem Knows.stable (hk : Knows j q s) (h : Spares j s t) : Knows j q t := by
  unfold Knows at hk ⊢
  split at hk
  · exact h.fresh hk
  · exact h.fresh hk
  · exact h.fresh hk
  · exact ⟨h.fresh hk.1, h.readers hk.2⟩
  · obtain ⟨hfresh, hreaders, hseen, hresumes, hready⟩ := hk
    have hi := h.interruption
    have hr := h.resumes
    refine ⟨h.fresh hfresh, h.readers hreaders, by omega, by omega, ?_⟩
    intro ht
    rcases h.ready ht with hs | hlt
    · rcases hready hs with hwas | hlt
      · exact .inl hwas
      · exact .inr (by omega)
    · exact .inr (by omega)
  · obtain ⟨hreaders, hseen, hready, hdown, hsubscribed⟩ := hk
    have hr := h.resumes
    refine ⟨h.readers hreaders, hseen.trans h.interruption, ?_, h.notDown hseen hdown,
      h.subscribed hsubscribed⟩
    rcases hready with hwas | hlt
    · exact .inl hwas
    · exact .inr (by omega)
  · obtain ⟨hreaders, hseen, hready, hdown, hsubscribed, hversion, hunfired⟩ := hk
    have hr := h.resumes
    refine ⟨h.readers hreaders, hseen.trans h.interruption, ?_, h.notDown hseen hdown,
      h.subscribed hsubscribed, hversion, ?_⟩
    · rcases hready with hwas | hlt
      · exact .inl hwas
      · exact .inr (by omega)
    · intro p hp hj
      exact hunfired p ((mem_polls_iff h hj).mpr hp) hj
  · obtain ⟨p, hp, hcommand, hresult⟩ := hk
    exact ⟨p, (mem_polls_iff h hcommand).mp hp, hcommand, hresult⟩
  · trivial

theorem spares_release (hj : j ≠ i) : Spares j s (s.release i) := by
  refine ⟨rfl, ?_, Nat.le_refl _, Nat.le_refl _, .inl, .inl⟩
  intro h
  exact Finset.mem_erase.mpr ⟨hj, h⟩

theorem State.Sound.release (h : s.Sound) (i : Nat) : (s.release i).Sound := by
  refine ⟨?_, h.down, h.timely, h.last⟩
  intro hw
  have hw : s.writer ≠ none := by
    intro hn
    simp [State.release, hn] at hw
  show s.readers.erase i = ∅
  rw [h.exclusive hw, Finset.erase_empty]

theorem works_leave (h : s.Sound) (hk : ∀ t : State ρ, t.polls = s.polls → Knows i p t) :
    Works i s (s.leave i p) :=
  ⟨h.release i, hk _ rfl, fun _ hj => spares_release hj⟩

theorem works_alone {r : State ρ × Place ρ} (h : s.Sound) (hk : ∀ t : State ρ, Knows i p t)
    (hr : s.alone i p = some r) : Works i s r := by
  unfold State.alone at hr
  split at hr
  · next hfree =>
    cases hr
    exact ⟨⟨fun _ => hfree.2, h.down, h.timely, h.last⟩, hk _,
      fun _ _ => ⟨rfl, id, Nat.le_refl _, Nat.le_refl _, .inl, .inl⟩⟩
  · cases hr

theorem spares_becomeReady : Spares j s s.becomeReady := by
  refine ⟨rfl, id, Nat.le_refl _, Nat.le_succ _, fun _ => .inr (Nat.lt_succ_self _), ?_⟩
  intro h
  cases h

theorem State.Sound.becomeReady (h : s.Sound) : s.becomeReady.Sound := by
  refine ⟨h.exclusive, ?_, h.timely, h.last⟩
  intro hd
  cases hd

/-- The poll of the watch: where it finds no signal, none of the command's polls has come after one. -/
theorem works_watch {seen resumesThen : Nat} {wasReady : Bool} (h : s.Sound)
    (hk : Knows i (.selecting seen wasReady resumesThen) s) :
    Works i s (s.watch i seen wasReady resumesThen) := by
  obtain ⟨hreaders, hseen, hready, hdown, hsubscribed⟩ := hk
  unfold State.watch
  split
  · exact works_leave h fun _ _ => trivial
  · next hsignal =>
    have hsignal : s.interruption = seen := by simpa using hsignal
    refine ⟨h, ⟨hreaders, hseen, hready, hdown, hsubscribed, hsignal, ?_⟩, fun _ _ => .refl⟩
    intro p hp hi
    obtain ⟨hpseen, hle, hfired⟩ := hsubscribed p hp hi
    have htimely := h.timely p hp
    have hwatched := htimely.watched
    exact htimely.unfired (by omega)

/-- The poll of the venue's future, behind the watch. -/
theorem works_pollVenue {seen resumesThen version : Nat} {wasReady : Bool} {result : Option ρ}
    (h : s.Sound) (hk : Knows i (.watched seen wasReady resumesThen version) s) :
    Works i s (s.pollVenue i seen wasReady resumesThen version result) := by
  obtain ⟨hreaders, hseen, hready, hdown, hsubscribed, rfl, hunfired⟩ := hk
  have hwriter : s.writer = none := by
    by_contra hw
    simp [h.exclusive hw] at hreaders
  unfold State.pollVenue
  obtain ⟨poll, hdef⟩ : ∃ poll : Poll ρ, poll = Poll.mk i version wasReady resumesThen version
    s.interruption s.resumes s.down s.writer.isSome result := ⟨_, rfl⟩
  have hcommand : poll.command = i := by rw [hdef]
  have hpoll : poll.Timely := by
    rw [hdef]
    exact ⟨hready, by simp [hwriter], rfl, fun hsignal => ⟨hsignal, hdown hsignal⟩⟩
  have hsound : ({ s with polls := s.polls ++ [poll] } : State ρ).Sound := by
    refine ⟨h.exclusive, h.down, ?_, ?_⟩
    · intro p hp
      rcases List.mem_append.mp hp with hp | hp
      · exact h.timely p hp
      · rw [List.mem_singleton.mp hp]
        exact hpoll
    · refine List.pairwise_append.mpr ⟨h.last, List.pairwise_singleton .., ?_⟩
      intro p hp q hq hsame
      rw [List.mem_singleton.mp hq, hcommand] at hsame
      exact hunfired p hp hsame
  have hspares : ∀ j, j ≠ i → Spares j s ({ s with polls := s.polls ++ [poll] } : State ρ) := by
    intro j hj
    refine ⟨?_, id, Nat.le_refl _, Nat.le_refl _, .inl, .inl⟩
    simp [List.filter_append, hcommand, hj.symm]
  rw [← hdef]
  cases hresult : result with
  | none =>
    refine ⟨hsound, ⟨hreaders, hseen, hready, hdown, ?_⟩, hspares⟩
    intro p hp hi
    rcases List.mem_append.mp hp with hp | hp
    · exact hsubscribed p hp hi
    · rw [List.mem_singleton.mp hp, hdef]
      exact ⟨rfl, hseen, Nat.le_refl _⟩
  | some r =>
    refine ⟨hsound.release i, ?_, fun j hj => (hspares j hj).trans (spares_release hj)⟩
    refine ⟨poll, List.mem_append_right _ (List.mem_singleton_self _), hcommand, ?_⟩
    rw [hdef, hresult]

theorem ready_of_active {session : Nat} (h : s.active session = .ok ()) : s.ready = true := by
  unfold State.active at h
  split at h
  · cases h
  · split at h
    · next hready => exact hready
    · cases h

/-- A step that changes nothing that a command knows. -/
theorem spares_of_eq (hpolls : t.polls = s.polls) (hreaders : t.readers = s.readers)
    (hinterruption : t.interruption = s.interruption) (hresumes : t.resumes = s.resumes)
    (hready : t.ready = true → s.ready = true) (hdown : t.down = s.down) : Spares j s t := by
  refine ⟨by rw [hpolls], by rw [hreaders]; exact id, by rw [hinterruption], by rw [hresumes],
    fun h => .inl (hready h), ?_⟩
  rw [hdown]
  exact .inl

theorem works_run {a : Act ρ} {r : State ρ × Place ρ} (h : s.Sound) (hk : Knows i p s)
    (hr : State.run i s p a = some r) : Works i s r := by
  unfold State.run at hr
  split at hr
  · -- a command has the order gate
    split at hr
    · cases hr
      exact ⟨h, hk, fun _ _ => .refl⟩
    · cases hr
      exact ⟨h, hk, fun _ _ => .refl⟩
  · split at hr
    · next hfree =>
      cases hr
      refine ⟨⟨fun hw => absurd hfree hw, h.down, h.timely, h.last⟩, ⟨hk, Finset.mem_insert_self i _⟩, ?_⟩
      intro j _
      exact ⟨rfl, fun hj => Finset.mem_insert_of_mem hj, Nat.le_refl _, Nat.le_refl _, .inl, .inl⟩
    · cases hr
  · cases hr
    exact ⟨h, ⟨hk.1, hk.2, Nat.le_refl _, Nat.le_refl _, .inl⟩, fun _ _ => .refl⟩
  · -- the check behind the subscription: the host is ready, so no signal stands
    obtain ⟨hfresh, hreaders, hseen, hresumes, hwas⟩ := hk
    split at hr
    · cases hr
      exact works_leave h fun t ht p hp => hfresh p (ht ▸ hp)
    · next hactive =>
      cases hr
      have hready := ready_of_active hactive
      refine ⟨h, ⟨hreaders, hseen, hwas hready, ?_, ?_⟩, fun _ _ => .refl⟩
      · intro _
        by_contra hdown
        have := h.down (by simpa using hdown)
        simp [hready] at this
      · intro p hp hi
        exact absurd hi (hfresh p hp)
  · cases hr
    exact works_watch h hk
  · cases hr
    exact works_pollVenue h hk
  · cases hr
    exact works_leave h fun _ _ => trivial
  · cases hr
    exact works_leave h fun _ _ => trivial
  · cases hr
    exact works_leave h fun _ _ => trivial
  · cases hr
    exact ⟨⟨h.exclusive, h.down, h.timely, h.last⟩, trivial,
      fun _ _ => spares_of_eq rfl rfl rfl rfl id rfl⟩
  · cases hr
    exact ⟨⟨h.exclusive, fun _ => rfl, h.timely, h.last⟩, trivial,
      fun _ _ => spares_of_eq rfl rfl rfl rfl (fun h => by cases h) rfl⟩
  · -- the signal: what subscribed before it has seen another one
    cases hr
    refine ⟨⟨h.exclusive, fun hd => by simpa using hd, h.timely, h.last⟩, trivial, ?_⟩
    intro j _
    exact ⟨rfl, id, Nat.le_succ _, Nat.le_refl _, .inl, fun _ => .inr (Nat.lt_succ_self _)⟩
  · exact works_alone (p := .rebuilding) h (fun _ => trivial) hr
  · cases hr
    exact works_leave h fun _ _ => trivial
  · cases hr
    exact ⟨⟨h.exclusive, h.down, h.timely, h.last⟩, trivial,
      fun _ _ => spares_of_eq rfl rfl rfl rfl id rfl⟩
  · cases hr
    exact ⟨h.becomeReady, trivial, fun _ _ => spares_becomeReady⟩
  · cases hr
    exact ⟨⟨h.exclusive, h.down, h.timely, h.last⟩, trivial,
      fun _ _ => spares_of_eq rfl rfl rfl rfl id rfl⟩
  · cases hr
    exact ⟨⟨h.exclusive, fun _ => rfl, h.timely, h.last⟩, trivial,
      fun _ _ => spares_of_eq rfl rfl rfl rfl (fun h => by cases h) rfl⟩
  · split at hr
    · cases hr
    · next hfree =>
      split at hr
      · cases hr
        exact ⟨h, trivial, fun _ _ => .refl⟩
      · split at hr
        · cases hr
          exact ⟨h, trivial, fun _ _ => .refl⟩
        · cases hr
          refine ⟨⟨fun _ => ?_, h.down, h.timely, h.last⟩, trivial,
            fun _ _ => spares_of_eq rfl rfl rfl rfl id rfl⟩
          by_contra hreaders
          exact hfree (.inr hreaders)
  · cases hr
    exact ⟨h.becomeReady.release i, trivial,
      fun _ hj => spares_becomeReady.trans (spares_release hj)⟩
  · cases hr
    exact works_leave h fun _ _ => trivial
  · exact works_alone (p := .closingVenue) h (fun _ => trivial) hr
  · cases hr
    exact works_leave h fun _ _ => trivial
  · cases hr
    exact works_leave h fun _ _ => trivial
  · cases hr
    exact works_leave h fun _ _ => trivial
  · cases hr
    exact works_leave h fun _ _ => trivial
  · cases hr
    exact works_leave h fun _ _ => trivial
  · cases hr
    exact works_leave h fun _ _ => trivial
  · cases hr
    exact works_leave h fun _ _ => trivial
  · cases hr
    exact works_leave h fun _ _ => trivial
  · cases hr

theorem works_spawn {c : Call} {r : State ρ × Place ρ} (h : s.Sound) (hfresh : s.Fresh i)
    (hr : State.spawn i s c = some r) : Works i s r := by
  cases c with
  | command session c =>
    simp only [State.spawn] at hr
    split at hr
    · cases hr
      exact ⟨h, hfresh, fun _ _ => .refl⟩
    · cases hr
      exact ⟨h, hfresh, fun _ _ => .refl⟩
  | setSession session c =>
    cases hr
    exact ⟨⟨h.exclusive, h.down, h.timely, h.last⟩, trivial,
      fun _ _ => spares_of_eq rfl rfl rfl rfl id rfl⟩
  | openGates trading cancelAll =>
    cases hr
    exact ⟨⟨h.exclusive, h.down, h.timely, h.last⟩, trivial,
      fun _ _ => spares_of_eq rfl rfl rfl rfl id rfl⟩
  | pump =>
    cases hr
    exact ⟨h, trivial, fun _ _ => .refl⟩
  | requestReconnect =>
    cases hr
    exact ⟨⟨h.exclusive, h.down, h.timely, h.last⟩, trivial,
      fun _ _ => spares_of_eq rfl rfl rfl rfl id rfl⟩
  | connect =>
    cases hr
    exact ⟨h, trivial, fun _ _ => .refl⟩
  | shutdown =>
    cases hr
    exact ⟨⟨h.exclusive, fun _ => rfl, h.timely, h.last⟩, trivial,
      fun _ _ => spares_of_eq rfl rfl rfl rfl (fun h => by cases h) rfl⟩

section Runs

variable {P Q : Pool (State ρ) (Place ρ)}

/-- Only commands that run are polled. -/
def Numbered (P : Pool (State ρ) (Place ρ)) : Prop :=
  ∀ p ∈ P.shared.polls, p.command < P.threads.length

theorem Works.keeps {r : State ρ × Place ρ} (hP : P.Holds State.Sound Knows)
    (h : Works i P.shared r) : P.Keeps State.Sound Knows i r := by
  refine ⟨h.sound, h.knows, ?_⟩
  intro j q hj hq
  exact (hP.places j q hq).stable (h.spares j hj)

theorem Numbered.fresh (hn : Numbered P) : P.shared.Fresh P.threads.length := by
  intro p hp heq
  have := hn p hp
  omega

/-- A step of one task records polls of its own. -/
theorem Works.own {r : State ρ × Place ρ} (h : Works i s r) {q : Poll ρ} (hq : q ∈ r.1.polls) :
    q.command = i ∨ q ∈ s.polls := by
  by_cases hi : q.command = i
  · exact .inl hi
  · exact .inr ((mem_polls_iff (h.spares _ hi) rfl).mpr hq)

theorem numbered_step {m : Move Call (Act ρ)} (hP : P.Holds State.Sound Knows) (hn : Numbered P)
    (h : P.step State.code m = some Q) : Numbered Q := by
  obtain ⟨c, r, rfl, hr, rfl⟩ | ⟨i, a, p, r, rfl, hp, hr, rfl⟩ := Pool.step_cases h
  · intro q hq
    change q.command < (P.threads ++ [r.2]).length
    rw [List.length_append, List.length_singleton]
    rcases (works_spawn hP.shared hn.fresh hr).own hq with hi | hq
    · omega
    · have := hn q hq
      omega
  · intro q hq
    change q.command < (P.threads.set i r.2).length
    rw [List.length_set]
    rcases (works_run hP.shared (hP.places i p hp) hr).own hq with hi | hq
    · rw [hi]
      exact hp.lt_length
    · exact hn q hq

theorem holds_of_run {trace : List (Move Call (Act ρ))} (h : (machine ρ).Run Machine.Free trace P) :
    P.Holds State.Sound Knows ∧ Numbered P := by
  refine h.invariant (I := fun P => P.Holds State.Sound Knows ∧ Numbered P) ?_ ?_
  · rintro P ⟨⟨hreaders, hwriter, hdown, hpolls⟩, hthreads⟩
    refine ⟨⟨⟨fun _ => hreaders, by simp [hdown], by simp [hpolls], by simp [hpolls]⟩, ?_⟩,
      by simp [Numbered, hpolls]⟩
    intro i p hp
    simp [Pool.At, hthreads] at hp
  · rintro P m Q ⟨hP, hn⟩ hfree hstep
    refine ⟨?_, numbered_step hP hn hstep⟩
    refine Pool.holds_of_step ?_ ?_ hfree hstep
    · intro c r hr _
      exact (works_spawn hP.shared hn.fresh hr).keeps hP
    · intro i a p r hp hr _
      exact (works_run hP.shared (hP.places i p hp) hr).keeps hP

/-- No order command runs across an interruption, but for the one poll that a select makes behind a
watch which had not fired. -/
theorem safe_of_run {trace : List (Move Call (Act ρ))} (h : (machine ρ).Run Machine.Free trace P) :
    Safe P := by
  have hP := (holds_of_run h).1
  refine ⟨fun i e hi => hP.places i _ hi, ?_, hP.shared.timely, hP.shared.last⟩
  intro i a hi hpolled
  have hknows := hP.places i _ hi
  cases a with
  | refused e =>
    obtain ⟨p, hp, hcommand⟩ := hpolled
    exact absurd hcommand (hknows p hp)
  | outcomeUnknown m => exact .inl ⟨m, rfl⟩
  | venue r => exact .inr ⟨r, rfl, hknows⟩

/-- A command that is polled once when the host is interrupted, one that comes before the host is ready
again, and one after the recovery. -/
def interruptedOnce : List (Move Call (Act Nat)) :=
  [.spawn .connect, .run 0 .go, .run 0 (.answer true), .spawn .pump,
    .spawn (.command 0 .placeOrder), .run 2 .go, .run 2 .go, .run 2 .go, .run 2 .go,
    .run 2 .go, .run 2 (.poll none), .run 1 .go, .spawn (.command 0 .cancelOrder), .run 1 .go,
    .run 3 .go, .run 1 .go, .run 2 .go, .run 1 .go, .run 1 (.answer true), .run 1 .resume,
    .run 1 .go, .spawn (.command 0 .placeOrder), .run 4 .go, .run 4 .go, .run 4 .go, .run 4 .go,
    .run 4 .go, .run 4 (.poll (some 8))]

theorem safe_interruptedOnce :
    ∃ P, (machine Nat).Run Machine.Free interruptedOnce P ∧ Safe P ∧
      P.At 2 (.answered (.outcomeUnknown interruptedMsg)) ∧
      P.At 3 (.answered (.refused (.notSent
        "gateway not ready (plants reconnecting); request not sent"))) ∧
      P.At 4 (.answered (.venue 8)) := by
  have hexec : ∃ P, (machine Nat).exec Machine.Free ⟨{ gates := ⟨true, false⟩ }, []⟩ interruptedOnce =
        some P ∧
      P.At 2 (.answered (.outcomeUnknown interruptedMsg)) ∧
      P.At 3 (.answered (.refused (.notSent
        "gateway not ready (plants reconnecting); request not sent"))) ∧
      P.At 4 (.answered (.venue 8)) := ⟨_, rfl, rfl, rfl, rfl⟩
  obtain ⟨P, hexec, hanswers⟩ := hexec
  have hrun : (machine Nat).Run Machine.Free interruptedOnce P :=
    Machine.run_of_exec ⟨⟨rfl, rfl, rfl, rfl⟩, rfl⟩ hexec
  exact ⟨P, hrun, safe_of_run hrun, hanswers⟩

/-- The select of a command has found nothing at the watch when the pump interrupts the host. -/
def interruptedInSelect : List (Move Call (Act Nat)) :=
  [.spawn .connect, .run 0 .go, .run 0 (.answer true), .spawn .pump,
    .spawn (.command 0 .placeOrder), .run 2 .go, .run 2 .go, .run 2 .go, .run 2 .go, .run 2 .go,
    .run 1 .go, .run 1 .go, .run 1 .go, .run 2 (.poll (some 7))]

/-- The first poll of a venue's future, which sends the order, after the signal. -/
theorem polled_after_signal : ∃ P, (machine Nat).Run Machine.Free interruptedInSelect P ∧
    P.At 2 (.answered (.venue 7)) ∧
    ∃ p ∈ P.shared.polls, p.command = 2 ∧ p.signal ≠ p.seen ∧ p.down = true := by
  have hexec : ∃ P, (machine Nat).exec Machine.Free ⟨{ gates := ⟨true, false⟩ }, []⟩
        interruptedInSelect = some P ∧
      P.At 2 (.answered (.venue 7)) ∧
      P.shared.polls = [⟨2, 0, true, 1, 0, 1, 1, true, false, some 7⟩] := ⟨_, rfl, rfl, rfl⟩
  obtain ⟨P, hexec, hanswer, hpolls⟩ := hexec
  refine ⟨P, Machine.run_of_exec ⟨⟨rfl, rfl, rfl, rfl⟩, rfl⟩ hexec, hanswer, ?_⟩
  rw [hpolls]
  exact ⟨_, List.mem_singleton_self _, rfl, by decide, rfl⟩

end Runs

end RithmicNt.Host.Commands
