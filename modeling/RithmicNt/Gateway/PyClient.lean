import Mathlib.Data.List.TakeWhile
import RithmicNt.Gateway.EventQueue

/-! The plain gateway client: one socket, read by requests and polls in turn, and one deque for the
events that were read while something else was awaited.  Over every run the events of a stream come
out in the order of their arrival, or are counted in a gap where they were dropped, as long as no poll
takes an event from between two events of another stream. -/

namespace RithmicNt.Gateway.PyClient

open RithmicNt.Lib RithmicNt.Host RithmicNt.Gateway.EventQueue

/-- The bodies of an event frame, but for a gap.  `empty` is a frame without one. -/
inductive EventType
  | lastTrade
  | bbo
  | orderBook
  | accountPnl
  | instrumentPnl
  | orderNotification
  | timeBar
  | other
  | transportResumed
  | transportInterrupted
  | bracketUpdate
  | empty
  deriving DecidableEq, Repr

/-- An event dict; `body` is what the client does not read. -/
inductive Event (δ : Type)
  | data (type : EventType) (body : δ)
  | gap (stream : String) (skipped : Nat)
  deriving DecidableEq, Repr

variable {δ : Type}

def maxPendingEvents : Nat := 100000

def orderEventTypes : List EventType := [.orderNotification, .bracketUpdate]

def pnlEventTypes : List EventType := [.accountPnl, .instrumentPnl]

def historyEventTypes : List EventType := [.timeBar]

namespace Event

def isGap : Event δ → Bool
  | .gap .. => true
  | .data .. => false

def hasType (types : List EventType) : Event δ → Bool
  | .data type _ => type ∈ types
  | .gap .. => false

/-- `_gap_stream(evt) == stream`. -/
def isGapOn (stream : String) : Event δ → Bool
  | .gap s _ => s = stream
  | .data .. => false

def isMdEvent (e : Event δ) : Bool :=
  if e.isGap then e.isGapOn "ticker"
  else !e.hasType (orderEventTypes ++ pnlEventTypes ++ historyEventTypes)

def isHistoryEvent (e : Event δ) : Bool := e.hasType historyEventTypes || e.isGapOn "history"

def isPnlEvent (e : Event δ) : Bool := e.hasType pnlEventTypes || e.isGapOn "pnl"

def isOrderEvent (e : Event δ) : Bool := e.hasType orderEventTypes || e.isGapOn "order"

/-- `_stream_of`. -/
def stream (e : Event δ) : Stream :=
  if e.isOrderEvent then .order
  else if e.isPnlEvent then .pnl
  else if e.isHistoryEvent then .history
  else .ticker

end Event

/-- The predicate of the poll of a stream. -/
def on : Stream → Event δ → Bool
  | .ticker => Event.isMdEvent
  | .history => Event.isHistoryEvent
  | .pnl => Event.isPnlEvent
  | .order => Event.isOrderEvent

/-- What a call raises: a `GatewayError`, or an exception of the socket or of the decoder. -/
inductive Raised
  | gateway (code message : String)
  | other (text : String)
  deriving DecidableEq, Repr

def normalizeErrorCode (code : String) : String :=
  if code = "history_denied_live_md" then "capability_denied" else code

/-- What one read of the socket gives. -/
inductive Read (δ : Type)
  | event (event : Event δ)
  | error (requestId : Nat) (code message : String)
  | reply (requestId : Nat) (which : Option String)
  | eof
  | frameTooLarge (length : Nat)
  | timeout
  | failed (text : String)
  deriving DecidableEq, Repr

structure Client (δ : Type) where
  connected : Bool := false
  nextId : Nat := 1
  pending : List (Event δ) := []

def notConnected : Raised := .gateway "not_connected" "call connect() first"

/-- One more loss on the first gap of the stream. -/
def bump (stream : String) : List (Event δ) → Option (List (Event δ))
  | [] => none
  | .gap s skipped :: rest =>
    if s = stream then some (.gap s (skipped + 1) :: rest)
    else (bump stream rest).map (.gap s skipped :: ·)
  | e :: rest => (bump stream rest).map (e :: ·)

/-- One pass of the loop that makes room: the oldest event that is no gap goes into the gap of its
stream at the head.  `none` where only gaps are queued. -/
def dropOldest (pending : List (Event δ)) : Option (List (Event δ)) :=
  let gaps := pending.takeWhile Event.isGap
  match pending.dropWhile Event.isGap with
  | [] => none
  | dropped :: rest =>
    let stream := streamPlant dropped.stream
    match bump stream gaps with
    | some gaps => some (gaps ++ rest)
    | none => some (.gap stream 1 :: gaps ++ rest)

/-- The loop, with as many passes as there can be events to drop. -/
def makeRoom : Nat → List (Event δ) → List (Event δ)
  | 0, pending => pending
  | fuel + 1, pending =>
    if maxPendingEvents ≤ pending.length then
      match dropOldest pending with
      | none => pending
      | some pending => makeRoom fuel pending
    else pending

/-- The events at the front that do not match go to the back, one by one. -/
def scan (p : Event δ → Bool) : Nat → List (Event δ) → Option (Event δ) × List (Event δ)
  | n + 1, e :: pending => if p e then (some e, pending) else scan p n (pending ++ [e])
  | _, pending => (none, pending)

namespace Client

def closeSock (c : Client δ) : Client δ := { c with connected := false }

def queueEvent (c : Client δ) (e : Event δ) : Client δ :=
  { c with pending := makeRoom c.pending.length c.pending ++ [e] }

/-- A fatal code closes the socket, whoever sent it. -/
def raise {α : Type} (c : Client δ) (code message : String) : Except Raised α × Client δ :=
  (.error (.gateway code message),
    if code = "eof" ∨ code = "frame_too_large" then c.closeSock else c)

/-- The reads of `_rpc_unlocked` for the request `rid`, and the reads that it leaves. -/
def rpcLoop (rid : Nat) (effective : String) :
    Client δ → List (Read δ) → Option ((Except Raised Unit × Client δ) × List (Read δ))
  | _, [] => none
  | c, .event e :: reads => rpcLoop rid effective (c.queueEvent e) reads
  | c, .error id code message :: reads =>
    if id ≠ rid then
      some (c.raise "protocol" ("error for request_id=" ++ toString id ++ " while waiting for " ++
        toString rid ++ ": " ++ code ++ ": " ++ message), reads)
    else some (c.raise (normalizeErrorCode code) message, reads)
  | c, .reply id which :: reads =>
    if id = rid then some ((.ok (), c), reads)
    else
      some (c.raise "protocol" ("unexpected frame " ++
        (which.elim "None" fun w => "'" ++ w ++ "'") ++ " request_id=" ++ toString id ++
        " while waiting for " ++ toString rid), reads)
  | c, .eof :: reads => some (c.raise "eof" "gateway closed connection", reads)
  | c, .frameTooLarge length :: reads =>
    some (c.raise "frame_too_large" (toString length ++ " bytes"), reads)
  | c, .timeout :: reads =>
    some ((.error (.gateway "timeout" ("RPC " ++ toString rid ++ " timed out after " ++ effective ++
      "s")), c.closeSock), reads)
  | c, .failed text :: reads => some ((.error (.other text), c), reads)

/-- `written` is what `sendall` failed with, if it did; `effective` the timeout as it prints. -/
def rpc (c : Client δ) (written : Option String) (effective : String) (reads : List (Read δ)) :
    Option ((Except Raised Unit × Client δ) × List (Read δ)) :=
  if !c.connected then some ((.error notConnected, c), reads)
  else
    let rid := c.nextId
    let c := { c with nextId := c.nextId + 1 }
    match written with
    | some failure =>
      some ((.error (.gateway "not_sent" ("request not written: " ++ failure)), c.closeSock), reads)
    | none => rpcLoop rid effective c reads

/-- The reads of a poll, after the deque had no match. -/
def pollLoop (p : Event δ → Bool) (timed : Bool) : Client δ → List (Read δ) →
    Option ((Except Raised (Option (Event δ)) × Client δ) × List (Read δ))
  | _, [] => none
  | c, .event e :: reads =>
    if p e then some ((.ok (some e), c), reads)
    else if timed then pollLoop p timed (c.queueEvent e) reads
    else some ((.ok none, c.queueEvent e), reads)
  | c, .error _ code message :: reads => some (c.raise code message, reads)
  | c, .reply .. :: reads =>
    if timed then pollLoop p timed c reads else some ((.ok none, c), reads)
  | c, .eof :: reads => some (c.raise "eof" "gateway closed connection", reads)
  | c, .frameTooLarge length :: reads =>
    some (c.raise "frame_too_large" (toString length ++ " bytes"), reads)
  | c, .timeout :: reads => some ((.ok none, c), reads)
  | c, .failed text :: reads => some ((.error (.other text), c), reads)

def pollFiltered (c : Client δ) (timeoutMs : Int) (p : Event δ → Bool) (reads : List (Read δ)) :
    Option ((Except Raised (Option (Event δ)) × Client δ) × List (Read δ)) :=
  if !c.connected then some ((.error notConnected, c), reads)
  else
    match scan p c.pending.length c.pending with
    | (some e, pending) => some ((.ok (some e), { c with pending }), reads)
    | (none, pending) => pollLoop p (0 < timeoutMs) { c with pending } reads

end Client

/-! ### Runs -/

/-- A request, or the poll of a stream, with all that it reads. -/
inductive Op (δ : Type)
  | rpc (written : Option String) (effective : String) (reads : List (Read δ))
  | poll (stream : Stream) (timeoutMs : Int) (reads : List (Read δ))
  | connect

/-- A client with the events that arrived and those that the polls of each stream returned. -/
structure Watched (δ : Type) where
  client : Client δ
  arrived : List (Event δ) := []
  returned : Stream → List (Event δ) := fun _ => []

def Read.event? : Read δ → Option (Event δ)
  | .event e => some e
  | _ => none

namespace Watched

/-- The next state where the operation has read everything. -/
def settle {α : Type} (w : Watched δ) (reads : List (Read δ)) (hand : Option α → Stream → List (Event δ))
    (answer : Option ((Except Raised α × Client δ) × List (Read δ))) : Option (Watched δ) :=
  match answer with
  | some ((result, client), []) =>
    some { client, arrived := w.arrived ++ reads.filterMap Read.event?, returned := hand result.toOption }
  | _ => none

def step (w : Watched δ) : Op δ → Option (Watched δ)
  | .rpc written effective reads =>
    w.settle reads (fun _ => w.returned) (w.client.rpc written effective reads)
  | .poll stream timeoutMs reads =>
    w.settle reads (fun read => Function.update w.returned stream
      (w.returned stream ++ (read.getD none).toList)) (w.client.pollFiltered timeoutMs (on stream) reads)
  | .connect => some { w with client := { w.client with connected := true } }

end Watched

/-- A client with nothing pending, and any requests and polls. -/
def requests : Machine (Watched δ) (Op δ) where
  Start w := ∃ connected, w = { client := { connected } }
  step := Watched.step

def allStreams : List Stream := [.ticker, .history, .pnl, .order]

/-- A poll that finds its event in the deque finds no other stream on both sides of it. -/
def InOrder (w : Watched δ) : Op δ → Prop
  | .poll stream .. => ∀ other ∈ allStreams,
    (w.client.pending.takeWhile fun e => !on stream e).any (on other) = false ∨
      (w.client.pending.dropWhile fun e => !on stream e).tail.any (on other) = false
  | _ => True

instance (w : Watched δ) : DecidablePred (InOrder w)
  | .poll .. => inferInstanceAs (Decidable (∀ other ∈ allStreams, _))
  | .rpc .. | .connect => inferInstanceAs (Decidable True)

/-- An event weighs one, a gap what it counts. -/
def weight : Event δ → Nat
  | .gap _ skipped => skipped
  | .data .. => 1

/-- The arrivals of a stream are accounted for by what its polls returned and what is pending, and a
poll returns the first of what is pending. -/
structure Watched.Fifo (w : Watched δ) (stream : Stream) : Prop where
  account : Accounted (.gap (streamPlant stream)) weight (w.arrived.filter (on stream))
    (w.returned stream ++ w.client.pending.filter (on stream))
  front : ∀ x rest, w.client.pending.filter (on stream) = x :: rest → w.client.connected →
    ∃ client, (∀ timeoutMs, w.client.pollFiltered timeoutMs (on stream) [] =
      some ((.ok (some x), client), [])) ∧ client.pending.filter (on stream) = rest

/-! ### Streams -/

theorem streamPlant_injective : Function.Injective streamPlant := by
  intro s s' h
  cases s <;> cases s' <;> first | rfl | simp [streamPlant] at h

theorem on_data_iff {s : Stream} {type : EventType} {body : δ} :
    on s (.data type body) = true ↔ (Event.data type body).stream = s := by
  cases type <;> cases s <;> constructor <;> intro h <;> first | rfl | cases h

theorem on_gap_iff {s : Stream} {name : String} {n : Nat} :
    on s (.gap name n : Event δ) = true ↔ name = streamPlant s := by
  cases s <;>
    simp [on, Event.isMdEvent, Event.isHistoryEvent, Event.isPnlEvent, Event.isOrderEvent,
      Event.hasType, Event.isGap, Event.isGapOn, streamPlant]

theorem on_of_not_gap {s : Stream} {e : Event δ} (he : e.isGap = false) :
    on s e = true ↔ e.stream = s := by
  cases e with
  | data type body => exact on_data_iff
  | gap name n => simp [Event.isGap] at he

theorem weight_of_not_gap {e : Event δ} (he : e.isGap = false) : weight e = 1 := by
  cases e with
  | data type body => rfl
  | gap name n => simp [Event.isGap] at he

/-- No event is on two streams. -/
theorem on_unique {s s' : Stream} {e : Event δ} (h : on s e = true) (h' : on s' e = true) :
    s = s' := by
  cases e with
  | data type body => exact (on_data_iff.mp h).symm.trans (on_data_iff.mp h')
  | gap name n =>
    apply streamPlant_injective
    rw [← on_gap_iff.mp h, on_gap_iff.mp h']

theorem gap_of_isGapOn {s : Stream} {e : Event δ} (hgap : e.isGap = true)
    (h : e.isGapOn (streamPlant s) = false) : on s e = false := by
  cases e with
  | data type body => simp [Event.isGap] at hgap
  | gap name n =>
    rw [Bool.eq_false_iff]
    intro hon
    simp [Event.isGapOn, on_gap_iff.mp hon] at h

/-! ### The bound -/

theorem bump_eq_none {stream : String} {l : List (Event δ)} (h : bump stream l = none) :
    ∀ e ∈ l, e.isGapOn stream = false := by
  induction l with
  | nil => simp
  | cons e l ih =>
    cases e with
    | data type body =>
      simp only [bump, Option.map_eq_none_iff] at h
      simpa [Event.isGapOn] using ih h
    | gap name n =>
      simp only [bump] at h
      split at h
      · cases h
      · next hne =>
        simp only [Option.map_eq_none_iff] at h
        simpa [Event.isGapOn, hne] using ih h

theorem bump_eq_some {stream : String} {l l' : List (Event δ)} (h : bump stream l = some l') :
    ∃ a n b, l = a ++ Event.gap stream n :: b ∧ l' = a ++ Event.gap stream (n + 1) :: b ∧
      ∀ e ∈ a, e.isGapOn stream = false := by
  induction l generalizing l' with
  | nil => cases h
  | cons e l ih =>
    cases e with
    | data type body =>
      obtain ⟨r, hr, rfl⟩ := Option.map_eq_some_iff.mp h
      obtain ⟨a, n, b, rfl, rfl, ha⟩ := ih hr
      exact ⟨.data type body :: a, n, b, rfl, rfl, by simpa [Event.isGapOn] using ha⟩
    | gap name n =>
      simp only [bump] at h
      split at h
      · next heq =>
        subst heq
        cases h
        exact ⟨[], n, l, rfl, rfl, by simp⟩
      · next hne =>
        obtain ⟨r, hr, rfl⟩ := Option.map_eq_some_iff.mp h
        obtain ⟨a, m, b, rfl, rfl, ha⟩ := ih hr
        exact ⟨.gap name n :: a, m, b, rfl, rfl, by simpa [Event.isGapOn, hne] using ha⟩

/-- What one pass drops, and which gap counts it. -/
theorem dropOldest_cases {pending pending' : List (Event δ)}
    (h : dropOldest pending = some pending') :
    ∃ gaps x rest, pending = gaps ++ x :: rest ∧ (∀ g ∈ gaps, g.isGap = true) ∧ x.isGap = false ∧
      ((∃ a n b, gaps = a ++ Event.gap (streamPlant x.stream) n :: b ∧
          (∀ e ∈ a, e.isGapOn (streamPlant x.stream) = false) ∧
          pending' = a ++ Event.gap (streamPlant x.stream) (n + 1) :: b ++ rest) ∨
        ((∀ e ∈ gaps, e.isGapOn (streamPlant x.stream) = false) ∧
          pending' = .gap (streamPlant x.stream) 1 :: gaps ++ rest)) := by
  have hsplit := List.takeWhile_append_dropWhile (p := Event.isGap) (l := pending)
  unfold dropOldest at h
  simp only at h
  split at h
  · cases h
  · next x rest hdrop =>
    have hx : x.isGap = false := by
      have hhead := List.head_dropWhile_not Event.isGap (l := pending) (by simp [hdrop])
      simpa [hdrop] using hhead
    refine ⟨pending.takeWhile Event.isGap, x, rest, by rw [← hdrop, hsplit], ?_, hx, ?_⟩
    · intro g hg
      exact List.all_eq_true.mp List.all_takeWhile g hg
    · split at h
      · next gaps hbump =>
        cases h
        obtain ⟨a, n, b, hgaps, rfl, ha⟩ := bump_eq_some hbump
        exact .inl ⟨a, n, b, hgaps, ha, rfl⟩
      · next hbump =>
        cases h
        exact .inr ⟨bump_eq_none hbump, rfl⟩

theorem weight_gapOf (s : Stream) (n : Nat) : weight (.gap (streamPlant s) n : Event δ) = n := rfl

section Drop

variable {s : Stream} {arrived returned pending pending' : List (Event δ)}

theorem filter_eq_nil_of_isGapOn {l : List (Event δ)} (hgaps : ∀ g ∈ l, g.isGap = true)
    (h : ∀ g ∈ l, g.isGapOn (streamPlant s) = false) : l.filter (on s) = [] := by
  apply List.filter_eq_nil_iff.mpr
  intro g hg
  rw [gap_of_isGapOn (hgaps g hg) (h g hg)]
  simp

/-- A dropped event is counted in a gap of its stream that stands before all of the stream. -/
theorem account_dropOldest (h : dropOldest pending = some pending')
    (haccount : Accounted (.gap (streamPlant s)) weight arrived
      (returned ++ pending.filter (on s))) :
    Accounted (.gap (streamPlant s)) weight arrived (returned ++ pending'.filter (on s)) := by
  obtain ⟨gaps, x, rest, rfl, hgaps, hx, hcases⟩ := dropOldest_cases h
  have hdata : ∀ n, x ≠ .gap (streamPlant s) n := by
    rintro n rfl
    simp [Event.isGap] at hx
  by_cases hs : x.stream = s
  · have hon : on s x = true := (on_of_not_gap hx).mpr hs
    rw [hs] at hcases
    obtain ⟨a, n, b, rfl, ha, rfl⟩ | ⟨hnone, rfl⟩ := hcases
    · -- the events between the gap and the dropped one are gaps
      have hself : ∀ m, on s (.gap (streamPlant s) m : Event δ) = true := fun m => on_gap_iff.mpr rfl
      have hbefore : a.filter (on s) = [] := by
        refine filter_eq_nil_of_isGapOn (fun g hg => hgaps g ?_) ha
        exact List.mem_append_left _ hg
      have hbetween : ∀ g ∈ b.filter (on s), ∃ m, g = .gap (streamPlant s) m := by
        intro g hg
        obtain ⟨hg, hgon⟩ := List.mem_filter.mp hg
        have hgap := hgaps g (List.mem_append_right _ (List.mem_cons_of_mem _ hg))
        cases g with
        | data type body => simp [Event.isGap] at hgap
        | gap name m => exact ⟨m, by rw [on_gap_iff.mp hgon]⟩
      simp only [List.filter_append, List.filter_cons, hbefore, hself, hon, if_true,
        List.nil_append, ← List.append_assoc] at haccount ⊢
      have hdrop := Accounted.drop_into (weight_gapOf s) hdata hbetween haccount
      rwa [weight_of_not_gap hx] at hdrop
    · have hbefore := filter_eq_nil_of_isGapOn hgaps hnone
      have hself : on s (.gap (streamPlant s) 1 : Event δ) = true := on_gap_iff.mpr rfl
      simp only [List.filter_append, List.filter_cons, hbefore, hself, hon, if_true,
        List.nil_append, List.cons_append] at haccount ⊢
      have hdrop := Accounted.drop_alone (weight_gapOf s) hdata haccount
      rwa [weight_of_not_gap hx] at hdrop
  · have hoff : on s x = false := by
      rw [Bool.eq_false_iff]
      exact fun hon => hs ((on_of_not_gap hx).mp hon)
    have hgapOff : ∀ m, on s (.gap (streamPlant x.stream) m : Event δ) = false := by
      intro m
      rw [Bool.eq_false_iff]
      exact fun hon => hs (streamPlant_injective (on_gap_iff.mp hon))
    obtain ⟨a, n, b, rfl, -, rfl⟩ | ⟨-, rfl⟩ := hcases
    · simpa [List.filter_append, List.filter_cons, hoff, hgapOff] using haccount
    · simpa [List.filter_append, List.filter_cons, hoff, hgapOff] using haccount

theorem account_makeRoom (fuel : Nat)
    (haccount : Accounted (.gap (streamPlant s)) weight arrived
      (returned ++ pending.filter (on s))) :
    Accounted (.gap (streamPlant s)) weight arrived
      (returned ++ (makeRoom fuel pending).filter (on s)) := by
  induction fuel generalizing pending with
  | zero => exact haccount
  | succ fuel ih =>
    unfold makeRoom
    split
    · cases hdrop : dropOldest pending with
      | none => exact haccount
      | some pending' => exact ih (account_dropOldest hdrop haccount)
    · exact haccount

/-- Nothing of a stream is made by dropping events of others. -/
theorem filter_dropOldest (h : dropOldest pending = some pending')
    (hnone : pending.filter (on s) = []) : pending'.filter (on s) = [] := by
  obtain ⟨gaps, x, rest, rfl, hgaps, hx, hcases⟩ := dropOldest_cases h
  have hoff : ∀ e ∈ gaps ++ x :: rest, on s e = false := by
    intro e he
    simpa using List.filter_eq_nil_iff.mp hnone e he
  have hs : x.stream ≠ s := by
    intro hs
    have hon := hoff x (by simp)
    rw [(on_of_not_gap hx).mpr hs] at hon
    cases hon
  have hgapOff : ∀ m, on s (.gap (streamPlant x.stream) m : Event δ) = false := by
    intro m
    rw [Bool.eq_false_iff]
    exact fun hon => hs (streamPlant_injective (on_gap_iff.mp hon))
  apply List.filter_eq_nil_iff.mpr
  intro e he
  rw [Bool.not_eq_true]
  obtain ⟨a, n, b, rfl, -, rfl⟩ | ⟨-, rfl⟩ := hcases
  · simp only [List.mem_append, List.mem_cons] at he
    obtain (he | rfl | he) | he := he
    · exact hoff e (by simp [he])
    · exact hgapOff _
    · exact hoff e (by simp [he])
    · exact hoff e (by simp [he])
  · simp only [List.cons_append, List.mem_cons, List.mem_append] at he
    obtain rfl | he | he := he
    · exact hgapOff 1
    · exact hoff e (by simp [he])
    · exact hoff e (by simp [he])

theorem filter_makeRoom (fuel : Nat) (hnone : pending.filter (on s) = []) :
    (makeRoom fuel pending).filter (on s) = [] := by
  induction fuel generalizing pending with
  | zero => exact hnone
  | succ fuel ih =>
    unfold makeRoom
    split
    · cases hdrop : dropOldest pending with
      | none => exact hnone
      | some pending' => exact ih (filter_dropOldest hdrop hnone)
    · exact hnone

@[simp] theorem isGap_gap (stream : String) (n : Nat) : (.gap stream n : Event δ).isGap = true := rfl

theorem countP_isGap {l : List (Event δ)} (h : ∀ g ∈ l, g.isGap = true) :
    l.countP (fun e => !e.isGap) = 0 := by
  apply List.countP_eq_zero.mpr
  intro g hg
  simp [h g hg]

/-- The loop ends because there is room, or because only gaps are left. -/
theorem makeRoom_ends {fuel : Nat} (h : pending.countP (fun e => !e.isGap) ≤ fuel) :
    (makeRoom fuel pending).length < maxPendingEvents ∨
      ∀ e ∈ makeRoom fuel pending, e.isGap = true := by
  induction fuel generalizing pending with
  | zero =>
    refine .inr fun e he => ?_
    have hzero := List.countP_eq_zero.mp (Nat.le_zero.mp h) e he
    simpa using hzero
  | succ fuel ih =>
    unfold makeRoom
    split
    · cases hdrop : dropOldest pending with
      | none =>
        refine .inr fun e he => ?_
        have hall : pending.dropWhile Event.isGap = [] := by
          unfold dropOldest at hdrop
          simp only at hdrop
          split at hdrop
          · next hnil => exact hnil
          · split at hdrop <;> cases hdrop
        exact List.dropWhile_eq_nil_iff.mp hall e he
      | some pending' =>
        apply ih
        obtain ⟨gaps, x, rest, rfl, hgaps, hx, hcases⟩ := dropOldest_cases hdrop
        simp only [List.countP_append, List.countP_cons, countP_isGap hgaps, hx] at h
        obtain ⟨a, n, b, rfl, -, rfl⟩ | ⟨-, rfl⟩ := hcases
        · have ha := countP_isGap fun g hg => hgaps g (List.mem_append_left _ hg)
          have hb := countP_isGap fun g hg =>
            hgaps g (List.mem_append_right _ (List.mem_cons_of_mem _ hg))
          simp only [List.countP_append, List.countP_cons, isGap_gap, ha, hb] at h ⊢
          simp at h ⊢
          omega
        · simp only [List.cons_append, List.countP_append, List.countP_cons, isGap_gap,
            countP_isGap hgaps] at h ⊢
          simp at h ⊢
          omega
    · next hroom => exact .inl (by omega)

theorem queueEvent_ends (c : Client δ) (e : Event δ) :
    (c.queueEvent e).pending.length ≤ maxPendingEvents ∨
      ∀ x ∈ (c.queueEvent e).pending.dropLast, x.isGap = true := by
  have hfuel : c.pending.countP (fun e => !e.isGap) ≤ c.pending.length := List.countP_le_length
  unfold Client.queueEvent
  simp only [List.length_append, List.length_singleton, List.dropLast_concat]
  obtain hroom | hgaps := makeRoom_ends hfuel
  · exact .inl (by omega)
  · exact .inr hgaps

end Drop

/-! ### Reads -/

/-- What is returned and what is pending account for the arrivals of every stream. -/
def Owed (arrived : List (Event δ)) (returned : Stream → List (Event δ))
    (pending : List (Event δ)) : Prop :=
  ∀ s, Accounted (.gap (streamPlant s)) weight (arrived.filter (on s))
    (returned s ++ pending.filter (on s))

section Reads

variable {arrived : List (Event δ)} {returned : Stream → List (Event δ)} {c c' : Client δ}
  {reads rest : List (Read δ)}

theorem Owed.queue (h : Owed arrived returned c.pending) (e : Event δ) :
    Owed (arrived ++ [e]) returned (c.queueEvent e).pending := by
  intro s
  have hroom := account_makeRoom c.pending.length (h s)
  have hone : Accounted (.gap (streamPlant s)) weight ([e].filter (on s)) ([e].filter (on s)) :=
    .refl _
  have hboth := hroom.append hone
  simpa [Client.queueEvent, List.filter_append] using hboth

/-- An event of a stream with nothing pending is returned at once. -/
theorem Owed.pass {stream : Stream} {e : Event δ} (h : Owed arrived returned c.pending)
    (hon : on stream e = true) (hnone : c.pending.filter (on stream) = []) :
    Owed (arrived ++ [e]) (Function.update returned stream (returned stream ++ [e])) c.pending := by
  intro s
  by_cases hs : s = stream
  · subst hs
    have hone : Accounted (.gap (streamPlant s)) weight [e] [e] := .refl _
    have hboth := (h s).append hone
    simpa [List.filter_append, hon, hnone] using hboth
  · have hoff : on s e = false := by
      rw [Bool.eq_false_iff]
      exact fun h => hs (on_unique h hon)
    simpa [List.filter_append, hoff, Function.update_of_ne hs] using h s

@[simp] theorem pending_raise {α : Type} (code message : String) :
    (c.raise code message : Except Raised α × Client δ).2.pending = c.pending := by
  unfold Client.raise Client.closeSock
  split <;> rfl

theorem owed_rpcLoop {rid : Nat} {effective : String} {result : Except Raised Unit}
    (hloop : Client.rpcLoop rid effective c reads = some ((result, c'), rest))
    (h : Owed arrived returned c.pending) :
    ∃ used, reads = used ++ rest ∧
      Owed (arrived ++ used.filterMap Read.event?) returned c'.pending := by
  induction reads generalizing c arrived with
  | nil => cases hloop
  | cons read reads ih =>
    -- every read but an event ends the loop and leaves the deque alone
    have hstop : ∀ {answer : Except Raised Unit × Client δ}, read.event? = none →
        some (answer, reads) = some ((result, c'), rest) → answer.2.pending = c.pending →
        ∃ used, read :: reads = used ++ rest ∧
          Owed (arrived ++ used.filterMap Read.event?) returned c'.pending := by
      intro answer hread heq hpending
      cases heq
      refine ⟨[read], rfl, ?_⟩
      rw [show c'.pending = c.pending from hpending]
      simpa [hread] using h
    cases read with
    | event e =>
      obtain ⟨used, rfl, howed⟩ := ih hloop (h.queue e)
      exact ⟨.event e :: used, rfl, by simpa [Read.event?] using howed⟩
    | error id code message =>
      simp only [Client.rpcLoop] at hloop
      split at hloop
      · exact hstop rfl hloop (pending_raise _ _)
      · exact hstop rfl hloop (pending_raise _ _)
    | reply id which =>
      simp only [Client.rpcLoop] at hloop
      split at hloop
      · exact hstop rfl hloop rfl
      · exact hstop rfl hloop (pending_raise _ _)
    | eof => exact hstop rfl hloop (pending_raise _ _)
    | frameTooLarge length => exact hstop rfl hloop (pending_raise _ _)
    | timeout => exact hstop rfl hloop rfl
    | failed text => exact hstop rfl hloop rfl

/-- What a poll's answer adds to what the polls of its stream returned. -/
def handed (returned : Stream → List (Event δ)) (stream : Stream)
    (result : Except Raised (Option (Event δ))) : Stream → List (Event δ) :=
  Function.update returned stream (returned stream ++ (result.toOption.getD none).toList)

theorem handed_of_none {stream : Stream} {result : Except Raised (Option (Event δ))}
    (h : result.toOption.getD none = none) : handed returned stream result = returned := by
  simp [handed, h]

theorem owed_pollLoop {stream : Stream} {timed : Bool} {result : Except Raised (Option (Event δ))}
    (hloop : Client.pollLoop (on stream) timed c reads = some ((result, c'), rest))
    (h : Owed arrived returned c.pending) (hnone : c.pending.filter (on stream) = []) :
    ∃ used, reads = used ++ rest ∧
      Owed (arrived ++ used.filterMap Read.event?) (handed returned stream result) c'.pending := by
  induction reads generalizing c arrived with
  | nil => cases hloop
  | cons read reads ih =>
    have hstop : ∀ {answer : Except Raised (Option (Event δ)) × Client δ}, read.event? = none →
        some (answer, reads) = some ((result, c'), rest) → answer.2.pending = c.pending →
        answer.1.toOption.getD none = none →
        ∃ used, read :: reads = used ++ rest ∧
          Owed (arrived ++ used.filterMap Read.event?) (handed returned stream result)
            c'.pending := by
      intro answer hread heq hpending hanswer
      cases heq
      refine ⟨[read], rfl, ?_⟩
      rw [handed_of_none hanswer, show c'.pending = c.pending from hpending]
      simpa [hread] using h
    cases read with
    | event e =>
      simp only [Client.pollLoop] at hloop
      split at hloop
      · next hon =>
        cases hloop
        exact ⟨[.event e], rfl, by simpa [Read.event?, handed, Except.toOption] using h.pass hon hnone⟩
      · next hoff =>
        have hnone' : (c.queueEvent e).pending.filter (on stream) = [] := by
          simp [Client.queueEvent, filter_makeRoom c.pending.length hnone, hoff]
        split at hloop
        · obtain ⟨used, rfl, howed⟩ := ih hloop (h.queue e) hnone'
          exact ⟨.event e :: used, rfl, by simpa [Read.event?] using howed⟩
        · cases hloop
          rw [handed_of_none rfl]
          exact ⟨[.event e], rfl, by simpa [Read.event?] using h.queue e⟩
    | error id code message => exact hstop rfl hloop (pending_raise _ _) rfl
    | reply id which =>
      simp only [Client.pollLoop] at hloop
      split at hloop
      · obtain ⟨used, rfl, howed⟩ := ih hloop h hnone
        refine ⟨.reply id which :: used, rfl, ?_⟩
        rw [List.filterMap_cons_none rfl]
        exact howed
      · exact hstop rfl hloop rfl rfl
    | eof => exact hstop rfl hloop (pending_raise _ _) rfl
    | frameTooLarge length => exact hstop rfl hloop (pending_raise _ _) rfl
    | timeout => exact hstop rfl hloop rfl rfl
    | failed text => exact hstop rfl hloop rfl rfl

end Reads

/-! ### The deque -/

/-- The scan turns the deque until the first match is taken; without one it is turned once round. -/
theorem scan_append (p : Event δ → Bool) (l turned : List (Event δ)) :
    scan p l.length (l ++ turned) =
      match l.dropWhile fun e => !p e with
      | [] => (none, turned ++ l)
      | x :: rest => (some x, rest ++ turned ++ l.takeWhile fun e => !p e) := by
  induction l generalizing turned with
  | nil =>
    cases turned <;> simp [scan]
  | cons e l ih =>
    rw [List.length_cons, List.cons_append, scan]
    by_cases he : p e = true
    · simp [he]
    · rw [if_neg he, List.append_assoc, ih]
      simp only [List.dropWhile_cons, List.takeWhile_cons, he, Bool.not_false, if_true]
      split <;> simp

theorem scan_eq (p : Event δ → Bool) (pending : List (Event δ)) :
    scan p pending.length pending =
      match pending.dropWhile fun e => !p e with
      | [] => (none, pending)
      | x :: rest => (some x, rest ++ pending.takeWhile fun e => !p e) := by
  have h := scan_append p pending []
  rw [List.append_nil] at h
  rw [h]
  split <;> simp

/-- The first of a stream in the deque, and what a poll makes of the deque. -/
theorem split_of_match {s : Stream} {pending : List (Event δ)} {x : Event δ} {rest : List (Event δ)}
    (h : pending.dropWhile (fun e => !on s e) = x :: rest) :
    pending = (pending.takeWhile fun e => !on s e) ++ x :: rest ∧ on s x = true ∧
      (pending.takeWhile fun e => !on s e).filter (on s) = [] := by
  refine ⟨?_, ?_, ?_⟩
  · rw [← h, List.takeWhile_append_dropWhile]
  · have hhead := List.head_dropWhile_not (fun e => !on s e) (l := pending) (by simp [h])
    simpa [h] using hhead
  · apply List.filter_eq_nil_iff.mpr
    intro e he
    have hoff := List.all_eq_true.mp List.all_takeWhile e he
    simpa using hoff

section Polls

variable {arrived : List (Event δ)} {returned : Stream → List (Event δ)} {pending : List (Event δ)}
  {stream : Stream}

/-- Taking a match out of the deque keeps the order of every stream that is not on both sides of it. -/
theorem Owed.take {x : Event δ} {rest : List (Event δ)} (h : Owed arrived returned pending)
    (hmatch : pending.dropWhile (fun e => !on stream e) = x :: rest)
    (hok : ∀ other ∈ allStreams, (pending.takeWhile fun e => !on stream e).any (on other) = false ∨
      rest.any (on other) = false) :
    Owed arrived (Function.update returned stream (returned stream ++ [x]))
      (rest ++ pending.takeWhile fun e => !on stream e) := by
  obtain ⟨hsplit, hon, hbefore⟩ := split_of_match hmatch
  generalize (pending.takeWhile fun e => !on stream e) = before at *
  subst hsplit
  intro s
  have hs := h s
  rw [List.filter_append, List.filter_cons] at hs
  rw [List.filter_append]
  by_cases heq : s = stream
  · subst heq
    rw [hbefore, if_pos hon] at hs
    rw [hbefore, Function.update_self]
    simpa using hs
  · have hoff : ¬ on s x = true := fun h => heq (on_unique h hon)
    rw [if_neg hoff] at hs
    rw [Function.update_of_ne heq]
    have hmem : s ∈ allStreams := by cases s <;> simp [allStreams]
    obtain hnone | hnone := hok s hmem
    · have hnil : before.filter (on s) = [] := by simpa [List.any_eq_false] using hnone
      rw [hnil] at hs ⊢
      simpa using hs
    · have hnil : rest.filter (on s) = [] := by simpa [List.any_eq_false] using hnone
      rw [hnil] at hs ⊢
      simpa using hs

theorem filter_of_no_match (h : pending.dropWhile (fun e => !on stream e) = []) :
    pending.filter (on stream) = [] := by
  apply List.filter_eq_nil_iff.mpr
  intro e he
  simpa using List.dropWhile_eq_nil_iff.mp h e he

end Polls

namespace Watched

variable {w w' : Watched δ}

def Sound (w : Watched δ) : Prop := Owed w.arrived w.returned w.client.pending

theorem settle_eq_some {α : Type} {reads : List (Read δ)}
    {hand : Option α → Stream → List (Event δ)}
    {answer : Option ((Except Raised α × Client δ) × List (Read δ))}
    (h : w.settle reads hand answer = some w') : ∃ result client,
      answer = some ((result, client), []) ∧ w' =
        { client, arrived := w.arrived ++ reads.filterMap Read.event?,
          returned := hand result.toOption } := by
  unfold settle at h
  split at h
  · next result client =>
    cases h
    exact ⟨result, client, rfl, rfl⟩
  · cases h

theorem Sound.rpc {written : Option String} {effective : String} {reads rest : List (Read δ)}
    {result : Except Raised Unit} {client : Client δ} (h : w.Sound)
    (hrpc : w.client.rpc written effective reads = some ((result, client), rest)) (hrest : rest = []) :
    Owed (w.arrived ++ reads.filterMap Read.event?) w.returned client.pending := by
  subst hrest
  unfold Client.rpc at hrpc
  split at hrpc
  · cases hrpc
    rw [List.filterMap_nil, List.append_nil]
    exact h
  · simp only at hrpc
    split at hrpc
    · cases hrpc
      rw [List.filterMap_nil, List.append_nil]
      exact h
    · obtain ⟨used, hused, howed⟩ := owed_rpcLoop hrpc h
      rw [List.append_nil] at hused
      rwa [hused]

theorem Sound.poll {stream : Stream} {timeoutMs : Int} {reads : List (Read δ)}
    {result : Except Raised (Option (Event δ))} {client : Client δ} (h : w.Sound)
    (hok : InOrder w (.poll stream timeoutMs reads))
    (hpoll : w.client.pollFiltered timeoutMs (on stream) reads = some ((result, client), [])) :
    Owed (w.arrived ++ reads.filterMap Read.event?) (handed w.returned stream result)
      client.pending := by
  unfold Client.pollFiltered at hpoll
  split at hpoll
  · cases hpoll
    rw [handed_of_none rfl, List.filterMap_nil, List.append_nil]
    exact h
  · rw [scan_eq] at hpoll
    cases hmatch : w.client.pending.dropWhile fun e => !on stream e with
    | nil =>
      simp only [hmatch] at hpoll
      obtain ⟨used, hused, howed⟩ := owed_pollLoop hpoll h (filter_of_no_match hmatch)
      rw [List.append_nil] at hused
      rwa [hused]
    | cons x rest =>
      simp only [hmatch] at hpoll
      cases hpoll
      have htake := h.take hmatch (by simpa [InOrder, hmatch] using hok)
      simpa [handed, Except.toOption] using htake

theorem Sound.step {op : Op δ} (h : w.Sound) (hok : InOrder w op) (hstep : w.step op = some w') :
    w'.Sound := by
  cases op with
  | rpc written effective reads =>
    simp only [Watched.step] at hstep
    obtain ⟨result, client, hrpc, rfl⟩ := settle_eq_some hstep
    exact h.rpc hrpc rfl
  | poll stream timeoutMs reads =>
    simp only [Watched.step] at hstep
    obtain ⟨result, client, hpoll, rfl⟩ := settle_eq_some hstep
    exact h.poll hok hpoll
  | connect =>
    simp only [Watched.step, Option.some.injEq] at hstep
    subst hstep
    exact h

/-- The first pending event of a stream is what its next poll returns. -/
theorem front_of_pending {c : Client δ} {stream : Stream} {x : Event δ} {rest : List (Event δ)}
    (hfirst : c.pending.filter (on stream) = x :: rest) (hup : c.connected = true) :
    ∃ client, (∀ timeoutMs, c.pollFiltered timeoutMs (on stream) [] =
      some ((.ok (some x), client), [])) ∧ client.pending.filter (on stream) = rest := by
  cases hmatch : c.pending.dropWhile fun e => !on stream e with
  | nil =>
    rw [filter_of_no_match hmatch] at hfirst
    cases hfirst
  | cons y after =>
    obtain ⟨hsplit, hon, hbefore⟩ := split_of_match hmatch
    have hfilter : c.pending.filter (on stream) = y :: after.filter (on stream) := by
      rw [hsplit, List.filter_append, hbefore, List.filter_cons, if_pos hon, List.nil_append]
    rw [hfirst] at hfilter
    obtain ⟨rfl, rfl⟩ := List.cons.inj hfilter
    refine ⟨{ c with pending := after ++ c.pending.takeWhile fun e => !on stream e }, ?_, ?_⟩
    · intro timeoutMs
      simp [Client.pollFiltered, hup, scan_eq, hmatch]
    · simp [List.filter_append, hbefore]

theorem Sound.fifo (h : w.Sound) (stream : Stream) : w.Fifo stream where
  account := h stream
  front _ _ hfirst hup := front_of_pending hfirst hup

end Watched

/-- Over every run whose polls take no event from between two of another stream, the events of each
stream are returned in the order of their arrival, or counted in a gap where they were dropped. -/
theorem fifo_of_run {trace : List (Op δ)} {w : Watched δ} (h : requests.Run InOrder trace w)
    (stream : Stream) : w.Fifo stream := by
  have hsound : w.Sound := by
    refine h.invariant (I := Watched.Sound) ?_ fun s op t hs hok hstep => hs.step hok hstep
    rintro s ⟨connected, rfl⟩ stream
    exact .nil
  exact hsound.fifo stream

/-- A request that reads a trade, an order event and a trade before its reply. -/
def threeArrive : Op Nat :=
  .rpc none "30.0" [.event (.data .lastTrade 1), .event (.data .orderNotification 2),
    .event (.data .lastTrade 3), .reply 1 (some "ack")]

theorem fifo_threeArrive : ∃ w, requests.Run InOrder
      [.connect, threeArrive, .poll .ticker 0 [], .poll .order 0 [], .poll .ticker 0 []] w ∧
    w.returned .ticker = [.data .lastTrade 1, .data .lastTrade 3] ∧ w.Fifo .ticker := by
  have hrun : ∃ w, requests.exec InOrder { client := {} }
      [.connect, threeArrive, .poll .ticker 0 [], .poll .order 0 [], .poll .ticker 0 []] = some w ∧
      w.returned .ticker = [.data .lastTrade 1, .data .lastTrade 3] := ⟨_, rfl, by decide⟩
  obtain ⟨w, hw, hreturned⟩ := hrun
  have hrun := Machine.run_of_exec (M := requests) ⟨false, rfl⟩ hw
  exact ⟨w, hrun, hreturned, fifo_of_run hrun .ticker⟩

/-- The poll of the order event between the trades turns the first trade behind the second. -/
theorem trades_turned : ∃ w, requests.Run Machine.Free
      [.connect, threeArrive, .poll .order 0 [], .poll .ticker 0 [], .poll .ticker 0 []] w ∧
    w.arrived.filter (on .ticker) = [.data .lastTrade 1, .data .lastTrade 3] ∧
    w.returned .ticker = [.data .lastTrade 3, .data .lastTrade 1] ∧ ¬ w.Fifo .ticker := by
  have hrun : ∃ w, requests.exec Machine.Free { client := {} }
      [.connect, threeArrive, .poll .order 0 [], .poll .ticker 0 [], .poll .ticker 0 []] = some w ∧
      w.arrived.filter (on .ticker) = [.data .lastTrade 1, .data .lastTrade 3] ∧
      w.returned .ticker = [.data .lastTrade 3, .data .lastTrade 1] ∧
      w.client.pending.filter (on .ticker) = [] := ⟨_, rfl, by decide, by decide, by decide⟩
  obtain ⟨w, hw, harrived, hreturned, hpending⟩ := hrun
  refine ⟨w, Machine.run_of_exec (M := requests) ⟨false, rfl⟩ hw, harrived, hreturned, fun h => ?_⟩
  have haccount := h.account
  rw [harrived, hreturned, hpending] at haccount
  have hdata : ∀ n, (.data .lastTrade 3 : Event Nat) ≠ .gap (streamPlant .ticker) n := by
    intro n hn
    cases hn
  rw [← List.nil_append ([_, _] ++ []), List.cons_append] at haccount
  obtain ⟨xs, ys, hsplit, hxs, -⟩ := haccount.split hdata
  rw [hxs.eq_nil] at hsplit
  cases hsplit

end RithmicNt.Gateway.PyClient
