import RithmicNt.Adapter.BarRuns
import RithmicNt.Lib.Results
import RithmicNt.Lib.StableSort

/-! Bar history requests beside the live bars of the data client: what a request is answered with, and
the seam between its bars and the live ones. -/

namespace RithmicNt.Adapter.BarHydration

open RithmicNt.Lib RithmicNt.Lib.StableSort RithmicNt.Adapter.Bars

/-- A bar with its `ts_event`; the prices and the volume are in `content`. -/
structure Bar (β : Type) where
  ts : Int
  content : β
  deriving DecidableEq, Repr

/-- The `bar_type` of a row: a number, a text with the number that it is, or something else. -/
inductive WireType
  | number (n : Int)
  | text (raw : String) (n : Option Int)
  | other (repr : String)
  deriving DecidableEq, Repr

def WireType.rtype : WireType → Int
  | .number n => n
  | .text _ n => n.getD (-1)
  | .other _ => -1

/-- A row of the venue's history.  `bar` is its close and its content, `none` where these do not
convert. -/
structure Row (β : Type) where
  symbol : Option String := none
  exchange : Option String := none
  barType : Option WireType := none
  bar : Option (Int × β)
  deriving DecidableEq, Repr

inductive Mismatch
  | symbol (raw expected : String)
  | exchange (raw expected : String)
  | barType (raw : WireType) (expected : Int)
  deriving DecidableEq, Repr

/-- `RequestBars`: `endNs` is its end, `none` where it lacks a start or an end; no `limit` is 0. -/
structure Request where
  barType : BarType
  endNs : Option Int
  limit : Nat := 0
  deriving DecidableEq, Repr

/-- A request that waits for the session. -/
structure Pending where
  barType : BarType
  endNs : Int
  limit : Nat
  symbol : String
  exchange : String
  rtype : Int
  deadline : Int
  deriving DecidableEq, Repr

/-- What a load came to.  `precise`: the instrument of the bar type is in the cache. -/
inductive Answer (β : Type)
  | denied
  | failed
  | rows (precise : Bool) (rows : List (Row β))
  deriving DecidableEq, Repr

inductive Tag
  | hydrateBlockedLiveMd
  | historyError
  deriving DecidableEq, Repr

/-- What the engine is given: a live bar, with the bar types it was offered to and those it was handed
on for, or the answer to a request. -/
inductive Entry (β : Type)
  | live (offered delivered : Finset BarType) (close : Int) (content : β)
  | history (n : Nat) (asked : Request) (bars : List (Bar β))

/-- `calls` are the subscriptions and unsubscriptions that wait for the session. -/
structure Desk (β : Type) where
  client : Client := {}
  calls : Nat → Option Place := fun _ => none
  asked : Finset Nat := ∅
  pending : Nat → Option Pending := fun _ => none
  errors : List (Nat × Tag) := []
  log : List (Entry β) := []

inductive Op (β : Type)
  | subscribe (n : Nat) (b : BarType)
  | unsubscribe (n : Nat) (b : BarType)
  | resume (n : Nat) (session : Option String)
  | bar (e : TimeBar) (content : β)
  | request (n : Nat) (q : Request) (now : Int)
  | answer (n : Nat) (a : Answer β) (now : Int)
  | requestBarsError (n : Nat)

def Pending.request (p : Pending) : Request := ⟨p.barType, some p.endNs, p.limit⟩

section Conversion

variable {β : Type}

def validateHistoryIdentity (row : Row β) (symbol exchange : String) (expected : Int) :
    Except Mismatch Unit := do
  if let some raw := row.symbol then
    if raw ≠ symbol then throw (.symbol raw symbol)
  if let some raw := row.exchange then
    if raw ≠ exchange then throw (.exchange raw exchange)
  if let some raw := row.barType then
    if raw.rtype ≠ expected then throw (.barType raw expected)

/-- A row that does not convert is skipped; one of another contract or timeframe fails the whole. -/
def payloadsToBars (onClose : Bool) (p : Pending) (rows : List (Row β)) :
    Except Mismatch (List (Bar β)) := do
  let bars ← rows.mapM fun row => do
    validateHistoryIdentity row p.symbol p.exchange p.rtype
    return row.bar.map fun (close, content) => ⟨Client.stamp onClose p.barType close, content⟩
  return sortByKey Bar.ts bars.reduceOption

/-- The period of a bar whose marker is a date. -/
def calendarNs (b : BarType) : Int :=
  (if b.aggregation = .week then 7 else 1) * max 1 b.step * (86400 * 1000000000)

def isClosed (onClose : Bool) (b : BarType) (endNs : Int) (bar : Bar β) : Bool :=
  if b.durationNs ≠ 0 ∧ onClose then bar.ts ≤ endNs
  else if b.durationNs = 0 then bar.ts + calendarNs b ≤ endNs
  else bar.ts + b.durationNs ≤ endNs

def closedBars (onClose : Bool) (bars : List (Bar β)) (b : BarType) (endNs : Int) : List (Bar β) :=
  bars.filter (isClosed onClose b endNs)

/-- `bars[-limit:]`, where there is a limit. -/
def lastBars (limit : Nat) (bars : List (Bar β)) : List (Bar β) :=
  if limit = 0 then bars else bars.drop (bars.length - limit)

/-- The bars that are given to the engine raise the mark of their bar type. -/
def noteBars (c : Client) (b : BarType) (bars : List (Bar β)) : Client :=
  bars.foldl (fun c bar => c.note b bar.ts) c

end Conversion

def maxRequestBarsErrors : Nat := 256

/-- `_note_request_bars_error`: a tag noted again stays in its place. -/
def noteError (errors : List (Nat × Tag)) (n : Nat) (tag : Tag) : List (Nat × Tag) :=
  let noted :=
    if errors.any (·.1 = n) then errors.map fun e => if e.1 = n then (n, tag) else e
    else errors ++ [(n, tag)]
  noted.drop (noted.length - maxRequestBarsErrors)

section Desk

variable {β : Type} (route : String → Option (String × String)) (onClose : Bool) (wait : Int)

namespace Desk

def handleBars (d : Desk β) (n : Nat) (asked : Request) (bars : List (Bar β)) : Desk β :=
  { d with
    pending := Function.update d.pending n none
    log := d.log ++ [Entry.history n asked bars] }

/-- The bars that a load brought, from the venue's rows. -/
def deliver (d : Desk β) (n : Nat) (p : Pending) (bars : List (Bar β)) : Desk β :=
  let bars := lastBars p.limit (closedBars onClose bars p.barType p.endNs)
  ({ d with client := noteBars d.client p.barType bars }).handleBars n p.request bars

def request (d : Desk β) (n : Nat) (q : Request) (now : Int) : Desk β :=
  let d := { d with asked := insert n d.asked }
  match route q.barType.instrument, barTypeToRithmic q.barType, q.endNs with
  | some (symbol, exchange), .ok (rtype, _), some endNs =>
    { d with
      pending := Function.update d.pending n
        (some ⟨q.barType, endNs, q.limit, symbol, exchange, rtype, now + wait⟩) }
  | _, _, _ => d.handleBars n q []

def answer (d : Desk β) (n : Nat) (p : Pending) (a : Answer β) (now : Int) : Desk β :=
  match a with
  | .denied =>
    if now < p.deadline then d
    else
      ({ d with errors := noteError d.errors n .hydrateBlockedLiveMd }).handleBars n p.request []
  | .failed => ({ d with errors := noteError d.errors n .historyError }).handleBars n p.request []
  | .rows precise rows =>
    if precise then
      match payloadsToBars onClose p rows with
      | .ok bars => d.deliver onClose n p bars
      | .error _ => d.handleBars n p.request []
    else d.handleBars n p.request []

def live (d : Desk β) (e : TimeBar) (content : β) : Desk β :=
  match e.close with
  | none => d
  | some close =>
    { d with
      client := (d.client.dispatch onClose e).1
      log := d.log ++
        [.live (d.client.barTypesForEvent e) (d.client.dispatch onClose e).2 close content] }

/-- Call `n` to its wait, if it has one. -/
def await (d : Desk β) (n : Nat) : Progress → Desk β
  | .waits p => { d with calls := Function.update d.calls n (some p) }
  | .ended _ => d

def step (d : Desk β) : Op β → Option (Desk β)
  | .subscribe n b =>
    if (d.calls n).isSome then none else some (d.await n (Client.subscribeBars route b))
  | .unsubscribe n b =>
    if (d.calls n).isSome then none
    else
      let (client, progress) := d.client.unsubscribeBars route b
      some (({ d with client }).await n progress)
  | .resume n session =>
    (d.calls n).map fun p => { d with
      client := (d.client.resume session p).1
      calls := Function.update d.calls n none }
  | .bar e content => some (d.live onClose e content)
  | .request n q now => if n ∈ d.asked then none else some (d.request route wait n q now)
  | .answer n a now => (d.pending n).map fun p => d.answer onClose n p a now
  | .requestBarsError n => some { d with errors := d.errors.filter (·.1 ≠ n) }

end Desk

def hydration (β : Type) : Machine (Desk β) (Op β) where
  Start d := d = {}
  step := Desk.step route onClose wait

end Desk

/-! ### What the engine is given of one bar type -/

section Streams

variable {β : Type} (onClose : Bool) {route : String → Option (String × String)} {wait : Int}

/-- The bars of a bar type in an entry. -/
def Entry.bars (b : BarType) : Entry β → List (Bar β)
  | .live _ delivered close content =>
    if b ∈ delivered then [⟨Client.stamp onClose b close, content⟩] else []
  | .history _ asked bars => if asked.barType = b then bars else []

/-- The bars of a bar type, in the order in which the engine is given them. -/
def stream (b : BarType) (log : List (Entry β)) : List (Bar β) := log.flatMap (Entry.bars onClose b)

/-- An entry beside those before it: a live bar is handed on for the bar types that have no bar as late
yet, and the bars of an answer are in order, closed when the request ends, and no more than asked for. -/
def Entry.Ok (before : List (Entry β)) : Entry β → Prop
  | .live offered delivered close _ => delivered ⊆ offered ∧ ∀ b ∈ offered,
      0 < Client.stamp onClose b close →
        (b ∈ delivered ↔ ∀ bar ∈ stream onClose b before, bar.ts < Client.stamp onClose b close)
  | .history _ asked bars => bars.Pairwise (fun x y => x.ts ≤ y.ts) ∧
      (0 < asked.limit → bars.length ≤ asked.limit) ∧
      ∀ bar ∈ bars, ∃ endNs, asked.endNs = some endNs ∧ isClosed onClose asked.barType endNs bar

def Entry.answers (n : Nat) : Entry β → Bool
  | .history m _ _ => m = n
  | .live .. => false

structure Sound (d : Desk β) : Prop where
  entries : ∀ before e, before ++ [e] <+: d.log → e.Ok onClose before
  answered : ∀ n, d.log.countP (Entry.answers n) =
    if n ∈ d.asked ∧ d.pending n = none then 1 else 0
  bounded : d.errors.length ≤ maxRequestBarsErrors

/-- The mark of a bar type is that of its latest bar, and not below 0. -/
structure Marked (last : Option Int) (bars : List (Bar β)) : Prop where
  fresh : last = none → bars = []
  above : ∀ m, last = some m → 0 ≤ m ∧ ∀ bar ∈ bars, bar.ts ≤ m
  reached : ∀ m, last = some m → 0 < m → ∃ bar ∈ bars, bar.ts = m

structure Inv (d : Desk β) : Prop extends Sound onClose d where
  marked : ∀ b, Marked (d.client.last b) (stream onClose b d.log)
  asked : ∀ n, d.pending n ≠ none → n ∈ d.asked

variable {onClose} {b : BarType} {last : Option Int} {bars bars' : List (Bar β)}

theorem stream_append (log : List (Entry β)) (e : Entry β) :
    stream onClose b (log ++ [e]) = stream onClose b log ++ e.bars onClose b := by
  simp [stream]

theorem Marked.admits (h : Marked last bars) {ts : Int} (hpos : 0 < ts) :
    last.getD (-1) < ts ↔ ∀ bar ∈ bars, bar.ts < ts := by
  cases last with
  | none =>
    rw [h.fresh rfl]
    simp only [Option.getD_none, List.not_mem_nil, false_implies, implies_true, iff_true]
    omega
  | some m =>
    obtain ⟨hzero, habove⟩ := h.above m rfl
    simp only [Option.getD_some]
    constructor
    · intro hlt bar hbar
      have := habove bar hbar
      omega
    · intro hall
      by_cases hm : 0 < m
      · obtain ⟨bar, hbar, rfl⟩ := h.reached m rfl hm
        exact hall bar hbar
      · omega

theorem Marked.admitted (h : Marked last bars) {bar : Bar β} (hadmits : last.getD (-1) < bar.ts) :
    Marked (some bar.ts) (bars ++ [bar]) := by
  have hle : ∀ x ∈ bars, x.ts ≤ bar.ts := by
    intro x hx
    cases hlast : last with
    | none =>
      rw [h.fresh hlast] at hx
      cases hx
    | some m =>
      have := (h.above m hlast).2 x hx
      rw [hlast] at hadmits
      simp only [Option.getD_some] at hadmits
      omega
  have hzero : 0 ≤ bar.ts := by
    cases hlast : last with
    | none =>
      rw [hlast] at hadmits
      simp only [Option.getD_none] at hadmits
      omega
    | some m =>
      have := (h.above m hlast).1
      rw [hlast] at hadmits
      simp only [Option.getD_some] at hadmits
      omega
  refine ⟨by simp, ?_, ?_⟩
  · rintro m hm
    cases hm
    refine ⟨hzero, fun x hx => ?_⟩
    rcases List.mem_append.mp hx with hx | hx
    · exact hle x hx
    · rw [List.mem_singleton.mp hx]
  · rintro m hm -
    cases hm
    exact ⟨bar, by simp, rfl⟩

theorem Marked.note (h : Marked last bars) (bar : Bar β) :
    Marked (some (max (last.getD 0) bar.ts)) (bars ++ [bar]) := by
  have hlast : 0 ≤ last.getD 0 ∧ ∀ x ∈ bars, x.ts ≤ last.getD 0 := by
    cases hl : last with
    | none => simp [h.fresh hl]
    | some m => exact h.above m hl
  refine ⟨by simp, ?_, ?_⟩
  · rintro m hm
    cases hm
    refine ⟨by omega, fun x hx => ?_⟩
    rcases List.mem_append.mp hx with hx | hx
    · have := hlast.2 x hx
      omega
    · rw [List.mem_singleton.mp hx]
      omega
  · rintro m hm hpos
    cases hm
    by_cases hle : last.getD 0 ≤ bar.ts
    · exact ⟨bar, by simp, by omega⟩
    · cases hl : last with
      | none =>
        rw [hl] at hle hpos
        simp only [Option.getD_none] at hle hpos ⊢
        omega
      | some m =>
        rw [hl] at hle hpos
        simp only [Option.getD_some] at hle hpos ⊢
        obtain ⟨x, hx, hxm⟩ := h.reached m hl (by omega)
        exact ⟨x, List.mem_append_left _ hx, by omega⟩

theorem last_noteBars_other (c : Client) (bars : List (Bar β)) {b' : BarType} (hb : b' ≠ b) :
    (noteBars c b bars).last b' = c.last b' := by
  unfold noteBars
  induction bars generalizing c with
  | nil => rfl
  | cons bar rest ih =>
    rw [List.foldl_cons, ih]
    simp [Client.note, hb]

theorem Marked.noteBars {c : Client} (h : Marked (c.last b) bars) (more : List (Bar β)) :
    Marked ((noteBars c b more).last b) (bars ++ more) := by
  unfold BarHydration.noteBars
  induction more generalizing c bars with
  | nil => simpa using h
  | cons bar rest ih =>
    rw [List.foldl_cons, List.append_cons]
    apply ih
    simpa [Client.note] using h.note bar

theorem length_lastBars_le {limit : Nat} (h : 0 < limit) (bars : List (Bar β)) :
    (lastBars limit bars).length ≤ limit := by
  unfold lastBars
  rw [if_neg (by omega), List.length_drop]
  omega

theorem lastBars_sublist (limit : Nat) (bars : List (Bar β)) :
    (lastBars limit bars).Sublist bars := by
  unfold lastBars
  split
  · exact .refl _
  · exact List.drop_sublist _ _

theorem length_noteError_le (errors : List (Nat × Tag)) (n : Nat) (tag : Tag) :
    (noteError errors n tag).length ≤ maxRequestBarsErrors := by
  unfold noteError
  rw [List.length_drop]
  omega

theorem pairwise_payloadsToBars {p : Pending} {rows : List (Row β)}
    (h : payloadsToBars onClose p rows = .ok bars) : bars.Pairwise fun x y => x.ts ≤ y.ts := by
  unfold payloadsToBars at h
  obtain ⟨parsed, -, h⟩ := bind_eq_ok.mp h
  cases h
  exact pairwise_sortByKey Bar.ts _

variable {d d' : Desk β} {n : Nat} {p : Pending}

/-- The log grows by an entry that is as it should be; its bars raise the marks. -/
theorem Inv.log (h : Inv onClose d) {e : Entry β} {client : Client} (hok : e.Ok onClose d.log)
    (hmarked : ∀ b, Marked (client.last b) (stream onClose b d.log ++ e.bars onClose b))
    {pending : Nat → Option Pending} (hpending : ∀ n, pending n ≠ none → n ∈ d.asked)
    (hanswers : ∀ n, d.log.countP (Entry.answers n) + (if e.answers n then 1 else 0) =
      if n ∈ d.asked ∧ pending n = none then 1 else 0) {errors : List (Nat × Tag)}
    (herrors : errors.length ≤ maxRequestBarsErrors) :
    Inv onClose { d with
      client := client, pending := pending, errors := errors, log := d.log ++ [e] } := by
  refine ⟨⟨fun before e' hprefix => ?_, fun n => ?_, herrors⟩, fun b => ?_, hpending⟩
  · rcases List.prefix_concat_iff.mp hprefix with heq | hprefix
    · obtain ⟨rfl, he⟩ := List.append_inj' heq rfl
      cases he
      exact hok
    · exact h.entries before e' hprefix
  · rw [← hanswers n]
    simp [List.countP_append, List.countP_singleton]
  · rw [stream_append]
    exact hmarked b

theorem answers_history (m : Nat) (q : Request) (bars : List (Bar β)) :
    (Entry.history m q bars).answers n = decide (m = n) := rfl

/-- A request is answered with bars that are as they should be. -/
theorem Inv.handleBars (h : Inv onClose d) (hasked : n ∈ d.asked)
    (hopen : d.log.countP (Entry.answers n) = 0) {q : Request}
    (hok : (Entry.history n q bars).Ok onClose d.log) {errors : List (Nat × Tag)}
    (herrors : errors.length ≤ maxRequestBarsErrors) :
    Inv onClose (Desk.handleBars { d with
      client := noteBars d.client q.barType bars, errors := errors } n q bars) := by
  refine h.log hok (fun b => ?_) (fun m hm => ?_) (fun m => ?_) herrors
  · show Marked _ (stream onClose b d.log ++ if q.barType = b then bars else [])
    split
    · next hb =>
      subst hb
      exact (h.marked _).noteBars bars
    · next hb =>
      rw [last_noteBars_other _ _ (Ne.symm hb), List.append_nil]
      exact h.marked b
  · by_cases hmn : m = n
    · rw [hmn]
      exact hasked
    · simp only [Function.update_of_ne hmn] at hm
      exact h.asked m hm
  · rw [answers_history]
    by_cases hmn : m = n
    · subst hmn
      simp [hopen, hasked]
    · simp [Function.update_of_ne hmn, Ne.symm hmn, h.answered m]

theorem Inv.handleNone (h : Inv onClose d) (hasked : n ∈ d.asked)
    (hopen : d.log.countP (Entry.answers n) = 0) (q : Request) {errors : List (Nat × Tag)}
    (herrors : errors.length ≤ maxRequestBarsErrors) :
    Inv onClose (Desk.handleBars { d with errors := errors } n q []) :=
  h.handleBars hasked hopen ⟨.nil, by simp, by simp⟩ herrors

/-- A request waits for the session. -/
theorem Inv.hold (h : Inv onClose d) (hnew : n ∉ d.asked) (p : Pending) :
    Inv onClose { d with
      asked := insert n d.asked, pending := Function.update d.pending n (some p) } := by
  refine ⟨⟨h.entries, fun m => ?_, h.bounded⟩, h.marked, fun m hm => ?_⟩
  · by_cases hmn : m = n
    · subst hmn
      simp [h.answered m, hnew]
    · simp [hmn, h.answered m]
  · by_cases hmn : m = n
    · simp [hmn]
    · simp only [Function.update_of_ne hmn] at hm
      exact Finset.mem_insert_of_mem (h.asked m hm)

theorem Inv.request {q : Request} {now : Int} (h : Inv onClose d) (hnew : n ∉ d.asked) :
    Inv onClose (d.request route wait n q now) := by
  unfold Desk.request
  split
  · exact h.hold hnew _
  · have hwait := h.hold hnew ⟨q.barType, 0, 0, "", "", 0, 0⟩
    have hnone : d.log.countP (Entry.answers n) = 0 := by
      rw [h.answered n, if_neg fun hn => hnew hn.1]
    simpa [Desk.handleBars] using
      hwait.handleNone (Finset.mem_insert_self _ _) hnone q h.bounded

theorem Inv.answer {a : Answer β} {now : Int} (h : Inv onClose d) (hpending : d.pending n = some p) :
    Inv onClose (d.answer onClose n p a now) := by
  have hasked : n ∈ d.asked := h.asked n (by simp [hpending])
  have hnone : d.log.countP (Entry.answers n) = 0 := by
    rw [h.answered n, if_neg (by simp [hpending])]
  cases a with
  | denied =>
    simp only [Desk.answer]
    split
    · exact h
    · exact h.handleNone hasked hnone _ (length_noteError_le _ _ _)
  | failed => exact h.handleNone hasked hnone _ (length_noteError_le _ _ _)
  | rows precise rows =>
    simp only [Desk.answer]
    split
    · split
      · next parsed hparsed =>
        refine h.handleBars hasked hnone (q := p.request) ⟨?_, ?_, ?_⟩ h.bounded
        · exact ((pairwise_payloadsToBars hparsed).filter _).sublist (lastBars_sublist _ _)
        · exact fun hlimit => length_lastBars_le hlimit _
        · intro bar hbar
          exact ⟨p.endNs, rfl, (List.mem_filter.mp ((lastBars_sublist _ _).subset hbar)).2⟩
      · exact h.handleNone hasked hnone _ h.bounded
    · exact h.handleNone hasked hnone _ h.bounded

theorem Inv.live {e : TimeBar} {content : β} (h : Inv onClose d) :
    Inv onClose (d.live onClose e content) := by
  unfold Desk.live
  cases hclose : e.close with
  | none => exact h
  | some close =>
    have hdelivered : ∀ b, b ∈ (d.client.dispatch onClose e).2 ↔
        b ∈ d.client.barTypesForEvent e ∧
          (d.client.last b).getD (-1) < Client.stamp onClose b close := by
      intro b
      simp only [Client.dispatch, hclose]
      exact Finset.mem_filter
    have hlast : ∀ b, (d.client.dispatch onClose e).1.last b =
        if b ∈ (d.client.dispatch onClose e).2 then some (Client.stamp onClose b close)
        else d.client.last b := by
      intro b
      simp [Client.dispatch, hclose]
    have hok : (Entry.live (d.client.barTypesForEvent e) (d.client.dispatch onClose e).2 close
        content).Ok onClose d.log := by
      refine ⟨fun b hb => ((hdelivered b).mp hb).1, fun b hb hpos => ?_⟩
      rw [hdelivered b, and_iff_right hb, (h.marked b).admits hpos]
    refine h.log hok (fun b => ?_) h.asked (fun m => ?_) h.bounded
    · rw [hlast b]
      simp only [Entry.bars]
      split
      · next hb =>
        have hadmits : (d.client.last b).getD (-1) <
            (⟨Client.stamp onClose b close, content⟩ : Bar β).ts := ((hdelivered b).mp hb).2
        exact (h.marked b).admitted hadmits
      · simpa using h.marked b
    · simp [Entry.answers, h.answered m]

theorem Inv.client (h : Inv onClose d) {client : Client} (hlast : client.last = d.client.last) :
    Inv onClose { d with client } :=
  ⟨⟨h.entries, h.answered, h.bounded⟩, fun b => hlast ▸ h.marked b, h.asked⟩

theorem Inv.calls (h : Inv onClose d) {calls : Nat → Option Place} : Inv onClose { d with calls } :=
  ⟨⟨h.entries, h.answered, h.bounded⟩, h.marked, h.asked⟩

theorem Inv.await (h : Inv onClose d) (n : Nat) (progress : Progress) :
    Inv onClose (d.await n progress) := by
  cases progress with
  | waits p => exact h.calls
  | ended raised => exact h

theorem Inv.step {op : Op β} (h : Inv onClose d) (hstep : d.step route onClose wait op = some d') :
    Inv onClose d' := by
  cases op with
  | subscribe n b =>
    simp only [Desk.step] at hstep
    split at hstep <;> cases hstep
    exact h.await n _
  | unsubscribe n b =>
    simp only [Desk.step] at hstep
    split at hstep <;> cases hstep
    exact (h.client (Client.last_unsubscribeBars route d.client b)).await n _
  | resume n session =>
    obtain ⟨p, -, rfl⟩ := Option.map_eq_some_iff.mp hstep
    exact (h.client (Client.last_resume d.client session p)).calls
  | bar e content =>
    cases hstep
    exact h.live
  | request n q now =>
    simp only [Desk.step] at hstep
    split at hstep
    · cases hstep
    · next hnew =>
      cases hstep
      exact h.request hnew
  | answer n a now =>
    obtain ⟨p, hp, rfl⟩ := Option.map_eq_some_iff.mp hstep
    exact h.answer hp
  | requestBarsError n =>
    cases hstep
    exact ⟨⟨h.entries, h.answered, (List.length_filter_le _ _).trans h.bounded⟩, h.marked, h.asked⟩

theorem inv_of_run {trace : List (Op β)}
    (hrun : (hydration route onClose wait β).Run Machine.Free trace d) :
    Inv onClose d := by
  refine hrun.invariant ?_ ?_
  · rintro d rfl
    refine ⟨⟨fun before e hprefix => ?_, by simp, by simp⟩, fun b => ⟨fun _ => rfl, by simp, by simp⟩,
      by simp⟩
    simp at hprefix
  · intro d op d' h _ hstep
    exact h.step hstep

end Streams

end RithmicNt.Adapter.BarHydration
