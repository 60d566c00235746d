import RithmicNt.Exec.Drain
import RithmicNt.Gateway.Failures

/-! The reply to a fill-history request.  An error frame anywhere fails the reply, and a reply as long as
the venue's cap is refused, since the venue may have cut it short. -/

namespace RithmicNt.Plants.FillReplies

open RithmicNt.Exec RithmicNt.Gateway.Failures

/-- `FillHistoryDto`, whose fields are those of `ResponseShowFillHistory`; prices as the bits of an
`f64`. -/
structure FillHistory where
  accountId : Option String := none
  basketId : Option String := none
  symbol : Option String := none
  exchange : Option String := none
  transactionType : Option String := none
  priceType : Option String := none
  duration : Option String := none
  manualOrAuto : Option String := none
  fillId : Option String := none
  fillDate : Option String := none
  fillTime : Option String := none
  fillPrice : Option UInt64 := none
  fillSize : Option Nat := none
  price : Option UInt64 := none
  triggerPrice : Option UInt64 := none
  ssboe : Option Int := none
  usecs : Option Int := none
  deriving DecidableEq, Repr

inductive Message
  | responseShowFillHistory (m : FillHistory)
  | other
  deriving DecidableEq, Repr

/-- `RithmicResponse`, with the text of its error. -/
structure Response where
  error : Option String
  message : Message
  deriving DecidableEq, Repr

/-- The terminal response carries no fill: rows without a fill id are skipped. -/
def fillHistoryFromMessage (m : FillHistory) : Option FillHistory :=
  if m.fillId.isSome then some m else none

def fillHistoryFromResponse (resp : Response) : Option FillHistory :=
  match resp.message with
  | .responseShowFillHistory m => fillHistoryFromMessage m
  | .other => none

/-! ### The rows of a reply -/

def partialReply : String := "partial reply"

section

variable {T : Type} (parse : Response → Option T)

/-- The loop body of `collect_history_rows`, on its rows and its first error. -/
def collectStep (acc : List T × Option String) (resp : Response) : List T × Option String :=
  match resp.error with
  | some err => (acc.1, if acc.2.isNone then some err else acc.2)
  | none =>
    match parse resp with
    | some row => (acc.1 ++ [row], acc.2)
    | none => acc

/-- Rows of a reply of many frames; the text of a partial reply says so. -/
def collectHistoryRows (responses : List Response) (ctx : String) : Except Error (List T) :=
  match responses.foldl (collectStep parse) ([], none) with
  | (rows, none) => .ok rows
  | ([], some err) => .error (.rithmic (ctx ++ ": " ++ err))
  | (rows, some err) => .error (.rithmic (ctx ++ ": " ++ partialReply ++ " after " ++
      toString rows.length ++ " rows: " ++ err))

/-- The rows of the frames that carry no error, in order. -/
def parsedRows (responses : List Response) : List T :=
  (responses.filter (·.error.isNone)).filterMap parse

theorem foldl_collectStep (responses : List Response) (rows : List T) (err : Option String) :
    responses.foldl (collectStep parse) (rows, err) =
      (rows ++ parsedRows parse responses, err.or (responses.findSome? (·.error))) := by
  induction responses generalizing rows err with
  | nil => simp [parsedRows]
  | cons resp responses ih =>
    rw [List.foldl_cons]
    cases herr : resp.error with
    | some text =>
      have hstep : collectStep parse (rows, err) resp = (rows, err.or (some text)) := by
        cases err <;> simp [collectStep, herr]
      rw [hstep, ih]
      simp [parsedRows, herr]
    | none =>
      cases hrow : parse resp with
      | some row =>
        have hstep : collectStep parse (rows, err) resp = (rows ++ [row], err) := by
          simp [collectStep, herr, hrow]
        rw [hstep, ih]
        simp [parsedRows, herr, hrow]
      | none =>
        have hstep : collectStep parse (rows, err) resp = (rows, err) := by
          simp [collectStep, herr, hrow]
        rw [hstep, ih]
        simp [parsedRows, herr, hrow]

/-- What `collect_history_rows` gives: the rows, an error, or a partial reply. -/
theorem collectHistoryRows_cases (responses : List Response) (ctx : String) :
    ((∀ resp ∈ responses, resp.error = none) ∧
      collectHistoryRows parse responses ctx = .ok (parsedRows parse responses)) ∨
    ((∃ resp ∈ responses, resp.error ≠ none) ∧ parsedRows parse responses = [] ∧
      ∃ text, collectHistoryRows parse responses ctx = .error (.rithmic text)) ∨
    ((∃ resp ∈ responses, resp.error ≠ none) ∧ parsedRows parse responses ≠ [] ∧
      ∃ after, collectHistoryRows parse responses ctx =
        .error (.rithmic (ctx ++ ": " ++ partialReply ++ after))) := by
  unfold collectHistoryRows
  rw [foldl_collectStep, List.nil_append, Option.none_or]
  cases herr : responses.findSome? (·.error) with
  | none =>
    refine .inl ⟨fun resp hresp => ?_, rfl⟩
    exact List.findSome?_eq_none_iff.mp herr resp hresp
  | some err =>
    have hsome : ∃ resp ∈ responses, resp.error ≠ none := by
      obtain ⟨resp, hresp, htext⟩ := List.exists_of_findSome?_eq_some herr
      exact ⟨resp, hresp, by simp [htext]⟩
    cases hrows : parsedRows parse responses with
    | nil => exact .inr (.inl ⟨hsome, rfl, _, rfl⟩)
    | cons row rows =>
      refine .inr (.inr ⟨hsome, by simp,
        " after " ++ toString (row :: rows).length ++ " rows: " ++ err, ?_⟩)
      simp only [String.append_assoc]

end

/-! ### The load -/

def isPartialReply : Error → Bool
  | .rithmic text => hasPart text partialReply
  | _ => false

def fillHistoryMaxRecords : Nat := 10000

/-- A count at the venue's cap means that the reply may be incomplete. -/
def checkFillHistoryCap (rowCount : Nat) : Except Error Unit :=
  if rowCount ≥ fillHistoryMaxRecords then
    .error (.reconciliationUnavailable ("fill history reached the " ++ toString fillHistoryMaxRecords ++
      "-row venue cap; split the trade-date range and retry"))
  else .ok ()

/-- `load_fill_history_on`: `reply` is what the request of the plant gives. -/
def loadFillHistoryOn (reply : Except String (List Response)) : Except Error (List FillHistory) := do
  let responses ← reply.mapError .rithmic
  let rows ← (collectHistoryRows fillHistoryFromResponse responses "load_fill_history").mapError
    fun e => if isPartialReply e then .reconciliationUnavailable e.text else e
  checkFillHistoryCap rows.length
  return rows

/-- The load by the three cases of its rows. -/
theorem loadFillHistoryOn_ok {responses : List Response} {rows : List FillHistory}
    (h : collectHistoryRows fillHistoryFromResponse responses "load_fill_history" = .ok rows) :
    loadFillHistoryOn (.ok responses) =
      if rows.length < fillHistoryMaxRecords then .ok rows
      else .error (.reconciliationUnavailable ("fill history reached the " ++
        toString fillHistoryMaxRecords ++ "-row venue cap; split the trade-date range and retry")) := by
  unfold loadFillHistoryOn checkFillHistoryCap
  simp only [Except.mapError, bind, Except.bind, pure, Except.pure, h]
  by_cases hcap : rows.length < fillHistoryMaxRecords
  · rw [if_neg (by omega), if_pos hcap]
  · rw [if_pos (by omega), if_neg hcap]

theorem loadFillHistoryOn_error {responses : List Response} {e : Error}
    (h : collectHistoryRows fillHistoryFromResponse responses "load_fill_history" = .error e) :
    loadFillHistoryOn (.ok responses) =
      .error (if isPartialReply e then .reconciliationUnavailable e.text else e) := by
  unfold loadFillHistoryOn
  simp only [Except.mapError, bind, Except.bind, h]

/-- A fill-history reply is complete or refused: rows come only from a reply without an error and below the
cap, and then all of them; an error after rows and a full reply leave the reconciliation unavailable. -/
theorem loadFillHistoryOn_complete (responses : List Response) :
    (∀ rows, loadFillHistoryOn (.ok responses) = .ok rows ↔
      (∀ resp ∈ responses, resp.error = none) ∧
        (parsedRows fillHistoryFromResponse responses).length < fillHistoryMaxRecords ∧
        rows = parsedRows fillHistoryFromResponse responses) ∧
    ((∃ resp ∈ responses, resp.error ≠ none) →
      parsedRows fillHistoryFromResponse responses ≠ [] →
      ∃ text, loadFillHistoryOn (.ok responses) = .error (.reconciliationUnavailable text)) ∧
    (fillHistoryMaxRecords ≤ (parsedRows fillHistoryFromResponse responses).length →
      ∃ text, loadFillHistoryOn (.ok responses) = .error (.reconciliationUnavailable text)) ∧
    ((∃ resp ∈ responses, resp.error ≠ none) →
      parsedRows fillHistoryFromResponse responses = [] →
      ∃ e, loadFillHistoryOn (.ok responses) = .error e) := by
  have hclash : (∀ resp ∈ responses, resp.error = none) →
      ¬ ∃ resp ∈ responses, resp.error ≠ none :=
    fun hall ⟨resp, hresp, hne⟩ => hne (hall resp hresp)
  rcases collectHistoryRows_cases fillHistoryFromResponse responses "load_fill_history" with
    ⟨hall, hrows⟩ | ⟨hsome, hnil, text, hrows⟩ | ⟨hsome, hne, after, hrows⟩
  · rw [loadFillHistoryOn_ok hrows]
    refine ⟨fun rows => ?_, fun h => absurd h (hclash hall), fun hcap => ?_,
      fun h => absurd h (hclash hall)⟩
    · constructor
      · intro h
        split at h
        · next hcap => exact ⟨hall, hcap, (Except.ok.inj h).symm⟩
        · cases h
      · rintro ⟨-, hcap, rfl⟩
        rw [if_pos hcap]
    · rw [if_neg (by omega)]
      exact ⟨_, rfl⟩
  · rw [loadFillHistoryOn_error hrows]
    refine ⟨fun rows => ?_, fun _ hne => absurd hnil hne, fun hcap => ?_, fun _ _ => ⟨_, rfl⟩⟩
    · exact ⟨nofun, fun h => absurd hsome (hclash h.1)⟩
    · rw [hnil] at hcap
      simp [fillHistoryMaxRecords] at hcap
  · have hpartial : isPartialReply
        (.rithmic ("load_fill_history" ++ ": " ++ partialReply ++ after)) = true :=
      hasPart_append ("load_fill_history" ++ ": ") partialReply after
    rw [loadFillHistoryOn_error hrows, hpartial, if_pos rfl]
    refine ⟨fun rows => ?_, fun _ _ => ⟨_, rfl⟩, fun _ => ⟨_, rfl⟩, fun _ hnil => absurd hnil hne⟩
    exact ⟨nofun, fun h => absurd hsome (hclash h.1)⟩

end RithmicNt.Plants.FillReplies
