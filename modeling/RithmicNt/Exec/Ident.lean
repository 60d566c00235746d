import RithmicNt.Exec.Text

/-! Instrument ids.  The exchange rides inside the symbol component (`NQU6-CME.RITHMIC`), so that
one symbol on two exchanges never shares an id. -/

namespace RithmicNt.Exec

inductive IdentError
  | forbiddenChar (label value : String)
  | emptySymbol
  | missingVenue (venueSuffix raw : String)
  | emptyComponent (raw : String)
  | badHyphenEncoding (raw : String)
  deriving DecidableEq, Repr

def isSafe (value : String) : Bool :=
  value.toList.all fun c => c != '-' && c != '.'

def requireSafe (value label : String) : Except IdentError String :=
  if isSafe value then .ok value else .error (.forbiddenChar label value)

def exchangeOf (exchange : Option String) : Option String :=
  (exchange.map trim).filter fun e => e ≠ ""

/-- `NQU6-CME.RITHMIC` when an exchange is present, else `NQU6.RITHMIC`. -/
def instrumentId (upper : Char → List Char) (symbol : String) (exchange : Option String)
    (venue : String) : Except IdentError String := do
  let sym ← requireSafe (trim symbol) "symbol"
  if sym = "" then .error .emptySymbol
  else match exchangeOf exchange with
    | some exchange => do
      let exch ← requireSafe (toUppercase upper exchange) "exchange"
      .ok (sym ++ "-" ++ exch ++ "." ++ venue)
    | none => .ok (sym ++ "." ++ venue)

def stripSuffix? (text suffix : String) : Option String :=
  if suffix.toList.isSuffixOf text.toList then
    some (String.ofList (text.toList.take (text.length - suffix.length)))
  else none

/-- Reverse of `instrumentId`: the symbol and the exchange. -/
def splitInstrumentId (upper : Char → List Char) (id venue : String) :
    Except IdentError (String × Option String) :=
  let raw := trim id
  let venueSuffix := "." ++ venue
  match stripSuffix? raw venueSuffix with
  | none => .error (.missingVenue venueSuffix raw)
  | some symExch =>
    if symExch = "" then .error (.emptyComponent raw)
    else
      let sym := String.ofList (symExch.toList.takeWhile (· != '-'))
      match symExch.toList.dropWhile (· != '-') with
      | [] => (requireSafe symExch "symbol").map fun sym => (sym, none)
      | _ :: exch =>
        if sym = "" ∨ exch = [] then .error (.badHyphenEncoding raw)
        else if sym.toList.contains '.' then .error (.forbiddenChar "symbol" sym)
        else (requireSafe (toUppercase upper (String.ofList exch)) "exchange").map
          fun exch => (sym, some exch)

/-- The symbol that an id starts with. -/
def symbolOf (id : String) : String :=
  String.ofList (id.toList.takeWhile fun c => c != '-' && c != '.')

theorem takeWhile_append_cons {p : Char → Bool} {l rest : List Char} {c : Char}
    (hl : l.all p = true) (hc : p c = false) : (l ++ c :: rest).takeWhile p = l := by
  induction l with
  | nil => simp [hc]
  | cons a l ih =>
    simp only [List.all_cons, Bool.and_eq_true] at hl
    simp [hl.1, ih hl.2]

/-- An id starts with the trimmed symbol it was built from. -/
theorem symbolOf_instrumentId {upper : Char → List Char} {symbol : String}
    {exchange : Option String} {venue id : String}
    (h : instrumentId upper symbol exchange venue = .ok id) : symbolOf id = trim symbol := by
  unfold instrumentId requireSafe at h
  split at h
  · next hsafe =>
    have hstart : ∀ (c : Char) (rest : List Char), c = '-' ∨ c = '.' →
        id.toList = (trim symbol).toList ++ c :: rest → symbolOf id = trim symbol := by
      intro c rest hc hid
      unfold symbolOf
      rw [hid, takeWhile_append_cons hsafe, String.ofList_toList]
      rcases hc with rfl | rfl <;> rfl
    simp only [bind, Except.bind] at h
    split at h
    · cases h
    · split at h
      · split at h
        · cases h
        · next exch _ =>
          obtain rfl := Except.ok.inj h
          exact hstart '-' (exch.toList ++ '.' :: venue.toList) (.inl rfl) (by simp)
      · obtain rfl := Except.ok.inj h
        exact hstart '.' venue.toList (.inr rfl) (by simp)
  · cases h

example : splitInstrumentId asciiUpper "NQU6-cme.RITHMIC" "RITHMIC" = .ok ("NQU6", some "CME") := by
  decide

example : instrumentId asciiUpper " NQU6 " (some "cme") "RITHMIC" = .ok "NQU6-CME.RITHMIC" := by
  decide

end RithmicNt.Exec
