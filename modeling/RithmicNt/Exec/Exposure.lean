import Mathlib.Algebra.Ring.Int.Defs
import RithmicNt.Exec.Text

/-! Venue exposure rules for a product root.  A net of `none` means that the PnL stream has not been
observed since the last reconnect, and `none` open orders that the drain failed: unknown is never
read as zero. -/

namespace RithmicNt.Exec

/-- The PnL plant answers a subscribe with a burst; a drain is proof only once the stream has been
live this long. -/
def pnlSettleNs : Nat := 3000000000

def monthCodes : List Char := ['F', 'G', 'H', 'J', 'K', 'M', 'N', 'Q', 'U', 'V', 'X', 'Z']

section

variable (upper : Char → List Char)

def isAsciiUpperOrDigit (c : Char) : Bool := c.isUpper || c.isDigit

/-- `MNQZ6` gives `MNQ`; a text that is no root, month letter and year of one or two digits is
returned trimmed and in upper case. -/
def productRoot (symbol : String) : String :=
  let sym := toUppercase upper (trim symbol)
  let digits := (sym.toList.reverse.takeWhile Char.isDigit).length
  match sym.toList.reverse.drop digits with
  | letter :: root =>
    if (digits = 1 ∨ digits = 2) ∧ root ≠ [] ∧ letter ∈ monthCodes ∧ root.all isAsciiUpperOrDigit
    then String.ofList root.reverse
    else sym
  | [] => sym

/-- Whether `symbol` belongs to a root: never a prefix match. -/
def matchesRoot (symbol root : String) : Bool :=
  let want := toUppercase upper (trim root)
  want ≠ "" && productRoot upper symbol == want

inductive PositionSide
  | long
  | short
  | flat
  deriving DecidableEq, Repr

/-- One `instrument_pnl` row reduced to what the net needs. -/
structure PositionRow where
  symbol : String
  quantity : Int
  side : PositionSide
  deriving DecidableEq, Repr

def PositionRow.signed (row : PositionRow) : Int :=
  match row.side with
  | .long => row.quantity
  | .short => -row.quantity
  | .flat => 0

/-- Sum of signed quantities over every contract of `root`. -/
def signedNet (rows : List PositionRow) (root : String) : Int :=
  ((rows.filter fun row => matchesRoot upper row.symbol root).map PositionRow.signed).sum

end

/-- Both legs read from the venue, the drain after the PnL burst settled. -/
def exposureComplete (net openOrders pnlTsNs drainTsNs : Option Int) : Bool :=
  match net, openOrders, pnlTsNs, drainTsNs with
  | some _, some _, some pnl, some drain => decide (drain - pnl ≥ pnlSettleNs)
  | _, _, _, _ => false

example : productRoot asciiUpper " mnqz6 " = "MNQ" ∧ productRoot asciiUpper "ESZ123" = "ESZ123" ∧
    matchesRoot asciiUpper "ESTX6" "ES" = false := by
  decide

end RithmicNt.Exec
