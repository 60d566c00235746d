import Mathlib.Data.List.Basic

/-! When an order is finished and may leave the working set.  An order whose unfilled size is unknown
stays working. -/

namespace RithmicNt.Exec

/-- How the adapter's status mapping classifies an order row. -/
inductive StatusClass
  | working
  /-- Every `filled` row, partial or not. -/
  | filled
  | otherTerminal
  deriving DecidableEq, Repr

/-- A fill counts only when it is provably complete: the unfilled size is zero, or, when that is
unknown, the total filled covers a positive quantity. -/
def orderIsGone (status : StatusClass) (unfilled quantity totalFill : Option Int) : Bool :=
  match status with
  | .working => false
  | .otherTerminal => true
  | .filled =>
    match unfilled with
    | some unfilled => unfilled ≤ 0
    | none =>
      match quantity, totalFill with
      | some q, some f => q > 0 && f ≥ q
      | _, _ => false

end RithmicNt.Exec
