import Mathlib.Algebra.Order.Floor.Ring
import Mathlib.Tactic.Linarith
import Mathlib.Tactic.Ring
import Mathlib.Tactic.FieldSimp

/-! Rounding to the nearest integer, a midpoint to the even one of its neighbours. -/

namespace RithmicNt.Lib

variable {α : Type*} [Field α] [LinearOrder α] [IsStrictOrderedRing α] [FloorRing α]

def roundHalfEven (x : α) : Int :=
  if x - ⌊x⌋ < 1 / 2 then ⌊x⌋
  else if 1 / 2 < x - ⌊x⌋ then ⌊x⌋ + 1
  else if ⌊x⌋ % 2 = 0 then ⌊x⌋ else ⌊x⌋ + 1

@[simp]
theorem roundHalfEven_intCast (n : Int) : roundHalfEven (n : α) = n := by
  simp [roundHalfEven]

/-- One half goes to zero; what is above it does not. -/
theorem roundHalfEven_pos_iff {x : α} : 0 < roundHalfEven x ↔ 1 / 2 < x := by
  have hle := Int.floor_le x
  have hlt := Int.lt_floor_add_one x
  rcases lt_trichotomy ⌊x⌋ 0 with hneg | hzero | hpos
  · have hbelow : (⌊x⌋ : α) + 1 ≤ 0 := by exact_mod_cast hneg
    refine iff_of_false ?_ (by linarith)
    unfold roundHalfEven
    split_ifs <;> omega
  · have hfloor : (⌊x⌋ : α) = 0 := by exact_mod_cast hzero
    unfold roundHalfEven
    rw [hfloor, hzero, sub_zero]
    split_ifs with hunder hover heven
    · exact iff_of_false (lt_irrefl 0) (by linarith)
    · exact iff_of_true one_pos hover
    · exact iff_of_false (lt_irrefl 0) hover
    · exact absurd rfl heven
  · have habove : (1 : α) ≤ ⌊x⌋ := by exact_mod_cast hpos
    refine iff_of_true ?_ (by linarith)
    unfold roundHalfEven
    split_ifs <;> omega

end RithmicNt.Lib
