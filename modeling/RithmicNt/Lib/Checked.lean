import Mathlib.Algebra.Order.Ring.Int

/-! Arithmetic on machine integers with every result checked: a number that its type cannot hold is an
overflow, and what is computed from an overflow is one too. -/

namespace RithmicNt.Lib

/-- A machine integer type, by its least value and the first one past it. -/
structure IntType where
  lo : Int
  hi : Int

namespace IntType

def i32 : IntType := ⟨-2147483648, 2147483648⟩

def i64 : IntType := ⟨-9223372036854775808, 9223372036854775808⟩

def u32 : IntType := ⟨0, 4294967296⟩

def u64 : IntType := ⟨0, 18446744073709551616⟩

def Holds (w : IntType) (v : Int) : Prop := w.lo ≤ v ∧ v < w.hi

instance (w : IntType) (v : Int) : Decidable (w.Holds v) :=
  inferInstanceAs (Decidable (w.lo ≤ v ∧ v < w.hi))

theorem holds_i32 {v : Int} : i32.Holds v ↔ -2147483648 ≤ v ∧ v < 2147483648 := Iff.rfl

theorem holds_i64 {v : Int} :
    i64.Holds v ↔ -9223372036854775808 ≤ v ∧ v < 9223372036854775808 := Iff.rfl

theorem holds_u32 {v : Int} : u32.Holds v ↔ 0 ≤ v ∧ v < 4294967296 := Iff.rfl

theorem holds_u64 {v : Int} : u64.Holds v ↔ 0 ≤ v ∧ v < 18446744073709551616 := Iff.rfl

end IntType

/-- A number of the type `w`. -/
@[ext]
structure Value (w : IntType) where
  val : Int
  holds : w.Holds val

/-- `v` as a number of the type `w`, where it fits. -/
def Value.ofInt (w : IntType) (v : Int) : Option (Value w) := if h : w.Holds v then some ⟨v, h⟩ else none

/-- A result of the type `w`, or an overflow on the way to it. -/
def Checked (w : IntType) : Type := Option (Value w)

namespace Value

theorem ofInt_eq_some_iff {w : IntType} {v : Int} {x : Value w} : ofInt w v = some x ↔ x.val = v := by
  unfold ofInt
  constructor
  · intro h
    split at h
    · rw [← Option.some.inj h]
    · cases h
  · rintro rfl
    exact dif_pos x.holds

end Value

namespace Checked

variable {w : IntType}

def of (w : IntType) (v : Int) : Checked w := Value.ofInt w v

/-- The result of an operation, where both operands are there. -/
def lift (f : Int → Int → Int) (a b : Checked w) : Checked w :=
  Option.bind a fun x => Option.bind b fun y => of w (f x.val y.val)

instance (n : Nat) : OfNat (Checked w) n := ⟨of w (OfNat.ofNat n)⟩

instance : Neg (Checked w) := ⟨fun a => Option.bind a fun x => of w (-x.val)⟩

instance : Add (Checked w) := ⟨lift (· + ·)⟩

instance : Sub (Checked w) := ⟨lift (· - ·)⟩

instance : Mul (Checked w) := ⟨lift (· * ·)⟩

/-- Division towards zero. -/
instance : Div (Checked w) :=
  ⟨fun a b => Option.bind b fun y => if y.val = 0 then none else lift Int.tdiv a (some y)⟩

instance : Mod (Checked w) :=
  ⟨fun a b => Option.bind b fun y => if y.val = 0 then none else lift Int.tmod a (some y)⟩

def divEuclid (a b : Checked w) : Checked w :=
  Option.bind b fun y => if y.val = 0 then none else lift (· / ·) a (some y)

def remEuclid (a b : Checked w) : Checked w :=
  Option.bind b fun y => if y.val = 0 then none else lift (· % ·) a (some y)

/-- A conversion to the type `w'`, an overflow where it does not keep the number. -/
def cast (w' : IntType) (a : Checked w) : Checked w' := Option.bind a fun x => of w' x.val

/-- A conversion that gives nothing where the number does not fit. -/
def tryFrom (w' : IntType) (a : Checked w) : Option (Option (Value w')) :=
  Option.map (fun x => Value.ofInt w' x.val) a

def test (a : Checked w) (p : Int → Prop) [DecidablePred p] : Option Bool :=
  Option.map (fun x => decide (p x.val)) a

/-- `yes` or `no`, by a test on the number of `a`. -/
def choose (a : Checked w) (p : Int → Prop) [DecidablePred p] (yes no : Checked w) : Checked w :=
  Option.bind (test a p) fun b => if b then yes else no

/-! ### Operations on numbers that fit -/

theorem of_eq_some {v : Int} (h : w.Holds v) : of w v = some ⟨v, h⟩ := dif_pos h

section

variable {x y : Int} (hx : w.Holds x) (hy : w.Holds y)

include hx hy

theorem lift_of (f : Int → Int → Int) : lift f (of w x) (of w y) = of w (f x y) := by
  rw [of_eq_some hx, of_eq_some hy]
  rfl

theorem of_add : of w x + of w y = of w (x + y) := lift_of hx hy (· + ·)

theorem of_sub : of w x - of w y = of w (x - y) := lift_of hx hy (· - ·)

theorem of_mul : of w x * of w y = of w (x * y) := lift_of hx hy (· * ·)

/-- On a number that is not negative, division towards zero is that of the integers. -/
theorem of_div (hx0 : 0 ≤ x) (hy0 : 0 < y) : of w x / of w y = of w (x / y) := by
  have hquot : Int.tdiv x y = x / y := Int.tdiv_eq_ediv_of_nonneg hx0
  rw [← hquot, ← lift_of hx hy Int.tdiv, of_eq_some hy]
  exact if_neg (by omega : ¬y = 0)

theorem of_mod (hx0 : 0 ≤ x) (hy0 : 0 < y) : of w x % of w y = of w (x % y) := by
  have hrem : Int.tmod x y = x % y := Int.tmod_eq_emod_of_nonneg hx0
  rw [← hrem, ← lift_of hx hy Int.tmod, of_eq_some hy]
  exact if_neg (by omega : ¬y = 0)

theorem of_divEuclid (hy0 : 0 < y) : divEuclid (of w x) (of w y) = of w (x / y) := by
  rw [← lift_of hx hy (· / ·), of_eq_some hy]
  exact if_neg (by omega : ¬y = 0)

theorem of_remEuclid (hy0 : 0 < y) : remEuclid (of w x) (of w y) = of w (x % y) := by
  rw [← lift_of hx hy (· % ·), of_eq_some hy]
  exact if_neg (by omega : ¬y = 0)

end

section

variable {x : Int} (hx : w.Holds x)

include hx

theorem of_neg : -of w x = of w (-x) := by
  rw [of_eq_some hx]
  rfl

theorem cast_of (w' : IntType) : cast w' (of w x) = of w' x := by
  rw [of_eq_some hx]
  rfl

theorem tryFrom_of (w' : IntType) : tryFrom w' (of w x) = some (of w' x) := by
  rw [of_eq_some hx]
  rfl

theorem test_of (p : Int → Prop) [DecidablePred p] : test (of w x) p = some (decide (p x)) := by
  rw [of_eq_some hx]
  rfl

theorem choose_of (p : Int → Prop) [DecidablePred p] (yes no : Int) :
    choose (of w x) p (of w yes) (of w no) = of w (if p x then yes else no) := by
  rw [choose, test_of hx]
  by_cases hp : p x <;> simp [hp]

end

theorem map_val_of (v : Int) : Option.map Value.val (of w v) = if w.Holds v then some v else none := by
  unfold of Value.ofInt
  by_cases h : w.Holds v <;> simp [h]

theorem ofNat_eq (n : Nat) : (OfNat.ofNat n : Checked w) = of w (OfNat.ofNat n) := rfl

end Checked

end RithmicNt.Lib
