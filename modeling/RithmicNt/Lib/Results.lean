import Mathlib.Tactic.TypeStar

/-! Results of code that may raise: what a successful `bind` or `map` went through, and which errors a
sequence of calls can end with. -/

namespace RithmicNt.Lib

theorem bind_eq_ok {ε : Type*} {α β : Type} {x : Except ε α} {f : α → Except ε β} {b : β} :
    (x >>= f) = .ok b ↔ ∃ a, x = .ok a ∧ f a = .ok b := by
  cases x with
  | error err => simp [bind, Except.bind]
  | ok a => simp [bind, Except.bind]

theorem map_eq_ok {ε α β : Type*} {x : Except ε α} {f : α → β} {b : β} :
    x.map f = .ok b ↔ ∃ a, x = .ok a ∧ f a = b := by
  cases x with
  | error err => simp [Except.map]
  | ok a => simp [Except.map]

/-- Where it fails, it is with an error that `p` holds of. -/
def FailsWith {ε α : Type*} (p : ε → Prop) (x : Except ε α) : Prop := ∀ e, x = .error e → p e

section

variable {ε : Type*} {p : ε → Prop}

theorem failsWith_ok {α : Type*} (a : α) : FailsWith p (.ok a : Except ε α) := by
  intro e h
  cases h

theorem failsWith_error {α : Type*} {e : ε} (h : p e) : FailsWith p (.error e : Except ε α) := by
  intro e' he
  cases he
  exact h

theorem failsWith_mapError {ε' α : Type*} {f : ε' → ε} (h : ∀ e, p (f e)) (x : Except ε' α) :
    FailsWith p (x.mapError f) := by
  cases x with
  | error e => exact failsWith_error (h e)
  | ok a => exact failsWith_ok a

theorem FailsWith.bind {α β : Type} {x : Except ε α} {f : α → Except ε β} (hx : FailsWith p x)
    (hf : ∀ a, FailsWith p (f a)) : FailsWith p (x >>= f) := by
  cases x with
  | error e => exact failsWith_error (hx e rfl)
  | ok a => exact hf a

theorem failsWith_ite {α : Type*} {c : Prop} [Decidable c] {x y : Except ε α} (hx : FailsWith p x)
    (hy : FailsWith p y) : FailsWith p (if c then x else y) := by
  split
  · exact hx
  · exact hy

end

end RithmicNt.Lib
