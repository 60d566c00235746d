import Mathlib.Data.List.Basic

/-! Machines whose steps are events: each event, in each state, either cannot happen or leads to
one state.  A run is a list of events from a start state; `Run ok` is a run in which every event
met the condition `ok` in the state it was taken from. -/

namespace RithmicNt.Lib

/-- The states a machine may start in, and the state after an event, `none` where the event cannot
happen. -/
structure Machine (σ ι : Type*) where
  Start : σ → Prop
  step : σ → ι → Option σ

namespace Machine

variable {σ ι : Type*} (M : Machine σ ι)

/-- `M.Run ok trace s`: the events of `trace` lead from a start state to `s`, and each of them met
`ok` in the state it was taken from. -/
inductive Run (ok : σ → ι → Prop) : List ι → σ → Prop
  | start {s : σ} : M.Start s → Run ok [] s
  | next {trace : List ι} {s t : σ} {a : ι} : Run ok trace s → ok s a → M.step s a = some t →
      Run ok (trace ++ [a]) t

/-- Every run, with no condition on its events. -/
abbrev Free : σ → ι → Prop := fun _ _ => True

/-- The state after the events of a list, taken in order from `s`; `none` where one of them cannot
happen or does not meet `ok`. -/
def exec (ok : σ → ι → Prop) [∀ s a, Decidable (ok s a)] : σ → List ι → Option σ
  | s, [] => some s
  | s, a :: rest => if ok s a then (M.step s a).bind fun t => exec ok t rest else none

variable {M} {ok : σ → ι → Prop}

/-- What holds in every start state and is kept by every allowed step holds after every run. -/
theorem Run.invariant {I : σ → Prop} (hStart : ∀ s, M.Start s → I s)
    (hStep : ∀ s a t, I s → ok s a → M.step s a = some t → I t) {trace : List ι} {s : σ}
    (h : M.Run ok trace s) : I s := by
  induction h with
  | start hs => exact hStart _ hs
  | next _ hok hstep ih => exact hStep _ _ _ ih hok hstep

theorem Run.mono {ok' : σ → ι → Prop} (hle : ∀ s a, ok s a → ok' s a) {trace : List ι} {s : σ}
    (h : M.Run ok trace s) : M.Run ok' trace s := by
  induction h with
  | start hs => exact .start hs
  | next _ hok hstep ih => exact .next ih (hle _ _ hok) hstep

theorem Run.append_exec [∀ s a, Decidable (ok s a)] {trace rest : List ι} {s t : σ}
    (h : M.Run ok trace s) (he : M.exec ok s rest = some t) : M.Run ok (trace ++ rest) t := by
  induction rest generalizing trace s with
  | nil =>
    simp only [exec, Option.some.injEq] at he
    simpa [he] using h
  | cons a rest ih =>
    simp only [exec] at he
    split at he
    · next hok =>
      obtain ⟨u, hu, hrest⟩ := Option.bind_eq_some_iff.mp he
      have := ih (.next h hok hu) hrest
      simpa using this
    · cases he

/-- The events of a list that lead somewhere from a start state are a run. -/
theorem run_of_exec [∀ s a, Decidable (ok s a)] {s t : σ} {trace : List ι} (hs : M.Start s)
    (he : M.exec ok s trace = some t) : M.Run ok trace t := by
  simpa using Run.append_exec (Run.start hs) he

end Machine

end RithmicNt.Lib
