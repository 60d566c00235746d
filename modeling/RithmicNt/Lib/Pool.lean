import RithmicNt.Lib.Machine

/-! Threads over one shared state.  A step takes one thread from its place to the next, or starts a
thread; the rule for invariants says what holds of the shared state and, of each thread, what holds
while it is at its place: the steps of the others must keep it. -/

namespace RithmicNt.Lib

/-- The shared state and the place of each thread, under the thread's number. -/
structure Pool (σ π : Type*) where
  shared : σ
  threads : List π := []

inductive Move (κ ι : Type*)
  | spawn (k : κ)
  | run (thread : Nat) (a : ι)

/-- What a thread does from its start to its first place, and from one place to the next; `none`
where it has to wait. -/
structure Program (σ π κ ι : Type*) where
  spawn : Nat → σ → κ → Option (σ × π)
  run : Nat → σ → π → ι → Option (σ × π)

namespace Pool

variable {σ π κ ι : Type*}

/-- `P.At i p`: thread `i` is at place `p`. -/
def At (P : Pool σ π) (i : Nat) (p : π) : Prop := P.threads[i]? = some p

def put (P : Pool σ π) (i : Nat) (r : σ × π) : Pool σ π := ⟨r.1, P.threads.set i r.2⟩

def add (P : Pool σ π) (r : σ × π) : Pool σ π := ⟨r.1, P.threads ++ [r.2]⟩

def step (code : Program σ π κ ι) (P : Pool σ π) : Move κ ι → Option (Pool σ π)
  | .spawn k => (code.spawn P.threads.length P.shared k).map P.add
  | .run i a => P.threads[i]?.bind fun p => (code.run i P.shared p a).map (P.put i)

variable {P Q : Pool σ π} {code : Program σ π κ ι}

/-- Everything that a move can do. -/
theorem step_cases {m : Move κ ι} (h : P.step code m = some Q) :
    (∃ k r, m = .spawn k ∧ code.spawn P.threads.length P.shared k = some r ∧ Q = P.add r) ∨
    ∃ i a p r, m = .run i a ∧ P.At i p ∧ code.run i P.shared p a = some r ∧ Q = P.put i r := by
  cases m with
  | spawn k =>
    obtain ⟨r, hr, rfl⟩ := Option.map_eq_some_iff.mp h
    exact .inl ⟨k, r, rfl, hr, rfl⟩
  | run i a =>
    obtain ⟨p, hp, h⟩ := Option.bind_eq_some_iff.mp h
    obtain ⟨r, hr, rfl⟩ := Option.map_eq_some_iff.mp h
    exact .inr ⟨i, a, p, r, rfl, hp, hr, rfl⟩

theorem at_add {r : σ × π} {j : Nat} {q : π} (h : (P.add r).At j q) :
    P.At j q ∨ j = P.threads.length ∧ q = r.2 := by
  unfold At add at h
  rw [List.getElem?_append] at h
  split at h
  · exact .inl h
  · rw [List.getElem?_singleton] at h
    split at h
    · cases h
      exact .inr ⟨by omega, rfl⟩
    · cases h

theorem at_put {r : σ × π} {i j : Nat} {q : π} (h : (P.put i r).At j q) :
    j ≠ i ∧ P.At j q ∨ j = i ∧ q = r.2 := by
  unfold At put at h
  rw [List.getElem?_set] at h
  split at h
  · next hij =>
    split at h
    · cases h
      exact .inr ⟨hij.symm, rfl⟩
    · cases h
  · next hij => exact .inl ⟨fun e => hij e.symm, h⟩

theorem At.lt_length {i : Nat} {p : π} (h : P.At i p) : i < P.threads.length :=
  (List.getElem?_eq_some_iff.mp h).1

theorem At.mem {i : Nat} {p : π} (h : P.At i p) : p ∈ P.threads := List.mem_of_getElem? h

theorem at_add_iff {r : σ × π} {j : Nat} {q : π} :
    (P.add r).At j q ↔ P.At j q ∨ j = P.threads.length ∧ q = r.2 := by
  refine ⟨at_add, ?_⟩
  rintro (hq | ⟨rfl, rfl⟩)
  · unfold At add
    rw [List.getElem?_append_left hq.lt_length]
    exact hq
  · unfold At add
    rw [List.getElem?_concat_length]

theorem at_put_iff {r : σ × π} {i j : Nat} {p q : π} (hp : P.At i p) :
    (P.put i r).At j q ↔ j ≠ i ∧ P.At j q ∨ j = i ∧ q = r.2 := by
  refine ⟨at_put, ?_⟩
  rintro (⟨hne, hq⟩ | ⟨rfl, rfl⟩)
  · unfold At put
    rw [List.getElem?_set_ne (fun h => hne h.symm)]
    exact hq
  · unfold At put
    rw [List.getElem?_set_self hp.lt_length]

theorem countP_add (P : Pool σ π) (r : σ × π) (f : π → Bool) :
    (P.add r).threads.countP f = P.threads.countP f + if f r.2 then 1 else 0 := by
  simp [add, List.countP_append, List.countP_singleton]

theorem countP_put {r : σ × π} {i : Nat} {p : π} (hp : P.At i p) (f : π → Bool) :
    (P.put i r).threads.countP f + (if f p then 1 else 0) =
      P.threads.countP f + if f r.2 then 1 else 0 := by
  obtain ⟨hi, rfl⟩ := List.getElem?_eq_some_iff.mp hp
  have hle : (if f P.threads[i] then 1 else 0) ≤ P.threads.countP f := by
    split
    · next hf => exact List.countP_pos_iff.mpr ⟨_, List.getElem_mem hi, hf⟩
    · exact Nat.zero_le _
  show (P.threads.set i r.2).countP f + _ = _
  rw [List.countP_set hi]
  omega

/-- `I` holds of the shared state, and `A i p` of it while thread `i` is at `p`. -/
structure Holds (I : σ → Prop) (A : Nat → π → σ → Prop) (P : Pool σ π) : Prop where
  shared : I P.shared
  places : ∀ i p, P.At i p → A i p P.shared

/-- The step of one thread: it establishes what holds at its new place, and keeps `I` and what holds
of the others. -/
structure Keeps (I : σ → Prop) (A : Nat → π → σ → Prop) (P : Pool σ π) (i : Nat) (r : σ × π) :
    Prop where
  shared : I r.1
  own : A i r.2 r.1
  others : ∀ j q, j ≠ i → P.At j q → A j q r.1

section Rule

variable {I : σ → Prop} {A : Nat → π → σ → Prop} {ok : Pool σ π → Move κ ι → Prop}

theorem holds_of_step (hspawn : ∀ k r, code.spawn P.threads.length P.shared k = some r →
      ok P (.spawn k) → P.Keeps I A P.threads.length r)
    (hrun : ∀ i a p r, P.At i p → code.run i P.shared p a = some r →
      ok P (.run i a) → P.Keeps I A i r)
    {m : Move κ ι} (hok : ok P m) (h : P.step code m = some Q) : Q.Holds I A := by
  obtain ⟨k, r, rfl, hr, rfl⟩ | ⟨i, a, p, r, rfl, hp, hr, rfl⟩ := step_cases h
  · obtain ⟨hI, hown, hothers⟩ := hspawn k r hr hok
    refine ⟨hI, ?_⟩
    intro j q hq
    rcases at_add hq with hq | ⟨rfl, rfl⟩
    · exact hothers j q (Nat.ne_of_lt hq.lt_length) hq
    · exact hown
  · obtain ⟨hI, hown, hothers⟩ := hrun i a p r hp hr hok
    refine ⟨hI, ?_⟩
    intro j q hq
    rcases at_put hq with ⟨hne, hq⟩ | ⟨rfl, rfl⟩
    · exact hothers j q hne hq
    · exact hown

end Rule

end Pool

/-- The machine that starts without threads. -/
def Program.machine {σ π κ ι : Type*} (code : Program σ π κ ι) (Start : σ → Prop) :
    Machine (Pool σ π) (Move κ ι) where
  Start P := Start P.shared ∧ P.threads = []
  step := Pool.step code

/-- What the shared state starts with and every thread's step keeps holds after every run. -/
theorem Program.holds_of_run {σ π κ ι : Type*} {code : Program σ π κ ι} {Start : σ → Prop}
    {ok : Pool σ π → Move κ ι → Prop} {I : σ → Prop} {A : Nat → π → σ → Prop}
    (hstart : ∀ s, Start s → I s)
    (hspawn : ∀ P k r, P.Holds I A → code.spawn P.threads.length P.shared k = some r →
      ok P (.spawn k) → P.Keeps I A P.threads.length r)
    (hrun : ∀ P i a p r, P.Holds I A → P.At i p → code.run i P.shared p a = some r →
      ok P (.run i a) → P.Keeps I A i r)
    {trace : List (Move κ ι)} {P : Pool σ π} (h : (code.machine Start).Run ok trace P) :
    P.Holds I A := by
  refine h.invariant (I := Pool.Holds I A) ?_ ?_
  · rintro P ⟨hshared, hthreads⟩
    refine ⟨hstart _ hshared, ?_⟩
    intro i p hp
    simp [Pool.At, hthreads] at hp
  · intro P m Q hP hok hstep
    exact Pool.holds_of_step (hspawn P · · hP) (hrun P · · · · hP) hok hstep

end RithmicNt.Lib
