import RithmicNt.Plants.History

/-! The cuts of a history window and the requests for one slice, as loops.  The window is cut with 32-bit
numbers in the Rust crates and with unbounded ones in the Python client; a slice is requested until an
answer settles it. -/

namespace RithmicNt.Plants.History

/-! ### The cuts of a window -/

/-- `i32::checked_add`. -/
def checkedAdd (a b : Int32) : Option Int32 :=
  if -2 ^ 31 ≤ a.toInt + b.toInt ∧ a.toInt + b.toInt < 2 ^ 31 then some (a + b) else none

def nextCut32 (stop step cur : Int32) : Int32 :=
  match checkedAdd cur step with
  | some v => if v < stop then v else stop
  | none => stop

theorem checkedAdd_toInt (a b : Int32) (h : -2 ^ 31 ≤ a.toInt + b.toInt)
    (h' : a.toInt + b.toInt < 2 ^ 31) : (a + b).toInt = a.toInt + b.toInt := by
  rw [Int32.toInt_add]
  apply Int.bmod_eq_of_le <;> omega

/-- The 32-bit cut is the cut over the integers: no addition wraps. -/
theorem nextCut32_toInt {stop step cur : Int32} (hstep : 1 ≤ step) :
    (nextCut32 stop step cur).toInt = nextCut stop.toInt step.toInt cur.toInt := by
  have hstep : 1 ≤ step.toInt := Int32.le_iff_toInt_le.mp hstep
  have hlow := cur.le_toInt
  unfold nextCut32 checkedAdd nextCut
  by_cases hfits : cur.toInt + step.toInt < 2 ^ 31
  · have hsum := checkedAdd_toInt cur step (by omega) hfits
    rw [if_pos ⟨by omega, hfits⟩]
    by_cases hlt : cur + step < stop
    · have hlt' := Int32.lt_iff_toInt_lt.mp hlt
      simp only [if_pos hlt]
      rw [if_pos (by omega), hsum]
    · have hlt' := mt Int32.lt_iff_toInt_lt.mpr hlt
      simp only [if_neg hlt]
      rw [if_neg (by omega)]
  · rw [if_neg (by omega), if_neg (by omega)]

/-- The loop of `window_slices` in the Rust crates. -/
def slicesFrom32 (stop step : Int32) (hstep : 1 ≤ step) (cur : Int32) : List (Int32 × Int32) :=
  if cur ≤ stop then
    (cur, nextCut32 stop step cur) ::
      if stop ≤ nextCut32 stop step cur then []
      else slicesFrom32 stop step hstep (nextCut32 stop step cur)
  else []
termination_by (stop.toInt - cur.toInt).toNat
decreasing_by
  next hcur hnext =>
    have hstep' : 1 ≤ step.toInt := Int32.le_iff_toInt_le.mp hstep
    rw [Int32.le_iff_toInt_le] at hcur hnext
    rw [nextCut32_toInt hstep] at hnext ⊢
    have := nextCut_cases stop.toInt step.toInt cur.toInt
    omega

def windowSlices32 (start stop step : Int32) : List (Int32 × Int32) :=
  if h : start ≤ stop ∧ 1 ≤ step then slicesFrom32 stop step h.2 start else []

/-- The cut of the Python client, whose second test stands for an overflow. -/
def pyNextCut (stop step cur : Int) : Int :=
  if cur + step ≥ stop ∨ cur + step < cur then stop else cur + step

/-- The loop of `window_slices` in the Python client. -/
def pySlicesFrom (stop step : Int) (hstep : 1 ≤ step) (cur : Int) : List (Int × Int) :=
  if cur ≤ stop then
    (cur, pyNextCut stop step cur) ::
      if pyNextCut stop step cur ≥ stop then []
      else pySlicesFrom stop step hstep (pyNextCut stop step cur)
  else []
termination_by (stop - cur).toNat
decreasing_by
  next hcur hnext =>
    unfold pyNextCut at hnext ⊢
    split at hnext
    · omega
    · next hcut =>
      rw [if_neg hcut]
      omega

def pyWindowSlices (start stop step : Int) : List (Int × Int) :=
  if h : start > stop ∨ step < 1 then [] else pySlicesFrom stop step (by omega) start

def bounds (slice : Int32 × Int32) : Int × Int := (slice.1.toInt, slice.2.toInt)

theorem slicesFrom32_bounds {stop step cur : Int32} (hstep : 1 ≤ step) (hcur : cur ≤ stop) :
    (slicesFrom32 stop step hstep cur).map bounds =
      slicesFrom stop.toInt step.toInt (Int32.le_iff_toInt_le.mp hstep) cur.toInt := by
  have hcut : (nextCut32 stop step cur).toInt = nextCut stop.toInt step.toInt cur.toInt :=
    nextCut32_toInt hstep
  induction hleft : (stop.toInt - cur.toInt).toNat using Nat.strong_induction_on
    generalizing cur with
  | _ left ih =>
    have hstep' : 1 ≤ step.toInt := Int32.le_iff_toInt_le.mp hstep
    have hcur' : cur.toInt ≤ stop.toInt := Int32.le_iff_toInt_le.mp hcur
    have hcases := nextCut_cases stop.toInt step.toInt cur.toInt
    unfold slicesFrom32 slicesFrom
    rw [if_pos hcur, List.map_cons, bounds, hcut]
    congr 1
    by_cases hend : stop ≤ nextCut32 stop step cur
    · have hend' := Int32.le_iff_toInt_le.mp hend
      rw [if_pos hend, if_neg (by omega), List.map_nil]
    · have hend' : ¬ stop.toInt ≤ (nextCut32 stop step cur).toInt :=
        fun h => hend (Int32.le_iff_toInt_le.mpr h)
      rw [if_neg hend, if_pos (by omega), ← hcut]
      exact ih _ (by omega) (Int32.le_iff_toInt_le.mpr (by omega)) (nextCut32_toInt hstep) rfl

theorem pySlicesFrom_eq {stop step cur : Int} (hstep : 1 ≤ step) (hstop : stop < 2 ^ 31)
    (hcur : cur ≤ stop) : pySlicesFrom stop step hstep cur = slicesFrom stop step hstep cur := by
  have hcut : ∀ cur, pyNextCut stop step cur = nextCut stop step cur := by
    intro cur
    unfold pyNextCut nextCut
    split <;> split <;> omega
  induction hleft : (stop - cur).toNat using Nat.strong_induction_on generalizing cur with
  | _ left ih =>
    have hcases := nextCut_cases stop step cur
    unfold pySlicesFrom slicesFrom
    rw [if_pos hcur, hcut]
    congr 1
    by_cases hend : nextCut stop step cur < stop
    · rw [if_neg (by omega), if_pos hend]
      exact ih _ (by omega) (by omega) rfl
    · rw [if_pos (by omega), if_neg hend]

theorem windowSlices32_bounds (start stop step : Int32) : (windowSlices32 start stop step).map bounds =
    windowSlices start.toInt stop.toInt step.toInt := by
  have hgood : start ≤ stop ∧ 1 ≤ step ↔ start.toInt ≤ stop.toInt ∧ 1 ≤ step.toInt :=
    and_congr Int32.le_iff_toInt_le Int32.le_iff_toInt_le
  unfold windowSlices32 windowSlices
  by_cases h : start ≤ stop ∧ 1 ≤ step
  · rw [dif_pos h, dif_pos (hgood.mp h)]
    exact slicesFrom32_bounds h.2 h.1
  · rw [dif_neg h, dif_neg (mt hgood.mpr h), List.map_nil]

theorem pyWindowSlices_eq {start stop step : Int} (hstop : stop < 2 ^ 31) :
    pyWindowSlices start stop step = windowSlices start stop step := by
  unfold pyWindowSlices windowSlices
  by_cases h : start > stop ∨ step < 1
  · rw [dif_pos h, dif_neg (by omega)]
  · rw [dif_neg h, dif_pos (by omega)]
    exact pySlicesFrom_eq (by omega) hstop (by omega)

/-- The slices cover the window from `start` to `stop` without gaps. -/
structure Cuts (start stop step : Int) (slices : List (Int × Int)) : Prop where
  first : slices.head?.map Prod.fst = some start
  last : slices.getLast?.map Prod.snd = some stop
  adjacent : slices.IsChain fun a b => a.2 = b.1
  short : ∀ slice ∈ slices, slice.2 - slice.1 ≤ step
  proper : start < stop → ∀ slice ∈ slices, slice.1 < slice.2

/-- One more slice in front. -/
theorem Cuts.cons {start mid stop step : Int} {slices : List (Int × Int)}
    (h : Cuts mid stop step slices) (hstart : start < mid) (hmid : mid < stop)
    (hshort : mid - start ≤ step) : Cuts start stop step ((start, mid) :: slices) := by
  obtain ⟨hfirst, hlast, hadjacent, hshorts, hproper⟩ := h
  cases slices with
  | nil => simp at hfirst
  | cons slice slices =>
    have hnext : slice.1 = mid := by simpa using hfirst
    refine ⟨rfl, ?_, ?_, ?_, fun _ => ?_⟩
    · rw [List.getLast?_cons_cons, hlast]
    · exact List.IsChain.cons_cons hnext.symm hadjacent
    · exact List.forall_mem_cons.mpr ⟨hshort, hshorts⟩
    · exact List.forall_mem_cons.mpr ⟨hstart, hproper hmid⟩

theorem slicesFrom_cuts {stop step cur : Int} (hstep : 1 ≤ step) (hstop : stop < 2 ^ 31)
    (hcur : cur ≤ stop) : Cuts cur stop step (slicesFrom stop step hstep cur) := by
  induction hleft : (stop - cur).toNat using Nat.strong_induction_on generalizing cur with
  | _ left ih =>
    unfold slicesFrom
    by_cases hlast : nextCut stop step cur = stop
    · have hshort : stop - cur ≤ step := by
        unfold nextCut at hlast
        split at hlast <;> omega
      rw [hlast, if_neg (lt_irrefl stop)]
      exact ⟨rfl, rfl, by simp, by simpa using hshort, by simp⟩
    · obtain ⟨hnext, hlt⟩ := (nextCut_cases stop step cur).resolve_left hlast
      rw [hnext, if_pos hlt]
      exact (ih _ (by omega) hlt.le rfl).cons (by omega) hlt (by omega)

/-- `window_slices` of the Rust crates never wraps, covers the window with slices that share their
boundary, and cuts it where the Python client does. -/
theorem windowSlices32_exact (start stop step : Int32) :
    (windowSlices32 start stop step).map bounds =
      windowSlices start.toInt stop.toInt step.toInt ∧
    (windowSlices32 start stop step = [] ↔ stop < start ∨ step < 1) ∧
    (windowSlices32 start stop step ≠ [] →
      Cuts start.toInt stop.toInt step.toInt ((windowSlices32 start stop step).map bounds)) ∧
    pyWindowSlices start.toInt stop.toInt step.toInt =
      (windowSlices32 start stop step).map bounds := by
  have hcuts : start.toInt ≤ stop.toInt → 1 ≤ step.toInt → Cuts start.toInt stop.toInt step.toInt
      (windowSlices start.toInt stop.toInt step.toInt) := by
    intro hstart hstep
    unfold windowSlices
    rw [dif_pos ⟨hstart, hstep⟩]
    exact slicesFrom_cuts hstep stop.toInt_lt hstart
  have hnil : windowSlices start.toInt stop.toInt step.toInt = [] ↔ stop < start ∨ step < 1 := by
    rw [Int32.lt_iff_toInt_lt, Int32.lt_iff_toInt_lt]
    constructor
    · intro hempty
      by_contra hgood
      have hone : (1 : Int32).toInt = 1 := rfl
      have hfirst := (hcuts (by omega) (by omega)).first
      rw [hempty] at hfirst
      cases hfirst
    · intro hbad
      have hone : (1 : Int32).toInt = 1 := rfl
      unfold windowSlices
      rw [dif_neg (by omega)]
  have hmap := windowSlices32_bounds start stop step
  have hempty : windowSlices32 start stop step = [] ↔ stop < start ∨ step < 1 := by
    rw [← hnil, ← hmap, List.map_eq_nil_iff]
  refine ⟨hmap, hempty, fun hne => ?_, ?_⟩
  · rw [hmap]
    have hgood := mt hempty.mpr hne
    rw [Int32.lt_iff_toInt_lt, Int32.lt_iff_toInt_lt] at hgood
    have hone : (1 : Int32).toInt = 1 := rfl
    exact hcuts (by omega) (by omega)
  · rw [hmap]
    exact pyWindowSlices_eq stop.toInt_lt

/-! ### The requests for one slice -/

section

variable {T : Type}

/-- The locals of the loop in `load_slice_with_retry`. -/
structure Retry where
  lastTransient : Option Error := none
  emptyTries : Nat := 0
  transientTries : Nat := 0

def defaultTransientRetries : Nat := 3

def defaultEmptyRetries : Nat := 2

/-- What one answer leads to: the result, or the next turn of the loop. -/
def Retry.turn (s : Retry) : Except Error (List T) → Except Error (List T) ⊕ Retry
  | .ok (row :: rows) => .inl (.ok (row :: rows))
  | .ok [] =>
    -- an empty success clears the transient error before it
    let s := { s with lastTransient := none, emptyTries := s.emptyTries + 1 }
    if s.emptyTries > defaultEmptyRetries then .inl (.ok []) else .inr s
  | .error e =>
    if isTransient e then
      let s := { s with lastTransient := some e, transientTries := s.transientTries + 1 }
      if s.transientTries ≥ defaultTransientRetries then .inl (.error (s.lastTransient.getD e))
      else .inr s
    else .inl (.error e)

/-- How an answer counts. -/
inductive Verdict
  | rows
  | empty
  | transient
  | permanent
  deriving DecidableEq, Repr

def verdict : Except Error (List T) → Verdict
  | .ok (_ :: _) => .rows
  | .ok [] => .empty
  | .error e => if isTransient e then .transient else .permanent

/-- One turn of the loop, by the verdict on the answer. -/
theorem Retry.turn_cases (s : Retry) (a : Except Error (List T)) :
    ((verdict a = .rows ∨ verdict a = .permanent) ∧ s.turn a = .inl a) ∨
    (verdict a = .empty ∧ 2 ≤ s.emptyTries ∧ s.turn a = .inl a) ∨
    (verdict a = .empty ∧ s.emptyTries < 2 ∧
      s.turn a = .inr ⟨none, s.emptyTries + 1, s.transientTries⟩) ∨
    (verdict a = .transient ∧ 2 ≤ s.transientTries ∧ s.turn a = .inl a) ∨
    (verdict a = .transient ∧ s.transientTries < 2 ∧
      ∃ e, s.turn a = .inr ⟨some e, s.emptyTries, s.transientTries + 1⟩) := by
  unfold Retry.turn verdict defaultEmptyRetries defaultTransientRetries
  cases a with
  | ok rows =>
    cases rows with
    | cons row rows => exact .inl ⟨.inl rfl, rfl⟩
    | nil =>
      by_cases hlast : s.emptyTries + 1 > 2
      · exact .inr (.inl ⟨rfl, by omega, if_pos hlast⟩)
      · exact .inr (.inr (.inl ⟨rfl, by omega, if_neg hlast⟩))
  | error e =>
    by_cases htransient : isTransient e = true
    · simp only [if_pos htransient]
      by_cases hlast : s.transientTries + 1 ≥ 3
      · exact .inr (.inr (.inr (.inl ⟨trivial, by omega, if_pos hlast⟩)))
      · exact .inr (.inr (.inr (.inr ⟨trivial, by omega, e, if_neg hlast⟩)))
    · simp only [if_neg htransient]
      exact .inl ⟨.inr trivial, trivial⟩

/-- The loop of `load_slice_with_retry` from its `calls`-th request on: how many requests are made in all,
and the result. -/
def retryFrom (answer : Nat → Except Error (List T)) (calls : Nat) (s : Retry) :
    Nat × Except Error (List T) :=
  match hturn : s.turn (answer calls) with
  | .inl result => (calls + 1, result)
  | .inr next => retryFrom answer (calls + 1) next
termination_by (2 - s.emptyTries) + (2 - s.transientTries)
decreasing_by
  rcases s.turn_cases (answer calls) with ⟨-, h⟩ | ⟨-, -, h⟩ | ⟨-, hle, h⟩ | ⟨-, -, h⟩ | ⟨-, hle, e, h⟩ <;>
    rw [hturn] at h <;> cases h <;> simp only <;> omega

theorem retryFrom_of_done {answer : Nat → Except Error (List T)} {calls : Nat} {s : Retry}
    {result : Except Error (List T)} (h : s.turn (answer calls) = .inl result) :
    retryFrom answer calls s = (calls + 1, result) := by
  rw [retryFrom]
  split
  · next hturn => rw [Sum.inl.inj (hturn.symm.trans h)]
  · next hturn => cases hturn.symm.trans h

theorem retryFrom_of_next {answer : Nat → Except Error (List T)} {calls : Nat} {s next : Retry}
    (h : s.turn (answer calls) = .inr next) :
    retryFrom answer calls s = retryFrom answer (calls + 1) next := by
  rw [retryFrom]
  split
  · next hturn => cases hturn.symm.trans h
  · next hturn => rw [Sum.inr.inj (hturn.symm.trans h)]

/-- The loop gives what `loadSliceWithRetry` gives. -/
theorem retryFrom_eq (answer : Nat → Except Error (List T)) (calls : Nat) (s : Retry) :
    (retryFrom answer calls s).2 =
      loadSliceWithRetry answer calls s.emptyTries s.transientTries := by
  induction hleft : (2 - s.emptyTries) + (2 - s.transientTries) using Nat.strong_induction_on
    generalizing calls s with
  | _ left ih =>
    have hcases := s.turn_cases (answer calls)
    unfold loadSliceWithRetry
    cases ha : answer calls with
    | ok rows =>
      cases rows with
      | cons row rows =>
        rw [@retryFrom_of_done T answer calls s (.ok (row :: rows)) (by rw [ha]; rfl)]
      | nil =>
        simp only [ha, verdict, reduceCtorEq, false_or, or_self, false_and, true_and, or_false] at hcases
        rcases hcases with ⟨hlast, hturn⟩ | ⟨hmore, hturn⟩
        · rw [retryFrom_of_done (by rw [ha]; exact hturn), if_pos (by omega)]
        · rw [retryFrom_of_next (by rw [ha]; exact hturn), if_neg (by omega)]
          exact ih _ (by simp only; omega) _ _ rfl
    | error e =>
      by_cases htransient : isTransient e = true
      · simp only [ha, verdict, if_pos htransient, reduceCtorEq, false_or, or_self, false_and,
          true_and] at hcases
        rcases hcases with ⟨hlast, hturn⟩ | ⟨hmore, e', hturn⟩
        · rw [retryFrom_of_done (by rw [ha]; exact hturn)]
          simp only [if_pos htransient]
          rw [if_pos (by omega)]
        · rw [retryFrom_of_next (by rw [ha]; exact hturn)]
          simp only [if_pos htransient]
          rw [if_neg (by omega)]
          exact ih _ (by simp only; omega) _ _ rfl
      · simp only [ha, verdict, if_neg htransient, reduceCtorEq, or_true, false_and, or_false,
          true_and] at hcases
        rw [retryFrom_of_done (by rw [ha]; exact hcases)]
        simp only [if_neg htransient]

/-- How many of the first `n` answers have the verdict. -/
def seen (answer : Nat → Except Error (List T)) (v : Verdict) (n : Nat) : Nat :=
  (List.range n).countP fun i => verdict (answer i) = v

theorem seen_succ (answer : Nat → Except Error (List T)) (v : Verdict) (n : Nat) :
    seen answer v (n + 1) = seen answer v n + if verdict (answer n) = v then 1 else 0 := by
  unfold seen
  rw [List.range_succ, List.countP_append]
  simp

/-- Answer `n` is the one that ends the loop. -/
structure Settles (answer : Nat → Except Error (List T)) (n : Nat) : Prop where
  before : ∀ m < n, verdict (answer m) = .empty ∨ verdict (answer m) = .transient
  empties : seen answer .empty n ≤ 2
  transients : seen answer .transient n ≤ 2
  third_empty : verdict (answer n) = .empty → seen answer .empty (n + 1) = 3
  third_transient : verdict (answer n) = .transient → seen answer .transient (n + 1) = 3

theorem retryFrom_settles {answer : Nat → Except Error (List T)} {calls : Nat} {s : Retry}
    (hbefore : ∀ m < calls, verdict (answer m) = .empty ∨ verdict (answer m) = .transient)
    (hempties : seen answer .empty calls = s.emptyTries) (hempties' : s.emptyTries ≤ 2)
    (htransients : seen answer .transient calls = s.transientTries)
    (htransients' : s.transientTries ≤ 2) (hcalls : calls = s.emptyTries + s.transientTries) :
    ∃ n < 5, retryFrom answer calls s = (n + 1, answer n) ∧ Settles answer n := by
  induction hleft : 4 - calls using Nat.strong_induction_on generalizing calls s with
  | _ left ih =>
    have hempty := seen_succ answer .empty calls
    have htransient := seen_succ answer .transient calls
    have hnext : verdict (answer calls) = .empty ∨ verdict (answer calls) = .transient →
        ∀ m < calls + 1, verdict (answer m) = .empty ∨ verdict (answer m) = .transient := by
      intro hv m hm
      rcases Nat.lt_succ_iff_lt_or_eq.mp hm with hlt | rfl
      · exact hbefore m hlt
      · exact hv
    rcases s.turn_cases (answer calls) with
      ⟨hv, hturn⟩ | ⟨hv, hlast, hturn⟩ | ⟨hv, hmore, hturn⟩ | ⟨hv, hlast, hturn⟩ |
      ⟨hv, hmore, e, hturn⟩
    · -- rows or a permanent error
      refine ⟨calls, by omega, retryFrom_of_done hturn, hbefore, by omega, by omega, ?_, ?_⟩ <;>
        intro h <;> rw [h] at hv <;> simp at hv
    · rw [hv] at hempty
      refine ⟨calls, by omega, retryFrom_of_done hturn, hbefore, by omega, by omega, ?_, ?_⟩
      · intro
        rw [hempty, if_pos rfl]
        omega
      · intro h
        cases hv.symm.trans h
    · rw [hv, if_pos rfl] at hempty
      rw [hv, if_neg (by decide)] at htransient
      rw [retryFrom_of_next hturn]
      exact ih _ (by omega) (hnext (.inl hv)) (by simp only; omega) (by simp only; omega)
        (by simp only; omega) (by simp only; omega) (by simp only; omega) rfl
    · rw [hv] at htransient
      refine ⟨calls, by omega, retryFrom_of_done hturn, hbefore, by omega, by omega, ?_, ?_⟩
      · intro h
        cases hv.symm.trans h
      · intro
        rw [htransient, if_pos rfl]
        omega
    · rw [hv, if_neg (by decide)] at hempty
      rw [hv, if_pos rfl] at htransient
      rw [retryFrom_of_next hturn]
      exact ih _ (by omega) (hnext (.inr hv)) (by simp only; omega) (by simp only; omega)
        (by simp only; omega) (by simp only; omega) (by simp only; omega) rfl

/-- The request of a slice is made at most five times.  It gives the first answer with rows or a permanent
error, unless a third empty answer or a third transient error comes first: then it gives that one. -/
theorem retryFrom_outcome (answer : Nat → Except Error (List T)) :
    ∃ n < 5, retryFrom answer 0 {} = (n + 1, answer n) ∧
      loadSliceWithRetry answer 0 0 0 = answer n ∧ Settles answer n := by
  obtain ⟨n, hn, hloop, hsettles⟩ :=
    @retryFrom_settles T answer 0 {} nofun rfl (Nat.zero_le 2) rfl (Nat.zero_le 2) rfl
  have hmodel := retryFrom_eq answer 0 {}
  rw [hloop] at hmodel
  exact ⟨n, hn, hloop, hmodel.symm, hsettles⟩

end

end RithmicNt.Plants.History
