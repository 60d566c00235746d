import Mathlib.Data.Int.ConditionallyCompleteOrder
import Mathlib.Logic.Function.Basic
import Mathlib.Order.ConditionallyCompleteLattice.Basic
import RithmicNt.Lib.StableSort
import RithmicNt.Exec.Drain
import RithmicNt.Gateway.Failures

/-! History loads: a long window is cut into slices that share their boundary, each slice is requested
until it answers, the rows that two slices both return are matched by count, and the result is sorted by
time. -/

namespace RithmicNt.Plants.History

open RithmicNt.Lib.StableSort RithmicNt.Exec

export RithmicNt.Gateway.Failures (Error)

/-! ### Slices -/

/-- The end of the slice that starts at `cur`: `checked_add` fails above the 32-bit numbers. -/
def nextCut (stop step cur : Int) : Int :=
  if cur + step < 2 ^ 31 ∧ cur + step < stop then cur + step else stop

theorem nextCut_cases (stop step cur : Int) : nextCut stop step cur = stop ∨
    nextCut stop step cur = cur + step ∧ cur + step < stop := by
  unfold nextCut
  split
  · exact .inr ⟨rfl, by omega⟩
  · exact .inl rfl

/-- The loop of `window_slices`. -/
def slicesFrom (stop step : Int) (hstep : 1 ≤ step) (cur : Int) : List (Int × Int) :=
  (cur, nextCut stop step cur) ::
    if nextCut stop step cur < stop then slicesFrom stop step hstep (nextCut stop step cur) else []
termination_by (stop - cur).toNat
decreasing_by
  have := nextCut_cases stop step cur
  omega

def windowSlices (start stop step : Int) : List (Int × Int) :=
  if h : start ≤ stop ∧ 1 ≤ step then slicesFrom stop step h.2 start else []

/-! ### Rows that two slices return -/

section

variable {T K : Type} [DecidableEq K] (identity : T → K)

/-- The rows of `next` but those that `seen` still counts. -/
def dropSeen (seen : K → Nat) : List T → List T
  | [] => []
  | row :: rest =>
    if 0 < seen (identity row) then
      dropSeen (Function.update seen (identity row) (seen (identity row) - 1)) rest
    else row :: dropSeen seen rest

def dropBoundaryRepeats (prev next : List T) : List T :=
  dropSeen identity (fun k => prev.countP (identity · = k)) next

end

/-! ### Retries -/

def isRequestTimeout : Error → Bool
  | .rithmic text | .session text => hasPart text.toLower "request timed out"
  | _ => false

def isTransient (e : Error) : Bool :=
  isRequestTimeout e || match e with
  | .notConnected _ | .channelClosed _ | .channelLagged .. => true
  | .rithmic text | .session text =>
    ["connection closed", "not connected", "forced logout", "channel closed", "channel lagged",
      "connection issue"].any (hasPart text.toLower)
  | _ => false

section

variable {T K : Type}

/-- `load_slice_with_retry`: `answer n` is what the request gives at its `n`-th attempt.  Up to two empty
answers and two transient errors are tried again. -/
def loadSliceWithRetry (answer : Nat → Except Error (List T)) (attempt emptyTries transientTries : Nat) :
    Except Error (List T) :=
  match answer attempt with
  | .ok (row :: rows) => .ok (row :: rows)
  | .ok [] =>
    if emptyTries + 1 > 2 then .ok []
    else loadSliceWithRetry answer (attempt + 1) (emptyTries + 1) transientTries
  | .error e =>
    if isTransient e then
      if transientTries + 1 ≥ 3 then .error e
      else loadSliceWithRetry answer (attempt + 1) emptyTries (transientTries + 1)
    else .error e
termination_by (2 - emptyTries) + (2 - transientTries)

/-- Requests of a slice: its bounds, then the attempt. -/
abbrev LoadSlice (T : Type) := Int → Int → Nat → Except Error (List T)

variable [DecidableEq K]

/-- The loop of `load_sliced`: the last slice is kept back until the next one has been cleared of it. -/
def gather (load : LoadSlice T) (identity : T → K) : List T → List (Int × Int) →
    Except Error (List T)
  | prev, [] => .ok prev
  | prev, (a, b) :: rest => do
    let chunk ← loadSliceWithRetry (load a b) 0 0 0
    let later ← gather load identity (dropBoundaryRepeats identity prev chunk) rest
    return prev ++ later

def loadSliced (start stop step : Int) (load : LoadSlice T) (sortKey : T → Nat) (identity : T → K) :
    Except Error (List T) :=
  if start > stop then .ok []
  else (gather load identity [] (windowSlices start stop step)).map (sortByKey sortKey)

end

/-! ### A venue that answers exact windows -/

inductive Glitch
  | empty
  | transient (e : Error)

def Glitch.isEmpty : Glitch → Bool
  | .empty => true
  | .transient _ => false

section

variable {T K : Type}

/-- The rows whose place lies in the window, in the venue's order. -/
def windowRows (place : T → Int) (venue : List T) (lo hi : Int) : List T :=
  venue.filter fun x => lo ≤ place x ∧ place x ≤ hi

/-- The answers to one request: glitches, then the rows for ever.  The retry takes two empty answers and
two transient errors. -/
structure Absorbed (answer : Nat → Except Error (List T)) (rows : List T) (glitches : List Glitch) :
    Prop where
  transient : ∀ e, .transient e ∈ glitches → isTransient e = true
  empties : glitches.countP Glitch.isEmpty ≤ 2
  errors : glitches.countP (fun g => !g.isEmpty) ≤ 2
  answers : ∀ n, answer n = match glitches[n]? with
    | some .empty => .ok []
    | some (.transient e) => .error e
    | none => .ok rows

/-- Every request for `[a, b]` is answered with the rows from `index a` to `index b`. -/
def Serves (place : T → Int) (index : Int → Int) (venue : List T) (load : LoadSlice T) : Prop :=
  ∀ a b, ∃ glitches, Absorbed (load a b) (windowRows place venue (index a) (index b)) glitches

/-- Once the glitches are over the rows come, also where there are none. -/
theorem retry_of_settled {answer : Nat → Except Error (List T)} {rows : List T} {attempt : Nat}
    (h : ∀ n, attempt ≤ n → answer n = .ok rows) (empties transients : Nat) :
    loadSliceWithRetry answer attempt empties transients = .ok rows := by
  induction hleft : 2 - empties generalizing attempt empties with
  | zero =>
    unfold loadSliceWithRetry
    rw [h attempt le_rfl]
    cases rows with
    | nil => simp only [if_pos (show empties + 1 > 2 by omega)]
    | cons row rows => rfl
  | succ left ih =>
    unfold loadSliceWithRetry
    rw [h attempt le_rfl]
    cases rows with
    | nil =>
      simp only [if_neg (show ¬ empties + 1 > 2 by omega)]
      exact ih (fun n hn => h n (by omega)) (empties + 1) (by omega)
    | cons row rows => rfl

/-- The retry absorbs glitches within its budget. -/
theorem retry_of_glitches {answer : Nat → Except Error (List T)} {rows : List T}
    {glitches : List Glitch} {attempt empties transients : Nat}
    (htransient : ∀ e, .transient e ∈ glitches → isTransient e = true)
    (hempties : empties + glitches.countP Glitch.isEmpty ≤ 2)
    (herrors : transients + glitches.countP (fun g => !g.isEmpty) ≤ 2)
    (h : ∀ n, answer (attempt + n) = match glitches[n]? with
      | some .empty => .ok []
      | some (.transient e) => .error e
      | none => .ok rows) :
    loadSliceWithRetry answer attempt empties transients = .ok rows := by
  induction glitches generalizing attempt empties transients with
  | nil =>
    refine retry_of_settled (fun n hn => ?_) empties transients
    have := h (n - attempt)
    rwa [Nat.add_sub_cancel' hn] at this
  | cons glitch glitches ih =>
    have hfirst := h 0
    have hrest : ∀ n, answer (attempt + 1 + n) = match glitches[n]? with
        | some .empty => .ok []
        | some (.transient e) => .error e
        | none => .ok rows := by
      intro n
      have := h (n + 1)
      rwa [List.getElem?_cons_succ, ← Nat.add_assoc, Nat.add_right_comm] at this
    rw [Nat.add_zero, List.getElem?_cons_zero] at hfirst
    unfold loadSliceWithRetry
    cases glitch with
    | empty =>
      rw [List.countP_cons_of_pos (by rfl)] at hempties
      rw [List.countP_cons_of_neg (by simp [Glitch.isEmpty])] at herrors
      rw [hfirst]
      simp only [if_neg (show ¬ empties + 1 > 2 by omega)]
      exact ih (fun e he => htransient e (List.mem_cons_of_mem _ he)) (by omega) herrors hrest
    | transient e =>
      rw [List.countP_cons_of_neg (by simp [Glitch.isEmpty])] at hempties
      rw [List.countP_cons_of_pos (by rfl)] at herrors
      rw [hfirst]
      simp only [htransient e (by simp), if_true, if_neg (show ¬ transients + 1 ≥ 3 by omega)]
      exact ih (fun e he => htransient e (List.mem_cons_of_mem _ he)) hempties (by omega) hrest

theorem Serves.retry {place : T → Int} {index : Int → Int} {venue : List T} {load : LoadSlice T}
    (h : Serves place index venue load) (a b : Int) :
    loadSliceWithRetry (load a b) 0 0 0 = .ok (windowRows place venue (index a) (index b)) := by
  obtain ⟨glitches, htransient, hempties, herrors, hanswers⟩ := h a b
  refine retry_of_glitches htransient (by omega) (by omega) fun n => ?_
  rw [Nat.zero_add]
  exact hanswers n

end

/-! ### The rows, slice by slice -/

section

variable {T K : Type} [DecidableEq K] {identity : T → K} {place : T → Int} {index : Int → Int}
  {venue : List T} {load : LoadSlice T}

/-- The rows that `seen` counts are dropped where, of each key, they come first and are as many as the
rows to be dropped. -/
theorem dropSeen_eq_filter {p : T → Bool} {seen : K → Nat} {next : List T}
    (hdropped : ∀ x ∈ next, p x = false →
      next.countP (fun y => !p y && decide (identity y = identity x)) ≤ seen (identity x))
    (hstays : ∀ x ∈ next, p x = true →
      seen (identity x) ≤ next.countP (fun y => !p y && decide (identity y = identity x)))
    (hfirst : next.Pairwise fun y x => p y = true → p x = false → identity x ≠ identity y) :
    dropSeen identity seen next = next.filter p := by
  induction next generalizing seen with
  | nil => rfl
  | cons row rest ih =>
    obtain ⟨hrow, hrest⟩ := List.pairwise_cons.mp hfirst
    unfold dropSeen
    cases hp : p row with
    | true =>
      have hskip : ∀ k, (row :: rest).countP (fun y => !p y && decide (identity y = k)) =
          rest.countP (fun y => !p y && decide (identity y = k)) := by
        intro k
        rw [List.countP_cons_of_neg (by simp [hp])]
      have hnone : rest.countP (fun y => !p y && decide (identity y = identity row)) = 0 := by
        refine List.countP_eq_zero.mpr fun x hx => ?_
        cases hpx : p x with
        | true => simp
        | false => simpa using hrow x hx hp hpx
      have hzero := hstays row (by simp) hp
      rw [hskip, hnone] at hzero
      rw [if_neg (by omega), List.filter_cons_of_pos hp]
      congr 1
      refine ih (fun x hx hpx => ?_) (fun x hx hpx => ?_) hrest
      · rw [← hskip]
        exact hdropped x (by simp [hx]) hpx
      · rw [← hskip]
        exact hstays x (by simp [hx]) hpx
    | false =>
      have hcons : ∀ k, (row :: rest).countP (fun y => !p y && decide (identity y = k)) =
          rest.countP (fun y => !p y && decide (identity y = k)) +
            if identity row = k then 1 else 0 := by
        intro k
        rw [List.countP_cons]
        simp [hp]
      have hcount := hdropped row (by simp) hp
      rw [hcons, if_pos rfl] at hcount
      rw [if_pos (by omega), List.filter_cons_of_neg (by simp [hp])]
      refine ih (fun x hx hpx => ?_) (fun x hx hpx => ?_) hrest
      · have hle := hdropped x (by simp [hx]) hpx
        rw [hcons] at hle
        by_cases heq : identity row = identity x
        · rw [if_pos heq] at hle
          rw [← heq, Function.update_self]
          rw [← heq] at hle
          omega
        · rw [if_neg heq] at hle
          rw [Function.update_of_ne (Ne.symm heq)]
          omega
      · have hle := hstays x (by simp [hx]) hpx
        rw [hcons] at hle
        by_cases heq : identity row = identity x
        · rw [if_pos heq] at hle
          rw [← heq, Function.update_self]
          rw [← heq] at hle
          omega
        · rw [if_neg heq] at hle
          rw [Function.update_of_ne (Ne.symm heq)]
          omega

/-- Of each key, the rows that `seen` counts are the first. -/
theorem filter_dropSeen (seen : K → Nat) (next : List T) (k : K) :
    (dropSeen identity seen next).filter (identity · = k) =
      (next.filter (identity · = k)).drop (seen k) := by
  induction next generalizing seen with
  | nil => simp [dropSeen]
  | cons row rest ih =>
    unfold dropSeen
    by_cases hkey : identity row = k
    · rw [List.filter_cons_of_pos (by simp [hkey]), hkey]
      split
      · rw [ih, Function.update_self]
        obtain ⟨n, hn⟩ := Nat.exists_eq_add_of_lt ‹0 < seen k›
        rw [hn, Nat.zero_add, List.drop_succ_cons, Nat.add_sub_cancel]
      · rw [List.filter_cons_of_pos (by simp [hkey]), ih, show seen k = 0 by omega, List.drop_zero,
          List.drop_zero]
    · rw [List.filter_cons_of_neg (by simp [hkey])]
      split
      · rw [ih, Function.update_of_ne (Ne.symm hkey)]
      · rw [List.filter_cons_of_neg (by simp [hkey]), ih]

/-- The slices follow one another: each starts where the one before it ended, and only the last may end
at the place that it starts from. -/
def Chained (index : Int → Int) : Int → List (Int × Int) → Prop
  | _, [] => True
  | hi, (a, b) :: rest => index a = hi ∧ hi ≤ index b ∧ (rest ≠ [] → hi < index b) ∧
      Chained index (index b) rest

/-- No row past the boundary `hi` is taken for one of the slice before: none has the identity of a row
strictly before the boundary, and none is listed before a row at the boundary that has its identity. -/
structure KeptApart (identity : T → K) (place : T → Int) (venue : List T) (lo hi b : Int) : Prop where
  before : ∀ x ∈ venue, ∀ y ∈ venue, lo < place x → place x < hi → hi < place y → place y ≤ b →
    identity x ≠ identity y
  listed : venue.Pairwise fun y x =>
    hi < place y → place y ≤ b → place x = hi → identity x ≠ identity y

/-- Between any two slices, from `lo` on, the rows are kept apart. -/
def Unconfused (identity : T → K) (place : T → Int) (index : Int → Int) (venue : List T) :
    Int → Int → List (Int × Int) → Prop
  | _, _, [] => True
  | lo, hi, (_, b) :: rest => KeptApart identity place venue lo hi (index b) ∧
    Unconfused identity place index venue hi (index b) rest

/-- Between any two slices, from `lo` on, the rows at the boundary go and all others stay. -/
def Cleared (identity : T → K) (place : T → Int) (index : Int → Int) (venue : List T) :
    Int → Int → List (Int × Int) → Prop
  | _, _, [] => True
  | lo, hi, (_, b) :: rest =>
    dropBoundaryRepeats identity (venue.filter fun x => lo < place x ∧ place x ≤ hi)
        (windowRows place venue hi (index b)) =
      venue.filter (fun x => hi < place x ∧ place x ≤ index b) ∧
    Cleared identity place index venue hi (index b) rest

/-- The rows above `lo`, each in the first slice that covers its place. -/
def bySlices (place : T → Int) (index : Int → Int) (venue : List T) : Int → List (Int × Int) → List T
  | _, [] => []
  | lo, (_, b) :: rest => venue.filter (fun x => lo < place x ∧ place x ≤ index b) ++
      bySlices place index venue (index b) rest

theorem mem_windowRows {x : T} {lo hi : Int} :
    x ∈ windowRows place venue lo hi ↔ x ∈ venue ∧ lo ≤ place x ∧ place x ≤ hi := by
  simp [windowRows]

theorem filter_windowRows (hi b : Int) : (windowRows place venue hi b).filter (hi < place ·) =
    venue.filter fun x => hi < place x ∧ place x ≤ b := by
  rw [windowRows, List.filter_filter]
  refine List.filter_congr fun x _ => ?_
  rw [← Bool.decide_and]
  exact decide_eq_decide.mpr (by omega)

/-- The rows of a key that the slice before has, at the boundary and strictly before it. -/
theorem countP_prev {lo hi : Int} (hlo : lo < hi) (k : K) :
    (venue.filter fun x => lo < place x ∧ place x ≤ hi).countP (identity · = k) =
      venue.countP (fun x => decide (place x = hi) && decide (identity x = k)) +
        venue.countP (fun x => decide (lo < place x ∧ place x < hi) && decide (identity x = k)) := by
  induction venue with
  | nil => rfl
  | cons x venue ih =>
    rw [List.countP_cons, List.countP_cons]
    by_cases hin : lo < place x ∧ place x ≤ hi
    · rw [List.filter_cons_of_pos (by simpa using hin), List.countP_cons, ih]
      by_cases hat : place x = hi
      · simp [hat]
        omega
      · simp [hat, hin.1, lt_of_le_of_ne hin.2 hat]
        omega
    · rw [List.filter_cons_of_neg (by simpa using hin), ih]
      have hat : place x ≠ hi := by omega
      have hbefore : ¬ (lo < place x ∧ place x < hi) := by omega
      simp [hat, hbefore]

/-- The rows of a key at the boundary, as the next slice has them. -/
theorem countP_boundary {hi b : Int} (hle : hi ≤ b) (k : K) :
    (windowRows place venue hi b).countP
        (fun x => !decide (hi < place x) && decide (identity x = k)) =
      venue.countP (fun x => decide (place x = hi) && decide (identity x = k)) := by
  rw [windowRows, List.countP_filter]
  refine List.countP_congr fun x _ => ?_
  simp only [Bool.and_eq_true, Bool.not_eq_true', decide_eq_false_iff_not, decide_eq_true_eq]
  constructor
  · rintro ⟨⟨hpast, hkey⟩, hin⟩
    exact ⟨by omega, hkey⟩
  · rintro ⟨hat, hkey⟩
    exact ⟨⟨by omega, hkey⟩, by omega⟩

/-- Between two slices that are kept apart, the rows at the boundary go and all others stay. -/
theorem dropBoundaryRepeats_eq {lo hi b : Int} (hlo : lo < hi) (hle : hi ≤ b)
    (hapart : KeptApart identity place venue lo hi b) :
    dropBoundaryRepeats identity (venue.filter fun x => lo < place x ∧ place x ≤ hi)
      (windowRows place venue hi b) = venue.filter fun x => hi < place x ∧ place x ≤ b := by
  rw [← filter_windowRows hi b]
  refine dropSeen_eq_filter (fun x hx hboundary => ?_) (fun y hy hpast => ?_) ?_
  · rw [countP_boundary hle, countP_prev hlo]
    omega
  · obtain ⟨hyv, -, hyb⟩ := mem_windowRows.mp hy
    have hpast : hi < place y := by simpa using hpast
    have hnone : venue.countP (fun x => decide (lo < place x ∧ place x < hi) &&
        decide (identity x = identity y)) = 0 := by
      refine List.countP_eq_zero.mpr fun x hx hcounted => ?_
      simp only [Bool.and_eq_true, decide_eq_true_eq] at hcounted
      obtain ⟨hbefore, hkey⟩ := hcounted
      exact hapart.before x hx y hyv hbefore.1 hbefore.2 hpast hyb hkey
    rw [countP_boundary hle, countP_prev hlo, hnone]
    omega
  · refine (hapart.listed.sublist List.filter_sublist).imp_of_mem fun {y x} hy hx h hpy hpx => ?_
    obtain ⟨-, -, hyb⟩ := mem_windowRows.mp hy
    obtain ⟨-, hxhi, -⟩ := mem_windowRows.mp hx
    have hpast : hi < place y := by simpa using hpy
    have hat : ¬ hi < place x := by simpa using hpx
    exact h hpast hyb (by omega)

/-- Two slices are kept apart wherever the rows at the boundary go and all others stay. -/
theorem keptApart_of_dropBoundaryRepeats {lo hi b : Int} (hlo : lo < hi) (hle : hi ≤ b)
    (h : dropBoundaryRepeats identity (venue.filter fun x => lo < place x ∧ place x ≤ hi)
      (windowRows place venue hi b) = venue.filter fun x => hi < place x ∧ place x ≤ b) :
    KeptApart identity place venue lo hi b := by
  rw [← filter_windowRows hi b] at h
  -- of each key, the rows that go are the first, and the rows past the boundary are left
  have hclass : ∀ k, ((windowRows place venue hi b).filter (identity · = k)).drop
      (venue.countP (fun x => decide (place x = hi) && decide (identity x = k)) +
        venue.countP (fun x => decide (lo < place x ∧ place x < hi) && decide (identity x = k))) =
      ((windowRows place venue hi b).filter (identity · = k)).filter (hi < place ·) := by
    intro k
    rw [← countP_prev hlo, ← filter_dropSeen
      (fun k => (venue.filter fun x => lo < place x ∧ place x ≤ hi).countP (identity · = k)),
      ← dropBoundaryRepeats, h, List.filter_filter, List.filter_filter]
    exact List.filter_congr fun x _ => Bool.and_comm ..
  have hsplit : ∀ k, ((windowRows place venue hi b).filter (identity · = k)).length =
      (((windowRows place venue hi b).filter (identity · = k)).filter (hi < place ·)).length +
        venue.countP (fun x => decide (place x = hi) && decide (identity x = k)) := by
    intro k
    rw [List.length_eq_countP_add_countP (fun x => decide (hi < place x)),
      List.countP_eq_length_filter, ← countP_boundary hle k, ← List.countP_filter]
    congr 1
    refine List.countP_congr fun x _ => ?_
    simp
  refine ⟨fun x hx y hy hlox hxhi hhiy hyb hkey => ?_, ?_⟩
  · have hlength := congrArg List.length (hclass (identity y))
    rw [List.length_drop, hsplit] at hlength
    have hbefore : 0 < venue.countP (fun x => decide (lo < place x ∧ place x < hi) &&
        decide (identity x = identity y)) :=
      List.countP_pos_iff.mpr ⟨x, hx, by simp [hlox, hxhi, hkey]⟩
    have hpast : y ∈ ((windowRows place venue hi b).filter (identity · = identity y)).filter
        (hi < place ·) := by
      simp [mem_windowRows, hy, hhiy, hyb, hhiy.le]
    have hpos := List.length_pos_of_mem hpast
    omega
  · refine List.pairwise_iff_forall_sublist.mpr fun {y x} hyx hhiy hyb hat hkey => ?_
    obtain ⟨A, hA⟩ : ∃ A, A = ((windowRows place venue hi b).filter (identity · = identity y)).take
      (venue.countP (fun x => decide (place x = hi) && decide (identity x = identity y)) +
        venue.countP (fun x => decide (lo < place x ∧ place x < hi) &&
          decide (identity x = identity y))) := ⟨_, rfl⟩
    obtain ⟨M, hM⟩ : ∃ M, M = ((windowRows place venue hi b).filter
      (identity · = identity y)).filter (hi < place ·) := ⟨_, rfl⟩
    have happend : (windowRows place venue hi b).filter (identity · = identity y) = A ++ M := by
      rw [hA, hM, ← hclass, List.take_append_drop]
    have hrest : A.filter (hi < place ·) = [] := by
      have hfilter : M = A.filter (hi < place ·) ++ M := by
        have hself : M.filter (hi < place ·) = M := by
          rw [hM, List.filter_filter]
          simp
        conv_lhs => rw [hM, happend, List.filter_append, hself]
      exact List.self_eq_append_left.mp hfilter
    have hpair : [y, x].Sublist (A ++ M) := by
      rw [← happend]
      have := (hyx.filter (fun x => decide (hi ≤ place x ∧ place x ≤ b))).filter
        (identity · = identity y)
      simpa [windowRows, hhiy.le, hyb, hat, hkey, show hi ≤ b by omega] using this
    have hy : y ∉ A := fun hy =>
      List.not_mem_nil (hrest ▸ List.mem_filter.mpr ⟨hy, by simpa using hhiy⟩)
    have hx : x ∉ M := by
      rw [hM]
      simp [hat]
    obtain ⟨first, second, hpairs, hfirst, hsecond⟩ := List.sublist_append_iff.mp hpair
    cases first with
    | nil => exact hx (hsecond.subset (by rw [← List.nil_append second, ← hpairs]; simp))
    | cons z first =>
      obtain ⟨rfl, -⟩ := List.cons.inj hpairs
      exact hy (hfirst.subset (by simp))

/-- The slices are cleared of each other exactly where no row is taken for another. -/
theorem unconfused_iff_cleared {slices : List (Int × Int)} {lo hi : Int}
    (hlo : slices ≠ [] → lo < hi) (hchained : Chained index hi slices) :
    Unconfused identity place index venue lo hi slices ↔
      Cleared identity place index venue lo hi slices := by
  induction slices generalizing lo hi with
  | nil => rfl
  | cons slice rest ih =>
    obtain ⟨a, b⟩ := slice
    obtain ⟨rfl, hle, hnext, hrest⟩ := hchained
    refine and_congr ⟨dropBoundaryRepeats_eq (hlo (by simp)) hle, ?_⟩ (ih hnext hrest)
    exact keptApart_of_dropBoundaryRepeats (hlo (by simp)) hle

theorem gather_cleared (hserves : Serves place index venue load) {slices : List (Int × Int)}
    {lo hi : Int} (hchained : Chained index hi slices)
    (hcleared : Cleared identity place index venue lo hi slices) :
    gather load identity (venue.filter fun x => lo < place x ∧ place x ≤ hi) slices =
      .ok ((venue.filter fun x => lo < place x ∧ place x ≤ hi) ++
        bySlices place index venue hi slices) := by
  induction slices generalizing lo hi with
  | nil => simp [gather, bySlices]
  | cons slice rest ih =>
    obtain ⟨a, b⟩ := slice
    obtain ⟨rfl, -, -, hrest⟩ := hchained
    obtain ⟨hclear, hrest'⟩ := hcleared
    unfold gather
    rw [hserves.retry a b]
    simp only [bind, Except.bind]
    rw [hclear, ih hrest hrest']
    rfl

theorem dropBoundaryRepeats_nil (identity : T → K) (next : List T) :
    dropBoundaryRepeats identity [] next = next := by
  have h : dropBoundaryRepeats identity [] next = next.filter fun _ => true :=
    dropSeen_eq_filter nofun (fun _ _ _ => Nat.zero_le _) (List.pairwise_of_forall fun _ _ _ => nofun)
  rw [h, List.filter_true]

theorem gather_slices (hserves : Serves place index venue load) {a b : Int}
    {rest : List (Int × Int)} (hchained : Chained index (index a) ((a, b) :: rest))
    (hunconfused : Unconfused identity place index venue (index a - 1) (index b) rest) :
    gather load identity [] ((a, b) :: rest) =
      .ok (bySlices place index venue (index a - 1) ((a, b) :: rest)) := by
  obtain ⟨-, hle, -, hrest⟩ := hchained
  have hfirst : windowRows place venue (index a) (index b) =
      venue.filter fun x => index a - 1 < place x ∧ place x ≤ index b := by
    refine List.filter_congr fun x _ => decide_eq_decide.mpr ?_
    omega
  unfold gather
  rw [hserves.retry a b]
  simp only [bind, Except.bind]
  rw [dropBoundaryRepeats_nil, hfirst,
    gather_cleared hserves hrest ((unconfused_iff_cleared (fun _ => by omega) hrest).mp hunconfused)]
  rfl

/-! ### The slices of a window -/

variable {stop step : Int} {hstep : 1 ≤ step}

theorem slicesFrom_chained (hmono : Monotone index) (hstrict : ∀ a, index a < index (a + step))
    {cur : Int} (hcur : cur ≤ stop) : Chained index (index cur) (slicesFrom stop step hstep cur) := by
  induction hleft : (stop - cur).toNat using Nat.strong_induction_on generalizing cur with
  | _ left ih =>
    unfold slicesFrom
    rcases nextCut_cases stop step cur with hnext | ⟨hnext, hlt⟩
    · rw [hnext, if_neg (lt_irrefl stop)]
      exact ⟨rfl, hmono hcur, fun h => absurd rfl h, trivial⟩
    · rw [hnext, if_pos hlt]
      exact ⟨rfl, (hstrict cur).le, fun _ => hstrict cur, ih _ (by omega) (by omega) rfl⟩

/-- Rows that are all at one place are in one slice, in the venue's order. -/
theorem filter_bySlices (hmono : Monotone index) {q : T → Bool}
    (hq : ∀ x y, q x = true → q y = true → place x = place y) {cur lo : Int} (hcur : cur ≤ stop)
    (hlo : lo ≤ index cur) :
    (bySlices place index venue lo (slicesFrom stop step hstep cur)).filter q =
      (venue.filter fun x => lo < place x ∧ place x ≤ index stop).filter q := by
  induction hleft : (stop - cur).toNat using Nat.strong_induction_on generalizing cur lo with
  | _ left ih =>
    unfold slicesFrom
    rcases nextCut_cases stop step cur with hnext | ⟨hnext, hlt⟩
    · rw [hnext, if_neg (lt_irrefl stop), bySlices, bySlices, List.append_nil]
    · have hle : index (cur + step) ≤ index stop := hmono hlt.le
      have hge : index cur ≤ index (cur + step) := hmono (by omega)
      rw [hnext, if_pos hlt, bySlices, List.filter_append,
        ih _ (by omega) (show cur + step ≤ stop by omega) le_rfl rfl]
      simp only [List.filter_filter]
      by_cases hsome : ∃ y ∈ venue, q y = true ∧ index (cur + step) < place y
      · -- all these rows lie beyond the slice
        obtain ⟨y, -, hy, hpast⟩ := hsome
        have hnone : venue.filter (fun x => q x && decide (lo < place x ∧ place x ≤ index (cur + step)))
            = [] := by
          refine List.filter_eq_nil_iff.mpr fun x _ hx => ?_
          simp only [Bool.and_eq_true, decide_eq_true_eq] at hx
          have := hq x y hx.1 hy
          omega
        rw [hnone, List.nil_append]
        refine List.filter_congr fun x _ => ?_
        cases hx : q x with
        | false => rfl
        | true =>
          have := hq x y hx hy
          rw [Bool.true_and, Bool.true_and]
          exact decide_eq_decide.mpr (by omega)
      · have hnone : venue.filter (fun x => q x &&
            decide (index (cur + step) < place x ∧ place x ≤ index stop)) = [] := by
          refine List.filter_eq_nil_iff.mpr fun x hx hqx => ?_
          simp only [Bool.and_eq_true, decide_eq_true_eq] at hqx
          exact hsome ⟨x, hx, hqx.1, hqx.2.1⟩
        rw [hnone, List.append_nil]
        refine List.filter_congr fun x hx => ?_
        cases hqx : q x with
        | false => rfl
        | true =>
          have : ¬ index (cur + step) < place x := fun h => hsome ⟨x, hx, hqx, h⟩
          rw [Bool.true_and, Bool.true_and]
          exact decide_eq_decide.mpr (by omega)

omit [DecidableEq K] in
/-- Rows whose identity knows their place are never confused. -/
theorem unconfused_of_place (h : ∀ x y, identity x = identity y → place x = place y)
    (lo hi : Int) (slices : List (Int × Int)) :
    Unconfused identity place index venue lo hi slices := by
  induction slices generalizing lo hi with
  | nil => trivial
  | cons slice rest ih =>
    refine ⟨⟨fun x _ y _ _ hx hy _ hkey => ?_, List.pairwise_of_forall fun y x hy _ hx hkey => ?_⟩, ih ..⟩
    · have := h x y hkey
      omega
    · have := h x y hkey
      omega

end

/-! ### Rows with time stamps -/

/-- The keys that a load sorts and matches by: the time in nanoseconds, and an identity that has it. -/
structure Rows (T K : Type) where
  sortKey : T → Nat
  identity : T → K
  sortKey_eq : ∀ x y, identity x = identity y → sortKey x = sortKey y

/-- The second of a row's time stamp. -/
def Rows.second {T K : Type} (r : Rows T K) (x : T) : Int := (r.sortKey x / 1000000000 : Nat)

/-- `HistoryTickDto`; prices are the bits of their floats. -/
structure HistoryTick where
  symbol : Option String := none
  exchange : Option String := none
  openPrice : Option UInt64 := none
  highPrice : Option UInt64 := none
  lowPrice : Option UInt64 := none
  closePrice : Option UInt64 := none
  volume : Option Nat := none
  numTrades : Option Nat := none
  ssboe : Option Int := none
  usecs : Option Int := none
  tsEventNs : Option Nat := none
  deriving DecidableEq, Repr

/-- `HistoryBarDto`. -/
structure HistoryBar where
  symbol : Option String := none
  exchange : Option String := none
  barType : Option Int := none
  period : Option String := none
  marker : Option Int := none
  openPrice : Option UInt64 := none
  highPrice : Option UInt64 := none
  lowPrice : Option UInt64 := none
  closePrice : Option UInt64 := none
  volume : Option Nat := none
  numTrades : Option Nat := none
  bidVolume : Option Nat := none
  askVolume : Option Nat := none
  tsEventNs : Option Nat := none
  deriving DecidableEq, Repr

def tickDedupKey (t : HistoryTick) : Nat × UInt64 × Nat × Nat :=
  (t.tsEventNs.getD 0, t.closePrice.getD 0, t.numTrades.getD 0, t.volume.getD 0)

def barDedupKey (b : HistoryBar) : Nat × UInt64 × UInt64 × UInt64 × UInt64 × Nat :=
  (b.tsEventNs.getD 0, b.openPrice.getD 0, b.highPrice.getD 0, b.lowPrice.getD 0,
    b.closePrice.getD 0, b.volume.getD 0)

/-- The keys of `load_ticks_all`. -/
def tickRows : Rows HistoryTick (Nat × UInt64 × Nat × Nat) where
  sortKey t := t.tsEventNs.getD 0
  identity := tickDedupKey
  sortKey_eq _ _ h := congrArg Prod.fst h

/-- The keys of `load_time_bars_all`. -/
def barRows : Rows HistoryBar (Nat × UInt64 × UInt64 × UInt64 × UInt64 × Nat) where
  sortKey b := b.tsEventNs.getD 0
  identity := barDedupKey
  sortKey_eq _ _ h := congrArg Prod.fst h

section

variable {T K : Type} [DecidableEq K]

/-- A sliced load of a venue that answers exact windows is the window itself, with every row as often as
the venue has it, stably sorted by time. -/
theorem loadSliced_oneShot (r : Rows T K) {venue : List T} {load : LoadSlice T} {start stop step : Int}
    (hserves : Serves r.second id venue load) (hstep : 1 ≤ step) :
    loadSliced start stop step load r.sortKey r.identity =
      .ok (sortByKey r.sortKey (windowRows r.second venue start stop)) := by
  unfold loadSliced
  split
  next hempty =>
    have hnone : windowRows r.second venue start stop = [] := by
      refine List.filter_eq_nil_iff.mpr fun x _ hx => ?_
      simp only [decide_eq_true_eq] at hx
      omega
    rw [hnone]
    simp [sortByKey]
  next hwindow =>
    have hle : start ≤ stop := by omega
    have hplace : ∀ x y, r.sortKey x = r.sortKey y → r.second x = r.second y := by
      intro x y h
      rw [Rows.second, Rows.second, h]
    have hchained : Chained id start (slicesFrom stop step hstep start) :=
      slicesFrom_chained monotone_id (fun a => by simp only [id]; omega) hle
    rw [windowSlices, dif_pos ⟨hle, hstep⟩]
    have hslices : ∃ b rest, slicesFrom stop step hstep start = (start, b) :: rest := by
      unfold slicesFrom
      exact ⟨_, _, rfl⟩
    obtain ⟨b, rest, hslices⟩ := hslices
    rw [hslices] at hchained ⊢
    rw [gather_slices hserves hchained
      (unconfused_of_place (fun x y h => hplace x y (r.sortKey_eq x y h)) ..), ← hslices]
    refine congrArg Except.ok (sortByKey_congr fun t => ?_)
    rw [filter_bySlices monotone_id ?_ hle (by simp only [id]; omega)]
    · congr 1
      refine List.filter_congr fun x _ => decide_eq_decide.mpr ?_
      simp only [id]
      omega
    · intro x y hx hy
      simp only [decide_eq_true_eq] at hx hy
      exact hplace x y (hx.trans hy.symm)

end

def printAt (ts volume : Nat) : HistoryTick :=
  { closePrice := some 0x3FF4000000000000, volume := some volume, numTrades := some 1
    tsEventNs := some ts }

/-- Two identical prints in the second that the slices `[0, 60]` and `[60, 120]` share. -/
def boundaryPrints : List HistoryTick :=
  [printAt 60000000000 2, printAt 60000000000 2, printAt 90000000000 3]

/-- A venue whose first answer to every request is empty. -/
def flickering : LoadSlice HistoryTick := fun a b attempt =>
  if attempt = 0 then .ok [] else .ok (windowRows tickRows.second boundaryPrints a b)

theorem loadSliced_oneShot_boundary : Serves tickRows.second id boundaryPrints flickering ∧
    loadSliced 0 120 60 flickering tickRows.sortKey tickRows.identity = .ok boundaryPrints := by
  have hserves : Serves tickRows.second id boundaryPrints flickering := by
    intro a b
    refine ⟨[.empty], by simp, by decide, by decide, fun n => ?_⟩
    cases n <;> rfl
  refine ⟨hserves, (loadSliced_oneShot tickRows hserves (by decide)).trans (congrArg Except.ok ?_)⟩
  have hwindow : windowRows tickRows.second boundaryPrints 0 120 = boundaryPrints := by decide
  rw [hwindow]
  exact List.mergeSort_of_pairwise (by decide)

end RithmicNt.Plants.History
