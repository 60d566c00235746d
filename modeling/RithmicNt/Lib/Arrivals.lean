import Mathlib.Data.List.Basic

/-! A byte stream as a socket hands it out: chunks of any size, with whiles in between in which nothing
comes.  A read of a number of bytes depends on the bytes alone, not on how they are cut. -/

namespace RithmicNt.Lib

variable {α : Type*}

/-- A chunk, which has a byte at least, or a while that is long enough for a receive to time out. -/
inductive Arrival (α : Type*)
  | chunk (first : α) (rest : List α)
  | quiet
  deriving DecidableEq, Repr

def Arrival.content : Arrival α → List α
  | .chunk a l => a :: l
  | .quiet => []

def Arrival.isQuiet : Arrival α → Bool
  | .chunk .. => false
  | .quiet => true

/-- What is still to come on a stream, before it is closed. -/
abbrev Wire (α : Type*) := List (Arrival α)

namespace Wire

def content (w : Wire α) : List α := w.flatMap Arrival.content

/-- What is left to do for a reader of the stream. -/
def size (w : Wire α) : Nat := w.content.length + w.countP Arrival.isQuiet

@[simp] theorem content_nil : content ([] : Wire α) = [] := rfl

@[simp] theorem content_cons (a : Arrival α) (w : Wire α) :
    content (a :: w) = a.content ++ content w := rfl

inductive Received (α : Type*)
  | bytes (l : List α)
  | timeout
  | closed
  deriving DecidableEq, Repr

/-- Puts bytes back in front of a stream. -/
def unread : List α → Wire α → Wire α
  | [], w => w
  | a :: l, w => .chunk a l :: w

/-- A receive of at most `n` bytes. -/
def recv (n : Nat) : Wire α → Received α × Wire α
  | [] => (.closed, [])
  | .quiet :: w => (.timeout, w)
  | .chunk a l :: w => (.bytes ((a :: l).take n), unread ((a :: l).drop n) w)

theorem content_unread (l : List α) (w : Wire α) : content (unread l w) = l ++ content w := by
  cases l <;> rfl

theorem countP_unread (l : List α) (w : Wire α) :
    (unread l w).countP Arrival.isQuiet = w.countP Arrival.isQuiet := by
  cases l with
  | nil => rfl
  | cons a l => exact List.countP_cons_of_neg (by simp [Arrival.isQuiet])

/-- What a receive of some bytes gives. -/
theorem recv_cases {n : Nat} (hn : 0 < n) (w : Wire α) :
    (w.recv n = (.closed, []) ∧ w = []) ∨
    (∃ w', w.recv n = (.timeout, w') ∧ w'.content = w.content ∧ w'.size < w.size) ∨
    (∃ l w', w.recv n = (.bytes l, w') ∧ l ≠ [] ∧ l.length ≤ n ∧ w.content = l ++ w'.content ∧
      w'.size < w.size) := by
  cases w with
  | nil => exact .inl ⟨rfl, rfl⟩
  | cons a w =>
    cases a with
    | quiet =>
      refine .inr (.inl ⟨w, rfl, rfl, ?_⟩)
      rw [size, size, List.countP_cons_of_pos (by rfl)]
      simp only [content_cons, Arrival.content, List.nil_append]
      omega
    | chunk a l =>
      refine .inr (.inr ⟨_, _, rfl, ?_, ?_, ?_, ?_⟩)
      · cases n with
        | zero => omega
        | succ n => simp
      · rw [List.length_take]
        omega
      · rw [content_unread, ← List.append_assoc, List.take_append_drop]
        rfl
      · rw [size, size, content_unread, countP_unread, List.countP_cons_of_neg (by simp [Arrival.isQuiet]),
          content_cons, Arrival.content, List.length_append, List.length_append, List.length_drop,
          List.length_cons]
        omega

/-- A read of exactly `n` bytes that waits for them; `none` where the stream is closed before. -/
def readExact (n : Nat) (w : Wire α) : Option (List α × Wire α) :=
  if _hn : 0 < n then
    match _hrecv : w.recv n with
    | (.closed, _) => none
    | (.timeout, w') => readExact n w'
    | (.bytes l, w') => (readExact (n - l.length) w').map fun r => (l ++ r.1, r.2)
  else some ([], w)
termination_by w.size
decreasing_by
  all_goals
    rcases recv_cases _hn w with ⟨h, -⟩ | ⟨v, h, -, hlt⟩ | ⟨m, v, h, -, -, -, hlt⟩ <;>
      (rw [_hrecv] at h; cases h <;> exact hlt)

theorem readExact_zero (w : Wire α) : readExact 0 w = some ([], w) := by
  rw [readExact]
  rfl

theorem readExact_of_closed {n : Nat} (hn : 0 < n) {w w' : Wire α}
    (h : w.recv n = (.closed, w')) : readExact n w = none := by
  rw [readExact, dif_pos hn]
  split <;> next hrecv => cases h.symm.trans hrecv <;> rfl

theorem readExact_of_timeout {n : Nat} (hn : 0 < n) {w w' : Wire α}
    (h : w.recv n = (.timeout, w')) : readExact n w = readExact n w' := by
  rw [readExact, dif_pos hn]
  split <;> next hrecv => cases h.symm.trans hrecv <;> rfl

theorem readExact_of_bytes {n : Nat} (hn : 0 < n) {w w' : Wire α} {l : List α}
    (h : w.recv n = (.bytes l, w')) :
    readExact n w = (readExact (n - l.length) w').map fun r => (l ++ r.1, r.2) := by
  rw [readExact, dif_pos hn]
  split <;> next hrecv => cases h.symm.trans hrecv <;> rfl

/-- A read takes its bytes off the content, however they arrive. -/
theorem readExact_spec (n : Nat) (w : Wire α) :
    if n ≤ w.content.length then
      ∃ w', readExact n w = some (w.content.take n, w') ∧ w'.content = w.content.drop n
    else readExact n w = none := by
  induction hsize : w.size using Nat.strongRecOn generalizing n w with
  | _ size ih =>
    by_cases hn : 0 < n
    · rcases recv_cases hn w with ⟨h, rfl⟩ | ⟨w', h, hcontent, hlt⟩ | ⟨l, w', h, -, hle, hcontent, hlt⟩
      · rw [if_neg (by simpa using Nat.pos_iff_ne_zero.mp hn), readExact_of_closed hn h]
      · rw [readExact_of_timeout hn h]
        have hrest := ih _ (by omega) n w' rfl
        rwa [hcontent] at hrest
      · rw [readExact_of_bytes hn h]
        have hrest := ih _ (by omega) (n - l.length) w' rfl
        rw [hcontent, List.length_append, List.take_append, List.drop_append,
          List.take_of_length_le hle, List.drop_of_length_le hle, List.nil_append]
        split at hrest
        · next hfits =>
          obtain ⟨v, hread, hv⟩ := hrest
          rw [if_pos (by omega), hread]
          exact ⟨v, rfl, hv⟩
        · next hshort =>
          rw [if_neg (by omega), hrest]
          rfl
    · obtain rfl : n = 0 := by omega
      rw [readExact_zero, if_pos (Nat.zero_le _)]
      exact ⟨w, rfl, rfl⟩

end Wire

end RithmicNt.Lib
