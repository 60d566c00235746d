import Mathlib.Data.Finset.Basic
import RithmicNt.Lib.Tally

/-! The host's typed intents: which venue joins its sessions want, how many sessions want each, and
which of them a recovery has left without a join. -/

namespace RithmicNt.Host

open RithmicNt.Lib

structure SubKey where
  symbol : String
  exchange : String
  deriving DecidableEq, Repr

structure TimeBarIntent where
  symbol : String
  exchange : String
  barType : Int
  period : Int
  deriving DecidableEq, Repr

/-- A market-data join.  `TopicIntent` and `MdIntent` of the source, which convert into each other
case by case. -/
inductive MdIntent
  | ticker (key : SubKey)
  | book (key : SubKey)
  | timeBars (intent : TimeBarIntent)
  deriving DecidableEq, Repr

def MdIntent.key : MdIntent → SubKey
  | .ticker key | .book key => key
  | .timeBars t => ⟨t.symbol, t.exchange⟩

/-- What a session can hold. -/
inductive Intent
  | md (intent : MdIntent)
  | pnl
  | order
  | brackets
  deriving DecidableEq, Repr

structure IntentStore where
  ticker : Tally SubKey := .empty
  book : Tally SubKey := .empty
  timeBars : Tally TimeBarIntent := .empty
  pnl : Nat := 0
  order : Nat := 0
  brackets : Nat := 0
  degraded : Finset MdIntent := ∅

def bumpFlag (n : Nat) : Nat × Bool := (n + 1, n + 1 == 1)

def dropFlag (n : Nat) : Nat × Bool :=
  if n = 0 then (n, false) else (n - 1, n - 1 == 0)

namespace IntentStore

/-- The number of sessions the store counts as holders of an intent. -/
def count (s : IntentStore) : Intent → Nat
  | .md (.ticker key) => s.ticker.count key
  | .md (.book key) => s.book.count key
  | .md (.timeBars t) => s.timeBars.count t
  | .pnl => s.pnl
  | .order => s.order
  | .brackets => s.brackets

/-- `note_ticker`, `note_book` and `note_time_bar`: whether this is the first holder. -/
def noteMd (s : IntentStore) : MdIntent → IntentStore × Bool
  | .ticker key => ({ s with ticker := (s.ticker.bump key).1 }, (s.ticker.bump key).2)
  | .book key => ({ s with book := (s.book.bump key).1 }, (s.book.bump key).2)
  | .timeBars t => ({ s with timeBars := (s.timeBars.bump t).1 }, (s.timeBars.bump t).2)

/-- `drop_count` on the map of the intent: whether this was the last holder. -/
def dropMd (s : IntentStore) : MdIntent → IntentStore × Bool
  | .ticker key => ({ s with ticker := (s.ticker.drop key).1 }, (s.ticker.drop key).2)
  | .book key => ({ s with book := (s.book.drop key).1 }, (s.book.drop key).2)
  | .timeBars t => ({ s with timeBars := (s.timeBars.drop t).1 }, (s.timeBars.drop t).2)

/-- `forget_ticker`, `forget_book` and `forget_time_bar`: the last holder takes the degraded mark
with it. -/
def forgetMd (s : IntentStore) (i : MdIntent) : IntentStore × Bool :=
  let (dropped, last) := s.dropMd i
  (if last then { dropped with degraded := dropped.degraded.erase i } else dropped, last)

def notePnl (s : IntentStore) : IntentStore × Bool :=
  ({ s with pnl := (bumpFlag s.pnl).1 }, (bumpFlag s.pnl).2)

def forgetPnl (s : IntentStore) : IntentStore × Bool :=
  ({ s with pnl := (dropFlag s.pnl).1 }, (dropFlag s.pnl).2)

def noteOrder (s : IntentStore) : IntentStore × Bool :=
  ({ s with order := (bumpFlag s.order).1 }, (bumpFlag s.order).2)

def forgetOrder (s : IntentStore) : IntentStore × Bool :=
  ({ s with order := (dropFlag s.order).1 }, (dropFlag s.order).2)

def noteBrackets (s : IntentStore) : IntentStore × Bool :=
  ({ s with brackets := (bumpFlag s.brackets).1 }, (bumpFlag s.brackets).2)

def forgetBrackets (s : IntentStore) : IntentStore × Bool :=
  ({ s with brackets := (dropFlag s.brackets).1 }, (dropFlag s.brackets).2)

def holdsMd (s : IntentStore) : MdIntent → Bool
  | .ticker key => s.ticker.contains key
  | .book key => s.book.contains key
  | .timeBars t => s.timeBars.contains t

/-- Nothing where no session holds the intent any more. -/
def markDegraded (s : IntentStore) (i : MdIntent) : IntentStore :=
  if s.holdsMd i then { s with degraded := insert i s.degraded } else s

def clearDegraded (s : IntentStore) (i : MdIntent) : IntentStore :=
  { s with degraded := s.degraded.erase i }

def isDegraded (s : IntentStore) (i : MdIntent) : Bool := i ∈ s.degraded

theorem count_noteMd (s : IntentStore) (i : MdIntent) (j : Intent) :
    (s.noteMd i).1.count j = s.count j + if j = .md i then 1 else 0 := by
  cases i <;> rcases j with (_ | _ | _) | _ | _ | _ <;> simp [noteMd, count, Tally.count_bump]

theorem noteMd_first (s : IntentStore) (i : MdIntent) :
    (s.noteMd i).2 = decide (s.count (.md i) = 0) := by
  cases i <;> exact Tally.bump_first _ _

@[simp] theorem degraded_noteMd (s : IntentStore) (i : MdIntent) :
    (s.noteMd i).1.degraded = s.degraded := by
  cases i <;> rfl

theorem count_dropMd (s : IntentStore) (i : MdIntent) (j : Intent) :
    (s.dropMd i).1.count j = s.count j - if j = .md i then 1 else 0 := by
  cases i <;> rcases j with (_ | _ | _) | _ | _ | _ <;> simp [dropMd, count, Tally.count_drop]

theorem dropMd_last (s : IntentStore) (i : MdIntent) :
    (s.dropMd i).2 = decide (s.count (.md i) = 1) := by
  cases i <;> exact Tally.drop_last _ _

theorem count_forgetMd (s : IntentStore) (i : MdIntent) (j : Intent) :
    (s.forgetMd i).1.count j = s.count j - if j = .md i then 1 else 0 := by
  have hcount : (s.forgetMd i).1.count j = (s.dropMd i).1.count j := by
    simp only [forgetMd]
    split <;> rcases j with (_ | _ | _) | _ | _ | _ <;> rfl
  rw [hcount, count_dropMd]

theorem forgetMd_last (s : IntentStore) (i : MdIntent) :
    (s.forgetMd i).2 = decide (s.count (.md i) = 1) :=
  s.dropMd_last i

theorem degraded_forgetMd (s : IntentStore) (i : MdIntent) :
    (s.forgetMd i).1.degraded =
      if s.count (.md i) = 1 then s.degraded.erase i else s.degraded := by
  have hdegraded : (s.dropMd i).1.degraded = s.degraded := by cases i <;> rfl
  simp only [forgetMd, dropMd_last, decide_eq_true_eq]
  split <;> simp [hdegraded]

theorem holdsMd_iff {s : IntentStore} {i : MdIntent} :
    s.holdsMd i = true ↔ 0 < s.count (.md i) := by
  cases i <;> exact Tally.contains_iff

@[simp] theorem count_markDegraded (s : IntentStore) (i : MdIntent) (j : Intent) :
    (s.markDegraded i).count j = s.count j := by
  unfold markDegraded
  split <;> rcases j with (_ | _ | _) | _ | _ | _ <;> rfl

theorem degraded_markDegraded (s : IntentStore) (i : MdIntent) :
    (s.markDegraded i).degraded =
      if 0 < s.count (.md i) then insert i s.degraded else s.degraded := by
  simp only [markDegraded, holdsMd_iff]
  split <;> rfl

@[simp] theorem count_clearDegraded (s : IntentStore) (i : MdIntent) (j : Intent) :
    (s.clearDegraded i).count j = s.count j := by
  rcases j with (_ | _ | _) | _ | _ | _ <;> rfl

theorem isDegraded_iff {s : IntentStore} {i : MdIntent} :
    s.isDegraded i = true ↔ i ∈ s.degraded := by
  simp [isDegraded]

/-- Note one more holder of an account stream, or of a market-data join. -/
def note (s : IntentStore) : Intent → IntentStore × Bool
  | .md i => s.noteMd i
  | .pnl => s.notePnl
  | .order => s.noteOrder
  | .brackets => s.noteBrackets

def forget (s : IntentStore) : Intent → IntentStore × Bool
  | .md i => s.forgetMd i
  | .pnl => s.forgetPnl
  | .order => s.forgetOrder
  | .brackets => s.forgetBrackets

theorem count_note (s : IntentStore) (i j : Intent) :
    (s.note i).1.count j = s.count j + if j = i then 1 else 0 := by
  cases i with
  | md i => exact s.count_noteMd i j
  | pnl => rcases j with (_ | _ | _) | _ | _ | _ <;> rfl
  | order => rcases j with (_ | _ | _) | _ | _ | _ <;> rfl
  | brackets => rcases j with (_ | _ | _) | _ | _ | _ <;> rfl

theorem dropFlag_fst (n : Nat) : (dropFlag n).1 = n - 1 := by
  unfold dropFlag
  split
  · next h => simp [h]
  · rfl

theorem count_forget (s : IntentStore) (i j : Intent) :
    (s.forget i).1.count j = s.count j - if j = i then 1 else 0 := by
  cases i with
  | md i => exact s.count_forgetMd i j
  | pnl =>
    rcases j with (_ | _ | _) | _ | _ | _ <;>
      simp [forget, forgetPnl, count, dropFlag_fst]
  | order =>
    rcases j with (_ | _ | _) | _ | _ | _ <;>
      simp [forget, forgetOrder, count, dropFlag_fst]
  | brackets =>
    rcases j with (_ | _ | _) | _ | _ | _ <;>
      simp [forget, forgetBrackets, count, dropFlag_fst]

/-- An intent that no session holds is not marked degraded. -/
def Marked (s : IntentStore) : Prop := ∀ i ∈ s.degraded, 0 < s.count (.md i)

theorem Marked.note {s : IntentStore} (h : s.Marked) (i : Intent) : (s.note i).1.Marked := by
  have hdegraded : (s.note i).1.degraded = s.degraded := by
    cases i with
    | md i => exact s.degraded_noteMd i
    | pnl | order | brackets => rfl
  intro j hj
  rw [hdegraded] at hj
  have := h j hj
  rw [count_note]
  omega

theorem Marked.forget {s : IntentStore} (h : s.Marked) (i : Intent) : (s.forget i).1.Marked := by
  intro j hj
  rw [count_forget]
  cases i with
  | md i =>
    have hj : j ∈ (s.forgetMd i).1.degraded := hj
    rw [degraded_forgetMd] at hj
    split at hj
    · obtain ⟨hne, hj⟩ := Finset.mem_erase.mp hj
      have := h j hj
      simpa [hne] using this
    · next hmore =>
      have hpos := h j hj
      by_cases hji : j = i
      · subst hji
        simp only [if_true]
        omega
      · simpa [hji] using hpos
  | pnl | order | brackets => simpa using h j hj

theorem Marked.markDegraded {s : IntentStore} (h : s.Marked) (i : MdIntent) :
    (s.markDegraded i).Marked := by
  intro j hj
  rw [degraded_markDegraded] at hj
  rw [count_markDegraded]
  split at hj
  · next hpos =>
    rcases Finset.mem_insert.mp hj with rfl | hj
    · exact hpos
    · exact h j hj
  · exact h j hj

theorem Marked.clearDegraded {s : IntentStore} (h : s.Marked) (i : MdIntent) :
    (s.clearDegraded i).Marked := by
  intro j hj
  rw [count_clearDegraded]
  exact h j (Finset.mem_of_mem_erase hj)

end IntentStore

end RithmicNt.Host
