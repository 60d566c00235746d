import Mathlib.Algebra.Order.Ring.Int
import Mathlib.Data.Int.Basic
import Mathlib.Logic.Function.Iterate

/-! The proleptic Gregorian calendar: its dates, one after the other, counted from the epoch. -/

namespace RithmicNt.Lib.Gregorian

def IsLeap (year : Int) : Prop := year % 4 = 0 ∧ (year % 100 = 0 → year % 400 = 0)

instance (year : Int) : Decidable (IsLeap year) :=
  inferInstanceAs (Decidable (year % 4 = 0 ∧ (year % 100 = 0 → year % 400 = 0)))

def monthLength (year month : Int) : Int :=
  if month = 2 then if IsLeap year then 29 else 28
  else if month = 4 ∨ month = 6 ∨ month = 9 ∨ month = 11 then 30
  else 31

theorem monthLength_pos (year month : Int) : 1 ≤ monthLength year month := by
  unfold monthLength
  repeat' split
  all_goals decide

theorem monthLength_le (year month : Int) : monthLength year month ≤ 31 := by
  unfold monthLength
  repeat' split
  all_goals decide

theorem february_bounds (year : Int) : 28 ≤ monthLength year 2 ∧ monthLength year 2 ≤ 29 := by
  show 28 ≤ (if IsLeap year then 29 else 28 : Int) ∧ (if IsLeap year then 29 else 28 : Int) ≤ 29
  split <;> decide

@[ext]
structure Date where
  year : Int
  month : Int
  day : Int
  month_mem : 1 ≤ month ∧ month ≤ 12
  day_mem : 1 ≤ day ∧ day ≤ monthLength year month

namespace Date

/-- The first of a month. -/
def first (year month : Int) (h : 1 ≤ month ∧ month ≤ 12) : Date where
  year := year
  month := month
  day := 1
  month_mem := h
  day_mem := ⟨by decide, monthLength_pos year month⟩

/-- The last of a month. -/
def last (year month : Int) (h : 1 ≤ month ∧ month ≤ 12) : Date where
  year := year
  month := month
  day := monthLength year month
  month_mem := h
  day_mem := ⟨monthLength_pos year month, Int.le_refl _⟩

/-- The day after. -/
def next (d : Date) : Date :=
  if h : d.day < monthLength d.year d.month then
    ⟨d.year, d.month, d.day + 1, d.month_mem, by have := d.day_mem; omega⟩
  else if h : d.month < 12 then first d.year (d.month + 1) (by have := d.month_mem; omega)
  else first (d.year + 1) 1 (by decide)

/-- The day before. -/
def prev (d : Date) : Date :=
  if h : 1 < d.day then
    ⟨d.year, d.month, d.day - 1, d.month_mem, by have := d.day_mem; omega⟩
  else if h : 1 < d.month then last d.year (d.month - 1) (by have := d.month_mem; omega)
  else last (d.year - 1) 12 (by decide)

theorem next_of_lt {d : Date} (h : d.day < monthLength d.year d.month) :
    d.next = ⟨d.year, d.month, d.day + 1, d.month_mem, by have := d.day_mem; omega⟩ :=
  dif_pos h

theorem next_of_month {d : Date} (hday : d.day = monthLength d.year d.month) (hmonth : d.month < 12) :
    d.next = first d.year (d.month + 1) (by have := d.month_mem; omega) :=
  (dif_neg (by omega)).trans (dif_pos hmonth)

theorem next_of_year {d : Date} (hday : d.day = monthLength d.year d.month) (hmonth : d.month = 12) :
    d.next = first (d.year + 1) 1 (by decide) :=
  (dif_neg (by omega)).trans (dif_neg (by omega))

theorem prev_first {year month : Int} (h : 1 ≤ month ∧ month ≤ 12) (hmonth : 1 < month) :
    (first year month h).prev = last year (month - 1) ⟨by omega, by omega⟩ :=
  (dif_neg (Int.lt_irrefl _)).trans (dif_pos hmonth)

theorem prev_january (year : Int) :
    (first year 1 (by decide)).prev = last (year - 1) 12 (by decide) :=
  (dif_neg (Int.lt_irrefl _)).trans (dif_neg (Int.lt_irrefl _))

theorem next_prev (d : Date) : d.prev.next = d := by
  obtain ⟨year, month, day, hmonth, hday⟩ := d
  by_cases h : 1 < day
  · have hlt : day - 1 < monthLength year month := by omega
    simp [prev, next, h, hlt]
  · obtain rfl : day = 1 := by omega
    show (first year month hmonth).prev.next = first year month hmonth
    by_cases hmonth' : 1 < month
    · rw [prev_first hmonth hmonth', next_of_month rfl (show month - 1 < 12 by omega)]
      simp [first, last]
    · obtain rfl : month = 1 := by omega
      rw [prev_january, next_of_year rfl rfl]
      simp [first, last]

theorem prev_next (d : Date) : d.next.prev = d := by
  obtain ⟨year, month, day, hmonth, hday⟩ := d
  by_cases h : day < monthLength year month
  · have hlt : 1 < day + 1 := by omega
    simp [prev, next, h, hlt]
  · obtain rfl : day = monthLength year month := by omega
    show (last year month hmonth).next.prev = last year month hmonth
    by_cases hmonth' : month < 12
    · rw [next_of_month rfl hmonth']
      apply (prev_first _ (show 1 < month + 1 by omega)).trans
      simp [last]
    · obtain rfl : month = 12 := by omega
      rw [next_of_year rfl rfl]
      apply (prev_january (year + 1)).trans
      simp [last]

def epoch : Date := first 1970 1 (by decide)

/-- The date of the day `n` days after the epoch, or before it. -/
def on : Int → Date
  | .ofNat n => next^[n] epoch
  | .negSucc n => prev^[n + 1] epoch

theorem on_succ (n : Int) : on (n + 1) = (on n).next := by
  cases n with
  | ofNat n => exact Function.iterate_succ_apply' next n epoch
  | negSucc n =>
    have hprev : on (.negSucc n) = (prev^[n] epoch).prev := Function.iterate_succ_apply' prev n epoch
    rw [hprev, next_prev]
    cases n with
    | zero => rfl
    | succ n => rfl

/-- A count of dates is that of the calendar, where it has the epoch and goes on day by day. -/
theorem eq_on {f : Int → Date} (hzero : f 0 = epoch) (hsucc : ∀ n, f (n + 1) = (f n).next) (n : Int) :
    f n = on n := by
  induction n using Int.induction_on with
  | zero => exact hzero
  | succ n ih => rw [hsucc, on_succ, ih]
  | pred n ih =>
    have hback : -(n : Int) - 1 + 1 = -(n : Int) := Int.sub_add_cancel _ 1
    have hf := hsucc (-(n : Int) - 1)
    have hon := on_succ (-(n : Int) - 1)
    rw [hback] at hf hon
    rw [hf, hon] at ih
    rw [← prev_next (f _), ih, prev_next]

/-- A date as one number, its digits the year, the month and the day. -/
def yyyymmdd (d : Date) : Int := d.year * 10000 + d.month * 100 + d.day

section

variable (d : Date)

theorem yyyymmdd_mod : d.yyyymmdd % 100 = d.day := by
  have hday := d.day_mem
  have hlength := monthLength_le d.year d.month
  unfold yyyymmdd
  omega

theorem yyyymmdd_div_mod : d.yyyymmdd / 100 % 100 = d.month := by
  have hmonth := d.month_mem
  have hday := d.day_mem
  have hlength := monthLength_le d.year d.month
  unfold yyyymmdd
  omega

theorem yyyymmdd_div : d.yyyymmdd / 10000 = d.year := by
  have hmonth := d.month_mem
  have hday := d.day_mem
  have hlength := monthLength_le d.year d.month
  unfold yyyymmdd
  omega

end

end Date

end RithmicNt.Lib.Gregorian
