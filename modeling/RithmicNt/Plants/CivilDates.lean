import Mathlib.Tactic.IntervalCases
import RithmicNt.Lib.Gregorian
import RithmicNt.Plants.Calendar

/-! The dates of the bar replays are those of the proleptic Gregorian calendar, and midnight of a date is
read back from it. -/

namespace RithmicNt.Plants.Calendar

open RithmicNt.Lib.Gregorian

/-! ### Years from March -/

/-- The days from the first of March of the year 0 up to that of `year`. -/
def yearStart (year : Int) : Int := 365 * year + year / 4 - year / 100 + year / 400

def yearOf (z : Int) : Int := yearOfEra (z % 146097) + z / 146097 * 400

/-- A year from March has the end of the February of the next one. -/
theorem yearStart_succ (year : Int) :
    yearStart (year + 1) = yearStart year + 337 + monthLength (year + 1) 2 := by
  show _ = _ + 337 + if IsLeap (year + 1) then 29 else 28
  unfold yearStart
  split
  · next hleap =>
    unfold IsLeap at hleap
    omega
  · next hleap =>
    unfold IsLeap at hleap
    omega

theorem yearStart_lt {year year' : Int} (h : year < year') : yearStart year + 365 ≤ yearStart year' := by
  unfold yearStart
  omega

/-- Years start again after an era. -/
theorem yearStart_era (year era : Int) :
    yearStart (year + era * 400) = yearStart year + era * 146097 := by
  unfold yearStart
  omega

/-- A day of an era lies before the next year. -/
theorem dayOfYear_lt {doe : Int} (hlo : 0 ≤ doe) (hhi : doe < 146097) :
    doe < yearStart (yearOfEra doe + 1) := by
  obtain ⟨hyear, hyear'⟩ := yearOfEra_bounds hlo hhi
  obtain ⟨y, hy⟩ := Int.eq_ofNat_of_zero_le hyear
  rw [hy]
  by_contra hlate
  by_cases hlast : y = 399
  · subst hlast
    have : yearStart ((399 : Nat) + 1 : Int) = 146097 := rfl
    omega
  · have hnext := (leapless_daysBefore (y + 1) (by omega)).1
    have hstart : daysBefore ((y + 1 : Nat) : Int) ≤ doe := by
      unfold daysBefore
      unfold yearStart at hlate
      push_cast
      omega
    have hafter : leapless (daysBefore ((y + 1 : Nat) : Int)) ≤ leapless doe := leapless_mono hstart
    have hquot : yearOfEra doe = leapless doe / 365 := rfl
    push_cast at hnext hafter
    omega

theorem dayOfYear_eq (z : Int) : dayOfYear (z % 146097) = z - yearStart (yearOf z) := by
  obtain ⟨hyear, hyear'⟩ := yearOfEra_bounds (show 0 ≤ z % 146097 by omega) (by omega)
  rw [yearOf, yearStart_era]
  unfold dayOfYear yearStart
  omega

theorem yearOf_bounds (z : Int) : yearStart (yearOf z) ≤ z ∧ z < yearStart (yearOf z + 1) := by
  have hlo : 0 ≤ z % 146097 := by omega
  have hhi : z % 146097 < 146097 := by omega
  have hfirst := (dayOfYear_bounds hlo hhi).1
  have hlast := dayOfYear_lt hlo hhi
  have hnext : yearOf z + 1 = yearOfEra (z % 146097) + 1 + z / 146097 * 400 := by
    unfold yearOf
    omega
  rw [dayOfYear_eq z] at hfirst
  rw [hnext, yearStart_era]
  omega

theorem yearOf_eq {year z : Int} (hstart : yearStart year ≤ z) (hend : z < yearStart (year + 1)) :
    yearOf z = year := by
  obtain ⟨hlo, hhi⟩ := yearOf_bounds z
  rcases Int.lt_trichotomy (yearOf z) year with hlt | heq | hgt
  · have : yearStart (yearOf z + 1) ≤ yearStart year := by
      rcases Int.lt_or_eq_of_le (show yearOf z + 1 ≤ year by omega) with hlt | heq
      · have := yearStart_lt hlt
        omega
      · rw [heq]
    omega
  · exact heq
  · have : yearStart (year + 1) ≤ yearStart (yearOf z) := by
      rcases Int.lt_or_eq_of_le (show year + 1 ≤ yearOf z by omega) with hlt | heq
      · have := yearStart_lt hlt
        omega
      · rw [heq]
    omega

/-! ### Months from March -/

/-- The days of a year from March before its month `mp`. -/
def monthStart (mp : Int) : Int := (153 * mp + 2) / 5

def monthOf (mp : Int) : Int := mp + if mp < 10 then 3 else -9

/-- The calendar year of the month `mp` of a year from March. -/
def civilYear (year mp : Int) : Int := year + if monthOf mp ≤ 2 then 1 else 0

def monthIndex (doy : Int) : Int := (5 * doy + 2) / 153

theorem monthLength_monthOf (year : Int) {mp : Int} (hlo : 0 ≤ mp) (hhi : mp < 11) :
    monthLength year (monthOf mp) = monthStart (mp + 1) - monthStart mp := by
  interval_cases mp <;> rfl

theorem monthIndex_bounds {doy : Int} (hlo : 0 ≤ doy) (hhi : doy ≤ 365) :
    0 ≤ monthIndex doy ∧ monthIndex doy ≤ 11 := by
  unfold monthIndex
  omega

theorem monthStart_monthIndex (doy : Int) :
    monthStart (monthIndex doy) ≤ doy ∧ doy < monthStart (monthIndex doy + 1) := by
  unfold monthStart monthIndex
  omega

theorem monthIndex_eq {mp doy : Int} (hstart : monthStart mp ≤ doy) (hend : doy < monthStart (mp + 1)) :
    monthIndex doy = mp := by
  unfold monthStart at hstart hend
  unfold monthIndex
  omega

/-! ### The date of a day -/

/-- `doy` is a day of the year from March `year`. -/
def InYear (year doy : Int) : Prop := 0 ≤ doy ∧ doy < 337 + monthLength (year + 1) 2

theorem InYear.month {year doy : Int} (h : InYear year doy) :
    0 ≤ monthIndex doy ∧ monthIndex doy ≤ 11 := by
  have hfebruary := february_bounds (year + 1)
  obtain ⟨hlo, hhi⟩ := h
  exact monthIndex_bounds hlo (by omega)

theorem InYear.day {year doy : Int} (h : InYear year doy) :
    doy - monthStart (monthIndex doy) + 1 ≤
      monthLength (civilYear year (monthIndex doy)) (monthOf (monthIndex doy)) := by
  obtain ⟨hmonth, hmonth'⟩ := h.month
  obtain ⟨hstart, hend⟩ := monthStart_monthIndex doy
  rcases Int.lt_or_eq_of_le hmonth' with hlt | heq
  · rw [monthLength_monthOf _ hmonth hlt]
    omega
  · -- the February that ends the year
    rw [heq]
    show doy - 337 + 1 ≤ monthLength (year + 1) 2
    have hhi := h.2
    omega

def civilDate (year doy : Int) (h : InYear year doy) : Date where
  year := civilYear year (monthIndex doy)
  month := monthOf (monthIndex doy)
  day := doy - monthStart (monthIndex doy) + 1
  month_mem := by
    obtain ⟨hlo, hhi⟩ := h.month
    unfold monthOf
    split <;> omega
  day_mem := ⟨by have := monthStart_monthIndex doy; omega, h.day⟩

theorem dateOf_eq {year doy : Int} (h : InYear year doy) :
    dateOf year doy = (civilDate year doy h).yyyymmdd := rfl

@[simp] theorem civilDate_year {year doy : Int} (h : InYear year doy) :
    (civilDate year doy h).year = civilYear year (monthIndex doy) := rfl

@[simp] theorem civilDate_month {year doy : Int} (h : InYear year doy) :
    (civilDate year doy h).month = monthOf (monthIndex doy) := rfl

@[simp] theorem civilDate_day {year doy : Int} (h : InYear year doy) :
    (civilDate year doy h).day = doy - monthStart (monthIndex doy) + 1 := rfl

theorem monthIndex_monthStart (mp : Int) : monthIndex (monthStart mp) = mp := by
  unfold monthIndex monthStart
  omega

/-- From December to January the calendar year goes on, otherwise the month does. -/
theorem monthOf_succ (year : Int) {mp : Int} (hlo : 0 ≤ mp) (hhi : mp < 11) :
    if monthOf mp < 12 then
      monthOf (mp + 1) = monthOf mp + 1 ∧ civilYear year (mp + 1) = civilYear year mp
    else monthOf mp = 12 ∧ monthOf (mp + 1) = 1 ∧ civilYear year (mp + 1) = civilYear year mp + 1 := by
  unfold civilYear monthOf
  repeat' split
  all_goals omega

/-- The day after, in the same year. -/
theorem civilDate_succ {year doy : Int} (h : InYear year doy) (h' : InYear year (doy + 1)) :
    civilDate year (doy + 1) h' = (civilDate year doy h).next := by
  obtain ⟨hmonth, hmonth'⟩ := h.month
  obtain ⟨hstart, hend⟩ := monthStart_monthIndex doy
  by_cases hsame : doy + 1 < monthStart (monthIndex doy + 1)
  · have hindex : monthIndex (doy + 1) = monthIndex doy := monthIndex_eq (by omega) hsame
    have hday := h'.day
    rw [hindex] at hday
    rw [Date.next_of_lt (by simp only [civilDate_day, civilDate_year, civilDate_month]; omega)]
    ext
    · simp only [civilDate_year, hindex]
    · simp only [civilDate_month, hindex]
    · simp only [civilDate_day, hindex]
      omega
  · have hfirst : doy + 1 = monthStart (monthIndex doy + 1) := by omega
    have hindex : monthIndex (doy + 1) = monthIndex doy + 1 := by
      rw [hfirst, monthIndex_monthStart]
    have hlt : monthIndex doy < 11 := by
      have := h'.month
      omega
    have hlast : (civilDate year doy h).day =
        monthLength (civilDate year doy h).year (civilDate year doy h).month := by
      rw [civilDate_year, civilDate_month, civilDate_day, monthLength_monthOf _ hmonth hlt]
      omega
    have hturn := monthOf_succ year hmonth hlt
    split at hturn
    · next hlt12 =>
      rw [Date.next_of_month hlast hlt12]
      ext
      · simpa [Date.first, hindex] using hturn.2
      · simpa [Date.first, hindex] using hturn.1
      · simp only [civilDate_day, hindex, Date.first]
        omega
    · rw [Date.next_of_year hlast hturn.1]
      ext
      · simpa [Date.first, hindex] using hturn.2.2
      · simpa [Date.first, hindex] using hturn.2.1
      · simp only [civilDate_day, hindex, Date.first]
        omega

/-- The day after the last day of a year. -/
theorem civilDate_march {year doy : Int} (h : InYear year doy) (h' : InYear (year + 1) 0)
    (hlast : doy + 1 = 337 + monthLength (year + 1) 2) :
    civilDate (year + 1) 0 h' = (civilDate year doy h).next := by
  have hindex : monthIndex doy = 11 := by
    have hfebruary := february_bounds (year + 1)
    unfold monthIndex
    omega
  have hday : (civilDate year doy h).day =
      monthLength (civilDate year doy h).year (civilDate year doy h).month := by
    simp only [civilDate_day, civilDate_year, civilDate_month, hindex]
    show doy - 337 + 1 = monthLength (year + 1) 2
    omega
  rw [Date.next_of_month hday (by simp only [civilDate_month, hindex]; decide)]
  ext
  · simp only [civilDate_year, Date.first, hindex]
    show year + 1 + 0 = year + 1
    omega
  · simp only [civilDate_month, Date.first, hindex]
    rfl
  · rfl

theorem inYear_yearOf (z : Int) : InYear (yearOf z) (z - yearStart (yearOf z)) := by
  have hbounds := yearOf_bounds z
  rw [yearStart_succ] at hbounds
  exact ⟨by omega, by omega⟩

/-- The date that `unixToYyyymmddUtc` encodes. -/
def civilOf (z : Int) : Date := civilDate (yearOf z) (z - yearStart (yearOf z)) (inYear_yearOf z)

theorem civilOf_eq {year doy z : Int} (h : InYear year doy) (hz : z = yearStart year + doy) :
    civilOf z = civilDate year doy h := by
  obtain ⟨hlo, hhi⟩ := id h
  have hyear : yearOf z = year := by
    apply yearOf_eq
    · omega
    · rw [yearStart_succ]
      omega
  obtain rfl : doy = z - yearStart year := by omega
  subst hyear
  rfl

theorem civilOf_succ (z : Int) : civilOf (z + 1) = (civilOf z).next := by
  have h := inYear_yearOf z
  obtain ⟨hlo, hhi⟩ := id h
  by_cases hlast : z - yearStart (yearOf z) + 1 = 337 + monthLength (yearOf z + 1) 2
  · have h' : InYear (yearOf z + 1) 0 := by
      have hfebruary := february_bounds (yearOf z + 1 + 1)
      exact ⟨by omega, by omega⟩
    rw [civilOf_eq h' (by rw [yearStart_succ]; omega)]
    exact civilDate_march h h' hlast
  · have h' : InYear (yearOf z) (z - yearStart (yearOf z) + 1) := ⟨by omega, by omega⟩
    rw [civilOf_eq h' (by omega)]
    exact civilDate_succ h h'

/-- The dates go on day by day from the epoch. -/
theorem civilOf_eq_on (n : Int) : civilOf (n + 719468) = Date.on n := by
  refine Date.eq_on (f := fun n => civilOf (n + 719468)) rfl (fun n => ?_) n
  rw [← civilOf_succ]
  exact congrArg civilOf (by omega)

theorem dateOfDay_eq (z : Int) : dateOfDay z = (civilOf z).yyyymmdd := by
  unfold dateOfDay
  rw [dayOfYear_eq]
  exact dateOf_eq (inYear_yearOf z)

/-- The number of a second is that of its date in the calendar. -/
theorem unixToYyyymmddUtc_eq (t : Int) : unixToYyyymmddUtc t = (Date.on (t / 86400)).yyyymmdd := by
  rw [← civilOf_eq_on, ← dateOfDay_eq]
  rfl

theorem civilOf_year {z : Int} (hlo : 693960 ≤ z) (hhi : z < 767009) :
    1900 ≤ (civilOf z).year ∧ (civilOf z).year ≤ 2100 := by
  have hbounds := yearOf_bounds z
  have hyear : (civilOf z).year = yearOf z ∨ (civilOf z).year = yearOf z + 1 := by
    show yearOf z + _ = _ ∨ yearOf z + _ = _
    split <;> simp
  have hlow : 1900 ≤ yearOf z := by
    by_contra hlt
    have hstart := yearStart_lt (show yearOf z + 1 < 1901 by omega)
    have : yearStart 1901 = 694325 := rfl
    omega
  have hhigh : yearOf z < 2100 := by
    by_contra hle
    have hstart := yearStart_lt (show 2099 < yearOf z by omega)
    have : yearStart 2099 = 766644 := rfl
    omega
  omega

/-! ### Midnight -/

/-- A number of a date is taken for one from 1900 to 2100. -/
theorem isYyyymmdd_yyyymmdd (d : Date) :
    isYyyymmdd d.yyyymmdd = decide (1900 ≤ d.year ∧ d.year ≤ 2100) := by
  have hmonth := d.month_mem
  have hday := d.day_mem
  have hlength := monthLength_le d.year d.month
  unfold isYyyymmdd
  rw [d.yyyymmdd_div, d.yyyymmdd_div_mod, d.yyyymmdd_mod]
  apply decide_eq_decide.mpr
  unfold Date.yyyymmdd
  omega

/-- The month of a year from March, back from its number. -/
theorem monthOf_back {mp : Int} (hlo : 0 ≤ mp) (hhi : mp ≤ 11) :
    monthOf mp + (if monthOf mp > 2 then -3 else 9) = mp := by
  unfold monthOf
  repeat' split
  all_goals omega

/-- The seconds of a date are those of the midnight its day begins with. -/
theorem yyyymmddToUnixUtc_civilOf (z : Int) :
    yyyymmddToUnixUtc (civilOf z).yyyymmdd =
      if -2 ^ 31 ≤ (z - 719468) * 86400 ∧ (z - 719468) * 86400 < 2 ^ 31 then
        some ((z - 719468) * 86400) else none := by
  have h := inYear_yearOf z
  obtain ⟨hmonth, hmonth'⟩ := h.month
  have hback := monthOf_back hmonth hmonth'
  have hyear : (civilOf z).year - (if (civilOf z).month ≤ 2 then 1 else 0) = yearOf z := by
    show yearOf z + _ - _ = yearOf z
    exact Int.add_sub_cancel _ _
  have hdoy : (153 * ((civilOf z).month + if (civilOf z).month > 2 then -3 else 9) + 2) / 5 +
      (civilOf z).day - 1 = z - yearStart (yearOf z) := by
    show (153 * (monthOf _ + if monthOf _ > 2 then -3 else 9) + 2) / 5 + (_ - monthStart _ + 1) - 1 = _
    rw [hback]
    unfold monthStart
    omega
  have hdays : yearOf z / 400 * 146097 + (yearOf z % 400 * 365 + yearOf z % 400 / 4 -
      yearOf z % 400 / 100 + (z - yearStart (yearOf z))) = z := by
    unfold yearStart
    omega
  unfold yyyymmddToUnixUtc
  simp only [Date.yyyymmdd_div, Date.yyyymmdd_div_mod, Date.yyyymmdd_mod, hyear, hdoy, hdays]

/-- A daily or weekly index is read back as the midnight before its second. -/
theorem markerToSsboe_unixToYyyymmddUtc {t : Int} (hlo : -2 ^ 31 ≤ t) (hhi : t < 2 ^ 31) :
    isYyyymmdd (unixToYyyymmddUtc t) = true ∧
    yyyymmddToUnixUtc (unixToYyyymmddUtc t) =
      if -2 ^ 31 ≤ t / 86400 * 86400 ∧ t / 86400 * 86400 < 2 ^ 31 then some (t / 86400 * 86400)
      else none := by
  have hday : t / 86400 + 719468 - 719468 = t / 86400 := Int.add_sub_cancel _ _
  have hnumber : unixToYyyymmddUtc t = (civilOf (t / 86400 + 719468)).yyyymmdd := dateOfDay_eq _
  rw [hnumber, isYyyymmdd_yyyymmdd, yyyymmddToUnixUtc_civilOf, hday]
  exact ⟨decide_eq_true (civilOf_year (by omega) (by omega)), rfl⟩

end RithmicNt.Plants.Calendar
