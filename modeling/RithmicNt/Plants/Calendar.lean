import Mathlib.Algebra.Order.SuccPred
import Mathlib.Data.Int.ConditionallyCompleteOrder
import Mathlib.Data.Int.SuccPred

/-! The calendar of the bar replays: daily and weekly bars are asked for and marked by `YYYYMMDD`, all
others by Unix seconds. -/

namespace RithmicNt.Plants.Calendar

/-! ### Dates -/

/-- `v` looks like a date from 1900 to 2100. -/
def isYyyymmdd (v : Int) : Bool :=
  let y := v / 10000
  let m := v / 100 % 100
  let d := v % 100
  19000101 ≤ v ∧ v ≤ 21001231 ∧ 1900 ≤ y ∧ y ≤ 2100 ∧ 1 ≤ m ∧ m ≤ 12 ∧ 1 ≤ d ∧ d ≤ 31

/-- The year of an era of 400 years, from March, that a day of the era is in. -/
def yearOfEra (doe : Int) : Int := (doe - doe / 1460 + doe / 36524 - doe / 146096) / 365

def dayOfYear (doe : Int) : Int :=
  doe - (365 * yearOfEra doe + yearOfEra doe / 4 - yearOfEra doe / 100)

/-- The date of a day of a year that starts in March. -/
def dateOf (year doy : Int) : Int :=
  let mp := (5 * doy + 2) / 153
  let d := doy - (153 * mp + 2) / 5 + 1
  let m := mp + if mp < 10 then 3 else -9
  (year + if m ≤ 2 then 1 else 0) * 10000 + m * 100 + d

/-- The date of a day, counted from the first of March of the year 0. -/
def dateOfDay (z : Int) : Int :=
  dateOf (yearOfEra (z % 146097) + z / 146097 * 400) (dayOfYear (z % 146097))

def unixToYyyymmddUtc (unixSec : Int) : Int := dateOfDay (unixSec / 86400 + 719468)

/-- UTC midnight of a date, where it is a 32-bit number of seconds. -/
def yyyymmddToUnixUtc (ymd : Int) : Option Int :=
  let m := ymd / 100 % 100
  let d := ymd % 100
  let y := ymd / 10000 - if m ≤ 2 then 1 else 0
  let era := y / 400
  let yoe := y % 400
  let doy := (153 * (m + if m > 2 then -3 else 9) + 2) / 5 + d - 1
  let doe := yoe * 365 + yoe / 4 - yoe / 100 + doy
  let seconds := (era * 146097 + doe - 719468) * 86400
  if -2 ^ 31 ≤ seconds ∧ seconds < 2 ^ 31 then some seconds else none

def markerToSsboe (marker : Int) : Option Int :=
  if isYyyymmdd marker then yyyymmddToUnixUtc marker else some marker

/-- `venue_ts_ns`, with no microseconds. -/
def venueTsNs (ssboe : Int) : Option Nat :=
  if ssboe < 0 then none else some (ssboe.toNat * 1000000000)

/-! ### Time bars -/

inductive TimeBarType
  | second
  | minute
  | daily
  | weekly
  deriving DecidableEq, Repr

def barReplayIndex (type : TimeBarType) (unixSec : Int) : Int :=
  match type with
  | .daily | .weekly => unixToYyyymmddUtc unixSec
  | _ => unixSec

def barSliceSecs (type : TimeBarType) (period : Int) : Int :=
  match type with
  | .daily | .weekly => 536870911
  | .minute =>
    if period ≥ 60 then 180 * 24 * 60 * 60
    else if period ≥ 15 then 90 * 24 * 60 * 60
    else 40 * 24 * 60 * 60
  | .second => 2 * 60 * 60

/-! ### Later days have later dates -/

/-- The days of an era before its year `y`. -/
def daysBefore (y : Int) : Int := 365 * y + y / 4 - y / 100

/-- What `yearOfEra` divides by the days of a year. -/
def leapless (doe : Int) : Int := doe - doe / 1460 + doe / 36524 - doe / 146096

theorem leapless_mono : Monotone leapless := by
  refine monotone_int_of_le_succ fun x => ?_
  unfold leapless
  omega

/-- The first day of each year of an era falls into that year, and the day before it does not. -/
theorem leapless_daysBefore : ∀ y : Nat, y < 400 →
    365 * (y : Int) ≤ leapless (daysBefore y) ∧
      (0 < y → leapless (daysBefore y - 1) < 365 * (y : Int)) := by
  decide +kernel

theorem yearOfEra_bounds {doe : Int} (hlo : 0 ≤ doe) (hhi : doe < 146097) :
    0 ≤ yearOfEra doe ∧ yearOfEra doe < 400 := by
  have hlow : leapless 0 ≤ leapless doe := leapless_mono hlo
  have hhigh : leapless doe ≤ leapless 146096 := leapless_mono (by omega)
  have hzero : leapless 0 = 0 := rfl
  have hlast : leapless 146096 = 145999 := rfl
  show 0 ≤ leapless doe / 365 ∧ leapless doe / 365 < 400
  omega

/-- A day of an era lies in the year that `yearOfEra` gives it. -/
theorem dayOfYear_bounds {doe : Int} (hlo : 0 ≤ doe) (hhi : doe < 146097) :
    0 ≤ dayOfYear doe ∧ dayOfYear doe ≤ 365 := by
  obtain ⟨hyear, hyear'⟩ := yearOfEra_bounds hlo hhi
  obtain ⟨y, hy⟩ := Int.eq_ofNat_of_zero_le hyear
  have hdivides : 365 * (y : Int) ≤ leapless doe ∧ leapless doe < 365 * (y : Int) + 365 := by
    have : yearOfEra doe = leapless doe / 365 := rfl
    omega
  have hday : dayOfYear doe = doe - daysBefore y := by
    rw [dayOfYear, hy, daysBefore]
  have hstart := leapless_daysBefore y (by omega)
  constructor
  · by_contra hneg
    have hbefore : leapless doe ≤ leapless (daysBefore y - 1) := leapless_mono (by omega)
    rcases Nat.eq_zero_or_pos y with rfl | hpos
    · have : daysBefore ((0 : Nat) : Int) = 0 := rfl
      omega
    · have := hstart.2 hpos
      omega
  · by_contra hlong
    by_cases hlast : y = 399
    · have : daysBefore (y : Int) = 145731 := by rw [hlast]; rfl
      omega
    · have hnext := (leapless_daysBefore (y + 1) (by omega)).1
      have hyearLength : daysBefore ((y + 1 : Nat) : Int) ≤ daysBefore y + 366 := by
        unfold daysBefore
        push_cast
        omega
      have hafter : leapless (daysBefore ((y + 1 : Nat) : Int)) ≤ leapless doe :=
        leapless_mono (by omega)
      push_cast at hnext hafter
      omega

theorem dateOf_lt_succ (year : Int) {doy : Int} (hlo : 0 ≤ doy) (hhi : doy < 365) :
    dateOf year doy < dateOf year (doy + 1) := by
  unfold dateOf
  dsimp only
  split <;> split <;> split <;> split <;> omega

theorem dateOf_lt_of_year {year year' doy doy' : Int} (hyear : year < year') (hlo : 0 ≤ doy)
    (hhi : doy ≤ 365) (hlo' : 0 ≤ doy') (hhi' : doy' ≤ 365) : dateOf year doy < dateOf year' doy' := by
  unfold dateOf
  dsimp only
  split <;> split <;> split <;> split <;> omega

theorem dateOfDay_strictMono : StrictMono dateOfDay := by
  refine strictMono_int_of_lt_succ fun z => ?_
  unfold dateOfDay
  have hlo : 0 ≤ z % 146097 := by omega
  have hhi : z % 146097 < 146097 := by omega
  obtain ⟨hday, hday'⟩ := dayOfYear_bounds hlo hhi
  obtain ⟨hyear, hyear'⟩ := yearOfEra_bounds hlo hhi
  by_cases hlast : z % 146097 = 146096
  · -- the first day of the next era
    have hera : (z + 1) / 146097 = z / 146097 + 1 := by omega
    have hfirst : (z + 1) % 146097 = 0 := by omega
    rw [hera, hfirst]
    exact dateOf_lt_of_year (by have : yearOfEra 0 = 0 := rfl; omega) hday hday' (by decide) (by decide)
  · have hera : (z + 1) / 146097 = z / 146097 := by omega
    have hnext : (z + 1) % 146097 = z % 146097 + 1 := by omega
    rw [hera, hnext]
    obtain ⟨hnextDay, hnextDay'⟩ :=
      dayOfYear_bounds (show 0 ≤ z % 146097 + 1 by omega) (by omega)
    have hyears : yearOfEra (z % 146097) ≤ yearOfEra (z % 146097 + 1) :=
      Int.ediv_le_ediv (by decide) (leapless_mono (by omega))
    rcases lt_or_eq_of_le hyears with hlt | heq
    · exact dateOf_lt_of_year (by omega) hday hday' hnextDay hnextDay'
    · have hstep : dayOfYear (z % 146097 + 1) = dayOfYear (z % 146097) + 1 := by
        unfold dayOfYear
        rw [← heq]
        omega
      rw [← heq, hstep]
      exact dateOf_lt_succ _ hday (by omega)

/-! ### Slices in the index of the replay -/

theorem barReplayIndex_mono (type : TimeBarType) : Monotone (barReplayIndex type) := by
  intro a b hab
  unfold barReplayIndex
  split
  · exact dateOfDay_strictMono.monotone (by omega)
  · exact dateOfDay_strictMono.monotone (by omega)
  · exact hab

theorem barSliceSecs_pos (type : TimeBarType) (period : Int) : 1 ≤ barSliceSecs type period := by
  unfold barSliceSecs
  repeat' split
  all_goals decide

/-- A full slice reaches a later index. -/
theorem barReplayIndex_lt (type : TimeBarType) (period a : Int) :
    barReplayIndex type a < barReplayIndex type (a + barSliceSecs type period) := by
  have hpos := barSliceSecs_pos type period
  cases type with
  | second => exact show a < a + _ by omega
  | minute => exact show a < a + _ by omega
  | daily => exact dateOfDay_strictMono (show a / 86400 + 719468 < _ by simp only [barSliceSecs]; omega)
  | weekly => exact dateOfDay_strictMono (show a / 86400 + 719468 < _ by simp only [barSliceSecs]; omega)

end RithmicNt.Plants.Calendar
