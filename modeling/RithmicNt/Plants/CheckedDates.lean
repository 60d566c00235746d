import RithmicNt.Exec.Timestamps
import RithmicNt.Plants.CivilDates

/-! The date conversions of the bar replays on machine integers: nothing overflows on the way from a
32-bit second to its date and back to midnight. -/

namespace RithmicNt.Plants.CheckedDates

open RithmicNt.Lib RithmicNt.Lib.Gregorian RithmicNt.Plants.Calendar
open IntType (i32 i64 u32)
open Checked (of divEuclid remEuclid cast tryFrom test choose)

/-- `v` looks like a date from 1900 to 2100. -/
def isYyyymmdd (v : Checked i32) : Option Bool := do
  if !(← test v fun v => 19000101 ≤ v ∧ v ≤ 21001231) then return false
  let y := v / 10000
  let m := v / 100 % 100
  let d := v % 100
  return (← test y fun y => 1900 ≤ y ∧ y ≤ 2100) && (← test m fun m => 1 ≤ m ∧ m ≤ 12) &&
    (← test d fun d => 1 ≤ d ∧ d ≤ 31)

/-- The `as i32` of the source wraps, where this last cast fails; on the 32-bit seconds that reach it the
two agree, for no number leaves the range (`unixToYyyymmddUtc_of`). -/
def unixToYyyymmddUtc (unixSec : Checked i64) : Checked i32 :=
  let z := divEuclid unixSec 86400 + 719468
  let era := divEuclid z 146097
  let doe := remEuclid z 146097
  let yoe := (doe - doe / 1460 + doe / 36524 - doe / 146096) / 365
  let y := yoe + era * 400
  let doy := doe - (365 * yoe + yoe / 4 - yoe / 100)
  let mp := (5 * doy + 2) / 153
  let d := doy - (153 * mp + 2) / 5 + 1
  let m := mp + choose mp (fun mp => mp < 10) 3 (-9)
  let y := y + choose m (fun m => m ≤ 2) 1 0
  cast i32 (y * 10000 + m * 100 + d)

/-- UTC midnight of a date, where it is a 32-bit number of seconds. -/
def yyyymmddToUnixUtc (ymd : Checked i32) : Option (Option (Value i32)) :=
  let y := ymd / 10000
  let m := ymd / 100 % 100
  let d := ymd % 100
  let y := y - choose m (fun m => m ≤ 2) 1 0
  let era := divEuclid y 400
  let yoe := cast u32 (remEuclid y 400)
  let doy := (153 * cast u32 (m + choose m (fun m => m > 2) (-3) 9) + 2) / 5 + cast u32 d - 1
  let doe := yoe * 365 + yoe / 4 - yoe / 100 + doy
  let days := cast i64 era * 146097 + cast i64 doe - 719468
  tryFrom i32 (days * 86400)

def barReplayIndex (type : TimeBarType) (unixSec : Checked i32) : Checked i32 :=
  match type with
  | .daily | .weekly => unixToYyyymmddUtc (cast i64 unixSec)
  | _ => unixSec

def markerToSsboe (marker : Checked i32) : Option (Option (Value i32)) := do
  if ← isYyyymmdd marker then yyyymmddToUnixUtc marker else Option.map some marker

/-! ### No overflow -/

theorem yearOfEra_of {doe : Int} (hlo : 0 ≤ doe) (hhi : doe < 146097) :
    (of i64 doe - of i64 doe / 1460 + of i64 doe / 36524 - of i64 doe / 146096) / 365 =
      of i64 (yearOfEra doe) := by
  have hyear := (yearOfEra_bounds hlo hhi).1
  unfold yearOfEra at *
  simp (disch := (try simp only [IntType.holds_i64]); omega) only [Checked.ofNat_eq,
    Checked.of_div, Checked.of_sub, Checked.of_add]

theorem dayOfYear_of {doe : Int} (hlo : 0 ≤ doe) (hhi : doe < 146097) :
    of i64 doe - (365 * of i64 (yearOfEra doe) + of i64 (yearOfEra doe) / 4 -
      of i64 (yearOfEra doe) / 100) = of i64 (dayOfYear doe) := by
  have hyear := yearOfEra_bounds hlo hhi
  rw [dayOfYear]
  generalize yearOfEra doe = yoe at *
  simp (disch := (try simp only [IntType.holds_i64]); omega) only [Checked.ofNat_eq,
    Checked.of_mul, Checked.of_div, Checked.of_sub, Checked.of_add]

theorem unixToYyyymmddUtc_of {t : Int} (h : i32.Holds t) :
    unixToYyyymmddUtc (of i64 t) = of i32 (Calendar.unixToYyyymmddUtc t) := by
  rw [IntType.holds_i32] at h
  unfold unixToYyyymmddUtc
  extract_lets z era doe yoe y doy mp d m y'
  obtain ⟨day, hday⟩ : ∃ day, day = t / 86400 + 719468 := ⟨_, rfl⟩
  have hdate : Calendar.unixToYyyymmddUtc t = dateOfDay day := by rw [hday]; rfl
  have hlo : 0 ≤ day % 146097 := by omega
  have hhi : day % 146097 < 146097 := by omega
  have hyear := yearOfEra_bounds hlo hhi
  have hdoy := dayOfYear_bounds hlo hhi
  have z_eq : z = of i64 day := by
    show divEuclid (of i64 t) 86400 + 719468 = _
    simp (disch := (try simp only [IntType.holds_i64]); omega) only [hday, Checked.ofNat_eq,
      Checked.of_divEuclid, Checked.of_add]
  have era_eq : era = of i64 (day / 146097) := by
    show divEuclid z 146097 = _
    simp (disch := (try simp only [IntType.holds_i64]); omega) only [z_eq, Checked.ofNat_eq,
      Checked.of_divEuclid]
  have doe_eq : doe = of i64 (day % 146097) := by
    show remEuclid z 146097 = _
    simp (disch := (try simp only [IntType.holds_i64]); omega) only [z_eq, Checked.ofNat_eq,
      Checked.of_remEuclid]
  have yoe_eq : yoe = of i64 (yearOfEra (day % 146097)) := by
    show (doe - doe / 1460 + doe / 36524 - doe / 146096) / 365 = _
    rw [doe_eq, yearOfEra_of hlo hhi]
  have doy_eq : doy = of i64 (dayOfYear (day % 146097)) := by
    show doe - (365 * yoe + yoe / 4 - yoe / 100) = _
    rw [doe_eq, yoe_eq, dayOfYear_of hlo hhi]
  rw [hdate, dateOfDay]
  generalize yearOfEra (day % 146097) = year at *
  generalize dayOfYear (day % 146097) = n at *
  have y_eq : y = of i64 (year + day / 146097 * 400) := by
    show yoe + era * 400 = _
    simp (disch := (try simp only [IntType.holds_i64]); omega) only [yoe_eq, era_eq,
      Checked.ofNat_eq, Checked.of_mul, Checked.of_add]
  obtain ⟨month, hmonth⟩ : ∃ month, month = (5 * n + 2) / 153 := ⟨_, rfl⟩
  have mp_eq : mp = of i64 month := by
    show (5 * doy + 2) / 153 = _
    simp (disch := (try simp only [IntType.holds_i64]); omega) only [doy_eq, hmonth,
      Checked.ofNat_eq, Checked.of_mul, Checked.of_add, Checked.of_div]
  have d_eq : d = of i64 (n - (153 * month + 2) / 5 + 1) := by
    show doy - (153 * mp + 2) / 5 + 1 = _
    simp (disch := (try simp only [IntType.holds_i64]); omega) only [doy_eq, mp_eq,
      Checked.ofNat_eq, Checked.of_mul, Checked.of_add, Checked.of_sub, Checked.of_div]
  obtain ⟨shift, hshift⟩ : ∃ shift : Int, shift = if month < 10 then 3 else -9 := ⟨_, rfl⟩
  have hshifts : shift = 3 ∨ shift = -9 := by
    rw [hshift]
    split <;> simp
  have m_eq : m = of i64 (month + shift) := by
    show mp + choose mp (fun mp => mp < 10) 3 (-9) = _
    simp (disch := (try simp only [IntType.holds_i64]); omega) only [mp_eq, Checked.ofNat_eq,
      Checked.of_neg, Checked.choose_of, ← hshift, Checked.of_add]
  obtain ⟨turn, hturn⟩ : ∃ turn : Int, turn = if month + shift ≤ 2 then 1 else 0 := ⟨_, rfl⟩
  have hturns : turn = 1 ∨ turn = 0 := by
    rw [hturn]
    split <;> simp
  have y'_eq : y' = of i64 (year + day / 146097 * 400 + turn) := by
    show y + choose m (fun m => m ≤ 2) 1 0 = _
    simp (disch := (try simp only [IntType.holds_i64]); omega) only [y_eq, m_eq, Checked.ofNat_eq,
      Checked.choose_of, ← hturn, Checked.of_add]
  have hresult : dateOf (year + day / 146097 * 400) n = (year + day / 146097 * 400 + turn) * 10000 +
      (month + shift) * 100 + (n - (153 * month + 2) / 5 + 1) := by
    rw [hturn, hshift, hmonth]
    rfl
  rw [hresult]
  simp (disch := (try simp only [IntType.holds_i64]); omega) only [y'_eq, m_eq, d_eq,
    Checked.ofNat_eq, Checked.of_mul, Checked.of_add, Checked.cast_of]

/-- What looks like a date is converted without an overflow. -/
theorem yyyymmddToUnixUtc_of {v : Int} (h : Calendar.isYyyymmdd v = true) :
    (yyyymmddToUnixUtc (of i32 v)).map (Option.map Value.val) =
      some (Calendar.yyyymmddToUnixUtc v) := by
  obtain ⟨hlo, hhi, hyear, hyear', hmonth, hmonth', hday, hday'⟩ := of_decide_eq_true h
  unfold yyyymmddToUnixUtc
  extract_lets y m d y' era yoe doy doe days
  unfold Calendar.yyyymmddToUnixUtc
  dsimp only
  generalize hy : v / 10000 = year at *
  generalize hm : v / 100 % 100 = month at *
  generalize hd : v % 100 = date at *
  have y_eq : y = of i32 year := by
    show of i32 v / 10000 = _
    simp (disch := (try simp only [IntType.holds_i32]); omega) only [Checked.ofNat_eq,
      Checked.of_div, hy]
  have m_eq : m = of i32 month := by
    show of i32 v / 100 % 100 = _
    simp (disch := (try simp only [IntType.holds_i32]); omega) only [Checked.ofNat_eq,
      Checked.of_div, Checked.of_mod, hm]
  have d_eq : d = of i32 date := by
    show of i32 v % 100 = _
    simp (disch := (try simp only [IntType.holds_i32]); omega) only [Checked.ofNat_eq,
      Checked.of_mod, hd]
  obtain ⟨turn, hturn⟩ : ∃ turn : Int, turn = if month ≤ 2 then 1 else 0 := ⟨_, rfl⟩
  have hturns : turn = 1 ∨ turn = 0 := by
    rw [hturn]
    split <;> simp
  have y'_eq : y' = of i32 (year - turn) := by
    show y - choose m (fun m => m ≤ 2) 1 0 = _
    simp (disch := (try simp only [IntType.holds_i32]); omega) only [y_eq, m_eq, Checked.ofNat_eq,
      Checked.choose_of, ← hturn, Checked.of_sub]
  rw [← hturn]
  obtain ⟨start, hstart⟩ : ∃ start, start = year - turn := ⟨_, rfl⟩
  rw [← hstart] at y'_eq ⊢
  have era_eq : era = of i32 (start / 400) := by
    show divEuclid y' 400 = _
    simp (disch := (try simp only [IntType.holds_i32]); omega) only [y'_eq, Checked.ofNat_eq,
      Checked.of_divEuclid]
  have yoe_eq : yoe = of u32 (start % 400) := by
    show cast u32 (remEuclid y' 400) = _
    simp (disch := (try simp only [IntType.holds_i32]); omega) only [y'_eq, Checked.ofNat_eq,
      Checked.of_remEuclid, Checked.cast_of]
  obtain ⟨shift, hshift⟩ : ∃ shift : Int, shift = if month > 2 then -3 else 9 := ⟨_, rfl⟩
  have hshifts : 0 ≤ month + shift ∧ month + shift ≤ 11 := by
    rw [hshift]
    split <;> omega
  have hindex : cast u32 (m + choose m (fun m => m > 2) (-3) 9) = of u32 (month + shift) := by
    simp (disch := (try simp only [IntType.holds_i32]); omega) only [m_eq, Checked.ofNat_eq,
      Checked.of_neg, Checked.choose_of, ← hshift, Checked.of_add, Checked.cast_of]
  have doy_eq : doy = of u32 ((153 * (month + shift) + 2) / 5 + date - 1) := by
    show (153 * cast u32 (m + choose m (fun m => m > 2) (-3) 9) + 2) / 5 + cast u32 d - 1 = _
    rw [hindex, d_eq, Checked.cast_of (by rw [IntType.holds_i32]; omega)]
    simp (disch := (try simp only [IntType.holds_u32]); omega) only [Checked.ofNat_eq,
      Checked.of_mul, Checked.of_add, Checked.of_div, Checked.of_sub]
  rw [← hshift]
  obtain ⟨n, hn⟩ : ∃ n, n = (153 * (month + shift) + 2) / 5 + date - 1 := ⟨_, rfl⟩
  rw [← hn] at doy_eq ⊢
  have doe_eq : doe = of u32 (start % 400 * 365 + start % 400 / 4 - start % 400 / 100 + n) := by
    show yoe * 365 + yoe / 4 - yoe / 100 + doy = _
    simp (disch := (try simp only [IntType.holds_u32]); omega) only [yoe_eq, doy_eq,
      Checked.ofNat_eq, Checked.of_mul, Checked.of_add, Checked.of_div, Checked.of_sub]
  obtain ⟨rest, hrest⟩ : ∃ rest, rest = start % 400 * 365 + start % 400 / 4 - start % 400 / 100 + n :=
    ⟨_, rfl⟩
  have hrests : 0 ≤ rest ∧ rest < 150000 := by omega
  rw [← hrest] at doe_eq ⊢
  have hseconds : days * 86400 = of i64 ((start / 400 * 146097 + rest - 719468) * 86400) := by
    show (cast i64 era * 146097 + cast i64 doe - 719468) * 86400 = _
    rw [era_eq, doe_eq, Checked.cast_of (by rw [IntType.holds_i32]; omega),
      Checked.cast_of (by rw [IntType.holds_u32]; omega)]
    simp (disch := (try simp only [IntType.holds_i64]); omega) only [Checked.ofNat_eq,
      Checked.of_mul, Checked.of_add, Checked.of_sub]
  rw [hseconds, Checked.tryFrom_of (by rw [IntType.holds_i64]; omega)]
  exact congrArg some (Checked.map_val_of _)

theorem isYyyymmdd_of {v : Int} (h : i32.Holds v) :
    isYyyymmdd (of i32 v) = some (Calendar.isYyyymmdd v) := by
  rw [IntType.holds_i32] at h
  unfold isYyyymmdd Calendar.isYyyymmdd
  by_cases hrange : 19000101 ≤ v ∧ v ≤ 21001231
  · have y_eq : of i32 v / 10000 = of i32 (v / 10000) := by
      simp (disch := (try simp only [IntType.holds_i32]); omega) only [Checked.ofNat_eq,
        Checked.of_div]
    have m_eq : of i32 v / 100 % 100 = of i32 (v / 100 % 100) := by
      simp (disch := (try simp only [IntType.holds_i32]); omega) only [Checked.ofNat_eq,
        Checked.of_div, Checked.of_mod]
    have d_eq : of i32 v % 100 = of i32 (v % 100) := by
      simp (disch := (try simp only [IntType.holds_i32]); omega) only [Checked.ofNat_eq,
        Checked.of_mod]
    simp (disch := (try simp only [IntType.holds_i32]); omega) only [Checked.test_of, y_eq, m_eq,
      d_eq, Option.bind_eq_bind, Option.bind_some]
    simp [hrange, Bool.and_assoc]
  · simp (disch := (try simp only [IntType.holds_i32]); omega) only [Checked.test_of]
    simp only [hrange, decide_false]
    refine congrArg some (Eq.symm (decide_eq_false ?_))
    rintro ⟨hlo, hhi, -⟩
    exact hrange ⟨hlo, hhi⟩

theorem unixToYyyymmddUtc_cast (t : Value i32) :
    unixToYyyymmddUtc (cast i64 (some t)) = of i32 (Calendar.unixToYyyymmddUtc t.val) :=
  unixToYyyymmddUtc_of t.holds

/-- The number of a 32-bit second fits. -/
theorem holds_unixToYyyymmddUtc (t : Value i32) : i32.Holds (Calendar.unixToYyyymmddUtc t.val) := by
  have ht := t.holds
  rw [IntType.holds_i32] at ht
  have hdate := of_decide_eq_true (markerToSsboe_unixToYyyymmddUtc ht.1 ht.2).1
  rw [IntType.holds_i32]
  omega

/-- A daily marker is read as its midnight, or as nothing where that does not fit. -/
theorem markerToSsboe_daily (t : Value i32) :
    (markerToSsboe (barReplayIndex .daily (some t))).map (Option.map Value.val) =
      some (if i32.Holds (t.val / 86400 * 86400) then some (t.val / 86400 * 86400) else none) := by
  have ht := t.holds
  rw [IntType.holds_i32] at ht
  obtain ⟨hdate, hmidnight⟩ := markerToSsboe_unixToYyyymmddUtc ht.1 ht.2
  have hindex : barReplayIndex .daily (some t) = of i32 (Calendar.unixToYyyymmddUtc t.val) :=
    unixToYyyymmddUtc_cast t
  have hmarker : markerToSsboe (of i32 (Calendar.unixToYyyymmddUtc t.val)) =
      yyyymmddToUnixUtc (of i32 (Calendar.unixToYyyymmddUtc t.val)) := by
    unfold markerToSsboe
    rw [isYyyymmdd_of (holds_unixToYyyymmddUtc t), hdate]
    rfl
  rw [hindex, hmarker, yyyymmddToUnixUtc_of hdate, hmidnight]
  rfl

theorem unixToYyyymmddUtc_mono : Monotone Calendar.unixToYyyymmddUtc := fun _ _ h =>
  dateOfDay_strictMono.monotone (by omega)

/-- The time stamp of a bar is that of its second, with no microseconds. -/
theorem venueTsNs_bar (ssboe : Value i32) :
    (Exec.venueTsNs (some ssboe) (some ⟨0, by decide⟩)).map (fun ns => ns.val.toNat) =
      Calendar.venueTsNs ssboe.val := by
  unfold Calendar.venueTsNs
  split
  · next hneg =>
    rw [Exec.venueTsNs_eq_none_iff.mpr (.inr (.inl ⟨ssboe, rfl, hneg⟩))]
    rfl
  · next hpos =>
    have hsome : ∃ ns, Exec.venueTsNs (some ssboe) (some ⟨0, by decide⟩) = some ns :=
      Exec.venueTsNs_isSome (by omega) (by decide)
    obtain ⟨ns, hns⟩ := hsome
    obtain ⟨s, ⟨⟩, -, -, hval⟩ := Exec.venueTsNs_eq_some_iff.mp hns
    rw [hns, Option.map_some, hval]
    show some (ssboe.val * 1000000000 + 0).toNat = _
    rw [Int.add_zero, Int.toNat_mul (by omega) (by decide)]
    rfl

/-- A 32-bit second has the number of its calendar date, and the midnight before it is read back from
that number. -/
theorem calendar_conversion (t : Value i32) :
    ∃ date : Value i32,
      unixToYyyymmddUtc (cast i64 (some t)) = some date ∧
      date.val = (Date.on (t.val / 86400)).yyyymmdd ∧
      (∀ midnight : Value i32, midnight.val = t.val / 86400 * 86400 →
        markerToSsboe (barReplayIndex .daily (some t)) = some (some midnight)) ∧
      ∀ t' date' : Value i32, unixToYyyymmddUtc (cast i64 (some t')) = some date' →
        (t.val ≤ t'.val → date.val ≤ date'.val) ∧
        (t.val / 86400 < t'.val / 86400 → date.val < date'.val) := by
  have hdate := (unixToYyyymmddUtc_cast t).trans (Checked.of_eq_some (holds_unixToYyyymmddUtc t))
  refine ⟨_, hdate, unixToYyyymmddUtc_eq t.val, fun midnight hmidnight => ?_, fun t' date' hdate' => ?_⟩
  · have hread := markerToSsboe_daily t
    rw [← hmidnight, if_pos midnight.holds] at hread
    obtain ⟨seconds, hseconds, hval⟩ := Option.map_eq_some_iff.mp hread
    obtain ⟨second, rfl, hsecond⟩ := Option.map_eq_some_iff.mp hval
    rw [hseconds, Value.ext hsecond]
  · rw [unixToYyyymmddUtc_cast, Checked.of_eq_some (holds_unixToYyyymmddUtc t')] at hdate'
    obtain rfl := Option.some.inj hdate'
    exact ⟨fun hle => unixToYyyymmddUtc_mono hle, fun hlt => dateOfDay_strictMono (by omega)⟩

end RithmicNt.Plants.CheckedDates
