import RithmicNt.Lib.Checked

/-! The time stamps of venue events, in nanoseconds since the epoch. -/

namespace RithmicNt.Exec

open RithmicNt.Lib
open IntType (i32 u64)

def nanosPerSec : Int := 1000000000

/-- `ssboe` seconds plus `usecs` microseconds.  The 128 bits of the source hold any of them. -/
def nanos (ssboe usecs : Int) : Int := ssboe * nanosPerSec + usecs * 1000

def microsInRange (usecs : Int) : Prop := 0 ≤ usecs ∧ usecs < 1000000

instance (usecs : Int) : Decidable (microsInRange usecs) :=
  inferInstanceAs (Decidable (0 ≤ usecs ∧ usecs < 1000000))

/-- A bad venue value is absent, never a wrapped time. -/
def venueTsNs (ssboe usecs : Option (Value i32)) : Option (Value u64) := do
  let ssboe ← ssboe
  let usecs := (usecs.map Value.val).getD 0
  if ssboe.val < 0 ∨ ¬microsInRange usecs then none else Value.ofInt u64 (nanos ssboe.val usecs)

/-- The nanoseconds within the second.  `nsecs` counts them from the second where it agrees with
`usecs`, and from the microsecond where it is below 1000; otherwise only `usecs` is used. -/
def within (usecs nsecs : Option (Value i32)) : Int :=
  match usecs, nsecs with
  | some u, some n =>
    if n.val ≥ 0 ∧ n.val / 1000 = u.val then n.val
    else if 0 ≤ n.val ∧ n.val < 1000 then u.val * 1000 + n.val
    else u.val * 1000
  | some u, none => u.val * 1000
  | none, some n => if 0 ≤ n.val ∧ n.val < 1000000000 then n.val else 0
  | none, none => 0

/-- The exchange's own time stamp. -/
def exchangeTsNs (sourceSsboe sourceUsecs sourceNsecs : Option (Value i32)) : Option (Value u64) := do
  let ssboe ← sourceSsboe
  if ssboe.val ≤ 0 then none
  else
    let base := ssboe.val * nanosPerSec
    let usecs := sourceUsecs.filter fun u => microsInRange u.val
    Value.ofInt u64 (base + within usecs sourceNsecs)

/-! ### The second of a stamp -/

theorem within_bounds (usecs nsecs : Option (Value i32)) (h : ∀ u ∈ usecs, microsInRange u.val) :
    0 ≤ within usecs nsecs ∧ within usecs nsecs < nanosPerSec ∧
      ∀ u ∈ usecs, within usecs nsecs / 1000 = u.val := by
  unfold nanosPerSec
  cases usecs with
  | none =>
    cases nsecs with
    | none => simp [within]
    | some n =>
      simp only [within]
      split <;> simp_all
  | some u =>
    obtain ⟨hlo, hhi⟩ := h u rfl
    have hmicros : ∀ v : Int, v / 1000 = u.val → 0 ≤ v ∧ v < 1000000000 ∧
        ∀ u' ∈ some u, v / 1000 = u'.val := by
      intro v hv
      refine ⟨by omega, by omega, ?_⟩
      rintro u' ⟨⟩
      exact hv
    apply hmicros
    cases nsecs with
    | none => exact Int.mul_ediv_cancel _ (by decide)
    | some n =>
      simp only [within]
      split
      · next hagree => exact hagree.2
      · split <;> omega

/-- What a time stamp of the exchange is made of. -/
theorem exchangeTsNs_eq_some_iff {sourceSsboe sourceUsecs sourceNsecs : Option (Value i32)}
    {ns : Value u64} :
    exchangeTsNs sourceSsboe sourceUsecs sourceNsecs = some ns ↔
      ∃ s, sourceSsboe = some s ∧ 0 < s.val ∧ ns.val = s.val * nanosPerSec +
        within (sourceUsecs.filter fun u => microsInRange u.val) sourceNsecs := by
  cases sourceSsboe with
  | none => simp [exchangeTsNs]
  | some s =>
    simp only [exchangeTsNs, Option.bind_eq_bind, Option.bind_some, Option.some.injEq]
    split
    · next hle =>
      constructor
      · rintro ⟨⟩
      · rintro ⟨_, rfl, hpos, -⟩
        omega
    · next hpos =>
      rw [Value.ofInt_eq_some_iff]
      constructor
      · intro hns
        exact ⟨s, rfl, by omega, hns⟩
      · rintro ⟨_, rfl, -, hns⟩
        exact hns

theorem within_filter (usecs nsecs : Option (Value i32)) :
    0 ≤ within (usecs.filter fun u => microsInRange u.val) nsecs ∧
      within (usecs.filter fun u => microsInRange u.val) nsecs < nanosPerSec ∧
      ∀ u, usecs = some u → microsInRange u.val →
        within (usecs.filter fun u => microsInRange u.val) nsecs / 1000 = u.val := by
  obtain ⟨hlo, hhi, hmicros⟩ :=
    within_bounds (usecs.filter fun u => microsInRange u.val) nsecs (by
      intro u hu
      exact of_decide_eq_true (Option.mem_filter_iff.mp hu).2)
  refine ⟨hlo, hhi, fun u hu hrange => hmicros u ?_⟩
  exact Option.mem_filter_iff.mpr ⟨hu, decide_eq_true hrange⟩

/-- A positive second has a time stamp, whatever the parts within it. -/
theorem exchangeTsNs_isSome {s : Value i32} (h : 0 < s.val) (usecs nsecs : Option (Value i32)) :
    ∃ ns, exchangeTsNs (some s) usecs nsecs = some ns := by
  obtain ⟨hlo, hhi, -⟩ := within_filter usecs nsecs
  have hs := s.holds
  rw [IntType.holds_i32] at hs
  unfold nanosPerSec at hhi
  have hfits : u64.Holds (s.val * nanosPerSec +
      within (usecs.filter fun u => microsInRange u.val) nsecs) := by
    rw [IntType.holds_u64, nanosPerSec]
    omega
  exact ⟨⟨_, hfits⟩, exchangeTsNs_eq_some_iff.mpr ⟨s, rfl, h, rfl⟩⟩

theorem exchangeTsNs_eq_none_iff {ssboe usecs nsecs : Option (Value i32)} :
    exchangeTsNs ssboe usecs nsecs = none ↔ ssboe = none ∨ ∃ s, ssboe = some s ∧ s.val ≤ 0 := by
  constructor
  · intro hnone
    cases ssboe with
    | none => exact .inl rfl
    | some s =>
      refine .inr ⟨s, rfl, ?_⟩
      by_contra hpos
      obtain ⟨ns, hns⟩ := exchangeTsNs_isSome (show 0 < s.val by omega) usecs nsecs
      rw [hnone] at hns
      cases hns
  · intro habsent
    rw [Option.eq_none_iff_forall_ne_some]
    intro ns hns
    obtain ⟨s, rfl, hpos, -⟩ := exchangeTsNs_eq_some_iff.mp hns
    rcases habsent with habsent | ⟨s', ⟨⟩, hle⟩
    · cases habsent
    · omega

theorem venueTsNs_eq_some_iff {ssboe usecs : Option (Value i32)} {ns : Value u64} :
    venueTsNs ssboe usecs = some ns ↔
      ∃ s, ssboe = some s ∧ 0 ≤ s.val ∧ microsInRange ((usecs.map Value.val).getD 0) ∧
        ns.val = nanos s.val ((usecs.map Value.val).getD 0) := by
  cases ssboe with
  | none => simp [venueTsNs]
  | some s =>
    simp only [venueTsNs, Option.bind_eq_bind, Option.bind_some, Option.some.injEq]
    split
    · next hbad =>
      constructor
      · rintro ⟨⟩
      · rintro ⟨_, rfl, hs, hrange, -⟩
        rcases hbad with hneg | hout
        · omega
        · exact absurd hrange hout
    · next hgood =>
      rw [Value.ofInt_eq_some_iff]
      constructor
      · intro hns
        exact ⟨s, rfl, by omega, by_contra fun hout => hgood (.inr hout), hns⟩
      · rintro ⟨_, rfl, -, -, hns⟩
        exact hns

theorem venueTsNs_isSome {s : Value i32} {usecs : Option (Value i32)} (h : 0 ≤ s.val)
    (hrange : microsInRange ((usecs.map Value.val).getD 0)) :
    ∃ ns, venueTsNs (some s) usecs = some ns := by
  have hs := s.holds
  rw [IntType.holds_i32] at hs
  have hfits : u64.Holds (nanos s.val ((usecs.map Value.val).getD 0)) := by
    obtain ⟨hlo, hhi⟩ := hrange
    rw [IntType.holds_u64, nanos, nanosPerSec]
    omega
  exact ⟨⟨_, hfits⟩, venueTsNs_eq_some_iff.mpr ⟨s, rfl, h, hrange, rfl⟩⟩

theorem venueTsNs_eq_none_iff {ssboe usecs : Option (Value i32)} :
    venueTsNs ssboe usecs = none ↔ ssboe = none ∨ (∃ s, ssboe = some s ∧ s.val < 0) ∨
      ∃ u, usecs = some u ∧ ¬microsInRange u.val := by
  constructor
  · intro hnone
    cases ssboe with
    | none => exact .inl rfl
    | some s =>
      right
      by_contra hgood
      have hrange : microsInRange ((usecs.map Value.val).getD 0) := by
        cases usecs with
        | none => decide
        | some u => exact by_contra fun hout => hgood (.inr ⟨u, rfl, hout⟩)
      have hs : 0 ≤ s.val := by
        by_contra hneg
        exact hgood (.inl ⟨s, rfl, by omega⟩)
      obtain ⟨ns, hns⟩ := venueTsNs_isSome hs hrange
      rw [hnone] at hns
      cases hns
  · intro habsent
    rw [Option.eq_none_iff_forall_ne_some]
    intro ns hns
    obtain ⟨s, rfl, hs, hrange, -⟩ := venueTsNs_eq_some_iff.mp hns
    rcases habsent with habsent | ⟨s', ⟨⟩, hneg⟩ | ⟨u, rfl, hout⟩
    · cases habsent
    · omega
    · exact hout hrange

/-- A time stamp stays inside the second the venue sent, and is missing only for a missing or bad part. -/
theorem stamps_in_second (ssboe usecs nsecs : Option (Value i32)) :
    (exchangeTsNs ssboe usecs nsecs = none ↔ ssboe = none ∨ ∃ s, ssboe = some s ∧ s.val ≤ 0) ∧
    (∀ ns, exchangeTsNs ssboe usecs nsecs = some ns → ∃ s, ssboe = some s ∧
      s.val * 1000000000 ≤ ns.val ∧ ns.val < (s.val + 1) * 1000000000 ∧
      ∀ u, usecs = some u → 0 ≤ u.val → u.val < 1000000 → ns.val % 1000000000 / 1000 = u.val) ∧
    (venueTsNs ssboe usecs = none ↔ ssboe = none ∨ (∃ s, ssboe = some s ∧ s.val < 0) ∨
      ∃ u, usecs = some u ∧ ¬(0 ≤ u.val ∧ u.val < 1000000)) ∧
    ∀ ns, venueTsNs ssboe usecs = some ns → ∃ s, ssboe = some s ∧
      ns.val = s.val * 1000000000 + (usecs.map Value.val).getD 0 * 1000 := by
  refine ⟨exchangeTsNs_eq_none_iff, fun ns hns => ?_, venueTsNs_eq_none_iff, fun ns hns => ?_⟩
  · obtain ⟨s, rfl, hpos, hval⟩ := exchangeTsNs_eq_some_iff.mp hns
    obtain ⟨hlo, hhi, hmicros⟩ := within_filter usecs nsecs
    unfold nanosPerSec at hval hhi
    refine ⟨s, rfl, by omega, by omega, fun u hu hulo huhi => ?_⟩
    have hu' := hmicros u hu ⟨hulo, huhi⟩
    omega
  · obtain ⟨s, rfl, -, -, hval⟩ := venueTsNs_eq_some_iff.mp hns
    exact ⟨s, rfl, hval⟩

end RithmicNt.Exec
