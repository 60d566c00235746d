import Mathlib.Data.Rat.Defs

/-! The account of the execution client: where its id comes from, and the one `AccountState` that is
published so that the engine can apply fills. -/

namespace RithmicNt.Adapter

def venue : String := "RITHMIC"

def defaultAccountCurrency : String := "USD"

/-- What the engine's own types accept: account ids, and amounts of money. -/
structure Accepts where
  accountId : String → Bool
  money : Rat → Bool

/-- `session.resolved_account` as cached at connect, and the account of the configuration. -/
structure AccountSource where
  resolved : Option String := none
  configured : Option String := none
  deriving DecidableEq, Repr

/-- `account_id`, `_account_seeded` and `_last_account_state_key`. -/
structure Account where
  id : Option String := none
  seeded : Bool := false
  stateKey : Option (String × String × Rat) := none
  deriving DecidableEq, Repr

/-- A handler returns or raises; what it wrote before it raised stays. -/
inductive Outcome
  | returned
  | raised
  deriving DecidableEq, Repr

namespace Account

def truthy (s : Option String) : Option String := s.filter fun s => s ≠ ""

theorem truthy_eq_some_iff {s : Option String} {t : String} :
    truthy s = some t ↔ s = some t ∧ t ≠ "" := by
  simp [truthy, Option.filter_eq_some_iff]

def withoutVenue (id : String) : String :=
  let start := (venue ++ "-").toList
  if start.isPrefixOf id.toList then String.ofList (id.toList.drop start.length) else id

/-- `_account_raw`: the hint, else what the session resolved, the configuration, or the id already
set without its venue. -/
def raw (a : Account) (source : AccountSource) (hint : Option String) : Option String :=
  (truthy hint).or (source.resolved.or ((truthy source.configured).or
    (a.id.map withoutVenue)))

variable (accepts : Accepts)

/-- `_seed_account_if_needed`.  `publishes` says whether `generate_account_state` returns. -/
def seedIfNeeded (a : Account) (source : AccountSource) (hint : Option String)
    (publishes : Bool) : Account × Outcome :=
  if a.seeded ∧ a.id.isSome then (a, .returned)
  else match truthy (a.raw source hint) with
    | none => (a, .returned)
    | some raw =>
      if a.id.isNone ∧ accepts.accountId (venue ++ "-" ++ raw) = false then (a, .raised)
      else
        let id := a.id.getD (venue ++ "-" ++ raw)
        let a := { a with id := some id }
        if a.seeded then (a, .returned)
        else if publishes = false then (a, .raised)
        else ({ a with stateKey := some (id, defaultAccountCurrency, 0), seeded := true }, .returned)

variable {accepts}

theorem seedIfNeeded_of_seeded {a : Account} {source : AccountSource} {hint : Option String}
    {publishes : Bool} (h : a.seeded = true ∧ a.id.isSome = true) :
    a.seedIfNeeded accepts source hint publishes = (a, .returned) :=
  if_pos h

theorem seedIfNeeded_returned {a : Account} {source : AccountSource} {hint : Option String}
    {publishes : Bool} (h : (a.seedIfNeeded accepts source hint publishes).2 = .returned) :
    a.seedIfNeeded accepts source hint publishes = (a, .returned) ∨
      (a.seedIfNeeded accepts source hint publishes).1.seeded = true ∧
      (a.seedIfNeeded accepts source hint publishes).1.id.isSome = true := by
  unfold seedIfNeeded at h ⊢
  split
  · exact .inl rfl
  · next hseeded =>
    rw [if_neg hseeded] at h
    split
    · exact .inl rfl
    · next raw hraw =>
      rw [hraw] at h
      dsimp only at h ⊢
      split
      · next haccepts =>
        rw [if_pos haccepts] at h
        cases h
      · next haccepts =>
        rw [if_neg haccepts] at h
        split
        · next hs => exact .inr ⟨hs, rfl⟩
        · next hs =>
          rw [if_neg hs] at h
          split
          · next hpublishes =>
            rw [if_pos hpublishes] at h
            cases h
          · exact .inr ⟨rfl, rfl⟩

/-- A second seeding with the same answers changes nothing. -/
theorem seedIfNeeded_again {a : Account} {source : AccountSource} {hint : Option String}
    {publishes : Bool} (h : (a.seedIfNeeded accepts source hint publishes).2 = .returned) :
    (a.seedIfNeeded accepts source hint publishes).1.seedIfNeeded accepts source hint publishes =
      ((a.seedIfNeeded accepts source hint publishes).1, .returned) := by
  rcases seedIfNeeded_returned h with hsame | hseeded
  · rw [hsame]
    exact hsame
  · exact seedIfNeeded_of_seeded hseeded

end Account

end RithmicNt.Adapter
