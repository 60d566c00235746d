import Mathlib.Data.Finset.Basic
import Mathlib.Logic.Function.Basic
import RithmicNt.Lib.Pool
import RithmicNt.Adapter.MarketData

/-! The ticker intents of the data client.  Trades and quotes of an instrument share one subscription of
the session: a call records or removes its kind, waits for the session where the subscription has to
change, and goes on once it has answered.  Any number of calls are in flight at a time, and the answers
come from threads, in any order. -/

namespace RithmicNt.Adapter.TickerIntents

open RithmicNt.Lib
open RithmicNt.Adapter.MarketData (BboState)

inductive Kind
  | trade
  | quote
  deriving DecidableEq, Repr

/-- A symbol and its exchange. -/
abbrev Key := String × String

/-- The client and the session.  `tickerIntents` refers to sets by number, since a call that waits keeps
the set that it found. -/
structure State (π : Type) where
  tickerIntents : Key → Option Nat := fun _ => none
  sets : Nat → Finset Kind := fun _ => ∅
  made : Nat := 0
  subscriptions : Finset Key := ∅
  bboState : Dict String (BboState π) := .empty
  /-- The keys that the session is subscribed to. -/
  session : Finset Key := ∅

/-- How a call ends. -/
inductive Outcome
  | returned
  | noRoute
  | sessionError
  | keyError
  deriving DecidableEq, Repr

/-- Where a call waits: `answer` is that of the session, once its thread is done. -/
inductive Place
  | subscribing (key : Key) (kind : Kind) (intents : Nat) (answer : Option Bool)
  | unsubscribing (key : Key) (restore : Option Kind) (answer : Option Bool)
  | ended (outcome : Outcome)
  deriving DecidableEq, Repr

namespace State

variable {π : Type}

/-! ### The dictionary of sets -/

/-- A new set for `key`. -/
def assign (s : State π) (key : Key) (kinds : Finset Kind) : State π :=
  { s with
    tickerIntents := Function.update s.tickerIntents key (some s.made)
    sets := Function.update s.sets s.made kinds
    made := s.made + 1 }

def delete (s : State π) (key : Key) : State π :=
  { s with tickerIntents := Function.update s.tickerIntents key none }

def write (s : State π) (intents : Nat) (kinds : Finset Kind) : State π :=
  { s with sets := Function.update s.sets intents kinds }

/-- `setdefault(key, set())`. -/
def setDefault (s : State π) (key : Key) : State π × Nat :=
  match s.tickerIntents key with
  | some intents => (s, intents)
  | none => (s.assign key ∅, s.made)

/-- The kinds that are held for a key. -/
def held (s : State π) (key : Key) : Finset Kind := (s.tickerIntents key).elim ∅ s.sets

/-! ### The calls, from one wait to the next -/

/-- `_add_ticker_intent`. -/
def addTickerIntent (s : State π) (key : Key) (kind : Kind) : State π × Place :=
  let (s, intents) := s.setDefault key
  if kind ∈ s.sets intents then (s, .ended .returned)
  else
    let s := s.write intents (insert kind (s.sets intents))
    if key ∉ s.subscriptions then (s, .subscribing key kind intents none)
    else (s, .ended .returned)

/-- `_add_ticker_intent` after the session has answered. -/
def subscribed (s : State π) (key : Key) (kind : Kind) (intents : Nat) (ok : Bool) :
    State π × Place :=
  if ok then ({ s with subscriptions := insert key s.subscriptions }, .ended .returned)
  else
    let s := s.write intents ((s.sets intents).erase kind)
    if s.sets intents = ∅ then
      match s.tickerIntents key with
      | some _ => (s.delete key, .ended .sessionError)
      | none => (s, .ended .keyError)
    else (s, .ended .sessionError)

/-- The legacy fallback of `_remove_ticker_intent`. -/
def removeUnheld (s : State π) (key : Key) : State π × Place :=
  if key ∈ s.subscriptions then (s, .unsubscribing key none none) else (s, .ended .returned)

def clearBbo (s : State π) (key : Key) : State π :=
  { s with bboState := s.bboState.filter fun e => e.1 ≠ key.1 ++ ":" ++ key.2 }

/-- `_remove_ticker_intent`. -/
def removeTickerIntent (s : State π) (key : Key) (kind : Kind) (clear : Bool) : State π × Place :=
  let s := if clear then s.clearBbo key else s
  match s.tickerIntents key with
  | none => s.removeUnheld key
  | some intents =>
    if kind ∉ s.sets intents then s.removeUnheld key
    else
      let s := s.write intents ((s.sets intents).erase kind)
      if s.sets intents = ∅ then
        let s := s.delete key
        if key ∈ s.subscriptions then (s, .unsubscribing key (some kind) none)
        else (s, .ended .returned)
      else (s, .ended .returned)

/-- `_remove_ticker_intent` after the session has answered: where it fails, the kind that was removed is
held again. -/
def unsubscribed (s : State π) (key : Key) (restore : Option Kind) (ok : Bool) : State π × Place :=
  if ok then ({ s with subscriptions := s.subscriptions.erase key }, .ended .returned)
  else
    match restore with
    | some kind => (s.assign key {kind}, .ended .sessionError)
    | none => (s, .ended .sessionError)

end State

/-! ### The calls as threads -/

inductive Call
  | add (instrument : String) (kind : Kind)
  | remove (instrument : String) (kind : Kind) (clearBbo : Bool)
  deriving DecidableEq, Repr

inductive Act
  | answer (ok : Bool)
  | resume
  deriving DecidableEq, Repr

section

variable {π : Type}

/-- A call up to its first wait.  `routes` are the instruments that are loaded. -/
def begin (routes : String → Option Key) (s : State π) : Call → State π × Place
  | .add instrument kind =>
    match routes instrument with
    | none => (s, .ended .noRoute)
    | some key => s.addTickerIntent key kind
  | .remove instrument kind clear =>
    match routes instrument with
    | none => (s, .ended .noRoute)
    | some key => s.removeTickerIntent key kind clear

/-- The session's thread and the code after the wait.  A session call that fails changes nothing. -/
def advance (s : State π) : Place → Act → Option (State π × Place)
  | .subscribing key kind intents none, .answer ok =>
    some ({ s with session := if ok then insert key s.session else s.session },
      .subscribing key kind intents (some ok))
  | .subscribing key kind intents (some ok), .resume => some (s.subscribed key kind intents ok)
  | .unsubscribing key restore none, .answer ok =>
    some ({ s with session := if ok then s.session.erase key else s.session },
      .unsubscribing key restore (some ok))
  | .unsubscribing key restore (some ok), .resume => some (s.unsubscribed key restore ok)
  | _, _ => none

def code (routes : String → Option Key) : Program (State π) Place Call Act where
  spawn _ s call := some (begin routes s call)
  run _ s p a := advance s p a

/-- A client with no intent, on a session with no subscription. -/
def Start (s : State π) : Prop :=
  s.tickerIntents = (fun _ => none) ∧ s.subscriptions = ∅ ∧ s.session = ∅

def machine (routes : String → Option Key) : Machine (Pool (State π) Place) (Move Call Act) :=
  (code routes).machine Start

end

variable {π : Type} {s t u : State π} {k : Key}

/-! ### The sets of the keys -/

theorem intents_assign (s : State π) (k : Key) (kinds : Finset Kind) :
    (s.assign k kinds).tickerIntents k = some s.made :=
  Function.update_self ..

theorem intents_assign_of_ne (s : State π) {k k' : Key} (hne : k' ≠ k) (kinds : Finset Kind) :
    (s.assign k kinds).tickerIntents k' = s.tickerIntents k' :=
  Function.update_of_ne hne ..

theorem intents_delete (s : State π) (k : Key) : (s.delete k).tickerIntents k = none :=
  Function.update_self ..

theorem intents_delete_of_ne (s : State π) {k k' : Key} (hne : k' ≠ k) :
    (s.delete k).tickerIntents k' = s.tickerIntents k' :=
  Function.update_of_ne hne ..

theorem intents_write (s : State π) (id : Nat) (kinds : Finset Kind) :
    (s.write id kinds).tickerIntents = s.tickerIntents := rfl

theorem held_of_some {id : Nat} (h : s.tickerIntents k = some id) : s.held k = s.sets id := by
  rw [State.held, h]
  rfl

theorem held_of_none (h : s.tickerIntents k = none) : s.held k = ∅ := by
  rw [State.held, h]
  rfl

theorem held_assign (k : Key) (kinds : Finset Kind) : (s.assign k kinds).held k = kinds := by
  rw [held_of_some (intents_assign ..)]
  exact Function.update_self ..

theorem held_delete (s : State π) (k : Key) : (s.delete k).held k = ∅ :=
  held_of_none (intents_delete s k)

theorem held_write {id : Nat} (hid : s.tickerIntents k = some id) (kinds : Finset Kind) :
    (s.write id kinds).held k = kinds := by
  rw [held_of_some (by rw [intents_write]; exact hid)]
  exact Function.update_self ..

/-- No two keys share a set. -/
structure State.Heap (s : State π) : Prop where
  fresh : ∀ k id, s.tickerIntents k = some id → id < s.made
  apart : ∀ k k' id, s.tickerIntents k = some id → s.tickerIntents k' = some id → k = k'

/-- The states agree on a key. -/
structure Same (k : Key) (s t : State π) : Prop where
  intents : t.tickerIntents k = s.tickerIntents k
  held : t.held k = s.held k
  subscriptions : k ∈ t.subscriptions ↔ k ∈ s.subscriptions
  session : k ∈ t.session ↔ k ∈ s.session

/-- From `s` to `t` only the key `k` changes. -/
structure Touches (k : Key) (s t : State π) : Prop where
  heap : t.Heap
  others : ∀ k' ≠ k, Same k' s t

theorem Touches.trans (h : Touches k s t) (h' : Touches k t u) : Touches k s u where
  heap := h'.heap
  others k' hne := by
    obtain ⟨hintents, hheld, hsubscriptions, hsession⟩ := h.others k' hne
    obtain ⟨hintents', hheld', hsubscriptions', hsession'⟩ := h'.others k' hne
    exact ⟨hintents'.trans hintents, hheld'.trans hheld, hsubscriptions'.trans hsubscriptions,
      hsession'.trans hsession⟩

theorem touches_assign (h : s.Heap) (k : Key) (kinds : Finset Kind) :
    Touches k s (s.assign k kinds) := by
  -- the number of the new set is above all others
  have hnew : ∀ k' id, k' ≠ k → s.tickerIntents k' = some id → id ≠ s.made :=
    fun k' id _ hid => ne_of_lt (h.fresh k' id hid)
  refine ⟨⟨?_, ?_⟩, fun k' hne => ⟨intents_assign_of_ne s hne kinds, ?_, Iff.rfl, Iff.rfl⟩⟩
  · intro k' id hid
    by_cases hk : k' = k
    · rw [hk, intents_assign] at hid
      cases hid
      exact Nat.lt_succ_self _
    · rw [intents_assign_of_ne s hk] at hid
      exact (h.fresh k' id hid).trans (Nat.lt_succ_self _)
  · intro k₁ k₂ id h₁ h₂
    by_cases hk₁ : k₁ = k <;> by_cases hk₂ : k₂ = k
    · rw [hk₁, hk₂]
    · rw [hk₁, intents_assign] at h₁
      rw [intents_assign_of_ne s hk₂] at h₂
      exact absurd (Option.some.inj h₁).symm (hnew k₂ id hk₂ h₂)
    · rw [intents_assign_of_ne s hk₁] at h₁
      rw [hk₂, intents_assign] at h₂
      exact absurd (Option.some.inj h₂).symm (hnew k₁ id hk₁ h₁)
    · rw [intents_assign_of_ne s hk₁] at h₁
      rw [intents_assign_of_ne s hk₂] at h₂
      exact h.apart k₁ k₂ id h₁ h₂
  · have hintents := intents_assign_of_ne s hne kinds
    cases hid : s.tickerIntents k' with
    | none => rw [held_of_none hid, held_of_none (hintents.trans hid)]
    | some id =>
      rw [held_of_some hid, held_of_some (hintents.trans hid)]
      exact Function.update_of_ne (hnew k' id hne hid) ..

theorem touches_delete (h : s.Heap) (k : Key) : Touches k s (s.delete k) := by
  have hof : ∀ k' id, (s.delete k).tickerIntents k' = some id → s.tickerIntents k' = some id := by
    intro k' id hid
    by_cases hk : k' = k
    · rw [hk, intents_delete] at hid
      cases hid
    · rwa [intents_delete_of_ne s hk] at hid
  refine ⟨⟨fun k' id hid => h.fresh k' id (hof k' id hid), fun k₁ k₂ id h₁ h₂ =>
    h.apart k₁ k₂ id (hof k₁ id h₁) (hof k₂ id h₂)⟩, fun k' hne => ?_⟩
  refine ⟨intents_delete_of_ne s hne, ?_, Iff.rfl, Iff.rfl⟩
  rw [State.held, State.held, intents_delete_of_ne s hne]
  rfl

theorem touches_write (h : s.Heap) {id : Nat} (hid : s.tickerIntents k = some id)
    (kinds : Finset Kind) : Touches k s (s.write id kinds) := by
  refine ⟨⟨h.fresh, h.apart⟩, fun k' hne => ⟨rfl, ?_, Iff.rfl, Iff.rfl⟩⟩
  rw [State.held, State.held, intents_write]
  cases hid' : s.tickerIntents k' with
  | none => rfl
  | some id' =>
    refine Function.update_of_ne ?_ ..
    rintro rfl
    exact hne (h.apart k' k id' hid' hid)

/-- A change of the subscriptions alone. -/
theorem touches_subscriptions (h : s.Heap) {subscriptions session : Finset Key}
    (hsubscriptions : ∀ k' ≠ k, k' ∈ subscriptions ↔ k' ∈ s.subscriptions)
    (hsession : ∀ k' ≠ k, k' ∈ session ↔ k' ∈ s.session) :
    Touches k s { s with subscriptions, session } :=
  ⟨⟨h.fresh, h.apart⟩, fun k' hne => ⟨rfl, rfl, hsubscriptions k' hne, hsession k' hne⟩⟩

/-! ### What the calls do to their key -/

/-- From `s` to `t` only the kinds of `k` change. -/
structure Rewrites (k : Key) (kinds : Finset Kind) (s t : State π) : Prop extends Touches k s t where
  held : t.held k = kinds
  subscriptions : t.subscriptions = s.subscriptions
  session : t.session = s.session

theorem rewrites_assign (h : s.Heap) (k : Key) (kinds : Finset Kind) :
    Rewrites k kinds s (s.assign k kinds) :=
  ⟨touches_assign h k kinds, held_assign k kinds, rfl, rfl⟩

theorem rewrites_write (h : s.Heap) {id : Nat} (hid : s.tickerIntents k = some id)
    (kinds : Finset Kind) : Rewrites k kinds s (s.write id kinds) :=
  ⟨touches_write h hid kinds, held_write hid kinds, rfl, rfl⟩

theorem Rewrites.delete {kinds : Finset Kind} (h : Rewrites k kinds s t) :
    Rewrites k ∅ s (t.delete k) :=
  ⟨h.toTouches.trans (touches_delete h.heap k), held_delete t k, h.subscriptions, h.session⟩

theorem Rewrites.write {kinds : Finset Kind} (h : Rewrites k kinds s t) {id : Nat}
    (hid : t.tickerIntents k = some id) (kinds' : Finset Kind) :
    Rewrites k kinds' s (t.write id kinds') :=
  ⟨h.toTouches.trans (touches_write h.heap hid kinds'), held_write hid kinds', h.subscriptions,
    h.session⟩

/-- An add: nothing where its kind is held, else the kind is held, and where the key is not subscribed
the call waits with the set that it found or made. -/
theorem addTickerIntent_cases (h : s.Heap) (k : Key) (kind : Kind) :
    (kind ∈ s.held k ∧ s.addTickerIntent k kind = (s, .ended .returned)) ∨
    ∃ t id, kind ∉ s.held k ∧ Rewrites k (insert kind (s.held k)) s t ∧
      t.tickerIntents k = some id ∧ (∀ id', s.tickerIntents k = some id' → id' = id) ∧
      s.addTickerIntent k kind = (t, if k ∉ s.subscriptions then .subscribing k kind id none
        else .ended .returned) := by
  unfold State.addTickerIntent State.setDefault
  cases hid : s.tickerIntents k with
  | none =>
    right
    have hset : (s.assign k ∅).sets s.made = ∅ := Function.update_self ..
    refine ⟨(s.assign k ∅).write s.made (insert kind ∅), s.made, ?_, ?_, intents_assign s k ∅, ?_, ?_⟩
    · rw [held_of_none hid]
      exact Finset.notMem_empty kind
    · rw [held_of_none hid]
      exact (rewrites_assign h k ∅).write (intents_assign s k ∅) _
    · nofun
    · dsimp only
      rw [if_neg (by rw [hset]; exact Finset.notMem_empty kind), hset, ← apply_ite (Prod.mk _)]
      rfl
  | some id =>
    rw [held_of_some hid]
    by_cases hkind : kind ∈ s.sets id
    · exact .inl ⟨hkind, if_pos hkind⟩
    · right
      refine ⟨_, id, hkind, rewrites_write h hid _, hid, fun id' => ?_, ?_⟩
      · exact fun heq => (Option.some.inj heq).symm
      · dsimp only
        rw [if_neg hkind, ← apply_ite (Prod.mk _)]
        rfl

/-- A subscribe that has failed: the kind is dropped again, and with the last one the key. -/
theorem subscribed_false (h : s.Heap) {id : Nat} (hid : s.tickerIntents k = some id) (kind : Kind) :
    ∃ t, Rewrites k ((s.held k).erase kind) s t ∧
      ((s.held k).erase kind ≠ ∅ → t.tickerIntents k = some id) ∧
      s.subscribed k kind id false = (t, .ended .sessionError) := by
  have hwrite := rewrites_write h hid ((s.sets id).erase kind)
  have hset : (s.write id ((s.sets id).erase kind)).sets id = (s.sets id).erase kind :=
    Function.update_self ..
  unfold State.subscribed
  rw [held_of_some hid, if_neg Bool.false_ne_true]
  dsimp only
  rw [hset, intents_write, hid]
  by_cases hempty : (s.sets id).erase kind = ∅
  · refine ⟨_, ?_, fun hne => absurd hempty hne, if_pos hempty⟩
    have := hwrite.delete
    rwa [hempty] at this ⊢
  · exact ⟨_, hwrite, fun _ => hid, if_neg hempty⟩

/-- A remove: where its kind is not held, the fallback, else the kind is dropped, and with the last one
of a subscribed key the call waits. -/
theorem removeTickerIntent_cases (h : s.Heap) (k : Key) (kind : Kind) (clear : Bool) :
    (kind ∉ s.held k ∧ ∃ t, t.Heap ∧ (∀ k', Same k' s t) ∧
      s.removeTickerIntent k kind clear = t.removeUnheld k) ∨
    kind ∈ s.held k ∧ ∃ t, Rewrites k ((s.held k).erase kind) s t ∧
      ((s.held k).erase kind ≠ ∅ → t.tickerIntents k = s.tickerIntents k) ∧
      ((s.held k).erase kind = ∅ → t.tickerIntents k = none) ∧
      s.removeTickerIntent k kind clear = (t, if (s.held k).erase kind = ∅ ∧ k ∈ s.subscriptions then
        .unsubscribing k (some kind) none else .ended .returned) := by
  unfold State.removeTickerIntent
  obtain ⟨s', hs', hintents, hsets, hmade, hsubscriptions, hsession⟩ : ∃ s',
      s' = (if clear then s.clearBbo k else s) ∧ s'.tickerIntents = s.tickerIntents ∧
      s'.sets = s.sets ∧ s'.made = s.made ∧ s'.subscriptions = s.subscriptions ∧
      s'.session = s.session := by
    refine ⟨_, rfl, ?_⟩
    split <;> exact ⟨rfl, rfl, rfl, rfl, rfl⟩
  have hheap : s'.Heap := ⟨by rw [hintents, hmade]; exact h.fresh, by rw [hintents]; exact h.apart⟩
  have hsame : ∀ k', Same k' s s' := fun k' => ⟨by rw [hintents],
    by rw [State.held, State.held, hintents, hsets], by rw [hsubscriptions], by rw [hsession]⟩
  rw [← hs']
  dsimp only
  rw [← (hsame k).held, ← hintents, ← hsubscriptions]
  cases hid : s'.tickerIntents k with
  | none =>
    refine .inl ⟨?_, s', hheap, hsame, rfl⟩
    rw [held_of_none hid]
    exact Finset.notMem_empty kind
  | some id =>
    rw [held_of_some hid]
    by_cases hkind : kind ∈ s'.sets id
    · right
      have hwrite := rewrites_write hheap hid ((s'.sets id).erase kind)
      have hset : (s'.write id ((s'.sets id).erase kind)).sets id = (s'.sets id).erase kind :=
        Function.update_self ..
      -- what holds from `s'` on holds from `s` on
      have hfrom : ∀ kinds t, Rewrites k kinds s' t → Rewrites k kinds s t := fun kinds t ht =>
        ⟨Touches.trans ⟨hheap, fun k' _ => hsame k'⟩ ht.toTouches, ht.held,
          ht.subscriptions.trans hsubscriptions, ht.session.trans hsession⟩
      dsimp only
      rw [if_neg (not_not.mpr hkind), hset]
      refine ⟨hkind, ?_⟩
      by_cases hempty : (s'.sets id).erase kind = ∅
      · refine ⟨(s'.write id ((s'.sets id).erase kind)).delete k, ?_, fun hne => absurd hempty hne,
          fun _ => intents_delete _ k, ?_⟩
        · have := hwrite.delete
          rw [hempty] at this ⊢
          exact hfrom _ _ this
        · rw [if_pos hempty, ← apply_ite (Prod.mk _)]
          simp only [hempty, true_and]
          rfl
      · refine ⟨s'.write id ((s'.sets id).erase kind), hfrom _ _ hwrite, fun _ => hid,
          fun heq => absurd heq hempty, ?_⟩
        rw [if_neg hempty, if_neg fun hboth => hempty hboth.1]
    · refine .inl ⟨hkind, s', hheap, hsame, ?_⟩
      dsimp only
      rw [if_pos hkind]

end RithmicNt.Adapter.TickerIntents
