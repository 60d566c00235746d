import RithmicNt.Host.HistoryGate
import RithmicNt.Plants.Calendar

/-! History loads beside the market-data joins: the turn of a load, its admission behind the gate, and
the venue call it is let through to. -/

namespace RithmicNt.Host.HistoryAdmission

open RithmicNt.Lib
open RithmicNt.Plants.Calendar (TimeBarType)

inductive HistoryPolicy
  | allow
  | refuseUnderLiveMd
  deriving DecidableEq, Repr

def parseTimeBarType : Int → Option TimeBarType
  | 1 => some .second
  | 2 => some .minute
  | 3 => some .daily
  | 4 => some .weekly
  | _ => none

/-- `load_ticks`, or `load_time_bars` and `probe_time_bars` with their `bar_type`. -/
inductive Request
  | ticks
  | bars (barType : Int)
  deriving DecidableEq, Repr

def Request.wellFormed : Request → Bool
  | .ticks => true
  | .bars barType => (parseTimeBarType barType).isSome

structure Load where
  session : Nat
  request : Request
  deriving DecidableEq, Repr

inductive Outcome
  | loaded
  | historyDeniedLiveMd
  | detached
  | notReady
  | invalidBarType
  | loadFailed
  | dropped
  deriving DecidableEq, Repr

/-- Where a load is: before its turn, before the gate, with the gate before and after its look at the
live intents, admitted, and at the venue. -/
inductive Place
  | unasked
  | turning (l : Load)
  | knocking (l : Load)
  | looking (l : Load)
  | cleared (l : Load)
  | admitted (l : Load)
  | loading (l : Load)
  | done (r : Outcome)
  deriving DecidableEq, Repr

/-- `turn` is the owner of `history_load_lock`, `gate` the load that owns `md_history_gate`: where an
operation on market data owns it, `joins.gate` says so. -/
structure State where
  policy : HistoryPolicy
  joins : Joins.State
  detached : Finset Nat := ∅
  load : Nat → Place := fun _ => .unasked
  turn : Option Nat := none
  gate : Option Nat := none

inductive Event
  | joins (e : Joins.Event)
  | request (n : Nat) (l : Load)
  /-- The load goes on to its next await; `ok` is the venue's answer. -/
  | go (n : Nat) (ok : Bool)
  | drop (n : Nat)
  | detach (a : Nat)
  deriving DecidableEq, Repr

namespace State

def goto (s : State) (n : Nat) (p : Place) : State := { s with load := Function.update s.load n p }

/-- The end of a load: its locks are released. -/
def finish (s : State) (n : Nat) (r : Outcome) : State :=
  { s with
    load := Function.update s.load n (.done r)
    turn := if s.turn = some n then none else s.turn
    gate := if s.gate = some n then none else s.gate }

def liveMd (s : State) : Bool :=
  s.policy = .refuseUnderLiveMd && s.joins.store.hasLiveMdIntents

/-- The check of the session behind the look, with the gate released after it. -/
def active (s : State) (n : Nat) (l : Load) : State :=
  if l.session ∈ s.detached then s.finish n .detached
  else if s.joins.ready then { s.goto n (.admitted l) with gate := none }
  else s.finish n .notReady

def go (s : State) (n : Nat) (ok : Bool) : Option State :=
  match s.load n with
  | .unasked | .done _ => none
  | .turning l =>
    if s.turn = none then some { s.goto n (.knocking l) with turn := some n } else none
  | .knocking l =>
    if s.gate = none ∧ s.joins.gate = none then
      some { s.goto n (.looking l) with gate := some n }
    else none
  | .looking l =>
    some (if s.liveMd then s.finish n .historyDeniedLiveMd else s.goto n (.cleared l))
  | .cleared l => some (s.active n l)
  | .admitted l =>
    if l.request.wellFormed then
      -- `checkout` waits out a rebuild and keeps no lock
      if s.joins.writer then none else some (s.goto n (.loading l))
    else some (s.finish n .invalidBarType)
  | .loading _ => some (s.finish n (if ok then .loaded else .loadFailed))

def step (s : State) : Event → Option State
  | .joins e =>
    if e.waits s.joins ∧ s.gate ≠ none then none
    else (s.joins.step e).map fun joins => { s with joins }
  | .request n l => if s.load n = .unasked then some (s.goto n (.turning l)) else none
  | .go n ok => s.go n ok
  | .drop n =>
    match s.load n with
    | .unasked | .done _ => none
    | _ => some (s.finish n .dropped)
  | .detach a => some { s with detached := insert a s.detached }

end State

def machine : Machine State Event where
  Start s := ∃ policy ready, s = { policy, joins := { ready } }
  step := State.step

/-- The market-data operations go on in time. -/
def InTime (s : State) : Event → Prop
  | .joins e => Joins.InTime s.joins e
  | _ => True

instance (s : State) : DecidablePred (InTime s) := by
  intro e
  cases e with
  | joins e => exact inferInstanceAs (Decidable (Joins.InTime s.joins e))
  | _ => exact .isTrue trivial

namespace Place

def hasTurn : Place → Bool
  | .knocking _ | .looking _ | .cleared _ | .admitted _ | .loading _ => true
  | _ => false

def hasGate : Place → Bool
  | .looking _ | .cleared _ => true
  | _ => false

def isCleared : Place → Bool
  | .cleared _ => true
  | _ => false

/-- The load is past its admission and not at its end. -/
def isIn : Place → Bool
  | .admitted _ | .loading _ => true
  | _ => false

theorem hasGate_of_cleared {p : Place} (h : p.isCleared = true) : p.hasGate = true := by
  cases p <;> simp_all [isCleared, hasGate]

theorem hasTurn_of_isIn {p : Place} (h : p.isIn = true) : p.hasTurn = true := by
  cases p <;> simp_all [isIn, hasTurn]

end Place

structure Inv (s : State) : Prop where
  joins : Joins.Inv s.joins
  gated : Joins.Gated s.joins
  apart : s.gate ≠ none → s.joins.gate = none
  turn : ∀ n, (s.load n).hasTurn = true → s.turn = some n
  gate : ∀ n, (s.load n).hasGate = true → s.gate = some n
  cleared : ∀ n, (s.load n).isCleared = true → s.policy = .refuseUnderLiveMd →
    ∀ i, s.joins.cnt i = 0

variable {s t : State} {n : Nat} {l : Load}

/-- No operation on market data has the gate while a load has it. -/
theorem Inv.ungated (h : Inv s) (hgate : s.gate ≠ none) (a : Nat) :
    (s.joins.stage a).gated = false := by
  by_contra hg
  have howner := h.gated a (by simpa using hg)
  rw [h.apart hgate] at howner
  cases howner

theorem Inv.moved {e : Joins.Event} {joins : Joins.State} (h : Inv s)
    (htime : Joins.InTime s.joins e) (hfree : ¬ (e.waits s.joins ∧ s.gate ≠ none))
    (hstep : s.joins.step e = some joins) : Inv { s with joins } := by
  have hmoved := Joins.moved_step hstep
  refine ⟨h.joins.step htime hstep, h.gated.moved hmoved, ?_, h.turn, h.gate, ?_⟩
  · intro hgate
    have hnone := h.apart hgate
    cases hmoved with
    | kept a st _ hkept _ _ =>
      show joins.gate = none
      rw [hkept, hnone]
    | taken a st _ hwaits _ _ => exact absurd ⟨hwaits, hgate⟩ hfree
    | ended a st _ _ hend _ =>
      show joins.gate = none
      simp [hend, hnone]
  · intro n hn hpolicy i
    have hgate : s.gate ≠ none := by simp [h.gate n (Place.hasGate_of_cleared hn)]
    have hzero := h.cleared n hn hpolicy i
    have hle : joins.cnt i ≤ s.joins.cnt i := by
      cases hmoved with
      | kept a st _ _ _ hcnt => exact hcnt i
      | taken a st _ hwaits _ _ => exact absurd ⟨hwaits, hgate⟩ hfree
      | ended a st _ _ _ hcnt =>
        rcases hcnt with hcnt | hgated
        · exact hcnt i
        · cases hgated.symm.trans (h.ungated hgate a)
    exact Nat.le_zero.mp (hzero ▸ hle)

/-- A load moves on; its turn and its gate move with it. -/
theorem Inv.place {turn gate : Option Nat} {p : Place} (h : Inv s)
    (hturn : ∀ m, m ≠ n → s.turn = some m → turn = some m)
    (hgate : ∀ m, m ≠ n → s.gate = some m → gate = some m)
    (hmine : p.hasTurn = true → turn = some n) (hown : p.hasGate = true → gate = some n)
    (hapart : gate ≠ none → s.joins.gate = none)
    (hclear : p.isCleared = true → s.policy = .refuseUnderLiveMd → ∀ i, s.joins.cnt i = 0) :
    Inv { s with load := Function.update s.load n p, turn := turn, gate := gate } := by
  refine ⟨h.joins, h.gated, hapart, fun m hm => ?_, fun m hm => ?_, fun m hm => ?_⟩
  · by_cases hmn : m = n
    · subst hmn
      exact hmine (by simpa using hm)
    · exact hturn m hmn (h.turn m (by simpa [hmn] using hm))
  · by_cases hmn : m = n
    · subst hmn
      exact hown (by simpa using hm)
    · exact hgate m hmn (h.gate m (by simpa [hmn] using hm))
  · by_cases hmn : m = n
    · subst hmn
      exact hclear (by simpa using hm)
    · exact h.cleared m (by simpa [hmn] using hm)

theorem Inv.goto {p : Place} (h : Inv s) (hmine : p.hasTurn = true → s.turn = some n)
    (hown : p.hasGate = true → s.gate = some n)
    (hclear : p.isCleared = true → s.policy = .refuseUnderLiveMd → ∀ i, s.joins.cnt i = 0) :
    Inv (s.goto n p) :=
  h.place (fun _ _ => id) (fun _ _ => id) hmine hown h.apart hclear

theorem Inv.finish {r : Outcome} (h : Inv s) : Inv (s.finish n r) := by
  have hother : ∀ {o : Option Nat} m, m ≠ n → o = some m →
      (if o = some n then none else o) = some m := by
    intro o m hmn hm
    simp [hm, hmn]
  refine h.place hother hother (by simp [Place.hasTurn]) (by simp [Place.hasGate]) ?_
    (by simp [Place.isCleared])
  intro hgate
  apply h.apart
  intro hnone
  simp [hnone] at hgate

theorem Inv.active (h : Inv s) (hload : s.load n = .cleared l) : Inv (s.active n l) := by
  have hgate : s.gate = some n := h.gate n (by rw [hload]; rfl)
  have hturn : s.turn = some n := h.turn n (by rw [hload]; rfl)
  unfold State.active
  split
  · exact h.finish
  · split
    · refine h.place (fun _ _ => id) (fun m hmn hm => ?_) (fun _ => hturn) (by simp [Place.hasGate])
        (by simp) (by simp [Place.isCleared])
      rw [hgate] at hm
      exact absurd (Option.some.inj hm).symm hmn
    · exact h.finish

theorem Inv.go {ok : Bool} (h : Inv s) (hgo : s.go n ok = some t) : Inv t := by
  unfold State.go at hgo
  cases hload : s.load n with
  | unasked | done r =>
    rw [hload] at hgo
    cases hgo
  | turning l =>
    simp only [hload] at hgo
    split at hgo
    · next hfree =>
      cases hgo
      refine h.place (fun m _ hm => ?_) (fun _ _ => id) (fun _ => rfl) (by simp [Place.hasGate])
        h.apart (by simp [Place.isCleared])
      rw [hfree] at hm
      cases hm
    · cases hgo
  | knocking l =>
    simp only [hload] at hgo
    split at hgo
    · next hfree =>
      cases hgo
      refine h.place (fun _ _ => id) (fun m _ hm => ?_) (fun _ => ?_) (fun _ => rfl)
        (fun _ => hfree.2) (by simp [Place.isCleared])
      · rw [hfree.1] at hm
        cases hm
      · exact h.turn n (by rw [hload]; rfl)
    · cases hgo
  | looking l =>
    simp only [hload, Option.some.injEq] at hgo
    subst hgo
    split
    · exact h.finish
    · next hlive =>
      refine h.goto (fun _ => ?_) (fun _ => ?_) fun _ hpolicy i => ?_
      · exact h.turn n (by rw [hload]; rfl)
      · exact h.gate n (by rw [hload]; rfl)
      · exact IntentStore.count_of_not_live (by simpa [State.liveMd, hpolicy] using hlive) i
  | cleared l =>
    simp only [hload, Option.some.injEq] at hgo
    exact hgo ▸ h.active hload
  | admitted l =>
    simp only [hload] at hgo
    split at hgo
    · split at hgo
      · cases hgo
      · cases hgo
        refine h.goto (fun _ => ?_) (by simp [Place.hasGate]) (by simp [Place.isCleared])
        exact h.turn n (by rw [hload]; rfl)
    · cases hgo
      exact h.finish
  | loading l =>
    simp only [hload, Option.some.injEq] at hgo
    exact hgo ▸ h.finish

theorem Inv.step {e : Event} (h : Inv s) (htime : InTime s e) (hstep : s.step e = some t) :
    Inv t := by
  cases e with
  | joins e =>
    simp only [State.step] at hstep
    split at hstep
    · cases hstep
    · next hfree =>
      obtain ⟨joins, hjoins, rfl⟩ := Option.map_eq_some_iff.mp hstep
      exact h.moved htime hfree hjoins
  | request m l =>
    simp only [State.step] at hstep
    split at hstep
    · cases hstep
      exact h.goto (by simp [Place.hasTurn]) (by simp [Place.hasGate]) (by simp [Place.isCleared])
    · cases hstep
  | go m ok => exact h.go hstep
  | drop m =>
    simp only [State.step] at hstep
    split at hstep
    · cases hstep
    · cases hstep
    · cases hstep
      exact h.finish
  | detach a =>
    cases hstep
    exact ⟨h.joins, h.gated, h.apart, h.turn, h.gate, h.cleared⟩

theorem inv_of_run {trace : List Event} (hrun : machine.Run InTime trace s) : Inv s := by
  refine hrun.invariant ?_ ?_
  · rintro s ⟨policy, ready, rfl⟩
    refine ⟨Joins.inv_start ready, ?_, by simp, ?_, ?_, ?_⟩
    · intro a ha
      cases ha
    · intro n hn
      cases hn
    · intro n hn
      cases hn
    · intro n hn
      cases hn
  · intro s e t h htime hstep
    exact h.step htime hstep

/-- Market data as a load may find it: no session holds an intent, no operation is between its note
and its join or its leave, and a join that stands is one whose leave failed in a teardown, or one
that a teardown is about to leave. -/
structure Quiet (s : Joins.State) : Prop where
  unheld : s.held = ∅
  still : ∀ a, (s.stage a).gated = false
  joined : ∀ i ∈ s.joined, i ∈ s.abandoned ∨ ∃ a, (s.stage a).tears? = some i

theorem Inv.quiet (h : Inv s) (hload : s.load n = .cleared l)
    (hpolicy : s.policy = .refuseUnderLiveMd) : Quiet s.joins := by
  have hzero := h.cleared n (by rw [hload]; rfl) hpolicy
  have hgate := h.gate n (by rw [hload]; rfl)
  have hstill := h.ungated (by simp [hgate])
  refine ⟨?_, hstill, fun i hi => ?_⟩
  · apply Finset.eq_empty_of_forall_notMem
    rintro ⟨a, i⟩ hmem
    have hcount := h.joins.counts i
    rw [hzero i] at hcount
    have hnone := Finset.card_eq_zero.mp hcount.symm
    have hin : (a, i) ∈ s.joins.held.filter (·.2 = i) := Finset.mem_filter.mpr ⟨hmem, rfl⟩
    rw [hnone] at hin
    exact Finset.notMem_empty _ hin
  · rcases h.joins.joinedHeld i hi with hpos | habandoned | ⟨a, ha⟩
    · rw [hzero i] at hpos
      cases hpos
    · exact .inl habandoned
    · exact .inr ⟨a, Joins.Stage.tears_of_leaves (hstill a) ha⟩

/-- Only the load that moves on is let in, and from behind its look. -/
theorem cleared_of_admitted {e : Event} (hstep : s.step e = some t)
    (hout : (s.load n).isIn = false) (hin : (t.load n).isIn = true) :
    ∃ l ok, e = .go n ok ∧ s.load n = .cleared l ∧ s.joins.ready = true := by
  have hself : ∀ {m p}, (Function.update s.load m p n).isIn = true → p.isIn = false → False := by
    intro m p hp hnot
    by_cases hmn : n = m
    · subst hmn
      simp [hnot] at hp
    · simp [hmn, hout] at hp
  cases e with
  | joins e =>
    simp only [State.step] at hstep
    split at hstep
    · cases hstep
    · obtain ⟨joins, -, rfl⟩ := Option.map_eq_some_iff.mp hstep
      cases hout.symm.trans hin
  | request m l =>
    simp only [State.step] at hstep
    split at hstep
    · cases hstep
      exact (hself hin rfl).elim
    · cases hstep
  | drop m =>
    simp only [State.step] at hstep
    split at hstep
    · cases hstep
    · cases hstep
    · cases hstep
      exact (hself hin rfl).elim
  | detach a =>
    cases hstep
    cases hout.symm.trans hin
  | go m ok =>
    simp only [State.step, State.go] at hstep
    cases hload : s.load m with
    | unasked | done r =>
      rw [hload] at hstep
      cases hstep
    | turning l | knocking l =>
      simp only [hload] at hstep
      split at hstep
      · cases hstep
        exact (hself hin rfl).elim
      · cases hstep
    | looking l =>
      simp only [hload, Option.some.injEq] at hstep
      subst hstep
      split at hin <;> exact (hself hin rfl).elim
    | cleared l =>
      simp only [hload, Option.some.injEq] at hstep
      subst hstep
      unfold State.active at hin
      split at hin
      · exact (hself hin rfl).elim
      · split at hin
        · next hready =>
          have hmn : n = m := by
            by_contra hmn
            simp [State.goto, hmn, hout] at hin
          subst hmn
          exact ⟨l, ok, rfl, hload, hready⟩
        · exact (hself hin rfl).elim
    | admitted l =>
      have hmn : n ≠ m := by
        rintro rfl
        simp [hload, Place.isIn] at hout
      simp only [hload] at hstep
      split at hstep
      · split at hstep
        · cases hstep
        · cases hstep
          simp [State.goto, hmn, hout] at hin
      · cases hstep
        exact (hself hin rfl).elim
    | loading l =>
      simp only [hload, Option.some.injEq] at hstep
      subst hstep
      exact (hself hin rfl).elim

/-- In every interleaving of loads with subscribes, unsubscribes, teardowns, retries and recoveries
whose market-data operations go on in time, a load is let in only while the host is ready, no other
load is in, and, where the policy refuses loads under live market data, market data is quiet. -/
theorem admitted_when_quiet {trace : List Event} {e : Event} (hrun : machine.Run InTime trace s)
    (hstep : s.step e = some t) (hout : (s.load n).isIn = false) (hin : (t.load n).isIn = true) :
    s.joins.ready = true ∧ (∀ m, (s.load m).isIn = false) ∧
      (s.policy = .refuseUnderLiveMd → Quiet s.joins) := by
  have h := inv_of_run hrun
  obtain ⟨l, ok, -, hload, hready⟩ := cleared_of_admitted hstep hout hin
  refine ⟨hready, fun m => ?_, h.quiet hload⟩
  by_contra hm
  have hturn := h.turn m (Place.hasTurn_of_isIn (by simpa using hm))
  have hmine := h.turn n (by rw [hload]; rfl)
  have hmn : m = n := Option.some.inj (hturn.symm.trans hmine)
  rw [hmn, hout] at hm
  exact hm rfl

/-- A load comes to its look after a teardown whose leave failed; a subscribe waits for the gate. -/
def knocked (i : MdIntent) : List Event :=
  ([Joins.Event.subscribe 0 i, .go 0 true, .go 0 true, .go 0 true, .go 0 true, .teardown 0 [i],
      .go 0 true, .go 0 true, .go 0 false, .go 0 true, .subscribe 1 i].map Event.joins) ++
    [Event.request 7 ⟨2, .bars 2⟩, .go 7 true, .go 7 true, .go 7 true]

theorem admitted_when_quiet_abandoned : ∃ i s t,
    machine.Run InTime (knocked i) s ∧ s.policy = .refuseUnderLiveMd ∧
      s.step (.joins (.go 1 true)) = none ∧ s.step (.go 7 true) = some t ∧ i ∈ s.joins.joined ∧
      i ∈ s.joins.abandoned ∧ s.joins.ready = true ∧ (∀ m, (s.load m).isIn = false) ∧
      Quiet s.joins := by
  obtain ⟨s, t, hexec, hpolicy, hwaits, hstep, hout, hin, hjoined, hleft⟩ : ∃ s t,
      machine.exec InTime { policy := .refuseUnderLiveMd, joins := {} }
        (knocked (.ticker ⟨"ES", "CME"⟩)) = some s ∧ s.policy = .refuseUnderLiveMd ∧
      s.step (.joins (.go 1 true)) = none ∧ s.step (.go 7 true) = some t ∧
      (s.load 7).isIn = false ∧ (t.load 7).isIn = true ∧
      .ticker ⟨"ES", "CME"⟩ ∈ s.joins.joined ∧ .ticker ⟨"ES", "CME"⟩ ∈ s.joins.abandoned :=
    ⟨_, _, rfl, rfl, rfl, rfl, rfl, rfl, by decide, by decide⟩
  have hrun : machine.Run InTime _ s := Machine.run_of_exec ⟨.refuseUnderLiveMd, true, rfl⟩ hexec
  obtain ⟨hready, halone, hquiet⟩ := admitted_when_quiet hrun hstep hout hin
  exact ⟨_, s, t, hrun, hpolicy, hwaits, hstep, hjoined, hleft, hready, halone, hquiet hpolicy⟩

end RithmicNt.Host.HistoryAdmission
