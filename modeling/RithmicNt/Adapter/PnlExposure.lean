import Mathlib.Algebra.BigOperators.Group.List.Basic
import Mathlib.Algebra.Group.Int.Defs
import RithmicNt.Adapter.PnlRecord

/-! The exposure net against the rows of the current stream. -/

namespace RithmicNt.Adapter.Pnl

open RithmicNt.Lib RithmicNt.Exec

section

variable (env : Env)

def contracts (log : List InstrumentPnl) : List String :=
  ((log.filterMap (instrumentPnlToFields env)).map (·.instrumentId)).dedup

/-- The signed sum, over the contracts of a root, of their last rows. -/
def venueNet (log : List InstrumentPnl) (root : String) : Int :=
  signedNet env.upper (((contracts env log).filterMap (lastRow env log)).map Position.row) root

/-- An unreadable row of the root, or without a symbol, that no later readable row of its contract
replaced. -/
def Outstanding (log : List InstrumentPnl) (root : String) : Prop :=
  ∃ before u after, log = before ++ u :: after ∧ instrumentPnlToFields env u = none ∧
    (strip (u.symbol.getD "") = "" ∨ matchesRoot env.upper (strip (u.symbol.getD "")) root = true) ∧
    ∀ r ∈ after, ∀ fields ∈ instrumentPnlToFields env r, idOf env u ≠ .ok fields.instrumentId

/-- The seeding of a position row does not raise. -/
def SeedOk (c : Client) (d : Delivery) (fields : Position) : Prop :=
  ∀ raw ∈ Account.truthy fields.accountId,
    (c.account.id.isSome = true ∨ env.accepts.accountId (venue ++ "-" ++ raw) = true) ∧
    (c.account.seeded = true ∨ d.seedPublishes = true)

/-- No position row of a batch is cut short by the seeding. -/
def Seeds : Client → List Delivery → Prop
  | _, [] => True
  | c, d :: batch =>
    (∀ e ∈ State.positionRows [d], ∀ fields ∈ instrumentPnlToFields env e, SeedOk env c d fields) ∧
    Seeds (c.dispatchPnlEvent env d).1 batch

instance decidableSeedOk (c : Client) (d : Delivery) (fields : Position) :
    Decidable (SeedOk env c d fields) := by
  unfold SeedOk
  infer_instance

instance decidableSeeds : (c : Client) → (batch : List Delivery) → Decidable (Seeds env c batch)
  | _, [] => .isTrue trivial
  | c, d :: batch =>
    have := decidableSeeds (c.dispatchPnlEvent env d).1 batch
    inferInstanceAs (Decidable (_ ∧ _))

def OwnSeededBatch (c : Client) (log : List InstrumentPnl) (batch : List Delivery) : Prop :=
  OwnBatch env c log batch ∧ Seeds env c batch

instance (c : Client) (log : List InstrumentPnl) (batch : List Delivery) :
    Decidable (OwnSeededBatch env c log batch) :=
  inferInstanceAs (Decidable (_ ∧ _))

/-- Every readable row is in the state: none before the stream is live, and from then on the last
row of each contract, stamped as seen. -/
structure Current (c : Client) (log : List InstrumentPnl) : Prop extends Recorded env c log where
  unseen : c.liveSince = none → ∀ id, lastRow env log id = none
  fresh : ∀ live ∈ c.liveSince, ∀ id fields, lastRow env log id = some fields →
    (∃ t, c.seen.get? id = some t ∧ live ≤ t) ∧ c.positions.get? id = some fields

variable {env}

theorem Account.seedIfNeeded_returned {accepts : Accepts} {a : Account} {source : AccountSource}
    {raw : String} {publishes : Bool} (hraw : raw ≠ "")
    (hid : a.id.isSome = true ∨ accepts.accountId (venue ++ "-" ++ raw) = true)
    (hseed : a.seeded = true ∨ publishes = true) :
    (a.seedIfNeeded accepts source (some raw) publishes).2 = .returned := by
  have htruthy : Account.truthy (a.raw source (some raw)) = some raw := by
    simp [Account.raw, Account.truthy, hraw]
  unfold Account.seedIfNeeded
  rw [htruthy]
  split
  · rfl
  · dsimp only
    split
    · next hbad =>
      rcases hid with hid | hid
      · simp [Option.isNone_iff_eq_none.mp hbad.1] at hid
      · simp [hid] at hbad
    · split
      · rfl
      · next hseeded =>
        split
        · next hpub =>
          rcases hseed with hseed | hseed
          · exact absurd hseed hseeded
          · simp [hpub] at hseed
        · rfl

theorem Client.cachePosition_returned {c : Client} {d : Delivery} {e : InstrumentPnl}
    {fields : Position} (hfields : instrumentPnlToFields env e = some fields)
    (hseed : SeedOk env c d fields) : (c.cachePosition env e d).2 = .returned := by
  have hwrite : (c.writePosition env fields d.seedPublishes).2 = .returned := by
    unfold Client.writePosition
    dsimp only
    split
    · rfl
    · next raw hraw =>
      obtain ⟨hid, hpub⟩ := hseed raw hraw
      have hne : raw ≠ "" := by
        have := (Option.eq_some_of_filter_eq_some hraw)
        simpa [Account.truthy, this] using hraw
      exact Account.seedIfNeeded_returned hne hid hpub
  unfold Client.cachePosition
  rw [hfields]
  dsimp only
  rw [hwrite]

theorem Client.dispatchPnlEvent_returned {c : Client} {d : Delivery} {e : InstrumentPnl}
    (hrow : d.row = .instrument e)
    (hseed : ∀ fields ∈ instrumentPnlToFields env e, SeedOk env c d fields) :
    (c.dispatchPnlEvent env d).2 = .returned := by
  unfold Client.dispatchPnlEvent
  rw [hrow]
  dsimp only
  cases hfields : instrumentPnlToFields env e with
  | none => simp [Client.cachePosition, hfields]
  | some fields => exact Client.cachePosition_returned hfields (hseed fields hfields)

theorem Current.observe {c c' : Client} {log : List InstrumentPnl} (h : Current env c log)
    (hrecorded : Recorded env c' log) (hseen : c'.seen = c.seen)
    (hpositions : c'.positions = c.positions)
    (hlive : c'.liveSince = c.liveSince ∨ c.liveSince = none ∧ c'.liveSince ≠ none) :
    Current env c' log := by
  refine ⟨hrecorded, fun hnone => ?_, fun live hmem id fields hlast => ?_⟩
  · rcases hlive with heq | ⟨-, hne⟩
    · exact h.unseen (heq.symm.trans hnone)
    · exact absurd hnone hne
  · rw [hseen, hpositions]
    rcases hlive with heq | ⟨hnone, -⟩
    · exact h.fresh live (heq ▸ hmem) id fields hlast
    · rw [h.unseen hnone id] at hlast
      cases hlast

theorem Current.position {c : Client} {log : List InstrumentPnl} (h : Current env c log)
    {clock now : Nat} {account : Account} {unreadable : List String} {observed : Option Nat}
    {e : InstrumentPnl} {fields : Position} (he : instrumentPnlToFields env e = some fields)
    (hlt : c.clock < now)
    (hrecorded : Recorded env { c with
      clock := clock, account := account, unreadable := unreadable, observed := observed
      positions := c.positions.set fields.instrumentId fields
      liveSince := c.liveSince.or (some now), seen := c.seen.set fields.instrumentId now }
      (log ++ [e])) :
    Current env { c with
      clock := clock, account := account, unreadable := unreadable, observed := observed
      positions := c.positions.set fields.instrumentId fields
      liveSince := c.liveSince.or (some now), seen := c.seen.set fields.instrumentId now }
      (log ++ [e]) := by
  refine ⟨hrecorded, fun hnone => by simp at hnone, fun live hmem id f hlast => ?_⟩
  rw [lastRow_append_readable he] at hlast
  simp only [Dict.get?_set]
  split at hlast
  · next hid =>
    obtain rfl := Option.some.inj hlast
    refine ⟨⟨now, by simp [hid], ?_⟩, by simp [hid]⟩
    rcases or_some_cases c.liveSince now with heq | ⟨heq, -⟩
    · exact Nat.le_of_lt (Nat.lt_of_le_of_lt (h.live live (heq ▸ hmem)).2 hlt)
    · obtain rfl := Option.mem_some_iff.mp (heq ▸ hmem)
      exact Nat.le_refl _
  · next hid =>
    have hne : id ≠ fields.instrumentId := fun h => hid h.symm
    simp only [if_neg hne]
    rcases or_some_cases c.liveSince now with heq | ⟨-, hnone⟩
    · exact h.fresh live (heq ▸ hmem) id f hlast
    · rw [h.unseen hnone id] at hlast
      cases hlast

theorem Current.effect {c c' : Client} {log : List InstrumentPnl} {d : Delivery}
    {outcome : Outcome} (h : Current env c log) (heffect : Effect env d c c' outcome)
    (hown : OwnMarks env log (State.positionRows [d]))
    (hreturned : ∀ e, d.row = .instrument e → outcome = .returned) :
    Current env c' (log ++ State.positionRows [d]) := by
  have hrecorded := h.toRecorded.effect heffect hown
  cases heffect with
  | quiet hrow =>
    rw [positionRows_other hrow, List.append_nil] at hrecorded ⊢
    exact h.observe hrecorded rfl rfl (.inl rfl)
  | @observed clock live account hrow =>
    rw [positionRows_other hrow, List.append_nil] at hrecorded ⊢
    refine h.observe hrecorded rfl rfl ?_
    exact (or_some_cases c.liveSince live).imp_right fun ⟨heq, hnone⟩ => ⟨hnone, by simp [heq]⟩
  | unreadable hrow he =>
    rw [positionRows_singleton hrow] at hrecorded ⊢
    refine ⟨hrecorded, fun hnone id => ?_, fun live hmem id fields hlast => ?_⟩
    · rw [lastRow_append_unreadable he]
      exact h.unseen hnone id
    · rw [lastRow_append_unreadable he] at hlast
      exact h.fresh live hmem id fields hlast
  | cut hrow =>
    have := hreturned _ hrow
    cases this
  | position hrow he hlt =>
    rw [positionRows_singleton hrow] at hrecorded ⊢
    exact h.position he hlt hrecorded

theorem Current.batch {c : Client} {log : List InstrumentPnl} {batch : List Delivery}
    (h : Current env c log) (hown : OwnMarks env log (State.positionRows batch))
    (hseeds : Seeds env c batch) :
    Current env (c.dispatchBatch env batch) (log ++ State.positionRows batch) := by
  induction batch generalizing c log with
  | nil => simpa [State.positionRows, Client.dispatchBatch] using h
  | cons d batch ih =>
    rw [positionRows_cons] at hown ⊢
    obtain ⟨hrow, hrest⟩ := hown.append
    rw [Client.dispatchBatch_cons, ← List.append_assoc]
    refine ih (h.effect (c.dispatchPnlEvent_effect d) hrow fun e he => ?_) hrest hseeds.2
    refine Client.dispatchPnlEvent_returned he fun fields hfields => ?_
    exact hseeds.1 e (by simp [positionRows_singleton he]) fields hfields

theorem Current.of_new {c : Client} (hlive : c.liveSince = none) (h : Recorded env c []) :
    Current env c [] :=
  ⟨h, fun _ _ => rfl, fun _ hmem => by simp [hlive] at hmem⟩

theorem current_streamInv : StreamInv env (OwnSeededBatch env) (Current env) where
  start := .of_new rfl recorded_streamInv.start
  batch _ _ _ h hok := h.batch hok.1 hok.2
  forget _ _ h := .of_new rfl (recorded_streamInv.forget _ _ h.toRecorded)
  resync _ _ h := .of_new rfl (recorded_streamInv.resync _ _ h.toRecorded)
  gap _ _ h := ⟨recorded_streamInv.gap _ _ h.toRecorded, h.unseen, h.fresh⟩
  later _ _ _ _ h hclock :=
    h.observe (recorded_streamInv.later _ _ _ _ h.toRecorded hclock) rfl rfl (.inl rfl)

/-! ### The net -/

theorem mem_contracts_iff {log : List InstrumentPnl} {id : String} :
    id ∈ contracts env log ↔ (lastRow env log id).isSome := by
  rw [contracts, List.mem_dedup, lastRow, List.getLast?_isSome]
  constructor
  · intro h
    obtain ⟨fields, hfields, rfl⟩ := List.mem_map.mp h
    exact List.ne_nil_of_mem (List.mem_filter.mpr ⟨hfields, by simp⟩)
  · intro h
    obtain ⟨fields, hmem⟩ := List.exists_mem_of_ne_nil _ h
    obtain ⟨hfields, hid⟩ := List.mem_filter.mp hmem
    exact List.mem_map.mpr ⟨fields, hfields, by simpa using hid⟩

theorem Current.rowsSeenSince_get? {c : Client} {log : List InstrumentPnl} (h : Current env c log)
    {live : Nat} (hlive : live ∈ c.liveSince) (id : String) :
    (c.rowsSeenSince live).get? id = lastRow env log id := by
  apply Option.ext
  intro fields
  rw [Client.rowsSeenSince, Dict.get?_filter]
  simp only [decide_eq_true_eq]
  constructor
  · rintro ⟨hpos, hseen⟩
    have hpositive := (h.live live hlive).1
    cases ht : c.seen.get? id with
    | none =>
      simp only [ht, Option.getD_none] at hseen
      omega
    | some t =>
      simp only [ht, Option.getD_some] at hseen
      obtain ⟨last, hlast⟩ := Option.isSome_iff_exists.mp (h.seen live hlive id t ht hseen)
      rw [hlast, ← (h.fresh live hlive id last hlast).2, hpos]
  · intro hlast
    obtain ⟨⟨t, ht, hle⟩, hpos⟩ := h.fresh live hlive id fields hlast
    exact ⟨hpos, by simpa [ht] using hle⟩

theorem signedNet_perm {upper : Char → List Char} {rows rows' : List PositionRow}
    (h : rows.Perm rows') (root : String) : signedNet upper rows root = signedNet upper rows' root :=
  ((h.filter _).map _).sum_eq

theorem Current.net_eq {c : Client} {log : List InstrumentPnl} (h : Current env c log) {live : Nat}
    (hlive : live ∈ c.liveSince) (root : String) :
    signedNet env.upper ((c.rowsSeenSince live).entries.map (·.2.row)) root =
      venueNet env log root := by
  have hget := h.rowsSeenSince_get? hlive
  have hmem : ∀ id, id ∈ contracts env log ↔ ((c.rowsSeenSince live).get? id).isSome := by
    intro id
    rw [hget id]
    exact mem_contracts_iff
  have hnodup : (contracts env log).Nodup := List.nodup_dedup _
  have hperm := Dict.entries_perm hnodup hmem
  refine signedNet_perm ?_ root
  refine (hperm.map _).trans (List.Perm.of_eq ?_)
  rw [List.map_filterMap, List.map_filterMap]
  refine List.filterMap_congr fun id _ => ?_
  rw [hget id]
  cases lastRow env log id <;> rfl

theorem Recorded.not_outstanding {c : Client} {log : List InstrumentPnl} (h : Recorded env c log)
    {root : String} (hreadable : c.positionUnreadableFor env root = false) :
    ¬ Outstanding env log root := by
  rintro ⟨before, u, after, hlog, hu, hroot, hlast⟩
  rcases h.marked before u after hlog hu with hmark | ⟨r, hr, fields, hfields, hid⟩
  · have hno := List.any_eq_false.mp hreadable _ hmark
    simp only [Bool.or_eq_true, beq_iff_eq, not_or] at hno
    unfold InstrumentPnl.mark at hno
    dsimp only at hno
    split at hno
    · exact hno.1 rfl
    · next hne => exact hno.2 (hroot.resolve_left hne)
  · exact hlast r hr fields hfields hid

def resynced : List Event :=
  [.push twoLong, .pollStart, .dequeue 0 1, .dispatch 0, .pollStart, .pollEnds 1 true, .push twoLong,
    .pollStart, .dequeue 2 1, .dispatch 2]

def fiveShort : Delivery where
  row := .instrument { symbol := some "MNQZ6", exchange := some "CME", netQuantity := some (-5) }
  pushed := 0

end

end RithmicNt.Adapter.Pnl
