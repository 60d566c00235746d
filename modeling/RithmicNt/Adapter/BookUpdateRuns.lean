import RithmicNt.Adapter.BookUpdates

/-! Book updates over a whole stream.  What the venue sends of a contract is one update after another, each
a solo or a begin, middles and an end, and may be cut by a snapshot, a clear or a reset.  `Update` follows
the messages alone, whether they convert or not, and says what an end ought to give out. -/

namespace RithmicNt.Adapter.BookUpdates

open RithmicNt.Lib RithmicNt.Adapter.MarketData

section

variable {π ρ : Type} (r : Runtime π ρ)

/-! ### Updates -/

/-- The parts of an update that has not ended: those from before the last cut that was fed or reset, those
from before a later cut that did not convert, and those since the last cut. -/
structure Update (π : Type) where
  dropped : List (Received π) := []
  stale : List (Received π) := []
  since : List (Received π)
  deriving DecidableEq, Repr

namespace Update

def parts (u : Update π) : List (Received π) := u.dropped ++ u.stale ++ u.since

/-- A cut has come since its begin. -/
def IsCut (u : Update π) : Prop := u.dropped ≠ [] ∨ u.stale ≠ []

instance (u : Update π) : Decidable u.IsCut := inferInstanceAs (Decidable (_ ≠ [] ∨ _ ≠ []))

def part (u : Update π) (x : Received π) : Update π := { u with since := u.since ++ [x] }

def cut (u : Update π) : Update π := { dropped := u.parts, since := [] }

/-- A cut that does not convert leaves what is held. -/
def miss (u : Update π) : Update π := { u with stale := u.stale ++ u.since, since := [] }

end Update

/-- The unended update of a contract after an event. -/
def track (k : String) (u : Option (Update π)) : Event π → Option (Update π)
  | .reset => u.map Update.cut
  | .message x =>
    match x.partOf r k with
    | none => u
    | some .beginPart => some { since := [x] }
    | some .middlePart => u.map fun u => u.part x
    | some .endPart | some .solo => none
    | some .snapshot | some .clear | some .noBook =>
      u.map fun u => if (x.fields r).toBool then u.cut else u.miss

def tracked (k : String) (events : List (Event π)) : Option (Update π) :=
  events.foldl (track r k) none

/-- A middle and an end go on with an update; a solo and a begin come when none is under way, or after
it was cut. -/
def Follows (u : Option (Update π)) : Option UpdateKind → Prop
  | some .middlePart | some .endPart => u.isSome
  | some .beginPart | some .solo => ∀ v ∈ u, v.IsCut
  | _ => True

instance (u : Option (Update π)) : DecidablePred (Follows u)
  | some .middlePart | some .endPart => inferInstanceAs (Decidable (_ = true))
  | some .beginPart | some .solo => inferInstanceAs (Decidable (∀ v ∈ u, v.IsCut))
  | some .snapshot | some .clear | some .noBook | none => .isTrue trivial

/-- The venue sends the updates of each contract in order. -/
def Orderly (events : List (Event π)) : Prop :=
  ∀ before x rest, events = before ++ Event.message x :: rest →
    ∀ k, Follows (tracked r k before) (x.partOf r k)

/-! ### Whole batches -/

/-- The part converts. -/
def Converts (x : Received π) : Prop := ∃ ds, x.deltas r = .ok ds

/-- The levels of a part, as deltas without flags. -/
def Received.levels (x : Received π) : List (Delta ρ) := (x.deltas r).toOption.getD []

/-- The batch closes an update none of whose parts was rejected, with the levels of every part since its
begin or the last cut, in order, and `F_LAST` on the last delta only. -/
structure Whole (u : Update π) (x : Received π) (b : Batch ρ) : Prop where
  converts : ∀ part ∈ u.parts ++ [x], Converts r part
  levels : b.deltas.map Delta.unflagged = (u.since ++ [x]).flatMap (Received.levels r)
  last : ∀ i d, b.deltas[i]? = some d → (d.flags.last = true ↔ i + 1 = b.deltas.length)

/-- A batch that an end gives out is whole; what any other message gives out has nothing of earlier
messages in it. -/
def EmitsWhole (before : List (Event π)) (x : Received π) : Prop :=
  ∀ b, (dispatch r (after r before) x).2 = .handled b →
    if x.book.kind = .ok .endPart then ∃ u, tracked r b.instrumentId before = some u ∧ Whole r u x b
    else (dispatch r {} x).2 = .handled b

/-- No end that converts, with levels in it or held before it, closes an update with a rejected begin or
middle, or with levels from before a cut that did not convert. -/
def Unharmed (before : List (Event π)) (x : Received π) : Prop :=
  ∀ k u, x.partOf r k = some .endPart → tracked r k before = some u →
    (∃ ds, x.deltas r = .ok ds ∧ (after r before).held k ++ ds ≠ []) →
      (∀ part ∈ u.parts, Converts r part) ∧ u.stale.flatMap (Received.levels r) = []

/-! ### What is held of an update -/

variable {r} {a : BookAssembler ρ} {k : String} {u : Update π} {x : Received π}
  {before : List (Event π)}

theorem levels_of_deltas {ds : List (Delta ρ)} (h : x.deltas r = .ok ds) : x.levels r = ds := by
  simp [Received.levels, h, Except.toOption]

theorem flags_of_levels {parts : List (Received π)} {d : Delta ρ}
    (h : d ∈ parts.flatMap (Received.levels r)) : d.flags = {} := by
  obtain ⟨part, -, hd⟩ := List.mem_flatMap.mp h
  cases hdeltas : part.deltas r with
  | error fault => simp [Received.levels, hdeltas, Except.toOption] at hd
  | ok ds =>
    rw [levels_of_deltas hdeltas] at hd
    exact flags_of_deltas hdeltas d hd

/-- What is held of an update with no rejected part: the levels since the last cut that was fed. -/
def Kept (r : Runtime π ρ) (k : String) (a : BookAssembler ρ) (u : Update π) : Prop :=
  (∀ part ∈ u.parts, Converts r part) → a.held k = (u.stale ++ u.since).flatMap (Received.levels r)

theorem kept_begin (h : x.partOf r k = some .beginPart) :
    Kept r k (dispatch r a x).1 { since := [x] } := by
  intro hconverts
  obtain ⟨ds, hds⟩ := hconverts x (by simp [Update.parts])
  rw [held_dispatch, h]
  simp [Received.heldAfter, hds, levels_of_deltas hds]

theorem Kept.middle (hkept : Kept r k a u) (h : x.partOf r k = some .middlePart) :
    Kept r k (dispatch r a x).1 (u.part x) := by
  intro hconverts
  have hparts : (u.part x).parts = u.parts ++ [x] := by simp [Update.part, Update.parts]
  rw [hparts] at hconverts
  obtain ⟨ds, hds⟩ := hconverts x (by simp)
  have hheld := hkept fun part hpart => hconverts part (by simp [hpart])
  rw [held_dispatch, h]
  simp [Received.heldAfter, hds, levels_of_deltas hds, hheld, Update.part]

/-- A cut takes what is held, or leaves it where it does not convert. -/
theorem Kept.cut (hkept : Kept r k a u) {kind : UpdateKind} (h : x.partOf r k = some kind)
    (hcut : kind = .snapshot ∨ kind = .clear ∨ kind = .noBook) :
    Kept r k (dispatch r a x).1 (if (x.fields r).toBool then u.cut else u.miss) := by
  have hheld : (dispatch r a x).1.held k = if (x.fields r).toBool then [] else a.held k := by
    rw [held_dispatch, h]
    rcases hcut with rfl | rfl | rfl <;> rfl
  intro hconverts
  rw [hheld]
  by_cases hfed : (x.fields r).toBool = true
  · simp [hfed, Update.cut]
  · simp only [hfed] at hconverts ⊢
    have hparts : u.miss.parts = u.parts := by simp [Update.miss, Update.parts]
    rw [if_neg (by simp)] at hconverts ⊢
    rw [hparts] at hconverts
    simp [hkept hconverts, Update.miss]

/-- One event keeps the account of what is held. -/
theorem kept_step {v : Option (Update π)} (h : ∀ u ∈ v, Kept r k a u) (e : Event π) :
    ∀ u ∈ track r k v e, Kept r k (step r a e) u := by
  intro w hw
  cases e with
  | reset =>
    obtain ⟨u, -, rfl⟩ := Option.map_eq_some_iff.mp hw
    exact fun _ => rfl
  | message x =>
    simp only [track] at hw
    split at hw
    · next hpart =>
      intro hconverts
      have hheld := held_dispatch (r := r) a x k
      rw [hpart] at hheld
      exact hheld.trans (h w hw hconverts)
    · next hpart =>
      cases hw
      exact kept_begin hpart
    · next hpart =>
      obtain ⟨u, hu, rfl⟩ := Option.map_eq_some_iff.mp hw
      exact (h u hu).middle hpart
    · cases hw
    · cases hw
    · next hpart =>
      obtain ⟨u, hu, rfl⟩ := Option.map_eq_some_iff.mp hw
      exact (h u hu).cut hpart (.inl rfl)
    · next hpart =>
      obtain ⟨u, hu, rfl⟩ := Option.map_eq_some_iff.mp hw
      exact (h u hu).cut hpart (.inr (.inl rfl))
    · next hpart =>
      obtain ⟨u, hu, rfl⟩ := Option.map_eq_some_iff.mp hw
      exact (h u hu).cut hpart (.inr (.inr rfl))

theorem kept_foldl (events : List (Event π)) {a : BookAssembler ρ} {v : Option (Update π)}
    (h : ∀ u ∈ v, Kept r k a u) :
    ∀ u ∈ events.foldl (track r k) v, Kept r k (events.foldl (step r) a) u := by
  induction events generalizing a v with
  | nil => exact h
  | cons e events ih => exact ih (kept_step h e)

theorem kept_of_tracked (h : tracked r k before = some u) : Kept r k (after r before) u :=
  kept_foldl before (by simp) u h

/-! ### What an end gives out -/

theorem kind_of_partOf {kind : UpdateKind} (h : x.partOf r k = some kind) : x.book.kind = .ok kind := by
  unfold Received.partOf at h
  split at h
  · cases hkind : x.book.kind with
    | error fault =>
      rw [hkind] at h
      cases h
    | ok kind' =>
      rw [hkind] at h
      rw [Option.some.inj h]
  · cases h

/-- An end hands on a batch where it converts and there is a level in it or held. -/
theorem handled_end_iff {b : Batch ρ} (h : x.partOf r k = some .endPart) :
    (dispatch r a x).2 = .handled b ↔
      ∃ ds, x.deltas r = .ok ds ∧ a.held k ++ ds ≠ [] ∧ b = closedBatch k (a.held k ++ ds) := by
  rw [dispatch_end a h, ofExcept_eq_handled, map_eq_ok]
  simp only [closed_eq_some]

/-- With no part rejected, an end gives out the levels since the last cut that was fed. -/
theorem levels_of_end (hkept : Kept r k a u) (hconverts : ∀ part ∈ u.parts, Converts r part)
    {ds : List (Delta ρ)} (hds : x.deltas r = .ok ds) :
    (closedBatch k (a.held k ++ ds)).deltas.map Delta.unflagged =
        u.stale.flatMap (Received.levels r) ++ (u.since ++ [x]).flatMap (Received.levels r) ∧
      ∀ i d, (closedBatch k (a.held k ++ ds)).deltas[i]? = some d →
        (d.flags.last = true ↔ i + 1 = (closedBatch k (a.held k ++ ds)).deltas.length) := by
  have hheld : a.held k ++ ds =
      u.stale.flatMap (Received.levels r) ++ (u.since ++ [x]).flatMap (Received.levels r) := by
    rw [hkept hconverts]
    simp [levels_of_deltas hds]
  have hplain : ∀ d ∈ a.held k ++ ds, d.flags = {} := by
    intro d hd
    rw [hheld, ← List.flatMap_append] at hd
    exact flags_of_levels hd
  obtain ⟨hlevels, hlast⟩ := closedBatch_spec (k := k) hplain
  exact ⟨hlevels.trans hheld, hlast⟩

/-- An end in its order gives out a whole batch, or none, exactly where no harm was done before. -/
theorem emitsWhole_iff (horder : ∀ k, Follows (tracked r k before) (x.partOf r k)) :
    EmitsWhole r before x ↔ Unharmed r before x := by
  constructor
  · rintro hwhole k u hpart htracked ⟨ds, hds, hne⟩
    have hb := hwhole _ ((handled_end_iff hpart).mpr ⟨ds, hds, hne, rfl⟩)
    rw [if_pos (kind_of_partOf hpart)] at hb
    obtain ⟨v, hv, hconverts, hlevels, -⟩ := hb
    obtain rfl : u = v := Option.some.inj (htracked.symm.trans hv)
    have hparts : ∀ part ∈ u.parts, Converts r part := fun part hmem =>
      hconverts part (by simp [hmem])
    refine ⟨hparts, ?_⟩
    have hall := (levels_of_end (kept_of_tracked htracked) hparts hds).1
    exact List.self_eq_append_left.mp (hlevels.symm.trans hall)
  · intro hunharmed b hb
    obtain ⟨kind, hpart⟩ := partOf_of_handled hb
    split
    · next hkind =>
      obtain rfl : kind = .endPart := Except.ok.inj ((kind_of_partOf hpart).symm.trans hkind)
      have hsome := horder b.instrumentId
      simp only [hpart, Follows] at hsome
      obtain ⟨u, hu⟩ := Option.isSome_iff_exists.mp hsome
      obtain ⟨ds, hds, hne, heq⟩ := (handled_end_iff hpart).mp hb
      obtain ⟨hparts, hstale⟩ := hunharmed _ u hpart hu ⟨ds, hds, hne⟩
      obtain ⟨hlevels, hlast⟩ := levels_of_end (kept_of_tracked hu) hparts hds
      rw [hstale, List.nil_append] at hlevels
      refine ⟨u, hu, fun part hmem => ?_, by rw [heq]; exact hlevels, by rw [heq]; exact hlast⟩
      rcases List.mem_append.mp hmem with hmem | hmem
      · exact hparts part hmem
      · rw [List.mem_singleton.mp hmem]
        exact ⟨ds, hds⟩
    · next hkind => rw [← hb, dispatch_not_end _ _ hkind]

/-- Over every stream in order, all batches are whole exactly where no harm is done at any step. -/
theorem updates_whole_iff {events : List (Event π)} (horderly : Orderly r events) :
    (∀ before x rest, events = before ++ Event.message x :: rest → EmitsWhole r before x) ↔
      ∀ before x rest, events = before ++ Event.message x :: rest → Unharmed r before x := by
  constructor
  · intro h before x rest heq
    exact (emitsWhole_iff (horderly before x rest heq)).mp (h before x rest heq)
  · intro h before x rest heq
    exact (emitsWhole_iff (horderly before x rest heq)).mpr (h before x rest heq)

theorem orderly_nil : Orderly r ([] : List (Event π)) := by
  intro before x rest heq
  simp at heq

theorem Orderly.concat {events : List (Event π)} (h : Orderly r events)
    (hx : ∀ k, Follows (tracked r k events) (x.partOf r k)) :
    Orderly r (events ++ [Event.message x]) := by
  intro before y rest heq
  rcases List.eq_nil_or_concat rest with rfl | ⟨rest', e, rfl⟩
  · obtain ⟨rfl, hlast⟩ := List.append_inj' heq rfl
    cases hlast
    exact hx
  · rw [List.concat_eq_append, ← List.cons_append, ← List.append_assoc] at heq
    exact h before y rest' (List.append_inj' heq rfl).1

/-- A message is in its place for every contract but its own. -/
theorem follows_of_own (hk : x.instrument r = some k)
    (h : Follows (tracked r k before) (x.partOf r k)) (j : String) :
    Follows (tracked r j before) (x.partOf r j) := by
  by_cases hj : j = k
  · rw [hj]
    exact h
  · have hnone : x.partOf r j = none := if_neg fun heq => hj (Option.some.inj (heq.symm.trans hk))
    rw [hnone]
    trivial

end

/-! ### A part that does not convert -/

/-- Floats that are whole numbers, and prices as their texts. -/
def wholeRuntime : Runtime Int String where
  upper := Exec.asciiUpper
  intOf := some
  fixed value n := toString value ++ "." ++ String.ofList (List.replicate n '0')
  priceOfStr := some
  quantityFits _ := true
  idParses _ := true

/-- A message about bids, at clock 5, of a contract with two decimals. -/
def bids (updateType : Int) (prices sizes : List (Option Int)) : Received Int where
  book := {
    symbol := some "NQU6"
    exchange := some "CME"
    updateType := some updateType
    bidPrice := some (some prices)
    bidSize := some sizes
    tsEventNs := some 1 }
  tsInit := 5
  precision := some 2

def bookKey : String := "NQU6-CME.RITHMIC"

/-- The delta of a changed bid. -/
def bidDelta (price : String) (size : Int) (last : Bool) : Delta String where
  instrumentId := bookKey
  action := .update
  order := some ⟨.buy, price, size, 1⟩
  flags := ⟨false, last⟩
  tsEvent := 1
  tsInit := 5

def beginBid : Received Int := bids 4 [some 21000] [some 5]

/-- A middle part without its size, which does not convert. -/
def lostMiddle : Received Int := bids 5 [some 20999] []

/-- A snapshot without its size. -/
def lostSnapshot : Received Int := bids 3 [some 20000] []

def middleBid : Received Int := bids 5 [some 20999] [some 1]

def endBid : Received Int := bids 6 [some 20998] [some 2]

/-- A begin and another part. -/
def opened (part : Received Int) : List (Event Int) := [.message beginBid, .message part]

theorem orderly_opened {part : Received Int} (hk : part.instrument wholeRuntime = some bookKey)
    (hpart : Follows (tracked wholeRuntime bookKey [.message beginBid]) (part.partOf wholeRuntime bookKey))
    (hend : Follows (tracked wholeRuntime bookKey (opened part)) (some .endPart)) :
    Orderly wholeRuntime (opened part ++ [Event.message endBid]) := by
  have hbegin : Orderly wholeRuntime [.message beginBid] :=
    orderly_nil.concat (follows_of_own (k := bookKey) (by decide +kernel) (by decide +kernel))
  have hendPart : endBid.partOf wholeRuntime bookKey = some .endPart := by decide +kernel
  have htwo : Orderly wholeRuntime (opened part) := hbegin.concat (follows_of_own hk hpart)
  exact htwo.concat (follows_of_own (k := bookKey) (by decide +kernel) (hendPart ▸ hend))

/-- A begin, a middle and an end that convert. -/
theorem updates_whole_three :
    (∀ before x rest,
      opened middleBid ++ [Event.message endBid] = before ++ Event.message x :: rest →
        EmitsWhole wholeRuntime before x) ↔
      ∀ before x rest,
        opened middleBid ++ [Event.message endBid] = before ++ Event.message x :: rest →
        Unharmed wholeRuntime before x :=
  updates_whole_iff (orderly_opened (by decide +kernel) (by decide +kernel) (by decide +kernel))

/-- What is given out at the end is closed without the middle that was lost, and with the begin from
before the snapshot that was lost. -/
theorem lost_part_closed :
    (Orderly wholeRuntime (opened lostMiddle ++ [Event.message endBid]) ∧
      (dispatch wholeRuntime (after wholeRuntime (opened lostMiddle)) endBid).2 =
        .handled ⟨bookKey, [bidDelta "21000.00" 5 false, bidDelta "20998.00" 2 true]⟩ ∧
      ¬ EmitsWhole wholeRuntime (opened lostMiddle) endBid) ∧
    (Orderly wholeRuntime (opened lostSnapshot ++ [Event.message endBid]) ∧
      (dispatch wholeRuntime (after wholeRuntime (opened lostSnapshot)) endBid).2 =
        .handled ⟨bookKey, [bidDelta "21000.00" 5 false, bidDelta "20998.00" 2 true]⟩ ∧
      ¬ EmitsWhole wholeRuntime (opened lostSnapshot) endBid) := by
  have hmiddle : (dispatch wholeRuntime (after wholeRuntime (opened lostMiddle)) endBid).2 =
      .handled ⟨bookKey, [bidDelta "21000.00" 5 false, bidDelta "20998.00" 2 true]⟩ := by
    decide +kernel
  have hsnapshot : (dispatch wholeRuntime (after wholeRuntime (opened lostSnapshot)) endBid).2 =
      .handled ⟨bookKey, [bidDelta "21000.00" 5 false, bidDelta "20998.00" 2 true]⟩ := by
    decide +kernel
  refine ⟨⟨orderly_opened (by decide +kernel) (by decide +kernel) (by decide +kernel), hmiddle,
    fun h => ?_⟩, orderly_opened (by decide +kernel) (by decide +kernel) (by decide +kernel), hsnapshot, fun h => ?_⟩
  · obtain ⟨u, hu, hwhole⟩ := h _ hmiddle
    have htracked : tracked wholeRuntime bookKey (opened lostMiddle) =
        some { since := [beginBid, lostMiddle] } := by decide +kernel
    obtain rfl := Option.some.inj (hu.symm.trans htracked)
    obtain ⟨ds, hds⟩ := hwhole.converts lostMiddle (by simp [Update.parts])
    have hrejected : (lostMiddle.deltas wholeRuntime).toBool = false := by decide +kernel
    rw [hds] at hrejected
    cases hrejected
  · obtain ⟨u, hu, hwhole⟩ := h _ hsnapshot
    have htracked : tracked wholeRuntime bookKey (opened lostSnapshot) =
        some { stale := [beginBid], since := [] } := by decide +kernel
    obtain rfl := Option.some.inj (hu.symm.trans htracked)
    have hlength := congrArg List.length hwhole.levels
    revert hlength
    decide +kernel

end RithmicNt.Adapter.BookUpdates
