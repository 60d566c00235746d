import Mathlib.Algebra.GroupWithZero.Nat
import Mathlib.Algebra.Order.BigOperators.Group.List
import Mathlib.Data.List.Basic
import RithmicNt.Lib.Machine

/-! One lane of the stream hub: a bounded channel that outlives the plant connections feeding it, the
carry buffer of its consumer, and the generation that tells the attachments apart. -/

namespace RithmicNt.Host.Streams

open RithmicNt.Lib

inductive PlantEvent (α : Type)
  | gap (skipped : Nat)
  | other (event : α)

inductive Msg (α : Type)
  | event (event : α)
  | gap (skipped : Nat)
  deriving DecidableEq

/-- A scripted gap and a forwarded `Lagged` read the same way to every consumer. -/
def msgOf {α : Type} : PlantEvent α → Msg α
  | .gap skipped => .gap skipped
  | .other event => .event event

structure Tagged (α : Type) where
  generation : Nat
  msg : Msg α
  deriving DecidableEq

/-- What `fail` and `fail_login` record. -/
inductive Failure
  | rithmic (text : String)
  | transport (text : String)
  deriving DecidableEq

def streamCapacity : Nat := 65536

/-- A lane with the state of its consumer. -/
structure Lane (α : Type) where
  rx : List (Tagged α) := []
  carry : List (Msg α) := []
  carryGen : Nat := 0
  generation : Nat := 0
  up : Bool := false
  closed : Bool := false
  fail : Option Failure := none
  stale : Nat := 0

inductive Taken (α : Type)
  | msgs (out : List (Msg α))
  | timeout
  | down
  | closed
  | fail (failure : Failure)

/-- The batch, the number of messages of other attachments, and what is left in the channel. -/
def drainRx {α : Type} (generation : Nat) :
    Nat → List (Tagged α) → List (Msg α) × Nat × List (Tagged α)
  | 0, rx => ([], 0, rx)
  | _ + 1, [] => ([], 0, [])
  | room + 1, t :: rx =>
    if t.generation = generation then
      let (batch, stale, rest) := drainRx generation room rx
      (t.msg :: batch, stale, rest)
    else
      let (batch, stale, rest) := drainRx generation (room + 1) rx
      (batch, stale + 1, rest)

namespace Lane

variable {α : Type}

def attach (l : Lane α) : Lane α :=
  { l with generation := l.generation + 1, closed := false, fail := none, up := true }

/-- Nothing where a newer attachment has replaced this one. -/
def detach (l : Lane α) (generation : Nat) : Lane α :=
  if l.generation = generation then
    { l with up := false, closed := false, generation := l.generation + 1 }
  else l

def send (l : Lane α) (generation : Nat) (msg : Msg α) : Lane α :=
  { l with rx := l.rx ++ [⟨generation, msg⟩] }

/-- `fail`, `fail_login` and `close` of the sender, each only while its attachment is current. -/
def record (l : Lane α) (generation : Nat) (failure : Failure) : Lane α :=
  if l.generation = generation then { l with fail := some failure } else l

def closeTx (l : Lane α) (generation : Nat) : Lane α :=
  if l.generation = generation then { l with closed := true } else l

/-- `wrapping_sub` of a `u64`: no attachment has the generation that it makes of 0. -/
def before (generation : Nat) : Nat := if generation = 0 then 2 ^ 64 - 1 else generation - 1

/-- The attachment whose items are still owed: while detached, the one that has just detached. -/
def owed (l : Lane α) : Nat := if l.up then l.generation else before l.generation

/-- Carried messages of a replaced attachment were lost. -/
def dropCarry (l : Lane α) : Lane α :=
  if l.carry ≠ [] ∧ l.carryGen ≠ l.owed then
    { l with stale := l.stale + l.carry.length, carry := [] }
  else l

def drain (l : Lane α) (limit generation : Nat) : Lane α × List (Msg α) :=
  let carried := l.carry.take limit
  let (batch, stale, rest) := drainRx generation (limit - carried.length) l.rx
  ({ l with carry := l.carry.drop limit, rx := rest, stale := l.stale + stale }, carried ++ batch)

/-- A batch behind a gap for what was lost; what does not fit is carried. -/
def finish (l : Lane α) (batch : List (Msg α)) (limit generation : Nat) :
    Lane α × Option (List (Msg α)) :=
  let batch := if 0 < l.stale then .gap l.stale :: batch else batch
  let l := { l with stale := 0 }
  if batch = [] then (l, none)
  else if limit < batch.length then
    ({ l with carryGen := generation, carry := batch.drop limit ++ l.carry },
      some (batch.take limit))
  else (l, some batch)

/-- One pass of the loop of `take`, to an answer or to the wait. -/
def pass (limit : Nat) (late : Bool) (l : Lane α) : Lane α × Option (Taken α) :=
  let owed := l.owed
  let (l, batch) := l.dropCarry.drain limit owed
  match l.finish batch limit owed with
  | (l, some out) => (l, some (.msgs out))
  | (l, none) =>
    if !l.up then (l, some .down)
    else
      match l.fail with
      | some failure =>
        let (l, batch) := { l with fail := none }.drain limit l.generation
        match l.finish batch limit l.generation with
        | (l, some out) => ({ l with fail := some failure }, some (.msgs out))
        | (l, none) => (l, some (.fail failure))
      | none =>
        if l.closed then
          let (l, batch) := l.drain limit l.generation
          match l.finish batch limit l.generation with
          | (l, some out) => (l, some (.msgs out))
          | (l, none) => (l, some .closed)
        else if late then (l, some .timeout)
        else (l, none)

/-- A waiting consumer has received `t`.  The loop goes on where `t` belongs to another attachment
than the lane's generation says. -/
def receive (limit : Nat) (late : Bool) (l : Lane α) (t : Tagged α) :
    Lane α × Option (Taken α) :=
  if t.generation = l.generation then
    let (batch, stale, rest) := drainRx t.generation (limit - 1) l.rx
    let l := { l with rx := rest, stale := l.stale + stale }
    match l.finish (t.msg :: batch) limit t.generation with
    | (l, some out) => (l, some (.msgs out))
    | (l, none) => l.pass limit late
  else pass limit late { l with stale := l.stale + 1 }

/-- What the consumer has not taken yet, in the order in which it reads. -/
def stock (l : Lane α) : List (Tagged α) := l.carry.map (Tagged.mk l.carryGen) ++ l.rx

end Lane

variable {α : Type}

/-- The gap that stands for `n` lost messages. -/
def gapOf (n : Nat) : List (Msg α) := if 0 < n then [.gap n] else []

/-- What one read of the channel does: it stops at a full batch or at the end. -/
theorem drainRx_spec (g room : Nat) (rx : List (Tagged α)) :
    ∃ seen, rx = seen ++ (drainRx g room rx).2.2 ∧
      (drainRx g room rx).1 = (seen.filter (·.generation = g)).map Tagged.msg ∧
      (drainRx g room rx).2.1 = (seen.filter (·.generation ≠ g)).length ∧
      (drainRx g room rx).1.length ≤ room ∧
      ((drainRx g room rx).1.length < room → (drainRx g room rx).2.2 = []) := by
  induction rx generalizing room with
  | nil =>
    cases room with
    | zero => exact ⟨[], by simp [drainRx]⟩
    | succ room => exact ⟨[], by simp [drainRx]⟩
  | cons t rx ih =>
    cases room with
    | zero => exact ⟨[], by simp [drainRx]⟩
    | succ room =>
      by_cases ht : t.generation = g
      · obtain ⟨seen, hrx, hbatch, hstale, hroom, hend⟩ := ih room
        refine ⟨t :: seen, ?_, ?_, ?_, ?_, ?_⟩
        · simpa [drainRx, ht] using hrx
        · simp [drainRx, ht, hbatch]
        · simpa [drainRx, ht] using hstale
        · simpa [drainRx, ht] using hroom
        · simpa [drainRx, ht] using hend
      · obtain ⟨seen, hrx, hbatch, hstale, hroom, hend⟩ := ih (room + 1)
        refine ⟨t :: seen, ?_, ?_, ?_, ?_, ?_⟩
        · simpa [drainRx, ht] using hrx
        · simpa [drainRx, ht] using hbatch
        · simpa [drainRx, ht] using hstale
        · simpa [drainRx, ht] using hroom
        · simpa [drainRx, ht] using hend

/-- A consumer has read `kept` and `lost` from the front of its stock, for attachment `g`: it hands
out `out` behind a gap for the lost ones, and carries `extra`. -/
structure Consumed (l l' : Lane α) (g : Nat) (kept lost rest : List (Tagged α))
    (out extra : List (Msg α)) : Prop where
  stock : ∃ seen, l.stock = seen ++ rest ∧ seen.Perm (kept ++ lost) ∧ kept.Sublist seen
  tags : ∀ t ∈ kept, t.generation = g
  split : gapOf (l.stale + lost.length) ++ kept.map Tagged.msg = out ++ extra
  after : l'.stock = extra.map (Tagged.mk g) ++ rest
  stale : l'.stale = 0
  ended : out = [] → extra = [] ∧ rest = []
  generation : l'.generation = l.generation
  up : l'.up = l.up

/-- Messages at the front of the stock that were counted as lost before the read. -/
theorem Consumed.prepend {l l₁ l' : Lane α} {g : Nat} {kept lost rest dropped : List (Tagged α)}
    {out extra : List (Msg α)} (h : Consumed l₁ l' g kept lost rest out extra)
    (hstock : l.stock = dropped ++ l₁.stock) (hstale : l₁.stale = l.stale + dropped.length)
    (hgeneration : l₁.generation = l.generation) (hup : l₁.up = l.up) :
    Consumed l l' g kept (dropped ++ lost) rest out extra := by
  obtain ⟨seen, hseen, hperm, hsub⟩ := h.stock
  refine ⟨⟨dropped ++ seen, ?_, ?_, ?_⟩, h.tags, ?_, h.after, h.stale, h.ended,
    h.generation.trans hgeneration, h.up.trans hup⟩
  · rw [hstock, hseen, List.append_assoc]
  · have hmoved : (dropped ++ (kept ++ lost)).Perm (kept ++ (dropped ++ lost)) := by
      rw [← List.append_assoc, ← List.append_assoc]
      exact List.perm_append_comm.append_right lost
    exact (hperm.append_left dropped).trans hmoved
  · exact hsub.trans (List.sublist_append_right dropped seen)
  · have hlength : l.stale + (dropped ++ lost).length = l₁.stale + lost.length := by
      rw [hstale, List.length_append]
      omega
    rw [hlength]
    exact h.split

/-- What `finish` makes of a batch: all of it is handed out or carried. -/
theorem finish_spec (l : Lane α) (batch : List (Msg α)) {limit : Nat} (g : Nat) (hlimit : 0 < limit) :
    ∃ extra, gapOf l.stale ++ batch = (l.finish batch limit g).2.getD [] ++ extra ∧
      ((l.finish batch limit g).2.getD [] = [] → gapOf l.stale ++ batch = []) ∧
      ((l.finish batch limit g).2 = none ↔ gapOf l.stale ++ batch = []) ∧
      (l.finish batch limit g).1 =
        { l with
          stale := 0
          carry := extra ++ l.carry
          carryGen := if extra = [] then l.carryGen else g } := by
  have hbatch : (if 0 < l.stale then .gap l.stale :: batch else batch) = gapOf l.stale ++ batch := by
    unfold gapOf
    split <;> rfl
  unfold Lane.finish
  simp only [hbatch]
  generalize gapOf l.stale ++ batch = all
  split
  · next hall => exact ⟨[], by simp [hall]⟩
  · next hall =>
    split
    · next hlt =>
      refine ⟨all.drop limit, ?_, ?_, by simp [hall], ?_⟩
      · simp
      · intro htake
        rcases List.take_eq_nil_iff.mp (show all.take limit = [] from htake) with h | h
        · omega
        · exact h
      · have hne : all.drop limit ≠ [] := by
          intro h
          have := List.drop_eq_nil_iff.mp h
          omega
        simp [hne]
    · exact ⟨[], by simp [hall]⟩

/-- A drain and its `finish`, on a lane that carries nothing of another attachment. -/
theorem drain_finish_consumed {l : Lane α} {limit g : Nat} (hlimit : 0 < limit)
    (hcarry : l.carry = [] ∨ l.carryGen = g) :
    ∃ kept lost rest extra,
      Consumed l ((l.drain limit g).1.finish (l.drain limit g).2 limit g).1 g kept lost rest
        (((l.drain limit g).1.finish (l.drain limit g).2 limit g).2.getD []) extra ∧
      (∀ t ∈ lost, t.generation ≠ g) ∧
      (((l.drain limit g).1.finish (l.drain limit g).2 limit g).2 = none → rest = []) := by
  obtain ⟨seen, hrx, hbatch, hstale, -, hend⟩ :=
    drainRx_spec g (limit - (l.carry.take limit).length) l.rx
  rcases hread : drainRx g (limit - (l.carry.take limit).length) l.rx with ⟨batch, stale, left⟩
  have hdrain : l.drain limit g =
      ({ l with carry := l.carry.drop limit, rx := left, stale := l.stale + stale },
        l.carry.take limit ++ batch) := by
    simp only [Lane.drain, hread]
  rw [hread] at hrx hbatch hstale hend
  rw [hdrain]
  dsimp only at hrx hbatch hstale hend ⊢
  obtain ⟨extra, hsplit, hnil, hnone, hafter⟩ := finish_spec
    { l with carry := l.carry.drop limit, rx := left, stale := l.stale + stale }
    (l.carry.take limit ++ batch) g hlimit
  -- the channel is read only where the carried messages left room
  have hseen : l.carry.drop limit = [] ∨ seen = [] := by
    by_cases hlong : l.carry.length ≤ limit
    · exact .inl (List.drop_eq_nil_iff.mpr hlong)
    · right
      have hzero : limit - (l.carry.take limit).length = 0 := by
        rw [List.length_take]
        omega
      rw [hzero, drainRx] at hread
      obtain ⟨-, -, rfl⟩ := hread
      simpa using hrx
  have hstock : l.stock = ((l.carry.take limit).map (Tagged.mk l.carryGen) ++ seen) ++
      ((l.carry.drop limit).map (Tagged.mk l.carryGen) ++ left) := by
    have hcarried : l.carry.map (Tagged.mk l.carryGen) =
        (l.carry.take limit).map (Tagged.mk l.carryGen) ++
          (l.carry.drop limit).map (Tagged.mk l.carryGen) := by
      rw [← List.map_append, List.take_append_drop]
    rw [Lane.stock, hrx, hcarried]
    rcases hseen with h | h
    · rw [h, List.map_nil, List.nil_append, List.append_nil, List.append_assoc]
    · rw [h, List.nil_append, List.append_nil, List.append_assoc]
  have hempty : gapOf (l.stale + stale) ++ (l.carry.take limit ++ batch) = [] →
      (l.carry.drop limit).map (Tagged.mk l.carryGen) ++ left = [] := by
    intro h
    obtain ⟨-, hnothing⟩ := List.append_eq_nil_iff.mp h
    obtain ⟨htake, hbatchNil⟩ := List.append_eq_nil_iff.mp hnothing
    have hcarryNil : l.carry = [] := by
      rcases List.take_eq_nil_iff.mp htake with h | h
      · omega
      · exact h
    have hrest := hend (by rw [hbatchNil, htake, List.length_nil]; omega)
    simp [hcarryNil, hrest]
  refine ⟨(l.carry.take limit).map (Tagged.mk l.carryGen) ++ seen.filter (·.generation = g),
    seen.filter (·.generation ≠ g), _, extra,
    ⟨⟨_, hstock, ?_, ?_⟩, ?_, ?_, ?_, ?_, ?_, ?_, ?_⟩, ?_, ?_⟩
  · rw [List.append_assoc]
    refine List.Perm.append_left _ ?_
    have := List.filter_append_perm (fun t : Tagged α => decide (t.generation = g)) seen
    simpa using this.symm
  · exact List.Sublist.append_left List.filter_sublist _
  · intro t ht
    rcases List.mem_append.mp ht with ht | ht
    · obtain ⟨m, hm, rfl⟩ := List.mem_map.mp ht
      rcases hcarry with h | h
      · simp [h] at hm
      · exact h
    · simpa using (List.mem_filter.mp ht).2
  · rw [← hstale, ← hsplit, hbatch]
    simp [Function.comp_def]
  · rw [hafter]
    by_cases hextra : extra = []
    · simp [Lane.stock, hextra]
    · rcases hcarry with h | h
      · simp [Lane.stock, hextra, h]
      · simp [Lane.stock, hextra, h]
  · rw [hafter]
  · intro hout
    have hall := hnil hout
    have hextra : extra = [] := by
      rw [hall] at hsplit
      exact (List.append_eq_nil_iff.mp hsplit.symm).2
    exact ⟨hextra, hempty hall⟩
  · rw [hafter]
  · rw [hafter]
  · intro t ht
    simpa using (List.mem_filter.mp ht).2
  · intro h
    exact hempty (hnone.mp h)

/-- The messages that a step hands out. -/
def outOf : Option (Taken α) → List (Msg α)
  | some (.msgs out) => out
  | _ => []

theorem drain_empty {l : Lane α} (h : l.stock = []) (limit g : Nat) : l.drain limit g = (l, []) := by
  obtain ⟨hcarry, hrx⟩ := List.append_eq_nil_iff.mp h
  have hcarry : l.carry = [] := List.map_eq_nil_iff.mp hcarry
  have hread : ∀ room, drainRx g room ([] : List (Tagged α)) = ([], 0, []) := by
    intro room
    cases room <;> rfl
  cases l
  simp_all [Lane.drain]

theorem finish_empty {l : Lane α} (h : l.stale = 0) (limit g : Nat) :
    l.finish [] limit g = (l, none) := by
  cases l
  simp_all [Lane.finish]

/-- One pass of `take` reads for the attachment that is owed, and answers without messages only
where nothing is left. -/
theorem pass_spec {l : Lane α} {limit : Nat} (late : Bool) (hlimit : 0 < limit) :
    ∃ kept lost rest extra,
      Consumed l (l.pass limit late).1 l.owed kept lost rest (outOf (l.pass limit late).2) extra ∧
      (∀ t ∈ lost, t.generation ≠ l.owed) ∧
      ((l.pass limit late).2 = some .down → l.up = false) ∧
      (((l.pass limit late).2 = some .closed ∨ ∃ f, (l.pass limit late).2 = some (.fail f)) →
        l.up = true) := by
  have hsame : l.dropCarry.generation = l.generation ∧ l.dropCarry.up = l.up := by
    unfold Lane.dropCarry
    split <;> exact ⟨rfl, rfl⟩
  have hcarry : l.dropCarry.carry = [] ∨ l.dropCarry.carryGen = l.owed := by
    unfold Lane.dropCarry
    split
    · exact .inl rfl
    · tauto
  obtain ⟨dropped, hstock, hstale, hdropped⟩ : ∃ dropped, l.stock = dropped ++ l.dropCarry.stock ∧
      l.dropCarry.stale = l.stale + dropped.length ∧ ∀ t ∈ dropped, t.generation ≠ l.owed := by
    unfold Lane.dropCarry
    split
    · next h =>
      refine ⟨l.carry.map (Tagged.mk l.carryGen), by simp [Lane.stock], by simp, ?_⟩
      intro t ht
      obtain ⟨m, -, rfl⟩ := List.mem_map.mp ht
      exact h.2
    · exact ⟨[], by simp, by simp, by simp⟩
  obtain ⟨kept, lost, rest, extra, hc, hlost, hnone⟩ :=
    drain_finish_consumed (l := l.dropCarry) hlimit hcarry
  have hc := hc.prepend hstock hstale hsame.1 hsame.2
  have hothers : ∀ t ∈ dropped ++ lost, t.generation ≠ l.owed := by
    intro t ht
    rcases List.mem_append.mp ht with ht | ht
    · exact hdropped t ht
    · exact hlost t ht
  unfold Lane.pass
  dsimp only
  rcases hfinish : (l.dropCarry.drain limit l.owed).1.finish (l.dropCarry.drain limit l.owed).2 limit
    l.owed with ⟨l₂, reply⟩
  rw [hfinish] at hc hnone
  refine ⟨kept, dropped ++ lost, rest, extra, ?_⟩
  cases reply with
  | some out => exact ⟨hc, hothers, by simp, by simp⟩
  | none =>
    -- nothing is left, so that the late drains find nothing
    have hrest := hnone rfl
    have hextra := (hc.ended rfl).1
    have hempty : l₂.stock = [] := by
      rw [hc.after, hextra, hrest]
      rfl
    have hzero : l₂.stale = 0 := hc.stale
    have hup : l₂.up = l.up := hc.up
    simp only [Option.getD_none] at hc
    dsimp only
    split
    · next hdown =>
      refine ⟨hc, hothers, ?_, by simp⟩
      intro _
      rw [← hup]
      simpa using hdown
    · next hlive =>
      have hlive : l.up = true := by
        rw [← hup]
        simpa using hlive
      cases hfail : l₂.fail with
      | some failure =>
        have hstill : ({ l₂ with fail := none } : Lane α).stock = [] := hempty
        have hclean : ({ l₂ with fail := none } : Lane α).stale = 0 := hzero
        rw [drain_empty hstill]
        dsimp only
        rw [finish_empty hclean]
        refine ⟨?_, hothers, by simp, fun _ => hlive⟩
        exact ⟨hc.stock, hc.tags, hc.split, hc.after, hc.stale, hc.ended, hc.generation, hc.up⟩
      | none =>
        dsimp only
        split
        · rw [drain_empty hempty]
          dsimp only
          rw [finish_empty hzero]
          exact ⟨hc, hothers, by simp, fun _ => hlive⟩
        · split
          · exact ⟨hc, hothers, by simp, by simp⟩
          · exact ⟨hc, hothers, by simp, by simp⟩

/-- A received message of the lane's generation is read like a drain that it heads. -/
theorem receive_current {l : Lane α} {limit : Nat} {t : Tagged α} (late : Bool) (hlimit : 0 < limit)
    (hcarry : l.carry = []) (ht : t.generation = l.generation) :
    ∃ kept lost rest extra,
      Consumed { l with rx := t :: l.rx } (l.receive limit late t).1 l.generation kept lost rest
        (outOf (l.receive limit late t).2) extra ∧
      (∀ u ∈ lost, u.generation ≠ l.generation) ∧
      ∃ out, (l.receive limit late t).2 = some (.msgs out) := by
  obtain ⟨room, rfl⟩ : ∃ room, limit = room + 1 := ⟨limit - 1, by omega⟩
  rcases hread : drainRx t.generation room l.rx with ⟨batch, stale, left⟩
  have hdrain : ({ l with rx := t :: l.rx } : Lane α).drain (room + 1) t.generation =
      ({ l with rx := left, stale := l.stale + stale }, t.msg :: batch) := by
    have hhead : drainRx t.generation (room + 1) (t :: l.rx) = (t.msg :: batch, stale, left) := by
      simp [drainRx, hread]
    cases l
    simp_all [Lane.drain]
  obtain ⟨kept, lost, rest, extra, hc, hlost, -⟩ :=
    drain_finish_consumed (l := { l with rx := t :: l.rx }) (g := t.generation) hlimit
      (.inl hcarry)
  obtain ⟨-, -, -, hnone, -⟩ := finish_spec { l with rx := left, stale := l.stale + stale }
    (t.msg :: batch) t.generation hlimit
  rw [hdrain] at hc
  unfold Lane.receive
  rw [if_pos ht]
  simp only [Nat.add_sub_cancel, hread]
  rcases hfinish : ({ l with rx := left, stale := l.stale + stale } : Lane α).finish
    (t.msg :: batch) (room + 1) t.generation with ⟨l₂, reply⟩
  dsimp only at hc
  rw [hfinish] at hc hnone
  cases reply with
  | none => simp at hnone
  | some out =>
    have hg : ∀ u ∈ lost, u.generation ≠ l.generation := by
      intro u hu
      rw [← ht]
      exact hlost u hu
    exact ⟨kept, lost, rest, extra, ht ▸ hc, hg, out, rfl⟩

/-- Any other received message is counted as lost, and the loop goes on. -/
theorem receive_other {l : Lane α} {limit : Nat} {t : Tagged α} (late : Bool) (hlimit : 0 < limit)
    (hcarry : l.carry = []) (ht : t.generation ≠ l.generation) :
    ∃ kept lost rest extra,
      Consumed { l with rx := t :: l.rx } (l.receive limit late t).1 l.owed kept (t :: lost) rest
        (outOf (l.receive limit late t).2) extra ∧
      (∀ u ∈ lost, u.generation ≠ l.owed) ∧
      ((l.receive limit late t).2 = some .down → l.up = false) ∧
      (((l.receive limit late t).2 = some .closed ∨
          ∃ f, (l.receive limit late t).2 = some (.fail f)) → l.up = true) := by
  obtain ⟨kept, lost, rest, extra, hc, hlost, hdown, hup⟩ :=
    pass_spec (l := { l with stale := l.stale + 1 }) late hlimit
  unfold Lane.receive
  rw [if_neg ht]
  refine ⟨kept, lost, rest, extra, ?_, hlost, hdown, hup⟩
  have hstock : ({ l with rx := t :: l.rx } : Lane α).stock =
      [t] ++ ({ l with stale := l.stale + 1 } : Lane α).stock := by
    simp [Lane.stock, hcarry]
  exact hc.prepend hstock rfl rfl rfl

end RithmicNt.Host.Streams
