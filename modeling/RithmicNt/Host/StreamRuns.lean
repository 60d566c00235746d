import RithmicNt.Host.Streams

/-! A lane between its producers and its consumer: every interleaving of sends, attaches, detaches,
failures and closes with the steps of `take`, each of which runs from one await to the next. -/

namespace RithmicNt.Host.Streams

open RithmicNt.Lib

/-- A lane with the `take` that waits on it (by its limit), the attachments made so far, what they
have queued, what the consumer was given and what the last step answered. -/
structure Traffic (α : Type) where
  lane : Lane α := {}
  waiting : Option Nat := none
  txs : List Nat := []
  sent : List (Tagged α) := []
  delivered : List (Tagged α) := []
  reply : Option (Taken α) := none

/-- `late`: the deadline of the `take` has passed when the step looks at it. -/
inductive Event (α : Type)
  | attach
  | event (generation : Nat) (e : PlantEvent α)
  | gap (generation skipped : Nat)
  | tryEvent (generation : Nat) (e : PlantEvent α)
  | detach (generation : Nat)
  | fail (generation : Nat) (failure : Failure)
  | closeTx (generation : Nat)
  | close
  /-- A `take` has the consumer lock. -/
  | take (max : Nat) (late : Bool)
  | recv (late : Bool)
  | notified (late : Bool)
  | timeout
  /-- The waiting `take` is dropped. -/
  | cancel

namespace Traffic

variable {α : Type}

def queue (s : Traffic α) (generation : Nat) (msg : Msg α) : Traffic α :=
  { s with
    lane := s.lane.send generation msg
    sent := s.sent ++ [⟨generation, msg⟩]
    reply := none }

def setLane (s : Traffic α) (lane : Lane α) : Traffic α := { s with lane, reply := none }

/-- The consumer has run for attachment `generation` and answers, or waits. -/
def answer (s : Traffic α) (limit generation : Nat) (r : Lane α × Option (Taken α)) : Traffic α :=
  { s with
    lane := r.1
    waiting := if r.2.isNone then some limit else none
    delivered := s.delivered ++ (outOf r.2).map (Tagged.mk generation)
    reply := r.2 }

/-- A sender that finds the channel full waits. -/
def send (s : Traffic α) (generation : Nat) (msg : Msg α) : Option (Traffic α) :=
  if generation ∈ s.txs ∧ s.lane.rx.length < streamCapacity then some (s.queue generation msg)
  else none

def receive (s : Traffic α) (limit : Nat) (late : Bool) : Option (Traffic α) :=
  match s.lane.rx with
  | [] => none
  | t :: rest =>
    let generation := if t.generation = s.lane.generation then s.lane.generation else s.lane.owed
    some (s.answer limit generation ({ s.lane with rx := rest }.receive limit late t))

def step (s : Traffic α) : Event α → Option (Traffic α)
  | .attach => some { s with
      lane := s.lane.attach, txs := s.txs ++ [s.lane.generation + 1], reply := none }
  | .event generation e => s.send generation (msgOf e)
  | .gap generation skipped => s.send generation (.gap skipped)
  | .tryEvent generation e =>
    if s.lane.generation = generation then s.send generation (msgOf e) else none
  | .detach generation =>
    if generation ∈ s.txs then some (s.setLane (s.lane.detach generation)) else none
  | .fail generation failure => some (s.setLane (s.lane.record generation failure))
  | .closeTx generation => some (s.setLane (s.lane.closeTx generation))
  | .close => some (s.setLane { s.lane with closed := true })
  | .take max late =>
    if s.waiting = none then
      some (s.answer (Nat.max max 1) s.lane.owed (s.lane.pass (Nat.max max 1) late))
    else none
  | .recv late => s.waiting.bind fun limit => s.receive limit late
  | .notified late =>
    s.waiting.map fun limit => s.answer limit s.lane.owed (s.lane.pass limit late)
  | .timeout => s.waiting.map fun _ => { s with waiting := none, reply := some .timeout }
  | .cancel => s.waiting.map fun _ => { s with waiting := none, reply := none }

end Traffic

def machine (α : Type) : Machine (Traffic α) (Event α) where
  Start s := s = {}
  step := Traffic.step

variable {α : Type}

def Msg.isEvent : Msg α → Bool
  | .event _ => true
  | .gap _ => false

def Msg.weight : Msg α → Nat
  | .event _ => 1
  | .gap skipped => skipped

def weight (l : List (Tagged α)) : Nat := (l.map fun t => t.msg.weight).sum

/-- The events of attachment `g`, in the order of the list. -/
def eventsOf (g : Nat) (l : List (Tagged α)) : List (Tagged α) :=
  l.filter fun t => t.generation = g ∧ t.msg.isEvent

/-- The weight sent is the weight handed out and the weight queued, carried or counted as stale. -/
def Traffic.Conserved (s : Traffic α) : Prop :=
  weight s.sent = weight s.delivered + weight s.lane.rx + (s.lane.carry.map Msg.weight).sum +
    s.lane.stale

/-- The events of an attachment are handed out in order, each at most once, and none of them after
an event of a newer attachment. -/
structure Traffic.Ordered (s : Traffic α) : Prop where
  inOrder : ∀ g, (eventsOf g s.delivered).Sublist (eventsOf g s.sent)
  noneLate : (s.delivered.filter (·.msg.isEvent)).Pairwise fun t u => t.generation ≤ u.generation

/-- A lane that reads as down has handed out every event of the attachment that detached, and a
failure or a close comes behind every event of its attachment. -/
structure Traffic.Settled (s : Traffic α) : Prop where
  down : s.reply = some .down → ∀ g, s.lane.generation = g + 1 →
    eventsOf g s.delivered = eventsOf g s.sent
  closed : s.reply = some .closed →
    eventsOf s.lane.generation s.delivered = eventsOf s.lane.generation s.sent
  fail : ∀ failure, s.reply = some (.fail failure) →
    eventsOf s.lane.generation s.delivered = eventsOf s.lane.generation s.sent

/-- No message that the consumer would discard stands for another number of events than one. -/
def Light (s : Traffic α) : Event α → Prop
  | .take _ _ | .notified _ =>
    ∀ t ∈ s.lane.stock, t.generation ≠ s.lane.owed → t.msg.weight = 1
  | .recv _ =>
    (∀ t ∈ s.lane.rx.head?, t.generation ≠ s.lane.generation → t.msg.weight = 1) ∧
      ∀ t ∈ s.lane.rx.tail, t.generation ≠ s.lane.owed → t.msg.weight = 1
  | _ => True

/-- A consumer that waited is not resumed, on a lane that is down, by an event of the attachment that
has just detached. -/
def NotDetached (s : Traffic α) : Event α → Prop
  | .recv _ => ∀ t ∈ s.lane.rx.head?, s.lane.up = false → t.generation = s.lane.owed →
    t.msg.isEvent = false
  | _ => True

instance (s : Traffic α) (a : Event α) : Decidable (Light s a) := by
  unfold Light
  split <;> infer_instance

instance (s : Traffic α) (a : Event α) : Decidable (NotDetached s a) := by
  unfold NotDetached
  split <;> infer_instance

theorem eventsOf_append (g : Nat) (l l' : List (Tagged α)) :
    eventsOf g (l ++ l') = eventsOf g l ++ eventsOf g l' :=
  List.filter_append ..

theorem weight_append (l l' : List (Tagged α)) : weight (l ++ l') = weight l + weight l' := by
  simp [weight]

theorem weight_stock (l : Lane α) :
    weight l.stock = (l.carry.map Msg.weight).sum + weight l.rx := by
  simp [Lane.stock, weight, Function.comp_def]

/-- A list of messages of one attachment. -/
theorem map_mk_msg {g : Nat} {l : List (Tagged α)} (h : ∀ t ∈ l, t.generation = g) :
    (l.map Tagged.msg).map (Tagged.mk g) = l := by
  rw [List.map_map]
  refine (List.map_congr_left ?_).trans l.map_id
  intro t ht
  obtain ⟨generation, msg⟩ := t
  have := h _ ht
  simp_all

theorem weight_gapOf (g n : Nat) : weight ((gapOf n : List (Msg α)).map (Tagged.mk g)) = n := by
  unfold gapOf
  split
  · simp [weight, Msg.weight]
  · simp [weight]
    omega

theorem eventsOf_gapOf (g h n : Nat) :
    eventsOf h ((gapOf n : List (Msg α)).map (Tagged.mk g)) = [] := by
  unfold gapOf
  split
  · simp [eventsOf, Msg.isEvent]
  · simp [eventsOf]

namespace Consumed

variable {l l' : Lane α} {g : Nat} {kept lost rest : List (Tagged α)} {out extra : List (Msg α)}

theorem tagged (h : Consumed l l' g kept lost rest out extra) :
    (gapOf (l.stale + lost.length)).map (Tagged.mk g) ++ kept =
      out.map (Tagged.mk g) ++ extra.map (Tagged.mk g) := by
  rw [← List.map_append, ← h.split, List.map_append, map_mk_msg h.tags]

theorem lost_mem (h : Consumed l l' g kept lost rest out extra) {t : Tagged α} (ht : t ∈ lost) :
    t ∈ l.stock := by
  obtain ⟨seen, hstock, hperm, -⟩ := h.stock
  rw [hstock]
  exact List.mem_append_left _ (hperm.mem_iff.mpr (List.mem_append_right _ ht))

theorem kept_mem (h : Consumed l l' g kept lost rest out extra) {t : Tagged α} (ht : t ∈ kept) :
    t ∈ l.stock := by
  obtain ⟨seen, hstock, hperm, -⟩ := h.stock
  rw [hstock]
  exact List.mem_append_left _ (hperm.mem_iff.mpr (List.mem_append_left _ ht))

theorem conserved (h : Consumed l l' g kept lost rest out extra)
    (hlost : ∀ t ∈ lost, t.msg.weight = 1) :
    weight l.stock + l.stale = weight (out.map (Tagged.mk g)) + weight l'.stock + l'.stale := by
  obtain ⟨seen, hstock, hperm, -⟩ := h.stock
  have hseen : weight seen = weight kept + weight lost := by
    rw [← weight_append]
    exact (hperm.map _).sum_eq
  have hones : weight lost = lost.length := by
    unfold weight
    rw [List.map_congr_left hlost]
    simp
  have hsplit := congrArg weight h.tagged
  rw [weight_append, weight_append, weight_gapOf] at hsplit
  rw [hstock, h.after, h.stale, weight_append, weight_append, hseen, hones]
  omega

/-- What is handed out and what stays, of one attachment: its kept events and the rest. -/
theorem eventsOf_after (h : Consumed l l' g kept lost rest out extra) (i : Nat) :
    eventsOf i (out.map (Tagged.mk g)) ++ eventsOf i l'.stock =
      eventsOf i kept ++ eventsOf i rest := by
  have htagged := congrArg (eventsOf i) h.tagged
  rw [eventsOf_append, eventsOf_append, eventsOf_gapOf, List.nil_append] at htagged
  rw [h.after, eventsOf_append, htagged, List.append_assoc]

theorem inOrder (h : Consumed l l' g kept lost rest out extra) (i : Nat) :
    (eventsOf i (out.map (Tagged.mk g)) ++ eventsOf i l'.stock).Sublist (eventsOf i l.stock) := by
  obtain ⟨seen, hstock, -, hsub⟩ := h.stock
  rw [h.eventsOf_after, hstock, eventsOf_append]
  exact (hsub.filter _).append_right _

/-- Where no event of the attachment is lost, all of its events are handed out or stay. -/
theorem settled (h : Consumed l l' g kept lost rest out extra) {i : Nat}
    (hlost : eventsOf i lost = []) :
    eventsOf i (out.map (Tagged.mk g)) ++ eventsOf i l'.stock = eventsOf i l.stock := by
  obtain ⟨seen, hstock, hperm, hsub⟩ := h.stock
  have hlength : (eventsOf i kept).length = (eventsOf i seen).length := by
    have := (hperm.filter fun t => decide (t.generation = i ∧ t.msg.isEvent)).length_eq
    change _ = (eventsOf i (kept ++ lost)).length at this
    rw [eventsOf_append, hlost, List.append_nil] at this
    exact this.symm
  have hkept : eventsOf i kept = eventsOf i seen := (hsub.filter _).eq_of_length hlength
  rw [h.eventsOf_after, hstock, eventsOf_append, hkept]

/-- A message is carried only behind a kept one, so that no attachment is new in the stock. -/
theorem generation_after (h : Consumed l l' g kept lost rest out extra) {t : Tagged α}
    (ht : t ∈ l'.stock) : ∃ u ∈ l.stock, u.generation = t.generation := by
  rw [h.after] at ht
  rcases List.mem_append.mp ht with ht | ht
  · obtain ⟨m, hm, rfl⟩ := List.mem_map.mp ht
    have hextra : 0 < extra.length := List.length_pos_of_mem hm
    have hout : 0 < out.length := by
      rw [List.length_pos_iff]
      intro hout
      rw [(h.ended hout).1] at hm
      cases hm
    have hgap : (gapOf (l.stale + lost.length) : List (Msg α)).length ≤ 1 := by
      unfold gapOf
      split <;> simp
    have hlength := congrArg List.length h.split
    simp only [List.length_append, List.length_map] at hlength
    obtain ⟨u, hu⟩ := List.exists_mem_of_length_pos (show 0 < kept.length by omega)
    exact ⟨u, h.kept_mem hu, h.tags u hu⟩
  · obtain ⟨seen, hstock, -, -⟩ := h.stock
    rw [hstock]
    exact ⟨t, List.mem_append_right _ ht, rfl⟩

end Consumed

/-- What holds in every state: only attachments send, those before the current one while the lane is
down, and what is handed out or in stock keeps the order in which it was sent. -/
structure Traffic.Sound (s : Traffic α) : Prop where
  txs : ∀ g ∈ s.txs, g ≤ s.lane.generation ∧ (s.lane.up = false → g < s.lane.generation)
  sent : ∀ t ∈ s.sent, t.generation ∈ s.txs
  stock : ∀ t ∈ s.lane.stock, t.generation ∈ s.txs
  waiting : ∀ limit, s.waiting = some limit → 0 < limit ∧ s.lane.carry = []
  inOrder : ∀ g, (eventsOf g s.delivered ++ eventsOf g s.lane.stock).Sublist (eventsOf g s.sent)
  noneLate : (s.delivered.filter (·.msg.isEvent)).Pairwise fun t u => t.generation ≤ u.generation

/-- The consumer has run, for the attachment that is owed, and answered `r`. -/
structure Ran (s : Traffic α) (a : Event α) (limit : Nat) (r : Lane α × Option (Taken α))
    (kept lost rest : List (Tagged α)) (extra : List (Msg α)) : Prop where
  limit : 0 < limit
  consumed : Consumed s.lane r.1 s.lane.owed kept lost rest (outOf r.2) extra
  light : Light s a → ∀ t ∈ lost, t.msg.weight = 1
  notDetached : NotDetached s a → eventsOf s.lane.owed lost = []
  down : r.2 = some .down → s.lane.up = false
  ended : (r.2 = some .closed ∨ ∃ f, r.2 = some (.fail f)) → s.lane.up = true

theorem eventsOf_eq_nil {g : Nat} {l : List (Tagged α)}
    (h : ∀ t ∈ l, t.generation = g → t.msg.isEvent = false) : eventsOf g l = [] := by
  rw [eventsOf, List.filter_eq_nil_iff]
  intro t ht
  have := h t ht
  simp_all

/-- A step of the consumer that starts at the head of its loop. -/
theorem ran_pass {s : Traffic α} {a : Event α} {limit : Nat} (late : Bool) (hlimit : 0 < limit)
    (ha : Light s a → ∀ t ∈ s.lane.stock, t.generation ≠ s.lane.owed → t.msg.weight = 1) :
    ∃ kept lost rest extra, Ran s a limit (s.lane.pass limit late) kept lost rest extra := by
  obtain ⟨kept, lost, rest, extra, hc, hlost, hdown, hended⟩ := pass_spec (l := s.lane) late hlimit
  refine ⟨kept, lost, rest, extra, hlimit, hc, ?_, ?_, hdown, hended⟩
  · intro hlight t ht
    exact ha hlight t (hc.lost_mem ht) (hlost t ht)
  · intro _
    refine eventsOf_eq_nil ?_
    intro t ht hg
    exact absurd hg (hlost t ht)

theorem owed_of_up {l : Lane α} (h : l.up = true) : l.owed = l.generation := by
  simp [Lane.owed, h]

theorem Traffic.Sound.up_of_current {s : Traffic α} (hs : s.Sound) {g : Nat} (hg : g ∈ s.txs)
    (h : g = s.lane.generation) : s.lane.up = true := by
  by_contra hup
  have := (hs.txs g hg).2 (by simpa using hup)
  omega

/-- A step of the consumer that waited on the channel. -/
theorem ran_receive {s : Traffic α} {limit : Nat} {t : Tagged α} {rest : List (Tagged α)}
    (late : Bool) (hs : s.Sound) (hwaiting : s.waiting = some limit) (hrx : s.lane.rx = t :: rest) :
    (if t.generation = s.lane.generation then s.lane.generation else s.lane.owed) = s.lane.owed ∧
    ∃ kept lost left extra, Ran s (.recv late) limit
      ({ s.lane with rx := rest }.receive limit late t) kept lost left extra := by
  obtain ⟨hlimit, hcarry⟩ := hs.waiting limit hwaiting
  have hstock : s.lane.stock = t :: rest := by simp [Lane.stock, hcarry, hrx]
  have hsame : ({ s.lane with rx := t :: rest } : Lane α) = s.lane := by rw [← hrx]
  have hlight : Light s (.recv late) →
      (t.generation ≠ s.lane.generation → t.msg.weight = 1) ∧
        ∀ u ∈ rest, u.generation ≠ s.lane.owed → u.msg.weight = 1 := by
    intro h
    simpa [Light, hrx] using h
  by_cases ht : t.generation = s.lane.generation
  · have hup : s.lane.up = true := by
      refine hs.up_of_current (hs.stock t ?_) ht
      rw [hstock]
      exact List.mem_cons_self
    refine ⟨by rw [if_pos ht, owed_of_up hup], ?_⟩
    obtain ⟨kept, lost, left, extra, hc, hlost, out, hout⟩ :=
      receive_current (l := { s.lane with rx := rest }) late hlimit hcarry ht
    generalize ({ s.lane with rx := rest } : Lane α).receive limit late t = r at hc hout ⊢
    dsimp only at hc hlost
    rw [hsame] at hc
    rw [← owed_of_up hup] at hc hlost
    refine ⟨kept, lost, left, extra, hlimit, hc, ?_, ?_, by rw [hout]; simp, by rw [hout]; simp⟩
    · intro h u hu
      have hmem := hc.lost_mem hu
      rw [hstock] at hmem
      rcases List.mem_cons.mp hmem with rfl | hmem
      · exact absurd (ht.trans (owed_of_up hup).symm) (hlost u hu)
      · exact (hlight h).2 u hmem (hlost u hu)
    · intro _
      refine eventsOf_eq_nil ?_
      intro u hu hg
      exact absurd hg (hlost u hu)
  · refine ⟨by rw [if_neg ht], ?_⟩
    obtain ⟨kept, lost, left, extra, hc, hlost, hdown, hended⟩ :=
      receive_other (l := { s.lane with rx := rest }) late hlimit hcarry ht
    dsimp only at hc
    rw [hsame] at hc
    refine ⟨kept, t :: lost, left, extra, hlimit, hc, ?_, ?_, hdown, hended⟩
    · intro h u hu
      have hmem := hc.lost_mem hu
      rw [hstock] at hmem
      rcases List.mem_cons.mp hmem with rfl | hmem
      · exact (hlight h).1 ht
      · rcases List.mem_cons.mp hu with rfl | hu
        · exact (hlight h).1 ht
        · exact (hlight h).2 u hmem (hlost u hu)
    · -- on a lane that is up the owed attachment is the current one, and `t` is not of it
      intro h
      refine eventsOf_eq_nil ?_
      intro u hu hg
      rcases List.mem_cons.mp hu with rfl | hu
      · by_cases hup : s.lane.up = true
        · rw [owed_of_up hup] at hg
          exact absurd hg ht
        · have hhead : u ∈ s.lane.rx.head? := by simp [hrx]
          exact h u hhead (by simpa using hup) hg
      · exact absurd hg (hlost u hu)

/-- Everything that a step can do. -/
theorem step_cases {s t : Traffic α} {a : Event α} (hs : s.Sound) (h : s.step a = some t) :
    (t = { s with
      lane := s.lane.attach, txs := s.txs ++ [s.lane.generation + 1], reply := none }) ∨
    (∃ g msg, g ∈ s.txs ∧ t = s.queue g msg) ∨
    (∃ lane : Lane α, lane.stock = s.lane.stock ∧ lane.carry = s.lane.carry ∧
      lane.stale = s.lane.stale ∧ (s.txs ≠ [] → lane.owed = s.lane.owed) ∧
      (∀ g ∈ s.txs, g ≤ lane.generation ∧ (lane.up = false → g < lane.generation)) ∧
      t = s.setLane lane) ∨
    (∃ limit r kept lost rest extra, Ran s a limit r kept lost rest extra ∧
      t = s.answer limit s.lane.owed r) ∨
    ∃ reply, (reply = none ∨ reply = some .timeout) ∧ t = { s with waiting := none, reply } := by
  have hsend : ∀ g msg, s.send g msg = some t → ∃ g msg, g ∈ s.txs ∧ t = s.queue g msg := by
    intro g msg h
    unfold Traffic.send at h
    split at h
    · next hg =>
      cases h
      exact ⟨g, msg, hg.1, rfl⟩
    · cases h
  cases a with
  | attach =>
    left
    cases h
    rfl
  | event g e => exact .inr (.inl (hsend _ _ h))
  | gap g skipped => exact .inr (.inl (hsend _ _ h))
  | tryEvent g e =>
    simp only [Traffic.step] at h
    split at h
    · exact .inr (.inl (hsend _ _ h))
    · cases h
  | detach g =>
    simp only [Traffic.step] at h
    split at h
    · next hg =>
      cases h
      refine .inr (.inr (.inl ⟨s.lane.detach g, ?_⟩))
      unfold Lane.detach
      split
      · next hcurrent =>
        have hup := hs.up_of_current hg hcurrent.symm
        refine ⟨rfl, rfl, rfl, ?_, ?_, rfl⟩
        · intro _
          simp [Lane.owed, hup, Lane.before]
        · intro i hi
          have := (hs.txs i hi).1
          dsimp only
          omega
      · exact ⟨rfl, rfl, rfl, fun _ => rfl, hs.txs, rfl⟩
    · cases h
  | fail g failure =>
    cases h
    refine .inr (.inr (.inl ⟨s.lane.record g failure, ?_⟩))
    unfold Lane.record
    split
    · exact ⟨rfl, rfl, rfl, fun _ => rfl, hs.txs, rfl⟩
    · exact ⟨rfl, rfl, rfl, fun _ => rfl, hs.txs, rfl⟩
  | closeTx g =>
    cases h
    refine .inr (.inr (.inl ⟨s.lane.closeTx g, ?_⟩))
    unfold Lane.closeTx
    split
    · exact ⟨rfl, rfl, rfl, fun _ => rfl, hs.txs, rfl⟩
    · exact ⟨rfl, rfl, rfl, fun _ => rfl, hs.txs, rfl⟩
  | close =>
    cases h
    refine .inr (.inr (.inl ⟨{ s.lane with closed := true }, ?_⟩))
    exact ⟨rfl, rfl, rfl, fun _ => rfl, hs.txs, rfl⟩
  | take max late =>
    simp only [Traffic.step] at h
    split at h
    · cases h
      obtain ⟨kept, lost, rest, extra, hran⟩ := ran_pass (s := s) (a := .take max late) late
        (show 0 < Nat.max max 1 by exact Nat.lt_of_lt_of_le Nat.one_pos (Nat.le_max_right _ _)) id
      exact .inr (.inr (.inr (.inl ⟨_, _, kept, lost, rest, extra, hran, rfl⟩)))
    · cases h
  | recv late =>
    obtain ⟨limit, hwaiting, h⟩ := Option.bind_eq_some_iff.mp h
    unfold Traffic.receive at h
    split at h
    · cases h
    · next u rest hrx =>
      cases h
      obtain ⟨hg, kept, lost, left, extra, hran⟩ := ran_receive late hs hwaiting hrx
      rw [hg]
      exact .inr (.inr (.inr (.inl ⟨_, _, kept, lost, left, extra, hran, rfl⟩)))
  | notified late =>
    obtain ⟨limit, hwaiting, rfl⟩ := Option.map_eq_some_iff.mp h
    obtain ⟨kept, lost, rest, extra, hran⟩ := ran_pass (s := s) (a := .notified late) late
      (hs.waiting limit hwaiting).1 id
    exact .inr (.inr (.inr (.inl ⟨_, _, kept, lost, rest, extra, hran, rfl⟩)))
  | timeout =>
    obtain ⟨limit, -, rfl⟩ := Option.map_eq_some_iff.mp h
    exact .inr (.inr (.inr (.inr ⟨_, .inr rfl, rfl⟩)))
  | cancel =>
    obtain ⟨limit, -, rfl⟩ := Option.map_eq_some_iff.mp h
    exact .inr (.inr (.inr (.inr ⟨_, .inl rfl, rfl⟩)))

theorem Traffic.Sound.le_owed {s : Traffic α} (hs : s.Sound) {g : Nat} (hg : g ∈ s.txs) :
    g ≤ s.lane.owed := by
  obtain ⟨hle, hlt⟩ := hs.txs g hg
  unfold Lane.owed Lane.before
  split
  · exact hle
  · next hup =>
    have := hlt (by simpa using hup)
    split <;> omega

theorem mem_of_eventsOf {s : Traffic α} (hs : s.Sound) {t : Tagged α} (ht : t ∈ s.delivered)
    (hevent : t.msg.isEvent = true) : t.generation ∈ s.txs := by
  refine hs.sent t ?_
  have hmem : t ∈ eventsOf t.generation s.delivered := by simp [eventsOf, ht, hevent]
  have := (hs.inOrder t.generation).subset (List.mem_append_left _ hmem)
  exact List.mem_of_mem_filter this

theorem stock_nil_carry {l : Lane α} (h : l.stock = []) : l.carry = [] :=
  List.map_eq_nil_iff.mp (List.append_eq_nil_iff.mp h).1

/-- The consumer keeps what holds in every state. -/
theorem sound_answer {s : Traffic α} {a : Event α} {limit : Nat} {r : Lane α × Option (Taken α)}
    {kept lost rest : List (Tagged α)} {extra : List (Msg α)} (hs : s.Sound)
    (h : Ran s a limit r kept lost rest extra) : (s.answer limit s.lane.owed r).Sound := by
  have hc := h.consumed
  have hbatch : ∀ i, (eventsOf i (s.answer limit s.lane.owed r).delivered ++
      eventsOf i r.1.stock).Sublist (eventsOf i s.delivered ++ eventsOf i s.lane.stock) := by
    intro i
    change (eventsOf i (s.delivered ++ _) ++ _).Sublist _
    rw [eventsOf_append, List.append_assoc]
    exact (hc.inOrder i).append_left _
  refine ⟨?_, hs.sent, ?_, ?_, ?_, ?_⟩
  · intro g hg
    have := hs.txs g hg
    rw [← hc.generation, ← hc.up] at this
    exact this
  · intro t ht
    obtain ⟨u, hu, hgen⟩ := hc.generation_after ht
    rw [← hgen]
    exact hs.stock u hu
  · intro limit' hwait
    rcases hr : r.2 with _ | taken
    · have hstock : r.1.stock = [] := by
        obtain ⟨hextra, hrest⟩ := hc.ended (by rw [hr]; rfl)
        rw [hc.after, hextra, hrest]
        rfl
      simp only [Traffic.answer, hr, Option.isNone_none, if_true, Option.some.injEq] at hwait
      subst hwait
      exact ⟨h.limit, stock_nil_carry hstock⟩
    · simp [Traffic.answer, hr] at hwait
  · intro i
    exact (hbatch i).trans (hs.inOrder i)
  · -- the batch belongs to the owed attachment, and no attachment is newer
    change ((s.delivered ++ _).filter _).Pairwise _
    rw [List.filter_append, List.pairwise_append]
    refine ⟨hs.noneLate, ?_, ?_⟩
    · refine List.Pairwise.filter _ ?_
      rw [List.pairwise_map]
      exact List.pairwise_of_forall fun _ _ => Nat.le_refl _
    · intro t ht u hu
      obtain ⟨ht, hevent⟩ := List.mem_filter.mp ht
      obtain ⟨m, -, rfl⟩ := List.mem_map.mp (List.mem_of_mem_filter hu)
      exact hs.le_owed (mem_of_eventsOf hs ht hevent)

theorem stock_send (l : Lane α) (g : Nat) (msg : Msg α) :
    (l.send g msg).stock = l.stock ++ [⟨g, msg⟩] := by
  simp [Lane.stock, Lane.send]

theorem sound_queue {s : Traffic α} {g : Nat} {msg : Msg α} (hs : s.Sound) (hg : g ∈ s.txs) :
    (s.queue g msg).Sound := by
  refine ⟨hs.txs, ?_, ?_, hs.waiting, ?_, hs.noneLate⟩
  · intro t ht
    rcases List.mem_append.mp ht with ht | ht
    · exact hs.sent t ht
    · rw [List.mem_singleton.mp ht]
      exact hg
  · intro t ht
    change t ∈ (s.lane.send g msg).stock at ht
    rw [stock_send] at ht
    rcases List.mem_append.mp ht with ht | ht
    · exact hs.stock t ht
    · rw [List.mem_singleton.mp ht]
      exact hg
  · intro i
    change (eventsOf i s.delivered ++ eventsOf i (s.lane.send g msg).stock).Sublist
      (eventsOf i (s.sent ++ _))
    rw [stock_send, eventsOf_append, eventsOf_append, ← List.append_assoc]
    exact (hs.inOrder i).append_right _

theorem sound_step {s t : Traffic α} {a : Event α} (hs : s.Sound) (h : s.step a = some t) :
    t.Sound := by
  rcases step_cases hs h with rfl | ⟨g, msg, hg, rfl⟩ | ⟨lane, hstock, hcarry, -, -, htxs, rfl⟩ |
    ⟨limit, r, kept, lost, rest, extra, hran, rfl⟩ | ⟨reply, -, rfl⟩
  · refine ⟨?_, ?_, ?_, hs.waiting, hs.inOrder, hs.noneLate⟩
    · intro g hg
      change g ≤ s.lane.generation + 1 ∧ (true = false → _)
      rcases List.mem_append.mp hg with hg | hg
      · have := (hs.txs g hg).1
        exact ⟨by omega, by simp⟩
      · rw [List.mem_singleton.mp hg]
        exact ⟨Nat.le_refl _, by simp⟩
    · intro t ht
      exact List.mem_append_left _ (hs.sent t ht)
    · intro t ht
      exact List.mem_append_left _ (hs.stock t ht)
  · exact sound_queue hs hg
  · refine ⟨htxs, hs.sent, ?_, ?_, ?_, hs.noneLate⟩
    · intro t ht
      change t ∈ lane.stock at ht
      rw [hstock] at ht
      exact hs.stock t ht
    · intro limit hwaiting
      change 0 < limit ∧ lane.carry = []
      rw [hcarry]
      exact hs.waiting limit hwaiting
    · intro g
      change (eventsOf g s.delivered ++ eventsOf g lane.stock).Sublist _
      rw [hstock]
      exact hs.inOrder g
  · exact sound_answer hs hran
  · exact ⟨hs.txs, hs.sent, hs.stock, by simp, hs.inOrder, hs.noneLate⟩

theorem sound_start : ({} : Traffic α).Sound := by
  refine ⟨by simp, by simp, ?_, by simp, ?_, by simp⟩
  · simp [Lane.stock]
  · intro g
    simp [eventsOf, Lane.stock]

theorem sound_of_run {ok : Traffic α → Event α → Prop} {trace : List (Event α)} {s : Traffic α}
    (h : (machine α).Run ok trace s) : s.Sound := by
  refine h.invariant (I := Traffic.Sound) ?_ ?_
  · rintro s rfl
    exact sound_start
  · intro s a t hs _ hstep
    exact sound_step hs hstep

theorem Traffic.Sound.ordered {s : Traffic α} (hs : s.Sound) : s.Ordered :=
  ⟨fun g => (List.sublist_append_left _ _).trans (hs.inOrder g), hs.noneLate⟩

theorem conserved_iff {s : Traffic α} :
    s.Conserved ↔ weight s.sent = weight s.delivered + weight s.lane.stock + s.lane.stale := by
  rw [Traffic.Conserved, weight_stock]
  omega

theorem conserved_step {s t : Traffic α} {a : Event α} (hs : s.Sound) (hc : s.Conserved)
    (hlight : Light s a) (h : s.step a = some t) : t.Conserved := by
  rw [conserved_iff] at hc ⊢
  rcases step_cases hs h with rfl | ⟨g, msg, -, rfl⟩ | ⟨lane, hstock, -, hstale, -, -, rfl⟩ |
    ⟨limit, r, kept, lost, rest, extra, hran, rfl⟩ | ⟨reply, -, rfl⟩
  · exact hc
  · change weight (s.sent ++ _) = _ + weight (s.lane.send g msg).stock + s.lane.stale
    rw [stock_send, weight_append, weight_append]
    change weight s.sent + _ = weight s.delivered + _ + _
    omega
  · change weight s.sent = weight s.delivered + weight lane.stock + lane.stale
    rw [hstock, hstale]
    exact hc
  · change weight s.sent = weight (s.delivered ++ _) + weight r.1.stock + r.1.stale
    have := hran.consumed.conserved (hran.light hlight)
    rw [weight_append]
    omega
  · exact hc

/-- Where every discarded message stands for one event, no weight is lost. -/
theorem conserved_and_ordered {trace : List (Event α)} {s : Traffic α}
    (h : (machine α).Run Light trace s) : s.Conserved ∧ s.Ordered := by
  refine ⟨?_, (sound_of_run h).ordered⟩
  have hboth : s.Sound ∧ s.Conserved := by
    refine h.invariant (I := fun s => s.Sound ∧ s.Conserved) ?_ ?_
    · rintro s rfl
      exact ⟨sound_start, rfl⟩
    · rintro s a t ⟨hs, hc⟩ hlight hstep
      exact ⟨sound_step hs hstep, conserved_step hs hc hlight hstep⟩
  exact hboth.2

/-- An event and a forwarded gap of two, an attachment after it, and a consumer that takes one message
at a time. -/
theorem conserved_and_ordered_reattached :
    ∃ s : Traffic Nat, (machine Nat).Run Light
      [.attach, .event 1 (.other 7), .take 1 false, .gap 1 2, .event 1 (.other 8), .take 1 false,
        .attach, .event 2 (.other 9), .take 1 false, .take 1 false] s ∧
      (s.Conserved ∧ s.Ordered) ∧ weight s.delivered = 5 := by
  have hexec : ∃ s, (machine Nat).exec Light {}
      [.attach, .event 1 (.other 7), .take 1 false, .gap 1 2, .event 1 (.other 8), .take 1 false,
        .attach, .event 2 (.other 9), .take 1 false, .take 1 false] = some s ∧
      weight s.delivered = 5 := ⟨_, rfl, rfl⟩
  obtain ⟨s, hexec, hweight⟩ := hexec
  have hrun := Machine.run_of_exec (M := machine Nat) rfl hexec
  exact ⟨s, hrun, conserved_and_ordered hrun, hweight⟩

/-- A queued gap of five is one discarded message for the next attachment. -/
theorem not_conserved_gap :
    ∃ s : Traffic Nat, (machine Nat).Run Machine.Free [.attach, .gap 1 5, .attach, .take 8 false] s ∧
      ¬ (s.Conserved ∧ s.Ordered) := by
  refine ⟨_, Machine.run_of_exec rfl rfl, ?_⟩
  rintro ⟨hc, -⟩
  exact absurd hc (by unfold Traffic.Conserved; decide)

/-- All events of the attachment that is owed are handed out or in stock. -/
def Traffic.Owing (s : Traffic α) : Prop :=
  eventsOf s.lane.owed s.sent =
    eventsOf s.lane.owed s.delivered ++ eventsOf s.lane.owed s.lane.stock

theorem eventsOf_eq_nil_of_notMem {s : Traffic α} {g : Nat} (hs : s.Sound) (hg : g ∉ s.txs) :
    eventsOf g s.sent = [] ∧ eventsOf g s.delivered ++ eventsOf g s.lane.stock = [] := by
  have hsent : eventsOf g s.sent = [] := by
    refine eventsOf_eq_nil ?_
    rintro t ht rfl
    exact absurd (hs.sent t ht) hg
  refine ⟨hsent, ?_⟩
  have := hs.inOrder g
  rw [hsent] at this
  exact List.sublist_nil.mp this

theorem owing_of_notMem {s : Traffic α} (hs : s.Sound) (hg : s.lane.owed ∉ s.txs) : s.Owing := by
  obtain ⟨hsent, hothers⟩ := eventsOf_eq_nil_of_notMem hs hg
  rw [Traffic.Owing, hsent, hothers]

theorem owing_step {s t : Traffic α} {a : Event α} (hs : s.Sound) (ho : s.Owing)
    (ha : NotDetached s a) (h : s.step a = some t) : t.Owing := by
  have ht := sound_step hs h
  rcases step_cases hs h with rfl | ⟨g, msg, -, rfl⟩ | ⟨lane, hstock, -, -, howed, -, rfl⟩ |
    ⟨limit, r, kept, lost, rest, extra, hran, rfl⟩ | ⟨reply, -, rfl⟩
  · -- nothing was sent yet by the attachment that is made
    have hnew : s.lane.generation + 1 ∉ s.txs := by
      intro hmem
      have := (hs.txs _ hmem).1
      omega
    obtain ⟨hsent, hothers⟩ := eventsOf_eq_nil_of_notMem hs hnew
    change eventsOf (s.lane.generation + 1) s.sent =
      eventsOf (s.lane.generation + 1) s.delivered ++ eventsOf (s.lane.generation + 1) s.lane.stock
    rw [hsent, hothers]
  · change eventsOf s.lane.owed (s.sent ++ _) =
      eventsOf s.lane.owed s.delivered ++ eventsOf s.lane.owed (s.lane.send g msg).stock
    rw [stock_send, eventsOf_append, eventsOf_append, ← List.append_assoc]
    exact congrArg (· ++ _) ho
  · by_cases htxs : s.txs = []
    · refine owing_of_notMem ht ?_
      change lane.owed ∉ s.txs
      simp [htxs]
    · change eventsOf lane.owed s.sent =
        eventsOf lane.owed s.delivered ++ eventsOf lane.owed lane.stock
      rw [hstock, howed htxs]
      exact ho
  · have hc := hran.consumed
    have howed : r.1.owed = s.lane.owed := by
      unfold Lane.owed
      rw [hc.generation, hc.up]
    change eventsOf r.1.owed s.sent =
      eventsOf r.1.owed (s.delivered ++ _) ++ eventsOf r.1.owed r.1.stock
    rw [howed, eventsOf_append, List.append_assoc, hc.settled (hran.notDetached ha)]
    exact ho
  · exact ho

/-- A step that answers without messages has left nothing of the owed attachment. -/
theorem settled_step {s t : Traffic α} {a : Event α} (hs : s.Sound) (ho : s.Owing)
    (ha : NotDetached s a) (h : s.step a = some t) : t.Settled := by
  have ht := owing_step hs ho ha h
  rcases step_cases hs h with rfl | ⟨g, msg, -, rfl⟩ | ⟨lane, -, -, -, -, -, rfl⟩ |
    ⟨limit, r, kept, lost, rest, extra, hran, rfl⟩ | ⟨reply, hreply, rfl⟩
  · exact ⟨by simp, by simp, by simp⟩
  · exact ⟨by simp [Traffic.queue], by simp [Traffic.queue], by simp [Traffic.queue]⟩
  · exact ⟨by simp [Traffic.setLane], by simp [Traffic.setLane], by simp [Traffic.setLane]⟩
  · have hc := hran.consumed
    have hall : outOf r.2 = [] → eventsOf r.1.owed (s.answer limit s.lane.owed r).delivered =
        eventsOf r.1.owed s.sent := by
      intro hout
      have hstock : r.1.stock = [] := by
        obtain ⟨hextra, hrest⟩ := hc.ended hout
        rw [hc.after, hextra, hrest]
        rfl
      have ht' : eventsOf r.1.owed s.sent = eventsOf r.1.owed (s.answer limit s.lane.owed r).delivered
          ++ eventsOf r.1.owed r.1.stock := ht
      rw [ht', hstock]
      simp [eventsOf]
    have hended : (r.2 = some .closed ∨ ∃ f, r.2 = some (.fail f)) →
        r.1.owed = r.1.generation := by
      intro hr
      refine owed_of_up ?_
      rw [hc.up]
      exact hran.ended hr
    refine ⟨?_, ?_, ?_⟩
    · intro (hr : r.2 = some .down) g (hg : r.1.generation = g + 1)
      have howed : r.1.owed = g := by
        simp [Lane.owed, hc.up, hran.down hr, Lane.before, hg]
      rw [← howed]
      exact hall (by rw [hr]; rfl)
    · intro (hr : r.2 = some .closed)
      change eventsOf r.1.generation _ = eventsOf r.1.generation _
      rw [← hended (.inl hr)]
      exact hall (by rw [hr]; rfl)
    · intro f (hr : r.2 = some (.fail f))
      change eventsOf r.1.generation _ = eventsOf r.1.generation _
      rw [← hended (.inr ⟨f, hr⟩)]
      exact hall (by rw [hr]; rfl)
  · rcases hreply with rfl | rfl
    · exact ⟨by simp, by simp, by simp⟩
    · exact ⟨by simp, by simp, by simp⟩

/-- Where no waiting consumer is resumed by an event of an attachment that has just detached, a down
lane, a failure and a close come behind every event of the attachment. -/
theorem settled_of_run {trace : List (Event α)} {s : Traffic α}
    (h : (machine α).Run NotDetached trace s) : s.Settled := by
  have hall : s.Sound ∧ s.Owing ∧ s.Settled := by
    refine h.invariant (I := fun s => s.Sound ∧ s.Owing ∧ s.Settled) ?_ ?_
    · rintro s rfl
      exact ⟨sound_start, rfl, by simp, by simp, by simp⟩
    · rintro s a t ⟨hs, ho, -⟩ ha hstep
      exact ⟨sound_step hs hstep, owing_step hs ho ha hstep, settled_step hs ho ha hstep⟩
  exact hall.2.2

/-- A waiting consumer takes an event, and finds the next one before it reads the lane as down. -/
theorem settled_of_run_detached :
    ∃ s : Traffic Nat, (machine Nat).Run NotDetached
      [.attach, .take 8 false, .event 1 (.other 7), .recv false, .event 1 (.other 8), .detach 1,
        .take 8 false, .take 8 false] s ∧
      s.Settled ∧ s.reply = some .down ∧
      s.delivered = [⟨1, .event 7⟩, ⟨1, .event 8⟩] := by
  have hexec : ∃ s, (machine Nat).exec NotDetached {}
      [.attach, .take 8 false, .event 1 (.other 7), .recv false, .event 1 (.other 8), .detach 1,
        .take 8 false, .take 8 false] = some s ∧
      s.reply = some .down ∧ s.delivered = [⟨1, .event 7⟩, ⟨1, .event 8⟩] := ⟨_, rfl, rfl, rfl⟩
  obtain ⟨s, hexec, hreply, hdelivered⟩ := hexec
  have hrun := Machine.run_of_exec (M := machine Nat) rfl hexec
  exact ⟨s, hrun, settled_of_run hrun, hreply, hdelivered⟩

/-- A detach between the event that wakes a waiting consumer and the consumer's next step turns the
event into a gap. -/
theorem not_settled_waiting :
    ∃ s : Traffic Nat, (machine Nat).Run Machine.Free
      [.attach, .take 8 false, .event 1 (.other 7), .detach 1, .recv false, .take 8 false] s ∧
      ¬ s.Settled := by
  refine ⟨_, Machine.run_of_exec rfl rfl, ?_⟩
  intro h
  exact absurd (h.down rfl 1 rfl) (by decide)

end RithmicNt.Host.Streams
