import Mathlib.Data.List.Nodup
import RithmicNt.Host.AttachmentReads

/-! An attachment that a transport drains: the four streams merged by number, with the flush barriers
between them.  Over every run the numbers increase and a barrier comes after all that was pushed
before it, as long as every gap stands where its first loss was. -/

namespace RithmicNt.Host.Attachment

open RithmicNt.Lib

variable {δ β : Type}

/-- A number that the delivery has given out. -/
inductive Mark
  | record (sequence : Nat) (stream : Stream)
  | flush (sequence : Nat)
  deriving DecidableEq, Repr

def Mark.number : Mark → Nat
  | .record sequence _ | .flush sequence => sequence

/-- What `try_recv` has returned; a gap covers the losses of its stream since the gap before it. -/
inductive Sent (δ β : Type)
  | record (sequence : Nat) (stream : Stream) (fan : Fan δ β)
  | gap (sequence : Nat) (stream : Stream) (covers : List Nat) (skipped : Nat)
  | barrier (sequence : Nat)
  deriving DecidableEq, Repr

namespace Sent

def number : Sent δ β → Nat
  | .record sequence .. | .gap sequence .. | .barrier sequence => sequence

def Covers (x : Sent δ β) (n : Nat) : Prop :=
  match x with
  | .record sequence .. => n = sequence
  | .gap _ _ covers _ => n ∈ covers
  | .barrier _ => False

end Sent

inductive WireOp (δ β : Type)
  | batch (events : List (Event δ))
  | shared (stream : Stream) (fan : Fan δ β)
  | flush
  | tryRecv
  | close

/-- A delivery with the numbers it has given out, what was received from it, and the numbers that
each stream has lost since its last gap. -/
structure Merged (δ β : Type) where
  delivery : Delivery δ β
  history : List Mark := []
  log : List (Sent δ β) := []
  lost : Stream → List Nat := fun _ => []

namespace Merged

def push (w : Merged δ β) (stream : Stream) (record : Record δ β) : Merged δ β :=
  if w.delivery.closed then { w with delivery := w.delivery.push stream record }
  else
    { w with
      delivery := w.delivery.push stream record
      history := w.history ++
        (numbered (w.delivery.sequence + 1) record.taken).map fun x => .record x.1 stream
      lost := Function.update w.lost stream
        (w.lost stream ++ (w.delivery.evicted stream record).map Prod.fst) }

def flush (w : Merged δ β) : Merged δ β :=
  if w.delivery.transport && !w.delivery.closed then
    { w with
      delivery := w.delivery.flush
      history := w.history ++ [.flush (w.delivery.sequence + 1)] }
  else { w with delivery := w.delivery.flush }

/-- Nothing is received where nothing is queued. -/
def tryRecv (w : Merged δ β) : Merged δ β :=
  match w.delivery.next, w.delivery.tryRecv with
  | some (.barrier sequence), some (.flush, delivery) =>
    { w with delivery, log := w.log ++ [.barrier sequence] }
  | some (.head sequence stream), some (.fan fan, delivery) =>
    if 0 < (w.delivery.queues stream).skipped then
      { w with
        delivery
        log := w.log ++
          [.gap sequence stream (w.lost stream) (w.delivery.queues stream).skipped]
        lost := Function.update w.lost stream [] }
    else { w with delivery, log := w.log ++ [.record sequence stream fan] }
  | _, _ => w

def step (w : Merged δ β) : WireOp δ β → Option (Merged δ β)
  | .batch [] => none
  | .batch (first :: rest) => some (w.push first.stream (.batch first rest))
  | .shared stream fan => some (w.push stream (.shared fan))
  | .flush => some w.flush
  | .tryRecv => some w.tryRecv
  | .close => some { w with delivery := w.delivery.close }

end Merged

/-- A transport delivery of any capacity, and any calls on it. -/
def drains : Machine (Merged δ β) (WireOp δ β) where
  Start w := ∃ capacity, w = { delivery := .newTransport capacity }
  step := Merged.step

/-- The first record that a push loses on a stream without a pending gap counts, and the count stays
within a `u64`. -/
def Delivery.Anchors (d : Delivery δ β) (stream : Stream) (record : Record δ β) : Prop :=
  (d.queues stream).skipped + lostWeight (d.evicted stream record) < 2 ^ 64 ∧
    ∀ x ∈ (d.evicted stream record).head?, (d.queues stream).skipped = 0 → 0 < x.2.weight

instance (d : Delivery δ β) (stream : Stream) (record : Record δ β) :
    Decidable (d.Anchors stream record) :=
  inferInstanceAs (Decidable (_ ∧ ∀ x ∈ (d.evicted stream record).head?, _))

/-- Every push puts the gap for what it evicts where the first loss was. -/
def Anchored (w : Merged δ β) : WireOp δ β → Prop
  | .batch (first :: rest) => w.delivery.Anchors first.stream (.batch first rest)
  | .shared stream fan => w.delivery.Anchors stream (.shared fan)
  | _ => True

instance (w : Merged δ β) : DecidablePred (Anchored w)
  | .batch [] | .flush | .tryRecv | .close => inferInstanceAs (Decidable True)
  | .batch (_ :: _) | .shared .. => inferInstanceAs (Decidable (Delivery.Anchors ..))

/-- Numbers increase, a gap has the number of its first loss, and a barrier comes after everything
pushed before its flush and before everything pushed after it. -/
structure Merged.Ordered (w : Merged δ β) : Prop where
  increasing : (w.log.map Sent.number).Pairwise (· < ·)
  gaps : ∀ n s covers skipped, .gap n s covers skipped ∈ w.log → covers.head? = some n
  barriers : ∀ before b after, w.log = before ++ .barrier b :: after →
    ∃ earlier later, w.history = earlier ++ .flush b :: later ∧
      (∀ n s, .record n s ∈ earlier → ∃ x ∈ before, x.Covers n) ∧
      ∀ n s fan, .record n s ∈ later → .record n s fan ∉ before

/-! ### The merge -/

theorem least_eq_none {l : List (Nat × Stream)} : least l = none ↔ l = [] := by
  cases l with
  | nil => simp [least]
  | cons x l =>
    simp only [least]
    split
    · simp
    · split <;> simp

theorem least_eq_some {l : List (Nat × Stream)} {x : Nat × Stream} (h : least l = some x) :
    x ∈ l ∧ ∀ y ∈ l, x.1 ≤ y.1 := by
  induction l generalizing x with
  | nil => cases h
  | cons z l ih =>
    simp only [least] at h
    split at h
    · next hnone =>
      cases h
      simp [least_eq_none.mp hnone]
    · next y hy =>
      obtain ⟨hmem, hle⟩ := ih hy
      split at h
      · next hlt =>
        cases h
        refine ⟨List.mem_cons_of_mem z hmem, ?_⟩
        intro w hw
        obtain rfl | hw := List.mem_cons.mp hw
        · omega
        · exact hle w hw
      · next hge =>
        cases h
        refine ⟨List.mem_cons_self, ?_⟩
        intro w hw
        obtain rfl | hw := List.mem_cons.mp hw
        · omega
        · have := hle w hw
          omega

namespace Delivery

variable {d : Delivery δ β}

theorem mem_heads {n : Nat} {s : Stream} : (n, s) ∈ d.heads ↔ (d.queues s).head = some n := by
  unfold heads
  rw [List.mem_filterMap]
  constructor
  · rintro ⟨stream, -, h⟩
    obtain ⟨m, hm, hpair⟩ := Option.map_eq_some_iff.mp h
    cases hpair
    exact hm
  · intro h
    refine ⟨s, ?_, by simp [h]⟩
    cases s <;> simp [allStreams]

theorem next_barrier {b : Nat} (h : d.next = some (.barrier b)) :
    d.barriers.head? = some b ∧ ∀ s n, (d.queues s).head = some n → b < n := by
  unfold next at h
  split at h
  · cases h
  · cases h
  · next barrier rest hb hl =>
    cases h
    refine ⟨by simp [hb], fun s n hn => ?_⟩
    have := mem_heads.mpr hn
    simp [least_eq_none.mp hl] at this
  · next barrier rest sequence stream hb hl =>
    split at h
    · next hlt =>
      cases h
      refine ⟨by simp [hb], fun s n hn => ?_⟩
      have := (least_eq_some hl).2 (n, s) (mem_heads.mpr hn)
      simp only at this
      omega
    · cases h

theorem next_head {n : Nat} {s : Stream} (h : d.next = some (.head n s)) :
    (d.queues s).head = some n ∧ (∀ s' n', (d.queues s').head = some n' → n ≤ n') ∧
      ∀ b, d.barriers.head? = some b → n ≤ b := by
  have hleast : ∀ {sequence stream}, least d.heads = some (sequence, stream) →
      (d.queues stream).head = some sequence ∧
        ∀ s' n', (d.queues s').head = some n' → sequence ≤ n' := by
    intro sequence stream hl
    obtain ⟨hmem, hle⟩ := least_eq_some hl
    exact ⟨mem_heads.mp hmem, fun s' n' hn => hle (n', s') (mem_heads.mpr hn)⟩
  unfold next at h
  split at h
  · cases h
  · next sequence stream hb hl =>
    cases h
    exact ⟨(hleast hl).1, (hleast hl).2, by simp [hb]⟩
  · cases h
  · next barrier rest sequence stream hb hl =>
    split at h
    · cases h
    · next hge =>
      cases h
      refine ⟨(hleast hl).1, (hleast hl).2, fun b hb' => ?_⟩
      simp only [hb, List.head?_cons, Option.some.injEq] at hb'
      omega

end Delivery

/-! ### What a push and a pop do to the numbers of a queue -/

/-- The numbers of the events that wait in a queue. -/
def Queue.numbers (q : Queue δ β) : List Nat := q.items.map Prod.fst

theorem map_fst_numbered (n : Nat) (ts : List (Taken δ β)) :
    (numbered n ts).map Prod.fst = List.range' n ts.length := by
  induction ts generalizing n with
  | nil => rfl
  | cons t ts ih => simp [numbered, ih, List.range'_succ]

/-- The number of a gap is that of its first loss, as long as this one counts. -/
theorem gapSequence_foldl (lost : List (Nat × Taken δ β)) (l : Loss)
    (hfits : l.skipped + lostWeight lost < 2 ^ 64)
    (hfirst : ∀ x ∈ lost.head?, l.skipped = 0 → 0 < x.2.weight) :
    (lost.foldl Loss.add l).gapSequence =
      if l.skipped = 0 then (lost.head?.map Prod.fst).getD l.gapSequence else l.gapSequence := by
  induction lost generalizing l with
  | nil => simp
  | cons x lost ih =>
    have hw : lostWeight (x :: lost) = x.2.weight + lostWeight lost := by simp [lostWeight]
    have hadd : (l.add x).skipped = l.skipped + x.2.weight := Nat.mod_eq_of_lt (by omega)
    have hpos : 0 < (l.add x).skipped := by
      by_cases hzero : l.skipped = 0
      · have := hfirst x (by simp) hzero
        omega
      · omega
    rw [List.foldl_cons, ih _ (by omega) (by omega), if_neg (by omega)]
    simp [Loss.add]

namespace Queue

variable {q q' : Queue δ β} {stream : Stream}

theorem head_of_skipped (h : 0 < q.skipped) : q.head = some q.gapSequence := if_pos h

theorem head_of_zero (h : q.skipped = 0) : q.head = q.numbers.head? := by
  unfold head numbers items
  rw [if_neg (by omega)]
  cases q.records with
  | nil => rfl
  | cons r records =>
    cases hr : r.2 with
    | batch first rest => simp [hr, Record.taken, numbered]
    | shared fan => simp [hr, Record.taken, numbered]

/-- A push only moves the front of the queue into the losses. -/
theorem numbers_push (q : Queue δ β) (capacity sequence : Nat) (record : Record δ β) :
    q.numbers ++ List.range' sequence record.len =
      (q.backlog.dropped capacity (numbered sequence record.taken)).map Prod.fst ++
        (q.push capacity sequence record).numbers := by
  have hnew : List.range' sequence record.len = (numbered sequence record.taken).map Prod.fst := by
    rw [map_fst_numbered, Record.length_taken]
  unfold numbers
  rw [hnew, ← List.map_append, items_push, List.map_append]

theorem gapSequence_push {capacity sequence : Nat} {record : Record δ β}
    (hfits : q.skipped + lostWeight (q.backlog.dropped capacity (numbered sequence record.taken)) <
      2 ^ 64)
    (hfirst : ∀ x ∈ (q.backlog.dropped capacity (numbered sequence record.taken)).head?,
      q.skipped = 0 → 0 < x.2.weight) :
    (q.push capacity sequence record).gapSequence =
      if q.skipped = 0 then
        (((q.backlog.dropped capacity (numbered sequence record.taken)).head?.map
          Prod.fst).getD q.gapSequence)
      else q.gapSequence := by
  have hview : (q.push capacity sequence record).gapSequence =
      (q.backlog.push Loss.add capacity (numbered sequence record.taken)).loss.gapSequence :=
    congrArg (fun b => b.loss.gapSequence) (q.backlog_push capacity sequence record)
  rw [hview, Backlog.loss_push]
  exact gapSequence_foldl _ _ hfits hfirst

theorem pop_of_skipped (h : 0 < q.skipped) :
    q.pop stream = some (.owned (.gap stream q.skipped), { q with skipped := 0 }) := if_pos h

theorem pop_of_zero {t : Taken δ β} (h : q.skipped = 0) (hpop : q.pop stream = some (t, q')) :
    q'.skipped = 0 ∧ ∃ n, q.numbers = n :: q'.numbers := by
  unfold pop at hpop
  rw [if_neg (by omega)] at hpop
  obtain ⟨⟨x, rest⟩, hr, hrest⟩ := Option.map_eq_some_iff.mp hpop
  cases hrest
  obtain ⟨hitems, hskipped, -⟩ := popRecord_eq_some hr
  exact ⟨by simp [hskipped, h], x.1, by simp [numbers, hitems]⟩

end Queue

/-! ### The numbers of a stream -/

/-- The losses of a queue and what its gap says of them: a gap is pending where something was lost,
and its number is that of the first loss. -/
structure Queue.Tracks (q : Queue δ β) (lost : List Nat) : Prop where
  pending : 0 < q.skipped ↔ lost ≠ []
  anchor : ∀ n ∈ lost.head?, q.gapSequence = n

namespace Queue.Tracks

variable {q q' : Queue δ β} {stream : Stream} {lost : List Nat}

theorem nil (h : q.skipped = 0) : q.Tracks [] := ⟨by simp [h], by simp⟩

/-- The head of a queue is the first number that its stream still owes. -/
theorem head_eq (h : q.Tracks lost) : q.head = (lost ++ q.numbers).head? := by
  by_cases hpos : 0 < q.skipped
  · obtain ⟨n, rest, rfl⟩ := List.exists_cons_of_ne_nil (h.pending.mp hpos)
    rw [head_of_skipped hpos, h.anchor n (by simp)]
    rfl
  · have hnil : lost = [] := by
      by_contra hne
      exact hpos (h.pending.mpr hne)
    rw [head_of_zero (by omega), hnil]
    rfl

theorem push {capacity sequence : Nat} {record : Record δ β} (h : q.Tracks lost)
    (hfits : q.skipped + lostWeight (q.backlog.dropped capacity (numbered sequence record.taken)) <
      2 ^ 64)
    (hfirst : ∀ x ∈ (q.backlog.dropped capacity (numbered sequence record.taken)).head?,
      q.skipped = 0 → 0 < x.2.weight) :
    (q.push capacity sequence record).Tracks
      (lost ++ (q.backlog.dropped capacity (numbered sequence record.taken)).map Prod.fst) := by
  have hskipped := skipped_push hfits
  have hgap := gapSequence_push hfits hfirst
  generalize q.backlog.dropped capacity (numbered sequence record.taken) = gone at *
  by_cases hpos : 0 < q.skipped
  · have hne := h.pending.mp hpos
    refine ⟨⟨fun _ => by simp [hne], fun _ => by omega⟩, fun n hn => ?_⟩
    rw [hgap, if_neg (by omega)]
    rw [List.head?_append_of_ne_nil _ hne] at hn
    exact h.anchor n hn
  · have hzero : q.skipped = 0 := by omega
    have hnil : lost = [] := by
      by_contra hne
      exact hpos (h.pending.mpr hne)
    subst hnil
    rw [hzero, Nat.zero_add] at hskipped
    rw [if_pos hzero] at hgap
    cases gone with
    | nil => exact .nil hskipped
    | cons x gone =>
      have hx := hfirst x (by simp) hzero
      have hw : lostWeight (x :: gone) = x.2.weight + lostWeight gone := by simp [lostWeight]
      refine ⟨⟨fun _ => by simp, fun _ => by omega⟩, fun n hn => ?_⟩
      rw [hgap]
      simpa using hn

end Queue.Tracks

/-! ### The invariant -/

namespace Merged

variable {w w' : Merged δ β}

/-- The numbers of a stream that no receive has covered. -/
def waiting (w : Merged δ β) (stream : Stream) : List Nat :=
  w.lost stream ++ (w.delivery.queues stream).numbers

structure Inv (w : Merged δ β) : Prop where
  given : w.history.map Mark.number = List.range' 1 w.delivery.sequence
  tracks : ∀ s, (w.delivery.queues s).Tracks (w.lost s)
  sorted : ∀ s, (w.waiting s).Pairwise (· < ·)
  marked : ∀ s n, n ∈ w.waiting s → .record n s ∈ w.history
  flushes : w.delivery.barriers.Pairwise (· < ·)
  flushed : ∀ b ∈ w.delivery.barriers, .flush b ∈ w.history
  sent : ∀ x ∈ w.log, x.number ≤ w.delivery.sequence
  ahead : ∀ x ∈ w.log, ∀ s, ∀ n ∈ w.waiting s, x.number < n
  before : ∀ x ∈ w.log, ∀ b ∈ w.delivery.barriers, x.number < b
  covered : ∀ n s, .record n s ∈ w.history → n ∈ w.waiting s ∨ ∃ x ∈ w.log, x.Covers n
  ordered : w.Ordered

namespace Inv

theorem number_le (h : w.Inv) {m : Mark} (hm : m ∈ w.history) : m.number ≤ w.delivery.sequence := by
  have hmem : m.number ∈ w.history.map Mark.number := List.mem_map_of_mem hm
  rw [h.given, List.mem_range'_1] at hmem
  omega

/-- The sequence is the number of records and flushes so far: below `2 ^ 64` of them, the `u64` of the
source does not wrap. -/
theorem sequence_eq (h : w.Inv) : w.delivery.sequence = w.history.length := by
  have hlength := congrArg List.length h.given
  rw [List.length_map, List.length_range'] at hlength
  exact hlength.symm

theorem waiting_le (h : w.Inv) {s : Stream} {n : Nat} (hn : n ∈ w.waiting s) :
    n ≤ w.delivery.sequence := h.number_le (h.marked s n hn)

/-- The marks before a mark of the history have lower numbers, those after it higher ones. -/
theorem history_split (h : w.Inv) {m : Mark} {earlier later : List Mark}
    (hsplit : w.history = earlier ++ m :: later) :
    (∀ x ∈ earlier, x.number < m.number) ∧ ∀ x ∈ later, m.number < x.number := by
  have hlt : (w.history.map Mark.number).Pairwise (· < ·) := by
    rw [h.given]
    exact List.pairwise_lt_range'
  rw [hsplit, List.map_append, List.map_cons, List.pairwise_append, List.pairwise_cons] at hlt
  obtain ⟨-, ⟨hafter, -⟩, hbefore⟩ := hlt
  constructor
  · intro x hx
    exact hbefore _ (List.mem_map_of_mem hx) _ (by simp)
  · intro x hx
    exact hafter _ (List.mem_map_of_mem hx)

/-- Of the numbers that a stream owes, none is below the head of its queue. -/
theorem head_le (h : w.Inv) {s : Stream} {n : Nat} (hn : n ∈ w.waiting s) :
    ∃ m, (w.delivery.queues s).head = some m ∧ m ≤ n := by
  have hsorted := h.sorted s
  have hhead := (h.tracks s).head_eq
  change _ = (w.waiting s).head? at hhead
  cases hw : w.waiting s with
  | nil => simp [hw] at hn
  | cons m rest =>
    rw [hw] at hn hhead hsorted
    refine ⟨m, hhead, ?_⟩
    obtain rfl | hrest := List.mem_cons.mp hn
    · exact Nat.le_refl _
    · exact Nat.le_of_lt (List.rel_of_pairwise_cons hsorted hrest)

end Inv

/-- What is received next goes to the end of the log. -/
theorem Ordered.send {x : Sent δ β} {delivery : Delivery δ β} {lost : Stream → List Nat}
    (h : w.Ordered) (hlast : ∀ y ∈ w.log, y.number < x.number)
    (hgap : ∀ n s covers skipped, x = .gap n s covers skipped → covers.head? = some n)
    (hbarrier : ∀ b, x = .barrier b → ∃ earlier later, w.history = earlier ++ .flush b :: later ∧
      (∀ n s, .record n s ∈ earlier → ∃ y ∈ w.log, y.Covers n) ∧
      ∀ n s fan, .record n s ∈ later → .record n s fan ∉ w.log) :
    ({ w with delivery, lost, log := w.log ++ [x] } : Merged δ β).Ordered where
  increasing := by
    rw [List.map_append, List.pairwise_append]
    refine ⟨h.increasing, by simp, ?_⟩
    intro n hn m hm
    obtain ⟨y, hy, rfl⟩ := List.mem_map.mp hn
    obtain rfl : m = x.number := by simpa using hm
    exact hlast y hy
  gaps n s covers skipped hmem := by
    obtain hmem | hmem := List.mem_append.mp hmem
    · exact h.gaps n s covers skipped hmem
    · exact hgap n s covers skipped (List.mem_singleton.mp hmem).symm
  barriers before b after hsplit := by
    obtain rfl | ⟨after', last, rfl⟩ := List.eq_nil_or_concat after
    · obtain ⟨rfl, hx⟩ := List.append_inj' hsplit rfl
      exact hbarrier b (List.cons.inj hx).1
    · rw [List.concat_eq_append, ← List.cons_append, ← List.append_assoc] at hsplit
      exact h.barriers before b after' (List.append_inj' hsplit rfl).1

/-- New marks go to the end of the history, above every number sent. -/
theorem Ordered.mark {marks : List Mark} (h : w.Ordered) (hlog : w'.log = w.log)
    (hhistory : w'.history = w.history ++ marks)
    (hnew : ∀ x ∈ w.log, ∀ m ∈ marks, x.number < m.number) : w'.Ordered where
  increasing := hlog ▸ h.increasing
  gaps := hlog ▸ h.gaps
  barriers before b after hsplit := by
    rw [hlog] at hsplit
    rw [hhistory]
    obtain ⟨earlier, later, hhist, hbefore, hafter⟩ := h.barriers before b after hsplit
    refine ⟨earlier, later ++ marks, by simp [hhist], hbefore, ?_⟩
    intro n s fan hmem hin
    obtain hmem | hmem := List.mem_append.mp hmem
    · exact hafter n s fan hmem hin
    · have hsent : (.record n s fan : Sent δ β) ∈ w.log := by
        change w.log = _ at hsplit
        rw [hsplit]
        exact List.mem_append_left _ hin
      exact absurd (hnew _ hsent _ hmem) (Nat.lt_irrefl n)

theorem Inv.start (capacity : Nat) : ({ delivery := .newTransport capacity } : Merged δ β).Inv where
  given := rfl
  tracks _ := .nil rfl
  sorted _ := .nil
  marked _ _ h := by simp [waiting, Delivery.newTransport, Delivery.new, Queue.numbers,
    Queue.items] at h
  flushes := .nil
  flushed _ h := by simp [Delivery.newTransport, Delivery.new] at h
  sent _ h := by simp at h
  ahead _ h := by simp at h
  before _ h := by simp at h
  covered _ _ h := by simp at h
  ordered := {
    increasing := .nil
    gaps _ _ _ _ h := by simp at h
    barriers _ _ _ h := by simp at h }

/-! ### New numbers -/

end Merged

def Mark.recordOn (stream : Stream) : Mark → Option Nat
  | .record sequence s => if s = stream then some sequence else none
  | .flush _ => none

def Mark.flush? : Mark → Option Nat
  | .flush sequence => some sequence
  | .record .. => none

theorem Mark.mem_recordOn {m : Mark} {s : Stream} {n : Nat} :
    n ∈ m.recordOn s ↔ m = .record n s := by
  cases m with
  | record sequence stream => by_cases hs : stream = s <;> simp [recordOn, hs]
  | flush sequence => simp [recordOn]

theorem Mark.mem_flush {m : Mark} {n : Nat} : n ∈ m.flush? ↔ m = .flush n := by
  cases m <;> simp [flush?]

/-- What is picked from marks with increasing numbers increases. -/
theorem pairwise_picked {marks : List Mark} {pick : Mark → Option Nat}
    (hpick : ∀ m, ∀ n ∈ pick m, m.number = n)
    (h : (marks.map Mark.number).Pairwise (· < ·)) :
    (marks.filterMap pick).Pairwise (· < ·) := by
  refine List.Pairwise.filterMap pick ?_ (List.pairwise_map.mp h)
  intro a b hab n hn m hm
  rw [hpick a n hn, hpick b m hm] at hab
  exact hab

namespace Merged

variable {w w' : Merged δ β}

/-- `w'` is `w` after new numbers went to the ends of its streams and of its barriers. -/
structure Gives (w w' : Merged δ β) (marks : List Mark) : Prop where
  log : w'.log = w.log
  history : w'.history = w.history ++ marks
  numbers : marks.map Mark.number = List.range' (w.delivery.sequence + 1) marks.length
  sequence : w'.delivery.sequence = w.delivery.sequence + marks.length
  tracks : ∀ s, (w'.delivery.queues s).Tracks (w'.lost s)
  waiting : ∀ s, w'.waiting s = w.waiting s ++ marks.filterMap (Mark.recordOn s)
  barriers : w'.delivery.barriers = w.delivery.barriers ++ marks.filterMap Mark.flush?

namespace Gives

variable {marks : List Mark}

theorem mem_waiting (g : Gives w w' marks) {s : Stream} {n : Nat} :
    n ∈ w'.waiting s ↔ n ∈ w.waiting s ∨ .record n s ∈ marks := by
  rw [g.waiting, List.mem_append, List.mem_filterMap]
  apply or_congr_right
  constructor
  · rintro ⟨m, hm, hn⟩
    exact Mark.mem_recordOn.mp hn ▸ hm
  · intro hm
    exact ⟨_, hm, Mark.mem_recordOn.mpr rfl⟩

theorem mem_barriers (g : Gives w w' marks) {b : Nat} :
    b ∈ w'.delivery.barriers ↔ b ∈ w.delivery.barriers ∨ .flush b ∈ marks := by
  rw [g.barriers, List.mem_append, List.mem_filterMap]
  apply or_congr_right
  constructor
  · rintro ⟨m, hm, hn⟩
    exact Mark.mem_flush.mp hn ▸ hm
  · intro hm
    exact ⟨_, hm, Mark.mem_flush.mpr rfl⟩

theorem lt_number (g : Gives w w' marks) {m : Mark} (hm : m ∈ marks) :
    w.delivery.sequence < m.number := by
  have hmem : m.number ∈ marks.map Mark.number := List.mem_map_of_mem hm
  rw [g.numbers, List.mem_range'_1] at hmem
  omega

theorem increasing (g : Gives w w' marks) : (marks.map Mark.number).Pairwise (· < ·) := by
  rw [g.numbers]
  exact List.pairwise_lt_range'

/-- New numbers are above everything that was sent and everything that waits. -/
theorem inv (g : Gives w w' marks) (h : w.Inv) : w'.Inv where
  given := by
    rw [g.history, g.sequence, List.map_append, h.given, g.numbers, ← List.range'_append_1,
      Nat.add_comm 1]
  tracks := g.tracks
  sorted s := by
    rw [g.waiting, List.pairwise_append]
    refine ⟨h.sorted s, pairwise_picked ?_ g.increasing, ?_⟩
    · intro m n hn
      rw [Mark.mem_recordOn.mp hn]
      rfl
    · intro n hn k hk
      obtain ⟨m, hm, hk⟩ := List.mem_filterMap.mp hk
      have hlt := g.lt_number hm
      have hle := h.waiting_le hn
      rw [Mark.mem_recordOn.mp hk] at hlt
      exact Nat.lt_of_le_of_lt hle hlt
  marked s n hn := by
    rw [g.history, List.mem_append]
    exact (g.mem_waiting.mp hn).imp_left (h.marked s n)
  flushes := by
    rw [g.barriers, List.pairwise_append]
    refine ⟨h.flushes, pairwise_picked ?_ g.increasing, ?_⟩
    · intro m n hn
      rw [Mark.mem_flush.mp hn]
      rfl
    · intro n hn k hk
      obtain ⟨m, hm, hk⟩ := List.mem_filterMap.mp hk
      have hlt := g.lt_number hm
      have hle := h.number_le (h.flushed n hn)
      rw [Mark.mem_flush.mp hk] at hlt
      exact Nat.lt_of_le_of_lt hle hlt
  flushed b hb := by
    rw [g.history, List.mem_append]
    exact (g.mem_barriers.mp hb).imp_left (h.flushed b)
  sent x hx := by
    rw [g.log] at hx
    rw [g.sequence]
    exact Nat.le_add_right_of_le (h.sent x hx)
  ahead x hx s n hn := by
    rw [g.log] at hx
    obtain hn | hm := g.mem_waiting.mp hn
    · exact h.ahead x hx s n hn
    · exact Nat.lt_of_le_of_lt (h.sent x hx) (g.lt_number hm)
  before x hx b hb := by
    rw [g.log] at hx
    obtain hb | hm := g.mem_barriers.mp hb
    · exact h.before x hx b hb
    · exact Nat.lt_of_le_of_lt (h.sent x hx) (g.lt_number hm)
  covered n s hmem := by
    rw [g.history, List.mem_append] at hmem
    rw [g.log]
    obtain hmem | hmem := hmem
    · exact (h.covered n s hmem).imp_left fun hn => g.mem_waiting.mpr (.inl hn)
    · exact .inl (g.mem_waiting.mpr (.inr hmem))
  ordered := by
    apply h.ordered.mark g.log g.history
    intro x hx m hm
    exact Nat.lt_of_le_of_lt (h.sent x hx) (g.lt_number hm)

end Gives

/-- A record's numbers go to its stream, whatever it evicts there. -/
theorem gives_push {stream : Stream} {record : Record δ β} (h : w.Inv)
    (hopen : w.delivery.closed = false) (hok : w.delivery.Anchors stream record) :
    Gives w (w.push stream record) ((List.range' (w.delivery.sequence + 1) record.len).map
      fun n => .record n stream) := by
  have hevicted : w.delivery.evicted stream record =
      (w.delivery.queues stream).backlog.dropped w.delivery.capacity
        (numbered (w.delivery.sequence + 1) record.taken) := by
    simp [Delivery.evicted, hopen]
  have hqueue : (w.push stream record).delivery.queues = Function.update w.delivery.queues stream
      ((w.delivery.queues stream).push w.delivery.capacity (w.delivery.sequence + 1) record) := by
    simp [Merged.push, Delivery.push, Delivery.setQueue, hopen]
  have hlost : (w.push stream record).lost = Function.update w.lost stream
      (w.lost stream ++ (w.delivery.evicted stream record).map Prod.fst) := by
    simp [Merged.push, hopen]
  unfold Delivery.Anchors at hok
  rw [hevicted] at hok hlost
  refine ⟨by simp [Merged.push, hopen], ?_, ?_, ?_, ?_, ?_, ?_⟩
  · simp only [Merged.push, hopen, Bool.false_eq_true, if_false]
    rw [← record.length_taken, ← map_fst_numbered, List.map_map]
    rfl
  · simp [Function.comp_def, Mark.number]
  · simp [Merged.push, Delivery.push, Delivery.setQueue, hopen]
  · intro s
    rw [hqueue, hlost]
    by_cases hs : s = stream
    · subst hs
      rw [Function.update_self, Function.update_self]
      exact (h.tracks s).push hok.1 hok.2
    · rw [Function.update_of_ne hs, Function.update_of_ne hs]
      exact h.tracks s
  · intro s
    unfold Merged.waiting
    rw [hqueue, hlost, List.filterMap_map]
    by_cases hs : s = stream
    · subst hs
      have hnumbers :=
        (w.delivery.queues s).numbers_push w.delivery.capacity (w.delivery.sequence + 1) record
      rw [Function.update_self, Function.update_self, List.append_assoc, ← hnumbers]
      simp [Function.comp_def, Mark.recordOn]
    · rw [Function.update_of_ne hs, Function.update_of_ne hs]
      simp [Function.comp_def, Mark.recordOn, Ne.symm hs]
  · simp [Merged.push, Delivery.push, Delivery.setQueue, hopen, List.filterMap_map,
      Function.comp_def, Mark.flush?]

theorem gives_flush (h : w.Inv) (hopen : w.delivery.transport ∧ w.delivery.closed = false) :
    Gives w w.flush [.flush (w.delivery.sequence + 1)] := by
  have hflush : w.flush = { w with
      delivery := { w.delivery with
        sequence := w.delivery.sequence + 1
        barriers := w.delivery.barriers ++ [w.delivery.sequence + 1] }
      history := w.history ++ [.flush (w.delivery.sequence + 1)] } := by
    simp [Merged.flush, Delivery.flush, hopen]
  rw [hflush]
  refine ⟨rfl, rfl, rfl, rfl, h.tracks, ?_, by simp [Mark.flush?]⟩
  intro s
  simp [Merged.waiting, Mark.recordOn]

/-! ### The steps -/

namespace Inv

theorem push {stream : Stream} {record : Record δ β} (h : w.Inv)
    (hok : w.delivery.Anchors stream record) : (w.push stream record).Inv := by
  cases hclosed : w.delivery.closed with
  | true =>
    have hsame : w.push stream record = w := by
      simp [Merged.push, Delivery.push, hclosed]
    rw [hsame]
    exact h
  | false => exact (gives_push h hclosed hok).inv h

/-- A flush that gives no number changes no queue. -/
theorem flush (h : w.Inv) : w.flush.Inv := by
  by_cases hopen : w.delivery.transport ∧ w.delivery.closed = false
  · exact (gives_flush h hopen).inv h
  · have hflush : w.flush = { w with delivery := w.delivery.flush } := by
      unfold Merged.flush
      rw [if_neg (by simpa using hopen)]
    rw [hflush]
    unfold Delivery.flush
    split
    · exact { h with ordered := ⟨h.ordered.increasing, h.ordered.gaps, h.ordered.barriers⟩ }
    · next htransport =>
      have hclosed : w.delivery.closed = true := by
        by_contra hc
        exact hopen ⟨by simpa using htransport, by simpa using hc⟩
      rw [if_pos hclosed]
      exact h

theorem mark_inj (h : w.Inv) {m m' : Mark} (hm : m ∈ w.history) (hm' : m' ∈ w.history)
    (heq : m.number = m'.number) : m = m' := by
  have hnodup : (w.history.map Mark.number).Nodup := by
    rw [h.given]
    exact List.nodup_range'
  exact List.inj_on_of_nodup_map hnodup hm hm' heq

/-- The head that the merge takes is below everything else that waits. -/
theorem head_lt (h : w.Inv) {n : Nat} {s : Stream} (hnext : w.delivery.next = some (.head n s)) :
    (∃ rest, w.waiting s = n :: rest) ∧ (∀ s', ∀ m ∈ w.waiting s', n ≠ m → n < m) ∧
      ∀ b ∈ w.delivery.barriers, n < b := by
  obtain ⟨hhead, hleast, hbarrier⟩ := Delivery.next_head hnext
  have hwaiting : ∃ rest, w.waiting s = n :: rest := by
    have hfirst := (h.tracks s).head_eq
    rw [hhead] at hfirst
    exact List.head?_eq_some_iff.mp hfirst.symm
  refine ⟨hwaiting, ?_, ?_⟩
  · intro s' m hm hne
    obtain ⟨k, hk, hkm⟩ := h.head_le hm
    have := hleast s' k hk
    omega
  · intro b hb
    have hle : n ≤ b := by
      have hsorted := h.flushes
      cases hbs : w.delivery.barriers with
      | nil => simp [hbs] at hb
      | cons b' rest =>
        rw [hbs] at hb hsorted
        have hfirst := hbarrier b' (by simp [hbs])
        obtain rfl | hrest := List.mem_cons.mp hb
        · exact hfirst
        · have := List.rel_of_pairwise_cons hsorted hrest
          omega
    have hne : n ≠ b := by
      rintro rfl
      obtain ⟨rest, hrest⟩ := hwaiting
      have hmark := h.marked s n (by simp [hrest])
      cases h.mark_inj hmark (h.flushed n hb) rfl
    omega

end Inv

/-- `w'` is `w` after `x` was received: what `x` covers no longer waits, and what still waits is
above it. -/
structure Takes (w w' : Merged δ β) (x : Sent δ β) : Prop where
  log : w'.log = w.log ++ [x]
  history : w'.history = w.history
  sequence : w'.delivery.sequence = w.delivery.sequence
  tracks : ∀ s, (w'.delivery.queues s).Tracks (w'.lost s)
  waiting : ∀ s, ∃ gone, w.waiting s = gone ++ w'.waiting s ∧ ∀ n ∈ gone, x.Covers n
  barriers : ∃ gone, w.delivery.barriers = gone ++ w'.delivery.barriers
  least : ∀ s, ∀ n ∈ w'.waiting s, x.number < n
  first : ∀ b ∈ w'.delivery.barriers, x.number < b
  known : x.number ≤ w.delivery.sequence
  last : ∀ y ∈ w.log, y.number < x.number

theorem Takes.inv {x : Sent δ β} (t : Takes w w' x) (h : w.Inv) (hordered : w'.Ordered) :
    w'.Inv where
  given := by rw [t.history, t.sequence, h.given]
  tracks := t.tracks
  sorted s := by
    obtain ⟨gone, hgone, -⟩ := t.waiting s
    have hsorted := h.sorted s
    rw [hgone] at hsorted
    exact (List.pairwise_append.mp hsorted).2.1
  marked s n hn := by
    obtain ⟨gone, hgone, -⟩ := t.waiting s
    rw [t.history]
    apply h.marked s n
    rw [hgone]
    exact List.mem_append_right _ hn
  flushes := by
    obtain ⟨gone, hgone⟩ := t.barriers
    have hsorted := h.flushes
    rw [hgone] at hsorted
    exact (List.pairwise_append.mp hsorted).2.1
  flushed b hb := by
    obtain ⟨gone, hgone⟩ := t.barriers
    rw [t.history]
    apply h.flushed b
    rw [hgone]
    exact List.mem_append_right _ hb
  sent y hy := by
    rw [t.log, List.mem_append, List.mem_singleton] at hy
    rw [t.sequence]
    obtain hy | rfl := hy
    · exact h.sent y hy
    · exact t.known
  ahead y hy s n hn := by
    rw [t.log, List.mem_append, List.mem_singleton] at hy
    have hlt := t.least s n hn
    obtain hy | rfl := hy
    · exact Nat.lt_trans (t.last y hy) hlt
    · exact hlt
  before y hy b hb := by
    rw [t.log, List.mem_append, List.mem_singleton] at hy
    have hlt := t.first b hb
    obtain hy | rfl := hy
    · exact Nat.lt_trans (t.last y hy) hlt
    · exact hlt
  covered n s hmem := by
    rw [t.history] at hmem
    rw [t.log]
    obtain ⟨gone, hgone, hcovers⟩ := t.waiting s
    obtain hn | ⟨y, hy, hc⟩ := h.covered n s hmem
    · rw [hgone, List.mem_append] at hn
      obtain hn | hn := hn
      · exact .inr ⟨x, by simp, hcovers n hn⟩
      · exact .inl hn
    · exact .inr ⟨y, List.mem_append_left _ hy, hc⟩
  ordered := hordered

namespace Inv

/-- A barrier is taken once everything that waits has a higher number. -/
theorem takeBarrier (h : w.Inv) {b : Nat} (hnext : w.delivery.next = some (.barrier b)) :
    ({ w with
      delivery := { w.delivery with barriers := w.delivery.barriers.tail }
      log := w.log ++ [.barrier b] } : Merged δ β).Inv := by
  obtain ⟨hfirst, hleast⟩ := Delivery.next_barrier hnext
  obtain ⟨rest, hbarriers⟩ := List.head?_eq_some_iff.mp hfirst
  have hmem : b ∈ w.delivery.barriers := by simp [hbarriers]
  have hmark := h.flushed b hmem
  have hwaiting : ∀ s, ∀ n ∈ w.waiting s, b < n := by
    intro s n hn
    obtain ⟨m, hm, hmn⟩ := h.head_le hn
    exact Nat.lt_of_lt_of_le (hleast s m hm) hmn
  have hsorted := h.flushes
  rw [hbarriers] at hsorted
  have htakes : Takes w { w with
      delivery := { w.delivery with barriers := w.delivery.barriers.tail }
      log := w.log ++ [.barrier b] } (.barrier b) := by
    refine ⟨rfl, rfl, rfl, h.tracks, fun s => ⟨[], rfl, by simp⟩, ⟨[b], by simp [hbarriers]⟩,
      hwaiting, ?_, h.number_le hmark, fun y hy => h.before y hy b hmem⟩
    intro b' hb'
    simp only [hbarriers, List.tail_cons] at hb'
    exact List.rel_of_pairwise_cons hsorted hb'
  refine htakes.inv h (h.ordered.send htakes.last (by simp) ?_)
  rintro b' hb'
  cases hb'
  obtain ⟨earlier, later, hsplit⟩ := List.append_of_mem hmark
  obtain ⟨hbefore, hafter⟩ := h.history_split hsplit
  refine ⟨earlier, later, hsplit, ?_, ?_⟩
  · -- a record before the flush that still waits would have been taken first
    intro n s hn
    obtain hw | hx := h.covered n s (by simp [hsplit, hn])
    · have := hwaiting s n hw
      have := hbefore _ hn
      simp only [Mark.number] at this
      omega
    · exact hx
  · intro n s fan hn hin
    have := h.before _ hin b hmem
    have := hafter _ hn
    simp only [Mark.number, Sent.number] at *
    omega

/-- What is taken from the head of a stream is the front of what the stream owes. -/
theorem takes_head (h : w.Inv) {n : Nat} {s : Stream} {x : Sent δ β} {q : Queue δ β}
    {lost gone : List Nat} (hnext : w.delivery.next = some (.head n s)) (hx : x.number = n)
    (hgone : w.waiting s = gone ++ (lost ++ q.numbers)) (hne : gone ≠ [])
    (hcovers : ∀ k ∈ gone, x.Covers k) (htracks : q.Tracks lost) :
    Takes w { w with
      delivery := w.delivery.setQueue s q
      log := w.log ++ [x]
      lost := Function.update w.lost s lost } x := by
  obtain ⟨⟨rest, hrest⟩, hleast, hbarriers⟩ := h.head_lt hnext
  have hn : n ∈ w.waiting s := by simp [hrest]
  obtain ⟨m, tail, rfl⟩ := List.exists_cons_of_ne_nil hne
  have hm : m = n := by
    rw [hgone, List.cons_append] at hrest
    exact (List.cons.inj hrest).1
  subst hm hx
  have hself : ∀ k ∈ lost ++ q.numbers, x.number < k := by
    intro k hk
    have hsorted := h.sorted s
    rw [hgone] at hsorted
    exact (List.pairwise_append.mp hsorted).2.2 _ (by simp) k hk
  refine ⟨rfl, rfl, rfl, ?_, ?_, ⟨[], rfl⟩, ?_, hbarriers, h.waiting_le hn,
    fun y hy => h.ahead y hy s _ hn⟩
  · intro s'
    by_cases hs : s' = s
    · subst hs
      simp only [Delivery.setQueue, Function.update_self]
      exact htracks
    · simp only [Delivery.setQueue, Function.update_of_ne hs]
      exact h.tracks s'
  · intro s'
    by_cases hs : s' = s
    · subst hs
      refine ⟨_, hgone.trans ?_, hcovers⟩
      simp only [Merged.waiting, Delivery.setQueue, Function.update_self]
    · refine ⟨[], ?_, by simp⟩
      simp [Merged.waiting, Delivery.setQueue, Function.update_of_ne hs]
  · intro s' k hk
    by_cases hs : s' = s
    · subst hs
      simp only [Merged.waiting, Delivery.setQueue, Function.update_self] at hk
      exact hself k hk
    · -- no number is given to two streams
      simp only [Merged.waiting, Delivery.setQueue, Function.update_of_ne hs] at hk
      apply hleast s' k hk
      rintro rfl
      have hmark := h.mark_inj (h.marked s _ hn) (h.marked s' _ hk) rfl
      exact hs (Mark.record.inj hmark).2.symm

/-- A gap is taken at the number of its first loss and covers all of them. -/
theorem takeGap (h : w.Inv) {n : Nat} {s : Stream}
    (hnext : w.delivery.next = some (.head n s)) (hpos : 0 < (w.delivery.queues s).skipped) :
    ({ w with
      delivery := w.delivery.setQueue s { w.delivery.queues s with skipped := 0 }
      log := w.log ++ [.gap n s (w.lost s) (w.delivery.queues s).skipped]
      lost := Function.update w.lost s [] } : Merged δ β).Inv := by
  have hlost : w.lost s ≠ [] := (h.tracks s).pending.mp hpos
  have htakes := h.takes_head (x := .gap n s (w.lost s) (w.delivery.queues s).skipped)
    (q := { w.delivery.queues s with skipped := 0 }) hnext rfl rfl hlost (fun k hk => hk) (.nil rfl)
  refine htakes.inv h (h.ordered.send htakes.last ?_ (by simp))
  rintro n' s' covers skipped heq
  cases heq
  obtain ⟨⟨rest, hrest⟩, -, -⟩ := h.head_lt hnext
  rw [← List.head?_append_of_ne_nil _ hlost]
  exact congrArg List.head? hrest

/-- A record is taken where its stream has lost nothing since its last gap. -/
theorem takeRecord (h : w.Inv) {n : Nat} {s : Stream} {t : Taken δ β} {q : Queue δ β}
    (hnext : w.delivery.next = some (.head n s)) (hzero : (w.delivery.queues s).skipped = 0)
    (hpop : (w.delivery.queues s).pop s = some (t, q)) :
    ({ w with
      delivery := w.delivery.setQueue s q
      log := w.log ++ [.record n s t.intoFan] } : Merged δ β).Inv := by
  obtain ⟨hskipped, m, hnumbers⟩ := Queue.pop_of_zero hzero hpop
  have hlost : w.lost s = [] := by
    by_contra hne
    have := (h.tracks s).pending.mpr hne
    omega
  have hwaiting : w.waiting s = [m] ++ ([] ++ q.numbers) := by
    simp [Merged.waiting, hlost, hnumbers]
  obtain ⟨⟨rest, hrest⟩, -, -⟩ := h.head_lt hnext
  have hm : m = n := by
    rw [hwaiting] at hrest
    exact (List.cons.inj hrest).1
  subst hm
  have htakes := h.takes_head (x := .record m s t.intoFan) hnext rfl hwaiting (by simp)
    (fun k hk => List.mem_singleton.mp hk) (.nil hskipped)
  have hsame : Function.update w.lost s [] = w.lost := by
    rw [← hlost, Function.update_eq_self]
  rw [hsame] at htakes
  exact htakes.inv h (h.ordered.send htakes.last (by simp) (by simp))

theorem tryRecv (h : w.Inv) : w.tryRecv.Inv := by
  unfold Merged.tryRecv
  split
  · next b delivery hnext hrecv =>
    simp only [Delivery.tryRecv, hnext, Option.some.injEq, Prod.mk.injEq, true_and] at hrecv
    subst hrecv
    exact h.takeBarrier hnext
  · next n s fan delivery hnext hrecv =>
    simp only [Delivery.tryRecv, hnext] at hrecv
    obtain ⟨⟨t, q⟩, hpop, heq⟩ := Option.map_eq_some_iff.mp hrecv
    cases heq
    split
    · next hpos =>
      rw [Queue.pop_of_skipped hpos] at hpop
      cases hpop
      exact h.takeGap hnext hpos
    · next hzero => exact h.takeRecord hnext (by omega) hpop
  · exact h

theorem step {op : WireOp δ β} (h : w.Inv) (hok : Anchored w op)
    (hstep : w.step op = some w') : w'.Inv := by
  match op with
  | .batch [] => cases hstep
  | .batch (first :: rest) =>
    cases hstep
    exact h.push hok
  | .shared stream fan =>
    cases hstep
    exact h.push hok
  | .flush =>
    cases hstep
    exact h.flush
  | .tryRecv =>
    cases hstep
    exact h.tryRecv
  | .close =>
    cases hstep
    exact { h with ordered := ⟨h.ordered.increasing, h.ordered.gaps, h.ordered.barriers⟩ }

end Inv

end Merged

/-- Over every run in which a gap starts with a record that counts, `try_recv` returns increasing
numbers and each barrier between what was pushed before its flush and what was pushed after. -/
theorem ordered_of_run {trace : List (WireOp δ β)} {w : Merged δ β}
    (h : drains.Run Anchored trace w) : w.Ordered := by
  have hinv : w.Inv := by
    refine h.invariant (I := Merged.Inv) ?_ fun s op t hs hok hstep => hs.step hok hstep
    rintro s ⟨capacity, rfl⟩
    exact .start capacity
  exact hinv.ordered

/-- Two order events on a queue of one, a flush and a quote. -/
def flushed : List (WireOp Nat Nat) :=
  [.batch [.orderNotification 1, .orderNotification 2], .flush, .shared .ticker (.encoded .book 3),
    .tryRecv, .tryRecv, .tryRecv, .tryRecv]

theorem ordered_flushed : ∃ w : Merged Nat Nat, drains.Run Anchored flushed w ∧
    w.log = [.gap 1 .order [1] 1, .record 2 .order (.native .any (.orderNotification 2)),
      .barrier 3, .record 4 .ticker (.encoded .book 3)] ∧ w.Ordered := by
  have hrun : ∃ w, drains.exec Anchored { delivery := .newTransport 1 } flushed = some w ∧
      w.log = [.gap 1 .order [1] 1, .record 2 .order (.native .any (.orderNotification 2)),
        .barrier 3, .record 4 .ticker (.encoded .book 3)] := ⟨_, rfl, by decide⟩
  obtain ⟨w, hw, hlog⟩ := hrun
  have hrun := Machine.run_of_exec (M := drains) ⟨1, rfl⟩ hw
  exact ⟨w, hrun, hlog, ordered_of_run hrun⟩

/-- A gap of a reseat that is lost on a full queue: the barrier comes with the gap neither returned
nor covered. -/
theorem barrier_before_lost_gap : ∃ w : Merged Nat Nat,
    drains.Run Machine.Free [.batch [.gap .order 0], .batch [.orderNotification 1], .flush, .tryRecv,
      .tryRecv] w ∧
    w.history = [.record 1 .order, .record 2 .order, .flush 3] ∧
    w.log = [.record 2 .order (.native .any (.orderNotification 1)), .barrier 3] ∧ ¬ w.Ordered := by
  have hrun : ∃ w : Merged Nat Nat, drains.exec Machine.Free { delivery := .newTransport 1 }
      [.batch [.gap .order 0], .batch [.orderNotification 1], .flush, .tryRecv, .tryRecv] = some w ∧
      w.history = [.record 1 .order, .record 2 .order, .flush 3] ∧
      w.log = [.record 2 .order (.native .any (.orderNotification 1)), .barrier 3] :=
    ⟨_, rfl, by decide, by decide⟩
  obtain ⟨w, hw, hhistory, hlog⟩ := hrun
  refine ⟨w, Machine.run_of_exec (M := drains) ⟨1, rfl⟩ hw, hhistory, hlog, fun h => ?_⟩
  obtain ⟨earlier, later, hsplit, hbefore, -⟩ := h.barriers
    [.record 2 .order (.native .any (.orderNotification 1))] 3 [] hlog
  have hmem : Mark.record 1 .order ∈ earlier := by
    rw [hhistory] at hsplit
    cases earlier with
    | nil => cases hsplit
    | cons m earlier =>
      obtain ⟨rfl, -⟩ := List.cons.inj hsplit
      exact List.mem_cons_self
  obtain ⟨x, hx, hcovers⟩ := hbefore 1 .order hmem
  rw [List.mem_singleton.mp hx] at hcovers
  cases hcovers

end RithmicNt.Host.Attachment
