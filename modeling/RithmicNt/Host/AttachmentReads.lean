import RithmicNt.Host.Attachment
import RithmicNt.Lib.Machine

/-! An attachment that is read natively: over every run, each stream's pushes are accounted for by
what its reads returned and what they still owe, as long as the count of a gap can show the losses it
stands for. -/

namespace RithmicNt.Host.Attachment

open RithmicNt.Lib

variable {δ β : Type}

/-- What a consumer sees of a record. -/
inductive Entry (δ β : Type)
  | event (event : Event δ)
  | encoded (kind : Kind) (bytes : β)
  deriving DecidableEq, Repr

def Taken.entry : Taken δ β → Entry δ β
  | .owned event | .shared (.native _ event) => .event event
  | .shared (.encoded kind bytes) => .encoded kind bytes

/-- An event weighs one, a gap what it counts. -/
def Entry.weight : Entry δ β → Nat
  | .event (.gap _ skipped) => skipped
  | _ => 1

/-- The gap that a queue makes on its stream. -/
def gapOn (stream : Stream) (skipped : Nat) : Entry δ β := .event (.gap stream skipped)

def Queue.entries (q : Queue δ β) : List (Entry δ β) := q.items.map fun x => x.2.entry

/-- What the reads of a stream will return if nothing more is pushed. -/
def Queue.owed (q : Queue δ β) (stream : Stream) : List (Entry δ β) :=
  (if 0 < q.skipped then [gapOn stream q.skipped] else []) ++ q.entries

inductive Op (δ β : Type)
  | batch (events : List (Event δ))
  | shared (stream : Stream) (fan : Fan δ β)
  | nextEvents (stream : Stream) (max : Nat)
  | poll (stream : Stream)
  | flush
  | takeEvents
  | close

/-- A delivery with what was pushed on each of its streams and what its reads returned. -/
structure Watched (δ β : Type) where
  delivery : Delivery δ β
  pushed : Stream → List (Entry δ β) := fun _ => []
  returned : Stream → List (Entry δ β) := fun _ => []

def Batch.entries : Batch δ → List (Entry δ β)
  | .events read => read.map .event
  | .channelClosed => []

def Polled.entries (stream : Stream) : Polled δ → List (Entry δ β)
  | .event read => read.toList.map .event
  | .channelLagged skipped => [gapOn stream skipped]
  | .channelClosed => []

def Record.entries (r : Record δ β) : List (Entry δ β) := r.taken.map Taken.entry

namespace Watched

/-- A closed delivery takes no record. -/
def note (w : Watched δ β) (stream : Stream) (record : Record δ β) : Stream → List (Entry δ β) :=
  if w.delivery.closed then w.pushed
  else Function.update w.pushed stream (w.pushed stream ++ record.entries)

def hand (w : Watched δ β) (stream : Stream) (entries : List (Entry δ β)) :
    Stream → List (Entry δ β) :=
  Function.update w.returned stream (w.returned stream ++ entries)

def step (w : Watched δ β) : Op δ β → Option (Watched δ β)
  | .batch [] => none
  | .batch (first :: rest) =>
    (w.delivery.batch (first :: rest)).map fun delivery =>
      { w with delivery, pushed := w.note first.stream (.batch first rest) }
  | .shared stream fan =>
    some { w with
      delivery := w.delivery.shared stream fan
      pushed := w.note stream (.shared fan) }
  | .nextEvents stream max =>
    (w.delivery.nextEvents stream max).map fun (answer, delivery) =>
      { w with delivery, returned := w.hand stream answer.entries }
  | .poll stream =>
    (w.delivery.poll stream).map fun (answer, delivery) =>
      { w with delivery, returned := w.hand stream (answer.entries stream) }
  | .flush => some { w with delivery := w.delivery.flush }
  | .takeEvents => some { w with delivery := w.delivery.takeEvents }
  | .close => some { w with delivery := w.delivery.close }

end Watched

/-- A delivery of any capacity, native or claimed by a transport, and any calls on it. -/
def calls : Machine (Watched δ β) (Op δ β) where
  Start w := ∃ capacity, w = { delivery := .new capacity } ∨
    w = { delivery := .newTransport capacity }
  step := Watched.step

/-- The records that a push evicts. -/
def Delivery.evicted (d : Delivery δ β) (stream : Stream) (record : Record δ β) :
    List (Nat × Taken δ β) :=
  if d.closed then []
  else (d.queues stream).backlog.dropped d.capacity (numbered (d.sequence + 1) record.taken)

def lostWeight (lost : List (Nat × Taken δ β)) : Nat := (lost.map fun x => x.2.weight).sum

/-- Whatever a push evicts leaves a count above 0, within a `u64`. -/
def Delivery.Signals (d : Delivery δ β) (stream : Stream) (record : Record δ β) : Prop :=
  (d.queues stream).skipped + lostWeight (d.evicted stream record) < 2 ^ 64 ∧
    (d.evicted stream record ≠ [] →
      0 < (d.queues stream).skipped + lostWeight (d.evicted stream record))

instance [DecidableEq δ] [DecidableEq β] (d : Delivery δ β) (stream : Stream)
    (record : Record δ β) : Decidable (d.Signals stream record) :=
  inferInstanceAs (Decidable (_ ∧ (_ → _)))

/-- Every push leaves a gap for what it evicts. -/
def Countable (w : Watched δ β) : Op δ β → Prop
  | .batch (first :: rest) => w.delivery.Signals first.stream (.batch first rest)
  | .shared stream fan => w.delivery.Signals stream (.shared fan)
  | _ => True

instance [DecidableEq δ] [DecidableEq β] (w : Watched δ β) : DecidablePred (Countable w)
  | .batch [] | .nextEvents .. | .poll _ | .flush | .takeEvents | .close =>
    inferInstanceAs (Decidable True)
  | .batch (_ :: _) | .shared .. => inferInstanceAs (Decidable (Delivery.Signals ..))

/-- A read hands over the front of what is owed, and something where anything is owed. -/
def Delivery.Serves (d : Delivery δ β) (stream : Stream) (read : Option (Batch δ × Delivery δ β)) : Prop :=
  ∃ answer d', read = some (answer, d') ∧
    (d.queues stream).owed stream = answer.entries ++ (d'.queues stream).owed stream ∧
    ((d.queues stream).owed stream ≠ [] → answer.entries ≠ ([] : List (Entry δ β)))

/-- The pushes of a stream are accounted for by what was returned and what is owed, and a read hands
over the front of what is owed. -/
structure Watched.Conserved (w : Watched δ β) (stream : Stream) : Prop where
  account : Accounted (gapOn stream) Entry.weight (w.pushed stream)
    (w.returned stream ++ (w.delivery.queues stream).owed stream)
  reads : ∀ max, (∀ x ∈ (w.delivery.queues stream).entries, ∃ e, x = .event e) →
    w.delivery.Serves stream (w.delivery.nextEvents stream max)

/-- How far the reads of a stream have come. -/
def Settled (stream : Stream) (q : Queue δ β) (pushed returned : List (Entry δ β)) : Prop :=
  Owing (gapOn stream) Entry.weight pushed returned q.entries q.skipped

theorem weight_gapOn (stream : Stream) (n : Nat) :
    (gapOn stream n : Entry δ β).weight = n := rfl

theorem Taken.weight_entry (t : Taken δ β) : t.entry.weight = t.weight := by
  match t with
  | .owned event => cases event <;> rfl
  | .shared (.native _ event) => cases event <;> rfl
  | .shared (.encoded ..) => rfl

theorem Taken.entry_of_event {t : Taken δ β} {e : Event δ} (h : t.event = some e) :
    t.entry = .event e := by
  match t, h with
  | .owned _, rfl => rfl
  | .shared (.native ..), rfl => rfl

theorem lostWeight_eq (lost : List (Nat × Taken δ β)) :
    lostWeight lost = total Entry.weight (lost.map fun x => x.2.entry) := by
  unfold lostWeight total
  rw [List.map_map]
  congr 1
  exact List.map_congr_left fun x _ => (x.2.weight_entry).symm

theorem map_entry_numbered (n : Nat) (ts : List (Taken δ β)) :
    (numbered n ts).map (fun x => x.2.entry) = ts.map Taken.entry := by
  conv_rhs => rw [← map_snd_numbered n ts]
  rw [List.map_map]
  rfl

/-- As long as a count stays within a `u64` it is the sum of what was lost. -/
theorem skipped_foldl (lost : List (Nat × Taken δ β)) (l : Loss)
    (h : l.skipped + lostWeight lost < 2 ^ 64) :
    (lost.foldl Loss.add l).skipped = l.skipped + lostWeight lost := by
  induction lost generalizing l with
  | nil => rfl
  | cons x lost ih =>
    have hw : lostWeight (x :: lost) = x.2.weight + lostWeight lost := by simp [lostWeight]
    have hadd : (l.add x).skipped = l.skipped + x.2.weight := Nat.mod_eq_of_lt (by omega)
    rw [List.foldl_cons, ih _ (by omega), hadd]
    omega

namespace Queue

variable {q q' : Queue δ β} {stream : Stream}

/-- A push only moves the front of the queue into the losses. -/
theorem items_push (q : Queue δ β) (capacity sequence : Nat) (record : Record δ β) :
    q.items ++ numbered sequence record.taken =
      q.backlog.dropped capacity (numbered sequence record.taken) ++
        (q.push capacity sequence record).items := by
  have hview : (q.push capacity sequence record).items =
      (q.backlog.push Loss.add capacity (numbered sequence record.taken)).items :=
    congrArg Backlog.items (q.backlog_push capacity sequence record)
  rw [hview]
  exact Backlog.append_eq_dropped (b := q.backlog)

theorem entries_push (q : Queue δ β) (capacity sequence : Nat) (record : Record δ β) :
    q.entries ++ record.entries =
      (q.backlog.dropped capacity (numbered sequence record.taken)).map (fun x => x.2.entry) ++
        (q.push capacity sequence record).entries := by
  have hrecord : record.entries = (numbered sequence record.taken).map fun x => x.2.entry :=
    (map_entry_numbered sequence record.taken).symm
  unfold entries
  rw [hrecord, ← List.map_append, items_push, List.map_append]

theorem skipped_push {capacity sequence : Nat} {record : Record δ β}
    (h : q.skipped + lostWeight (q.backlog.dropped capacity (numbered sequence record.taken)) <
      2 ^ 64) :
    (q.push capacity sequence record).skipped =
      q.skipped + lostWeight (q.backlog.dropped capacity (numbered sequence record.taken)) := by
  have hview : (q.push capacity sequence record).skipped =
      (q.backlog.push Loss.add capacity (numbered sequence record.taken)).loss.skipped :=
    congrArg (fun b => b.loss.skipped) (q.backlog_push capacity sequence record)
  rw [hview, Backlog.loss_push, skipped_foldl]
  · rfl
  · exact h

theorem entries_batch {records : List (Nat × Record δ β)} {sequence : Nat} {first : Event δ}
    {rest : List (Event δ)} (hq : q.records = (sequence, .batch first rest) :: records) :
    q.entries = (first :: rest).map .event ++ ({ q with records } : Queue δ β).entries := by
  unfold entries items
  rw [hq, List.flatMap_cons, List.map_append, map_entry_numbered]
  simp [Record.taken, Taken.entry]

/-- A pop takes the front of what is owed. -/
theorem owed_pop {t : Taken δ β} (h : q.pop stream = some (t, q')) :
    q.owed stream = t.entry :: q'.owed stream := by
  unfold pop at h
  unfold owed
  split at h
  · next hpos =>
    cases h
    simp [hpos, Taken.entry, gapOn, entries, items]
  · next hzero =>
    obtain ⟨⟨x, rest⟩, hr, hrest⟩ := Option.map_eq_some_iff.mp h
    cases hrest
    obtain ⟨hitems, hskipped, -⟩ := popRecord_eq_some hr
    simp [hzero, hskipped, entries, hitems]

theorem pop_isSome (h : q.owed stream ≠ []) : ∃ t q', q.pop stream = some (t, q') := by
  unfold pop
  by_cases hpos : 0 < q.skipped
  · rw [if_pos hpos]
    exact ⟨_, _, rfl⟩
  · rw [if_neg hpos]
    cases hr : q.popRecord with
    | none =>
      have hnil := popRecord_eq_none.mp hr
      simp [owed, hpos, entries, hnil] at h
    | some r => exact ⟨_, _, rfl⟩

end Queue

namespace Settled

variable {q q' : Queue δ β} {stream : Stream} {pushed returned : List (Entry δ β)}

theorem start : Settled stream ({} : Queue δ β) [] [] := Owing.start

theorem account (h : Settled stream q pushed returned) :
    Accounted (gapOn stream) Entry.weight pushed (returned ++ q.owed stream) :=
  Owing.account (weight_gapOn stream) h

theorem push {capacity sequence : Nat} {record : Record δ β} (h : Settled stream q pushed returned)
    (hfits : q.skipped + lostWeight (q.backlog.dropped capacity (numbered sequence record.taken)) <
      2 ^ 64)
    (hshows : q.backlog.dropped capacity (numbered sequence record.taken) ≠ [] →
      0 < q.skipped + lostWeight (q.backlog.dropped capacity (numbered sequence record.taken))) :
    Settled stream (q.push capacity sequence record) (pushed ++ record.entries) returned := by
  have hpushed := Owing.push h record.entries
  rw [Queue.entries_push q capacity sequence record] at hpushed
  unfold Settled
  rw [Queue.skipped_push hfits, lostWeight_eq]
  rw [lostWeight_eq] at hshows
  exact hpushed.drop (by simpa using hshows)

theorem pop {t : Taken δ β} (h : Settled stream q pushed returned)
    (hpop : q.pop stream = some (t, q')) :
    Settled stream q' pushed (returned ++ [t.entry]) := by
  unfold Queue.pop at hpop
  split at hpop
  · next hgap =>
    cases hpop
    exact Owing.takeGap (weight_gapOn stream) h hgap
  · next hzero =>
    obtain ⟨⟨x, rest⟩, hr, hrest⟩ := Option.map_eq_some_iff.mp hpop
    cases hrest
    obtain ⟨hitems, hsame, -⟩ := Queue.popRecord_eq_some hr
    have hnone : q.skipped = 0 := by omega
    have hentries : q.entries = [x.2.entry] ++ rest.entries := by simp [Queue.entries, hitems]
    unfold Settled at h ⊢
    rw [hsame, hnone]
    rw [hentries, hnone] at h
    exact h.take

theorem popEvents {count : Nat} {events : List (Event δ)} (h : Settled stream q pushed returned)
    (hpop : q.popEvents stream count = some (events, q')) :
    Settled stream q' pushed (returned ++ events.map .event) := by
  induction count generalizing q returned events with
  | zero =>
    cases hpop
    simpa using h
  | succ count ih =>
    obtain ⟨⟨t, rest⟩, ht, hrest⟩ := Option.bind_eq_some_iff.mp hpop
    obtain ⟨event, hevent, hmore⟩ := Option.bind_eq_some_iff.mp hrest
    obtain ⟨⟨batch, last⟩, hbatch, hlast⟩ := Option.map_eq_some_iff.mp hmore
    cases hlast
    have := ih (h.pop ht) hbatch
    rw [Taken.entry_of_event hevent] at this
    simpa using this

/-- A poll reports a gap on the stream it reads, whatever stream the gap names. -/
theorem lagged {s : Stream} {n : Nat}
    (h : Settled stream q pushed (returned ++ [.event (.gap s n)])) :
    Settled stream q pushed (returned ++ [gapOn stream n]) :=
  Owing.recount (weight_gapOn stream) h

/-- A whole batch is taken at once only where no gap is pending. -/
theorem whole {records : List (Nat × Record δ β)} {sequence : Nat} {first : Event δ}
    {rest : List (Event δ)} (h : Settled stream q pushed returned) (hzero : q.skipped = 0)
    (hq : q.records = (sequence, .batch first rest) :: records) :
    Settled stream { q with records } pushed (returned ++ (first :: rest).map .event) := by
  unfold Settled at h ⊢
  rw [Queue.entries_batch hq, hzero] at h
  rw [show ({ q with records } : Queue δ β).skipped = 0 from hzero]
  exact h.take

end Settled

/-! ### Reads -/

theorem Taken.event_of_entry {t : Taken δ β} {e : Event δ} (h : t.entry = .event e) :
    t.event = some e := by
  match t, h with
  | .owned _, rfl => rfl
  | .shared (.native ..), rfl => rfl

namespace Queue

variable {q q' : Queue δ β} {stream : Stream}

theorem length_owed (q : Queue δ β) (stream : Stream) :
    (q.owed stream).length = q.len + if 0 < q.skipped then 1 else 0 := by
  rw [len_eq]
  unfold owed entries
  split
  · simp [Nat.add_comm]
  · simp

theorem length_popEvents {count : Nat} {events : List (Event δ)}
    (h : q.popEvents stream count = some (events, q')) : events.length = count := by
  induction count generalizing q events with
  | zero =>
    cases h
    rfl
  | succ count ih =>
    obtain ⟨⟨t, rest⟩, ht, hrest⟩ := Option.bind_eq_some_iff.mp h
    obtain ⟨event, hevent, hmore⟩ := Option.bind_eq_some_iff.mp hrest
    obtain ⟨⟨batch, last⟩, hbatch, hlast⟩ := Option.map_eq_some_iff.mp hmore
    cases hlast
    simp [ih hbatch]

/-- Owed events can be popped, as many as there are. -/
theorem popEvents_of_le {count : Nat} (hall : ∀ x ∈ q.owed stream, ∃ e, x = .event e)
    (hcount : count ≤ (q.owed stream).length) :
    ∃ events q', q.popEvents stream count = some (events, q') ∧
      q.owed stream = events.map .event ++ q'.owed stream ∧ events.length = count := by
  induction count generalizing q with
  | zero => exact ⟨[], q, rfl, rfl, rfl⟩
  | succ count ih =>
    have hne : q.owed stream ≠ [] := by
      intro hnil
      simp [hnil] at hcount
    obtain ⟨t, rest, ht⟩ := pop_isSome hne
    have howed := owed_pop ht
    obtain ⟨e, he⟩ := hall t.entry (by simp [howed])
    obtain ⟨events, last, hpop, hlast, hlen⟩ := ih (q := rest)
      (fun x hx => hall x (by simp [howed, hx])) (by simpa [howed] using hcount)
    refine ⟨e :: events, last, ?_, ?_, by simp [hlen]⟩
    · simp [popEvents, ht, Taken.event_of_entry he, hpop]
    · rw [howed, he, hlast]
      rfl

end Queue

namespace Delivery

variable {d d' : Delivery δ β} {stream : Stream} {max : Nat}

@[simp] theorem queues_setQueue (d : Delivery δ β) (stream : Stream) (q : Queue δ β) :
    (d.setQueue stream q).queues = Function.update d.queues stream q := rfl

theorem singles_cases {answer : Batch δ} (h : d.singles stream max = some (answer, d')) :
    ∃ q', d'.queues = Function.update d.queues stream q' ∧
      ((∃ count events, (d.queues stream).popEvents stream count = some (events, q') ∧
          answer = .events events) ∨
        (q' = d.queues stream ∧ (answer = .events [] ∨ answer = .channelClosed))) := by
  unfold singles at h
  simp only at h
  rw [← Queue.length_owed _ stream] at h
  split at h
  · obtain ⟨⟨events, q'⟩, hpop, hd⟩ := Option.map_eq_some_iff.mp h
    cases hd
    exact ⟨q', rfl, .inl ⟨_, events, hpop, rfl⟩⟩
  · split at h
    · cases h
      exact ⟨d.queues stream, by simp, .inr ⟨rfl, .inr rfl⟩⟩
    · cases h
      exact ⟨d.queues stream, by simp, .inr ⟨rfl, .inl rfl⟩⟩

/-- What a native read can do to the queue of its stream. -/
theorem nextEvents_cases {answer : Batch δ} (h : d.nextEvents stream max = some (answer, d')) :
    ∃ q', d'.queues = Function.update d.queues stream q' ∧
      ((∃ sequence first rest records, (d.queues stream).skipped = 0 ∧
          (d.queues stream).records = (sequence, .batch first rest) :: records ∧
          answer = .events (first :: rest) ∧ q' = { d.queues stream with records }) ∨
        (∃ count events, (d.queues stream).popEvents stream count = some (events, q') ∧
          answer = .events events) ∨
        (q' = d.queues stream ∧ (answer = .events [] ∨ answer = .channelClosed))) := by
  unfold nextEvents at h
  simp only at h
  split at h
  · next sequence first rest records hq =>
    split at h
    · next hfits =>
      cases h
      exact ⟨_, rfl, .inl ⟨sequence, first, rest, records, hfits.1, hq, rfl, rfl⟩⟩
    · obtain ⟨q', hq', hcases⟩ := singles_cases h
      exact ⟨q', hq', .inr hcases⟩
  · obtain ⟨q', hq', hcases⟩ := singles_cases h
    exact ⟨q', hq', .inr hcases⟩

theorem serves_singles (hall : ∀ x ∈ (d.queues stream).owed stream, ∃ e, x = .event e)
    (hmax : 0 < max) : d.Serves stream (d.singles stream max) := by
  unfold singles
  simp only
  rw [← Queue.length_owed _ stream]
  by_cases hpos : 0 < min max ((d.queues stream).owed stream).length
  · obtain ⟨events, q', hpop, hrest, hlen⟩ := Queue.popEvents_of_le hall
      (Nat.min_le_right max ((d.queues stream).owed stream).length)
    rw [if_pos hpos, hpop]
    refine ⟨_, _, rfl, ?_, ?_⟩
    · simpa [Batch.entries] using hrest
    · intro _ hnil
      have hev : events = [] := by simpa [Batch.entries] using hnil
      simp [hev] at hlen
      omega
  · rw [if_neg hpos]
    have hnil : (d.queues stream).owed stream = [] := List.length_eq_zero_iff.mp (by omega)
    split
    · exact ⟨_, _, rfl, by simp [hnil, Batch.entries], fun hne => absurd hnil hne⟩
    · exact ⟨_, _, rfl, by simp [hnil, Batch.entries], fun hne => absurd hnil hne⟩

theorem serves_nextEvents (hall : ∀ x ∈ (d.queues stream).entries, ∃ e, x = .event e) (max : Nat) :
    d.Serves stream (d.nextEvents stream max) := by
  have howed : ∀ x ∈ (d.queues stream).owed stream, ∃ e, x = .event e := by
    intro x hx
    unfold Queue.owed at hx
    obtain hx | hx := List.mem_append.mp hx
    · split at hx
      · exact ⟨_, List.mem_singleton.mp hx⟩
      · simp at hx
    · exact hall x hx
  have hsingles : d.Serves stream
      (({ d with nativeStarted := true } : Delivery δ β).singles stream (Nat.max max 1)) :=
    serves_singles (d := { d with nativeStarted := true }) howed (Nat.le_max_right max 1)
  unfold nextEvents
  simp only
  split
  · next sequence first rest records hq =>
    split
    · next hfits =>
      refine ⟨_, _, rfl, ?_, fun _ => by simp [Batch.entries]⟩
      simp only [queues_setQueue, Function.update_self, Batch.entries]
      rw [Queue.owed, if_neg (by omega), Queue.entries_batch hq]
      simp [Queue.owed, hfits.1]
    · exact hsingles
  · exact hsingles

end Delivery

/-! ### Runs -/

/-- Every stream of a watched delivery is settled. -/
def Watched.Sound (w : Watched δ β) : Prop :=
  ∀ stream, Settled stream (w.delivery.queues stream) (w.pushed stream) (w.returned stream)

namespace Watched.Sound

variable {w : Watched δ β} {stream : Stream}

theorem push {record : Record δ β} (h : w.Sound) (hok : w.delivery.Signals stream record) :
    Sound { w with delivery := w.delivery.push stream record, pushed := w.note stream record } := by
  intro s
  unfold Delivery.push Watched.note
  unfold Delivery.Signals Delivery.evicted at hok
  by_cases hclosed : w.delivery.closed
  · simp only [hclosed, if_true]
    exact h s
  · simp only [hclosed, Bool.false_eq_true, if_false, Delivery.queues_setQueue] at hok ⊢
    by_cases hs : s = stream
    · subst hs
      simp only [Function.update_self]
      exact (h s).push hok.1 hok.2
    · simp only [Function.update_of_ne hs]
      exact h s

/-- A read of one stream that keeps it settled keeps them all. -/
theorem read {d : Delivery δ β} {q : Queue δ β} {entries : List (Entry δ β)} (h : w.Sound)
    (hd : d.queues = Function.update w.delivery.queues stream q)
    (hq : Settled stream q (w.pushed stream) (w.returned stream ++ entries)) :
    Sound { w with delivery := d, returned := w.hand stream entries } := by
  intro s
  by_cases hs : s = stream
  · subst hs
    simpa [hd, Watched.hand] using hq
  · simpa [hd, Watched.hand, hs] using h s

/-- What a native read leaves of its stream. -/
theorem settled_nextEvents {max : Nat} {answer : Batch δ} {d : Delivery δ β} (h : w.Sound)
    (hread : w.delivery.nextEvents stream max = some (answer, d)) :
    ∃ q, d.queues = Function.update w.delivery.queues stream q ∧
      Settled stream q (w.pushed stream) (w.returned stream ++ answer.entries) := by
  obtain ⟨q, hd, hcases⟩ := Delivery.nextEvents_cases hread
  refine ⟨q, hd, ?_⟩
  obtain ⟨sequence, first, rest, records, hzero, hq, rfl, rfl⟩ | ⟨count, events, hpop, rfl⟩ |
    ⟨rfl, hanswer⟩ := hcases
  · exact (h stream).whole hzero hq
  · exact (h stream).popEvents hpop
  · have hnil : answer.entries = ([] : List (Entry δ β)) := by
      obtain rfl | rfl := hanswer <;> rfl
    simpa [hnil] using h stream

theorem nextEvents {max : Nat} {answer : Batch δ} {d : Delivery δ β} (h : w.Sound)
    (hread : w.delivery.nextEvents stream max = some (answer, d)) :
    Sound { w with delivery := d, returned := w.hand stream answer.entries } := by
  obtain ⟨q, hd, hq⟩ := h.settled_nextEvents hread
  exact h.read hd hq

end Watched.Sound

/-- A read of at most one event has at most one. -/
theorem Delivery.length_nextEvents_one {d d' : Delivery δ β} {stream : Stream}
    {events : List (Event δ)} (h : d.nextEvents stream 1 = some (.events events, d')) :
    events.length ≤ 1 := by
  have hsingles : ∀ {d : Delivery δ β}, d.singles stream 1 = some (.events events, d') →
      events.length ≤ 1 := by
    intro d h
    unfold singles at h
    simp only at h
    rw [← Queue.length_owed _ stream] at h
    split at h
    · obtain ⟨⟨batch, q⟩, hpop, hd⟩ := Option.map_eq_some_iff.mp h
      cases hd
      rw [Queue.length_popEvents hpop]
      exact Nat.min_le_left 1 _
    · split at h <;> cases h
      simp
  unfold nextEvents at h
  simp only [show Nat.max 1 1 = 1 from rfl] at h
  split at h
  · split at h
    · next hfits =>
      cases h
      exact hfits.2
    · exact hsingles h
  · exact hsingles h

/-- A poll returns what the read of one event does, a gap by its count. -/
theorem Delivery.poll_cases {d d' : Delivery δ β} {stream : Stream} {polled : Polled δ}
    (h : d.poll stream = some (polled, d')) :
    ∃ answer, d.nextEvents stream 1 = some (answer, d') ∧
      (polled.entries stream = (answer.entries : List (Entry δ β)) ∨
        ∃ s n, answer = .events [.gap s n] ∧
          polled.entries stream = ([gapOn stream n] : List (Entry δ β))) := by
  obtain ⟨⟨answer, d''⟩, hread, hmatch⟩ := Option.map_eq_some_iff.mp h
  cases answer with
  | channelClosed =>
    cases hmatch
    exact ⟨_, hread, .inl rfl⟩
  | events events =>
    have hlen : events.length ≤ 1 := by
      have hd : d'' = d' := by
        simp only at hmatch
        split at hmatch <;> cases hmatch <;> rfl
      exact length_nextEvents_one (hd ▸ hread)
    match events, hlen with
    | [], _ =>
      cases hmatch
      exact ⟨_, hread, .inl rfl⟩
    | [e], _ =>
      cases e <;> cases hmatch
      case gap => exact ⟨_, hread, .inr ⟨_, _, rfl, rfl⟩⟩
      all_goals exact ⟨_, hread, .inl rfl⟩

theorem Watched.Sound.poll {w : Watched δ β} {stream : Stream} {polled : Polled δ}
    {d : Delivery δ β} (h : w.Sound) (hread : w.delivery.poll stream = some (polled, d)) :
    Sound { w with delivery := d, returned := w.hand stream (polled.entries stream) } := by
  obtain ⟨answer, hnext, hentries⟩ := Delivery.poll_cases (β := β) hread
  obtain ⟨q, hd, hq⟩ := h.settled_nextEvents hnext
  refine h.read hd ?_
  obtain hsame | ⟨s, n, rfl, hgap⟩ := hentries
  · rw [hsame]
    exact hq
  · rw [hgap]
    exact hq.lagged

theorem Watched.Sound.step {w w' : Watched δ β} {op : Op δ β} (h : w.Sound) (hok : Countable w op)
    (hstep : w.step op = some w') : w'.Sound := by
  match op with
  | .batch [] => cases hstep
  | .batch (first :: rest) =>
    cases hstep
    exact h.push hok
  | .shared stream fan =>
    cases hstep
    exact h.push hok
  | .nextEvents stream max =>
    obtain ⟨⟨answer, d⟩, hread, rfl⟩ := Option.map_eq_some_iff.mp hstep
    exact h.nextEvents hread
  | .poll stream =>
    obtain ⟨⟨polled, d⟩, hread, rfl⟩ := Option.map_eq_some_iff.mp hstep
    exact h.poll hread
  | .flush =>
    cases hstep
    unfold Watched.Sound Delivery.flush
    intro stream
    split
    · exact h stream
    · split <;> exact h stream
  | .takeEvents =>
    cases hstep
    unfold Watched.Sound Delivery.takeEvents
    intro stream
    split <;> exact h stream
  | .close =>
    cases hstep
    exact h

theorem Watched.Sound.conserved {w : Watched δ β} (h : w.Sound) (stream : Stream) :
    w.Conserved stream where
  account := (h stream).account
  reads max hall := Delivery.serves_nextEvents hall max

/-- Over every run in which each push leaves a gap for what it evicts, every stream's pushes are
returned in order, or counted in a gap before the next record that survives. -/
theorem conserved_of_run {trace : List (Op δ β)} {w : Watched δ β}
    (h : calls.Run Countable trace w) (stream : Stream) : w.Conserved stream := by
  have hsound : w.Sound := by
    refine h.invariant (I := Watched.Sound) ?_ fun s op t hs hok hstep => hs.step hok hstep
    rintro s ⟨capacity, rfl | rfl⟩ stream
    · exact .start
    · exact .start
  exact hsound.conserved stream

/-- Three order events on a queue of two: the first is lost. -/
def overflowing : List (Op Nat Nat) :=
  [.batch [.orderNotification 1, .orderNotification 2, .orderNotification 3], .nextEvents .order 2,
    .batch [.gap .order 0], .poll .order]

theorem conserved_overflowing : ∃ w : Watched Nat Nat, calls.Run Countable overflowing w ∧
    w.returned .order = [gapOn .order 1, .event (.orderNotification 2),
      .event (.orderNotification 3)] ∧ w.Conserved .order := by
  have hrun : ∃ w, calls.exec Countable { delivery := .new 2 } overflowing = some w ∧
      w.returned .order = [gapOn .order 1, .event (.orderNotification 2),
        .event (.orderNotification 3)] := ⟨_, rfl, by decide⟩
  obtain ⟨w, hw, hreturned⟩ := hrun
  have hrun := Machine.run_of_exec (M := calls) ⟨2, .inl rfl⟩ hw
  exact ⟨w, hrun, hreturned, conserved_of_run hrun .order⟩

/-- The order gap of a reseat counts no event: it is lost on a full queue, and nothing tells. -/
theorem gap_lost_unsignalled : ∃ w : Watched Nat Nat,
    calls.Run Machine.Free
      [.batch [.gap .order 0], .batch [.orderNotification 1], .nextEvents .order 8] w ∧
    w.pushed .order = [gapOn .order 0, .event (.orderNotification 1)] ∧
    w.returned .order = [.event (.orderNotification 1)] ∧ ¬ w.Conserved .order := by
  have hrun : ∃ w : Watched Nat Nat, calls.exec Machine.Free { delivery := .new 1 }
      [.batch [.gap .order 0], .batch [.orderNotification 1], .nextEvents .order 8] = some w ∧
      w.pushed .order = [gapOn .order 0, .event (.orderNotification 1)] ∧
      w.returned .order = [.event (.orderNotification 1)] ∧
      (w.delivery.queues .order).owed .order = [] := ⟨_, rfl, by decide, by decide, by decide⟩
  obtain ⟨w, hw, hpushed, hreturned, howed⟩ := hrun
  refine ⟨w, Machine.run_of_exec (M := calls) ⟨1, .inl rfl⟩ hw, hpushed, hreturned, fun h => ?_⟩
  have haccount := h.account
  rw [hpushed, hreturned, howed] at haccount
  have hevent : ∀ n, (.event (.orderNotification 1) : Entry Nat Nat) ≠ gapOn .order n := by
    intro n hn
    cases hn
  rw [List.append_nil, ← List.nil_append [_]] at haccount
  obtain ⟨xs, ys, hsplit, hxs, hys⟩ := haccount.split hevent
  rw [hxs.eq_nil, hys.eq_nil] at hsplit
  cases hsplit

end RithmicNt.Host.Attachment
