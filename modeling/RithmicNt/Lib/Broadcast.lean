import Mathlib.Data.List.Basic

/-! Receivers of a bounded broadcast channel.  A receiver that falls behind goes on with the oldest
value that the channel still keeps, and is told how many it has lost. -/

namespace RithmicNt.Lib.Broadcast

/-- `sent` is all that was sent since the receiver was made, `next` how much of it lies behind the
receiver; a channel is closed when its senders are gone. -/
structure Receiver (ι : Type*) where
  sent : List ι := []
  next : Nat := 0
  closed : Bool := false

inductive RecvError
  | lagged (skipped : Nat)
  | closed
  deriving DecidableEq, Repr

namespace Receiver

variable {ι : Type*}

/-- The values that lie behind the receiver, read or lost. -/
def behind (r : Receiver ι) : List ι := r.sent.take r.next

def send (r : Receiver ι) (item : ι) : Receiver ι := { r with sent := r.sent ++ [item] }

def close (r : Receiver ι) : Receiver ι := { r with closed := true }

/-- Where the values begin that a channel for `cap` values still keeps. -/
def oldest (cap : Nat) (r : Receiver ι) : Nat := r.sent.length - cap

/-- What the receiver gets; nothing while it waits. -/
def recv (cap : Nat) (r : Receiver ι) : Option (Except RecvError ι × Receiver ι) :=
  if r.next < r.oldest cap then
    some (.error (.lagged (r.oldest cap - r.next)), { r with next := r.oldest cap })
  else
    match r.sent[r.next]? with
    | some item => some (.ok item, { r with next := r.next + 1 })
    | none => if r.closed then some (.error .closed, r) else none

/-- A receiver is not ahead of what was sent. -/
def Sound (r : Receiver ι) : Prop := r.next ≤ r.sent.length

variable {r r' : Receiver ι} {cap : Nat} {item : ι} {skipped : Nat}

@[simp] theorem behind_default : ({} : Receiver ι).behind = [] := rfl

theorem behind_send (h : r.Sound) (item : ι) : (r.send item).behind = r.behind :=
  List.take_append_of_le_length h

@[simp] theorem behind_close : r.close.behind = r.behind := rfl

theorem Sound.send (h : r.Sound) (item : ι) : (r.send item).Sound := by
  have : r.next ≤ r.sent.length := h
  simp only [Sound, Receiver.send, List.length_append, List.length_singleton]
  omega

theorem recv_ok (h : r.recv cap = some (.ok item, r')) :
    r'.behind = r.behind ++ [item] ∧ r'.sent = r.sent ∧ r'.closed = r.closed ∧ r'.Sound := by
  unfold recv at h
  split at h
  · cases h
  · split at h
    · next i hi =>
      cases h
      obtain ⟨hlt, hget⟩ := List.getElem?_eq_some_iff.mp hi
      refine ⟨?_, rfl, rfl, hlt⟩
      rw [behind, behind, ← hget]
      exact List.take_succ_eq_append_getElem hlt
    · split at h <;> cases h

theorem recv_lagged (h : r.recv cap = some (.error (.lagged skipped), r')) :
    (∃ lost, lost.length = skipped ∧ lost ≠ [] ∧ r'.behind = r.behind ++ lost) ∧
      r'.sent = r.sent ∧ r'.closed = r.closed ∧ r'.Sound := by
  unfold recv at h
  split at h
  · next hlt =>
    cases h
    have hkept : r.oldest cap ≤ r.sent.length := Nat.sub_le _ _
    have hlength : ((r.sent.take (r.oldest cap)).drop r.next).length = r.oldest cap - r.next := by
      rw [List.length_drop, List.length_take]
      omega
    refine ⟨⟨(r.sent.take (r.oldest cap)).drop r.next, hlength, ?_, ?_⟩, rfl, rfl, hkept⟩
    · apply List.ne_nil_of_length_pos
      omega
    · have hsplit := List.take_append_drop r.next (r.sent.take (r.oldest cap))
      rw [List.take_take, Nat.min_eq_left (Nat.le_of_lt hlt)] at hsplit
      exact hsplit.symm
  · split at h
    · cases h
    · split at h <;> cases h

/-- A receiver that gets the end of the channel has everything behind it. -/
theorem recv_closed (h : r.recv cap = some (.error .closed, r')) :
    r' = r ∧ r.closed = true ∧ r.behind = r.sent := by
  unfold recv at h
  split at h
  · cases h
  · split at h
    · cases h
    · next hnone =>
      split at h
      · next hclosed =>
        cases h
        refine ⟨rfl, hclosed, ?_⟩
        exact List.take_of_length_le (List.getElem?_eq_none_iff.mp hnone)
      · cases h

end Receiver

end RithmicNt.Lib.Broadcast
