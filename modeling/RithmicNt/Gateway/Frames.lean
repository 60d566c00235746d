import Mathlib.Tactic.Common
import RithmicNt.Gateway.Calls

/-! Frames on a byte stream.  No frame is a proper prefix of another one, so a stream of frames can be
read in one way only. -/

namespace RithmicNt.Gateway.Calls

/-- The bytes of a frame. -/
def Encoded (frame : Bytes) : Prop :=
  ∃ payload, encode payload = some frame

/-- Complete frames, then at most a proper prefix of one. -/
def Framed (bytes : Bytes) : Prop :=
  ∃ frames tail, bytes = List.flatten frames ++ tail ∧ (∀ frame ∈ frames, Encoded frame) ∧
    (tail = [] ∨ ∃ frame, Encoded frame ∧ tail <+: frame ∧ tail ≠ frame)

theorem encode_eq_some {payload frame : Bytes} (h : encode payload = some frame) :
    payload.length ≤ maxFrameLen ∧ frame = be32 payload.length ++ payload := by
  unfold encode at h
  split at h
  · cases h
  · next hle => exact ⟨Nat.le_of_not_lt hle, (Option.some.inj h).symm⟩

theorem Encoded.ne_nil {frame : Bytes} (h : Encoded frame) : frame ≠ [] := by
  obtain ⟨payload, hp⟩ := h
  rw [(encode_eq_some hp).2]
  simp [be32]

theorem ofNat_eq {a b : Nat} (h : UInt8.ofNat a = UInt8.ofNat b) : a % 256 = b % 256 := by
  simpa using congrArg UInt8.toNat h

theorem be32_injective {a b : Nat} (ha : a < 2 ^ 32) (hb : b < 2 ^ 32) (h : be32 a = be32 b) :
    a = b := by
  simp only [be32, List.cons.injEq, and_true] at h
  obtain ⟨h24, h16, h8, h0⟩ := h
  have h24 := ofNat_eq h24
  have h16 := ofNat_eq h16
  have h8 := ofNat_eq h8
  have h0 := ofNat_eq h0
  simp only [Nat.shiftRight_eq_div_pow] at h24 h16 h8
  omega

/-- Two frames at the start of one stream are the same. -/
theorem Encoded.eq_of_append {f g r t : Bytes} (hf : Encoded f) (hg : Encoded g)
    (h : f ++ r = g ++ t) : f = g := by
  obtain ⟨p, hp⟩ := hf
  obtain ⟨q, hq⟩ := hg
  obtain ⟨hple, rfl⟩ := encode_eq_some hp
  obtain ⟨hqle, rfl⟩ := encode_eq_some hq
  simp only [List.append_assoc] at h
  obtain ⟨hlen, hrest⟩ := List.append_inj h (by simp [be32])
  simp only [maxFrameLen] at hple hqle
  have hlen := be32_injective (by omega) (by omega) hlen
  rw [hlen, (List.append_inj hrest hlen).1]

/-- What follows a frame at the start of a stream is a stream. -/
theorem Framed.of_append {f r : Bytes} (hf : Encoded f) (h : Framed (f ++ r)) : Framed r := by
  obtain ⟨frames, tail, heq, hframes, htail⟩ := h
  cases frames with
  | nil =>
    simp only [List.flatten_nil, List.nil_append] at heq
    rcases htail with rfl | ⟨g, hg, ⟨t, ht⟩, hne⟩
    · exact absurd (List.append_eq_nil_iff.mp heq).1 hf.ne_nil
    · have hfg : f ++ (r ++ t) = g ++ [] := by
        rw [← ht, ← heq]
        simp
      have hsame := hf.eq_of_append hg hfg
      subst hsame
      have hr : r = [] := by
        have := List.append_cancel_left hfg
        exact (List.append_eq_nil_iff.mp this).1
      rw [← heq, hr] at hne
      simp at hne
  | cons g frames =>
    simp only [List.flatten_cons, List.append_assoc] at heq
    have hsame := hf.eq_of_append (hframes g (by simp)) heq
    subst hsame
    exact ⟨frames, tail, List.append_cancel_left heq, fun x hx => hframes x (by simp [hx]), htail⟩

/-- A frame is at most 16 MiB long, so its first byte is at most one. -/
theorem Framed.head_le {b : UInt8} {r : Bytes} (h : Framed (b :: r)) : b.toNat ≤ 1 := by
  have hhead : ∀ {f t : Bytes}, Encoded f → f = b :: t → b.toNat ≤ 1 := by
    rintro f t ⟨p, hp⟩ hf
    obtain ⟨hle, rfl⟩ := encode_eq_some hp
    simp only [be32, List.cons_append, List.cons.injEq] at hf
    rw [← hf.1]
    simp only [maxFrameLen] at hle
    simp only [Nat.shiftRight_eq_div_pow, UInt8.toNat_ofNat']
    omega
  obtain ⟨frames, tail, heq, hframes, htail⟩ := h
  cases frames with
  | nil =>
    simp only [List.flatten_nil, List.nil_append] at heq
    rcases htail with rfl | ⟨g, hg, ⟨t, ht⟩, -⟩
    · cases heq
    · subst heq
      exact hhead hg ht.symm
  | cons g frames =>
    have hg := hframes g (by simp)
    cases g with
    | nil => exact absurd rfl hg.ne_nil
    | cons a g =>
      simp only [List.flatten_cons, List.cons_append, List.cons.injEq] at heq
      rw [heq.1] at hhead ⊢
      exact hhead hg rfl

end RithmicNt.Gateway.Calls
