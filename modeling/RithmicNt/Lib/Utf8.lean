import Mathlib.Data.List.Induction
import Mathlib.Data.List.TakeWhile

/-! Texts as their UTF-8 bytes.  A test of single bytes that only ASCII bytes pass sees the same in the
bytes as a test of characters sees in the text, from either end. -/

namespace RithmicNt.Lib.Utf8

def bytes (l : List Char) : List UInt8 := l.flatMap String.utf8EncodeChar

/-- The first `n` bytes of a text, as a text: `none` where they end inside a character, or past the
text. -/
def sliceTo : List Char → Nat → Option (List Char)
  | _, 0 => some []
  | [], _ + 1 => none
  | c :: l, n + 1 =>
    if c.utf8Size ≤ n + 1 then (sliceTo l (n + 1 - c.utf8Size)).map (c :: ·) else none

@[simp] theorem bytes_nil : bytes [] = [] := rfl

@[simp] theorem bytes_cons (c : Char) (l : List Char) :
    bytes (c :: l) = String.utf8EncodeChar c ++ bytes l := rfl

@[simp] theorem bytes_append (l m : List Char) : bytes (l ++ m) = bytes l ++ bytes m :=
  List.flatMap_append

theorem sliceTo_append (l m : List Char) : sliceTo (l ++ m) (bytes l).length = some l := by
  induction l with
  | nil => cases m <;> rfl
  | cons c l ih =>
    have hsize : (bytes (c :: l)).length = (bytes l).length + (c.utf8Size - 1) + 1 := by
      rw [bytes_cons, List.length_append, String.length_utf8EncodeChar]
      have := c.utf8Size_pos
      omega
    have hpos := c.utf8Size_pos
    rw [hsize, List.cons_append, sliceTo, if_pos (by omega),
      show (bytes l).length + (c.utf8Size - 1) + 1 - c.utf8Size = (bytes l).length by omega, ih]
    rfl

/-- An ASCII character is one byte; the bytes of any other are not ASCII. -/
theorem encode_cases (c : Char) :
    (c.toNat < 128 ∧ String.utf8EncodeChar c = [UInt8.ofNat c.toNat]) ∨
    (128 ≤ c.toNat ∧ String.utf8EncodeChar c ≠ [] ∧
      ∀ b ∈ String.utf8EncodeChar c, 128 ≤ b.toNat) := by
  have hval : c.val.toNat = c.toNat := rfl
  by_cases hascii : c.toNat < 128
  · refine .inl ⟨hascii, ?_⟩
    unfold String.utf8EncodeChar
    simp only [hval]
    rw [if_pos (by omega)]
  · refine .inr ⟨by omega, String.utf8EncodeChar_ne_nil, ?_⟩
    unfold String.utf8EncodeChar
    simp only [hval]
    rw [if_neg (by omega)]
    split
    · simp only [List.mem_cons, List.not_mem_nil, or_false, forall_eq_or_imp, forall_eq,
        UInt8.toNat_ofNat']
      omega
    · split
      · simp only [List.mem_cons, List.not_mem_nil, or_false, forall_eq_or_imp, forall_eq,
          UInt8.toNat_ofNat']
        omega
      · simp only [List.mem_cons, List.not_mem_nil, or_false, forall_eq_or_imp, forall_eq,
          UInt8.toNat_ofNat']
        omega

/-- The test `p` of bytes is the test `q` of characters, and ASCII only. -/
structure Tests (p : UInt8 → Bool) (q : Char → Bool) : Prop where
  ascii : ∀ c : Char, c.toNat < 128 → p (UInt8.ofNat c.toNat) = q c
  byte : ∀ b : UInt8, 128 ≤ b.toNat → p b = false
  char : ∀ c : Char, 128 ≤ c.toNat → q c = false

variable {p : UInt8 → Bool} {q : Char → Bool}

theorem tests_of_ascii (h : ∀ n < 128, p (UInt8.ofNat n) = q (Char.ofNat n))
    (hbyte : ∀ b : UInt8, 128 ≤ b.toNat → p b = false)
    (hchar : ∀ c : Char, 128 ≤ c.toNat → q c = false) : Tests p q where
  ascii c hc := by rw [h c.toNat hc, Char.ofNat_toNat]
  byte := hbyte
  char := hchar

/-- A character that passes is one byte, which passes; one that fails ends with a byte that fails. -/
theorem Tests.cases (h : Tests p q) (c : Char) :
    (q c = true ∧ c.toNat < 128 ∧ String.utf8EncodeChar c = [UInt8.ofNat c.toNat] ∧
      p (UInt8.ofNat c.toNat) = true) ∨
    (q c = false ∧ ∃ init b, String.utf8EncodeChar c = init ++ [b] ∧ p b = false) := by
  rcases encode_cases c with ⟨hascii, hbytes⟩ | ⟨hhigh, hne, hbytes⟩
  · rw [h.ascii c hascii]
    cases hq : q c with
    | true => exact .inl ⟨rfl, hascii, hbytes, rfl⟩
    | false => exact .inr ⟨rfl, [], _, hbytes, (h.ascii c hascii).trans hq⟩
  · have hlast := List.dropLast_concat_getLast hne
    exact .inr ⟨h.char c hhigh, _, _, hlast.symm, h.byte _ (hbytes _ (List.getLast_mem hne))⟩

theorem Tests.all_bytes (h : Tests p q) (l : List Char) : (bytes l).all p = l.all q := by
  induction l with
  | nil => rfl
  | cons c l ih =>
    rw [bytes_cons, List.all_append, ih, List.all_cons]
    rcases h.cases c with ⟨hq, -, hbytes, hp⟩ | ⟨hq, init, b, hbytes, hp⟩
    · simp [hbytes, hp, hq]
    · simp [hbytes, hp, hq]

/-- From the right, a test takes as many bytes as characters. -/
theorem Tests.length_takeWhile_reverse (h : Tests p q) (l : List Char) :
    ((bytes l).reverse.takeWhile p).length = (l.reverse.takeWhile q).length := by
  induction l using List.reverseRecOn with
  | nil => rfl
  | append_singleton l c ih =>
    rw [bytes_append, bytes_cons, bytes_nil, List.append_nil, List.reverse_append,
      List.reverse_append, List.reverse_singleton, List.singleton_append]
    rcases h.cases c with ⟨hq, -, hbytes, hp⟩ | ⟨hq, init, b, hbytes, hp⟩
    · rw [hbytes, List.takeWhile_cons_of_pos hq]
      simpa [List.takeWhile_cons, hp] using ih
    · rw [hbytes]
      simp [hp, hq]

/-- Characters that pass a test are bytes one for one. -/
theorem Tests.length_bytes (h : Tests p q) {l : List Char} (hall : ∀ c ∈ l, q c = true) :
    (bytes l).length = l.length := by
  induction l with
  | nil => rfl
  | cons c l ih =>
    rcases h.cases c with ⟨-, -, hbytes, -⟩ | ⟨hq, -⟩
    · rw [bytes_cons, hbytes, List.length_append, ih fun d hd => hall d (by simp [hd])]
      simp [Nat.add_comm]
    · rw [hall c (by simp)] at hq
      cases hq

end RithmicNt.Lib.Utf8
