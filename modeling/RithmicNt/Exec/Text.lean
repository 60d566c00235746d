import Mathlib.Data.List.TakeWhile

/-! Text as the two languages of the adapter read it: `str::trim` and `str::to_uppercase` of the
Rust crates, `str.strip` of the Python code.  Python counts four more characters as blank. -/

namespace RithmicNt.Exec

/-- The `White_Space` characters of Unicode, which `char::is_whitespace` accepts. -/
def isWhite (c : Char) : Bool :=
  let n := c.toNat
  (0x09 ≤ n && n ≤ 0x0D) || n == 0x20 || n == 0x85 || n == 0xA0 || n == 0x1680 ||
    (0x2000 ≤ n && n ≤ 0x200A) || n == 0x2028 || n == 0x2029 || n == 0x202F || n == 0x205F ||
    n == 0x3000

/-- The characters that `str.isspace` accepts: also the four information separators. -/
def isSpace (c : Char) : Bool :=
  isWhite c || (0x1C ≤ c.toNat && c.toNat ≤ 0x1F)

/-- A text without the characters of `p` at its two ends. -/
def trimList (p : Char → Bool) (l : List Char) : List Char :=
  ((l.dropWhile p).reverse.dropWhile p).reverse

def trimWith (p : Char → Bool) (s : String) : String := String.ofList (trimList p s.toList)

def trim (s : String) : String := trimWith isWhite s

def strip (s : String) : String := trimWith isSpace s

/-- `str::to_uppercase`, by the table `upper` of full uppercase mappings. -/
def toUppercase (upper : Char → List Char) (s : String) : String :=
  String.ofList (s.toList.flatMap upper)

/-- The mapping of the ASCII letters. -/
def asciiUpper (c : Char) : List Char := [c.toUpper]

variable {p q : Char → Bool}

theorem dropWhile_append_of_all {a : List Char} (ha : ∀ c ∈ a, p c = true) (l : List Char) :
    (a ++ l).dropWhile p = l.dropWhile p := by
  induction a with
  | nil => rfl
  | cons c a ih =>
    rw [List.cons_append, List.dropWhile_cons_of_pos (ha c (by simp))]
    exact ih fun c hc => ha c (by simp [hc])

theorem trimList_pad {a b : List Char} (ha : ∀ c ∈ a, p c = true) (hb : ∀ c ∈ b, p c = true)
    (m : List Char) : trimList p (a ++ (m ++ b)) = trimList p m := by
  unfold trimList
  rw [dropWhile_append_of_all ha, List.dropWhile_append]
  split
  · next hm =>
    have hnil : b.dropWhile p = [] := by simpa using dropWhile_append_of_all hb []
    rw [hnil, List.isEmpty_iff.mp hm]
  · rw [List.reverse_append, dropWhile_append_of_all (by simpa using hb)]

theorem trimList_split (p : Char → Bool) (l : List Char) : ∃ a b, l = a ++ (trimList p l ++ b) ∧
    (∀ c ∈ a, p c = true) ∧ ∀ c ∈ b, p c = true := by
  refine ⟨l.takeWhile p, ((l.dropWhile p).reverse.takeWhile p).reverse, ?_, ?_, ?_⟩
  · rw [trimList, ← List.reverse_append, List.takeWhile_append_dropWhile, List.reverse_reverse,
      List.takeWhile_append_dropWhile]
  · exact fun c hc => List.mem_takeWhile_imp hc
  · exact fun c hc => List.mem_takeWhile_imp (List.mem_reverse.mp hc)

theorem trimList_trimList (h : ∀ c, q c = true → p c = true) (l : List Char) :
    trimList p (trimList q l) = trimList p l := by
  obtain ⟨a, b, hl, ha, hb⟩ := trimList_split q l
  have hpad := trimList_pad (fun c hc => h c (ha c hc)) (fun c hc => h c (hb c hc)) (trimList q l)
  rw [← hl] at hpad
  exact hpad.symm

theorem trimList_eq_self {l : List Char} (hfirst : ∀ c ∈ l.head?, p c = false)
    (hlast : ∀ c ∈ l.getLast?, p c = false) : trimList p l = l := by
  have hdrop : ∀ m : List Char, (∀ c ∈ m.head?, p c = false) → m.dropWhile p = m := by
    intro m hm
    cases m with
    | nil => rfl
    | cons c m => exact List.dropWhile_cons_of_neg (by simp [hm c rfl])
  unfold trimList
  rw [hdrop l hfirst, hdrop l.reverse (by rwa [List.head?_reverse]), List.reverse_reverse]

theorem head?_dropWhile (l : List Char) : ∀ c ∈ (l.dropWhile p).head?, p c = false := by
  intro c hc
  have h := List.head?_dropWhile_not p l
  rw [Option.mem_def.mp hc] at h
  exact h

theorem head?_trimList (l : List Char) : ∀ c ∈ (trimList p l).head?, p c = false := by
  intro c hc
  obtain ⟨blank, hsplit⟩ : trimList p l <+: l.dropWhile p := by
    rw [← List.reverse_suffix, trimList, List.reverse_reverse]
    exact List.dropWhile_suffix p
  apply head?_dropWhile l c
  rw [← hsplit, List.head?_append, Option.mem_def.mp hc]
  rfl

theorem trim_eq_self {s : String} (hfirst : ∀ c ∈ s.toList.head?, isWhite c = false)
    (hlast : ∀ c ∈ s.toList.getLast?, isWhite c = false) : trim s = s := by
  rw [trim, trimWith, trimList_eq_self hfirst hlast, String.ofList_toList]

theorem head?_trim (s : String) : ∀ c ∈ (trim s).toList.head?, isWhite c = false := by
  rw [trim, trimWith, String.toList_ofList]
  exact head?_trimList s.toList

theorem trim_trim (s : String) : trim (trim s) = trim s := by
  simp only [trim, trimWith, String.toList_ofList, trimList_trimList fun _ h => h]

@[simp] theorem strip_trim (s : String) : strip (trim s) = strip s := by
  have h : ∀ c, isWhite c = true → isSpace c = true := by
    intro c hc
    simp [isSpace, hc]
  simp [strip, trim, trimWith, trimList_trimList h]

/-! ### Upper casing -/

/-- What Unicode's upper casingdoes to a text.  A table that meets it may still make one character
several. -/
structure Casing (upper : Char → List Char) : Prop where
  idem : ∀ s, toUppercase upper (toUppercase upper s) = toUppercase upper s
  filled : ∀ c, upper c ≠ []
  trimmed : ∀ s, trim s = s → trim (toUppercase upper s) = toUppercase upper s

theorem toNat_toUpper (c : Char) :
    c.toUpper.toNat = if 97 ≤ c.toNat ∧ c.toNat ≤ 122 then c.toNat - 32 else c.toNat := by
  unfold Char.toUpper
  split
  · next h =>
    have h : 97 ≤ c.toNat ∧ c.toNat ≤ 122 := h
    rw [if_pos h]
    show (c.val + (65 - 97)).toNat = _
    rw [UInt32.toNat_add]
    show (c.toNat + 4294967264) % 4294967296 = _
    omega
  · next h =>
    have h : ¬ (97 ≤ c.toNat ∧ c.toNat ≤ 122) := h
    rw [if_neg h]

theorem toUpper_toUpper (c : Char) : c.toUpper.toUpper = c.toUpper := by
  apply Char.toNat_inj.mp
  rw [toNat_toUpper c.toUpper, toNat_toUpper c]
  by_cases h : 97 ≤ c.toNat ∧ c.toNat ≤ 122
  · rw [if_pos h, if_neg (by omega)]
  · rw [if_neg h, if_neg h]

theorem isWhite_toUpper (c : Char) : isWhite c.toUpper = isWhite c := by
  unfold isWhite
  simp only [toNat_toUpper]
  split
  · next h =>
    rw [Bool.eq_iff_iff]
    simp only [Bool.or_eq_true, Bool.and_eq_true, decide_eq_true_eq, beq_iff_eq]
    omega
  · rfl

theorem toUppercase_asciiUpper (s : String) :
    (toUppercase asciiUpper s).toList = s.toList.map Char.toUpper := by
  rw [toUppercase, String.toList_ofList]
  exact List.map_eq_flatMap.symm

theorem casing_asciiUpper : Casing asciiUpper where
  idem s := by
    apply String.toList_inj.mp
    simp only [toUppercase_asciiUpper, List.map_map]
    congr 1
    funext c
    exact toUpper_toUpper c
  filled c := by simp [asciiUpper]
  trimmed s hs := by
    have hdrop : ∀ l : List Char, (l.map Char.toUpper).dropWhile isWhite =
        (l.dropWhile isWhite).map Char.toUpper := by
      intro l
      rw [List.dropWhile_map]
      congr 2
      funext c
      exact isWhite_toUpper c
    apply String.toList_inj.mp
    have hs := congrArg String.toList hs
    simp only [trim, trimWith, trimList, String.toList_ofList] at hs ⊢
    rw [toUppercase_asciiUpper, hdrop, ← List.map_reverse, hdrop, ← List.map_reverse, hs]

/-! ### Printed numbers -/

theorem notMem_repr {c : Char} (hc : c.isDigit = false) (n : Nat) : c ∉ (Nat.repr n).toList := by
  rw [Nat.toList_repr]
  intro h
  have hdigit := Nat.isDigit_of_mem_toDigits (by decide) (by decide) h
  rw [hc] at hdigit
  cases hdigit

theorem repr_injective {m n : Nat} (h : Nat.repr m = Nat.repr n) : m = n := by
  have hdigits : Nat.toDigits 10 m = Nat.toDigits 10 n := by
    rw [← Nat.toList_repr, ← Nat.toList_repr, h]
  rw [← Nat.ofDigitChars_ten_toDigits (n := m), hdigits, Nat.ofDigitChars_ten_toDigits]

end RithmicNt.Exec
