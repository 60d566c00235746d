import Mathlib.Data.List.Basic
import RithmicNt.Exec.Exposure
import RithmicNt.Lib.Utf8

/-! Product roots by their grammar.  The Rust crates scan the UTF-8 bytes of a symbol from the right; the
scan sees ASCII only, so it never cuts a character in two and finds what the grammar says. -/

namespace RithmicNt.Exec

open RithmicNt.Lib

def isDigitByte (b : UInt8) : Bool := 48 ≤ b.toNat && b.toNat ≤ 57

def isUpperByte (b : UInt8) : Bool := 65 ≤ b.toNat && b.toNat ≤ 90

section

variable (upper : Char → List Char)

/-- `product_root` on the bytes of the text; `none` where its slice would cut a character in two. -/
def productRootBytes (symbol : String) : Option String :=
  let sym := toUppercase upper (trim symbol)
  let bytes := Utf8.bytes sym.toList
  let digits := (bytes.reverse.takeWhile isDigitByte).length
  if 1 ≤ digits ∧ digits ≤ 2 ∧ bytes.length ≥ digits + 2 then
    let letterAt := bytes.length - digits - 1
    let root := bytes.take letterAt
    if (Utf8.bytes monthCodes).contains (bytes.getD letterAt 0) ∧
        root.all fun b => isUpperByte b || isDigitByte b then
      (Utf8.sliceTo sym.toList letterAt).map String.ofList
    else some sym
  else some sym

/-- Whether `symbol` names one listed contract rather than a product root. -/
def isListedContract (symbol : String) : Bool :=
  productRoot upper symbol ≠ toUppercase upper (trim symbol)

end

/-- A contract symbol: its root, a month letter and a year of one or two digits. -/
structure Contract (text root : List Char) : Prop where
  parts : ∃ letter year, text = root ++ letter :: year ∧ letter ∈ monthCodes ∧
    (year.length = 1 ∨ year.length = 2) ∧ ∀ c ∈ year, c.isDigit = true
  nonempty : root ≠ []
  plain : ∀ c ∈ root, isAsciiUpperOrDigit c = true

theorem not_isDigit_of_month : ∀ letter ∈ monthCodes, letter.isDigit = false := by
  simp [monthCodes]

/-! ### The scan over characters -/

variable {upper : Char → List Char} {symbol : String} {front digits : List Char}

/-- A text with the digits that it ends with apart. -/
theorem split_digits (l : List Char) : ∃ front digits, l = front ++ digits ∧
    l.reverse.takeWhile Char.isDigit = digits.reverse ∧ ∀ c ∈ digits, c.isDigit = true := by
  refine ⟨(l.reverse.dropWhile Char.isDigit).reverse, (l.reverse.takeWhile Char.isDigit).reverse,
    ?_, ?_, ?_⟩
  · rw [← List.reverse_append, List.takeWhile_append_dropWhile, List.reverse_reverse]
  · rw [List.reverse_reverse]
  · exact fun c hc => List.mem_takeWhile_imp (List.mem_reverse.mp hc)

theorem productRoot_eq (htext : (toUppercase upper (trim symbol)).toList = front ++ digits)
    (hdigits : (toUppercase upper (trim symbol)).toList.reverse.takeWhile Char.isDigit =
      digits.reverse) :
    productRoot upper symbol = match front.reverse with
      | letter :: root =>
        if (digits.length = 1 ∨ digits.length = 2) ∧ root ≠ [] ∧ letter ∈ monthCodes ∧
          root.all isAsciiUpperOrDigit
        then String.ofList root.reverse
        else toUppercase upper (trim symbol)
      | [] => toUppercase upper (trim symbol) := by
  have hdrop : (toUppercase upper (trim symbol)).toList.reverse.drop digits.length =
      front.reverse := by
    rw [htext, List.reverse_append, ← List.length_reverse, List.drop_left]
  unfold productRoot
  cases hfront : front.reverse with
  | nil => simp only [hdigits, List.length_reverse, hdrop, hfront]
  | cons letter root => simp only [hdigits, List.length_reverse, hdrop, hfront]

theorem productRoot_of_contract {root : List Char}
    (h : Contract (toUppercase upper (trim symbol)).toList root) :
    productRoot upper symbol = String.ofList root := by
  obtain ⟨⟨letter, year, htext, hletter, hlength, hyear⟩, hne, hplain⟩ := h
  have hdigits : (toUppercase upper (trim symbol)).toList.reverse.takeWhile Char.isDigit =
      year.reverse := by
    have hall : ∀ c ∈ year.reverse, c.isDigit = true := fun c hc => hyear c (List.mem_reverse.mp hc)
    have hletter := not_isDigit_of_month letter hletter
    rw [htext, List.reverse_append, List.reverse_cons, List.append_assoc,
      List.takeWhile_append_of_pos hall, List.singleton_append,
      List.takeWhile_cons_of_neg (by simp [hletter]), List.append_nil]
  have htext : (toUppercase upper (trim symbol)).toList = (root ++ [letter]) ++ year := by
    rw [htext]
    simp
  rw [productRoot_eq htext hdigits, List.reverse_append, List.reverse_singleton,
    List.singleton_append]
  simp only
  rw [if_pos ⟨hlength, by simpa using hne, hletter, by simpa using hplain⟩, List.reverse_reverse]

/-- What a text that is no contract gives. -/
theorem productRoot_cases (upper : Char → List Char) (symbol : String) :
    (∃ root, Contract (toUppercase upper (trim symbol)).toList root) ∨
      productRoot upper symbol = toUppercase upper (trim symbol) := by
  obtain ⟨front, digits, htext, htake, hdigits⟩ :=
    split_digits (toUppercase upper (trim symbol)).toList
  rw [productRoot_eq htext htake]
  cases hfront : front.reverse with
  | nil => exact .inr rfl
  | cons letter root =>
    have hfront : front = root.reverse ++ [letter] := by
      rw [← List.reverse_reverse front, hfront, List.reverse_cons]
    by_cases hparts : (digits.length = 1 ∨ digits.length = 2) ∧ root ≠ [] ∧ letter ∈ monthCodes ∧
        root.all isAsciiUpperOrDigit = true
    · obtain ⟨hlength, hne, hletter, hplain⟩ := hparts
      refine .inl ⟨root.reverse, ⟨letter, digits, ?_, hletter, hlength, hdigits⟩, ?_, ?_⟩
      · rw [htext, hfront, List.append_assoc, List.singleton_append]
      · simpa using hne
      · simpa using hplain
    · exact .inr (if_neg hparts)

/-! ### The scan over bytes -/

theorem isUpper_eq (c : Char) : c.isUpper = decide (65 ≤ c.val ∧ c.val ≤ 90) := rfl

theorem tests_digit : Utf8.Tests isDigitByte Char.isDigit := by
  refine Utf8.tests_of_ascii (by decide) (fun b hb => ?_) fun c hc => ?_
  · simp only [isDigitByte, Bool.and_eq_false_iff, decide_eq_false_iff_not]
    omega
  · have hc : ¬ c.toNat ≤ 57 := by omega
    have hc : ¬ c.val ≤ 57 := hc
    simp [Char.isDigit, hc]

theorem tests_plain : Utf8.Tests (fun b => isUpperByte b || isDigitByte b) isAsciiUpperOrDigit := by
  refine Utf8.tests_of_ascii (by decide) (fun b hb => ?_) fun c hc => ?_
  · simp only [isUpperByte, isDigitByte, Bool.or_eq_false_iff, Bool.and_eq_false_iff,
      decide_eq_false_iff_not]
    omega
  · have hdigit : ¬ c.val ≤ 57 := show ¬ c.toNat ≤ 57 by omega
    have hupper : ¬ c.val ≤ 90 := show ¬ c.toNat ≤ 90 by omega
    simp [isAsciiUpperOrDigit, isUpper_eq, Char.isDigit, hdigit, hupper]

theorem tests_month : Utf8.Tests (fun b => (Utf8.bytes monthCodes).contains b)
    (fun c => decide (c ∈ monthCodes)) := by
  refine Utf8.tests_of_ascii (by decide) (fun b hb => ?_) fun c hc => ?_
  · have hbytes : ∀ b ∈ Utf8.bytes monthCodes, b.toNat < 128 := by decide +kernel
    rw [List.contains_eq_mem, decide_eq_false_iff_not]
    intro hmem
    have := hbytes b hmem
    omega
  · have hcodes : ∀ c ∈ monthCodes, c.toNat < 128 := by simp [monthCodes]
    rw [decide_eq_false_iff_not]
    intro hmem
    have := hcodes c hmem
    omega

/-- The scan over bytes cuts between characters, where the scan over characters does. -/
theorem productRootBytes_eq (upper : Char → List Char) (symbol : String) :
    productRootBytes upper symbol = some (productRoot upper symbol) := by
  obtain ⟨front, digits, htext, htake, hdigits⟩ :=
    split_digits (toUppercase upper (trim symbol)).toList
  have hcount : ((Utf8.bytes (toUppercase upper (trim symbol)).toList).reverse.takeWhile
      isDigitByte).length = digits.length := by
    rw [tests_digit.length_takeWhile_reverse, htake, List.length_reverse]
  have hyear := tests_digit.length_bytes hdigits
  rw [productRoot_eq htext htake]
  unfold productRootBytes
  simp only [hcount]
  rw [htext]
  cases front using List.reverseRecOn with
  | nil =>
    rw [List.nil_append, hyear, if_neg (by omega)]
    rfl
  | append_singleton root letter =>
    rw [List.reverse_append, List.reverse_singleton, List.singleton_append]
    simp only
    obtain ⟨before, b, hbytes, hmonth, hroot⟩ : ∃ before b,
        Utf8.bytes (root ++ [letter] ++ digits) = before ++ b :: Utf8.bytes digits ∧
        (Utf8.bytes monthCodes).contains b = decide (letter ∈ monthCodes) ∧
        (letter ∈ monthCodes → before = Utf8.bytes root) := by
      rcases tests_month.cases letter with
        ⟨hletter, -, hbytes, hmonth⟩ | ⟨hletter, pre, b, hbytes, hmonth⟩
      · exact ⟨Utf8.bytes root, UInt8.ofNat letter.toNat, by simp [hbytes], by rw [hmonth, hletter],
          fun _ => rfl⟩
      · refine ⟨Utf8.bytes root ++ pre, b, by simp [hbytes], by rw [hmonth, hletter], fun h => ?_⟩
        exact absurd h (of_decide_eq_false hletter)
    have hlength : (before ++ b :: Utf8.bytes digits).length =
        before.length + 1 + digits.length := by
      rw [List.length_append, List.length_cons, hyear]
      omega
    have hat : before.length + 1 + digits.length - digits.length - 1 = before.length := by omega
    have hb : (before ++ b :: Utf8.bytes digits).getD before.length 0 = b := by simp
    rw [hbytes, hlength, hat, hb, List.take_left, hmonth]
    by_cases hcontract : (digits.length = 1 ∨ digits.length = 2) ∧ root.reverse ≠ [] ∧
        letter ∈ monthCodes ∧ root.reverse.all isAsciiUpperOrDigit = true
    · obtain ⟨hdigits, hne, hletter, hplain⟩ := hcontract
      obtain rfl := hroot hletter
      rw [List.all_reverse] at hplain
      have hlong : 1 ≤ (Utf8.bytes root).length := by
        rw [tests_plain.length_bytes (List.all_eq_true.mp hplain)]
        exact List.length_pos_iff.mpr (by simpa using hne)
      rw [if_pos ⟨by omega, by omega, by omega⟩,
        if_pos ⟨decide_eq_true hletter, by rw [tests_plain.all_bytes, hplain]⟩, List.append_assoc,
        Utf8.sliceTo_append, Option.map_some, if_pos ⟨hdigits, hne, hletter, by rwa [List.all_reverse]⟩,
        List.reverse_reverse]
    · rw [if_neg hcontract]
      split
      · next hlong =>
        split
        · next hmatch =>
          have hletter := of_decide_eq_true hmatch.1
          obtain rfl := hroot hletter
          rw [tests_plain.all_bytes] at hmatch
          refine absurd ⟨by omega, fun h => ?_, hletter, by rw [List.all_reverse, hmatch.2]⟩ hcontract
          rw [List.reverse_eq_nil_iff.mp h] at hlong
          simp at hlong
          omega
        · rfl
      · rfl

/-! ### Contracts and their roots -/

theorem isListedContract_iff (upper : Char → List Char) (symbol : String) :
    isListedContract upper symbol = true ↔
      ∃ root, Contract (toUppercase upper (trim symbol)).toList root := by
  rw [isListedContract, decide_eq_true_iff]
  constructor
  · exact (productRoot_cases upper symbol).resolve_right
  · rintro ⟨root, hroot⟩ hsame
    rw [productRoot_of_contract hroot] at hsame
    obtain ⟨letter, year, htext, -⟩ := hroot.parts
    rw [← hsame, String.toList_ofList] at htext
    have := congrArg List.length htext
    simp at this

/-- A mapping that gives a text back gives back each of its characters. -/
theorem eq_singleton_of_flatMap {l : List Char} (hfilled : ∀ c, upper c ≠ [])
    (h : l.flatMap upper = l) : ∀ c ∈ l, upper c = [c] := by
  have hlong : ∀ l : List Char, l.length ≤ (l.flatMap upper).length := by
    intro l
    induction l with
    | nil => simp
    | cons c l ih =>
      have := List.length_pos_iff.mpr (hfilled c)
      simp only [List.flatMap_cons, List.length_append, List.length_cons]
      omega
  induction l with
  | nil => nofun
  | cons c l ih =>
    rw [List.flatMap_cons] at h
    have hone : (upper c).length = 1 := by
      have hlength := congrArg List.length h
      have := hlong l
      have := List.length_pos_iff.mpr (hfilled c)
      simp only [List.length_append, List.length_cons] at hlength
      omega
    obtain ⟨d, hd⟩ := List.length_eq_one_iff.mp hone
    rw [hd, List.singleton_append] at h
    obtain ⟨rfl, hrest⟩ := List.cons.inj h
    exact List.forall_mem_cons.mpr ⟨hd, ih hrest⟩

theorem upper_of_mem_toUppercase (hupper : Casing upper) {s : String} {c : Char}
    (hc : c ∈ (toUppercase upper s).toList) : upper c = [c] := by
  apply eq_singleton_of_flatMap hupper.filled _ c hc
  have hidem := congrArg String.toList (hupper.idem s)
  rwa [toUppercase, String.toList_ofList] at hidem

theorem isWhite_of_plain {c : Char} (h : isAsciiUpperOrDigit c = true) : isWhite c = false := by
  have hrange : c.toNat ≤ 90 ∧ 48 ≤ c.toNat := by
    simp only [isAsciiUpperOrDigit, isUpper_eq, Char.isDigit, Bool.or_eq_true,
      Bool.and_eq_true, decide_eq_true_eq, ge_iff_le, UInt32.le_iff_toNat_le] at h
    have hval : c.val.toNat = c.toNat := rfl
    simp only [hval] at h
    rcases h with ⟨hlow, hhigh⟩ | ⟨hlow, hhigh⟩
    · exact ⟨hhigh, le_trans (by decide) hlow⟩
    · exact ⟨le_trans hhigh (by decide), hlow⟩
  simp only [isWhite, Bool.or_eq_false_iff, Bool.and_eq_false_iff, decide_eq_false_iff_not,
    beq_eq_false_iff_ne]
  omega

/-- A root is its own trimmed text in upper case. -/
theorem productRoot_fixed (hupper : Casing upper) (symbol : String) :
    toUppercase upper (trim (productRoot upper symbol)) = productRoot upper symbol := by
  rcases productRoot_cases upper symbol with ⟨root, hroot⟩ | hsame
  · rw [productRoot_of_contract hroot]
    have hblank : ∀ c ∈ root, isWhite c = false := fun c hc => isWhite_of_plain (hroot.plain c hc)
    have htrim : trim (String.ofList root) = String.ofList root := by
      rw [trim, trimWith, String.toList_ofList,
        trimList_eq_self (fun c hc => hblank c (List.mem_of_head? hc))
          fun c hc => hblank c (List.mem_of_getLast? hc)]
    have hfixed : ∀ c ∈ root, upper c = [c] := by
      intro c hc
      obtain ⟨letter, year, htext, -⟩ := hroot.parts
      apply upper_of_mem_toUppercase hupper (s := trim symbol)
      rw [htext]
      exact List.mem_append_left _ hc
    rw [htrim, toUppercase, String.toList_ofList, List.flatMap_congr hfixed, List.flatMap_singleton']
  · rw [hsame, hupper.trimmed _ (trim_trim symbol), hupper.idem]

/-- Product roots by their grammar: the scan strips a suffix off a contract symbol and off nothing else,
cuts between characters, and gives every symbol one root. -/
theorem productRoot_grammar (hupper : Casing upper) (symbol : String) :
    productRootBytes upper symbol = some (productRoot upper symbol) ∧
    (∀ root, Contract (toUppercase upper (trim symbol)).toList root →
      productRoot upper symbol = String.ofList root) ∧
    ((¬ ∃ root, Contract (toUppercase upper (trim symbol)).toList root) →
      productRoot upper symbol = toUppercase upper (trim symbol)) ∧
    (isListedContract upper symbol = true ↔
      ∃ root, Contract (toUppercase upper (trim symbol)).toList root) ∧
    (toUppercase upper (trim symbol) ≠ "" → ∃ root, ∀ other,
      matchesRoot upper symbol other = true ↔
        toUppercase upper (trim other) = toUppercase upper (trim root)) := by
  refine ⟨productRootBytes_eq upper symbol, fun root => productRoot_of_contract,
    (productRoot_cases upper symbol).resolve_left, isListedContract_iff upper symbol, fun hne => ?_⟩
  have hroot : productRoot upper symbol ≠ "" := by
    rcases productRoot_cases upper symbol with ⟨root, hroot⟩ | hsame
    · rw [productRoot_of_contract hroot]
      intro hempty
      exact hroot.nonempty (by simpa using congrArg String.toList hempty)
    · rwa [hsame]
  refine ⟨productRoot upper symbol, fun other => ?_⟩
  rw [productRoot_fixed hupper]
  simp only [matchesRoot, Bool.and_eq_true, decide_eq_true_eq, beq_iff_eq]
  constructor
  · exact fun h => h.2.symm
  · exact fun h => ⟨h ▸ hroot, h.symm⟩

theorem productRoot_grammar_mnq : isListedContract asciiUpper " mnqz6 " = true :=
  (productRoot_grammar casing_asciiUpper " mnqz6 ").2.2.2.1.mpr
    ⟨"MNQ".toList, ⟨'Z', ['6'], by decide, by decide, .inl rfl, List.forall_mem_singleton.mpr rfl⟩,
      by decide, List.all_eq_true.mp (by decide)⟩

end RithmicNt.Exec
