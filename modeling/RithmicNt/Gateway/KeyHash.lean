import Mathlib.Data.Int.ModEq
import Mathlib.Data.Nat.ModEq
import Mathlib.Tactic.LinearCombination
import Mathlib.Tactic.Ring
import RithmicNt.Exec.Text

/-! The hash of a login, FNV-1a over the text `user|system|url|env`, in the two languages.  They
compute the same word from the same text, and the three environments give three different words, also
in the lower 32 bits that name a shortened socket. -/

namespace RithmicNt.Gateway.KeyHash

open RithmicNt.Exec

/-- The four texts that a login is known by. -/
structure Login where
  user : String
  systemName : String
  url : String
  env : String
  deriving DecidableEq, Repr

def utf8 (s : String) : List UInt8 := s.toList.flatMap String.utf8EncodeChar

/-- The text that is hashed. -/
def keyText (l : Login) (env : String) : String :=
  l.user ++ "|" ++ l.systemName ++ "|" ++ l.url ++ "|" ++ env

/-! ### Rust -/

/-- `str::to_ascii_lowercase`. -/
def toAsciiLowercase (s : String) : String := String.ofList (s.toList.map Char.toLower)

/-- The environment in `credential_key_hash`. -/
def rustEnv (env : String) : String :=
  let key := toAsciiLowercase env
  if key = "demo" ∨ key = "development" then "demo"
  else if key = "test" then "test"
  else "live"

def rustByte (hash : UInt64) (b : UInt8) : UInt64 := (hash ^^^ b.toUInt64) * 0x100000001b3

def credentialKeyHash (l : Login) : UInt64 :=
  (utf8 (keyText l (rustEnv l.env))).foldl rustByte 0xcbf29ce484222325

/-! ### Python -/

/-- `str.lower`, by the table `lower` of full lowercase mappings.  The rule for a final sigma is left
out: no name of an environment has one. -/
def pyLower (lower : Char → List Char) (s : String) : String :=
  String.ofList (s.toList.flatMap lower)

/-- The mapping of the ASCII letters. -/
def asciiLower (c : Char) : List Char := [c.toLower]

def canonEnv (lower : Char → List Char) (env : String) : String :=
  let key := pyLower lower (strip env)
  if key = "live" ∨ key = "production" then "live"
  else if key = "demo" ∨ key = "development" then "demo"
  else if key = "test" then "test"
  else "live"

def pyByte (h : Nat) (b : UInt8) : Nat :=
  ((h ^^^ b.toNat) * 0x100000001B3) &&& 0xFFFFFFFFFFFFFFFF

/-- The hash in `default_unix_path`. -/
def pyHash (lower : Char → List Char) (l : Login) : Nat :=
  (utf8 (keyText l (canonEnv lower l.env))).foldl pyByte 0xCBF29CE484222325

/-! ### The same word -/

theorem pyByte_toNat (hash : UInt64) (b : UInt8) :
    pyByte hash.toNat b = (rustByte hash b).toNat := by
  rw [pyByte, rustByte, UInt64.toNat_mul, UInt64.toNat_xor,
    show (0xFFFFFFFFFFFFFFFF : Nat) = 2 ^ 64 - 1 from rfl, Nat.and_two_pow_sub_one_eq_mod]
  simp

theorem foldl_pyByte (bytes : List UInt8) (hash : UInt64) :
    bytes.foldl pyByte hash.toNat = (bytes.foldl rustByte hash).toNat := by
  induction bytes generalizing hash with
  | nil => rfl
  | cons b bytes ih => rw [List.foldl_cons, pyByte_toNat, ih, List.foldl_cons]

/-- Where both languages read one environment, they compute one hash. -/
theorem pyHash_eq {lower : Char → List Char} {l : Login}
    (h : canonEnv lower l.env = rustEnv l.env) : pyHash lower l = (credentialKeyHash l).toNat := by
  rw [pyHash, h, credentialKeyHash, ← foldl_pyByte]
  rfl

/-! ### Three environments -/

/-- One byte, in the lower 32 bits: the prime is 435 there. -/
def lowByte (s b : Nat) : Nat := (s ^^^ b) * 435 % 2 ^ 32

theorem pyByte_mod (h : Nat) (b : UInt8) : pyByte h b % 2 ^ 32 = lowByte (h % 2 ^ 32) b.toNat := by
  rw [pyByte, lowByte, show (0xFFFFFFFFFFFFFFFF : Nat) = 2 ^ 64 - 1 from rfl,
    Nat.and_two_pow_sub_one_eq_mod, Nat.mod_mod_of_dvd _ (by decide), Nat.mul_mod,
    Nat.xor_mod_two_pow, Nat.mod_eq_of_lt (a := b.toNat) (by have := b.toNat_lt; omega),
    show (0x100000001B3 : Nat) % 2 ^ 32 = 435 from rfl]

theorem foldl_pyByte_mod (bytes : List UInt8) (h : Nat) : bytes.foldl pyByte h % 2 ^ 32 =
    (bytes.map UInt8.toNat).foldl lowByte (h % 2 ^ 32) := by
  induction bytes generalizing h with
  | nil => rfl
  | cons b bytes ih =>
    rw [List.foldl_cons, ih, pyByte_mod, List.map_cons, List.foldl_cons]

/-- A byte of an ASCII letter changes the lower seven bits. -/
theorem xor_div_128 {s b : Nat} (hb : b < 128) : (s ^^^ b) / 128 = s / 128 := by
  rw [show 128 = 2 ^ 7 from rfl, Nat.xor_div_two_pow, Nat.div_eq_of_lt (a := b) hb, Nat.xor_zero]

theorem lowByte_lt (s b : Nat) : lowByte s b < 2 ^ 32 := Nat.mod_lt _ (by decide)

theorem lowByte_eq (s b : Nat) : ∃ k : Int, (lowByte s b : Int) = 435 * (s ^^^ b : Nat) - 2 ^ 32 * k := by
  refine ⟨((s ^^^ b) * 435 / 2 ^ 32 : Nat), ?_⟩
  rw [lowByte]
  omega

/-- The lower 32 bits after three letters: each letter after the first moves the word by less than 128,
and the prime multiplies it. -/
theorem foldl_lowByte_three {a₂ a₃ : Nat} (s a₁ : Nat) (ha₂ : a₂ < 128) (ha₃ : a₃ < 128) :
    ∃ p₂ p₃ k : Int, (-128 < p₂ ∧ p₂ < 128) ∧ (-128 < p₃ ∧ p₃ < 128) ∧
      (([a₁, a₂, a₃].foldl lowByte s : Nat) : Int) =
        435 * (435 * (435 * (s ^^^ a₁ : Nat) + p₂) + p₃) - 2 ^ 32 * k := by
  simp only [List.foldl_cons, List.foldl_nil]
  obtain ⟨k₁, hk₁⟩ := lowByte_eq s a₁
  obtain ⟨k₂, hk₂⟩ := lowByte_eq (lowByte s a₁) a₂
  obtain ⟨k₃, hk₃⟩ := lowByte_eq (lowByte (lowByte s a₁) a₂) a₃
  have h₂ := xor_div_128 (s := lowByte s a₁) ha₂
  have h₃ := xor_div_128 (s := lowByte (lowByte s a₁) a₂) ha₃
  refine ⟨(lowByte s a₁ ^^^ a₂ : Nat) - lowByte s a₁,
    (lowByte (lowByte s a₁) a₂ ^^^ a₃ : Nat) - lowByte (lowByte s a₁) a₂,
    435 * (435 * k₁) + 435 * k₂ + k₃, by omega, by omega, ?_⟩
  linear_combination 435 * 435 * hk₁ + 435 * hk₂ + hk₃

/-- The prime is odd: a byte loses nothing of the lower 32 bits. -/
theorem xor_eq_of_lowByte_eq {x y a b : Nat} (hx : x < 2 ^ 32) (hy : y < 2 ^ 32) (ha : a < 128)
    (hb : b < 128) (h : lowByte x a = lowByte y b) : x ^^^ a = y ^^^ b := by
  have hmod : (x ^^^ a) * 435 ≡ (y ^^^ b) * 435 [MOD 2 ^ 32] := h
  have hcancel := Nat.ModEq.cancel_right_of_coprime (by decide) hmod
  have hxlt : x ^^^ a < 2 ^ 32 := Nat.xor_lt_two_pow hx (by omega)
  have hylt : y ^^^ b < 2 ^ 32 := Nat.xor_lt_two_pow hy (by omega)
  exact hcancel.eq_of_lt_of_lt hxlt hylt

/-- A small multiple of the prime is no small number, also modulo 2 ^ 32. -/
theorem eq_zero_of_multiple {d t k : Int} (hd : -128 < d ∧ d < 128)
    (ht : -5976720 < t ∧ t < 5976720) (h : d = 435 * t - 2 ^ 32 * k) : d = 0 := by
  have hk : k = 0 := by omega
  omega

/-- A difference of the first letters grows to less than 2 ^ 32 and stays a multiple of the prime. -/
theorem eq_of_grown {x y u v : Nat} {p₂ p₃ q₂ q₃ k l : Int} (hp₂ : -128 < p₂ ∧ p₂ < 128)
    (hp₃ : -128 < p₃ ∧ p₃ < 128) (hq₂ : -128 < q₂ ∧ q₂ < 128) (hq₃ : -128 < q₃ ∧ q₃ < 128)
    (huv : u / 32 = v / 32) (hx : (x : Int) = 435 * (435 * (435 * u + p₂) + p₃) - 2 ^ 32 * k)
    (hy : (y : Int) = 435 * (435 * (435 * v + q₂) + q₃) - 2 ^ 32 * l) (hnear : x / 128 = y / 128) :
    x = y := by
  have hdiff : (x : Int) - y =
      435 * (435 * (435 * ((u : Int) - v) + (p₂ - q₂)) + (p₃ - q₃)) - 2 ^ 32 * (k - l) := by
    rw [hx, hy]
    ring
  clear hx hy
  have hsmall : -32 < (u : Int) - v ∧ (u : Int) - v < 32 := by omega
  have hnear : -128 < (x : Int) - y ∧ (x : Int) - y < 128 := by omega
  have hgrown : -5976720 < 435 * (435 * ((u : Int) - v) + (p₂ - q₂)) + (p₃ - q₃) ∧
      435 * (435 * ((u : Int) - v) + (p₂ - q₂)) + (p₃ - q₃) < 5976720 := by
    clear hdiff hnear huv
    omega
  have hzero := eq_zero_of_multiple hnear hgrown hdiff
  clear hdiff
  omega

/-- Two words of four letters that differ in the last one, and not much in the first, lead to
different lower 32 bits: the last letter cannot make up for the first. -/
theorem foldl_lowByte_ne {a₁ a₂ a₃ a₄ b₁ b₂ b₃ b₄ : Nat} (s : Nat) (ha₂ : a₂ < 128) (ha₃ : a₃ < 128)
    (ha₄ : a₄ < 128) (hb₂ : b₂ < 128) (hb₃ : b₃ < 128) (hb₄ : b₄ < 128) (hfirst : a₁ / 32 = b₁ / 32)
    (hlast : a₄ ≠ b₄) :
    lowByte ([a₁, a₂, a₃].foldl lowByte s) a₄ ≠ lowByte ([b₁, b₂, b₃].foldl lowByte s) b₄ := by
  have hstart : (s ^^^ a₁) / 32 = (s ^^^ b₁) / 32 := by
    rw [show 32 = 2 ^ 5 from rfl, Nat.xor_div_two_pow, Nat.xor_div_two_pow]
    exact congrArg (s / 2 ^ 5 ^^^ ·) hfirst
  obtain ⟨p₂, p₃, k, hp₂, hp₃, hx⟩ := foldl_lowByte_three s a₁ ha₂ ha₃
  obtain ⟨q₂, q₃, l, hq₂, hq₃, hy⟩ := foldl_lowByte_three s b₁ hb₂ hb₃
  have hxlt : [a₁, a₂, a₃].foldl lowByte s < 2 ^ 32 := lowByte_lt _ a₃
  have hylt : [b₁, b₂, b₃].foldl lowByte s < 2 ^ 32 := lowByte_lt _ b₃
  generalize [a₁, a₂, a₃].foldl lowByte s = x at hx hxlt
  generalize [b₁, b₂, b₃].foldl lowByte s = y at hy hylt
  intro h
  have hxor := xor_eq_of_lowByte_eq hxlt hylt ha₄ hb₄ h
  have hnear : x / 128 = y / 128 := by
    rw [← xor_div_128 ha₄, hxor, xor_div_128 hb₄]
  obtain rfl := eq_of_grown hp₂ hp₃ hq₂ hq₃ hstart hx hy hnear
  have hcancel := congrArg (x ^^^ ·) hxor
  simp only [← Nat.xor_assoc, Nat.xor_self, Nat.zero_xor] at hcancel
  exact hlast hcancel

@[simp] theorem utf8_append (s t : String) : utf8 (s ++ t) = utf8 s ++ utf8 t := by
  simp [utf8]

/-- The names of the environments, and their letters. -/
def envWords : List (String × List UInt8) :=
  [("live", [108, 105, 118, 101]), ("demo", [100, 101, 109, 111]), ("test", [116, 101, 115, 116])]

theorem utf8_of_mem_envWords {w : String × List UInt8} (h : w ∈ envWords) : utf8 w.1 = w.2 := by
  simp only [envWords, List.mem_cons, List.not_mem_nil, or_false] at h
  obtain rfl | rfl | rfl := h <;> decide

theorem canonEnv_mem (lower : Char → List Char) (env : String) :
    canonEnv lower env ∈ envWords.map Prod.fst := by
  simp only [canonEnv]
  split
  · simp [envWords]
  · split
    · simp [envWords]
    · split <;> simp [envWords]

theorem rustEnv_mem (env : String) : rustEnv env ∈ envWords.map Prod.fst := by
  simp only [rustEnv]
  split
  · simp [envWords]
  · split <;> simp [envWords]

/-- Two environments after one text: the same lower 32 bits come from the same environment. -/
theorem eq_of_low_eq {w w' : String × List UInt8} (hw : w ∈ envWords) (hw' : w' ∈ envWords) {h : Nat}
    (heq : w.2.foldl pyByte h % 2 ^ 32 = w'.2.foldl pyByte h % 2 ^ 32) : w = w' := by
  rw [foldl_pyByte_mod, foldl_pyByte_mod] at heq
  by_contra hne
  revert heq
  simp only [envWords, List.mem_cons, List.not_mem_nil, or_false] at hw hw'
  obtain rfl | rfl | rfl := hw <;> obtain rfl | rfl | rfl := hw' <;> first
    | exact absurd rfl hne
    | exact foldl_lowByte_ne _ (by decide) (by decide) (by decide) (by decide) (by decide)
        (by decide) (by decide) (by decide)

/-- The lower 32 bits of the two hashes agree where both languages read one environment. -/
theorem env_eq_of_low_eq {lower : Char → List Char} {l : Login}
    (h : pyHash lower l % 2 ^ 32 = (credentialKeyHash l).toNat % 2 ^ 32) :
    canonEnv lower l.env = rustEnv l.env := by
  obtain ⟨w, hw, hpy⟩ := List.mem_map.mp (canonEnv_mem lower l.env)
  obtain ⟨w', hw', hrust⟩ := List.mem_map.mp (rustEnv_mem l.env)
  rw [credentialKeyHash, ← foldl_pyByte] at h
  simp only [pyHash, keyText, utf8_append, List.foldl_append, ← hpy, ← hrust,
    utf8_of_mem_envWords hw, utf8_of_mem_envWords hw'] at h
  rw [← hpy, ← hrust, eq_of_low_eq hw hw' h]

end RithmicNt.Gateway.KeyHash
