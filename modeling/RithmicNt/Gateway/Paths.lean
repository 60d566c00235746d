import Mathlib.Algebra.Order.BigOperators.Group.List
import RithmicNt.Gateway.KeyHash
import RithmicNt.Lib.Segments

/-! The paths of the default socket and of the credential lock, as the Rust crates and the Python
package build them from the environment and a login.  The two name the same files exactly where they
read one environment name, one base directory, and agree on whether the path is too long. -/

namespace RithmicNt.Gateway.Paths

open RithmicNt.Lib RithmicNt.Exec RithmicNt.Gateway.KeyHash

/-- A character of a variable or of a path, or a byte that is no UTF-8. -/
inductive OsChar
  | char (c : Char)
  | byte (b : UInt8)
  deriving DecidableEq, Repr

namespace OsChar

def size : OsChar → Nat
  | char c => c.utf8Size
  | byte _ => 1

def isByte : OsChar → Bool
  | char _ => false
  | byte _ => true

/-- `str.isspace`; the stand-in for a byte is no space. -/
def isBlank : OsChar → Bool
  | char c => isSpace c
  | byte _ => false

end OsChar

abbrev OsText := List OsChar

def text (s : String) : OsText := s.toList.map .char

def slash : OsChar := .char '/'

def dot : OsChar := .char '.'

/-- The length in bytes. -/
def size (t : OsText) : Nat := (t.map OsChar.size).sum

/-- The two variables that are read, and the user. -/
structure Environ where
  xdgRuntimeDir : Option OsText
  tmpdir : Option OsText
  uid : Nat
  deriving DecidableEq, Repr

def unixPathMax : Nat := 103

/-- `rgw-{uid}`. -/
def userDir (uid : Nat) : String := "rgw-" ++ Nat.repr uid

/-- `rgw-{hash}.sock`, and with `.lock`. -/
def fileName (hash : Nat) (suffix : String) : String := "rgw-" ++ Nat.repr hash ++ suffix

/-- `{:08x}` of a 32-bit number. -/
def hex08 (n : Nat) : List Char :=
  [7, 6, 5, 4, 3, 2, 1, 0].map fun i => Nat.digitChar (n / 16 ^ i % 16)

def shortName (low : Nat) (suffix : String) : String := String.ofList (hex08 low) ++ suffix

/-! ### Rust -/

namespace Rust

/-- `Path::join` with a name. -/
def join (base : OsText) (name : String) : OsText :=
  if base = [] ∨ base.getLast? = some slash then base ++ text name else base ++ slash :: text name

def runtimeBaseDir (e : Environ) : OsText :=
  let dir := join (e.tmpdir.getD (text "/tmp")) (userDir e.uid)
  match e.xdgRuntimeDir with
  | some xdg => if xdg ≠ [] then xdg else dir
  | none => dir

/-- `clamp_unix_path`, and the same in `credential_lock_path`. -/
def clamp (uid : Nat) (path : OsText) (hash : UInt64) (suffix : String) : OsText :=
  if size path ≤ unixPathMax then path
  else join (join (text "/tmp") (userDir uid)) (shortName hash.toUInt32.toNat suffix)

def pathOf (e : Environ) (l : Login) (suffix : String) : OsText :=
  join (runtimeBaseDir e) (fileName (credentialKeyHash l).toNat suffix)

def defaultUnixPath (e : Environ) (l : Login) : OsText :=
  clamp e.uid (pathOf e l ".sock") (credentialKeyHash l) ".sock"

def credentialLockPath (e : Environ) (l : Login) : OsText :=
  clamp e.uid (pathOf e l ".lock") (credentialKeyHash l) ".lock"

end Rust

/-! ### Python -/

/-- `pathlib.Path`: the root, which keeps exactly two slashes apart, and the parts. -/
structure PyPath where
  root : OsText
  parts : List OsText
  deriving DecidableEq, Repr

namespace PyPath

def parse (t : OsText) : PyPath where
  root :=
    let leading := (t.takeWhile (· = slash)).length
    if leading = 0 then [] else if leading = 2 then [slash, slash] else [slash]
  parts := segments slash dot t

def str (p : PyPath) : OsText :=
  if p.root = [] ∧ p.parts = [] then [dot] else p.root ++ [slash].intercalate p.parts

/-- `path / name` with a plain name. -/
def div (p : PyPath) (name : String) : PyPath := { p with parts := p.parts ++ [text name] }

/-- A name without its suffix: what follows the last dot, which is neither its first nor its last
character. -/
def stem (name : OsText) : OsText :=
  match name.reverse.dropWhile (· ≠ dot), name.reverse.takeWhile (· ≠ dot) with
  | _ :: before, _ :: _ => if before = [] then name else before.reverse
  | _, _ => name

def withSuffix (p : PyPath) (suffix : String) : PyPath :=
  { p with parts := p.parts.dropLast ++ [stem (p.parts.getLast?.getD []) ++ text suffix] }

end PyPath

/-- `UnicodeEncodeError`: a byte of a variable that is no UTF-8 has no encoding. -/
inductive Raised
  | unicodeEncode
  deriving DecidableEq, Repr

namespace Py

def runtimeBaseDir (e : Environ) : OsText :=
  let tmp := match e.tmpdir with
    | some tmp => if tmp ≠ [] then tmp else text "/tmp"
    | none => text "/tmp"
  let dir := ((PyPath.parse tmp).div (userDir e.uid)).str
  match e.xdgRuntimeDir with
  | some xdg => if xdg ≠ [] ∧ ¬ xdg.all OsChar.isBlank then xdg else dir
  | none => dir

def clampUnixPath (uid : Nat) (path : OsText) (hash : Nat) : Except Raised OsText :=
  if path.any OsChar.isByte then .error .unicodeEncode
  else if size path ≤ unixPathMax then .ok path
  else
    .ok (((PyPath.parse (text "/tmp")).div (userDir uid)).div
      (shortName (hash &&& 0xFFFFFFFF) ".sock")).str

section

variable (lower : Char → List Char)

def pathOf (e : Environ) (l : Login) : OsText :=
  ((PyPath.parse (runtimeBaseDir e)).div (fileName (pyHash lower l) ".sock")).str

def defaultUnixPath (e : Environ) (l : Login) : Except Raised OsText :=
  clampUnixPath e.uid (pathOf lower e l) (pyHash lower l)

def lockPath (e : Environ) (l : Login) : Except Raised OsText := do
  let sock ← defaultUnixPath lower e l
  return ((PyPath.parse sock).withSuffix ".lock").str

end

end Py

/-! ### Files -/

/-- What a path names, in whatever directory it is looked up: whether it starts at the root, and the
names along it. -/
def denote (t : OsText) : Bool × List OsText := (t.head? = some slash, segments slash dot t)

/-- The two languages name the same socket and the same lock. -/
def SameFiles (lower : Char → List Char) (e : Environ) (l : Login) : Prop :=
  (∃ sock, Py.defaultUnixPath lower e l = .ok sock ∧
    denote sock = denote (Rust.defaultUnixPath e l)) ∧
  ∃ lock, Py.lockPath lower e l = .ok lock ∧ denote lock = denote (Rust.credentialLockPath e l)

/-- The variable that Python takes the directory from. -/
def Py.variable (e : Environ) : Option OsText :=
  match e.xdgRuntimeDir with
  | some xdg => if xdg ≠ [] ∧ ¬ xdg.all OsChar.isBlank then some xdg else e.tmpdir
  | none => e.tmpdir

/-- `XDG_RUNTIME_DIR` is blank but not empty: Rust uses it, Python does not. -/
def BlankXdg (e : Environ) : Prop :=
  ∃ xdg, e.xdgRuntimeDir = some xdg ∧ xdg ≠ [] ∧ xdg.all OsChar.isBlank = true

/-- `TMPDIR` is used and is set to the empty text: Rust stays in the working directory, Python goes
to `/tmp`. -/
def EmptyTmp (e : Environ) : Prop :=
  (e.xdgRuntimeDir = none ∨ e.xdgRuntimeDir = some []) ∧ e.tmpdir = some []

/-- A text that names an environment does so with its blanks and without: it is the same one of
`demo`, `development` and `test`, or none of them, stripped and in lower case as in ASCII lower
case alone. -/
structure SameEnv (lower : Char → List Char) (env : String) : Prop where
  demo : pyLower lower (strip env) = "demo" ∨ pyLower lower (strip env) = "development" ↔
    toAsciiLowercase env = "demo" ∨ toAsciiLowercase env = "development"
  test : pyLower lower (strip env) = "test" ↔ toAsciiLowercase env = "test"

/-- The bytes of a directory text, with the slash that a name under it needs. -/
def rawSize (dir : OsText) : Nat :=
  size dir + if dir = [] ∨ dir.getLast? = some slash then 0 else 1

/-- The slashes at the head of a text, where three or more are as good as one. -/
def rootSize (dir : OsText) : Nat :=
  let leading := (dir.takeWhile (· = slash)).length
  if leading = 0 then 0 else if leading = 2 then 2 else 1

/-- The bytes of a directory text whose doubled slashes and single dots are dropped, with a slash
after each name. -/
def tidySize (dir : OsText) : Nat :=
  rootSize dir + ((segments slash dot dir).map fun s => size s + 1).sum

/-- The bytes of the user's directory and of the slash behind it. -/
def userSize (uid : Nat) : Nat := size (text (userDir uid)) + 1

/-- The directory as it is spelled: a set `XDG_RUNTIME_DIR`, else the user's under `TMPDIR`. -/
def Environ.rawSize (e : Environ) : Nat :=
  if e.xdgRuntimeDir.getD [] = [] then
    Paths.rawSize (e.tmpdir.getD (text "/tmp")) + userSize e.uid
  else Paths.rawSize (e.xdgRuntimeDir.getD [])

/-- The directory without what a path library drops: an `XDG_RUNTIME_DIR` that is not blank, else the
user's under a `TMPDIR` that is not empty. -/
def Environ.tidySize (e : Environ) : Nat :=
  if (e.xdgRuntimeDir.getD []).all OsChar.isBlank then
    Paths.tidySize (if e.tmpdir.getD [] = [] then text "/tmp" else e.tmpdir.getD []) +
      userSize e.uid
  else Paths.tidySize (e.xdgRuntimeDir.getD [])

/-- The bytes of the socket's name: `rgw-`, the digits of the hash, `.sock`. -/
def nameSize (l : Login) : Nat := 9 + (Nat.repr (credentialKeyHash l).toNat).length

/-- There is room for the name under the directory as it is spelled, and no variable is read in two
ways. -/
structure Fits (e : Environ) (l : Login) : Prop where
  room : e.rawSize + nameSize l ≤ unixPathMax
  xdg : ¬ BlankXdg e
  tmp : ¬ EmptyTmp e

/-- There is no room for the name, however the directory is spelled. -/
structure Overlong (e : Environ) (l : Login) : Prop where
  raw : unixPathMax < e.rawSize + nameSize l
  tidy : unixPathMax < e.tidySize + nameSize l

/-- What the variables and the login have to be for the two languages to meet. -/
structure Agree (lower : Char → List Char) (e : Environ) (l : Login) : Prop where
  decoded : ∀ t, Py.variable e = some t → t.any OsChar.isByte = false
  env : SameEnv lower l.env
  length : Fits e l ∨ Overlong e l

/-! ### Environments -/

theorem not_live_of_demo {key : String} (h : key = "demo" ∨ key = "development") :
    ¬ (key = "live" ∨ key = "production") ∧ key ≠ "test" := by
  obtain rfl | rfl := h <;> decide

theorem canonEnv_eq_demo {lower : Char → List Char} {env : String} :
    canonEnv lower env = "demo" ↔
      pyLower lower (strip env) = "demo" ∨ pyLower lower (strip env) = "development" := by
  simp only [canonEnv]
  split
  · next hlive =>
    refine ⟨fun h => absurd h (by decide), fun h => absurd hlive (not_live_of_demo h).1⟩
  · split
    · next hdemo => exact iff_of_true rfl hdemo
    · next hdemo => split <;> exact iff_of_false (by decide) hdemo

theorem canonEnv_eq_test {lower : Char → List Char} {env : String} :
    canonEnv lower env = "test" ↔ pyLower lower (strip env) = "test" := by
  simp only [canonEnv]
  split
  · next hlive =>
    refine iff_of_false (by decide) fun h => ?_
    rw [h] at hlive
    exact absurd hlive (by decide)
  · split
    · next hdemo => exact iff_of_false (by decide) (not_live_of_demo hdemo).2
    · split
      · next htest => exact iff_of_true rfl htest
      · next htest => exact iff_of_false (by decide) htest

theorem rustEnv_eq_demo {env : String} : rustEnv env = "demo" ↔
    toAsciiLowercase env = "demo" ∨ toAsciiLowercase env = "development" := by
  simp only [rustEnv]
  split
  · next hdemo => exact iff_of_true rfl hdemo
  · next hdemo => split <;> exact iff_of_false (by decide) hdemo

theorem rustEnv_eq_test {env : String} :
    rustEnv env = "test" ↔ toAsciiLowercase env = "test" := by
  simp only [rustEnv]
  split
  · next hdemo => exact iff_of_false (by decide) (not_live_of_demo hdemo).2
  · split
    · next htest => exact iff_of_true rfl htest
    · next htest => exact iff_of_false (by decide) htest

theorem mem_envs {w : String} (h : w ∈ envWords.map Prod.fst) :
    w = "live" ∨ w = "demo" ∨ w = "test" := by
  simpa [envWords] using h

/-- The two languages read one environment name exactly where the text means the same with its
blanks and without. -/
theorem canonEnv_eq_rustEnv {lower : Char → List Char} {env : String} :
    canonEnv lower env = rustEnv env ↔ SameEnv lower env := by
  constructor
  · intro h
    refine ⟨?_, ?_⟩
    · rw [← canonEnv_eq_demo, ← rustEnv_eq_demo, h]
    · rw [← canonEnv_eq_test, ← rustEnv_eq_test, h]
  · intro ⟨hdemo, htest⟩
    rw [← canonEnv_eq_demo, ← rustEnv_eq_demo] at hdemo
    rw [← canonEnv_eq_test, ← rustEnv_eq_test] at htest
    obtain hpy | hpy | hpy := mem_envs (canonEnv_mem lower env)
    · obtain hrust | hrust | hrust := mem_envs (rustEnv_mem env)
      · rw [hpy, hrust]
      · exact absurd (hdemo.mpr hrust) (by rw [hpy]; decide)
      · exact absurd (htest.mpr hrust) (by rw [hpy]; decide)
    · rw [hpy, hdemo.mp hpy]
    · rw [hpy, htest.mp hpy]

/-! ### Names -/

@[simp] theorem text_append (s t : String) : text (s ++ t) = text s ++ text t := by
  simp [text]

theorem text_injective {s t : String} (h : text s = text t) : s = t := by
  have hchar : Function.Injective OsChar.char := by
    intro c d h
    exact OsChar.char.inj h
  exact String.toList_inj.mp (hchar.list_map h)

theorem isSegment_text {s : String} (hslash : '/' ∉ s.toList) (hlen : 2 ≤ s.toList.length) :
    IsSegment slash dot (text s) := by
  refine ⟨?_, ?_, ?_⟩
  · simpa [text, slash] using hslash
  · intro h
    simp [text] at h
    simp [h] at hlen
  · intro h
    have hone : (text s).length = 1 := by rw [h]; rfl
    rw [text, List.length_map] at hone
    omega

theorem isSegment_userDir (uid : Nat) : IsSegment slash dot (text (userDir uid)) := by
  apply isSegment_text
  · simp only [userDir, String.toList_append, List.mem_append, not_or]
    exact ⟨by decide, notMem_repr (by decide) uid⟩
  · simp only [userDir, String.toList_append, List.length_append]
    have : "rgw-".toList.length = 4 := by decide
    omega

/-- The two suffixes. -/
def IsSuffix (suffix : String) : Prop := suffix = ".sock" ∨ suffix = ".lock"

theorem isSegment_fileName (hash : Nat) {suffix : String} (h : IsSuffix suffix) :
    IsSegment slash dot (text (fileName hash suffix)) := by
  apply isSegment_text
  · simp only [fileName, String.toList_append, List.mem_append, not_or]
    refine ⟨⟨by decide, notMem_repr (by decide) hash⟩, ?_⟩
    obtain rfl | rfl := h <;> decide
  · simp only [fileName, String.toList_append, List.length_append]
    have : "rgw-".toList.length = 4 := by decide
    omega

theorem digitChar_injective :
    ∀ m < 16, ∀ n < 16, Nat.digitChar m = Nat.digitChar n → m = n := by
  decide

theorem digitChar_ne :
    ∀ n < 16, Nat.digitChar n ≠ '/' ∧ Nat.digitChar n ≠ 'r' ∧ Nat.digitChar n ≠ '.' := by
  decide

theorem of_mem_hex08 {c : Char} {n : Nat} (h : c ∈ hex08 n) : c ≠ '/' ∧ c ≠ 'r' ∧ c ≠ '.' := by
  obtain ⟨i, -, rfl⟩ := List.mem_map.mp h
  exact digitChar_ne _ (Nat.mod_lt _ (by decide))

theorem hex08_injective {m n : Nat} (hm : m < 2 ^ 32) (hn : n < 2 ^ 32) (h : hex08 m = hex08 n) :
    m = n := by
  have hdigit : ∀ i ∈ [7, 6, 5, 4, 3, 2, 1, 0], m / 16 ^ i % 16 = n / 16 ^ i % 16 := by
    intro i hi
    exact digitChar_injective _ (Nat.mod_lt _ (by decide)) _ (Nat.mod_lt _ (by decide))
      (List.map_inj_left.mp h i hi)
  have hstep : ∀ i < 8, m / 16 ^ (i + 1) = n / 16 ^ (i + 1) → m / 16 ^ i = n / 16 ^ i := by
    intro i hi hdiv
    have hmod := hdigit i (by simp; omega)
    rw [Nat.pow_succ, ← Nat.div_div_eq_div_mul, ← Nat.div_div_eq_div_mul] at hdiv
    omega
  have hall : ∀ k ≤ 8, m / 16 ^ (8 - k) = n / 16 ^ (8 - k) := by
    intro k hk
    induction k with
    | zero =>
      rw [show 16 ^ (8 - 0) = 2 ^ 32 from rfl, Nat.div_eq_of_lt hm, Nat.div_eq_of_lt hn]
    | succ k ih =>
      have hnext := ih (by omega)
      rw [show 8 - k = 8 - (k + 1) + 1 by omega] at hnext
      exact hstep _ (by omega) hnext
  simpa using hall 8 (by omega)

theorem isSegment_shortName (low : Nat) {suffix : String} (h : IsSuffix suffix) :
    IsSegment slash dot (text (shortName low suffix)) := by
  apply isSegment_text
  · simp only [shortName, String.toList_append, String.toList_ofList, List.mem_append, not_or]
    refine ⟨fun hmem => (of_mem_hex08 hmem).1 rfl, ?_⟩
    obtain rfl | rfl := h <;> decide
  · simp [shortName, hex08]

theorem fileName_injective {m n : Nat} {suffix : String}
    (h : fileName m suffix = fileName n suffix) : m = n := by
  apply repr_injective
  apply String.toList_inj.mp
  have hlist := congrArg String.toList h
  simp only [fileName, String.toList_append, List.append_assoc] at hlist
  exact List.append_cancel_right (List.append_cancel_left hlist)

theorem shortName_injective {m n : Nat} {suffix : String} (hm : m < 2 ^ 32) (hn : n < 2 ^ 32)
    (h : shortName m suffix = shortName n suffix) : m = n := by
  apply hex08_injective hm hn
  have hlist := congrArg String.toList h
  simp only [shortName, String.toList_append, String.toList_ofList] at hlist
  exact List.append_cancel_right hlist

/-- A shortened name is no long one: it has hex digits where that has `rgw-`. -/
theorem shortName_ne_fileName (low hash : Nat) (suffix : String) :
    shortName low suffix ≠ fileName hash suffix := by
  intro h
  have hlist := congrArg String.toList h
  simp only [shortName, fileName, String.toList_append, String.toList_ofList] at hlist
  have hhead := congrArg List.head? hlist
  rw [show "rgw-".toList = ['r', 'g', 'w', '-'] from by decide] at hhead
  simp only [hex08, List.map_cons, List.cons_append, List.head?_cons, Option.some.injEq] at hhead
  exact (digitChar_ne _ (Nat.mod_lt _ (by decide))).2.1 hhead

/-! ### What the paths name -/

/-- A name inside a directory. -/
def inside (dir : Bool × List OsText) (name : String) : Bool × List OsText :=
  (dir.1, dir.2 ++ [text name])

theorem inside_inj {d d' : Bool × List OsText} {name name' : String} :
    inside d name = inside d' name' ↔ d = d' ∧ name = name' := by
  constructor
  · intro h
    obtain ⟨hroot, hnames⟩ := Prod.mk.inj h
    obtain ⟨hdirs, hlast⟩ := List.append_inj' hnames rfl
    exact ⟨Prod.ext hroot hdirs, text_injective (List.cons.inj hlast).1⟩
  · rintro ⟨rfl, rfl⟩
    rfl

theorem head?_ne_slash {s : OsText} (h : IsSegment slash dot s) (t : OsText) :
    (s ++ t).head? ≠ some slash := by
  cases s with
  | nil => exact absurd rfl h.nonempty
  | cons c s =>
    intro hc
    simp only [List.cons_append, List.head?_cons, Option.some.injEq] at hc
    exact h.sep (by simp [hc])

theorem denote_join {name : String} (h : IsSegment slash dot (text name)) (base : OsText) :
    denote (Rust.join base name) = inside (denote base) name := by
  unfold Rust.join denote inside
  split
  · next hbase =>
    obtain rfl | hlast := hbase
    · have hhead := head?_ne_slash h []
      rw [List.append_nil] at hhead
      simp [h.segments, hhead]
    · obtain ⟨front, rfl⟩ : ∃ front, base = front ++ [slash] := by
        obtain ⟨front, hfront⟩ := List.getLast?_eq_some_iff.mp hlast
        exact ⟨front, hfront⟩
      rw [List.append_assoc, List.singleton_append, segments_append_sep, segments_append_sep,
        h.segments, segments_nil, List.append_nil]
      cases front <;> rfl
  · next hbase =>
    have hne : base ≠ [] := fun hnil => hbase (.inl hnil)
    rw [segments_append_sep, h.segments]
    cases base with
    | nil => exact absurd rfl hne
    | cons c base => rfl

theorem root_parse (t : OsText) :
    (PyPath.parse t).root = [] ∨ (PyPath.parse t).root = [slash] ∨
      (PyPath.parse t).root = [slash, slash] := by
  simp only [PyPath.parse]
  split
  · exact .inl rfl
  · split
    · exact .inr (.inr rfl)
    · exact .inr (.inl rfl)

theorem root_parse_ne_nil (t : OsText) :
    decide ((PyPath.parse t).root ≠ []) = decide (t.head? = some slash) := by
  simp only [PyPath.parse]
  cases t with
  | nil => rfl
  | cons c t =>
    by_cases hc : c = slash
    · subst hc
      simp only [List.takeWhile_cons, decide_true, if_true, List.length_cons, List.head?_cons]
      split
      · omega
      · split <;> simp
    · simp [hc]

theorem head?_intercalate_ne_slash {parts : List OsText} (h : ∀ s ∈ parts, IsSegment slash dot s)
    (hne : parts ≠ []) : ([slash].intercalate parts).head? ≠ some slash := by
  obtain ⟨s, rest, rfl⟩ := List.exists_cons_of_ne_nil hne
  have hs := h s (by simp)
  cases rest with
  | nil => simpa using head?_ne_slash hs []
  | cons s' rest =>
    rw [List.intercalate_cons_cons, List.append_assoc]
    exact head?_ne_slash hs _

/-- A path of Python with the root of a text, whose parts are names, is what they say. -/
theorem denote_str (t : OsText) {parts : List OsText} (h : ∀ s ∈ parts, IsSegment slash dot s)
    (hne : parts ≠ []) : denote (PyPath.mk (PyPath.parse t).root parts).str = ((denote t).1, parts) := by
  have hstr : (PyPath.mk (PyPath.parse t).root parts).str =
      (PyPath.parse t).root ++ [slash].intercalate parts := by
    unfold PyPath.str
    rw [if_neg fun h => hne h.2]
  have hroot := root_parse_ne_nil t
  rw [hstr, denote, denote, ← hroot]
  obtain h0 | h1 | h2 := root_parse t
  · rw [h0, List.nil_append, segments_intercalate h]
    simp [head?_intercalate_ne_slash h hne]
  · simp [h1, segments_intercalate h]
  · simp [h2, segments_intercalate h]

theorem denote_div {name : String} (h : IsSegment slash dot (text name)) (base : OsText) :
    denote ((PyPath.parse base).div name).str = inside (denote base) name := by
  apply denote_str base
  · intro s hs
    obtain hs | hs := List.mem_append.mp hs
    · exact isSegment_of_mem hs
    · rw [List.mem_singleton.mp hs]
      exact h
  · simp

theorem denote_div_div {dir name : String} (hdir : IsSegment slash dot (text dir))
    (h : IsSegment slash dot (text name)) (base : OsText) :
    denote (((PyPath.parse base).div dir).div name).str = inside (inside (denote base) dir) name := by
  apply denote_str base
  · intro s hs
    obtain hs | hs := List.mem_append.mp hs
    · obtain hs | hs := List.mem_append.mp hs
      · exact isSegment_of_mem hs
      · rw [List.mem_singleton.mp hs]
        exact hdir
    · rw [List.mem_singleton.mp hs]
      exact h
  · simp

theorem stem_text {name suffix : String} (hname : name.toList ≠ []) (hsuffix : IsSuffix suffix) :
    PyPath.stem (text (name ++ suffix)) = text name := by
  have hrev : ∃ letters, letters ≠ [] ∧ (∀ c ∈ letters, c ≠ dot) ∧
      (text (name ++ suffix)).reverse = letters ++ dot :: (text name).reverse := by
    rw [text_append, List.reverse_append]
    obtain rfl | rfl := hsuffix
    · exact ⟨(text "sock").reverse, by decide, by decide, rfl⟩
    · exact ⟨(text "lock").reverse, by decide, by decide, rfl⟩
  obtain ⟨letters, hletters, hdots, hrev⟩ := hrev
  have htext : (text name).reverse ≠ [] := by simpa [text] using hname
  have hdots' : ∀ c ∈ letters, decide (c ≠ dot) = true := fun c hc => decide_eq_true (hdots c hc)
  obtain ⟨c, rest, rfl⟩ := List.exists_cons_of_ne_nil hletters
  unfold PyPath.stem
  rw [hrev, List.dropWhile_append_of_pos hdots', List.takeWhile_append_of_pos hdots']
  simp [htext]

/-- The lock beside a socket. -/
theorem denote_withSuffix {sock : OsText} {dir : Bool × List OsText} {name : String}
    (hsock : denote sock = inside dir (name ++ ".sock")) (hname : name.toList ≠ [])
    (hlock : IsSegment slash dot (text (name ++ ".lock"))) :
    denote ((PyPath.parse sock).withSuffix ".lock").str = inside dir (name ++ ".lock") := by
  obtain ⟨hroot, hnames⟩ := Prod.mk.inj hsock
  have hparts : (PyPath.parse sock).withSuffix ".lock" =
      ⟨(PyPath.parse sock).root, dir.2 ++ [text (name ++ ".lock")]⟩ := by
    have hsegments : (PyPath.parse sock).parts = dir.2 ++ [text (name ++ ".sock")] := hnames
    rw [PyPath.withSuffix, hsegments, List.dropLast_concat, List.getLast?_concat, Option.getD_some,
      stem_text hname (.inl rfl), ← text_append]
  rw [hparts, denote_str sock _ (by simp)]
  · exact Prod.ext hroot rfl
  · intro s hs
    obtain hs | hs := List.mem_append.mp hs
    · apply isSegment_of_mem (l := sock)
      rw [hnames]
      exact List.mem_append_left _ hs
    · rw [List.mem_singleton.mp hs]
      exact hlock

/-! ### The base directories -/

theorem any_isByte_text (s : String) : (text s).any OsChar.isByte = false := by
  simp [text, OsChar.isByte]

theorem any_isByte_div (base : OsText) (name : String) :
    ((PyPath.parse base).div name).str.any OsChar.isByte = base.any OsChar.isByte := by
  have hstr : ((PyPath.parse base).div name).str = (PyPath.parse base).root ++
      [slash].intercalate (segments slash dot base ++ [text name]) := by
    unfold PyPath.str PyPath.div
    rw [if_neg fun h => by simp at h]
    rfl
  have hroot : (PyPath.parse base).root.any OsChar.isByte = false := by
    obtain h | h | h := root_parse base <;> rw [h] <;> rfl
  rw [hstr, List.any_append, hroot, any_intercalate rfl, List.any_append, any_segments rfl rfl]
  simp [any_isByte_text]

/-- Python finds a byte that it cannot encode where the variable has one. -/
theorem any_isByte_pathOf (lower : Char → List Char) (e : Environ) (l : Login) :
    (Py.pathOf lower e l).any OsChar.isByte = false ↔
      ∀ t, Py.variable e = some t → t.any OsChar.isByte = false := by
  have htmp : ((PyPath.parse (match e.tmpdir with
      | some tmp => if tmp ≠ [] then tmp else text "/tmp"
      | none => text "/tmp")).div (userDir e.uid)).str.any OsChar.isByte = false ↔
      ∀ t, e.tmpdir = some t → t.any OsChar.isByte = false := by
    rw [any_isByte_div]
    cases e.tmpdir with
    | none => simp [any_isByte_text]
    | some tmp =>
      by_cases hnil : tmp = []
      · simp [hnil, any_isByte_text]
      · simp [hnil]
  rw [Py.pathOf, any_isByte_div, Py.runtimeBaseDir, Py.variable]
  cases e.xdgRuntimeDir with
  | none => exact htmp
  | some xdg =>
    simp only
    split
    · simp
    · exact htmp

/-- Where neither variable is read in two ways, both languages start in one directory. -/
theorem denote_base_eq {e : Environ} (hx : ¬ BlankXdg e) (ht : ¬ EmptyTmp e) :
    denote (Py.runtimeBaseDir e) = denote (Rust.runtimeBaseDir e) := by
  have htmp : e.xdgRuntimeDir = none ∨ e.xdgRuntimeDir = some [] →
      denote ((PyPath.parse (match e.tmpdir with
        | some tmp => if tmp ≠ [] then tmp else text "/tmp"
        | none => text "/tmp")).div (userDir e.uid)).str =
      denote (Rust.join (e.tmpdir.getD (text "/tmp")) (userDir e.uid)) := by
    intro hxdg
    rw [denote_div (isSegment_userDir _), denote_join (isSegment_userDir _)]
    cases htmp : e.tmpdir with
    | none => rfl
    | some tmp =>
      have hne : tmp ≠ [] := fun hnil => ht ⟨hxdg, by rw [htmp, hnil]⟩
      simp [hne]
  rw [Py.runtimeBaseDir, Rust.runtimeBaseDir]
  cases hxdg : e.xdgRuntimeDir with
  | none => exact htmp (.inl hxdg)
  | some xdg =>
    by_cases hnil : xdg = []
    · simpa [hnil] using htmp (.inr (by rw [hxdg, hnil]))
    · have hblank : ¬ xdg.all OsChar.isBlank = true := fun h => hx ⟨xdg, hxdg, hnil, h⟩
      simp [hnil, hblank]

theorem isSegment_of_blank {t : OsText} (hne : t ≠ []) (h : t.all OsChar.isBlank = true) :
    IsSegment slash dot t := by
  rw [List.all_eq_true] at h
  refine ⟨fun hmem => ?_, hne, ?_⟩
  · exact absurd (h _ hmem) (by decide)
  · rintro rfl
    exact absurd (h dot (by simp)) (by decide)

/-- A blank directory is not the user's. -/
theorem denote_base_ne_of_blank {e : Environ} (h : BlankXdg e) :
    denote (Py.runtimeBaseDir e) ≠ denote (Rust.runtimeBaseDir e) := by
  obtain ⟨xdg, hxdg, hne, hblank⟩ := h
  have hrust : (denote (Rust.runtimeBaseDir e)).2 = [] ++ [xdg] := by
    rw [Rust.runtimeBaseDir, hxdg]
    simp only
    rw [if_pos hne]
    exact (isSegment_of_blank hne hblank).segments
  intro hsame
  rw [Py.runtimeBaseDir, hxdg] at hsame
  simp only [hblank, not_true, and_false, if_false] at hsame
  rw [denote_div (isSegment_userDir _)] at hsame
  have hnames := congrArg Prod.snd hsame
  rw [hrust] at hnames
  obtain ⟨-, hlast⟩ := List.append_inj' hnames rfl
  have htext : text (userDir e.uid) = xdg := (List.cons.inj hlast).1
  rw [← htext, userDir, text_append, List.all_append, Bool.and_eq_true] at hblank
  exact absurd hblank.1 (by decide)

/-- An empty `TMPDIR` is the working directory to Rust and `/tmp` to Python. -/
theorem denote_base_ne_of_empty {e : Environ} (h : EmptyTmp e) :
    denote (Py.runtimeBaseDir e) ≠ denote (Rust.runtimeBaseDir e) := by
  obtain ⟨hxdg, htmp⟩ := h
  have hpy : denote (Py.runtimeBaseDir e) = inside (denote (text "/tmp")) (userDir e.uid) := by
    rw [← denote_div (isSegment_userDir _), Py.runtimeBaseDir, htmp]
    obtain hxdg | hxdg := hxdg <;> simp [hxdg]
  have hrust : denote (Rust.runtimeBaseDir e) = inside (denote []) (userDir e.uid) := by
    rw [← denote_join (isSegment_userDir _), Rust.runtimeBaseDir, htmp]
    obtain hxdg | hxdg := hxdg <;> simp [hxdg]
  rw [hpy, hrust]
  intro hsame
  have hroot := congrArg Prod.fst (inside_inj.mp hsame).1
  exact absurd hroot (by decide)

/-! ### The two files -/

/-- The private directory of the shortened names. -/
def shortDir (uid : Nat) : Bool × List OsText := inside (denote (text "/tmp")) (userDir uid)

theorem size_append (s t : OsText) : size (s ++ t) = size s + size t := by
  simp [size]

theorem size_cons (c : OsChar) (t : OsText) : size (c :: t) = c.size + size t := by
  simp [size]

/-- The lock path is as long as the socket path. -/
theorem size_pathOf_lock (e : Environ) (l : Login) :
    size (Rust.pathOf e l ".lock") = size (Rust.pathOf e l ".sock") := by
  have hsuffix : size (text ".lock") = size (text ".sock") := by decide
  simp only [Rust.pathOf, Rust.join, fileName, text_append]
  split
  · simp only [size_append, hsuffix]
  · simp only [size_append, size_cons, hsuffix]

theorem size_intercalate {parts : List OsText} (h : parts ≠ []) :
    size ([slash].intercalate parts) + 1 = (parts.map fun s => size s + 1).sum := by
  induction parts with
  | nil => exact absurd rfl h
  | cons s parts ih =>
    cases parts with
    | nil => simp
    | cons s' parts =>
      rw [List.intercalate_cons_cons, List.append_assoc, size_append, List.map_cons, List.sum_cons,
        ← ih (by simp), List.singleton_append, size_cons]
      have hslash : OsChar.size slash = 1 := by decide
      omega

/-- The names along a text take no more than the text and a slash behind it. -/
theorem sum_segments_le (t : OsText) :
    ((segments slash dot t).map fun s => size s + 1).sum ≤ size t + 1 := by
  have hall : ((t.splitOn slash).map fun s => size s + 1).sum = size t + 1 := by
    rw [← size_intercalate (List.splitOn_ne_nil slash t), List.intercalate_splitOn]
  rw [← hall]
  exact (List.filter_sublist.map _).sum_le_sum fun _ _ => Nat.zero_le _

theorem sum_segments_le_rawSize (t : OsText) :
    ((segments slash dot t).map fun s => size s + 1).sum ≤ rawSize t := by
  unfold rawSize
  split
  · next hend =>
    obtain rfl | hend := hend
    · simp
    · obtain ⟨init, rfl⟩ := List.getLast?_eq_some_iff.mp hend
      rw [segments_append_sep, segments_nil, List.append_nil]
      have hle := sum_segments_le init
      have hsize : size (init ++ [slash]) = size init + 1 := by
        rw [size_append]
        rfl
      omega
  · exact sum_segments_le t

theorem rawSize_slash (t : OsText) : rawSize (slash :: t) = rawSize t + 1 := by
  have hslash : OsChar.size slash = 1 := by decide
  cases t with
  | nil => decide
  | cons c t =>
    simp only [rawSize, size_cons, List.getLast?_cons_cons, hslash, List.cons_ne_nil, false_or]
    omega

/-- What is dropped makes a text no longer. -/
theorem tidySize_le_rawSize (t : OsText) : tidySize t ≤ rawSize t := by
  have hlead : ∀ t : OsText, (t.takeWhile (· = slash)).length +
      ((segments slash dot t).map fun s => size s + 1).sum ≤ rawSize t := by
    intro t
    induction t with
    | nil => simp
    | cons c t ih =>
      by_cases hc : c = slash
      · subst hc
        rw [segments_sep, rawSize_slash, List.takeWhile_cons_of_pos (by simp), List.length_cons]
        omega
      · rw [List.takeWhile_cons_of_neg (by simpa using hc)]
        simpa using sum_segments_le_rawSize (c :: t)
  have hroot : rootSize t ≤ (t.takeWhile (· = slash)).length := by
    simp only [rootSize]
    split
    · omega
    · split <;> omega
  have := hlead t
  unfold tidySize
  omega

theorem size_root (t : OsText) : size (PyPath.parse t).root = rootSize t := by
  simp only [PyPath.parse, rootSize]
  split
  · rfl
  · split <;> rfl

theorem size_div (base : OsText) (name : String) :
    size ((PyPath.parse base).div name).str = tidySize base + size (text name) := by
  have hstr : ((PyPath.parse base).div name).str = (PyPath.parse base).root ++
      [slash].intercalate (segments slash dot base ++ [text name]) := by
    unfold PyPath.str PyPath.div
    rw [if_neg fun h => by simp at h]
    rfl
  have hne : segments slash dot base ++ [text name] ≠ [] := by simp
  have hparts := size_intercalate hne
  rw [List.map_append, List.sum_append, List.map_singleton, List.sum_singleton] at hparts
  rw [hstr, size_append, size_root, tidySize]
  omega

/-- A directory below another keeps its root. -/
theorem rootSize_div {name : String} (h : IsSegment slash dot (text name)) (base : OsText) :
    rootSize ((PyPath.parse base).div name).str = rootSize base := by
  have hne : segments slash dot base ++ [text name] ≠ [] := by simp
  have hstr : ((PyPath.parse base).div name).str = (PyPath.parse base).root ++
      [slash].intercalate (segments slash dot base ++ [text name]) := by
    unfold PyPath.str PyPath.div
    rw [if_neg fun h => hne h.2]
    rfl
  have hsegments : ∀ s ∈ segments slash dot base ++ [text name], IsSegment slash dot s := by
    intro s hs
    obtain hs | hs := List.mem_append.mp hs
    · exact isSegment_of_mem hs
    · rw [List.mem_singleton.mp hs]
      exact h
  have hhead := head?_intercalate_ne_slash hsegments hne
  have htake : ([slash].intercalate (segments slash dot base ++ [text name])).takeWhile
      (· = slash) = [] := by
    cases hlist : [slash].intercalate (segments slash dot base ++ [text name]) with
    | nil => rfl
    | cons c rest =>
      rw [hlist, List.head?_cons] at hhead
      rw [List.takeWhile_cons_of_neg]
      simpa using fun hc => hhead (congrArg some hc)
  have hroot := size_root base
  rw [hstr]
  obtain h0 | h1 | h2 := root_parse base
  · rw [h0, List.nil_append]
    rw [h0] at hroot
    simp only [rootSize, htake, List.length_nil, if_true]
    exact hroot
  · rw [h1] at hroot ⊢
    simp only [rootSize, List.singleton_append, List.takeWhile_cons_of_pos, decide_true, htake]
    exact hroot
  · rw [h2] at hroot ⊢
    simp only [rootSize, List.cons_append, List.nil_append, List.takeWhile_cons_of_pos,
      decide_true, htake]
    exact hroot

theorem tidySize_div {name : String} (h : IsSegment slash dot (text name)) (base : OsText) :
    tidySize ((PyPath.parse base).div name).str = tidySize base + (size (text name) + 1) := by
  have hsegments : segments slash dot ((PyPath.parse base).div name).str =
      segments slash dot base ++ [text name] := congrArg Prod.snd (denote_div h base)
  rw [tidySize, tidySize, rootSize_div h, hsegments, List.map_append, List.sum_append,
    List.map_singleton, List.sum_singleton]
  omega

theorem size_join (base : OsText) (name : String) :
    size (Rust.join base name) = rawSize base + size (text name) := by
  unfold Rust.join rawSize
  split
  · rw [size_append]
    omega
  · rw [size_append, size_cons]
    have hslash : OsChar.size slash = 1 := by decide
    omega

theorem rawSize_join {name : String} (h : IsSegment slash dot (text name)) (base : OsText) :
    rawSize (Rust.join base name) = rawSize base + (size (text name) + 1) := by
  have hlast : (text name).getLast? ≠ some slash := by
    intro hlast
    obtain ⟨init, hinit⟩ := List.getLast?_eq_some_iff.mp hlast
    exact h.sep (by rw [hinit]; simp)
  have hend : ¬ (Rust.join base name = [] ∨ (Rust.join base name).getLast? = some slash) := by
    unfold Rust.join
    split
    · simp [h.nonempty, List.getLast?_append, hlast]
    · obtain ⟨init, c, hname⟩ := (List.eq_nil_or_concat _).resolve_left h.nonempty
      rw [hname, List.concat_eq_append] at hlast ⊢
      have hcons : base ++ slash :: (init ++ [c]) = (base ++ slash :: init) ++ [c] := by simp
      rw [List.getLast?_concat] at hlast
      rw [hcons, List.getLast?_concat]
      exact fun h => h.elim (by simp) hlast
  rw [rawSize, if_neg hend, size_join]
  omega

theorem size_text_repr (n : Nat) : size (text (Nat.repr n)) = (Nat.repr n).length := by
  have hone : ∀ c ∈ (Nat.repr n).toList, (OsChar.size ∘ OsChar.char) c = 1 := by
    intro c hc
    rw [Nat.toList_repr] at hc
    have hdigit := Nat.isDigit_of_mem_toDigits (by decide) (by decide) hc
    simp only [Char.isDigit, Bool.and_eq_true, decide_eq_true_eq] at hdigit
    have hle : c.val.toNat ≤ 57 := hdigit.2
    have hsmall : c.val ≤ 0x7F := UInt32.le_iff_toNat_le.mpr (le_trans hle (by decide))
    simp [OsChar.size, Char.utf8Size, hsmall]
  rw [size, text, List.map_map, List.map_congr_left hone, List.map_const', List.sum_replicate,
    String.length_toList, smul_eq_mul, mul_one]

theorem size_fileName (hash : Nat) : size (text (fileName hash ".sock")) =
    9 + (Nat.repr hash).length := by
  have hhead : size (text "rgw-") = 4 := by decide
  have htail : size (text ".sock") = 5 := by decide
  rw [fileName, text_append, text_append, size_append, size_append, size_text_repr]
  omega

/-- The length of Rust's path. -/
theorem size_rust_pathOf (e : Environ) (l : Login) :
    size (Rust.pathOf e l ".sock") = e.rawSize + nameSize l := by
  rw [Rust.pathOf, size_join, size_fileName, nameSize, Environ.rawSize, Rust.runtimeBaseDir]
  have hdir := rawSize_join (isSegment_userDir e.uid) (e.tmpdir.getD (text "/tmp"))
  cases e.xdgRuntimeDir with
  | none => simp [hdir, userSize]
  | some xdg =>
    by_cases hnil : xdg = []
    · simp [hnil, hdir, userSize]
    · simp [hnil]

/-- The length of Python's path. -/
theorem size_py_pathOf {lower : Char → List Char} {l : Login} (henv : SameEnv lower l.env)
    (e : Environ) : size (Py.pathOf lower e l) = e.tidySize + nameSize l := by
  rw [Py.pathOf, size_div, pyHash_eq (canonEnv_eq_rustEnv.mpr henv), size_fileName, nameSize,
    Environ.tidySize, Py.runtimeBaseDir]
  have htmp : tidySize ((PyPath.parse (match e.tmpdir with
      | some tmp => if tmp ≠ [] then tmp else text "/tmp"
      | none => text "/tmp")).div (userDir e.uid)).str =
      tidySize (if e.tmpdir.getD [] = [] then text "/tmp" else e.tmpdir.getD []) +
        userSize e.uid := by
    rw [tidySize_div (isSegment_userDir e.uid), userSize]
    cases e.tmpdir with
    | none => simp
    | some tmp => by_cases hnil : tmp = [] <;> simp [hnil]
  cases e.xdgRuntimeDir with
  | none => simpa using htmp
  | some xdg =>
    by_cases hnil : xdg = []
    · simpa [hnil] using htmp
    · by_cases hblank : xdg.all OsChar.isBlank = true
      · simpa [hnil, hblank] using htmp
      · simp [hnil, hblank]

/-- Where no variable is read in two ways, Python's path is no longer than Rust's. -/
theorem tidySize_le {e : Environ} (hx : ¬ BlankXdg e) (ht : ¬ EmptyTmp e) :
    e.tidySize ≤ e.rawSize := by
  unfold Environ.tidySize Environ.rawSize
  have htmp : e.xdgRuntimeDir.getD [] = [] → tidySize (if e.tmpdir.getD [] = [] then text "/tmp"
      else e.tmpdir.getD []) ≤ rawSize (e.tmpdir.getD (text "/tmp")) := by
    intro hxdg
    have hxdg : e.xdgRuntimeDir = none ∨ e.xdgRuntimeDir = some [] := by
      cases he : e.xdgRuntimeDir with
      | none => exact .inl rfl
      | some xdg => exact .inr (by simpa [he] using hxdg)
    cases htmp : e.tmpdir with
    | none => exact tidySize_le_rawSize _
    | some tmp =>
      have hne : tmp ≠ [] := fun hnil => ht ⟨hxdg, by rw [htmp, hnil]⟩
      simpa [hne] using tidySize_le_rawSize tmp
  by_cases hxdg : e.xdgRuntimeDir.getD [] = []
  · rw [if_pos hxdg, if_pos (by simp [hxdg])]
    exact Nat.add_le_add_right (htmp hxdg) _
  · have hblank : ¬ (e.xdgRuntimeDir.getD []).all OsChar.isBlank = true := by
      intro hblank
      obtain ⟨xdg, he⟩ := Option.ne_none_iff_exists'.mp (fun hnone : e.xdgRuntimeDir = none =>
        hxdg (by simp [hnone]))
      rw [he, Option.getD_some] at hxdg hblank
      exact hx ⟨xdg, he, hxdg, hblank⟩
    rw [if_neg hxdg, if_neg hblank]
    exact tidySize_le_rawSize _

theorem denote_clamp (e : Environ) (l : Login) {suffix : String} (h : IsSuffix suffix) :
    denote (Rust.clamp e.uid (Rust.pathOf e l suffix) (credentialKeyHash l) suffix) =
      if size (Rust.pathOf e l suffix) ≤ unixPathMax then
        inside (denote (Rust.runtimeBaseDir e)) (fileName (credentialKeyHash l).toNat suffix)
      else inside (shortDir e.uid) (shortName ((credentialKeyHash l).toNat % 2 ^ 32) suffix) := by
  unfold Rust.clamp
  split
  · exact denote_join (isSegment_fileName _ h) _
  · rw [denote_join (isSegment_shortName _ h), denote_join (isSegment_userDir _), UInt64.toNat_toUInt32]
    rfl

theorem clampUnixPath_ok {lower : Char → List Char} {e : Environ} {l : Login}
    (h : (Py.pathOf lower e l).any OsChar.isByte = false) :
    ∃ sock, Py.defaultUnixPath lower e l = .ok sock ∧ denote sock =
      if size (Py.pathOf lower e l) ≤ unixPathMax then
        inside (denote (Py.runtimeBaseDir e)) (fileName (pyHash lower l) ".sock")
      else inside (shortDir e.uid) (shortName (pyHash lower l % 2 ^ 32) ".sock") := by
  unfold Py.defaultUnixPath Py.clampUnixPath
  rw [if_neg (by simp [h])]
  split
  · exact ⟨_, rfl, denote_div (isSegment_fileName _ (.inl rfl)) _⟩
  · refine ⟨_, rfl, ?_⟩
    rw [show (0xFFFFFFFF : Nat) = 2 ^ 32 - 1 from rfl, Nat.and_two_pow_sub_one_eq_mod,
      denote_div_div (isSegment_userDir _) (isSegment_shortName _ (.inl rfl))]
    rfl

theorem toList_longStem_ne_nil (n : Nat) : ("rgw-" ++ Nat.repr n).toList ≠ [] := by
  simp

theorem toList_hex08_ne_nil (n : Nat) : (String.ofList (hex08 n)).toList ≠ [] := by
  simp [hex08]

/-- The lock of Python lies beside its socket. -/
theorem lockPath_ok {lower : Char → List Char} {e : Environ} {l : Login} {sock : OsText}
    (h : Py.defaultUnixPath lower e l = .ok sock) :
    Py.lockPath lower e l = .ok ((PyPath.parse sock).withSuffix ".lock").str := by
  simp only [Py.lockPath, h, bind, Except.bind, pure, Except.pure]

section Files

variable {lower : Char → List Char} {e : Environ} {l : Login}

theorem agree_of_sameFiles (h : SameFiles lower e l) : Agree lower e l := by
  obtain ⟨⟨sock, hsock, hsame⟩, -⟩ := h
  have hbytes : (Py.pathOf lower e l).any OsChar.isByte = false := by
    by_contra hany
    rw [Bool.not_eq_false] at hany
    simp [Py.defaultUnixPath, Py.clampUnixPath, hany] at hsock
  have hdecoded := (any_isByte_pathOf lower e l).mp hbytes
  obtain ⟨sock', hsock', hpy⟩ := clampUnixPath_ok hbytes
  rw [hsock] at hsock'
  obtain rfl := Except.ok.inj hsock'
  rw [hpy, Rust.defaultUnixPath, denote_clamp e l (.inl rfl)] at hsame
  by_cases hpylen : size (Py.pathOf lower e l) ≤ unixPathMax <;>
    by_cases hrustlen : size (Rust.pathOf e l ".sock") ≤ unixPathMax <;>
    simp only [hpylen, hrustlen, if_true, if_false] at hsame <;>
    obtain ⟨hbase, hname⟩ := inside_inj.mp hsame
  · have henv := env_eq_of_low_eq (congrArg (· % 2 ^ 32) (fileName_injective hname))
    rw [size_rust_pathOf] at hrustlen
    refine ⟨hdecoded, canonEnv_eq_rustEnv.mp henv, .inl ⟨hrustlen, fun hx => ?_, fun ht => ?_⟩⟩
    · exact denote_base_ne_of_blank hx hbase
    · exact denote_base_ne_of_empty ht hbase
  · exact absurd hname.symm (shortName_ne_fileName _ _ _)
  · exact absurd hname (shortName_ne_fileName _ _ _)
  · have hlow := shortName_injective (Nat.mod_lt _ (by decide)) (Nat.mod_lt _ (by decide)) hname
    have henv := canonEnv_eq_rustEnv.mp (env_eq_of_low_eq hlow)
    rw [size_rust_pathOf] at hrustlen
    rw [size_py_pathOf henv] at hpylen
    exact ⟨hdecoded, henv, .inr ⟨by omega, by omega⟩⟩

theorem sameFiles_of_agree (h : Agree lower e l) : SameFiles lower e l := by
  obtain ⟨sock, hsock, hpy⟩ := clampUnixPath_ok ((any_isByte_pathOf lower e l).mpr h.decoded)
  rw [pyHash_eq (canonEnv_eq_rustEnv.mpr h.env), size_py_pathOf h.env] at hpy
  refine ⟨⟨sock, hsock, ?_⟩, _, lockPath_ok hsock, ?_⟩
  · rw [hpy, Rust.defaultUnixPath, denote_clamp e l (.inl rfl), size_rust_pathOf]
    obtain hfits | hlong := h.length
    · have hle := tidySize_le hfits.xdg hfits.tmp
      have hroom := hfits.room
      rw [if_pos (by omega), if_pos hroom, denote_base_eq hfits.xdg hfits.tmp]
    · have hraw := hlong.raw
      have htidy := hlong.tidy
      rw [if_neg (by omega), if_neg (by omega)]
  · rw [Rust.credentialLockPath, denote_clamp e l (.inr rfl), size_pathOf_lock, size_rust_pathOf]
    obtain hfits | hlong := h.length
    · have hle := tidySize_le hfits.xdg hfits.tmp
      have hroom := hfits.room
      rw [if_pos (by omega)] at hpy
      rw [if_pos hroom, ← denote_base_eq hfits.xdg hfits.tmp]
      exact denote_withSuffix hpy (toList_longStem_ne_nil _) (isSegment_fileName _ (.inr rfl))
    · have hraw := hlong.raw
      have htidy := hlong.tidy
      rw [if_neg (by omega)] at hpy
      rw [if_neg (by omega)]
      exact denote_withSuffix hpy (toList_hex08_ne_nil _) (isSegment_shortName _ (.inr rfl))

end Files

/-- The two languages name the same socket and the same lock exactly where the variable decodes, the
environment means the same stripped and unstripped, and the name either fits under the directory, which
both read alike, or fits under neither spelling of it. -/
theorem sameFiles_iff (lower : Char → List Char) (e : Environ) (l : Login) :
    SameFiles lower e l ↔ Agree lower e l :=
  ⟨agree_of_sameFiles, sameFiles_of_agree⟩

def runUser : Environ := { xdgRuntimeDir := some (text "/run/user/7"), tmpdir := none, uid := 7 }

def paddedLogin : Login := { user := "u", systemName := "s", url := "w", env := " demo" }

/-- A blank before the environment: Python strips it, Rust reads another environment. -/
theorem padded_not_sameFiles : canonEnv asciiLower paddedLogin.env = "demo" ∧
    rustEnv paddedLogin.env = "live" ∧ ¬ SameFiles asciiLower runUser paddedLogin := by
  have hpy : canonEnv asciiLower paddedLogin.env = "demo" := by decide
  have hrust : rustEnv paddedLogin.env = "live" := by decide
  refine ⟨hpy, hrust, fun h => ?_⟩
  have henv := canonEnv_eq_rustEnv.mpr (agree_of_sameFiles h).env
  rw [hpy, hrust] at henv
  exact absurd henv (by decide)

end RithmicNt.Gateway.Paths
