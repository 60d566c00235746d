import RithmicNt.Gateway.KeyHash

/-! The handshake of a client: what the parent checks of it, and what a handshake that is let in says
about its sender. -/

namespace RithmicNt.Gateway.Handshake

open RithmicNt.Gateway.KeyHash

/-- `pb::Handshake`. -/
structure Hello where
  login : Login
  accountId : String := ""
  fcmId : String := ""
  ibId : String := ""
  authToken : String := ""
  deriving DecidableEq, Repr

structure Fingerprint where
  login : Login
  accountId : String := ""
  fcmId : String := ""
  ibId : String := ""
  deriving DecidableEq, Repr

/-- `canon` in `env_aliases_match`: unlike the environment that is hashed, a name that is none of the
aliases has no canonical form. -/
def canon (env : String) : String :=
  let key := toAsciiLowercase env
  if key = "live" ∨ key = "production" then "live"
  else if key = "demo" ∨ key = "development" then "demo"
  else if key = "test" then "test"
  else ""

def envAliasesMatch (a b : String) : Bool := canon a ≠ "" ∧ canon a = canon b

def accountFieldOk (parent client : String) : Bool := parent = "" ∨ parent = client

def Fingerprint.matches (f : Fingerprint) (hs : Hello) : Bool :=
  hs.login.user = f.login.user ∧ hs.login.systemName = f.login.systemName ∧
    hs.login.url = f.login.url ∧
    (hs.login.env = "" ∨ toAsciiLowercase hs.login.env = toAsciiLowercase f.login.env ∨
      envAliasesMatch hs.login.env f.login.env) ∧
    accountFieldOk f.accountId hs.accountId ∧ accountFieldOk f.fcmId hs.fcmId ∧
    accountFieldOk f.ibId hs.ibId

/-- Every byte is compared, whatever the ones before it. -/
def authTokenEq (a b : String) : Bool :=
  if (utf8 a).length ≠ (utf8 b).length then false
  else ((utf8 a).zip (utf8 b)).foldl (fun diff p => diff ||| (p.1 ^^^ p.2)) (0 : UInt8) = 0

inductive Refusal
  | fingerprintMismatch
  | authRequired
  | authFailed
  | notReady
  deriving DecidableEq, Repr

/-- The code and the message of the error frame. -/
def Refusal.texts : Refusal → String × String
  | fingerprintMismatch =>
    ("fingerprint_mismatch", "handshake does not match this gateway's credential set")
  | authRequired =>
    ("auth_required", "empty auth_token is only accepted from a same-UID unix peer")
  | authFailed => ("auth_failed", "auth_token rejected")
  | notReady => ("not_ready", "gateway not Ready (plants not connected)")

structure Parent where
  fingerprint : Fingerprint
  expectedAuthToken : String := ""
  ready : Bool := true
  deriving DecidableEq, Repr

def authorizeHandshake (p : Parent) (hs : Hello) (sameUid : Bool) : Except Refusal Unit := do
  if !p.fingerprint.matches hs then throw .fingerprintMismatch
  if hs.authToken = "" then
    if !sameUid then throw .authRequired
  else if p.expectedAuthToken = "" ∨ !authTokenEq hs.authToken p.expectedAuthToken then
    throw .authFailed
  if !p.ready then throw .notReady

/-! ### Tokens -/

theorem utf8_injective {s t : String} (h : utf8 s = utf8 t) : s = t := by
  rw [← String.toByteArray_inj, ← String.utf8Encode_toList, ← String.utf8Encode_toList]
  exact congrArg List.toByteArray h

theorem foldl_or_eq_zero {l : List (UInt8 × UInt8)} {d : UInt8} :
    l.foldl (fun diff p => diff ||| (p.1 ^^^ p.2)) d = 0 ↔ d = 0 ∧ ∀ p ∈ l, p.1 = p.2 := by
  induction l generalizing d with
  | nil => simp
  | cons p l ih =>
    rw [List.foldl_cons, ih, UInt8.or_eq_zero_iff, UInt8.xor_eq_zero_iff]
    simp [and_assoc]

theorem eq_of_zip {a b : List UInt8} (hlength : a.length = b.length)
    (h : ∀ p ∈ a.zip b, p.1 = p.2) : a = b := by
  induction a generalizing b with
  | nil => exact (List.length_eq_zero_iff.mp hlength.symm).symm
  | cons x a ih =>
    cases b with
    | nil => cases hlength
    | cons y b =>
      rw [List.zip_cons_cons, List.forall_mem_cons] at h
      have hxy : x = y := h.1
      rw [hxy, ih (Nat.succ.inj hlength) h.2]

theorem zip_self_eq (a : List UInt8) : ∀ p ∈ a.zip a, p.1 = p.2 := by
  induction a with
  | nil => simp
  | cons x a ih =>
    rw [List.zip_cons_cons, List.forall_mem_cons]
    exact ⟨rfl, ih⟩

theorem authTokenEq_iff {a b : String} : authTokenEq a b = true ↔ a = b := by
  unfold authTokenEq
  constructor
  · intro h
    split at h
    · cases h
    · next hlength =>
      have hzero := foldl_or_eq_zero.mp (of_decide_eq_true h)
      exact utf8_injective (eq_of_zip (not_not.mp hlength) hzero.2)
  · rintro rfl
    rw [if_neg (by simp), decide_eq_true_iff, foldl_or_eq_zero]
    exact ⟨rfl, zip_self_eq _⟩

/-! ### Who is let in -/

/-- The token is the parent's, or there is none and the peer has the parent's user id. -/
def Trusted (p : Parent) (hs : Hello) (sameUid : Bool) : Prop :=
  (hs.authToken = "" ∧ sameUid = true) ∨
    (hs.authToken ≠ "" ∧ hs.authToken = p.expectedAuthToken)

theorem trusted_iff {p : Parent} {hs : Hello} {sameUid : Bool} (hempty : hs.authToken ≠ "") :
    Trusted p hs sameUid ↔
      p.expectedAuthToken ≠ "" ∧ authTokenEq hs.authToken p.expectedAuthToken = true := by
  rw [authTokenEq_iff]
  constructor
  · rintro (⟨htoken, -⟩ | ⟨-, htoken⟩)
    · exact absurd htoken hempty
    · exact ⟨htoken ▸ hempty, htoken⟩
  · rintro ⟨-, htoken⟩
    exact .inr ⟨hempty, htoken⟩

theorem authorizeHandshake_ok_iff {p : Parent} {hs : Hello} {sameUid : Bool} :
    authorizeHandshake p hs sameUid = .ok () ↔
      p.fingerprint.matches hs = true ∧ Trusted p hs sameUid ∧ p.ready = true := by
  unfold authorizeHandshake
  cases hmatch : p.fingerprint.matches hs with
  | false => simp [bind, Except.bind, throw, throwThe, MonadExceptOf.throw]
  | true =>
    by_cases hempty : hs.authToken = ""
    · cases sameUid <;> cases hready : p.ready <;>
        simp [Trusted, hempty, bind, Except.bind, throw, throwThe, MonadExceptOf.throw, pure,
          Except.pure]
    · rw [trusted_iff hempty]
      by_cases hnone : p.expectedAuthToken = "" <;>
        cases htoken : authTokenEq hs.authToken p.expectedAuthToken <;>
        cases hready : p.ready <;>
        simp [hempty, hnone, bind, Except.bind, throw, throwThe, MonadExceptOf.throw, pure,
          Except.pure]

theorem rustEnv_of_canon {a b : String} (h : envAliasesMatch a b = true) : rustEnv a = rustEnv b := by
  have hcanon : ∀ env, canon env ≠ "" → rustEnv env = canon env := by
    intro env hne
    unfold canon at hne ⊢
    unfold rustEnv
    grind
  obtain ⟨hne, heq⟩ := of_decide_eq_true h
  rw [hcanon a hne, hcanon b (heq ▸ hne), heq]

/-- A handshake that matches and names an environment hashes as the parent does: it comes from a client
of the parent's own socket and credential lock. -/
theorem credentialKeyHash_of_matches {f : Fingerprint} {hs : Hello} (h : f.matches hs = true)
    (henv : hs.login.env ≠ "") : credentialKeyHash hs.login = credentialKeyHash f.login := by
  obtain ⟨huser, hsystem, hurl, hany, -⟩ := of_decide_eq_true h
  have hrust : rustEnv hs.login.env = rustEnv f.login.env := by
    rcases hany with hnone | hcase | halias
    · exact absurd hnone henv
    · simp only [rustEnv, hcase]
    · exact rustEnv_of_canon halias
  simp only [credentialKeyHash, keyText, huser, hsystem, hurl, hrust]

end RithmicNt.Gateway.Handshake
