import RithmicNt.Gateway.Endpoints
import RithmicNt.Lib.Results

/-! Where the three readings of one environment agree: exactly when a client that shares the parent's
environment is let in. -/

namespace RithmicNt.Gateway.Endpoints

open RithmicNt.Lib RithmicNt.Exec RithmicNt.Gateway.KeyHash RithmicNt.Gateway.Handshake

/-- No variable begins or ends with one of the separators that only Python counts as blank. -/
def Plain (vars : Vars) : Prop := ∀ key v, vars key = some v → strip v = trim v

/-- The variable has no blanks around it. -/
def Tidy (vars : Vars) (key : String) : Prop := ∀ v, vars key = some v → strip v = v

/-- The variables of an account have no blanks around them. -/
structure TidyAccount (vars : Vars) : Prop where
  account : Tidy vars "RITHMIC_ACCOUNT_ID"
  fcm : Tidy vars "RITHMIC_FCM_ID"
  ib : Tidy vars "RITHMIC_IB_ID"

/-- The peer needs no token, or the token has no blanks around it. -/
def TokenPasses (vars : Vars) (sameUid : Bool) : Prop :=
  if pyEnvFirst vars ["RITHMIC_GATEWAY_AUTH_TOKEN"] = none then sameUid = true
  else Tidy vars "RITHMIC_GATEWAY_AUTH_TOKEN"

variable {upper lower : Char → List Char} {vars : Vars} {f : Fingerprint} {hs : Hello}

theorem firstSet_congr {clean clean' : String → String}
    (h : ∀ key v, vars key = some v → clean v = clean' v) (keys : List String) :
    firstSet clean vars keys = firstSet clean' vars keys := by
  unfold firstSet
  congr 1
  funext key
  cases hv : vars key with
  | none => rfl
  | some v => simp [h key v hv]

theorem Plain.pyEnvFirst (h : Plain vars) (keys : List String) :
    pyEnvFirst vars keys = envFirst vars keys := firstSet_congr h keys

theorem firstSet_append (clean : String → String) (keys more : List String) :
    firstSet clean vars (keys ++ more) =
      (firstSet clean vars keys).or (firstSet clean vars more) := by
  simp [firstSet, List.findSome?_append]

theorem firstSet_ne_empty {clean : String → String} {keys : List String} {v : String}
    (h : firstSet clean vars keys = some v) : v ≠ "" := by
  obtain ⟨key, -, hv⟩ := List.exists_of_findSome?_eq_some h
  simpa using (Option.filter_eq_some_iff.mp hv).2

/-- One variable, cleaned, with no value where it is blank. -/
theorem firstSet_one (clean : String → String) (key : String) :
    firstSet clean vars [key] = ((vars key).map clean).filter (· ≠ "") := by
  unfold firstSet
  rw [List.findSome?_cons]
  cases ((vars key).map clean).filter (· ≠ "") with
  | none => rfl
  | some v => rfl

@[simp] theorem strip_empty : strip "" = "" := rfl

/-- A parent's variable as it stands, beside a client's without blanks. -/
theorem accountFieldOk_iff (vars : Vars) (key : String) :
    accountFieldOk ((vars key).getD "") ((pyEnvFirst vars [key]).getD "") = true ↔
      Tidy vars key := by
  unfold accountFieldOk pyEnvFirst Tidy
  rw [firstSet_one]
  cases hv : vars key with
  | none => simp
  | some v =>
    by_cases hblank : strip v = ""
    · have hnone : (Option.map strip (some v)).filter (· ≠ "") = none := by simp [hblank]
      rw [hnone]
      simp only [Option.getD_some, Option.getD_none, or_self, decide_eq_true_eq,
        Option.some.injEq, forall_eq', hblank]
      exact eq_comm
    · simp only [Option.map_some, Option.getD_some, Option.some.injEq, decide_eq_true_eq]
      rw [Option.filter_some, if_pos (by simpa using hblank), Option.getD_some]
      constructor
      · rintro (rfl | heq) w rfl
        · rfl
        · exact heq.symm
      · intro htidy
        exact .inr (htidy v rfl).symm

theorem trusted_clientToken (h : hs.authToken = clientToken vars) {sameUid ready : Bool} :
    Trusted ⟨f, expectedAuthToken vars, ready⟩ hs sameUid ↔ TokenPasses vars sameUid := by
  unfold Trusted TokenPasses
  rw [h]
  cases htoken : pyEnvFirst vars ["RITHMIC_GATEWAY_AUTH_TOKEN"] with
  | none => simp [clientToken, htoken]
  | some t =>
    have hne := firstSet_ne_empty htoken
    have hok := accountFieldOk_iff vars "RITHMIC_GATEWAY_AUTH_TOKEN"
    have hset : ∃ v, vars "RITHMIC_GATEWAY_AUTH_TOKEN" = some v ∧ strip v = t := by
      rw [pyEnvFirst, firstSet_one] at htoken
      obtain ⟨hv, -⟩ := Option.filter_eq_some_iff.mp htoken
      exact Option.map_eq_some_iff.mp hv
    obtain ⟨v, hv, rfl⟩ := hset
    simp only [clientToken, htoken, Option.getD_some, hne, false_and, ne_eq, not_false_eq_true,
      true_and, false_or, reduceCtorEq, if_false, expectedAuthToken, hv, Tidy, Option.some.injEq,
      forall_eq']

/-! ### The parent -/

/-- What the parent has read once it has its fingerprint. -/
theorem parentFingerprint_eq (h : parentFingerprint upper lower vars = .ok f) :
    ∃ user, envFirst vars userKeys = some user ∧
      f.login.user = user ∧
      f.login.systemName = (envFirst vars systemKeys).getD defaultSystemName ∧
      f.login.url = (envFirst vars urlKeys).getD defaultUrl ∧
      f.login.env = (envFirst vars envKeys).getD (derivedEnv upper f.login.systemName) ∧
      f.accountId = (vars "RITHMIC_ACCOUNT_ID").getD "" ∧
      f.fcmId = (vars "RITHMIC_FCM_ID").getD "" ∧ f.ibId = (vars "RITHMIC_IB_ID").getD "" ∧
      (systemKind upper f.login.systemName = .test → envFirst vars urlKeys ≠ none) := by
  unfold parentFingerprint at h
  cases huser : envFirst vars userKeys with
  | none =>
    rw [huser] at h
    cases h
  | some user =>
    simp only [huser] at h
    split at h
    · cases h
    · obtain ⟨ep, hep, h⟩ := bind_eq_ok.mp h
      split at h
      · cases h
      · cases h
        unfold resolveEndpoint at hep
        simp only at hep
        split at hep
        · cases hep
        · next hguard =>
          cases hep
          exact ⟨user, rfl, rfl, rfl, rfl, rfl, rfl, rfl, rfl, fun hkind hnone => hguard ⟨hkind, hnone⟩⟩

theorem derivedEnv_eq_live_iff (systemName : String) :
    derivedEnv upper systemName = "Live" ↔ systemKind upper systemName ≠ .test := by
  unfold derivedEnv
  split
  · next htest =>
    simp only
    split <;> simp [htest]
  · next htest => simp [htest]

theorem derivedEnv_cases (systemName : String) : derivedEnv upper systemName = "Live" ∨
    derivedEnv upper systemName = "Demo" ∨ derivedEnv upper systemName = "Test" := by
  unfold derivedEnv
  split
  · simp only
    split <;> simp
  · exact .inl rfl

/-- A handshake of the parent's user, system and URL: what is left to check. -/
theorem matches_iff (huser : hs.login.user = f.login.user)
    (hsystem : hs.login.systemName = f.login.systemName) (hurl : hs.login.url = f.login.url)
    (haccount : f.accountId = (vars "RITHMIC_ACCOUNT_ID").getD "" ∧
      f.fcmId = (vars "RITHMIC_FCM_ID").getD "" ∧ f.ibId = (vars "RITHMIC_IB_ID").getD "")
    (hclient : hs.accountId = (pyEnvFirst vars ["RITHMIC_ACCOUNT_ID"]).getD "" ∧
      hs.fcmId = (pyEnvFirst vars ["RITHMIC_FCM_ID"]).getD "" ∧
      hs.ibId = (pyEnvFirst vars ["RITHMIC_IB_ID"]).getD "") :
    f.matches hs = true ↔ (hs.login.env = "" ∨
      toAsciiLowercase hs.login.env = toAsciiLowercase f.login.env ∨
      envAliasesMatch hs.login.env f.login.env = true) ∧ TidyAccount vars := by
  obtain ⟨haccount, hfcm, hib⟩ := haccount
  obtain ⟨haccount', hfcm', hib'⟩ := hclient
  unfold Fingerprint.matches
  rw [decide_eq_true_iff, haccount, haccount', hfcm, hfcm', hib, hib', accountFieldOk_iff,
    accountFieldOk_iff, accountFieldOk_iff]
  constructor
  · rintro ⟨-, -, -, henv, h₁, h₂, h₃⟩
    exact ⟨henv, h₁, h₂, h₃⟩
  · rintro ⟨henv, h₁, h₂, h₃⟩
    exact ⟨huser, hsystem, hurl, henv, h₁, h₂, h₃⟩

/-! ### The client library -/

theorem gatewayConfig_eq (h : gatewayConfig vars = .ok hs) :
    pyEnvFirst vars userKeys = some hs.login.user ∧
      hs.login.systemName = (pyEnvFirst vars systemKeys).getD defaultSystemName ∧
      hs.login.url = (pyEnvFirst vars urlKeys).getD defaultUrl ∧
      hs.login.env = (pyEnvFirst vars envKeys).getD defaultEnv ∧
      (hs.accountId = (pyEnvFirst vars ["RITHMIC_ACCOUNT_ID"]).getD "" ∧
        hs.fcmId = (pyEnvFirst vars ["RITHMIC_FCM_ID"]).getD "" ∧
        hs.ibId = (pyEnvFirst vars ["RITHMIC_IB_ID"]).getD "") ∧
      hs.authToken = clientToken vars := by
  unfold gatewayConfig at h
  obtain ⟨-, -, h⟩ := bind_eq_ok.mp h
  cases huser : pyEnvFirst vars userKeys with
  | none =>
    rw [show pyEnvFirst vars ["RITHMIC_USER", "RITHMIC_USERNAME"] = none from huser] at h
    cases h
  | some user =>
    rw [show pyEnvFirst vars ["RITHMIC_USER", "RITHMIC_USERNAME"] = some user from huser] at h
    cases h
    exact ⟨rfl, rfl, rfl, rfl, ⟨rfl, rfl, rfl⟩, rfl⟩

theorem login_ext {l l' : Login} (huser : l.user = l'.user) (hsystem : l.systemName = l'.systemName)
    (hurl : l.url = l'.url) : l = l' ↔ l.env = l'.env := by
  cases l
  cases l'
  simp_all

/-- A client of the library and a parent that share their environment have one login exactly where the
environment is named or the system is no test system, and the client is let in exactly where they have
one login and neither the account nor the token has blanks around it. -/
theorem client_let_in_iff (hplain : Plain vars) (hparent : parentFingerprint upper lower vars = .ok f)
    (hclient : gatewayConfig vars = .ok hs) (sameUid : Bool) :
    (f.login = hs.login ↔
      envFirst vars envKeys ≠ none ∨ systemKind upper f.login.systemName ≠ .test) ∧
    (authorizeHandshake ⟨f, expectedAuthToken vars, true⟩ hs sameUid = .ok () ↔
      f.login = hs.login ∧ TidyAccount vars ∧ TokenPasses vars sameUid) := by
  obtain ⟨user, huser, hfuser, hfsystem, hfurl, hfenv, hfaccount, hffcm, hfib, -⟩ :=
    parentFingerprint_eq hparent
  obtain ⟨hcuser, hcsystem, hcurl, hcenv, haccounts, htoken⟩ := gatewayConfig_eq hclient
  rw [hplain.pyEnvFirst] at hcuser hcsystem hcurl hcenv
  have huser : f.login.user = hs.login.user := by
    rw [hfuser]
    exact Option.some.inj (huser.symm.trans hcuser)
  have hsystem := hfsystem.trans hcsystem.symm
  have hurl := hfurl.trans hcurl.symm
  have hlogin : f.login = hs.login ↔ f.login.env = hs.login.env := login_ext huser hsystem hurl
  have henv : f.login.env = hs.login.env ↔
      envFirst vars envKeys ≠ none ∨ systemKind upper f.login.systemName ≠ .test := by
    rw [hfenv, hcenv]
    cases henv : envFirst vars envKeys with
    | none => simpa [defaultEnv] using derivedEnv_eq_live_iff f.login.systemName
    | some e => simp
  refine ⟨hlogin.trans henv, ?_⟩
  rw [authorizeHandshake_ok_iff, trusted_clientToken htoken,
    matches_iff huser.symm hsystem.symm hurl.symm ⟨hfaccount, hffcm, hfib⟩ haccounts, hlogin]
  have hmatch : (hs.login.env = "" ∨
      toAsciiLowercase hs.login.env = toAsciiLowercase f.login.env ∨
      envAliasesMatch hs.login.env f.login.env = true) ↔ f.login.env = hs.login.env := by
    rw [hfenv, hcenv]
    cases henv : envFirst vars envKeys with
    | none =>
      simp only [Option.getD_none]
      rcases @derivedEnv_cases upper f.login.systemName with hd | hd | hd <;> rw [hd] <;>
        decide
    | some e => simp
  rw [hmatch]
  constructor
  · rintro ⟨⟨hsame, htidy⟩, hpasses, -⟩
    exact ⟨hsame, htidy, hpasses⟩
  · rintro ⟨hsame, htidy, hpasses⟩
    exact ⟨⟨hsame, htidy⟩, hpasses, rfl⟩

/-- The variables of a list. -/
def ofPairs (pairs : List (String × String)) : Vars := fun key =>
  (pairs.find? (·.1 = key)).map Prod.snd

theorem plain_ofPairs {pairs : List (String × String)} (h : ∀ p ∈ pairs, strip p.2 = trim p.2) :
    Plain (ofPairs pairs) := by
  intro key v hv
  obtain ⟨p, hp, rfl⟩ := Option.map_eq_some_iff.mp hv
  exact h p (List.mem_of_find?_eq_some hp)

/-- A test system, with its URL and no environment. -/
def testPairs : List (String × String) :=
  [("RITHMIC_USER", "u"), ("RITHMIC_PASSWORD", "p"), ("RITHMIC_SYSTEM", "Rithmic Test"),
    ("RITHMIC_GATEWAY", "wss://x:443"), ("RITHMIC_CONNECT_MODE", "gateway")]

/-- Nobody names the environment of a test system: the parent logs in to the test environment, and
does not let the client in, which asks for the live one. -/
theorem client_let_in_iff_unnamed : ∃ f hs,
    parentFingerprint asciiUpper asciiLower (ofPairs testPairs) = .ok f ∧
      gatewayConfig (ofPairs testPairs) = .ok hs ∧ f.login.env = "Test" ∧ hs.login.env = "Live" ∧
      f.login ≠ hs.login ∧
      authorizeHandshake ⟨f, expectedAuthToken (ofPairs testPairs), true⟩ hs true ≠ .ok () := by
  obtain ⟨f, hs, hf, hhs, henv, hlive, hunnamed, hkind⟩ : ∃ f hs,
      parentFingerprint asciiUpper asciiLower (ofPairs testPairs) = .ok f ∧
        gatewayConfig (ofPairs testPairs) = .ok hs ∧ f.login.env = "Test" ∧ hs.login.env = "Live" ∧
        envFirst (ofPairs testPairs) envKeys = none ∧
        systemKind asciiUpper f.login.systemName = .test :=
    ⟨_, _, rfl, rfl, by decide, by decide, by decide, by decide⟩
  obtain ⟨hlogin, hlet⟩ := client_let_in_iff (plain_ofPairs (by decide)) hf hhs true
  have hne : f.login ≠ hs.login := by
    rw [ne_eq, hlogin]
    simp [hunnamed, hkind]
  exact ⟨f, hs, hf, hhs, henv, hlive, hne, fun hok => hne (hlet.mp hok).1⟩

/-! ### The adapter -/

/-- The variables of the lucid source that the parent does not read. -/
def adapterKeys : List String :=
  ["RHITMIC_USERNAME", "RHITMIC_PASSWORD", "RITHMIC_LIVE_SYSTEM_NAME", "RITHMIC_LIVE_URL",
    "RHITMIC_URL", "ACCOUNT_ID", "RITHMIC_LIVE_ACCOUNT_ID", "RHITMIC_ACCOUNT_ID", "FCM_ID",
    "RITHMIC_LIVE_FCM_ID", "IB_ID", "RITHMIC_LIVE_IB_ID"]

/-- The environment names the login by the parent's variables. -/
def Shared (vars : Vars) : Prop := ∀ key ∈ adapterKeys, pyEnvFirst vars [key] = none

instance : DecidablePred Shared := fun _ => inferInstanceAs (Decidable (∀ key ∈ adapterKeys, _))

/-- The only URL is one of the test system's, which the adapter replaces by production. -/
def Redirected (vars : Vars) : Prop :=
  envFirst vars ["RITHMIC_GATEWAY"] = none ∧
    ∃ url, envFirst vars ["RITHMIC_URL"] = some url ∧ contains url "rituz00100" = true

/-- The named environment, if any, is that of the system, which is the only one the adapter knows. -/
def NamedAsDerived (upper : Char → List Char) (vars : Vars) (systemName : String) : Prop :=
  ∀ env, envFirst vars envKeys = some env →
    toAsciiLowercase (derivedEnv upper systemName) = toAsciiLowercase env ∨
      envAliasesMatch (derivedEnv upper systemName) env = true

theorem firstSet_cons (clean : String → String) (key : String) (keys : List String) :
    firstSet clean vars (key :: keys) = (firstSet clean vars [key]).or (firstSet clean vars keys) :=
  firstSet_append clean [key] keys

/-- Variables that are not set are as good as not asked for. -/
theorem firstSet_filter {clean : String → String} {unset : List String}
    (h : ∀ key ∈ unset, firstSet clean vars [key] = none) (keys : List String) :
    firstSet clean vars keys = firstSet clean vars (keys.filter (· ∉ unset)) := by
  induction keys with
  | nil => rfl
  | cons key keys ih =>
    rw [firstSet_cons, ih]
    by_cases hkey : key ∈ unset
    · rw [h key hkey, List.filter_cons_of_neg (by simpa using hkey), Option.none_or]
    · rw [List.filter_cons_of_pos (by simpa using hkey), ← firstSet_cons]

theorem Shared.pyEnvFirst (h : Shared vars) {keys keys' : List String}
    (hkeys : keys.filter (· ∉ adapterKeys) = keys') :
    pyEnvFirst vars keys = Endpoints.pyEnvFirst vars keys' := by
  rw [← hkeys]
  exact firstSet_filter h keys

/-- With a user the lucid source is the one that is read. -/
theorem sessionConfig_lucid {preferLucid : Bool} {user : String}
    (h : pyEnvFirst vars lucidSource.userKeys = some user) :
    sessionConfig upper lower preferLucid vars =
      lucidSource.session upper lower preferLucid vars user := by
  simp [sessionConfig, envSources, h]

theorem session_eq {s : EnvSource} {preferLucid : Bool} {user : String} {mode : ConnectMode}
    (h : s.session upper lower preferLucid vars user = .ok (mode, hs)) : ∃ url,
      s.systemAndUrl preferLucid vars = .ok (hs.login.systemName, url) ∧
      s.guarded upper preferLucid vars hs.login.systemName url = .ok (hs.login.url, hs.login.env) ∧
      hs.login.user = user ∧ hs.accountId = (pyEnvFirst vars s.accountKeys).getD "" ∧
      hs.fcmId = (pyEnvFirst vars s.fcmKeys).getD "" ∧
      hs.ibId = (pyEnvFirst vars s.ibKeys).getD "" ∧ hs.authToken = clientToken vars := by
  unfold EnvSource.session at h
  obtain ⟨mode', -, h⟩ := bind_eq_ok.mp h
  split at h
  · cases h
  · obtain ⟨⟨systemName, url⟩, hsystem, h⟩ := bind_eq_ok.mp h
    obtain ⟨⟨url', env⟩, hguard, h⟩ := bind_eq_ok.mp h
    cases h
    exact ⟨url, hsystem, hguard, rfl, rfl, rfl, rfl, rfl⟩

/-- The guard leaves the URL alone where there is no other default. -/
theorem guarded_eq {systemName url url' env : String}
    (h : lucidSource.guarded upper true vars systemName url = .ok (url', env)) :
    url' = url ∧ env = derivedEnv upper systemName := by
  unfold EnvSource.guarded at h
  rw [if_pos (show (true && lucidSource.lucidDefaults) = true from rfl)] at h
  cases hkind : systemKind upper systemName with
  | test =>
    simp only [hkind] at h
    split at h
    · cases h
    · cases h
      exact ⟨rfl, rfl⟩
  | production | unknown =>
    simp only [hkind] at h
    cases h
    exact ⟨rfl, (derivedEnv_eq_live_iff systemName |>.mpr (by simp [hkind])).symm⟩

/-- System and URL of the adapter, beside those of the parent. -/
theorem systemAndUrl_eq (hplain : Plain vars) (hshared : Shared vars) :
    lucidSource.systemAndUrl true vars =
      if envFirst vars ["RITHMIC_GATEWAY"] = none ∧
          (envFirst vars ["RITHMIC_URL"]).any (contains · "rituz00100") = true then
        .ok (defaultSystemName, defaultUrl)
      else
        .ok ((envFirst vars systemKeys).getD defaultSystemName,
          (envFirst vars urlKeys).getD defaultUrl) := by
  have hsystem := hshared.pyEnvFirst (show lucidSource.systemKeys.filter (· ∉ adapterKeys) =
    systemKeys by decide)
  have hgateway := hshared.pyEnvFirst (show lucidSource.urlKeys.filter (· ∉ adapterKeys) =
    ["RITHMIC_GATEWAY"] by decide)
  have hlegacy := hshared.pyEnvFirst (show lucidSource.legacyUrlKeys.filter (· ∉ adapterKeys) =
    ["RITHMIC_URL"] by decide)
  have hurl : envFirst vars urlKeys =
      (envFirst vars ["RITHMIC_GATEWAY"]).or (envFirst vars ["RITHMIC_URL"]) :=
    firstSet_cons trim _ _
  unfold EnvSource.systemAndUrl
  rw [hsystem, hgateway, hlegacy, hplain.pyEnvFirst, hplain.pyEnvFirst, hplain.pyEnvFirst, hurl]
  cases envFirst vars ["RITHMIC_GATEWAY"] with
  | some url => simp [lucidSource]
  | none =>
    cases envFirst vars ["RITHMIC_URL"] with
    | none => simp [lucidSource]
    | some url =>
      cases hredirected : contains url "rituz00100" with
      | true => simp [lucidSource, hredirected]
      | false => simp [lucidSource, hredirected]

theorem not_redirected_defaultUrl : contains defaultUrl "rituz00100" = false := by decide

/-- An adapter and a parent that share their environment: the adapter is let in exactly where its URL
is not replaced, a named environment is that of the system, and neither the account nor the token has
blanks around it; and where it is let in, it looks for the parent's own socket and lock. -/
theorem adapter_let_in_iff {mode : ConnectMode} (hplain : Plain vars) (hshared : Shared vars)
    (hparent : parentFingerprint upper lower vars = .ok f)
    (hsession : sessionConfig upper lower true vars = .ok (mode, hs)) (sameUid : Bool) :
    (authorizeHandshake ⟨f, expectedAuthToken vars, true⟩ hs sameUid = .ok () ↔
      ¬ Redirected vars ∧ NamedAsDerived upper vars f.login.systemName ∧ TidyAccount vars ∧
        TokenPasses vars sameUid) ∧
    (authorizeHandshake ⟨f, expectedAuthToken vars, true⟩ hs sameUid = .ok () →
      credentialKeyHash hs.login = credentialKeyHash f.login) := by
  obtain ⟨user, huser, hfuser, hfsystem, hfurl, hfenv, hfaccount, hffcm, hfib, -⟩ :=
    parentFingerprint_eq hparent
  have hread : pyEnvFirst vars lucidSource.userKeys = some user := by
    rw [hshared.pyEnvFirst (show _ = userKeys by decide), hplain.pyEnvFirst, huser]
  rw [sessionConfig_lucid hread] at hsession
  obtain ⟨url, hsystem, hguard, hsuser, hsaccount, hsfcm, hsib, htoken⟩ := session_eq hsession
  obtain ⟨hsurl, hsenv⟩ := guarded_eq hguard
  rw [hshared.pyEnvFirst (show _ = ["RITHMIC_ACCOUNT_ID"] by decide)] at hsaccount
  rw [hshared.pyEnvFirst (show _ = ["RITHMIC_FCM_ID"] by decide)] at hsfcm
  rw [hshared.pyEnvFirst (show _ = ["RITHMIC_IB_ID"] by decide)] at hsib
  have hne : hs.login.env ≠ "" := by
    rw [hsenv]
    rcases @derivedEnv_cases upper hs.login.systemName with hd | hd | hd <;> rw [hd] <;>
      decide
  have hhash : authorizeHandshake ⟨f, expectedAuthToken vars, true⟩ hs sameUid = .ok () →
      credentialKeyHash hs.login = credentialKeyHash f.login := by
    intro hok
    exact credentialKeyHash_of_matches (authorizeHandshake_ok_iff.mp hok).1 hne
  refine ⟨?_, hhash⟩
  rw [authorizeHandshake_ok_iff, trusted_clientToken htoken]
  rw [systemAndUrl_eq hplain hshared] at hsystem
  split at hsystem
  · next hredirected =>
    -- the parent dials the URL that the adapter has replaced
    obtain ⟨hgateway, hany⟩ := hredirected
    obtain ⟨legacy, hlegacy, hcontains⟩ : ∃ legacy,
        envFirst vars ["RITHMIC_URL"] = some legacy ∧ contains legacy "rituz00100" = true := by
      cases hlegacy : envFirst vars ["RITHMIC_URL"] with
      | none => simp [hlegacy] at hany
      | some legacy => exact ⟨legacy, rfl, by simpa [hlegacy] using hany⟩
    have hurls : envFirst vars urlKeys = some legacy := by
      rw [envFirst, urlKeys, firstSet_cons]
      simp only [envFirst] at hgateway hlegacy
      rw [hgateway, hlegacy]
      rfl
    simp only [Except.ok.injEq, Prod.mk.injEq] at hsystem
    have hno : ¬ f.matches hs = true := by
      intro hmatches
      obtain ⟨-, -, hsame, -⟩ := of_decide_eq_true hmatches
      rw [hsurl, ← hsystem.2, hfurl, hurls, Option.getD_some] at hsame
      rw [← hsame, not_redirected_defaultUrl] at hcontains
      cases hcontains
    exact ⟨fun h => absurd h.1 hno, fun h => absurd ⟨hgateway, legacy, hlegacy, hcontains⟩ h.1⟩
  · next hdirect =>
    have hnot : ¬ Redirected vars := by
      rintro ⟨hgateway, legacy, hlegacy, hcontains⟩
      exact hdirect ⟨hgateway, by rw [hlegacy]; exact hcontains⟩
    simp only [Except.ok.injEq, Prod.mk.injEq] at hsystem
    obtain ⟨hssystem, hsurl'⟩ := hsystem
    have hsame : hs.login.systemName = f.login.systemName := hssystem.symm.trans hfsystem.symm
    have hnamed : (hs.login.env = "" ∨
        toAsciiLowercase hs.login.env = toAsciiLowercase f.login.env ∨
        envAliasesMatch hs.login.env f.login.env = true) ↔
        NamedAsDerived upper vars f.login.systemName := by
      unfold NamedAsDerived
      rw [or_iff_right hne, hsenv, hsame, hfenv]
      cases henv : envFirst vars envKeys with
      | none => simp
      | some env => simp
    rw [matches_iff (hsuser.trans hfuser.symm) hsame (hsurl.trans (hsurl'.symm.trans hfurl.symm))
      ⟨hfaccount, hffcm, hfib⟩ ⟨hsaccount, hsfcm, hsib⟩, hnamed]
    constructor
    · rintro ⟨⟨henv, htidy⟩, hpasses, -⟩
      exact ⟨hnot, henv, htidy, hpasses⟩
    · rintro ⟨-, henv, htidy, hpasses⟩
      exact ⟨⟨henv, htidy⟩, hpasses, rfl⟩

/-- The adapter derives the environment of the test system as the parent does, and is let in. -/
theorem adapter_let_in_iff_test : ∃ f mode hs,
    parentFingerprint asciiUpper asciiLower (ofPairs testPairs) = .ok f ∧
      sessionConfig asciiUpper asciiLower true (ofPairs testPairs) = .ok (mode, hs) ∧
      hs.login.env = "Test" ∧
      authorizeHandshake ⟨f, expectedAuthToken (ofPairs testPairs), true⟩ hs true = .ok () ∧
      credentialKeyHash hs.login = credentialKeyHash f.login := by
  obtain ⟨f, mode, hs, hf, hhs, henv⟩ : ∃ f mode hs,
      parentFingerprint asciiUpper asciiLower (ofPairs testPairs) = .ok f ∧
        sessionConfig asciiUpper asciiLower true (ofPairs testPairs) = .ok (mode, hs) ∧
        hs.login.env = "Test" :=
    ⟨_, _, _, rfl, rfl, by decide⟩
  have hunnamed : envFirst (ofPairs testPairs) envKeys = none := by decide
  have hunset : ∀ key, ofPairs testPairs key = none → Tidy (ofPairs testPairs) key := by
    intro key hkey v hv
    rw [hkey] at hv
    cases hv
  obtain ⟨hiff, hhash⟩ := adapter_let_in_iff (plain_ofPairs (by decide))
    (by decide : Shared (ofPairs testPairs)) hf hhs true
  have hok := hiff.mpr ⟨?_, ?_, ?_, ?_⟩
  · exact ⟨f, mode, hs, hf, hhs, henv, hok, hhash hok⟩
  · rintro ⟨hgateway, -⟩
    exact absurd hgateway (by decide)
  · intro env hnamed
    rw [hunnamed] at hnamed
    cases hnamed
  · exact ⟨hunset _ (by decide), hunset _ (by decide), hunset _ (by decide)⟩
  · rw [TokenPasses, if_pos (by decide)]

end RithmicNt.Gateway.Endpoints
