import Mathlib.Data.List.Infix
import RithmicNt.Gateway.Handshake

/-! One environment read three times: by the parent in Rust, by the client library and by the adapter
in Python.  Where they read one login the clients find the parent and are let in. -/

namespace RithmicNt.Gateway.Endpoints

open RithmicNt.Exec RithmicNt.Gateway.KeyHash RithmicNt.Gateway.Handshake

/-- The variables of a process that are text. -/
abbrev Vars := String → Option String

/-- The first variable that is not blank, without the blanks around it. -/
def firstSet (clean : String → String) (vars : Vars) (keys : List String) : Option String :=
  keys.findSome? fun key => ((vars key).map clean).filter (· ≠ "")

def contains (s marker : String) : Bool := marker.toList <:+: s.toList

def defaultUrl : String := "wss://rprotocol.rithmic.com:443"

def defaultSystemName : String := "LucidTrading"

def defaultEnv : String := "Live"

inductive SystemKind
  | production
  | test
  | unknown
  deriving DecidableEq, Repr

def testSystemMarkers : List String := ["TEST", "DEMO", "SANDBOX", "SIM", "PAPER"]

def productionSystemMarkers : List String := ["LUCID", "PRODUCTION", "RITHMIC 01", "RITHMIC 02"]

section Read

variable (upper lower : Char → List Char) (vars : Vars)

/-- `system_kind`, the same in the two languages: production is looked for first. -/
def systemKind (systemName : String) : SystemKind :=
  let name := toUppercase upper systemName
  if productionSystemMarkers.any (contains name) then .production
  else if testSystemMarkers.any (contains name) then .test
  else .unknown

/-- The environment of a system. -/
def derivedEnv (systemName : String) : String :=
  if systemKind upper systemName = .test then
    let name := toUppercase upper systemName
    if contains name "DEMO" || contains name "PAPER" then "Demo" else "Test"
  else "Live"

/-! ### The parent -/

def userKeys : List String := ["RITHMIC_USER", "RITHMIC_USERNAME"]

def urlKeys : List String := ["RITHMIC_GATEWAY", "RITHMIC_URL"]

def systemKeys : List String := ["RITHMIC_SYSTEM", "RITHMIC_SYSTEM_NAME"]

def envKeys : List String := ["RITHMIC_ENV"]

def envFirst (keys : List String) : Option String := firstSet trim vars keys

structure Endpoint where
  systemName : String
  url : String
  envName : String
  deriving DecidableEq, Repr

inductive Failure
  | userRequired
  | passwordRequired
  | testWithoutUrl (systemName : String)
  | invalidEnv (envName : String)
  deriving DecidableEq, Repr

def resolveEndpoint : Except Failure Endpoint :=
  let systemName := (envFirst vars systemKeys).getD defaultSystemName
  let explicitUrl := envFirst vars urlKeys
  if systemKind upper systemName = .test ∧ explicitUrl = none then .error (.testWithoutUrl systemName)
  else
    .ok { systemName
          url := explicitUrl.getD defaultUrl
          envName := (envFirst vars envKeys).getD (derivedEnv upper systemName) }

inductive VenueEnv
  | live
  | demo
  | test
  deriving DecidableEq, Repr

def VenueEnv.fromStr (s : String) : Option VenueEnv :=
  if s = "demo" ∨ s = "development" then some .demo
  else if s = "live" ∨ s = "production" then some .live
  else if s = "test" then some .test
  else none

/-- What `run` makes of the variables, up to the fingerprint.  The account is taken as it stands. -/
def parentFingerprint : Except Failure Fingerprint := do
  let some user := envFirst vars userKeys | throw .userRequired
  if vars "RITHMIC_PASSWORD" = none then throw .passwordRequired
  let ep ← resolveEndpoint upper vars
  if VenueEnv.fromStr (pyLower lower ep.envName) = none then throw (.invalidEnv ep.envName)
  return {
    login := ⟨user, ep.systemName, ep.url, ep.envName⟩
    accountId := (vars "RITHMIC_ACCOUNT_ID").getD ""
    fcmId := (vars "RITHMIC_FCM_ID").getD ""
    ibId := (vars "RITHMIC_IB_ID").getD "" }

def expectedAuthToken : String := (vars "RITHMIC_GATEWAY_AUTH_TOKEN").getD ""

/-! ### The client library -/

def pyEnvFirst (keys : List String) : Option String := firstSet strip vars keys

def retiredKnobs : List String :=
  ["RITHMIC_GATEWAY_CLIENT_MODE", "RITHMIC_GATEWAY_SPAWN_POLICY", "RITHMIC_GATEWAY_AUTO_SPAWN"]

inductive ConfigError
  | retiredKnob (name value : String)
  | missingUser
  | missingConnectMode
  | invalidConnectMode (raw : String)
  | missingPassword
  | missingUrl (keys : List String)
  | testWithoutUrl (keys : List String)
  | missingCredentials
  deriving DecidableEq, Repr

def rejectRetiredClientKnobs : Except ConfigError Unit :=
  retiredKnobs.forM fun name =>
    match pyEnvFirst vars [name] with
    | some value => throw (.retiredKnob name value)
    | none => pure ()

/-- The token that both Python clients send. -/
def clientToken : String := (pyEnvFirst vars ["RITHMIC_GATEWAY_AUTH_TOKEN"]).getD ""

/-- `GatewayConfig.from_env`, as the handshake of its client. -/
def gatewayConfig : Except ConfigError Hello := do
  rejectRetiredClientKnobs vars
  let some user := pyEnvFirst vars ["RITHMIC_USER", "RITHMIC_USERNAME"] | throw .missingUser
  return {
    login :=
      { user
        systemName := (pyEnvFirst vars ["RITHMIC_SYSTEM", "RITHMIC_SYSTEM_NAME"]).getD "LucidTrading"
        url := (pyEnvFirst vars ["RITHMIC_GATEWAY", "RITHMIC_URL"]).getD
          "wss://rprotocol.rithmic.com:443"
        env := (pyEnvFirst vars ["RITHMIC_ENV"]).getD "Live" }
    accountId := (pyEnvFirst vars ["RITHMIC_ACCOUNT_ID"]).getD ""
    fcmId := (pyEnvFirst vars ["RITHMIC_FCM_ID"]).getD ""
    ibId := (pyEnvFirst vars ["RITHMIC_IB_ID"]).getD ""
    authToken := clientToken vars }

end Read

/-! ### The adapter -/

/-- `_EnvSource`, with the keys that a session is opened with. -/
structure EnvSource where
  env : String
  userKeys : List String
  passwordKeys : List String
  systemKeys : List String
  urlKeys : List String
  accountKeys : List String
  fcmKeys : List String
  ibKeys : List String
  systemDefault : String
  urlDefault : Option String := none
  legacyUrlKeys : List String := []
  lucidDefaults : Bool := false

/-- The source that defaults to LucidTrading. -/
def lucidSource : EnvSource where
  env := "Live"
  userKeys := ["RITHMIC_USER", "RHITMIC_USERNAME", "RITHMIC_USERNAME"]
  passwordKeys := ["RITHMIC_PASSWORD", "RHITMIC_PASSWORD"]
  systemKeys := ["RITHMIC_SYSTEM", "RITHMIC_SYSTEM_NAME", "RITHMIC_LIVE_SYSTEM_NAME"]
  urlKeys := ["RITHMIC_GATEWAY", "RITHMIC_LIVE_URL"]
  accountKeys := ["RITHMIC_ACCOUNT_ID", "ACCOUNT_ID", "RITHMIC_LIVE_ACCOUNT_ID",
    "RHITMIC_ACCOUNT_ID"]
  fcmKeys := ["RITHMIC_FCM_ID", "FCM_ID", "RITHMIC_LIVE_FCM_ID"]
  ibKeys := ["RITHMIC_IB_ID", "IB_ID", "RITHMIC_LIVE_IB_ID"]
  systemDefault := "Rithmic 01"
  legacyUrlKeys := ["RITHMIC_URL", "RHITMIC_URL"]
  lucidDefaults := true

def liveSource : EnvSource where
  env := "Live"
  userKeys := ["RITHMIC_LIVE_USER"]
  passwordKeys := ["RITHMIC_LIVE_PW"]
  systemKeys := ["RITHMIC_LIVE_SYSTEM_NAME", "RITHMIC_SYSTEM"]
  urlKeys := ["RITHMIC_LIVE_URL", "RITHMIC_GATEWAY"]
  accountKeys := ["RITHMIC_LIVE_ACCOUNT_ID", "RITHMIC_ACCOUNT_ID"]
  fcmKeys := ["RITHMIC_LIVE_FCM_ID", "RITHMIC_FCM_ID"]
  ibKeys := ["RITHMIC_LIVE_IB_ID", "RITHMIC_IB_ID"]
  systemDefault := defaultSystemName
  urlDefault := some defaultUrl

def testSource : EnvSource where
  env := "Test"
  userKeys := ["RITHMIC_TEST_USER"]
  passwordKeys := ["RITHMIC_TEST_PW", "RITHMIC_TEST_PASSWORD"]
  systemKeys := ["RITHMIC_TEST_SYSTEM_NAME", "RITHMIC_SYSTEM_NAME", "RITHMIC_SYSTEM"]
  urlKeys := ["RITHMIC_TEST_URL", "RITHMIC_GATEWAY"]
  accountKeys := ["RITHMIC_TEST_ACCOUNT_ID", "RITHMIC_ACCOUNT_ID"]
  fcmKeys := ["RITHMIC_TEST_FCM_ID", "RITHMIC_FCM_ID"]
  ibKeys := ["RITHMIC_TEST_IB_ID", "RITHMIC_IB_ID"]
  systemDefault := "Rithmic Test"

def demoSource : EnvSource where
  env := "Demo"
  userKeys := ["RITHMIC_DEMO_USER"]
  passwordKeys := ["RITHMIC_DEMO_PW"]
  systemKeys := ["RITHMIC_DEMO_SYSTEM_NAME", "RITHMIC_SYSTEM"]
  urlKeys := ["RITHMIC_DEMO_URL"]
  accountKeys := ["RITHMIC_DEMO_ACCOUNT_ID", "RITHMIC_ACCOUNT_ID"]
  fcmKeys := ["RITHMIC_DEMO_FCM_ID", "RITHMIC_FCM_ID"]
  ibKeys := ["RITHMIC_DEMO_IB_ID", "RITHMIC_IB_ID"]
  systemDefault := "Rithmic Paper Trading"

def envSources : List EnvSource := [lucidSource, liveSource, testSource, demoSource]

inductive ConnectMode
  | direct
  | gateway
  deriving DecidableEq, Repr

section Adapter

variable (upper lower : Char → List Char) (preferLucid : Bool) (vars : Vars)

def connectMode : Except ConfigError ConnectMode := do
  let some raw := pyEnvFirst vars ["RITHMIC_CONNECT_MODE"] | throw .missingConnectMode
  rejectRetiredClientKnobs vars
  let key := pyLower lower raw
  if key = "direct" then return .direct
  else if key = "gateway" then return .gateway
  else throw (.invalidConnectMode raw)

namespace EnvSource

variable (s : EnvSource)

/-- System and URL before the guard.  A legacy URL of the test system falls back to production where
the Lucid defaults are preferred. -/
def systemAndUrl : Except ConfigError (String × String) :=
  let lucid := preferLucid && s.lucidDefaults
  let systemName := (pyEnvFirst vars s.systemKeys).getD
    (if lucid then defaultSystemName else s.systemDefault)
  let fallback : Except ConfigError (String × String) :=
    match if lucid then some defaultUrl else s.urlDefault with
    | some url => .ok (systemName, url)
    | none => .error (.missingUrl s.urlKeys)
  match pyEnvFirst vars s.urlKeys with
  | some url => .ok (systemName, url)
  | none =>
    match pyEnvFirst vars s.legacyUrlKeys with
    | some legacy =>
      if lucid && contains legacy "rituz00100" then .ok (defaultSystemName, defaultUrl)
      else .ok (systemName, legacy)
    | none => fallback

/-- The guard of the Lucid path, and the environment. -/
def guarded (systemName url : String) : Except ConfigError (String × String) :=
  if preferLucid && s.lucidDefaults then
    match systemKind upper systemName with
    | .test =>
      if (pyEnvFirst vars (s.urlKeys ++ s.legacyUrlKeys)).isNone ∧ url = defaultUrl then
        match s.urlDefault with
        | none => .error (.testWithoutUrl s.urlKeys)
        | some fallback => .ok (fallback, derivedEnv upper systemName)
      else .ok (url, derivedEnv upper systemName)
    | .production => .ok (url, "Live")
    | .unknown => .ok (url, s.env)
  else .ok (url, s.env)

/-- The session of a source whose user is set, as the handshake of a gateway client. -/
def session (user : String) : Except ConfigError (ConnectMode × Hello) := do
  let mode ← connectMode lower vars
  if mode = .direct ∧ pyEnvFirst vars s.passwordKeys = none then throw .missingPassword
  let (systemName, url) ← s.systemAndUrl preferLucid vars
  let (url, env) ← s.guarded upper preferLucid vars systemName url
  return (mode, {
    login := { user, systemName, url, env }
    accountId := (pyEnvFirst vars s.accountKeys).getD ""
    fcmId := (pyEnvFirst vars s.fcmKeys).getD ""
    ibId := (pyEnvFirst vars s.ibKeys).getD ""
    authToken := clientToken vars })

end EnvSource

/-- `SessionConfig.from_env`: the first source whose user is set. -/
def sessionConfig : Except ConfigError (ConnectMode × Hello) :=
  match envSources.findSome? fun s => (pyEnvFirst vars s.userKeys).map fun user => (s, user) with
  | some (s, user) => s.session upper lower preferLucid vars user
  | none => .error .missingCredentials

end Adapter

end RithmicNt.Gateway.Endpoints
