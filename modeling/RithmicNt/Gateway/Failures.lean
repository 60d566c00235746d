import Mathlib.Logic.Function.Iterate
import Mathlib.Tactic.Common

/-! The failure of an order command on its way to the adapter: straight from a session in the process,
or as an error frame that the gateway client reads back, over any number of gateways.  The classes that
the adapter acts on agree for all errors but those whose wire code says that nothing was sent while
their exception says nothing; no order command returns one of these. -/

namespace RithmicNt.Gateway.Failures

/-- `rithmic_host::Error`. -/
inductive Error
  | config (message : String)
  | session (message : String)
  | alreadyConnected
  | channelLagged (plant : String) (skipped : Nat)
  | channelClosed (plant : String)
  | notConnected (plant : String)
  | rithmic (message : String)
  | reconciliationUnavailable (message : String)
  | protocol (message : String)
  | gateway (code message : String)
  | rejected (message : String)
  | notSent (message : String)
  | outcomeUnknown (message : String)
  | transport (message : String)
  deriving DecidableEq, Repr

/-- The `Display` text. -/
def Error.text : Error → String
  | .config message => "config error: " ++ message
  | .session message => "session error: " ++ message
  | .alreadyConnected => "already connected"
  | .channelLagged plant _ => "channel lagged: " ++ plant
  | .channelClosed plant => "channel closed: " ++ plant
  | .notConnected plant => "not connected: " ++ plant
  | .rithmic message => "rithmic error: " ++ message
  | .reconciliationUnavailable message => "order-history reconciliation unavailable: " ++ message
  | .protocol message => "protocol error: " ++ message
  | .gateway code message => "gateway error: " ++ code ++ ": " ++ message
  | .rejected message => "venue rejected: " ++ message
  | .notSent message => "not sent: " ++ message
  | .outcomeUnknown message => "outcome unknown: " ++ message
  | .transport message => "transport error: " ++ message

structure ErrorResponse where
  code : String
  message : String
  deriving DecidableEq, Repr

/-! ### The parent -/

def commandErrorCode : Error → String
  | .rejected _ => "venue_rejected"
  | .notSent _ | .config _ | .notConnected _ | .alreadyConnected => "not_sent"
  | .gateway code _ => code
  | .reconciliationUnavailable _ => "reconciliation_unavailable"
  | _ => "venue_unknown"

/-- The text of the frame: what a client makes a typed error of again goes without its prefix. -/
def payload (e : Error) (code : String) : String :=
  match e with
  | .rejected message => if code = "venue_rejected" then message else e.text
  | .notSent message => if code = "not_sent" then message else e.text
  | .outcomeUnknown message => if code = "venue_unknown" then message else e.text
  | e => e.text

/-- The error frame of a failed request. -/
def reply (e : Error) (fallback : String) : ErrorResponse :=
  match e with
  | .gateway code message => ⟨code, message⟩
  | .reconciliationUnavailable message => ⟨"reconciliation_unavailable", message⟩
  | e =>
    let code := if fallback = "command" then commandErrorCode e else fallback
    ⟨code, payload e code⟩

/-! ### The client -/

def badRequest : String := "bad_request"

def internal : String := "internal"

def mapReply (r : ErrorResponse) : Error :=
  if r.code = "reconciliation_unavailable" then .reconciliationUnavailable r.message
  else if r.code = "venue_rejected" then .rejected r.message
  else if r.code = "not_sent" then .notSent r.message
  else if r.code = badRequest then .notSent r.message
  else if r.code = "not_ready" then .notSent r.message
  else if r.code = "venue_unknown" then .outcomeUnknown r.message
  else if r.code = internal then .outcomeUnknown r.message
  else .gateway r.code r.message

/-- The error of an order command behind one more gateway. -/
def hop (e : Error) : Error := mapReply (reply e "command")

/-! ### The adapter -/

/-- An exception of the extension.  Only a `GatewayError` has the attributes `code` and `message`. -/
inductive PyErr
  | gatewayError (code message : String)
  | valueError (message : String)
  | alreadyConnectedError (message : String)
  | channelLaggedError (message : String)
  | channelClosedError (message : String)
  | notConnectedError (message : String)
  | reconciliationUnavailableError (message : String)
  | runtimeError (message : String)
  deriving DecidableEq, Repr

def PyErr.code : PyErr → Option String
  | .gatewayError code _ => some code
  | _ => none

def normalizeGatewayCode (code : String) : String :=
  if code = "history_denied_live_md" then "capability_denied" else code

def gatewayError (code message : String) : PyErr := .gatewayError (normalizeGatewayCode code) message

def toPyErr : Error → PyErr
  | .gateway code message => gatewayError code message
  | .outcomeUnknown message => gatewayError "outcome_unknown" message
  | .rejected message => gatewayError "venue_rejected" message
  | .notSent message => gatewayError "not_sent" message
  | .transport message => gatewayError "transport_reset" message
  | .config message => .valueError message
  | .alreadyConnected => .alreadyConnectedError "already connected"
  | .channelLagged plant skipped => .channelLaggedError (plant ++ ":" ++ toString skipped)
  | .channelClosed plant => .channelClosedError plant
  | .notConnected plant => .notConnectedError plant
  | .reconciliationUnavailable message => .reconciliationUnavailableError message
  | e => .runtimeError e.text

inductive FailureClass
  | rejected
  | notSent
  | unknown
  deriving DecidableEq, Repr

def rejectedCodes : List String := ["venue_rejected"]

def notSentCodes : List String := ["not_sent", "not_ready", "trading_disabled", "cancel_all_denied"]

def classOfCode (code : Option String) : FailureClass :=
  if ∃ c ∈ code, c ∈ rejectedCodes then .rejected
  else if ∃ c ∈ code, c ∈ notSentCodes then .notSent
  else .unknown

/-- `_failure_class`. -/
def failureClass (exc : PyErr) : FailureClass := classOfCode exc.code

/-! ### Both modes -/

/-- The errors that the wire keeps as they are. -/
def Error.Typed : Error → Prop
  | .rejected _ | .notSent _ | .outcomeUnknown _ | .reconciliationUnavailable _ => True
  | _ => False

/-- The class is the same with and without a gateway between, and a typed error is the same behind any
number of gateways. -/
def SameFailure (e : Error) : Prop :=
  failureClass (toPyErr e) = failureClass (toPyErr (hop e)) ∧ (e.Typed → ∀ n, hop^[n] e = e)

/-- The errors whose exception says as much as their wire code. -/
def Carried : Error → Prop
  | .config _ | .notConnected _ | .alreadyConnected => False
  | .gateway code _ => code ≠ badRequest
  | _ => True

theorem hop_of_typed {e : Error} (h : e.Typed) : hop e = e := by
  cases e <;> first | rfl | exact h.elim

theorem iterate_hop_of_typed {e : Error} (h : e.Typed) (n : Nat) : hop^[n] e = e :=
  Function.iterate_fixed (hop_of_typed h) n

/-- The classes of the typed errors, whatever their texts. -/
theorem failureClass_typed (message : String) :
    failureClass (toPyErr (.rejected message)) = .rejected ∧
      failureClass (toPyErr (.notSent message)) = .notSent ∧
      failureClass (toPyErr (.outcomeUnknown message)) = .unknown ∧
      failureClass (toPyErr (.reconciliationUnavailable message)) = .unknown :=
  ⟨rfl, rfl, rfl, rfl⟩

/-- An error that a parent answers with `venue_unknown` has no class in either mode. -/
theorem failureClass_hop_unknown {e : Error} (hcode : reply e "command" = ⟨"venue_unknown", e.text⟩) :
    failureClass (toPyErr (hop e)) = .unknown := by
  have hhop : hop e = .outcomeUnknown e.text := by
    unfold hop
    rw [hcode]
    rfl
  rw [hhop]
  exact (failureClass_typed e.text).2.2.1

/-- An exception without a code, for an error that a parent answers with `not_sent`. -/
theorem failureClass_ne_of_uncoded {e : Error} (hdirect : (toPyErr e).code = none)
    (hwire : reply e "command" = ⟨"not_sent", e.text⟩) :
    failureClass (toPyErr e) ≠ failureClass (toPyErr (hop e)) := by
  have hhop : hop e = .notSent e.text := by
    unfold hop
    rw [hwire]
    rfl
  rw [hhop, (failureClass_typed e.text).2.1]
  unfold failureClass
  rw [hdirect]
  decide

/-- A coded error keeps its class unless the client takes its code for a request that was never
dispatched. -/
theorem gateway_sameClass_iff (code message : String) :
    failureClass (toPyErr (.gateway code message)) =
      failureClass (toPyErr (hop (.gateway code message))) ↔ code ≠ badRequest := by
  have hdirect : failureClass (toPyErr (.gateway code message)) =
      classOfCode (some (normalizeGatewayCode code)) := rfl
  obtain ⟨hrejected, hnotSent, hunknown, hrecon⟩ := failureClass_typed message
  rw [hdirect]
  unfold hop reply mapReply
  simp only
  -- one case for each code that the client knows
  split_ifs with h1 h2 h3 h4 h5 h6 h7
  · rw [hrecon, h1]
    decide
  · rw [hrejected, h2]
    decide
  · rw [hnotSent, h3]
    decide
  · rw [hnotSent, h4]
    decide
  · rw [hnotSent, h5]
    decide
  · rw [hunknown, h6]
    decide
  · rw [hunknown, h7]
    decide
  · exact iff_of_true rfl h4

/-- An error has one class in both modes, and a typed error one text over any number of gateways,
exactly where its exception carries what its wire code says. -/
theorem sameFailure_iff (e : Error) : SameFailure e ↔ Carried e := by
  unfold SameFailure
  rw [and_iff_left fun h => iterate_hop_of_typed h]
  cases e with
  | config message => exact iff_of_false (failureClass_ne_of_uncoded rfl rfl) id
  | notConnected plant => exact iff_of_false (failureClass_ne_of_uncoded rfl rfl) id
  | alreadyConnected => exact iff_of_false (failureClass_ne_of_uncoded rfl rfl) id
  | gateway code message => exact gateway_sameClass_iff code message
  | rejected message => exact iff_of_true rfl trivial
  | notSent message => exact iff_of_true rfl trivial
  | outcomeUnknown message => exact iff_of_true rfl trivial
  | reconciliationUnavailable message => exact iff_of_true rfl trivial
  | session message => exact iff_of_true (failureClass_hop_unknown rfl).symm trivial
  | channelLagged plant skipped => exact iff_of_true (failureClass_hop_unknown rfl).symm trivial
  | channelClosed plant => exact iff_of_true (failureClass_hop_unknown rfl).symm trivial
  | rithmic message => exact iff_of_true (failureClass_hop_unknown rfl).symm trivial
  | protocol message => exact iff_of_true (failureClass_hop_unknown rfl).symm trivial
  | transport message => exact iff_of_true (failureClass_hop_unknown rfl).symm trivial

end RithmicNt.Gateway.Failures
