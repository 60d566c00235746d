import RithmicNt.Exec.Text

/-! Classification of order notifications. -/

namespace RithmicNt.Exec

inductive Source
  | rithmic
  | exchange
  | other
  deriving DecidableEq, Repr

/-- The canonical action kinds; `other` is any text that names none of them. -/
inductive OrderKind
  | accepted
  | updated
  | canceled
  | triggered
  | filled
  | rejected
  | modifyRejected
  | cancelRejected
  | expired
  | other
  deriving DecidableEq, Repr

/-- Maps a plant `notify_type_name` to a canonical action kind.  The caller passes an absent status
or text as the empty text. -/
def kindFromNotify (upper : Char → List Char) (source : Source)
    (notifyTypeName status text : String) : Option OrderKind :=
  let name := toUppercase upper notifyTypeName
  match source with
  | .rithmic =>
    if name = "OPEN" then some .accepted
    else if name = "TRIGGER_PENDING" then some .accepted
    else if name = "MODIFIED" then some .updated
    else if name = "MODIFICATION_FAILED" then some .modifyRejected
    else if name = "CANCELLATION_FAILED" then some .cancelRejected
    else if name = "COMPLETE" then
      let status := toUppercase upper status
      if status = "CANCELLED" ∨ status = "CANCELED" then some .canceled
      else if trim text ≠ "" then some .rejected
      else none
    else none
  | .exchange =>
    if name = "FILL" then some .filled
    else if name = "REJECT" then some .rejected
    else if name = "CANCEL" then some .canceled
    else if name = "TRIGGER" then some .triggered
    else if name = "NOT_MODIFIED" then some .modifyRejected
    else if name = "NOT_CANCELLED" ∨ name = "NOT_CANCELED" then some .cancelRejected
    else none
  | .other => none

/-- What a tracked order's notification asks of the adapter. -/
inductive ActionKind
  | accepted
  | updated
  | canceled
  | triggered
  | filled
  | rejected
  | modifyRejected
  | cancelRejected
  deriving DecidableEq, Repr

/-- The action of a kind, and for a refusal the first of its texts that is not empty. -/
def notificationAction (kind : OrderKind) (text reportText status : Option String) :
    Option (ActionKind × Option String) :=
  let refusal (default : String) : String :=
    (([text, reportText, status].filterMap id).find? (· ≠ "")).getD default
  match kind with
  | .accepted => some (.accepted, none)
  | .updated => some (.updated, none)
  | .canceled => some (.canceled, none)
  | .triggered => some (.triggered, none)
  | .filled => some (.filled, none)
  | .rejected => some (.rejected, some (refusal "REJECT"))
  | .modifyRejected => some (.modifyRejected, some (refusal "NOT_MODIFIED"))
  | .cancelRejected => some (.cancelRejected, some (refusal "NOT_CANCELLED"))
  | .expired | .other => none

end RithmicNt.Exec
