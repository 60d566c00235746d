import RithmicNt.Host.Restore
import RithmicNt.Lib.Machine

/-! The event pump: serving the plants, quiescing them on a failure, rebuilding, restoring the
intents and resuming, beside sessions that leave and requests of a login recovery at any time. -/

namespace RithmicNt.Host.Pump

open RithmicNt.Lib

def recoveryAttempts : Nat := 3

def restoreAttempts : Nat := 3

inductive SessionEvent
  | interrupted (generation : Nat) (cause : String)
  | resumed (generation : Nat)
  | recoveryFailed (generation attempts : Nat) (cause : String)
  deriving DecidableEq, Repr

/-- Where the pump is.  It looks at the flags in `waiting`, and awaits `reconnect_wake` in `parked`.
In `rebuilding` the next rebuild has not started, in `rebuildRunning` it has; `restoring` is before a
pass over its plan, `restored` after the last one. -/
inductive Phase
  | waiting
  | parked
  | serving
  | streaming
  | quiescing (issue : Recovery) (cause : String)
  | interrupted (issue : Recovery) (cause : String)
  | rebuilding (attempt : Nat) (scope : Recovery) (cause : String)
  | rebuildRunning (attempt : Nat) (scope : Recovery) (cause : String)
  | planning (attempt : Nat) (scope : Recovery) (cause : String)
  | restoring (attempt : Nat) (scope : Recovery) (cause : String) (pass : Nat)
      (pending : RestorePlan)
  | restored (attempt : Nat) (scope : Recovery) (cause : String) (pending : RestorePlan)
  | finishing (attempt : Nat) (scope : Recovery) (cause : String)
  | retrying (attempt : Nat) (scope : Recovery) (cause : String)
  | resuming
  | failing (cause : String)
  | stopped
  deriving DecidableEq, Repr

/-- What the history of a run records, newest first: requests, rebuilds as they start, joins,
events sent to the sessions, and each step of the pump. -/
inductive Mark
  | request
  | rebuild (scope : Recovery)
  | join (j : Join)
  | sent (e : SessionEvent)
  | pumped
  deriving DecidableEq, Repr

structure State where
  phase : Phase := .waiting
  store : IntentStore := {}
  ready : Bool := false
  recovering : Bool := false
  failed : Bool := false
  forceReconnect : Bool := false
  /-- The permit of `reconnect_wake`. -/
  wake : Bool := false
  generation : Nat := 1
  history : List Mark := []

/-- A step of the pump, with what it meets. -/
inductive Act
  | begin
  | park
  | serve
  | issue (recovery : Recovery) (cause : String)
  | wake
  | quiesce (another : Bool)
  | notifyInterrupted
  | rebuild
  | rebuilt (a : RebuildAnswers) (cause : String)
  | plan
  | pass (a : PassAnswers)
  | mark
  | finish
  | retry
  | notifyResumed
  | fail

inductive Event
  | pump (act : Act)
  /-- `request_reconnect`. -/
  | request
  /-- A session's `connect` has connected the venue. -/
  | connected
  /-- A holder of an intent leaves. -/
  | leave (i : Intent)
  /-- What the sessions do to the store while no restore is under way. -/
  | sessions (store : IntentStore)

namespace State

def interrupt (s : State) : State := { s with recovering := true, ready := false }

def requestReconnect (s : State) : State :=
  { s with
    recovering := true
    ready := false
    forceReconnect := true
    wake := true
    history := .request :: s.history }

/-- The marks since the last rebuild started. -/
def sinceRebuild (h : List Mark) : List Mark :=
  h.takeWhile fun
    | .rebuild _ => false
    | _ => true

def markAll (store : IntentStore) (l : List MdIntent) : IntentStore :=
  l.foldl IntentStore.markDegraded store

/-- The store after a pass: a join that succeeded takes its degraded mark away. -/
def clearJoined (a : PassAnswers) (store : IntentStore) (l : List MdIntent) : IntentStore :=
  (l.filter a.join).foldl IntentStore.clearDegraded store

/-- The plan a pass works on: only what still has holders. -/
def heldPlan (store : IntentStore) (pending : RestorePlan) : RestorePlan :=
  pending.retain store.restorePlan

def act (s : State) (e : Act) : Option State :=
  match e, s.phase with
  | .begin, .waiting => if s.ready || s.forceReconnect then some { s with phase := .serving } else none
  | .park, .waiting => if s.ready || s.forceReconnect then none else some { s with phase := .parked }
  | .wake, .parked => if s.wake then some { s with wake := false, phase := .waiting } else none
  | .serve, .serving =>
    if s.forceReconnect then
      some { s.interrupt with
        forceReconnect := false
        phase := .interrupted .login "host requested login recovery" }
    else some { s with phase := .streaming }
  | .issue recovery cause, .streaming => some { s.interrupt with phase := .quiescing recovery cause }
  | .wake, .streaming =>
    if !s.wake then none
    else if s.forceReconnect then
      some { s.interrupt with
        wake := false
        forceReconnect := false
        phase := .quiescing .login "host requested login recovery" }
    else some { s with wake := false }
  | .quiesce another, .quiescing issue cause =>
    some { s with phase := .interrupted (if another then .login else issue) cause }
  | .notifyInterrupted, .interrupted issue cause =>
    some { s with
      phase := .rebuilding 1 issue cause
      history := .sent (.interrupted s.generation cause) :: s.history }
  | .rebuild, .rebuilding n scope cause =>
    some { s with
      phase := .rebuildRunning n scope cause
      history := .rebuild scope :: s.history }
  | .rebuilt a failure, .rebuildRunning n scope cause =>
    if scope.rebuild a then some { s with phase := .planning n scope cause }
    else some { s with phase := .retrying n scope failure }
  | .plan, .planning n scope cause =>
    some { s with phase := .restoring n scope cause 1 (scope.plan s.store.restorePlan) }
  | .pass a, .restoring n scope cause p pending =>
    let plan := heldPlan s.store pending
    let failed := a.failed plan
    some { s with
      phase :=
        if !failed.hasAccount && failed.mdIntents.isEmpty then .restored n scope cause failed
        else if p < restoreAttempts then .restoring n scope cause (p + 1) failed
        else .restored n scope cause failed
      store := clearJoined a s.store plan.mdIntents
      history := (a.joins plan).reverse.map .join ++ s.history }
  | .mark, .restored n scope cause pending =>
    if pending.hasAccount then
      some { s with
        phase := .retrying n .login "account intent restore failed; escalating to full reconnect" }
    else
      some { s with
        phase := .finishing n scope cause
        store := markAll s.store pending.mdIntents }
  | .finish, .finishing n _ _ =>
    if s.forceReconnect then
      some { s with
        forceReconnect := false
        phase := .retrying n .login "host requested login recovery during restore" }
    else
      some { s with
        recovering := false
        ready := true
        generation := s.generation + 1
        phase := .resuming }
  | .retry, .retrying n scope cause =>
    if n < recoveryAttempts then some { s with phase := .rebuilding (n + 1) scope cause }
    else some { s with failed := true, recovering := false, phase := .failing cause }
  | .notifyResumed, .resuming =>
    some { s with phase := .serving, history := .sent (.resumed s.generation) :: s.history }
  | .fail, .failing cause =>
    some { s with
      phase := .stopped
      history := .sent (.recoveryFailed s.generation recoveryAttempts cause) :: s.history }
  | _, _ => none

def restoreUnderWay : Phase → Bool
  | .restoring .. | .restored .. | .finishing .. => true
  | _ => false

def step (s : State) : Event → Option State
  | .pump e => (s.act e).map fun t => { t with history := .pumped :: t.history }
  | .request => some s.requestReconnect
  | .connected => some { s with ready := true, wake := true }
  | .leave i => some { s with store := (s.store.forget i).1 }
  | .sessions store => if restoreUnderWay s.phase then none else some { s with store }

end State

def machine : Machine State Event where
  Start s := ∃ store ready, s = { store, ready }
  step := State.step

/-- What a step of the pump does. -/
inductive Step (s : State) : Act → State → Prop
  | begin : s.phase = .waiting → (s.ready || s.forceReconnect) = true →
      Step s .begin { s with phase := .serving }
  | park : s.phase = .waiting → (s.ready || s.forceReconnect) = false →
      Step s .park { s with phase := .parked }
  | unpark : s.phase = .parked → s.wake = true →
      Step s .wake { s with wake := false, phase := .waiting }
  | serveForced : s.phase = .serving → s.forceReconnect = true →
      Step s .serve { s.interrupt with
        forceReconnect := false
        phase := .interrupted .login "host requested login recovery" }
  | serve : s.phase = .serving → s.forceReconnect = false →
      Step s .serve { s with phase := .streaming }
  | issue {r : Recovery} {cause : String} : s.phase = .streaming →
      Step s (.issue r cause) { s.interrupt with phase := .quiescing r cause }
  | wakeForced : s.phase = .streaming → s.wake = true → s.forceReconnect = true →
      Step s .wake { s.interrupt with
        wake := false
        forceReconnect := false
        phase := .quiescing .login "host requested login recovery" }
  | wake : s.phase = .streaming → s.wake = true → s.forceReconnect = false →
      Step s .wake { s with wake := false }
  | quiesce {another : Bool} {r : Recovery} {cause : String} : s.phase = .quiescing r cause →
      Step s (.quiesce another)
        { s with phase := .interrupted (if another then .login else r) cause }
  | notifyInterrupted {r : Recovery} {cause : String} : s.phase = .interrupted r cause →
      Step s .notifyInterrupted { s with
        phase := .rebuilding 1 r cause
        history := .sent (.interrupted s.generation cause) :: s.history }
  | rebuild {n : Nat} {scope : Recovery} {cause : String} : s.phase = .rebuilding n scope cause →
      Step s .rebuild { s with
        phase := .rebuildRunning n scope cause
        history := .rebuild scope :: s.history }
  | rebuilt {n : Nat} {scope : Recovery} {cause failure : String} {a : RebuildAnswers} :
      s.phase = .rebuildRunning n scope cause → scope.rebuild a = true →
      Step s (.rebuilt a failure) { s with phase := .planning n scope cause }
  | notRebuilt {n : Nat} {scope : Recovery} {cause failure : String} {a : RebuildAnswers} :
      s.phase = .rebuildRunning n scope cause → scope.rebuild a = false →
      Step s (.rebuilt a failure) { s with phase := .retrying n scope failure }
  | plan {n : Nat} {scope : Recovery} {cause : String} : s.phase = .planning n scope cause →
      Step s .plan
        { s with phase := .restoring n scope cause 1 (scope.plan s.store.restorePlan) }
  | pass {n p : Nat} {scope : Recovery} {cause : String} {pending : RestorePlan} {a : PassAnswers}
      {next : Phase} : s.phase = .restoring n scope cause p pending →
      (next = .restored n scope cause (a.failed (State.heldPlan s.store pending)) ∨
        p < restoreAttempts ∧
          next = .restoring n scope cause (p + 1) (a.failed (State.heldPlan s.store pending))) →
      Step s (.pass a) { s with
        phase := next
        store := State.clearJoined a s.store (State.heldPlan s.store pending).mdIntents
        history := (a.joins (State.heldPlan s.store pending)).reverse.map .join ++ s.history }
  | escalate {n : Nat} {scope : Recovery} {cause : String} {pending : RestorePlan} :
      s.phase = .restored n scope cause pending → pending.hasAccount = true →
      Step s .mark { s with
        phase := .retrying n .login
          "account intent restore failed; escalating to full reconnect" }
  | mark {n : Nat} {scope : Recovery} {cause : String} {pending : RestorePlan} :
      s.phase = .restored n scope cause pending → pending.hasAccount = false →
      Step s .mark { s with
        phase := .finishing n scope cause
        store := State.markAll s.store pending.mdIntents }
  | finishForced {n : Nat} {scope : Recovery} {cause : String} :
      s.phase = .finishing n scope cause → s.forceReconnect = true →
      Step s .finish { s with
        forceReconnect := false
        phase := .retrying n .login "host requested login recovery during restore" }
  | finish {n : Nat} {scope : Recovery} {cause : String} :
      s.phase = .finishing n scope cause → s.forceReconnect = false →
      Step s .finish { s with
        recovering := false
        ready := true
        generation := s.generation + 1
        phase := .resuming }
  | retry {n : Nat} {scope : Recovery} {cause : String} : s.phase = .retrying n scope cause →
      n < recoveryAttempts → Step s .retry { s with phase := .rebuilding (n + 1) scope cause }
  | giveUp {n : Nat} {scope : Recovery} {cause : String} : s.phase = .retrying n scope cause →
      recoveryAttempts ≤ n →
      Step s .retry { s with failed := true, recovering := false, phase := .failing cause }
  | notifyResumed : s.phase = .resuming →
      Step s .notifyResumed { s with
        phase := .serving
        history := .sent (.resumed s.generation) :: s.history }
  | fail {cause : String} : s.phase = .failing cause →
      Step s .fail { s with
        phase := .stopped
        history := .sent (.recoveryFailed s.generation recoveryAttempts cause) :: s.history }

theorem step_of_act {s t : State} {e : Act} (h : s.act e = some t) : Step s e t := by
  unfold State.act at h
  split at h
  · next hp => split at h <;> cases h; next hgo => exact .begin hp hgo
  · next hp => split at h <;> cases h; next hgo => exact .park hp (by simpa using hgo)
  · next hp => split at h <;> cases h; next hw => exact .unpark hp hw
  · next hp =>
    split at h <;> cases h
    · next hf => exact .serveForced hp hf
    · next hf => exact .serve hp (by simpa using hf)
  · next hp => cases h; exact .issue hp
  · next hp =>
    split at h
    · cases h
    · next hw =>
      have hw : s.wake = true := by simpa using hw
      split at h <;> cases h
      · next hf => exact .wakeForced hp hw hf
      · next hf => exact .wake hp hw (by simpa using hf)
  · next hp => cases h; exact .quiesce hp
  · next hp => cases h; exact .notifyInterrupted hp
  · next hp => cases h; exact .rebuild hp
  · next hp =>
    split at h <;> cases h
    · next hr => exact .rebuilt hp hr
    · next hr => exact .notRebuilt hp (by simpa using hr)
  · next hp => cases h; exact .plan hp
  · next hp =>
    cases h
    refine .pass hp ?_
    split
    · exact .inl rfl
    · split
      · next hlt => exact .inr ⟨hlt, rfl⟩
      · exact .inl rfl
  · next hp =>
    split at h <;> cases h
    · next ha => exact .escalate hp ha
    · next ha => exact .mark hp (by simpa using ha)
  · next hp =>
    split at h <;> cases h
    · next hf => exact .finishForced hp hf
    · next hf => exact .finish hp (by simpa using hf)
  · next hp =>
    split at h <;> cases h
    · next hn => exact .retry hp hn
    · next hn => exact .giveUp hp (by omega)
  · next hp => cases h; exact .notifyResumed hp
  · next hp => cases h; exact .fail hp
  · cases h

end RithmicNt.Host.Pump
