import RithmicNt.Gateway.Paths
import RithmicNt.Lib.Dict
import RithmicNt.Lib.Pool

/-! The registry of hosts and the life of a host, with every call cut at its locks, its awaits and
its loads and stores of the flags.  The strong references of a host are counted, so that the
registry's weak entries and the `Drop` of a host are those of the code. -/

namespace RithmicNt.Host.Registry

open RithmicNt.Lib RithmicNt.Gateway RithmicNt.Gateway.Paths

structure HostFingerprint where
  connectMode : String := "direct"
  user : String
  systemName : String
  url : String
  env : String
  accountId : Option String := none
  fcmId : Option String := none
  ibId : Option String := none
  gatewayListen : Option String := none
  betaUrl : Option String := none
  appName : String := "rithmic-nt-connect"
  appVersion : String := "0.1.0"
  deriving DecidableEq, Repr

def HostFingerprint.new (user systemName url env : String) : HostFingerprint :=
  { user, systemName, url, env := KeyHash.toAsciiLowercase env }

def HostFingerprint.login (key : HostFingerprint) : KeyHash.Login :=
  ⟨key.user, key.systemName, key.url, key.env⟩

/-- `Path::join`: an absolute name replaces the base. -/
def join (base name : OsText) : OsText :=
  if name.head? = some slash ∨ base = [] then name
  else if base.getLast? = some slash then base ++ name
  else base ++ slash :: name

/-- The path that `get_or_start` locks. -/
def lockPath (lockDir : OsText) (key : HostFingerprint) (lockFilename : Option OsText) : OsText :=
  match lockFilename with
  | some name => join lockDir name
  | none => join lockDir (text (fileName (KeyHash.credentialKeyHash key.login).toNat ".lock"))

/-- The field `credential_lock`.  `dropping`: `Drop` has taken the lock out of the field, and its
task has not let it go. -/
inductive CredentialLock
  | none
  | held (path : OsText)
  | dropping (path : OsText)
  deriving DecidableEq, Repr

def CredentialLock.path? : CredentialLock → Option OsText
  | .none => Option.none
  | .held path | .dropping path => some path

def CredentialLock.isSome : CredentialLock → Bool
  | .held _ => true
  | _ => false

def CredentialLock.part : CredentialLock → CredentialLock
  | .held path => .dropping path
  | lock => lock

/-- A lock is held by a thread, under its number.  `handles`: the references that callers and
detached sessions have; `sessions`: those of the sessions that are not detached; `calls`: the
threads that are in a call of the host.  `key` is the `evict_key` of its shutdown callback. -/
structure SessionHost where
  key : HostFingerprint
  credentialLock : CredentialLock
  attachments : Nat := 0
  attachmentGate : Option Nat := none
  closing : Bool := false
  failed : Bool := false
  shutdownDone : Bool := false
  shutdownGate : Option Nat := none
  onShutdown : Bool := true
  pump : Bool := true
  handles : Nat := 1
  sessions : Nat := 0
  calls : List Nat := []
  deriving DecidableEq, Repr

namespace SessionHost

def isTerminal (x : SessionHost) : Bool := x.closing || x.failed

def strongCount (x : SessionHost) : Nat := x.handles + x.sessions + x.calls.length

/-- `Drop`, when the last reference goes. -/
def drop (x : SessionHost) : SessionHost :=
  { x with
    pump := false
    credentialLock := if x.shutdownDone then x.credentialLock else x.credentialLock.part }

def dropLast (x : SessionHost) : SessionHost := if x.strongCount = 0 then x.drop else x

def enter (i : Nat) (x : SessionHost) : SessionHost := { x with calls := i :: x.calls }

def leave (i : Nat) (x : SessionHost) : SessionHost := dropLast { x with calls := x.calls.erase i }

/-- The reference of a call goes to its caller. -/
def handOver (i : Nat) (x : SessionHost) : SessionHost :=
  { x with calls := x.calls.erase i, handles := x.handles + 1 }

def letGo (x : SessionHost) : SessionHost := dropLast { x with handles := x.handles - 1 }

def lockGate (i : Nat) (x : SessionHost) : SessionHost := { x with attachmentGate := some i }

def unlockGate (x : SessionHost) : SessionHost := { x with attachmentGate := none }

def lockShutdown (i : Nat) (x : SessionHost) : SessionHost := { x with shutdownGate := some i }

def unlockShutdown (x : SessionHost) : SessionHost := { x with shutdownGate := none }

end SessionHost

/-- A return of `attach_owned` with a session, and whether the host was terminal at that time. -/
structure Owned where
  host : Nat
  terminal : Bool
  deriving DecidableEq, Repr

/-- An entry that the shutdown callback of a host has removed. -/
structure Eviction where
  host : Nat
  removed : Nat
  deriving DecidableEq, Repr

/-- A host is known by its number, in the order of their starts.  `entries` is the registry's map
and `mutex` its lock; `locked`: the paths that are locked; `outside`: those of them that other
processes hold; `evictions`: the tasks that shutdown callbacks have spawned and that have not run.
`owned` and `evicted` are histories. -/
structure State where
  hosts : List SessionHost := []
  entries : Dict HostFingerprint Nat := .empty
  mutex : Option Nat := none
  locked : List OsText := []
  outside : List OsText := []
  evictions : List (HostFingerprint × Nat) := []
  owned : List Owned := []
  evicted : List Eviction := []

namespace State

def modify (s : State) (h : Nat) (f : SessionHost → SessionHost) : State :=
  { s with hosts := s.hosts.modify h f }

/-- The file that holds the lock at `path` is dropped. -/
def unlock (s : State) (path : OsText) : State :=
  { s with locked := s.locked.filter (· ≠ path) }

def free (s : State) : State := { s with mutex := none }

/-- `strong_count() > 0` of an entry. -/
def live (s : State) (h : Nat) : Bool := s.hosts[h]?.any fun x => decide (0 < x.strongCount)

def retain (s : State) : State := { s with entries := s.entries.filter fun e => s.live e.2 }

/-- The task of a shutdown callback. -/
def evict (s : State) (key : HostFingerprint) (h : Nat) : State :=
  let s := { s with evictions := s.evictions.erase (key, h) }
  match s.entries.get? key with
  | some g =>
    if g = h then
      { s with entries := s.entries.filter (·.1 ≠ key), evicted := ⟨h, g⟩ :: s.evicted }
    else s
  | none => s

/-- The host that `get_or_start` starts, with the lock it has acquired, and its entry. -/
def begin (s : State) (key : HostFingerprint) (path : OsText) : State :=
  { s with
    hosts := s.hosts ++ [{ key, credentialLock := .held path }]
    entries := s.entries.set key s.hosts.length }

end State

/-! ### Calls -/

inductive Start
  | waiting
  | retain
  | upgrade
  | closing (h : Nat)
  | failed (h : Nat)
  | acquire
  | begin
  deriving DecidableEq, Repr

/-- `closing` and `failed` are the loads of `is_terminal`, of `attach_owned` alone. -/
inductive Attach
  | gate
  | closing
  | failed
  | count
  | register
  deriving DecidableEq, Repr

inductive Detach
  | gate
  | count
  | look (last : Bool)
  | close (last : Bool)
  deriving DecidableEq, Repr

inductive Shutdown
  | gate
  | done
  | close
  | pump
  | disconnect
  | release
  | mark
  | callback
  deriving DecidableEq, Repr

inductive Outcome
  | host (h : Nat)
  | alreadyHeld (path : OsText)
  | io (path : OsText)
  | session
  | notSent (message : String)
  | finished
  | cancelled
  deriving DecidableEq, Repr

/-- Where a thread is.  `shutdown` may be a part of a `get_or_start`, with its key and path; `pump`
is the end of the pump's task after its recovery has failed. -/
inductive Place
  | start (key : HostFingerprint) (path : OsText) (pc : Start)
  | attach (h : Nat) (owned : Bool) (pc : Attach)
  | detach (h : Nat) (pc : Detach)
  | shutdown (h : Nat) (caller : Option (HostFingerprint × OsText)) (pc : Shutdown)
  | pump (h : Nat)
  | ended (outcome : Outcome)
  deriving DecidableEq, Repr

/-- What may begin.  `attach` is `attach_owned`, or else `attach` and `attach_transport`; `letGo`: a
caller drops its reference; `evict` and `dropped`: the tasks that a shutdown callback and a `Drop`
have spawned; `take` and `give`: another process locks and unlocks a path. -/
inductive Call
  | getOrStart (key : HostFingerprint) (lockDir : OsText) (lockFilename : Option OsText)
  | attach (h : Nat) (owned : Bool)
  | detach (h : Nat)
  | shutdown (h : Nat)
  | recoveryFails (h : Nat)
  | letGo (h : Nat)
  | evict (key : HostFingerprint) (h : Nat)
  | dropped (h : Nat)
  | take (path : OsText)
  | give (path : OsText)
  deriving DecidableEq, Repr

/-- `cancel`: the future is dropped at an await. -/
inductive Action
  | next
  | cancel
  | ioError
  deriving DecidableEq, Repr

/-- A call of host `h` by someone who has a reference. -/
def enterCall (i : Nat) (s : State) (h : Nat) (p : Place) : Option (State × Place) :=
  s.hosts[h]?.bind fun x =>
    if 0 < x.handles + x.sessions then some (s.modify h (·.enter i), p) else none

def spawn (i : Nat) (s : State) : Call → Option (State × Place)
  | .getOrStart key lockDir lockFilename =>
    some (s, .start key (lockPath lockDir key lockFilename) .waiting)
  | .attach h owned => enterCall i s h (.attach h owned .gate)
  | .detach h => s.hosts[h]?.bind fun x =>
    -- The swap of the session's `detached`, which is done once.
    if 0 < x.sessions then
      some (s.modify h fun x =>
        { x.enter i with sessions := x.sessions - 1, handles := x.handles + 1 }, .detach h .gate)
    else none
  | .shutdown h => enterCall i s h (.shutdown h none .gate)
  | .recoveryFails h => s.hosts[h]?.bind fun x =>
    if x.pump ∧ ¬ x.failed then some (s.modify h ({ · with failed := true }), .pump h) else none
  | .letGo h => s.hosts[h]?.bind fun x =>
    if 0 < x.handles then some (s.modify h (·.letGo), .ended .finished) else none
  | .evict key h =>
    if (key, h) ∈ s.evictions ∧ s.mutex = none then some (s.evict key h, .ended .finished) else none
  | .dropped h => s.hosts[h]?.bind fun x =>
    match x.credentialLock with
    | .dropping path =>
      some ((s.modify h ({ · with credentialLock := .none })).unlock path, .ended .finished)
    | _ => none
  | .take path =>
    if path ∉ s.locked then
      some ({ s with locked := path :: s.locked, outside := path :: s.outside }, .ended .finished)
    else none
  | .give path =>
    if path ∈ s.outside then
      some ({ s.unlock path with outside := s.outside.filter (· ≠ path) }, .ended .finished)
    else none

def getOrStart (i : Nat) (s : State) (key : HostFingerprint) (path : OsText) :
    Start → Action → Option (State × Place)
  | .waiting, .next =>
    if s.mutex = none then some ({ s with mutex := some i }, .start key path .retain) else none
  | .waiting, .cancel => some (s, .ended .cancelled)
  | .retain, .next => some (s.retain, .start key path .upgrade)
  | .upgrade, .next =>
    match s.entries.get? key with
    | some h =>
      if s.live h then some (s.modify h (·.enter i), .start key path (.closing h))
      else some (s, .start key path .acquire)
    | none => some (s, .start key path .acquire)
  | .closing h, .next => s.hosts[h]?.map fun x =>
    if x.closing then (s, .shutdown h (some (key, path)) .gate)
    else (s, .start key path (.failed h))
  | .failed h, .next => s.hosts[h]?.map fun x =>
    if x.failed then (s, .shutdown h (some (key, path)) .gate)
    else ((s.modify h (·.handOver i)).free, .ended (.host h))
  | .acquire, .next =>
    if path ∈ s.locked then some (s.free, .ended (.alreadyHeld path))
    else some ({ s with locked := path :: s.locked }, .start key path .begin)
  | .acquire, .ioError => some (s.free, .ended (.io path))
  | .begin, .next => some ((s.begin key path).free, .ended (.host s.hosts.length))
  | _, _ => none

/-- `attach_owned` returns its error. -/
def refuse (i : Nat) (s : State) (h : Nat) : State × Place :=
  (s.modify h fun x => x.unlockGate.leave i, .ended (.notSent "host closed; start a new host"))

/-- The session is made and the gate released. -/
def registered (i : Nat) (x : SessionHost) : SessionHost :=
  { x.unlockGate with sessions := x.sessions + 1, calls := x.calls.erase i }

def attach (i : Nat) (s : State) (h : Nat) (owned : Bool) :
    Attach → Action → Option (State × Place)
  | .gate, .next => s.hosts[h]?.bind fun x =>
    if x.attachmentGate = none then
      some (s.modify h (·.lockGate i), .attach h owned (if owned then .closing else .count))
    else none
  | .closing, .next => s.hosts[h]?.map fun x =>
    if x.closing then refuse i s h else (s, .attach h owned .failed)
  | .failed, .next => s.hosts[h]?.map fun x =>
    if x.failed then refuse i s h else (s, .attach h owned .count)
  | .count, .next =>
    some (s.modify h fun x => { x with attachments := x.attachments + 1 },
      .attach h owned .register)
  | .register, .next => s.hosts[h]?.map fun x =>
    let t := s.modify h (registered i)
    (if owned then { t with owned := ⟨h, x.isTerminal⟩ :: t.owned } else t, .ended .session)
  | _, _ => none

def detached (i : Nat) (s : State) (h : Nat) : Detach → Action → Option (State × Place)
  | .gate, .next => s.hosts[h]?.bind fun x =>
    if x.attachmentGate = none then some (s.modify h (·.lockGate i), .detach h .count) else none
  | .gate, .cancel => some (s.modify h (·.leave i), .ended .cancelled)
  | .count, .next => s.hosts[h]?.map fun x =>
    (s.modify h fun x => { x with attachments := x.attachments - 1 },
      .detach h (.look (x.attachments = 1)))
  | .look last, .next => s.hosts[h]?.map fun x =>
    (s, .detach h (.close (last && x.credentialLock.isSome)))
  | .close last, .next =>
    if last then
      some (s.modify h fun x => { x.unlockGate with closing := true }, .shutdown h none .gate)
    else some (s.modify h fun x => x.unlockGate.leave i, .ended .finished)
  | _, _ => none

/-- A shutdown returns to its caller, which drops its reference: `get_or_start` goes on to the lock.
-/
def returned (i : Nat) (s : State) (h : Nat) (caller : Option (HostFingerprint × OsText)) :
    State × Place :=
  (s.modify h fun x => x.unlockShutdown.leave i,
    match caller with
    | some (key, path) => .start key path .acquire
    | none => .ended .finished)

/-- A shutdown is dropped at an await, and with it a `get_or_start` that waits for it. -/
def abandon (i : Nat) (s : State) (h : Nat) (caller : Option (HostFingerprint × OsText))
    (f : SessionHost → SessionHost) : State × Place :=
  let t := s.modify h fun x => (f x).leave i
  (if caller.isSome then t.free else t, .ended .cancelled)

def shutdown (i : Nat) (s : State) (h : Nat) (caller : Option (HostFingerprint × OsText)) :
    Shutdown → Action → Option (State × Place)
  | .gate, .next => s.hosts[h]?.bind fun x =>
    if x.shutdownGate = none then
      some (s.modify h (·.lockShutdown i), .shutdown h caller .done)
    else none
  | .gate, .cancel => some (abandon i s h caller id)
  | .done, .next => s.hosts[h]?.map fun x =>
    if x.shutdownDone then returned i s h caller else (s, .shutdown h caller .close)
  | .close, .next => some (s.modify h ({ · with closing := true }), .shutdown h caller .pump)
  | .pump, .next => some (s.modify h ({ · with pump := false }), .shutdown h caller .disconnect)
  | .disconnect, .next => some (s, .shutdown h caller .release)
  | .pump, .cancel | .disconnect, .cancel => some (abandon i s h caller SessionHost.unlockShutdown)
  | .release, .next => s.hosts[h]?.map fun x =>
    match x.credentialLock with
    | .held path => ((s.modify h ({ · with credentialLock := .none })).unlock path,
      .shutdown h caller .mark)
    | _ => (s, .shutdown h caller .mark)
  | .mark, .next =>
    some (s.modify h ({ · with shutdownDone := true }), .shutdown h caller .callback)
  | .callback, .next => s.hosts[h]?.map fun x =>
    let t := if x.onShutdown then
        { s.modify h ({ · with onShutdown := false }) with
          evictions := s.evictions ++ [(x.key, h)] }
      else s
    returned i t h caller
  | _, _ => none

/-- The end of the pump's task, unless it has been aborted: it spawns a shutdown of a host that is
still there. -/
def pumpFailed (i : Nat) (s : State) (h : Nat) : Action → Option (State × Place)
  | .next => s.hosts[h]?.bind fun x =>
    if ¬ x.pump then none
    else if 0 < x.strongCount then some (s.modify h (·.enter i), .shutdown h none .gate)
    else some (s, .ended .finished)
  | _ => none

def run (i : Nat) (s : State) : Place → Action → Option (State × Place)
  | .start key path pc, a => getOrStart i s key path pc a
  | .attach h owned pc, a => attach i s h owned pc a
  | .detach h pc, a => detached i s h pc a
  | .shutdown h caller pc, a => shutdown i s h caller pc a
  | .pump h, a => pumpFailed i s h a
  | .ended _, _ => none

def code : Program State Place Call Action where
  spawn := spawn
  run := run

/-- One process, from the empty registry on. -/
abbrev machine : Machine (Pool State Place) (Move Call Action) := code.machine (· = {})

/-! ### What the registry promises -/

/-- One host for a locked path, and no entry of another host removed: a host that is referenced and
not shut down is the entry of its key. -/
structure Exclusive (s : State) : Prop where
  single : ∀ (g h : Nat) (x y : SessionHost) (path : OsText), s.hosts[g]? = some x →
    s.hosts[h]? = some y → x.credentialLock.path? = some path →
    y.credentialLock.path? = some path → g = h
  evicted : ∀ e ∈ s.evicted, e.removed = e.host
  kept : ∀ (h : Nat) (x : SessionHost), s.hosts[h]? = some x → 0 < x.strongCount →
    x.shutdownDone = false → s.entries.get? x.key = some h

/-- And `attach_owned` has returned no session of a terminal host. -/
structure Safe (s : State) : Prop extends Exclusive s where
  owned : ∀ o ∈ s.owned, o.terminal = false

/-- An `attach_owned` of host `h` that has loaded `closing`, and found the host open. -/
def Place.pastClosing (h : Nat) : Place → Bool
  | .attach g true .failed | .attach g true .count | .attach g true .register => g = h
  | _ => false

/-- An `attach_owned` of host `h` that has loaded both flags. -/
def Place.pastFailed (h : Nat) : Place → Bool
  | .attach g true .count | .attach g true .register => g = h
  | _ => false

/-- The host whose recovery fails in a move: its `failed` is stored. -/
def storesFailed : Move Call Action → Option Nat
  | .spawn (.recoveryFails h) => some h
  | _ => none

/-- The host whose `closing` is stored by a shutdown in a move. -/
def storesClosing (P : Pool State Place) : Move Call Action → Option Nat
  | .run i _ =>
    match P.threads[i]? with
    | some (.shutdown h _ .close) => some h
    | _ => none
  | _ => none

/-- The two stores that are made outside the attachment gate, of `closing` in `shutdown` and of
`failed` at the end of a recovery, are made while no `attach_owned` of the host is between its load
of that flag and its return. -/
def Gated (P : Pool State Place) (m : Move Call Action) : Prop :=
  (storesFailed m).all (fun h => P.threads.all (! ·.pastFailed h)) ∧
    (storesClosing P m).all fun h => P.threads.all (! ·.pastClosing h)

instance (P : Pool State Place) (m : Move Call Action) : Decidable (Gated P m) :=
  inferInstanceAs (Decidable (_ ∧ _))

end RithmicNt.Host.Registry
