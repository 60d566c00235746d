import Mathlib.Data.Finset.Insert
import Mathlib.Data.Finset.Erase
import RithmicNt.Lib.Pool

/-! Gateway parents at one socket path: each takes the flock of its credentials, binds the path under
the flock beside it, serves, and removes the path on its way out.  A parent is a process: it can crash
between any two of its system calls, and the kernel then closes its listener and drops its flocks. -/

namespace RithmicNt.Gateway.Binding

open RithmicNt.Lib

/-- A socket file: the parent that bound it, and its permission bits. -/
structure Socket where
  owner : Nat
  mode : Nat
  deriving DecidableEq, Repr

/-- What is at the path, who holds the flocks, and whose listeners are open.  `bound` are the parents
that have bound the path; `cut` lists each open listener whose socket file was removed, with the
parent that removed it. -/
structure Site (κ : Type) where
  path : Option Socket := none
  bindlock : Option Nat := none
  credentials : κ → Option Nat := fun _ => none
  bound : Finset Nat := ∅
  listening : Finset Nat := ∅
  cut : List (Nat × Nat) := []

inductive Exit
  | credentialFlock
  | refused
  | failed
  | crashed
  | ok
  deriving DecidableEq, Repr

/-- What a parent does next.  From `looking` to `settingMode` it is in `bind_unix_locked`;
`disconnecting` and `dropping` follow a connect that failed. -/
inductive Place (κ : Type)
  | acquiring (k : κ)
  | requesting
  | bindWait
  | looking
  | probing
  | unlinking
  | binding
  | stating
  | settingMode
  | connecting
  | disconnecting
  | dropping
  | serving
  | shuttingDown
  | removing (failed : Bool)
  | detaching
  | done (e : Exit)
  deriving DecidableEq, Repr

/-- `fail`: what it does next fails; `lapse`: its pump ends for good, and the host shuts down. -/
inductive Act
  | go
  | fail
  | lapse
  | crash
  deriving DecidableEq, Repr

variable {κ : Type}

namespace Site

/-- The parent that a client connecting to the path reaches. -/
def reached (s : Site κ) : Option Nat :=
  (s.path.map Socket.owner).filter fun i => decide (i ∈ s.listening)

/-- `bind` under the umask 077. -/
def bindMode : Nat := 0o777 &&& (0o777 ^^^ 0o077)

def release (s : Site κ) (i : Nat) : Site κ :=
  { s with credentials := fun k => if s.credentials k = some i then none else s.credentials k }

def close (s : Site κ) (i : Nat) : Site κ := { s with listening := s.listening.erase i }

/-- The process ends. -/
def exit (s : Site κ) (i : Nat) : Site κ :=
  { (s.release i).close i with bindlock := if s.bindlock = some i then none else s.bindlock }

/-- `remove_file`, which removes what is at the path. -/
def removeFile (s : Site κ) (i : Nat) : Site κ :=
  { s with
    path := none
    cut := (s.reached.map fun victim => (victim, i)).toList ++ s.cut }

def bind (s : Site κ) (i : Nat) : Site κ :=
  { s with
    path := some ⟨i, bindMode⟩
    bound := insert i s.bound
    listening := insert i s.listening }

def setMode (s : Site κ) (mode : Nat) : Site κ :=
  { s with path := s.path.map fun sock => { sock with mode := mode } }

def leave (s : Site κ) (i : Nat) (e : Exit) : Site κ × Place κ := (s.exit i, .done e)

variable [DecidableEq κ]

def run (i : Nat) (s : Site κ) : Place κ → Act → Option (Site κ × Place κ)
  | .done _, _ => none
  | _, .crash => some (s.leave i .crashed)
  | .acquiring k, .go =>
    some (if s.credentials k = none then
        ({ s with credentials := Function.update s.credentials k (some i) }, .requesting)
      else s.leave i .credentialFlock)
  | .requesting, .go => some (s, .bindWait)
  | .bindWait, .go =>
    if s.bindlock = none then some ({ s with bindlock := some i }, .looking) else none
  | .looking, .go => some (s, if s.path.isSome then .probing else .binding)
  | .probing, .go => some (if s.reached.isSome then s.leave i .refused else (s, .unlinking))
  -- Any error of the connect counts as a stale socket file.
  | .probing, .fail => some (s, .unlinking)
  | .unlinking, .go =>
    some (if s.path.isSome then (s.removeFile i, .binding) else s.leave i .failed)
  | .binding, .go => some (if s.path.isSome then s.leave i .failed else (s.bind i, .stating))
  | .stating, .go => some (if s.path.isSome then (s, .settingMode) else s.leave i .failed)
  | .settingMode, .go =>
    some (if s.path.isSome then ({ s.setMode 0o600 with bindlock := none }, .connecting)
      else s.leave i .failed)
  | .requesting, .fail | .bindWait, .fail | .unlinking, .fail | .binding, .fail | .stating, .fail
  | .settingMode, .fail => some (s.leave i .failed)
  | .connecting, .go => some (s, .serving)
  | .connecting, .fail => some (s, .disconnecting)
  | .connecting, .lapse => some (s.release i, .connecting)
  | .disconnecting, .go => some (s.release i, .dropping)
  | .dropping, .go => some (s.close i, .removing true)
  | .serving, .lapse => some (s.release i, .serving)
  | .serving, .go | .serving, .fail => some (s.close i, .shuttingDown)
  | .shuttingDown, .go => some (s.release i, .removing false)
  | .removing failed, .go =>
    some (if failed then (s.removeFile i).leave i .failed else (s.removeFile i, .detaching))
  | .detaching, .go => some (s.leave i .ok)
  | _, _ => none

def code : Program (Site κ) (Place κ) κ Act where
  spawn _ s k := some (s, .acquiring k)
  run := run

end Site

def machine [DecidableEq κ] : Machine (Pool (Site κ) (Place κ)) (Move κ Act) :=
  Site.code.machine fun s => s = {}

namespace Place

def locked : Place κ → Bool
  | .looking | .probing | .unlinking | .binding | .stating | .settingMode => true
  | _ => false

/-- Its listener is open. -/
def listens : Place κ → Bool
  | .stating | .settingMode | .connecting | .disconnecting | .dropping | .serving => true
  | _ => false

/-- It has bound nothing yet. -/
def early : Place κ → Bool
  | .acquiring _ | .requesting | .bindWait | .looking | .probing | .unlinking | .binding => true
  | _ => false

/-- It has closed its listener, and the path is still to be removed. -/
def leaving : Place κ → Bool
  | .shuttingDown | .removing _ => true
  | _ => false

/-- It has removed the path. -/
def gone : Place κ → Bool
  | .detaching | .done _ => true
  | _ => false

end Place

/-- A connect to an open listener succeeds: no parent runs out of file descriptors over its probe. -/
def Answered (P : Pool (Site κ) (Place κ)) : Move κ Act → Prop
  | .run i .fail => P.At i .probing → P.shared.reached = none
  | _ => True

/-- Connects to open listeners succeed, and no parent binds while another has closed its listener and
not yet removed the path. -/
def Prompt (P : Pool (Site κ) (Place κ)) : Move κ Act → Prop
  | .run i .go => P.At i .binding → ∀ p ∈ P.threads, p.leaving = false
  | m => Answered P m

instance [DecidableEq κ] (P : Pool (Site κ) (Place κ)) : DecidablePred (Answered P) := by
  intro m
  unfold Answered Pool.At
  split <;> infer_instance

instance [DecidableEq κ] (P : Pool (Site κ) (Place κ)) : DecidablePred (Prompt P) := by
  intro m
  unfold Prompt Pool.At
  split <;> infer_instance

theorem Prompt.answered {P : Pool (Site κ) (Place κ)} {m : Move κ Act} (h : Prompt P m) :
    Answered P m := by
  unfold Prompt at h
  split at h
  · trivial
  · exact h

end RithmicNt.Gateway.Binding
