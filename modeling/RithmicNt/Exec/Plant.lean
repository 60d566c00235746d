import Mathlib.Data.List.Basic

/-! The order-plant lifecycle of `rithmic-exec`: five states, the transitions between them, and the
trading policy that is a function of the state. -/

namespace RithmicNt.Exec

inductive PlantState
  | disconnected
  | connecting
  | live
  | resyncing
  | latched
  deriving DecidableEq, Repr

namespace PlantState

def all : List PlantState := [disconnected, connecting, live, resyncing, latched]

/-- The wire name, also the text used in reject reasons. -/
def asStr : PlantState → String
  | disconnected => "disconnected"
  | connecting => "connecting"
  | live => "live"
  | resyncing => "resyncing"
  | latched => "latched"

def parse (name : String) : Option PlantState := all.find? fun s => s.asStr == name

theorem parse_asStr (s : PlantState) : parse s.asStr = some s := by
  cases s <;> decide

end PlantState

/-- The owner of every order-plant transition. -/
structure PlantPolicy where
  state : PlantState := .disconnected
  deriving DecidableEq, Repr

namespace PlantPolicy

def latched (p : PlantPolicy) : Bool := p.state == .latched

/-! ### Transitions -/

def beginConnect (_ : PlantPolicy) : PlantPolicy := ⟨.connecting⟩

def disconnect (_ : PlantPolicy) : PlantPolicy := ⟨.disconnected⟩

def latch (_ : PlantPolicy) : PlantPolicy := ⟨.latched⟩

/-- A mid-session resync begins.  A latched plant stays blocked, a disconnected one stays down, and
one in the barrier latches, because its drain may predate the drop. -/
def resyncStart (p : PlantPolicy) : PlantPolicy :=
  match p.state with
  | .latched | .disconnected => p
  | .connecting => ⟨.latched⟩
  | .live | .resyncing => ⟨.resyncing⟩

def resyncComplete (p : PlantPolicy) : PlantPolicy :=
  if p.state = .resyncing then ⟨.live⟩ else p

def resyncFailed (p : PlantPolicy) : PlantPolicy :=
  if p.state ≠ .latched then ⟨.disconnected⟩ else p

/-- The end of the re-arm barrier: armed only from `connecting` with a live poll task.  The second
component is `false` when the plant stays un-armed. -/
def rearm (p : PlantPolicy) (pollAlive : Bool) : PlantPolicy × Bool :=
  match p.state with
  | .latched => (p, false)
  | .connecting => if pollAlive then (⟨.live⟩, true) else (⟨.disconnected⟩, false)
  | _ => (⟨.disconnected⟩, false)

/-! ### Policy -/

def allowSubmit (p : PlantPolicy) : Bool := p.state == .live

def allowModify (p : PlantPolicy) : Bool := p.state == .live

/-- Cancels stay available during a resync. -/
def allowCancel (p : PlantPolicy) : Bool := p.state == .live || p.state == .resyncing

def rejectReason (p : PlantPolicy) (action : String) : String :=
  "order plant " ++ p.state.asStr ++ "; " ++ action ++ " blocked"

/-! ### What each transition does to the state -/

@[simp] theorem beginConnect_state (p : PlantPolicy) : p.beginConnect.state = .connecting := rfl

@[simp] theorem disconnect_state (p : PlantPolicy) : p.disconnect.state = .disconnected := rfl

@[simp] theorem latch_state (p : PlantPolicy) : p.latch.state = .latched := rfl

theorem resyncStart_ne_connecting (p : PlantPolicy) : p.resyncStart.state ≠ .connecting := by
  unfold resyncStart
  split <;> simp_all

theorem resyncFailed_ne_connecting (p : PlantPolicy) : p.resyncFailed.state ≠ .connecting := by
  unfold resyncFailed
  split <;> simp_all

theorem resyncComplete_connecting {p : PlantPolicy} (h : p.resyncComplete.state = .connecting) :
    p.state = .connecting := by
  unfold resyncComplete at h
  split at h <;> simp_all

theorem rearm_ne_connecting (p : PlantPolicy) (alive : Bool) :
    (p.rearm alive).1.state ≠ .connecting := by
  unfold rearm
  split
  · simp_all
  · split <;> simp
  · simp

/-- `rearm` reports whether the plant armed: it does exactly from the barrier with a live poll
task. -/
theorem rearm_snd (p : PlantPolicy) (alive : Bool) :
    (p.rearm alive).2 = (p.state == .connecting && alive) := by
  unfold rearm
  cases h : p.state <;> cases alive <;> simp

theorem rearm_live_iff (p : PlantPolicy) (alive : Bool) :
    (p.rearm alive).1.state = .live ↔ p.state = .connecting ∧ alive = true := by
  unfold rearm
  cases h : p.state <;> cases alive <;> simp [h]

theorem latched_resync {p : PlantPolicy} (h : p.state = .latched) :
    p.resyncStart = p ∧ p.resyncComplete = p ∧ p.resyncFailed = p := by
  simp [resyncStart, resyncComplete, resyncFailed, h]

theorem allowCancel_of_allowSubmit {p : PlantPolicy} (h : p.allowSubmit = true) :
    p.allowCancel = true := by
  simp_all [allowSubmit, allowCancel]

end PlantPolicy

end RithmicNt.Exec
