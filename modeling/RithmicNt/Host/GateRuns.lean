import Mathlib.Logic.Relation
import RithmicNt.Host.Gates
import RithmicNt.Lib.Pool

/-! The trading and cancel-all gates over whole runs: what any sessions' calls send to the venue, cut
at their awaits.  The locks that a call waits for are left out: it goes on at any time. -/

namespace RithmicNt.Host.Gated

open RithmicNt.Lib

inductive Attachment
  | owned
  | attached
  | transport

structure SessionState where
  canOpenGates : Bool
  detached : Bool := false
  disconnecting : Nat := 0
  orderClosed : Bool := false
  order : Bool := false
  brackets : Bool := false

/-- A call at the venue: on behalf of a session or of the pump, and the gates at that time. -/
structure VenueCall where
  session : Option Nat
  method : Method
  gates : Gates

/-- `order` and `brackets` count the holders in the intent store.  `historyRefused`: loads are refused
under live market data, and there is some. -/
structure State where
  gates : Gates := {}
  venue : Bool := true
  ready : Bool := true
  terminal : Bool := false
  historyRefused : Bool := false
  sessions : Nat → Option SessionState := fun _ => none
  order : Nat := 0
  brackets : Nat := 0
  calls : List VenueCall := []

/-- How a session serves a method.  `plain`: the checks that it is attached, then the venue's call of
the same name. -/
inductive Dispatch
  | command
  | read
  | history
  | ensure
  | orders (brackets : Bool)
  | leaveOrders
  | leaveSession
  | plain
  | gates
  | delivery

def dispatch : Method → Dispatch
  | .placeOrder | .placeBracketOrder | .adjustBracketStop | .adjustBracketTarget | .cancelOrder
  | .modifyOrder | .cancelAllOrders => .command
  | .getFrontMonth | .getReferenceData | .loadOrders | .loadProductRmsInfo | .loadAccountRmsInfo
  | .loadFillHistory | .loadOrderHistory | .loadOrderHistoryDates => .read
  | .loadTicks | .loadTimeBars | .probeTimeBars => .history
  | .ensureOrderPlant => .ensure
  | .subscribeOrderUpdates => .orders false
  | .subscribeBracketUpdates => .orders true
  | .disconnectOrderPlant => .leaveOrders
  | .disconnect => .leaveSession
  | .openGates => .gates
  | .pollEvent | .pollHistoryEvent | .pollPnlEvent | .pollOrderEvent | .nextEvents => .delivery
  | .subscribe | .subscribeOrderBookSummary | .subscribeTimeBars | .subscribePnl | .unsubscribe
  | .unsubscribeOrderBookSummary | .unsubscribeTimeBars | .disconnectPnlPlant | .requestPlants
  | .ensurePnlPlant | .resolvedAccount | .connect => .plain

/-- Where a call waits.  `closing`: the call is `disconnect_order_plant`, which takes a failed leave
back; otherwise it is a teardown. -/
inductive Place
  | commandWait (id : Nat) (m : Method)
  | commandLock (id : Nat) (m : Method)
  | readWait (id : Nat) (m : Method)
  | historyWait (id : Nat) (m : Method)
  | historyLock (id : Nat) (m : Method)
  | ensureWait (id : Nat)
  | ensureLock (id : Nat)
  | ensuring (id : Nat)
  | ordersWait (id : Nat) (brackets : Bool)
  | ordersTopic (id : Nat) (needOrder needBrackets : Bool)
  | ordersLock (id : Nat) (needOrder needBrackets firstOrder firstBrackets : Bool)
  | orderCalling (id : Nat) (needOrder needBrackets firstBrackets : Bool)
  | bracketCalling (id : Nat) (needOrder needBrackets : Bool)
  | undoLock (id : Nat)
  | undoing (id : Nat)
  | leaveWait (id : Nat) (closing : Bool)
  | leaveTopic (id : Nat) (closing : Bool)
  | leaveLock (id : Nat) (closing hadBrackets : Bool)
  | leaving (id : Nat) (closing hadBrackets : Bool)
  | reseatPlan (id : Nat) (closing : Bool)
  | reseatLock (id : Nat) (closing : Bool)
  | reseating (id : Nat) (closing : Bool)
  | reseated (id : Nat) (closing : Bool)
  | plainWait (id : Nat) (m : Method)
  | restoring (order brackets : Bool)
  | calling
  | done
  deriving DecidableEq

inductive Call
  | attach (id : Nat) (a : Attachment)
  | rpc (id : Nat) (m : Method)
  | openGates (id : Nat) (trading cancelAll : Bool)
  | restore
  | setReady (ready : Bool)
  | setHistory (refused : Bool)
  | terminate

inductive Act
  | go
  | answer (ok : Bool)
  | drop

namespace State

def setSession (s : State) (id : Nat) (f : SessionState → SessionState) : State :=
  { s with sessions := Function.update s.sessions id ((s.sessions id).map f) }

def attached (s : State) (id : Nat) : Bool := (s.sessions id).any fun c => !c.detached

def active (s : State) (id : Nat) : Bool := s.attached id && s.ready

def notDisconnecting (s : State) (id : Nat) : Bool := (s.sessions id).any (·.disconnecting = 0)

def allowed (s : State) (m : Method) : Bool := (requireGate s.gates m).isOk

/-- The call on behalf of a session. -/
def call (s : State) (id : Nat) (m : Method) : State :=
  { s with calls := s.calls ++ [⟨some id, m, s.gates⟩] }

def callAt (s : State) (id : Nat) (m : Method) (p : Place) : Option (State × Place) :=
  some (s.call id m, p)

def stop (s : State) : Option (State × Place) := some (s, .done)

def waitIf (s : State) (b : Bool) (p : Place) : Option (State × Place) :=
  if b then some (s, p) else s.stop

def opened (s : State) (id : Nat) : Option (State × Place) :=
  (s.setSession id fun c => { c with orderClosed := false }).stop

/-- The intents that a failed order subscription had introduced. -/
def undo (s : State) (id : Nat) (needOrder needBrackets : Bool) : Option (State × Place) :=
  let s := if needBrackets then
    { s.setSession id fun c => { c with brackets := false } with brackets := (dropFlag s.brackets).1 }
    else s
  if !needOrder then s.stop
  else
    let (order, last) := dropFlag s.order
    let s := { s.setSession id fun c => { c with order := false } with order }
    s.waitIf (last && s.venue) (.undoLock id)

def ended (s : State) (id : Nat) (closing : Bool) : Option (State × Place) :=
  if closing then (s.setSession id fun c => { c with disconnecting := c.disconnecting - 1 }).stop
  else s.stop

/-- `leave_order` with the topic lock. -/
def leaveOrder (s : State) (id : Nat) (closing : Bool) (c : SessionState) : Option (State × Place) :=
  let (brackets, lastBrackets) := if c.brackets then dropFlag s.brackets else (s.brackets, false)
  let (order, lastOrder) := if c.order then dropFlag s.order else (s.order, false)
  let s := { s.setSession id fun c => { c with order := false, brackets := false } with
    order, brackets }
  if lastOrder && s.venue then some (s, .leaveLock id closing c.brackets)
  else if lastBrackets && !lastOrder then some (s, .reseatPlan id closing)
  else s.ended id closing

/-- A failed leave is taken back. -/
def retake (s : State) (id : Nat) (hadBrackets : Bool) : State :=
  { s.setSession id fun c => { c with order := true, brackets := c.brackets || hadBrackets } with
    order := s.order + 1
    brackets := if hadBrackets then s.brackets + 1 else s.brackets }

def rpc (s : State) (id : Nat) (m : Method) : Option (State × Place) :=
  match dispatch m with
  | .command => s.waitIf (s.active id && s.allowed m && s.notDisconnecting id) (.commandWait id m)
  | .read => s.waitIf (s.allowed m && s.active id) (.readWait id m)
  | .history => s.waitIf (s.allowed m) (.historyWait id m)
  | .ensure => s.waitIf (s.active id && s.allowed m) (.ensureWait id)
  | .orders brackets => s.waitIf (s.active id) (.ordersWait id brackets)
  | .leaveOrders =>
    if s.active id then
      some (s.setSession id fun c =>
        { c with disconnecting := c.disconnecting + 1, orderClosed := true }, .leaveWait id true)
    else s.stop
  | .leaveSession =>
    if s.attached id then
      some (s.setSession id fun c => { c with detached := true }, .leaveWait id false)
    else s.stop
  | .plain =>
    s.waitIf (if m = .connect ∨ m = .requestPlants then s.attached id else s.active id)
      (.plainWait id m)
  | .gates | .delivery => s.stop

def spawn (_ : Nat) (s : State) : Call → Option (State × Place)
  | .attach id a =>
    if (s.sessions id).isSome then none
    else
      match a with
      | .owned =>
        if s.terminal then s.stop
        else some ({ s with sessions := Function.update s.sessions id (some ⟨true, false, 0, false,
          false, false⟩) }, .done)
      | _ => some ({ s with sessions := Function.update s.sessions id (some ⟨false, false, 0, false,
          false, false⟩) }, .done)
  | .rpc id m => s.rpc id m
  | .openGates id trading cancelAll =>
    if (s.sessions id).any (fun c => c.canOpenGates && !c.detached) && !s.terminal then
      some ({ s with gates := s.gates.open trading cancelAll }, .done)
    else s.stop
  | .restore => some (s, .restoring (0 < s.order) (0 < s.brackets))
  | .setReady ready => some ({ s with ready }, .done)
  | .setHistory refused => some ({ s with historyRefused := refused }, .done)
  | .terminate => some ({ s with terminal := true }, .done)

def run (_ : Nat) (s : State) : Place → Act → Option (State × Place)
  | .commandWait id m, .go =>
    s.waitIf (s.active id && s.notDisconnecting id && (s.sessions id).any (!·.orderClosed) && s.venue)
      (.commandLock id m)
  | .commandLock id m, .go => if s.active id then s.callAt id m .calling else s.stop
  | .readWait id m, .go => if s.venue then s.callAt id m .calling else s.stop
  | .historyWait id m, .go => s.waitIf (!s.historyRefused && s.active id && s.venue) (.historyLock id m)
  | .historyLock id m, .go => s.callAt id m .calling
  | .ensureWait id, .go => s.waitIf (s.active id && s.venue) (.ensureLock id)
  | .ensureLock id, .go => s.callAt id .ensureOrderPlant (.ensuring id)
  | .ensuring id, .answer ok => if ok then s.opened id else s.stop
  | .ordersWait id brackets, .go =>
    match s.sessions id with
    | none => s.stop
    | some c =>
      if !s.active id || !s.gates.trading then s.stop
      else if c.order && !(brackets && !c.brackets) then s.opened id
      else some (s, .ordersTopic id (!c.order) (brackets && !c.brackets))
  | .ordersTopic id needOrder needBrackets, .go =>
    let (order, firstOrder) := if needOrder then bumpFlag s.order else (s.order, false)
    let (brackets, firstBrackets) := if needBrackets then bumpFlag s.brackets else (s.brackets, false)
    let s := { s.setSession id fun c =>
        { c with order := c.order || needOrder, brackets := c.brackets || needBrackets } with
      order, brackets }
    if !s.venue then s.undo id needOrder needBrackets
    else if !firstOrder && !firstBrackets then s.opened id
    else some (s, .ordersLock id needOrder needBrackets firstOrder firstBrackets)
  | .ordersLock id needOrder needBrackets firstOrder firstBrackets, .go =>
    if firstOrder then
      s.callAt id .subscribeOrderUpdates (.orderCalling id needOrder needBrackets firstBrackets)
    else s.callAt id .subscribeBracketUpdates (.bracketCalling id needOrder needBrackets)
  | .orderCalling id needOrder needBrackets firstBrackets, .answer ok =>
    if !ok then s.undo id needOrder needBrackets
    else if firstBrackets then
      s.callAt id .subscribeBracketUpdates (.bracketCalling id needOrder needBrackets)
    else s.opened id
  | .bracketCalling id needOrder needBrackets, .answer ok =>
    if ok then s.opened id else s.undo id needOrder needBrackets
  | .undoLock id, .go => s.callAt id .disconnectOrderPlant (.undoing id)
  | .undoing id, .answer ok => if ok then s.stop else (s.retake id false).stop
  | .leaveWait id closing, .go =>
    match s.sessions id with
    | none => s.stop
    | some c =>
      let s := if closing then s else s.setSession id fun c => { c with orderClosed := true }
      if c.order || c.brackets then some (s, .leaveTopic id closing) else s.ended id closing
  | .leaveTopic id closing, .go =>
    match s.sessions id with
    | none => s.stop
    | some c => s.leaveOrder id closing c
  | .leaveLock id closing hadBrackets, .go =>
    s.callAt id .disconnectOrderPlant (.leaving id closing hadBrackets)
  | .leaving id closing hadBrackets, .answer ok =>
    if !ok && closing then (s.retake id hadBrackets).ended id closing else s.ended id closing
  | .reseatPlan id closing, .go =>
    if 0 < s.order ∧ s.venue = true then some (s, .reseatLock id closing) else s.ended id closing
  | .reseatLock id closing, .go => s.callAt id .disconnectOrderPlant (.reseating id closing)
  | .reseating id closing, .answer _ => s.callAt id .subscribeOrderUpdates (.reseated id closing)
  | .reseated id closing, .answer ok =>
    if ok then s.ended id closing else ({ s with ready := false } : State).ended id closing
  | .plainWait id m, .go => if s.venue then s.callAt id m .calling else s.stop
  -- the joins of a restore pass, order before brackets
  | .restoring order brackets, .go =>
    if order then
      some ({ s with calls := s.calls ++ [⟨none, .subscribeOrderUpdates, s.gates⟩] },
        .restoring false brackets)
    else if brackets then
      some ({ s with calls := s.calls ++ [⟨none, .subscribeBracketUpdates, s.gates⟩] },
        .restoring false false)
    else s.stop
  | .calling, .answer _ => s.stop
  -- a dropped call
  | .done, .drop => none
  | .leaveWait id closing, .drop | .leaveTopic id closing, .drop | .leaveLock id closing _, .drop
  | .leaving id closing _, .drop | .reseatPlan id closing, .drop | .reseatLock id closing, .drop
  | .reseating id closing, .drop | .reseated id closing, .drop => s.ended id closing
  | _, .drop => s.stop
  | _, _ => none

def code : Program State Place Call Act where
  spawn := spawn
  run := run

end State

/-- A new host, with any gates open. -/
def machine : Machine (Pool State Place) (Move Call Act) :=
  State.code.machine fun s => s.sessions = (fun _ => none) ∧ s.order = 0 ∧ s.brackets = 0 ∧ s.calls = []

/-- The session may open gates. -/
def State.MayOpen (s : State) (id : Nat) : Prop := ∃ c, s.sessions id = some c ∧ c.canOpenGates = true

/-- The gate that was open when the call came to this place. -/
def Place.needs : Place → Gate
  | .commandWait _ m | .commandLock _ m | .readWait _ m | .historyWait _ m | .historyLock _ m
  | .plainWait _ m => m.gate
  | .ensureWait _ | .ensureLock _ | .ordersTopic _ _ _ | .ordersLock _ _ _ _ _ | .orderCalling _ _ _ _
  | .bracketCalling _ _ _ | .undoLock _ | .undoing _ | .leaveLock _ _ _ | .leaving _ _ _
  | .reseatLock _ _ | .reseating _ _ => .trading
  | .restoring order brackets => if order || brackets then .trading else .none
  | _ => .none

/-- Somebody holds the order or the brackets intent. -/
def State.Held (s : State) : Prop :=
  0 < s.order ∨ 0 < s.brackets ∨
    ∃ id c, s.sessions id = some c ∧ (c.order = true ∨ c.brackets = true)

/-- Every call at the venue was made with its gate open, and only an open trading gate lets anybody
hold an order intent. -/
structure State.Sound (s : State) : Prop where
  calls : ∀ c ∈ s.calls, c.gates.allows c.method.gate = true
  held : s.Held → s.gates.trading = true

def Knows (_ : Nat) (p : Place) (s : State) : Prop := s.gates.allows p.needs = true

structure Works (s : State) (r : State × Place) : Prop where
  sound : r.1.Sound
  knows : r.1.gates.allows r.2.needs = true
  gates : s.gates.Within r.1.gates

/-- All that a step leads to. -/
def Fine (s : State) (x : Option (State × Place)) : Prop := ∀ r, x = some r → Works s r

section Steps

variable {s t : State} {id : Nat} {m : Method} {p : Place} {b closing : Bool} {c : SessionState}

theorem fine_none : Fine s none := by
  intro r hr
  cases hr

theorem Fine.of_gates {x : Option (State × Place)} (h : Fine t x) (hg : t.gates = s.gates) :
    Fine s x := by
  intro r hr
  obtain ⟨hsound, hknows, hgates⟩ := h r hr
  exact ⟨hsound, hknows, hg ▸ hgates⟩

theorem fine_some (hs : t.Sound) (hg : t.gates = s.gates) (hp : t.gates.allows p.needs = true) :
    Fine s (some (t, p)) := by
  intro r hr
  cases hr
  refine ⟨hs, hp, ?_⟩
  rw [hg]
  exact .refl _

theorem fine_stop (hs : s.Sound) : Fine s s.stop := fine_some hs rfl rfl

theorem fine_waitIf (hs : s.Sound) (hp : b = true → s.gates.allows p.needs = true) :
    Fine s (s.waitIf b p) := by
  unfold State.waitIf
  split
  · next hb => exact fine_some hs rfl (hp hb)
  · exact fine_stop hs

/-- A call at the venue, on behalf of a session or not, with the gate of its method open. -/
theorem State.Sound.call (hs : s.Sound) (id : Option Nat) (hm : s.gates.allows m.gate = true) :
    ({ s with calls := s.calls ++ [⟨id, m, s.gates⟩] } : State).Sound := by
  refine ⟨?_, hs.held⟩
  intro c hc
  rcases List.mem_append.mp hc with hc | hc
  · exact hs.calls c hc
  · rw [List.mem_singleton.mp hc]
    exact hm

theorem fine_callAt (hs : s.Sound) (hm : s.gates.allows m.gate = true)
    (hp : s.gates.allows p.needs = true) : Fine s (s.callAt id m p) :=
  fine_some (hs.call (some id) hm) rfl hp

theorem State.Sound.of_trading (hs : s.Sound) (htrading : s.gates.trading = true)
    (hg : t.gates = s.gates) (hc : t.calls = s.calls) : t.Sound :=
  ⟨hc ▸ hs.calls, fun _ => hg ▸ htrading⟩

theorem State.Sound.of_held (hs : s.Sound) (hheld : t.Held → s.Held) (hg : t.gates = s.gates)
    (hc : t.calls = s.calls) : t.Sound :=
  ⟨hc ▸ hs.calls, fun h => hg ▸ hs.held (hheld h)⟩

/-- A change of a session that takes up no order intent, with counts that do not grow. -/
theorem held_setSession {f : SessionState → SessionState} {order brackets : Nat}
    (horder : ∀ c, (f c).order = true → c.order = true)
    (hbrackets : ∀ c, (f c).brackets = true → c.brackets = true) (ho : order ≤ s.order)
    (hb : brackets ≤ s.brackets)
    (h : ({ s.setSession id f with order, brackets } : State).Held) : s.Held := by
  rcases h with h | h | ⟨id', c, hc, hheld⟩
  · exact .inl (Nat.lt_of_lt_of_le h ho)
  · exact .inr (.inl (Nat.lt_of_lt_of_le h hb))
  · change Function.update s.sessions id ((s.sessions id).map f) id' = some c at hc
    by_cases hid : id' = id
    · subst hid
      rw [Function.update_self] at hc
      obtain ⟨d, hd, rfl⟩ := Option.map_eq_some_iff.mp hc
      exact .inr (.inr ⟨id', d, hd, hheld.imp (horder d) (hbrackets d)⟩)
    · rw [Function.update_of_ne hid] at hc
      exact .inr (.inr ⟨id', c, hc, hheld⟩)

/-- A change of a session that leaves its intents alone. -/
theorem State.Sound.setSession {f : SessionState → SessionState} (hs : s.Sound)
    (horder : ∀ c, (f c).order = c.order) (hbrackets : ∀ c, (f c).brackets = c.brackets) :
    (s.setSession id f).Sound := by
  refine hs.of_held ?_ rfl rfl
  intro h
  refine held_setSession (fun c => ?_) (fun c => ?_) (Nat.le_refl s.order)
    (Nat.le_refl s.brackets) h
  · rw [horder c]
    exact fun h => h
  · rw [hbrackets c]
    exact fun h => h

theorem fine_opened (hs : s.Sound) : Fine s (s.opened id) :=
  Fine.of_gates (t := s.setSession id fun c => { c with orderClosed := false })
    (fine_stop (hs.setSession (fun _ => rfl) fun _ => rfl)) rfl

theorem fine_ended (hs : s.Sound) : Fine s (s.ended id closing) := by
  unfold State.ended
  split
  · exact Fine.of_gates
      (t := s.setSession id fun c => { c with disconnecting := c.disconnecting - 1 })
      (fine_stop (hs.setSession (fun _ => rfl) fun _ => rfl)) rfl
  · exact fine_stop hs

theorem fine_undo {needOrder needBrackets : Bool} (hs : s.Sound) (htrading : s.gates.trading = true) :
    Fine s (s.undo id needOrder needBrackets) := by
  have hstop : ∀ t : State, t.gates = s.gates → t.calls = s.calls → Fine s t.stop :=
    fun t hg hc => Fine.of_gates (fine_stop (hs.of_trading htrading hg hc)) hg
  have hwait : ∀ (t : State) b, t.gates = s.gates → t.calls = s.calls →
      Fine s (t.waitIf b (.undoLock id)) := fun t b hg hc =>
    Fine.of_gates (fine_waitIf (hs.of_trading htrading hg hc) fun _ => by rw [hg]; exact htrading) hg
  unfold State.undo
  cases needBrackets <;> cases needOrder
  · exact hstop _ rfl rfl
  · exact hwait _ _ rfl rfl
  · exact hstop _ rfl rfl
  · exact hwait _ _ rfl rfl

theorem dropFlag_le (n : Nat) : (dropFlag n).1 ≤ n := by
  unfold dropFlag
  split
  · exact Nat.le_refl n
  · exact Nat.sub_le n 1

/-- Leaving takes up nothing; only a holder can be the last one. -/
theorem fine_leaveOrder (hs : s.Sound) (hc : s.sessions id = some c) :
    Fine s (s.leaveOrder id closing c) := by
  have hsound : ∀ order brackets, order ≤ s.order → brackets ≤ s.brackets →
      ({ s.setSession id fun c => { c with order := false, brackets := false } with
        order, brackets } : State).Sound := by
    intro order brackets ho hb
    refine hs.of_held ?_ rfl rfl
    intro h
    refine held_setSession (fun c => ?_) (fun c => ?_) ho hb h
    · intro h
      cases h
    · intro h
      cases h
  have horder : (if c.order then dropFlag s.order else (s.order, false)).1 ≤ s.order := by
    split
    · exact dropFlag_le _
    · exact Nat.le_refl _
  have hbrackets : (if c.brackets then dropFlag s.brackets else (s.brackets, false)).1 ≤ s.brackets := by
    split
    · exact dropFlag_le _
    · exact Nat.le_refl _
  have hlast : (if c.order then dropFlag s.order else (s.order, false)).2 = true →
      s.gates.trading = true := by
    intro h
    refine hs.held (.inr (.inr ⟨id, c, hc, .inl ?_⟩))
    by_contra hno
    simp [hno] at h
  unfold State.leaveOrder
  generalize (if c.order then dropFlag s.order else (s.order, false)) = x at horder hlast ⊢
  generalize (if c.brackets then dropFlag s.brackets else (s.brackets, false)) = y at hbrackets ⊢
  obtain ⟨order, lastOrder⟩ := x
  obtain ⟨brackets, lastBrackets⟩ := y
  have hsound := hsound order brackets horder hbrackets
  dsimp only
  split
  · next hlast' =>
    have hlastOrder : lastOrder = true := by
      simp only [Bool.and_eq_true] at hlast'
      exact hlast'.1
    exact fine_some hsound rfl (hlast hlastOrder)
  · split
    · exact fine_some hsound rfl rfl
    · exact Fine.of_gates (fine_ended hsound) rfl

theorem gate_of_plain (h : dispatch m = .plain) : m.gate = .none := by
  cases m <;> first | rfl | cases h

theorem allows_of_allowed (h : s.allowed m = true) : s.gates.allows m.gate = true := by
  refine requireGate_ok_iff.mp ?_
  unfold State.allowed at h
  cases hr : requireGate s.gates m with
  | ok u => rfl
  | error e =>
    rw [hr] at h
    cases h

theorem fine_rpc (hs : s.Sound) : Fine s (s.rpc id m) := by
  unfold State.rpc
  split
  · refine fine_waitIf hs ?_
    intro h
    simp only [Bool.and_eq_true] at h
    exact allows_of_allowed h.1.2
  · refine fine_waitIf hs ?_
    intro h
    simp only [Bool.and_eq_true] at h
    exact allows_of_allowed h.1
  · exact fine_waitIf hs allows_of_allowed
  · next hm =>
    refine fine_waitIf hs ?_
    intro h
    simp only [Bool.and_eq_true] at h
    have hgate : m.gate = .trading := by
      cases m <;> first | rfl | cases hm
    have := allows_of_allowed h.2
    rwa [hgate] at this
  · exact fine_waitIf hs fun _ => rfl
  · split
    · exact fine_some (hs.setSession (fun _ => rfl) fun _ => rfl) rfl rfl
    · exact fine_stop hs
  · split
    · exact fine_some (hs.setSession (fun _ => rfl) fun _ => rfl) rfl rfl
    · exact fine_stop hs
  · next hm =>
    refine fine_waitIf hs ?_
    intro _
    change s.gates.allows m.gate = true
    rw [gate_of_plain hm]
    rfl
  · exact fine_stop hs
  · exact fine_stop hs

/-- A new session holds nothing. -/
theorem sound_attach (hs : s.Sound) (hid : s.sessions id = none) (owner : Bool) :
    ({ s with sessions := Function.update s.sessions id (some ⟨owner, false, 0, false, false,
      false⟩) } : State).Sound := by
  refine hs.of_held ?_ rfl rfl
  rintro (h | h | ⟨id', c, hc, hheld⟩)
  · exact .inl h
  · exact .inr (.inl h)
  · change Function.update s.sessions id _ id' = some c at hc
    by_cases heq : id' = id
    · subst heq
      rw [Function.update_self] at hc
      cases hc
      simp at hheld
    · rw [Function.update_of_ne heq] at hc
      exact .inr (.inr ⟨id', c, hc, hheld⟩)

theorem fine_spawn (i : Nat) (hs : s.Sound) (k : Call) : Fine s (State.spawn i s k) := by
  cases k with
  | attach id a =>
    simp only [State.spawn]
    split
    · exact fine_none
    · next hnone =>
      have hid : s.sessions id = none := by simpa using hnone
      cases a with
      | owned =>
        dsimp only
        split
        · exact fine_stop hs
        · exact fine_some (sound_attach hs hid true) rfl rfl
      | attached => exact fine_some (sound_attach hs hid false) rfl rfl
      | transport => exact fine_some (sound_attach hs hid false) rfl rfl
  | rpc id m => exact fine_rpc hs
  | openGates id trading cancelAll =>
    simp only [State.spawn]
    split
    · intro r hr
      cases hr
      have hwithin := Gates.within_open s.gates trading cancelAll
      exact ⟨⟨hs.calls, fun h => hwithin .trading (hs.held h)⟩, rfl, hwithin⟩
    · exact fine_stop hs
  | restore =>
    refine fine_some hs rfl ?_
    change s.gates.allows (if decide (0 < s.order) || decide (0 < s.brackets) then .trading else .none)
      = true
    split
    · next h =>
      simp only [Bool.or_eq_true, decide_eq_true_eq] at h
      exact hs.held (h.elim .inl fun h => .inr (.inl h))
    · rfl
  | setReady ready => exact fine_some ⟨hs.calls, hs.held⟩ rfl rfl
  | setHistory refused => exact fine_some ⟨hs.calls, hs.held⟩ rfl rfl
  | terminate => exact fine_some ⟨hs.calls, hs.held⟩ rfl rfl

end Steps

section Steps

variable {s : State} {p : Place}

theorem fine_run (i : Nat) (hs : s.Sound) (hk : s.gates.allows p.needs = true) (a : Act) :
    Fine s (State.run i s p a) := by
  unfold State.run
  split
  · exact fine_waitIf hs fun _ => hk
  · split
    · exact fine_callAt hs hk rfl
    · exact fine_stop hs
  · split
    · exact fine_callAt hs hk rfl
    · exact fine_stop hs
  · exact fine_waitIf hs fun _ => hk
  · exact fine_callAt hs hk rfl
  · exact fine_waitIf hs fun _ => hk
  · exact fine_callAt hs hk rfl
  · split
    · exact fine_opened hs
    · exact fine_stop hs
  · -- the trading gate is read under the session's lock
    split
    · exact fine_stop hs
    · split
      · exact fine_stop hs
      · next hgate =>
        split
        · exact fine_opened hs
        · refine fine_some hs rfl ?_
          simp only [Bool.or_eq_true, Bool.not_eq_true', not_or, Bool.not_eq_false] at hgate
          exact hgate.2
  · next id needOrder needBrackets =>
    -- the intents are noted with the gate open
    have hsound : ∀ t : State, t.gates = s.gates → t.calls = s.calls → t.Sound :=
      fun t hg hc => hs.of_trading hk hg hc
    generalize (if needOrder then bumpFlag s.order else (s.order, false)) = x
    generalize (if needBrackets then bumpFlag s.brackets else (s.brackets, false)) = y
    obtain ⟨order, firstOrder⟩ := x
    obtain ⟨brackets, firstBrackets⟩ := y
    dsimp only
    split
    · exact Fine.of_gates (fine_undo (hsound _ rfl rfl) hk) rfl
    · split
      · exact Fine.of_gates (fine_opened (hsound _ rfl rfl)) rfl
      · exact fine_some (hsound _ rfl rfl) rfl hk
  · split
    · exact fine_callAt hs hk hk
    · exact fine_callAt hs hk hk
  · split
    · exact fine_undo hs hk
    · split
      · exact fine_callAt hs hk hk
      · exact fine_opened hs
  · split
    · exact fine_opened hs
    · exact fine_undo hs hk
  · exact fine_callAt hs rfl hk
  · split
    · exact fine_stop hs
    · exact Fine.of_gates (fine_stop (hs.of_trading hk rfl rfl)) rfl
  · next id closing =>
    have hsound : (if closing then s else s.setSession id fun c => { c with orderClosed := true
        }).Sound := by
      split
      · exact hs
      · exact hs.setSession (fun _ => rfl) fun _ => rfl
    have hg : (if closing then s else s.setSession id fun c => { c with orderClosed := true
        }).gates = s.gates := by
      split <;> rfl
    split
    · exact fine_stop hs
    · dsimp only
      split
      · exact fine_some hsound hg rfl
      · exact Fine.of_gates (fine_ended hsound) hg
  · split
    · exact fine_stop hs
    · next hc => exact fine_leaveOrder hs hc
  · exact fine_callAt hs rfl hk
  · split
    · exact Fine.of_gates (fine_ended (hs.of_trading hk rfl rfl)) rfl
    · exact fine_ended hs
  · split
    · next hplan => exact fine_some hs rfl (hs.held (.inl hplan.1))
    · exact fine_ended hs
  · exact fine_callAt hs rfl hk
  · exact fine_callAt hs hk rfl
  · split
    · exact fine_ended hs
    · exact Fine.of_gates (fine_ended ⟨hs.calls, hs.held⟩) rfl
  · split
    · exact fine_callAt hs hk rfl
    · exact fine_stop hs
  · next order brackets =>
    change s.gates.allows (if order || brackets then .trading else .none) = true at hk
    cases order
    · cases brackets
      · exact fine_stop hs
      · exact fine_some (hs.call none (m := .subscribeBracketUpdates) hk) rfl rfl
    · refine fine_some (hs.call none (m := .subscribeOrderUpdates) hk) rfl ?_
      change s.gates.allows (if false || brackets then .trading else .none) = true
      split
      · exact hk
      · rfl
  · exact fine_stop hs
  · exact fine_none
  all_goals first
    | exact fine_ended hs
    | exact fine_stop hs
    | exact fine_none

end Steps

section Runs

variable {P Q : Pool State Place}

theorem Works.keeps {i : Nat} {r : State × Place} (hP : P.Holds State.Sound Knows)
    (h : Works P.shared r) : P.Keeps State.Sound Knows i r :=
  ⟨h.sound, h.knows, fun j q _ hq => h.gates q.needs (hP.places j q hq)⟩

theorem works_of_step {m : Move Call Act} (hP : P.Holds State.Sound Knows)
    (h : P.step State.code m = some Q) : P.shared.gates.Within Q.shared.gates ∧
      Q.Holds State.Sound Knows := by
  constructor
  · obtain ⟨k, r, rfl, hr, rfl⟩ | ⟨i, a, p, r, rfl, hp, hr, rfl⟩ := Pool.step_cases h
    · exact (fine_spawn P.threads.length hP.shared k r hr).gates
    · exact (fine_run i hP.shared (hP.places i p hp) a r hr).gates
  · have hfree : Machine.Free P m := trivial
    refine Pool.holds_of_step ?_ ?_ hfree h
    · intro k r hr _
      exact (fine_spawn P.threads.length hP.shared k r hr).keeps hP
    · intro i a p r hp hr _
      exact (fine_run i hP.shared (hP.places i p hp) a r hr).keeps hP

theorem holds_of_run {trace : List (Move Call Act)} (h : machine.Run Machine.Free trace P) :
    P.Holds State.Sound Knows := by
  refine h.invariant (I := Pool.Holds State.Sound Knows) ?_ ?_
  · rintro P ⟨⟨hsessions, horder, hbrackets, hcalls⟩, hthreads⟩
    refine ⟨⟨by simp [hcalls], ?_⟩, ?_⟩
    · rintro (h | h | ⟨id, c, hc, -⟩)
      · omega
      · omega
      · simp [hsessions] at hc
    · intro i p hp
      simp [Pool.At, hthreads] at hp
  · intro P m Q hP _ hstep
    exact (works_of_step hP hstep).2

/-- One state after another. -/
def Next (P Q : Pool State Place) : Prop := ∃ m, P.step State.code m = some Q

theorem within_of_next (hP : P.Holds State.Sound Knows) (h : Relation.ReflTransGen Next P Q) :
    P.shared.gates.Within Q.shared.gates ∧ Q.Holds State.Sound Knows := by
  induction h with
  | refl => exact ⟨.refl _, hP⟩
  | tail _ hstep ih =>
    obtain ⟨m, hstep⟩ := hstep
    obtain ⟨hwithin, hholds⟩ := works_of_step ih.2 hstep
    exact ⟨ih.1.trans hwithin, hholds⟩

/-- Every call at the venue has its gate open, a gate once open stays open, and a session that may not
open gates leaves them as they are. -/
theorem gated_of_run {trace : List (Move Call Act)} (h : machine.Run Machine.Free trace P) :
    (∀ c ∈ P.shared.calls, c.gates.allows c.method.gate = true) ∧
    (∀ Q, Relation.ReflTransGen Next P Q → P.shared.gates.Within Q.shared.gates) ∧
    ∀ id trading cancelAll Q, P.step State.code (.spawn (.openGates id trading cancelAll)) = some Q →
      ¬ P.shared.MayOpen id → Q.shared.gates = P.shared.gates := by
  have hP := holds_of_run h
  refine ⟨hP.shared.calls, fun Q hQ => (within_of_next hP hQ).1, ?_⟩
  intro id trading cancelAll Q hstep hnot
  obtain ⟨k, r, hk, hr, rfl⟩ | ⟨i, a, p, r, hk, -, -, -⟩ := Pool.step_cases hstep
  · cases hk
    change State.spawn 0 P.shared (.openGates id trading cancelAll) = some r at hr
    simp only [State.spawn] at hr
    split at hr
    · next hmay =>
      simp only [Bool.and_eq_true, Option.any_eq_true] at hmay
      obtain ⟨⟨c, hc, hopen, -⟩, -⟩ := hmay
      exact absurd ⟨c, hc, hopen⟩ hnot
    · cases hr
      rfl
  · cases hk

/-- A transport tries to open the gates and to place an order; the owner opens the trading gate, and
the transport places, subscribes and cancels everything. -/
def gatedCalls : List (Move Call Act) :=
  [.spawn (.attach 0 .owned), .spawn (.attach 1 .transport), .spawn (.openGates 1 true true),
    .spawn (.rpc 1 .placeOrder), .spawn (.openGates 0 true false), .spawn (.rpc 1 .placeOrder),
    .run 5 .go, .run 5 .go, .spawn (.rpc 1 .subscribeBracketUpdates), .run 6 .go, .run 6 .go,
    .run 6 .go, .run 6 (.answer true), .run 6 (.answer true), .spawn (.rpc 1 .cancelAllOrders)]

theorem gated_gatedCalls :
    ∃ P, machine.Run Machine.Free gatedCalls P ∧
      (∀ c ∈ P.shared.calls, c.gates.allows c.method.gate = true) ∧
      P.shared.calls.map VenueCall.method =
        [.placeOrder, .subscribeOrderUpdates, .subscribeBracketUpdates] ∧
      P.shared.gates = ⟨true, false⟩ := by
  have hexec : ∃ P, machine.exec Machine.Free ⟨{}, []⟩ gatedCalls = some P ∧
      P.shared.calls.map VenueCall.method =
        [.placeOrder, .subscribeOrderUpdates, .subscribeBracketUpdates] ∧
      P.shared.gates = ⟨true, false⟩ := ⟨_, rfl, rfl, rfl⟩
  obtain ⟨P, hexec, hcalls⟩ := hexec
  have hrun : machine.Run Machine.Free gatedCalls P :=
    Machine.run_of_exec ⟨⟨rfl, rfl, rfl, rfl⟩, rfl⟩ hexec
  exact ⟨P, hrun, (gated_of_run hrun).1, hcalls⟩

end Runs

end RithmicNt.Host.Gated
