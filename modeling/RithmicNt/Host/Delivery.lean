import RithmicNt.Host.Fanout
import RithmicNt.Host.Sessions

/-! The host with the objects that its sessions deliver through: what each operation of a session calls
on them, and that these calls keep what the session's own record of its topics says. -/

namespace RithmicNt.Host.Fanout

open RithmicNt.Lib

/-- What an operation calls on the delivery of its session.  `leave` is `drop_delivery` with the
`remove_hub_interest` that follows it. -/
inductive Call
  | attach (key : SubKey)
  | sync (key : SubKey) (mask : UInt8)
  | leave (key : SubKey)
  deriving DecidableEq, Repr

def Call.key : Call → SubKey
  | .attach key | .sync key _ | .leave key => key

namespace Net

def attachSharedTopic (n : Net) (id : Nat) (key : SubKey) : Net :=
  if key ∈ (n.wires id).subscribed then n.ensureDelivery id key
  else (n.addInterest key).ensureDelivery id key

def call (id : Nat) (n : Net) : Call → Net
  | .attach key => n.attachSharedTopic id key
  | .sync key mask => n.setWires id ((n.wires id).syncKinds key mask)
  | .leave key => (n.setWires id ((n.wires id).dropDelivery key)).removeInterest key

end Net

/-- The call of `rollback_shared_topic`. -/
def rollbackCalls (key : SubKey) (hadDelivery : Bool) : List Call :=
  if hadDelivery then [] else [.leave key]

def subscribeCalls (a : Answers) (i : MdIntent) (s : Scope) : List Call :=
  if s.client.has i then []
  else
    let inserted := s.client.insert i
    [.attach i.key, .sync i.key (inserted.mask i.key)] ++
      match (subscribeTopic a i s).2 with
      | .ok () => []
      | .error _ =>
        .sync i.key ((inserted.remove i).mask i.key) ::
          rollbackCalls i.key (i.key ∈ s.client.subscribed)

def unsubscribeCalls (a : Answers) (i : MdIntent) (s : Scope) : List Call :=
  if !s.client.has i then []
  else
    let removed := s.client.remove i
    .sync i.key (removed.mask i.key) ::
      match (unsubscribeTopic a i s).2 with
      | .ok () => if removed.wantsMd i.key then [] else [.leave i.key]
      | .error _ => [.sync i.key ((removed.insert i).mask i.key)]

def subscribePnlCalls (a : Answers) (s : Scope) : List Call :=
  if !s.state.session || !a.ready || s.client.pnl then []
  else
    .attach pnlKey ::
      match (subscribePnl a s).2 with
      | .ok () => []
      | .error _ => rollbackCalls pnlKey (pnlKey ∈ s.client.subscribed)

/-- The call at the end of `disconnect_pnl` and of `disconnect_order`. -/
def releaseTopicCalls (c : SessionCtx) (key : SubKey) : List Call :=
  if key ∈ c.subscribed then [.leave key] else []

def disconnectPnlCalls (a : Answers) (s : Scope) : List Call :=
  match (disconnectPnl a s).2 with
  | .ok () => releaseTopicCalls s.client pnlKey
  | .error _ => []

/-- The call of `sync_kinds` that follows a change of the brackets intent. -/
def syncBrackets (c : SessionCtx) (brackets : Bool) : Call :=
  .sync orderKey ({ c with brackets }.mask orderKey)

def subscribeOrdersCalls (a : Answers) (deniedMsg : String) (wantBrackets : Bool) (s : Scope) :
    List Call :=
  let needOrder := !s.client.order
  let needBrackets := wantBrackets && !s.client.brackets
  if !s.state.trading || (!needOrder && !needBrackets) then []
  else
    let r := subscribeOrderPlantStream a deniedMsg wantBrackets s
    .attach orderKey :: ((if needBrackets then [syncBrackets s.client true] else []) ++
      match r.2 with
      | .ok () => []
      | .error _ =>
        (if needBrackets then [syncBrackets s.client false] else []) ++
          if needOrder && !r.1.client.order then
            rollbackCalls orderKey (orderKey ∈ s.client.subscribed)
          else [])

def disconnectOrderCalls (a : Answers) (s : Scope) : List Call :=
  let r := disconnectOrder a s
  (if s.client.brackets then [syncBrackets s.client false] else []) ++
    match r.2 with
    | .ok () => releaseTopicCalls s.client orderKey
    | .error _ => if r.1.client.brackets then [syncBrackets s.client true] else []

/-- The calls of an operation behind its `active` check. -/
def calls (o : Op) (s : Scope) : List Call :=
  match s.state.checkReady with
  | .error _ => []
  | .ok () =>
    match o with
    | .subscribe i a => subscribeCalls a i s
    | .unsubscribe i a => unsubscribeCalls a i s
    | .subscribePnl a => subscribePnlCalls a s
    | .disconnectPnl a => disconnectPnlCalls a s
    | .subscribeOrders brackets a => subscribeOrdersCalls a (deniedMsg brackets) brackets s
    | .disconnectOrder a => disconnectOrderCalls a s
    | .teardown .. => []

/-- A context without maps; the numbers of the session's objects are not used again. -/
def Wires.fresh (w : Wires) : Wires := { next := w.next }

/-- `topics.clear()` drops the only strong references to the session's topics; the context goes at the
end. -/
def Net.teardown (n : Net) (id : Nat) (c : SessionCtx) (d : DrainOrder) : Net :=
  let dying := { c with ticker := ∅, book := ∅, timeBars := ∅ }
  let w := { n.wires id with topics := fun _ => none, made := fun _ => none }
  let w := if c.brackets then w.syncKinds orderKey ({ dying with brackets := false }.mask orderKey) else w
  let n := d.subscribed.foldl Net.removeInterest (n.setWires id w)
  n.setWires id (n.wires id).fresh

/-- The host beside the objects of its hub and of its sessions. -/
structure World where
  hosted : Hosted
  net : Net := {}

namespace World

def follow (w : World) : Event → Net
  | .attach id => w.net.setWires id (w.net.wires id).fresh
  | .op id o =>
    match w.hosted.sessions.get? id with
    | none => w.net
    | some c =>
      match o with
      | .teardown d _ => w.net.teardown id c d
      | o => (calls o ⟨w.hosted.state, c⟩).foldl (Net.call id) w.net
  | _ => w.net

def step (w : World) (e : Event) : Option World :=
  (w.hosted.step e).map fun hosted => ⟨hosted, w.follow e⟩

end World

def machine : Machine World Event where
  Start w := Host.machine.Start w.hosted ∧ w.net = {}
  step := World.step

/-! What the calls do to the values that the session and the hub keep. -/

/-- A session's record of its topics and of its interests, and the hub's counts. -/
structure View where
  subscribed : Finset SubKey
  kinds : SubKey → Option UInt8
  hub : Tally SubKey

def view (s : Scope) : View := ⟨s.client.subscribed, s.client.kinds, s.state.hub⟩

namespace View

def attach (v : View) (key : SubKey) : View :=
  if key ∈ v.subscribed then v
  else
    { subscribed := insert key v.subscribed
      kinds := Function.update v.kinds key (some ((v.kinds key).getD 0))
      hub := (v.hub.bump key).1 }

def call (v : View) : Call → View
  | .attach key => v.attach key
  | .sync key mask =>
    if mask = 0 ∧ key ∉ v.subscribed then { v with kinds := Function.update v.kinds key none }
    else { v with kinds := Function.update v.kinds key (some mask) }
  | .leave key =>
    { subscribed := v.subscribed.erase key
      kinds := Function.update v.kinds key none
      hub := (v.hub.drop key).1 }

end View

section

variable {s t u : Scope}

theorem view_attachSharedTopic (s : Scope) (key : SubKey) :
    view (Host.attachSharedTopic s key) = (view s).call (.attach key) := by
  by_cases hmem : key ∈ s.client.subscribed
  · simp [Host.attachSharedTopic, SessionCtx.ensureDelivery, view, View.call, View.attach, hmem]
  · have hcontains : (s.state.hub.bump key).1.contains key = true := by
      rw [Tally.contains_iff, Tally.count_bump]
      simp
    simp [Host.attachSharedTopic, SessionCtx.ensureDelivery, Scope.addInterest, view, View.call,
      View.attach, hmem, hcontains]

theorem view_syncKinds (state : HostState) (c : SessionCtx) (key : SubKey) :
    view ⟨state, c.syncKinds key⟩ = (view ⟨state, c⟩).call (.sync key (c.mask key)) := by
  unfold SessionCtx.syncKinds view View.call
  dsimp only
  split <;> rfl

theorem view_insert (s : Scope) (i : MdIntent) :
    view (s.insert i) = (view s).call (.sync i.key ((s.client.insert i).mask i.key)) := by
  cases i <;>
  · rw [SessionCtx.insert, (SessionCtx.syncKinds_alike _ _).mask]
    exact view_syncKinds s.state _ _

theorem view_remove (s : Scope) (i : MdIntent) :
    view (s.remove i) = (view s).call (.sync i.key ((s.client.remove i).mask i.key)) := by
  cases i <;>
  · rw [SessionCtx.remove, (SessionCtx.syncKinds_alike _ _).mask]
    exact view_syncKinds s.state _ _

/-- The mask of a session's holdings, whatever its delivery. -/
theorem mask_congr {c d : SessionCtx} (hmd : ∀ i, c.has i = d.has i)
    (hbrackets : c.brackets = d.brackets) (key : SubKey) : c.mask key = d.mask key := by
  have hticker : ∀ k, k ∈ c.ticker ↔ k ∈ d.ticker := fun k => by
    simpa [SessionCtx.has] using hmd (.ticker k)
  have hbook : ∀ k, k ∈ c.book ↔ k ∈ d.book := fun k => by
    simpa [SessionCtx.has] using hmd (.book k)
  have hbars : ∀ t, t ∈ c.timeBars ↔ t ∈ d.timeBars := fun t => by
    simpa [SessionCtx.has] using hmd (.timeBars t)
  unfold SessionCtx.mask SessionCtx.hasBars
  rw [Finset.ext hticker, Finset.ext hbook, Finset.ext hbars, hbrackets]

theorem has_insert_eq (c : SessionCtx) (i j : MdIntent) :
    (c.insert i).has j = (decide (j = i) || c.has j) := by
  rw [Bool.eq_iff_iff]
  simpa using c.has_insert i j

theorem has_remove_eq (c : SessionCtx) (i j : MdIntent) :
    (c.remove i).has j = (decide (j ≠ i) && c.has j) := by
  rw [Bool.eq_iff_iff]
  simpa using c.has_remove i j

/-- Two scopes with the same session and the same counts in the hub. -/
structure SameDelivery (s t : Scope) : Prop where
  client : t.client = s.client
  hub : t.state.hub = s.state.hub

theorem SameDelivery.view (h : SameDelivery s t) : view t = view s := by
  unfold Fanout.view
  rw [h.client, h.hub]

theorem SameDelivery.trans (h : SameDelivery s t) (h' : SameDelivery t u) : SameDelivery s u :=
  ⟨h'.client.trans h.client, h'.hub.trans h.hub⟩

theorem SameDelivery.attach (h : SameDelivery s t) (key : SubKey) :
    SameDelivery (Host.attachSharedTopic s key) (Host.attachSharedTopic t key) := by
  unfold Host.attachSharedTopic Scope.addInterest
  rw [h.client]
  dsimp only
  split
  · exact ⟨by simp only [h.client, h.hub], h.hub⟩
  · exact ⟨by simp only [h.hub], by simp only [h.hub]⟩

theorem SameDelivery.rollback (h : SameDelivery s t) (key : SubKey) (had : Bool) :
    SameDelivery (rollbackSharedTopic s key had) (rollbackSharedTopic t key had) := by
  cases had with
  | true => exact h
  | false =>
    refine ⟨?_, ?_⟩
    · show t.client.dropDelivery key = s.client.dropDelivery key
      rw [h.client]
    · show (t.state.hub.drop key).1 = (s.state.hub.drop key).1
      rw [h.hub]

theorem sameDelivery_rollbackSubscribe (h : SameDelivery s t) (i : MdIntent) (had : Bool) :
    SameDelivery (rollbackSharedTopic (s.remove i) i.key had) (rollbackSubscribe t i had) := by
  have hremoved : SameDelivery (s.remove i) ((t.remove i).forget (.md i)) := by
    refine ⟨?_, h.hub⟩
    show t.client.remove i = s.client.remove i
    rw [h.client]
  exact hremoved.rollback i.key had

theorem view_rollbackSharedTopic (s : Scope) (key : SubKey) (had : Bool) :
    view (rollbackSharedTopic s key had) = (rollbackCalls key had).foldl View.call (view s) := by
  cases had <;> rfl

/-- The intent with its topic, before the venue is asked. -/
def entered (i : MdIntent) (s : Scope) : Scope := (Host.attachSharedTopic s i.key).insert i

theorem view_entered (i : MdIntent) (s : Scope) :
    view (entered i s) = [Call.attach i.key,
      .sync i.key ((s.client.insert i).mask i.key)].foldl View.call (view s) := by
  have hmask : ((Host.attachSharedTopic s i.key).client.insert i).mask i.key =
      (s.client.insert i).mask i.key := by
    refine mask_congr ?_ ?_ _
    · intro j
      rw [has_insert_eq, has_insert_eq]
      have := attachSharedTopic_holds s i.key (.md j)
      rw [show (Host.attachSharedTopic s i.key).client.has j = s.client.has j from this]
    · rw [((Host.attachSharedTopic s i.key).client.insert_frame i).2.2.2,
        (s.client.insert_frame i).2.2.2]
      exact attachSharedTopic_holds s i.key .brackets
  unfold entered
  rw [view_insert, hmask, view_attachSharedTopic]
  rfl

end

section

variable (a : Answers) (i : MdIntent) (s : Scope)

theorem joinNoted_cases (isFirst had : Bool) :
    ((joinNoted a i s isFirst had).2 = .ok () ∧ SameDelivery s (joinNoted a i s isFirst had).1) ∨
      ∃ e, (joinNoted a i s isFirst had).2 = .error e ∧
        SameDelivery (rollbackSharedTopic (s.remove i) i.key had)
          (joinNoted a i s isFirst had).1 := by
  unfold joinNoted
  dsimp only
  split
  · split
    · exact .inr ⟨_, rfl, sameDelivery_rollbackSubscribe ⟨rfl, rfl⟩ i had⟩
    · split
      · left
        refine ⟨rfl, ?_⟩
        split <;> exact ⟨rfl, rfl⟩
      · refine .inr ⟨_, rfl, sameDelivery_rollbackSubscribe ?_ i had⟩
        split <;> exact ⟨rfl, rfl⟩
  · exact .inl ⟨rfl, rfl, rfl⟩

theorem rejoinDegraded_same : SameDelivery s (rejoinDegraded a i s).1 := by
  unfold rejoinDegraded
  split
  · exact ⟨rfl, rfl⟩
  split
  · exact ⟨rfl, rfl⟩
  dsimp only
  split
  · exact ⟨rfl, rfl⟩
  · split <;> exact ⟨rfl, rfl⟩

theorem refreshHeld_same : SameDelivery s (refreshHeld a i s).1 := by
  unfold refreshHeld
  split
  · exact ⟨rfl, rfl⟩
  split
  · exact ⟨rfl, rfl⟩
  dsimp only
  split
  · exact ⟨rfl, rfl⟩
  · split <;> exact ⟨rfl, rfl⟩

/-- Everything that a subscribe can do. -/
theorem subscribeTopic_cases :
    (s.client.has i = true ∧ SameDelivery s (subscribeTopic a i s).1) ∨
    (s.client.has i = false ∧ (subscribeTopic a i s).2 = .ok () ∧
      SameDelivery (entered i s) (subscribeTopic a i s).1) ∨
    (s.client.has i = false ∧ ∃ e, (subscribeTopic a i s).2 = .error e ∧
      SameDelivery (rollbackSharedTopic ((entered i s).remove i) i.key
        (i.key ∈ s.client.subscribed)) (subscribeTopic a i s).1) := by
  by_cases hhas : s.client.has i = true
  · left
    refine ⟨hhas, ?_⟩
    unfold subscribeTopic
    rw [if_pos hhas]
    split
    · exact rejoinDegraded_same a i s
    · exact refreshHeld_same a i s
  · right
    unfold subscribeTopic
    rw [if_neg hhas]
    have hno : s.client.has i = false := by simpa using hhas
    dsimp only
    have hsame : SameDelivery (entered i s)
        (((Host.attachSharedTopic s i.key).note (.md i)).insert i) := ⟨rfl, rfl⟩
    have hremoved : SameDelivery ((entered i s).remove i)
        ((((Host.attachSharedTopic s i.key).note (.md i)).insert i).remove i) := ⟨rfl, rfl⟩
    rcases joinNoted_cases a i (((Host.attachSharedTopic s i.key).note (.md i)).insert i)
        ((Host.attachSharedTopic s i.key).state.store.note (.md i)).2
        (i.key ∈ s.client.subscribed) with ⟨hok, h⟩ | ⟨e, he, h⟩
    · exact .inl ⟨hno, hok, hsame.trans h⟩
    · exact .inr ⟨hno, e, he, (hremoved.rollback _ _).trans h⟩

theorem view_subscribeTopic :
    view (subscribeTopic a i s).1 = (subscribeCalls a i s).foldl View.call (view s) := by
  unfold subscribeCalls
  rcases subscribeTopic_cases a i s with ⟨hhas, h⟩ | ⟨hno, hok, h⟩ | ⟨hno, e, he, h⟩
  · rw [if_pos hhas, h.view]
    rfl
  · rw [if_neg (by simp [hno]), h.view, view_entered]
    dsimp only
    rw [hok]
    rfl
  · rw [if_neg (by simp [hno]), h.view, view_rollbackSharedTopic, view_remove, view_entered]
    dsimp only
    rw [he]
    have hmask : ((entered i s).client.remove i).mask i.key =
        ((s.client.insert i).remove i).mask i.key := by
      refine mask_congr ?_ ?_ _
      · intro j
        rw [has_remove_eq, has_remove_eq, has_insert_eq]
        show (_ && ((Host.attachSharedTopic s i.key).client.insert i).has j) = _
        rw [has_insert_eq]
        have := attachSharedTopic_holds s i.key (.md j)
        rw [show (Host.attachSharedTopic s i.key).client.has j = s.client.has j from this]
      · rw [((entered i s).client.remove_frame i).2.2.2, ((s.client.insert i).remove_frame i).2.2.2,
          (s.client.insert_frame i).2.2.2]
        show ((Host.attachSharedTopic s i.key).client.insert i).brackets = _
        rw [((Host.attachSharedTopic s i.key).client.insert_frame i).2.2.2]
        exact attachSharedTopic_holds s i.key .brackets
    rw [hmask]
    simp only [List.cons_append, List.nil_append, List.foldl_cons, List.foldl_nil]

/-- Everything that an unsubscribe can do. -/
theorem unsubscribeTopic_cases :
    (s.client.has i = false ∧ (unsubscribeTopic a i s).1 = s) ∨
    (s.client.has i = true ∧ (unsubscribeTopic a i s).2 = .ok () ∧
      SameDelivery (releaseMdIfUnused (s.remove i) i.key) (unsubscribeTopic a i s).1) ∨
    (s.client.has i = true ∧ ∃ e, (unsubscribeTopic a i s).2 = .error e ∧
      SameDelivery ((s.remove i).insert i) (unsubscribeTopic a i s).1) := by
  have hrelease : SameDelivery (releaseMdIfUnused (s.remove i) i.key)
      (releaseMdIfUnused ((s.remove i).forget (.md i)) i.key) := by
    by_cases hw : (s.client.remove i).wantsMd i.key = true
    · simp only [releaseMdIfUnused, Scope.remove, Scope.forget, hw, if_true]
      exact ⟨rfl, rfl⟩
    · simp only [releaseMdIfUnused, Scope.remove, Scope.forget, hw]
      exact ⟨rfl, rfl⟩
  by_cases hhas : s.client.has i = true
  · right
    unfold unsubscribeTopic
    rw [if_neg (by simp [hhas])]
    dsimp only
    split
    · split
      · exact .inl ⟨hhas, rfl, hrelease⟩
      · exact .inr ⟨hhas, _, rfl, rfl, rfl⟩
    · exact .inl ⟨hhas, rfl, hrelease⟩
  · left
    have hno : s.client.has i = false := by simpa using hhas
    refine ⟨hno, ?_⟩
    unfold unsubscribeTopic
    rw [if_pos (by simp [hno])]

theorem view_unsubscribeTopic :
    view (unsubscribeTopic a i s).1 = (unsubscribeCalls a i s).foldl View.call (view s) := by
  unfold unsubscribeCalls
  rcases unsubscribeTopic_cases a i s with ⟨hno, h⟩ | ⟨hhas, hok, h⟩ | ⟨hhas, e, he, h⟩
  · rw [if_pos (by simp [hno]), h]
    rfl
  · rw [if_neg (by simp [hhas]), h.view]
    dsimp only
    rw [hok]
    unfold releaseMdIfUnused
    have hclient : (s.remove i).client = s.client.remove i := rfl
    rw [hclient]
    dsimp only
    split
    · rw [view_remove]
      rfl
    · show (view (s.remove i)).call (.leave i.key) = _
      rw [view_remove]
      rfl
  · rw [if_neg (by simp [hhas]), h.view, view_insert, view_remove]
    dsimp only
    rw [he]
    rfl

end

/-! The interests that a session has stored. -/

/-- A stored interest never exceeds the session's holdings on the topic. -/
def Bounded (c : SessionCtx) : Prop :=
  ∀ k v, c.kinds k = some v → ∀ kind : Kind, v &&& kind.bit ≠ 0 → c.mask k &&& kind.bit ≠ 0

section

variable {c d : SessionCtx}

theorem Bounded.step (h : Bounded c)
    (hkinds : ∀ k, (d.kinds k = c.kinds k ∧ d.mask k = c.mask k) ∨ d.kinds k = none ∨
      d.kinds k = some (d.mask k) ∨ d.kinds k = some 0) : Bounded d := by
  intro k v hv kind hbit
  rcases hkinds k with ⟨hk, hm⟩ | hk | hk | hk
  · rw [hm]
    exact h k v (hk ▸ hv) kind hbit
  · rw [hk] at hv
    cases hv
  · rw [hk] at hv
    cases hv
    exact hbit
  · rw [hk] at hv
    cases hv
    cases kind <;> exact absurd rfl hbit

theorem kinds_syncKinds (c : SessionCtx) (key : SubKey) :
    (c.syncKinds key).kinds key = none ∨ (c.syncKinds key).kinds key = some (c.mask key) := by
  unfold SessionCtx.syncKinds
  split
  · left
    simp
  · right
    simp

/-- A change of the holdings on one topic, with the call of `sync_kinds` after it. -/
theorem Bounded.syncKinds {key : SubKey} (h : Bounded c) (hkinds : d.kinds = c.kinds)
    (hmask : ∀ k ≠ key, d.mask k = c.mask k) : Bounded (d.syncKinds key) := by
  refine h.step fun k => ?_
  rw [(SessionCtx.syncKinds_alike d key).mask]
  by_cases hk : k = key
  · subst hk
    rcases kinds_syncKinds d k with hnone | hsome
    · exact .inr (.inl hnone)
    · exact .inr (.inr (.inl hsome))
  · rw [SessionCtx.kinds_syncKinds_ne hk, hkinds]
    exact .inl ⟨rfl, hmask k hk⟩

theorem Bounded.insert (h : Bounded c) (i : MdIntent) : Bounded (c.insert i) := by
  have hmask : ∀ k ≠ i.key, (c.insert i).mask k = c.mask k :=
    fun k hk => SessionCtx.mask_insert_ne hk
  cases i <;>
  · refine h.syncKinds rfl ?_
    intro k hk
    rw [← hmask k hk, SessionCtx.insert, (SessionCtx.syncKinds_alike _ _).mask]

theorem Bounded.remove (h : Bounded c) (i : MdIntent) : Bounded (c.remove i) := by
  have hmask : ∀ k ≠ i.key, (c.remove i).mask k = c.mask k :=
    fun k hk => SessionCtx.mask_remove_ne hk
  cases i <;>
  · refine h.syncKinds rfl ?_
    intro k hk
    rw [← hmask k hk, SessionCtx.remove, (SessionCtx.syncKinds_alike _ _).mask]

theorem Bounded.setBrackets {s : Scope} (h : Bounded s.client) (b : Bool) :
    Bounded (s.setBrackets b).client := by
  refine h.syncKinds rfl ?_
  intro k hk
  simp [SessionCtx.mask, SessionCtx.hasBars, hk]

theorem Bounded.dropDelivery (h : Bounded c) (key : SubKey) : Bounded (c.dropDelivery key) := by
  refine h.step fun k => ?_
  by_cases hk : k = key
  · subst hk
    right
    left
    exact Function.update_self ..
  · left
    refine ⟨Function.update_of_ne hk .., ?_⟩
    exact mask_congr (fun i => holds_dropDelivery c key (.md i)) rfl k

theorem Bounded.ensureDelivery (h : Bounded c) (hub : Tally SubKey) (key : SubKey) :
    Bounded (c.ensureDelivery hub key) := by
  have hmask : ∀ k, (c.ensureDelivery hub key).mask k = c.mask k :=
    mask_congr (fun i => holds_ensureDelivery c hub key (.md i))
      (holds_ensureDelivery c hub key .brackets)
  have hkinds : ∀ k, (c.ensureDelivery hub key).kinds k = c.kinds k ∨
      (c.ensureDelivery hub key).kinds k = some 0 := by
    intro k
    have hupdate : Function.update c.kinds key (some ((c.kinds key).getD 0)) k = c.kinds k ∨
        Function.update c.kinds key (some ((c.kinds key).getD 0)) k = some 0 := by
      by_cases hk : k = key
      · subst hk
        rw [Function.update_self]
        cases c.kinds k with
        | none => exact .inr rfl
        | some v => exact .inl rfl
      · exact .inl (Function.update_of_ne hk ..)
    unfold SessionCtx.ensureDelivery
    split
    · exact .inl rfl
    · dsimp only
      split <;> exact hupdate
  refine h.step fun k => ?_
  rcases hkinds k with hk | hk
  · exact .inl ⟨hk, hmask k⟩
  · exact .inr (.inr (.inr hk))

theorem Bounded.attachSharedTopic {s : Scope} (h : Bounded s.client) (key : SubKey) :
    Bounded (Host.attachSharedTopic s key).client := by
  unfold Host.attachSharedTopic
  split <;> exact h.ensureDelivery _ _

theorem Bounded.rollbackSharedTopic {s : Scope} (h : Bounded s.client) (key : SubKey) (had : Bool) :
    Bounded (Host.rollbackSharedTopic s key had).client := by
  cases had with
  | true => exact h
  | false => exact h.dropDelivery key

theorem Bounded.subscribeTopic {s : Scope} (h : Bounded s.client) (a : Answers) (i : MdIntent) :
    Bounded (Host.subscribeTopic a i s).1.client := by
  have hentered : Bounded (entered i s).client := (h.attachSharedTopic i.key).insert i
  rcases subscribeTopic_cases a i s with ⟨-, hsame⟩ | ⟨-, -, hsame⟩ | ⟨-, e, -, hsame⟩
  · rw [hsame.client]
    exact h
  · rw [hsame.client]
    exact hentered
  · rw [hsame.client]
    exact Bounded.rollbackSharedTopic (s := (entered i s).remove i) (hentered.remove i) _ _

theorem Bounded.unsubscribeTopic {s : Scope} (h : Bounded s.client) (a : Answers) (i : MdIntent) :
    Bounded (Host.unsubscribeTopic a i s).1.client := by
  rcases unsubscribeTopic_cases a i s with ⟨-, hsame⟩ | ⟨-, -, hsame⟩ | ⟨-, e, -, hsame⟩
  · rw [hsame]
    exact h
  · rw [hsame.client]
    unfold releaseMdIfUnused
    split
    · exact h.remove i
    · exact (h.remove i).dropDelivery i.key
  · rw [hsame.client]
    exact (h.remove i).insert i

end

end RithmicNt.Host.Fanout
