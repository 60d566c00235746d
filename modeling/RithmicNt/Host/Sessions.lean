import RithmicNt.Host.Operations
import RithmicNt.Lib.Machine

/-! The host with its attached sessions: any sequence of their operations, each with any answers of
the venue, keeps the store's counts, the hub's counts and the sessions' holdings in agreement. -/

namespace RithmicNt.Host

open RithmicNt.Lib

structure Hosted where
  state : HostState
  sessions : Dict Nat SessionCtx := .empty

/-- What one session asks for, with the answers it meets. -/
inductive Op
  | subscribe (i : MdIntent) (a : Answers)
  | unsubscribe (i : MdIntent) (a : Answers)
  | subscribePnl (a : Answers)
  | disconnectPnl (a : Answers)
  | subscribeOrders (brackets : Bool) (a : Answers)
  | disconnectOrder (a : Answers)
  | teardown (d : DrainOrder) (a : Answers)

/-- An operation of a session, a session that attaches, or what the pump and the owner of the gates
do between two operations. -/
inductive Event
  | attach (id : Nat)
  | op (id : Nat) (o : Op)
  | setReady (ready : Bool)
  | openTrading
  | degrade (i : MdIntent)
  | heal (i : MdIntent)

def deniedMsg (brackets : Bool) : String :=
  if brackets then "subscribe_bracket_updates denied: parent trading disabled"
  else "subscribe_order_updates denied: parent trading disabled"

/-- The operation behind its `active` check, which a teardown does not make. -/
def Op.reply (o : Op) (s : Scope) : Reply :=
  match s.state.checkReady with
  | .error e => (s, .error e)
  | .ok () =>
    match o with
    | .subscribe i a => subscribeTopic a i s
    | .unsubscribe i a => unsubscribeTopic a i s
    | .subscribePnl a => Host.subscribePnl a s
    | .disconnectPnl a => Host.disconnectPnl a s
    | .subscribeOrders brackets a => subscribeOrderPlantStream a (deniedMsg brackets) brackets s
    | .disconnectOrder a => Host.disconnectOrder a s
    | .teardown _ _ => (s, .ok ())

namespace Hosted

/-- The operation of an attached session; one that is not attached is refused. -/
def run (h : Hosted) (id : Nat) (o : Op) : Option Hosted :=
  match h.sessions.get? id with
  | none => some h
  | some c =>
    match o with
    | .teardown d a =>
      if d.Of c then
        some ⟨Host.teardown a d ⟨h.state, c⟩, h.sessions.filter fun e => e.1 ≠ id⟩
      else none
    | o =>
      let s := (o.reply ⟨h.state, c⟩).1
      some ⟨s.state, h.sessions.set id s.client⟩

def step (h : Hosted) : Event → Option Hosted
  | .attach id => if (h.sessions.get? id).isSome then none
    else some { h with sessions := h.sessions.set id {} }
  | .op id o => h.run id o
  | .setReady ready => some { h with state := { h.state with ready } }
  | .openTrading => some { h with state := { h.state with trading := true } }
  | .degrade i => some { h with state := { h.state with store := h.state.store.markDegraded i } }
  | .heal i => some { h with state := { h.state with store := h.state.store.clearDegraded i } }

/-- The number of attached sessions that hold an intent. -/
def holders (h : Hosted) (i : Intent) : Nat := h.sessions.entries.countP fun e => e.2.holds i

/-- The number of attached sessions on a topic. -/
def subscribers (h : Hosted) (k : SubKey) : Nat :=
  h.sessions.entries.countP fun e => k ∈ e.2.subscribed

/-- The counts of the store and of the hub are those of the sessions, each session is on the topics
that carry its intents, and a degraded intent is held. -/
structure Consistent (h : Hosted) : Prop where
  counts : ∀ i, h.state.store.count i = h.holders i
  interest : ∀ k, h.state.hub.count k = h.subscribers k
  topics : ∀ id c, h.sessions.get? id = some c → ∀ k, k ∈ c.subscribed ↔ c.Carries k
  orderTopic : ∀ id c, h.sessions.get? id = some c → (orderKey ∈ c.subscribed ↔ c.order = true)
  pnlTopic : ∀ id c, h.sessions.get? id = some c → (pnlKey ∈ c.subscribed ↔ c.pnl = true)
  brackets : ∀ id c, h.sessions.get? id = some c → c.brackets = true → c.order = true
  degraded : ∀ i ∈ h.state.store.degraded, ∃ id c, h.sessions.get? id = some c ∧ c.has i = true

end Hosted

def machine : Machine Hosted Event where
  Start h := ∃ state : HostState, state.store = {} ∧ state.hub = .empty ∧ h = { state }
  step := Hosted.step

def reservedSymbols : List String := ["__pnl__", "__order__", "__gap__", "__other__"]

/-- The event is not a subscribe of a reserved symbol. -/
def OnSymbols (_ : Hosted) : Event → Prop
  | .op _ (.subscribe i _) => i.key.symbol ∉ reservedSymbols
  | _ => True

/-- The event is not the disconnect of the last brackets holder, beside other order holders, whose
re-seat the venue refuses. -/
def ReseatAnswered (h : Hosted) : Event → Prop
  | .op id (.disconnectOrder a) => ∀ c, h.sessions.get? id = some c → ¬ FailedReseat a ⟨h.state, c⟩
  | _ => True

namespace Hosted

structure Invariant (h : Hosted) : Prop where
  counts : ∀ i, h.state.store.count i = h.holders i
  interest : ∀ k, h.state.hub.count k = h.subscribers k
  marked : h.state.store.Marked
  sound : ∀ id c, h.sessions.get? id = some c → c.Sound

variable {h : Hosted} {id : Nat} {c : SessionCtx}

theorem toNat_eq_ite (b : Bool) : b.toNat = if b then 1 else 0 := by
  cases b <;> rfl

theorem holders_set (hc : h.sessions.get? id = some c) (s : Scope) (i : Intent) :
    (Hosted.mk s.state (h.sessions.set id s.client)).holders i + (c.holds i).toNat =
      h.holders i + (s.client.holds i).toNat := by
  have := Dict.countP_set hc s.client (fun e => e.2.holds i)
  simpa [holders, toNat_eq_ite] using this

theorem subscribers_set (hc : h.sessions.get? id = some c) (s : Scope) (k : SubKey) :
    (Hosted.mk s.state (h.sessions.set id s.client)).subscribers k +
        (if k ∈ c.subscribed then 1 else 0) =
      h.subscribers k + if k ∈ s.client.subscribed then 1 else 0 := by
  have := Dict.countP_set hc s.client (fun e => k ∈ e.2.subscribed)
  simpa [subscribers] using this

theorem holders_erase (hc : h.sessions.get? id = some c) (state : HostState) (i : Intent) :
    (Hosted.mk state (h.sessions.filter fun e => e.1 ≠ id)).holders i + (c.holds i).toNat =
      h.holders i := by
  have := Dict.countP_filter_ne hc (fun e => e.2.holds i)
  simpa [holders, toNat_eq_ite] using this

theorem subscribers_erase (hc : h.sessions.get? id = some c) (state : HostState) (k : SubKey) :
    (Hosted.mk state (h.sessions.filter fun e => e.1 ≠ id)).subscribers k +
        (if k ∈ c.subscribed then 1 else 0) = h.subscribers k := by
  have := Dict.countP_filter_ne hc (fun e => k ∈ e.2.subscribed)
  simpa [subscribers] using this

/-- A session's operation sees the holdings of the others in the counts. -/
theorem Invariant.balanced (hi : h.Invariant) (hc : h.sessions.get? id = some c) :
    Good (fun i => h.holders i - (c.holds i).toNat)
      (fun k => h.subscribers k - if k ∈ c.subscribed then 1 else 0) ⟨h.state, c⟩ := by
  refine ⟨⟨?_, ?_, hi.marked⟩, hi.sound id c hc⟩
  · intro i
    have := holders_erase hc h.state i
    rw [hi.counts i]
    show _ = h.holders i - (c.holds i).toNat + (c.holds i).toNat
    omega
  · intro k
    have := subscribers_erase hc h.state k
    rw [hi.interest k]
    show _ = h.subscribers k - (if k ∈ c.subscribed then 1 else 0) +
      if k ∈ c.subscribed then 1 else 0
    omega

theorem Invariant.of_good {s : Scope} (hi : h.Invariant) (hc : h.sessions.get? id = some c)
    (hg : Good (fun i => h.holders i - (c.holds i).toNat)
      (fun k => h.subscribers k - if k ∈ c.subscribed then 1 else 0) s) :
    (Hosted.mk s.state (h.sessions.set id s.client)).Invariant := by
  refine ⟨?_, ?_, hg.balanced.marked, ?_⟩
  · intro i
    have hset := holders_set hc s i
    have herase := holders_erase hc h.state i
    have hcount := hg.balanced.counts i
    dsimp only at hcount ⊢
    omega
  · intro k
    have hset := subscribers_set hc s k
    have herase := subscribers_erase hc h.state k
    have hcount := hg.balanced.interest k
    dsimp only at hcount ⊢
    omega
  · intro id' c' hc'
    rw [Dict.get?_set] at hc'
    split at hc'
    · cases hc'
      exact hg.sound
    · exact hi.sound id' c' hc'

theorem Invariant.teardown {d : DrainOrder} (hi : h.Invariant) (hc : h.sessions.get? id = some c)
    (hd : d.Of c) (a : Answers) :
    (Hosted.mk (Host.teardown a d ⟨h.state, c⟩)
      (h.sessions.filter fun e => e.1 ≠ id)).Invariant := by
  obtain ⟨hcounts, hinterest, hmarked⟩ :=
    teardown_balanced (s := ⟨h.state, c⟩) a (hi.balanced hc).balanced hd
  refine ⟨?_, ?_, hmarked, ?_⟩
  · intro i
    have herase := holders_erase hc (Host.teardown a d ⟨h.state, c⟩) i
    have hcount := hcounts i
    dsimp only at hcount ⊢
    omega
  · intro k
    have herase := subscribers_erase hc (Host.teardown a d ⟨h.state, c⟩) k
    have hcount := hinterest k
    dsimp only at hcount ⊢
    omega
  · intro id' c' hc'
    exact hi.sound id' c' (Dict.get?_filter.mp hc').1

theorem Invariant.attach (hi : h.Invariant) (hc : h.sessions.get? id = none) :
    ({ h with sessions := h.sessions.set id {} } : Hosted).Invariant := by
  have hempty : ∀ i, ({} : SessionCtx).holds i = false := by
    intro i
    rcases i with (_ | _ | _) | _ | _ | _ <;> rfl
  refine ⟨?_, ?_, hi.marked, ?_⟩
  · intro i
    show h.state.store.count i = (h.sessions.set id {}).entries.countP fun e => e.2.holds i
    rw [Dict.countP_set_new hc, hi.counts i]
    simp [holders, hempty i]
  · intro k
    show h.state.hub.count k = (h.sessions.set id {}).entries.countP fun e => k ∈ e.2.subscribed
    rw [Dict.countP_set_new hc, hi.interest k]
    simp [subscribers]
  · intro id' c' hc'
    rw [Dict.get?_set] at hc'
    split at hc'
    · cases hc'
      refine ⟨?_, ?_, ?_, ?_⟩
      · intro k
        simp [SessionCtx.Carries, show ∀ i : MdIntent, ({} : SessionCtx).has i = false from
          fun i => hempty (.md i)]
      · rintro ⟨⟩
      · intro i hi
        rw [show ({} : SessionCtx).has i = false from hempty (.md i)] at hi
        cases hi
      · intro k
        rfl
    · exact hi.sound id' c' hc'

theorem plain_of_symbol {i : MdIntent} (h : i.key.symbol ∉ reservedSymbols) :
    i.key ≠ orderKey ∧ i.key ≠ pnlKey := by
  constructor <;>
  · intro hkey
    rw [hkey] at h
    exact h (by decide)

theorem Invariant.reply {o : Op} (hi : h.Invariant) (hc : h.sessions.get? id = some c)
    (hsymbols : OnSymbols h (.op id o)) (hseat : ReseatAnswered h (.op id o)) :
    (Hosted.mk (o.reply ⟨h.state, c⟩).1.state
      (h.sessions.set id (o.reply ⟨h.state, c⟩).1.client)).Invariant := by
  refine hi.of_good hc ?_
  have hg := hi.balanced hc
  unfold Op.reply
  split
  · exact hg
  · split
    · exact subscribeTopic_good _ hg (plain_of_symbol hsymbols)
    · exact unsubscribeTopic_good _ hg
    · exact subscribePnl_good _ hg
    · exact disconnectPnl_good _ hg
    · exact subscribeOrderPlantStream_good _ _ _ hg
    · exact disconnectOrder_good _ hg (hseat c hc)
    · exact hg

theorem Invariant.of_store {state : HostState} (hi : h.Invariant)
    (hcounts : ∀ i, state.store.count i = h.state.store.count i) (hmarked : state.store.Marked)
    (hhub : state.hub = h.state.hub) : ({ h with state } : Hosted).Invariant :=
  ⟨fun i => (hcounts i).trans (hi.counts i), fun k => by rw [hhub]; exact hi.interest k, hmarked,
    hi.sound⟩

theorem step_invariant {e : Event} {h' : Hosted} (hi : h.Invariant) (hsymbols : OnSymbols h e)
    (hseat : ReseatAnswered h e) (hstep : h.step e = some h') : h'.Invariant := by
  cases e with
  | attach id =>
    simp only [step] at hstep
    split at hstep
    · cases hstep
    · next hnone =>
      cases hstep
      exact hi.attach (by simpa using hnone)
  | op id o =>
    simp only [step, run] at hstep
    split at hstep
    · cases hstep
      exact hi
    · next c hc =>
      split at hstep
      · next d a =>
        split at hstep
        · next hd =>
          cases hstep
          exact hi.teardown hc hd a
        · cases hstep
      · cases hstep
        exact hi.reply hc hsymbols hseat
  | setReady ready =>
    cases hstep
    exact hi.of_store (fun _ => rfl) hi.marked rfl
  | openTrading =>
    cases hstep
    exact hi.of_store (fun _ => rfl) hi.marked rfl
  | degrade i =>
    cases hstep
    exact hi.of_store (fun j => h.state.store.count_markDegraded i j) (hi.marked.markDegraded i) rfl
  | heal i =>
    cases hstep
    exact hi.of_store (fun j => h.state.store.count_clearDegraded i j) (hi.marked.clearDegraded i) rfl

theorem start_invariant (hs : machine.Start h) : h.Invariant := by
  obtain ⟨state, hstore, hhub, rfl⟩ := hs
  refine ⟨?_, ?_, ?_, ?_⟩
  · intro i
    rw [hstore]
    rcases i with (_ | _ | _) | _ | _ | _ <;> rfl
  · intro k
    rw [hhub]
    rfl
  · intro i hi
    rw [hstore] at hi
    cases hi
  · rintro id c ⟨⟩

theorem Invariant.consistent (hi : h.Invariant) : h.Consistent := by
  refine ⟨hi.counts, hi.interest, fun id c hc => (hi.sound id c hc).topics, ?_, ?_,
    fun id c hc => (hi.sound id c hc).brackets, ?_⟩
  · intro id c hc
    have hs := hi.sound id c hc
    rw [hs.topics orderKey]
    constructor
    · rintro (⟨i, hi, hkey⟩ | ⟨ho, -⟩ | ⟨-, hkey⟩)
      · exact absurd hkey (hs.plain i hi).1
      · exact ho
      · exact absurd hkey (by decide)
    · exact fun ho => .inr (.inl ⟨ho, rfl⟩)
  · intro id c hc
    have hs := hi.sound id c hc
    rw [hs.topics pnlKey]
    constructor
    · rintro (⟨i, hi, hkey⟩ | ⟨-, hkey⟩ | ⟨hp, -⟩)
      · exact absurd hkey (hs.plain i hi).2
      · exact absurd hkey (by decide)
      · exact hp
    · exact fun hp => .inr (.inr ⟨hp, rfl⟩)
  · intro i hmark
    have hpos := hi.marked i hmark
    rw [hi.counts] at hpos
    obtain ⟨⟨id, c⟩, hmem, hhas⟩ := List.countP_pos_iff.mp hpos
    exact ⟨id, c, Dict.mem_entries_iff.mp hmem, hhas⟩

end Hosted

/-- In every run whose re-seats are answered, on symbols of the market, the store and the hub count
the holdings of the sessions. -/
theorem consistent_of_run {trace : List Event} {h : Hosted}
    (hr : machine.Run (fun h e => OnSymbols h e ∧ ReseatAnswered h e) trace h) : h.Consistent :=
  (hr.invariant (fun _ => Hosted.start_invariant) fun _ _ _ hi hok hstep =>
    Hosted.step_invariant hi hok.1 hok.2 hstep).consistent

instance (h : Hosted) : DecidablePred (OnSymbols h)
  | .op _ (.subscribe i _) => inferInstanceAs (Decidable (i.key.symbol ∉ reservedSymbols))
  | .op _ (.unsubscribe ..) | .op _ (.subscribePnl ..) | .op _ (.disconnectPnl ..)
  | .op _ (.subscribeOrders ..) | .op _ (.disconnectOrder ..) | .op _ (.teardown ..) | .attach _
  | .setReady _ | .openTrading | .degrade _ | .heal _ => isTrue trivial

instance (h : Hosted) : DecidablePred (ReseatAnswered h)
  | .op id (.disconnectOrder a) =>
    match hc : h.sessions.get? id with
    | none => isTrue fun c hs => by simp [hc] at hs
    | some c => decidable_of_iff (¬ FailedReseat a ⟨h.state, c⟩)
        ⟨fun hn c' hs => by cases hc.symm.trans hs; exact hn, fun hall => hall c hc⟩
  | .op _ (.subscribe ..) | .op _ (.unsubscribe ..) | .op _ (.subscribePnl ..)
  | .op _ (.disconnectPnl ..) | .op _ (.subscribeOrders ..) | .op _ (.teardown ..) | .attach _
  | .setReady _ | .openTrading | .degrade _ | .heal _ => isTrue trivial

def connected : Hosted := { state := {} }

theorem connected_start : machine.Start connected := ⟨{}, rfl, rfl, rfl⟩

def nq : SubKey := ⟨"NQZ6", "CME"⟩

/-- Two sessions hold the order stream, the first of them alone with brackets. -/
def orderPeers : List Event :=
  [.attach 1, .attach 2, .op 1 (.subscribe (.ticker nq) {}), .op 1 (.subscribeOrders true {}),
    .op 2 (.subscribeOrders false {})]

theorem consistent_after_reseat : ∃ h,
    machine.Run (fun h e => OnSymbols h e ∧ ReseatAnswered h e)
      (orderPeers ++ [Event.op 1 (.disconnectOrder {}),
        .op 1 (.teardown { ticker := [nq], subscribed := [nq] } {})]) h ∧
      h.state.store.order = 1 ∧ h.state.store.brackets = 0 ∧ h.Consistent := by
  have hexec : ∃ h, machine.exec (fun h e => OnSymbols h e ∧ ReseatAnswered h e) connected
      (orderPeers ++ [Event.op 1 (.disconnectOrder {}),
        .op 1 (.teardown { ticker := [nq], subscribed := [nq] } {})]) = some h ∧
      h.state.store.order = 1 ∧ h.state.store.brackets = 0 := ⟨_, rfl, rfl, rfl⟩
  obtain ⟨h, hexec, horder, hbrackets⟩ := hexec
  have hr := Machine.run_of_exec connected_start hexec
  exact ⟨h, hr, horder, hbrackets, consistent_of_run hr⟩

/-- The first session leaves, and the venue refuses the order-only subscription: the session holds
no order stream and stays on the order topic. -/
theorem order_topic_kept_without_order :
    ¬ ∀ (trace : List Event) (h : Hosted), machine.Run OnSymbols trace h → h.Consistent := by
  intro hall
  have hexec : ∃ h c, machine.exec OnSymbols connected
      (orderPeers ++ [Event.op 1 (.disconnectOrder
        { subscribeOrderUpdates := .error (.other "rithmic error: order plant") })]) = some h ∧
      h.sessions.get? 1 = some c ∧ orderKey ∈ c.subscribed ∧ c.order = false :=
    ⟨_, _, rfl, rfl, by decide, rfl⟩
  obtain ⟨h, c, hexec, hc, hmem, horder⟩ := hexec
  have hcons := hall _ h (Machine.run_of_exec connected_start hexec)
  have := (hcons.orderTopic 1 c hc).mp hmem
  rw [horder] at this
  cases this

/-! A failed unsubscribe. -/

/-- An operation left the counts, the degraded marks, the session and the hub as they were. -/
structure Unchanged (s t : Scope) : Prop where
  counts : ∀ j, t.state.store.count j = s.state.store.count j
  degraded : t.state.store.degraded = s.state.store.degraded
  client : t.client = s.client
  hub : t.state.hub = s.state.hub

theorem SessionCtx.insert_remove_alike {c : SessionCtx} {i : MdIntent} (h : c.has i = true) :
    Alike ((c.remove i).insert i) c := by
  cases i with
  | ticker key =>
    have hmem : key ∈ c.ticker := by simpa [has] using h
    refine (syncKinds_alike _ _).trans ?_
    have hr := syncKinds_alike { c with ticker := c.ticker.erase key } key
    exact ⟨hr.subscribed, by
      show Insert.insert key (SessionCtx.remove c (.ticker key)).ticker = c.ticker
      rw [show (SessionCtx.remove c (.ticker key)).ticker = c.ticker.erase key from hr.ticker,
        Finset.insert_erase hmem], hr.book, hr.timeBars, hr.pnl, hr.order, hr.brackets⟩
  | book key =>
    have hmem : key ∈ c.book := by simpa [has] using h
    refine (syncKinds_alike _ _).trans ?_
    have hr := syncKinds_alike { c with book := c.book.erase key } key
    exact ⟨hr.subscribed, hr.ticker, by
      show Insert.insert key (SessionCtx.remove c (.book key)).book = c.book
      rw [show (SessionCtx.remove c (.book key)).book = c.book.erase key from hr.book,
        Finset.insert_erase hmem], hr.timeBars, hr.pnl, hr.order, hr.brackets⟩
  | timeBars t =>
    have hmem : t ∈ c.timeBars := by simpa [has] using h
    refine (syncKinds_alike _ _).trans ?_
    have hr := syncKinds_alike { c with timeBars := c.timeBars.erase t } (MdIntent.timeBars t).key
    exact ⟨hr.subscribed, hr.ticker, hr.book, by
      show Insert.insert t (SessionCtx.remove c (.timeBars t)).timeBars = c.timeBars
      rw [show (SessionCtx.remove c (.timeBars t)).timeBars = c.timeBars.erase t from hr.timeBars,
        Finset.insert_erase hmem], hr.pnl, hr.order, hr.brackets⟩

theorem SessionCtx.Alike.eq {c d : SessionCtx} (h : Alike c d) (hkinds : c.kinds = d.kinds)
    (htopics : c.topics = d.topics) : c = d := by
  obtain ⟨h1, h2, h3, h4, h5, h6, h7⟩ := h
  cases c
  cases d
  simp_all

theorem SessionCtx.topics_insert_remove (c : SessionCtx) (i : MdIntent) :
    ((c.remove i).insert i).topics = c.topics := by
  have hsync : ∀ (d : SessionCtx) key, (d.syncKinds key).topics = d.topics := by
    intro d key
    unfold SessionCtx.syncKinds
    split <;> rfl
  cases i <;> simp [SessionCtx.remove, SessionCtx.insert, hsync]

/-- The one way `unsubscribe_topic` fails: the last holder's leave. -/
theorem unsubscribeTopic_failed {a : Answers} {i : MdIntent} {s t : Scope} {e : Error}
    (h : unsubscribeTopic a i s = (t, .error e)) :
    s.client.has i = true ∧ s.state.store.count (.md i) = 1 ∧ s.state.session = true ∧
      (∃ e', a.leave = .error e') ∧
      t = (((s.remove i).forget (.md i)).note (.md i)).insert i := by
  unfold unsubscribeTopic at h
  split at h
  · cases h
  · next hhas =>
    dsimp only at h
    split at h
    · next hlast =>
      obtain ⟨hlast, hsession⟩ := Bool.and_eq_true_iff.mp hlast
      have hone := s.state.store.forgetMd_last i
      rw [show (s.state.store.forgetMd i).2 = true from hlast] at hone
      split at h
      · cases h
      · next e' hleave =>
        obtain ⟨rfl, -⟩ := Prod.mk.inj h
        exact ⟨by simpa using hhas, of_decide_eq_true hone.symm, hsession, ⟨e', hleave⟩, rfl⟩
    · cases h

/-- A failed unsubscribe changes nothing exactly where the intent was not degraded, and the kind
mask of its topic was that of the session's holdings, as it is in every reachable state. -/
theorem unsubscribe_failed_unchanged_iff {a : Answers} {i : MdIntent} {s t : Scope} {e : Error}
    (h : unsubscribeTopic a i s = (t, .error e)) :
    Unchanged s t ↔ s.state.store.isDegraded i = false ∧
      s.client.kinds i.key = some (s.client.mask i.key) := by
  obtain ⟨hhas, hone, -, -, rfl⟩ := unsubscribeTopic_failed h
  have halike := SessionCtx.insert_remove_alike hhas
  have hdegraded : ((((s.remove i).forget (.md i)).note (.md i)).insert i).state.store.degraded =
      s.state.store.degraded.erase i := by
    show ((s.state.store.forgetMd i).1.noteMd i).1.degraded = _
    rw [IntentStore.degraded_noteMd, IntentStore.degraded_forgetMd, if_pos hone]
  have hself : ((s.client.remove i).insert i).kinds i.key = some (s.client.mask i.key) := by
    rw [SessionCtx.kinds_insert_self, halike.mask]
  constructor
  · intro hu
    constructor
    · have := hu.degraded
      rw [hdegraded] at this
      simpa [IntentStore.isDegraded] using Finset.erase_eq_self.mp this
    · have hclient : (s.client.remove i).insert i = s.client := hu.client
      rw [← hself, hclient]
  · rintro ⟨hnot, hkinds⟩
    refine ⟨?_, ?_, ?_, rfl⟩
    · intro j
      show ((s.state.store.forget (.md i)).1.note (.md i)).1.count j = _
      rw [IntentStore.count_note, IntentStore.count_forget]
      by_cases hj : j = .md i
      · subst hj
        simp [hone]
      · simp [hj]
    · rw [hdegraded, Finset.erase_eq_self]
      simpa [IntentStore.isDegraded] using hnot
    · refine halike.eq ?_ (s.client.topics_insert_remove i)
      funext k
      by_cases hk : k = i.key
      · subst hk
        rw [hself, hkinds]
      · rw [SessionCtx.kinds_insert_ne hk, SessionCtx.kinds_remove_ne hk]

/-- One session holds the ticker alone, and the venue does not leave it. -/
theorem unsubscribe_failed_unchanged : ∃ h c,
    machine.Run OnSymbols [.attach 1, .op 1 (.subscribe (.ticker nq) {})] h ∧
      h.sessions.get? 1 = some c ∧
      Unchanged ⟨h.state, c⟩
        (unsubscribeTopic { leave := .error (.other "rithmic error: leave") } (.ticker nq)
          ⟨h.state, c⟩).1 := by
  have hexec : ∃ h c, machine.exec OnSymbols connected
      [.attach 1, .op 1 (.subscribe (.ticker nq) {})] = some h ∧ h.sessions.get? 1 = some c ∧
      (unsubscribeTopic { leave := .error (.other "rithmic error: leave") } (.ticker nq)
        ⟨h.state, c⟩).2 = .error (.gateway "unsubscribe_failed" "rithmic error: leave") ∧
      h.state.store.isDegraded (.ticker nq) = false ∧ c.kinds nq = some (c.mask nq) :=
    ⟨_, _, rfl, rfl, rfl, rfl, rfl⟩
  obtain ⟨h, c, hexec, hc, hfailed, hmark, hkinds⟩ := hexec
  refine ⟨h, c, Machine.run_of_exec connected_start hexec, hc, ?_⟩
  exact (unsubscribe_failed_unchanged_iff (Prod.ext rfl hfailed)).mpr ⟨hmark, hkinds⟩

/-- A restore has left the ticker degraded; the failed leave takes the mark away. -/
theorem unsubscribe_failed_loses_degraded_mark :
    ¬ ∀ (trace : List Event) (h : Hosted), machine.Run OnSymbols trace h →
      ∀ (id : Nat) (c : SessionCtx) (a : Answers) (i : MdIntent) (t : Scope) (e : Error),
        h.sessions.get? id = some c → unsubscribeTopic a i ⟨h.state, c⟩ = (t, .error e) →
        Unchanged ⟨h.state, c⟩ t := by
  intro hall
  have hexec : ∃ h c, machine.exec OnSymbols connected
      [.attach 1, .op 1 (.subscribe (.ticker nq) {}), .degrade (.ticker nq)] = some h ∧
      h.sessions.get? 1 = some c ∧
      (unsubscribeTopic { leave := .error (.other "rithmic error: leave") } (.ticker nq)
        ⟨h.state, c⟩).2 = .error (.gateway "unsubscribe_failed" "rithmic error: leave") ∧
      (.ticker nq) ∈ h.state.store.degraded ∧
      (.ticker nq) ∉ (unsubscribeTopic { leave := .error (.other "rithmic error: leave") }
        (.ticker nq) ⟨h.state, c⟩).1.state.store.degraded :=
    ⟨_, _, rfl, rfl, rfl, by decide, by decide⟩
  obtain ⟨h, c, hexec, hc, hfailed, hmark, hgone⟩ := hexec
  have hsame := hall _ h (Machine.run_of_exec connected_start hexec) 1 c _ _ _ _ hc
    (Prod.ext rfl hfailed)
  exact hgone (hsame.degraded ▸ hmark)

end RithmicNt.Host
