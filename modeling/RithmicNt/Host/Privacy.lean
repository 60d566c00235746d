import RithmicNt.Host.Routing

/-! The account streams are routed through the topics of two reserved keys: a session without the intent
receives nothing of them, in every run in which no market-data subscribe on a reserved key and no
refused re-seat leaves a session on such a topic. -/

namespace RithmicNt.Host.Fanout

open RithmicNt.Lib

/-- The session is on an account topic only where it holds the intent of the stream. -/
structure Private (c : SessionCtx) : Prop where
  order : orderKey ∈ c.subscribed → c.order = true
  pnl : pnlKey ∈ c.subscribed → c.pnl = true

/-- The host is not ready, or it asks the venue for the join and is refused. -/
def joinRefused (a : Answers) (i : MdIntent) (s : Scope) : Bool :=
  let first := decide (s.state.store.count (.md i) = 0)
  !s.state.ready || (first || s.state.store.isDegraded i || isBook i) &&
    (!s.state.session || !a.ready ||
      !(if !first && isBook i then a.refreshBook else a.join).toBool)

/-- A market-data subscribe on an account topic is refused, or it is that of a session that has it
already or holds the intent of the stream. -/
def OwnTopics (h : Hosted) : Event → Prop
  | .op id (.subscribe i a) => ∀ c, h.sessions.get? id = some c →
      (i.key = orderKey → c.order || c.has i || joinRefused a i ⟨h.state, c⟩) ∧
      (i.key = pnlKey → c.pnl || c.has i || joinRefused a i ⟨h.state, c⟩)
  | _ => True

section

variable {s : Scope}

theorem joinNoted_refused {a : Answers} {i : MdIntent} {isFirst had : Bool}
    (hasked : (isFirst || s.state.store.isDegraded i || isBook i) = true)
    (hrefused : (!s.state.session || !a.ready ||
      !(if !isFirst && isBook i then a.refreshBook else a.join).toBool) = true) :
    ∃ e, (joinNoted a i s isFirst had).2 = .error e := by
  unfold joinNoted
  dsimp only
  rw [if_pos (by revert hasked; cases isFirst <;> simp)]
  split
  · exact ⟨_, rfl⟩
  · next hsession =>
    have hsession : (!s.state.session) = false := by simpa using hsession
    rw [hsession, Bool.false_or] at hrefused
    cases hready : a.ready with
    | false =>
      have hnot : (s.lockVenue a).state.checkReady =
          .error (.notSent "gateway not ready (plants reconnecting); request not sent") := by
        simp [Scope.lockVenue, HostState.checkReady, hready]
      rw [hnot]
      exact ⟨_, rfl⟩
    | true =>
      rw [(checkReady_lockVenue a s).mpr hready]
      rw [hready] at hrefused
      dsimp only
      generalize (if (!isFirst && isBook i) = true then a.refreshBook else a.join) = answer
        at hrefused ⊢
      cases answer with
      | ok u => cases hrefused
      | error e => exact ⟨_, rfl⟩

theorem subscribeTopic_refused {a : Answers} {i : MdIntent} (hready : s.state.ready = true)
    (hno : s.client.has i = false) (hrefused : joinRefused a i s = true) :
    ∃ e, (subscribeTopic a i s).2 = .error e := by
  unfold subscribeTopic
  rw [if_neg (by simp [hno])]
  dsimp only
  have hfirst : ((Host.attachSharedTopic s i.key).state.store.note (.md i)).2 =
      decide (s.state.store.count (.md i) = 0) := by
    rw [attachSharedTopic_store]
    exact s.state.store.noteMd_first i
  unfold joinRefused at hrefused
  rw [hready] at hrefused
  simp only [Bool.not_true, Bool.false_or] at hrefused
  obtain ⟨hasked, hrefused⟩ := Bool.and_eq_true_iff.mp hrefused
  rw [hfirst]
  apply joinNoted_refused
  · have hdegraded : ((((Host.attachSharedTopic s i.key).note (.md i)).insert i).state.store).isDegraded
        i = s.state.store.isDegraded i := by
      show decide (i ∈ ((Host.attachSharedTopic s i.key).state.store.noteMd i).1.degraded) = _
      rw [IntentStore.degraded_noteMd, attachSharedTopic_store]
      rfl
    rw [hdegraded]
    exact hasked
  · have hsession : ((((Host.attachSharedTopic s i.key).note (.md i)).insert i).state).session =
        s.state.session := by
      show (Host.attachSharedTopic s i.key).state.session = _
      unfold Host.attachSharedTopic
      split <;> rfl
    rw [hsession]
    exact hrefused

/-- The topics of a session after a subscribe. -/
theorem subscribed_subscribeTopic (a : Answers) (i : MdIntent) :
    (subscribeTopic a i s).1.client.subscribed = s.client.subscribed ∨
      s.client.has i = false ∧ (subscribeTopic a i s).2 = .ok () ∧
        (subscribeTopic a i s).1.client.subscribed = insert i.key s.client.subscribed := by
  rcases subscribeTopic_cases a i s with ⟨-, h⟩ | ⟨hno, hok, h⟩ | ⟨-, e, -, h⟩
  · left
    rw [h.client]
  · right
    refine ⟨hno, hok, ?_⟩
    rw [h.client, subscribed_entered]
  · left
    rw [h.client]
    have hremoved : ((entered i s).client.remove i).subscribed = insert i.key s.client.subscribed := by
      rw [(SessionCtx.remove_frame _ i).1, subscribed_entered]
    by_cases hmem : i.key ∈ s.client.subscribed
    · rw [decide_eq_true hmem]
      show ((entered i s).client.remove i).subscribed = _
      rw [hremoved, Finset.insert_eq_of_mem hmem]
    · rw [decide_eq_false hmem]
      show ((entered i s).client.remove i).subscribed.erase i.key = _
      rw [hremoved, Finset.erase_insert hmem]

theorem subscribed_unsubscribeTopic (a : Answers) (i : MdIntent) :
    (unsubscribeTopic a i s).1.client.subscribed ⊆ s.client.subscribed := by
  rcases unsubscribeTopic_cases a i s with ⟨-, h⟩ | ⟨-, -, h⟩ | ⟨-, e, -, h⟩
  · rw [h]
  · rw [h.client]
    unfold releaseMdIfUnused
    split
    · exact (s.client.remove_frame i).1.subset
    · exact (Finset.erase_subset ..).trans (s.client.remove_frame i).1.subset
  · rw [h.client]
    show ((s.client.remove i).insert i).subscribed ⊆ _
    rw [(SessionCtx.insert_frame _ i).1, (s.client.remove_frame i).1]

/-- The topic is that of a stream that the session holds, after a subscribe that may put it there. -/
theorem topic_of_subscribeTopic {a : Answers} {i : MdIntent} {key : SubKey} {held : Bool}
    (hready : s.state.ready = true) (h : key ∈ s.client.subscribed → held = true)
    (hok : i.key = key → (held || s.client.has i || joinRefused a i s) = true)
    (hmem : key ∈ (subscribeTopic a i s).1.client.subscribed) : held = true := by
  rcases subscribed_subscribeTopic a i with hsub | ⟨hno, hjoined, hsub⟩
  · exact h (hsub ▸ hmem)
  · rw [hsub] at hmem
    rcases Finset.mem_insert.mp hmem with rfl | hmem
    · have hallowed := hok rfl
      rw [hno, Bool.or_false] at hallowed
      rcases Bool.or_eq_true_iff.mp hallowed with hheld | hrefused
      · exact hheld
      · obtain ⟨e, he⟩ := subscribeTopic_refused hready hno hrefused
        rw [hjoined] at he
        cases he
    · exact h hmem

/-- A release takes the session off the topic. -/
theorem notMem_release (c : SessionCtx) (key : SubKey) {v : View}
    (h : v.subscribed = c.subscribed) :
    key ∉ ((releaseTopicCalls c key).foldl View.call v).subscribed := by
  unfold releaseTopicCalls
  split
  · show key ∉ v.subscribed.erase key
    simp
  · next hmem =>
    show key ∉ v.subscribed
    rwa [h]

/-- A join that is rolled back takes the session off a topic that it was not on. -/
theorem notMem_rollback {key : SubKey} (l : List Call) (v : View)
    (hoff : key ∉ v.subscribed) :
    key ∉ ((.attach key :: (l ++ rollbackCalls key (key ∈ v.subscribed))).foldl View.call
      v).subscribed := by
  rw [decide_eq_false hoff, List.foldl_cons, List.foldl_append]
  show key ∉ Finset.erase _ key
  simp

theorem Private.of_ends {order brackets pnl : Bool} {t : Scope} {l : List Call}
    (hends : Ends order brackets pnl s t l)
    (horder : orderKey ∈ (l.foldl View.call (view s)).subscribed → order = true)
    (hpnl : pnlKey ∈ (l.foldl View.call (view s)).subscribed → pnl = true) : Private t.client := by
  rw [← hends.view] at horder hpnl
  exact ⟨fun hmem => hends.order_eq.trans (horder hmem), fun hmem => hends.pnl_eq.trans (hpnl hmem)⟩

theorem Private.subscribePnl (h : Private s.client) (a : Answers) :
    Private (Host.subscribePnl a s).1.client := by
  obtain ⟨pnl, hends, hl⟩ := subscribePnl_ends a s
  have hframe := View.calls_frame (k := orderKey) (l := subscribePnlCalls a s)
    (fun x hx => key_of_mem_subscribePnlCalls hx ▸ by decide) (view s)
  refine Private.of_ends hends (fun hmem => h.order (hframe.1.mp hmem)) ?_
  intro hmem
  rcases hl with ⟨hl, rfl⟩ | ⟨-, rfl⟩ | ⟨hl, hno, -⟩
  · rw [hl] at hmem
    exact h.pnl hmem
  · rfl
  · have hoff : pnlKey ∉ (view s).subscribed := by
      intro hon
      rw [h.pnl hon] at hno
      cases hno
    rw [hl] at hmem
    exact absurd hmem (notMem_rollback [] (view s) hoff)

theorem Private.disconnectPnl (h : Private s.client) (a : Answers) :
    Private (Host.disconnectPnl a s).1.client := by
  obtain ⟨pnl, hends, hl⟩ := disconnectPnl_ends a s
  have hframe := View.calls_frame (k := orderKey) (l := disconnectPnlCalls a s)
    (fun x hx => key_of_mem_disconnectPnlCalls hx ▸ by decide) (view s)
  refine Private.of_ends hends (fun hmem => h.order (hframe.1.mp hmem)) ?_
  intro hmem
  rcases hl with ⟨hl, rfl⟩ | ⟨hl, -⟩
  · rw [hl] at hmem
    exact h.pnl hmem
  · rw [hl] at hmem
    exact absurd hmem (notMem_release s.client pnlKey rfl)

theorem Private.subscribeOrders (h : Private s.client) (a : Answers) (deniedMsg : String)
    (wantBrackets : Bool) :
    Private (subscribeOrderPlantStream a deniedMsg wantBrackets s).1.client := by
  obtain ⟨order, brackets, hends, hl⟩ := subscribeOrders_ends a deniedMsg wantBrackets s
  have hframe := View.calls_frame (k := pnlKey) (l := subscribeOrdersCalls a deniedMsg wantBrackets s)
    (fun x hx => key_of_mem_subscribeOrdersCalls hx ▸ by decide) (view s)
  refine Private.of_ends hends ?_ fun hmem => h.pnl (hframe.1.mp hmem)
  intro hmem
  rcases hl with ⟨hl, rfl⟩ | ⟨l, -, ⟨-, rfl⟩ | ⟨hl, hno, -⟩⟩
  · rw [hl] at hmem
    exact h.order hmem
  · rfl
  · have hoff : orderKey ∉ (view s).subscribed := by
      intro hon
      rw [h.order hon] at hno
      cases hno
    rw [hl] at hmem
    exact absurd hmem (notMem_rollback l (view s) hoff)

theorem Private.disconnectOrder {a : Answers} (h : Private s.client) (hseat : ¬ FailedReseat a s) :
    Private (Host.disconnectOrder a s).1.client := by
  obtain ⟨order, brackets, hends, l, hsyncs, hl⟩ := disconnectOrder_ends a s
  have hframe := View.calls_frame (k := pnlKey) (l := disconnectOrderCalls a s)
    (fun x hx => key_of_mem_disconnectOrderCalls hx ▸ by decide) (view s)
  refine Private.of_ends hends ?_ fun hmem => h.pnl (hframe.1.mp hmem)
  intro hmem
  rcases hl with ⟨hl, -⟩ | ⟨hl, rfl | hfailed⟩
  · rw [hl, List.foldl_append] at hmem
    exact absurd hmem (notMem_release s.client orderKey (hsyncs.subscribed (view s)))
  · rw [hl, hsyncs.subscribed] at hmem
    exact h.order hmem
  · exact absurd hfailed hseat

end

/-- An operation keeps a session off the account topics that it does not hold. -/
theorem Private.reply {h : Hosted} {id : Nat} {c : SessionCtx} {o : Op} (hp : Private c)
    (hc : h.sessions.get? id = some c) (hown : OwnTopics h (.op id o))
    (hseat : ReseatAnswered h (.op id o)) : Private (o.reply ⟨h.state, c⟩).1.client := by
  unfold Op.reply
  cases hready : h.state.ready with
  | false =>
    have hnot : h.state.checkReady =
        .error (.notSent "gateway not ready (plants reconnecting); request not sent") := by
      simp [HostState.checkReady, hready]
    rw [show (⟨h.state, c⟩ : Scope).state.checkReady = _ from hnot]
    exact hp
  | true =>
    have hok : h.state.checkReady = .ok () := by
      simp [HostState.checkReady, hready]
    rw [show (⟨h.state, c⟩ : Scope).state.checkReady = _ from hok]
    cases o with
    | subscribe i a =>
      show Private (subscribeTopic a i ⟨h.state, c⟩).1.client
      obtain ⟨horder, hpnl⟩ := hown c hc
      have hholds := fun j hj => holds_subscribeTopic_ne (s := ⟨h.state, c⟩) (i := i) (j := j) a hj
      refine ⟨?_, ?_⟩
      · intro hmem
        rw [show (subscribeTopic a i ⟨h.state, c⟩).1.client.order = c.order from
          hholds .order (by simp)]
        exact topic_of_subscribeTopic (s := ⟨h.state, c⟩) hready hp.order horder hmem
      · intro hmem
        rw [show (subscribeTopic a i ⟨h.state, c⟩).1.client.pnl = c.pnl from hholds .pnl (by simp)]
        exact topic_of_subscribeTopic (s := ⟨h.state, c⟩) hready hp.pnl hpnl hmem
    | unsubscribe i a =>
      show Private (unsubscribeTopic a i ⟨h.state, c⟩).1.client
      have hsub := subscribed_unsubscribeTopic (s := ⟨h.state, c⟩) a i
      have hholds := fun j hj => holds_unsubscribeTopic_ne (s := ⟨h.state, c⟩) (i := i) (j := j) a hj
      refine ⟨?_, ?_⟩
      · intro hmem
        exact (hholds .order (by simp)).trans (hp.order (hsub hmem))
      · intro hmem
        exact (hholds .pnl (by simp)).trans (hp.pnl (hsub hmem))
    | subscribePnl a => exact Private.subscribePnl (s := ⟨h.state, c⟩) hp a
    | disconnectPnl a => exact Private.disconnectPnl (s := ⟨h.state, c⟩) hp a
    | subscribeOrders b a => exact Private.subscribeOrders (s := ⟨h.state, c⟩) hp a (deniedMsg b) b
    | disconnectOrder a => exact Private.disconnectOrder (s := ⟨h.state, c⟩) hp (hseat c hc)
    | teardown d a => exact hp

theorem private_sessions_of_run {trace : List Event} {w : World}
    (hr : machine.Run (fun w e => OwnTopics w.hosted e ∧ ReseatAnswered w.hosted e) trace w) :
    ∀ id c, w.hosted.sessions.get? id = some c → Private c := by
  induction hr with
  | start hs =>
    intro id c hc
    obtain ⟨⟨state, -, -, hhosted⟩, -⟩ := hs
    rw [hhosted] at hc
    cases hc
  | next _ hok hstep ih =>
    refine World.step_sessions ?_ ?_ ih hstep
    · exact ⟨fun hmem => absurd hmem (Finset.notMem_empty _),
        fun hmem => absurd hmem (Finset.notMem_empty _)⟩
    · rintro id o c rfl hc hp
      exact hp.reply hc hok.1 hok.2

/-- A session receives nothing of the account streams that it does not hold. -/
def World.Isolated (w : World) : Prop :=
  ∀ (encoded : Nat → Bool) (id : Nat) (c : SessionCtx), w.hosted.sessions.get? id = some c →
    (c.order = false → w.net.received encoded id .orderNotification = [] ∧
      w.net.received encoded id .bracketUpdate = []) ∧
    (c.brackets = false → w.net.received encoded id .bracketUpdate = []) ∧
    (c.pnl = false → w.net.received encoded id .accountPnl = [] ∧
      w.net.received encoded id .instrumentPnl = [])

/-- The account streams are isolated in every run whose market-data subscribes stay off the account
topics of others and whose re-seats are answered. -/
theorem isolated_of_run {trace : List Event} {w : World}
    (hr : machine.Run (fun w e => OwnTopics w.hosted e ∧ ReseatAnswered w.hosted e) trace w) :
    w.Isolated := by
  intro encoded id c hc
  have h := routed_of_run hr
  have hp := private_sessions_of_run hr id c hc
  have hsub := h.mirrors.subscribed id c hc
  have hnil : ∀ {key : SubKey} {kind : Kind} {event : PlantEvent},
      ¬ (w.net.wires id).Reaches key kind →
      ((w.net.publishAt encoded key kind event).filter (·.session = id)).map
        (fun q => (q.stream, q.event)) = [] := by
    intro key kind event hnot
    rw [Net.filter_publishAt_of_not_reaches h.mirrors.linked hnot]
    rfl
  refine ⟨?_, ?_, ?_⟩
  · intro horder
    have hoff : orderKey ∉ c.subscribed := by
      intro hmem
      rw [hp.order hmem] at horder
      cases horder
    exact ⟨hnil fun hreach => hoff (hsub ▸ hreach.1), hnil fun hreach => hoff (hsub ▸ hreach.1)⟩
  · intro hbrackets
    apply hnil
    intro hreach
    have hasks := h.asks_of_reaches hc (by decide) hreach
    simp [Asks, hbrackets] at hasks
  · intro hpnl
    have hoff : pnlKey ∉ c.subscribed := by
      intro hmem
      rw [hp.pnl hmem] at hpnl
      cases hpnl
    exact ⟨hnil fun hreach => hoff (hsub ▸ hreach.1), hnil fun hreach => hoff (hsub ▸ hreach.1)⟩

instance (h : Hosted) : DecidablePred (OwnTopics h)
  | .op id (.subscribe i a) =>
    match hc : h.sessions.get? id with
    | none => isTrue fun c hs => by simp [hc] at hs
    | some c => decidable_of_iff
        ((i.key = orderKey → c.order || c.has i || joinRefused a i ⟨h.state, c⟩) ∧
          (i.key = pnlKey → c.pnl || c.has i || joinRefused a i ⟨h.state, c⟩))
        ⟨fun hown c' hs => by cases hc.symm.trans hs; exact hown, fun hall => hall c hc⟩
  | .op _ (.unsubscribe ..) | .op _ (.subscribePnl ..) | .op _ (.disconnectPnl ..)
  | .op _ (.subscribeOrders ..) | .op _ (.disconnectOrder ..) | .op _ (.teardown ..) | .attach _
  | .setReady _ | .openTrading | .degrade _ | .heal _ => isTrue trivial

/-- One session holds the order stream; the venue refuses the other a ticker on the order topic. -/
theorem isolated_after_refusal : ∃ w c,
    machine.Run (fun w e => OwnTopics w.hosted e ∧ ReseatAnswered w.hosted e)
      [.attach 1, .attach 2, .op 1 (.subscribeOrders false {}), .op 2 (.subscribe (.ticker nq) {}),
        .op 2 (.subscribe (.ticker orderKey)
          { join := .error (.other "rithmic error: no such symbol") })] w ∧
      w.hosted.sessions.get? 2 = some c ∧ c.order = false ∧ c.has (.ticker nq) = true ∧
      w.net.received (fun _ => false) 1 .orderNotification = [(.order, .orderNotification)] ∧
      w.net.received (fun _ => false) 2 .orderNotification = [] := by
  have hexec : ∃ w c,
      machine.exec (fun w e => OwnTopics w.hosted e ∧ ReseatAnswered w.hosted e) connectedWorld
        [.attach 1, .attach 2, .op 1 (.subscribeOrders false {}),
          .op 2 (.subscribe (.ticker nq) {}), .op 2 (.subscribe (.ticker orderKey)
            { join := .error (.other "rithmic error: no such symbol") })] = some w ∧
      w.hosted.sessions.get? 2 = some c ∧ c.order = false ∧ c.has (.ticker nq) = true ∧
      w.net.received (fun _ => false) 1 .orderNotification = [(.order, .orderNotification)] :=
    ⟨_, _, rfl, rfl, rfl, rfl, rfl⟩
  obtain ⟨w, c, hexec, hc, horder, hticker, hfirst⟩ := hexec
  have hr := Machine.run_of_exec connectedWorld_start hexec
  exact ⟨w, c, hr, hc, horder, hticker, hfirst,
    ((isolated_of_run hr (fun _ => false) 2 c hc).1 horder).1⟩

/-- A session that subscribes the ticker of the symbol `__order__` receives the order stream. -/
theorem order_stream_by_symbol :
    ¬ ∀ (trace : List Event) (w : World), machine.Run Machine.Free trace w → w.Isolated := by
  intro hall
  have hexec : ∃ w c, machine.exec Machine.Free connectedWorld
      [.attach 1, .op 1 (.subscribe (.ticker ⟨"__order__", ""⟩) {})] = some w ∧
      w.hosted.sessions.get? 1 = some c ∧ c.order = false ∧
      w.net.received (fun _ => false) 1 .orderNotification = [(.order, .orderNotification)] :=
    ⟨_, _, rfl, rfl, rfl, rfl⟩
  obtain ⟨w, c, hexec, hc, horder, hleak⟩ := hexec
  have hrun := Machine.run_of_exec connectedWorld_start hexec
  have hnone := ((hall _ w hrun (fun _ => false) 1 c hc).1 horder).1
  rw [hleak] at hnone
  cases hnone

end RithmicNt.Host.Fanout
