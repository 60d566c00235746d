import RithmicNt.Host.AccountDelivery
import RithmicNt.Host.Wiring

/-! The objects of the hub and of its sessions mirror the sessions' own records, over every run: who is on
which topic, with which interest, and how many sessions the hub counts. -/

namespace RithmicNt.Host.Fanout

open RithmicNt.Lib

/-- The calls of an operation do to a view what the operation does. -/
theorem view_reply (o : Op) (s : Scope) :
    view (o.reply s).1 = (calls o s).foldl View.call (view s) := by
  unfold Op.reply calls
  cases s.state.checkReady with
  | error e => rfl
  | ok u =>
    cases o with
    | subscribe i a => exact view_subscribeTopic a i s
    | unsubscribe i a => exact view_unsubscribeTopic a i s
    | subscribePnl a =>
      obtain ⟨pnl, h, -⟩ := subscribePnl_ends a s
      exact h.view
    | disconnectPnl a =>
      obtain ⟨pnl, h, -⟩ := disconnectPnl_ends a s
      exact h.view
    | subscribeOrders brackets a =>
      obtain ⟨order, brackets', h, -⟩ := subscribeOrders_ends a (deniedMsg brackets) brackets s
      exact h.view
    | disconnectOrder a =>
      obtain ⟨order, brackets, h, -⟩ := disconnectOrder_ends a s
      exact h.view
    | teardown d a => rfl

theorem leavePnl_hub (a : Answers) (rollback : Bool) (s : Scope) :
    (leavePnl a rollback s).1.state.hub = s.state.hub := by
  unfold leavePnl
  split
  · rfl
  · dsimp only
    split
    · split
      · rfl
      · split <;> rfl
    · rfl

theorem leaveOrder_hub (a : Answers) (s : Scope) :
    (leaveOrder a false s).1.state.hub = s.state.hub := by
  have hleft : (forgetOrderStreams s).state.hub = s.state.hub := by
    unfold forgetOrderStreams clearClientBrackets
    dsimp only
    split <;> split <;> rfl
  unfold leaveOrder
  split
  · rfl
  · dsimp only
    split
    · exact hleft
    · split
      · split <;> exact hleft
      · exact hleft

theorem teardown_hub (a : Answers) {d : DrainOrder} (s : Scope) (hd : d.subscribed.Nodup)
    (k : SubKey) : (Host.teardown a d s).hub.count k =
      s.state.hub.count k - if k ∈ d.subscribed then 1 else 0 := by
  unfold Host.teardown
  dsimp only
  rw [removeAll_hub _ hd, leaveOrder_hub, leavePnl_hub]
  dsimp only
  rw [forgetAll_frame]

/-- The objects of each attached session, and the counts of the hub, are those of the host; a session
that is gone is on no topic. -/
structure World.Mirrors (w : World) : Prop where
  linked : w.net.Linked
  subscribed : ∀ id c, w.hosted.sessions.get? id = some c →
    (w.net.wires id).subscribed = c.subscribed
  interest : ∀ id c, w.hosted.sessions.get? id = some c → (w.net.wires id).interest = c.kinds
  gone : ∀ id, w.hosted.sessions.get? id = none → (w.net.wires id).subscribed = ∅
  refcount : ∀ k, (w.net.topic k).refcount = w.hosted.state.hub.count k

namespace World

variable {w : World} {id : Nat} {c : SessionCtx}

theorem Mirrors.shows (h : w.Mirrors) (hc : w.hosted.sessions.get? id = some c) :
    w.net.Shows id (view ⟨w.hosted.state, c⟩) :=
  ⟨h.subscribed id c hc, h.interest id c hc, h.refcount⟩

/-- A step that changes the objects of one session. -/
theorem Mirrors.of_session {hosted : Hosted} {net : Net} (h : w.Mirrors) (hlinked : net.Linked)
    (hother : ∀ i ≠ id, net.wires i = w.net.wires i)
    (hsessions : ∀ i ≠ id, hosted.sessions.get? i = w.hosted.sessions.get? i)
    (hself : ∀ c, hosted.sessions.get? id = some c →
      (net.wires id).subscribed = c.subscribed ∧ (net.wires id).interest = c.kinds)
    (hgone : hosted.sessions.get? id = none → (net.wires id).subscribed = ∅)
    (hrefcount : ∀ k, (net.topic k).refcount = hosted.state.hub.count k) :
    Mirrors ⟨hosted, net⟩ := by
  refine ⟨hlinked, ?_, ?_, ?_, hrefcount⟩
  · intro i c hi
    by_cases hne : i = id
    · subst hne
      exact (hself c hi).1
    · rw [hsessions i hne] at hi
      rw [hother i hne]
      exact h.subscribed i c hi
  · intro i c hi
    by_cases hne : i = id
    · subst hne
      exact (hself c hi).2
    · rw [hsessions i hne] at hi
      rw [hother i hne]
      exact h.interest i c hi
  · intro i hi
    by_cases hne : i = id
    · subst hne
      exact hgone hi
    · rw [hsessions i hne] at hi
      rw [hother i hne]
      exact h.gone i hi

theorem Mirrors.attach (h : w.Mirrors) (id : Nat) :
    Mirrors ⟨{ w.hosted with sessions := w.hosted.sessions.set id {} },
      w.net.setWires id (w.net.wires id).fresh⟩ := by
  have hwires : (w.net.setWires id (w.net.wires id).fresh).wires id = (w.net.wires id).fresh :=
    Function.update_self ..
  refine h.of_session ?_ (fun i hi => Function.update_of_ne hi ..) (fun i hi => Dict.get?_set_of_ne _ hi _) ?_ ?_ h.refcount
  · refine h.linked.setWires (wired_fresh _) (Nat.le_refl _) ?_ ?_
    · rintro t d - ⟨⟩
    · rintro k t d ⟨⟩
  · intro c hc
    cases (Dict.get?_set_self ..).symm.trans hc
    rw [hwires]
    exact ⟨rfl, rfl⟩
  · intro _
    rw [hwires]
    rfl

theorem Mirrors.reply (h : w.Mirrors) (hc : w.hosted.sessions.get? id = some c) (o : Op) :
    Mirrors ⟨⟨(o.reply ⟨w.hosted.state, c⟩).1.state,
        w.hosted.sessions.set id (o.reply ⟨w.hosted.state, c⟩).1.client⟩,
      (calls o ⟨w.hosted.state, c⟩).foldl (Net.call id) w.net⟩ := by
  have hs := (h.shows hc).calls h.linked (calls o ⟨w.hosted.state, c⟩)
  rw [← view_reply] at hs
  refine h.of_session (h.linked.calls id _) (fun i hi => Net.wires_calls_ne h.linked hi _)
    (fun i hi => Dict.get?_set_of_ne _ hi _) ?_ ?_ hs.refcount
  · intro c' hc'
    cases (Dict.get?_set_self ..).symm.trans hc'
    exact ⟨hs.subscribed, hs.interest⟩
  · intro hnone
    cases (Dict.get?_set_self ..).symm.trans hnone

theorem Mirrors.teardown {d : DrainOrder} (h : w.Mirrors) (hd : d.Of c) (a : Answers) :
    Mirrors ⟨⟨Host.teardown a d ⟨w.hosted.state, c⟩,
        w.hosted.sessions.filter fun e => e.1 ≠ id⟩, w.net.teardown id c d⟩ := by
  obtain ⟨hother, hself, -⟩ := w.net.wires_teardown id c d
  have hget := Dict.get?_filter_ne w.hosted.sessions id
  refine h.of_session (h.linked.teardown id c d) hother (fun i hi => by rw [hget, if_neg hi])
    ?_ (fun _ => hself) ?_
  · intro c' hc'
    rw [hget, if_pos rfl] at hc'
    cases hc'
  · intro k
    rw [Net.refcount_teardown w.net id c hd.2.2.2.1, teardown_hub a _ hd.2.2.2.1, h.refcount k]

/-- Everything that a step of the host can do. -/
theorem step_cases {e : Event} {w' : World} (hstep : w.step e = some w') :
    (∃ id, e = .attach id ∧ w.hosted.sessions.get? id = none ∧
      w' = ⟨{ w.hosted with sessions := w.hosted.sessions.set id {} },
        w.net.setWires id (w.net.wires id).fresh⟩) ∨
    (∃ id d a c, e = .op id (.teardown d a) ∧ w.hosted.sessions.get? id = some c ∧ d.Of c ∧
      w' = ⟨⟨Host.teardown a d ⟨w.hosted.state, c⟩,
        w.hosted.sessions.filter fun e => e.1 ≠ id⟩, w.net.teardown id c d⟩) ∨
    (∃ id o c, e = .op id o ∧ w.hosted.sessions.get? id = some c ∧
      w' = ⟨⟨(o.reply ⟨w.hosted.state, c⟩).1.state,
        w.hosted.sessions.set id (o.reply ⟨w.hosted.state, c⟩).1.client⟩,
        (calls o ⟨w.hosted.state, c⟩).foldl (Net.call id) w.net⟩) ∨
    ∃ state : HostState, state.hub = w.hosted.state.hub ∧
      w' = ⟨{ w.hosted with state }, w.net⟩ := by
  obtain ⟨hosted, hhosted, rfl⟩ := Option.map_eq_some_iff.mp hstep
  cases e with
  | attach id =>
    simp only [Hosted.step] at hhosted
    split at hhosted
    · cases hhosted
    · next hnone =>
      cases hhosted
      exact .inl ⟨id, rfl, by simpa using hnone, rfl⟩
  | op id o =>
    simp only [Hosted.step, Hosted.run] at hhosted
    split at hhosted
    · next hc =>
      cases hhosted
      refine .inr (.inr (.inr ⟨w.hosted.state, rfl, ?_⟩))
      simp [follow, hc]
    · next c hc =>
      right
      split at hhosted
      · next d a =>
        split at hhosted
        · next hd =>
          cases hhosted
          refine .inl ⟨id, d, a, c, rfl, hc, hd, ?_⟩
          simp [follow, hc]
        · cases hhosted
      · next hno =>
        cases hhosted
        refine .inr (.inl ⟨id, o, c, rfl, hc, ?_⟩)
        simp only [follow, hc]
  | setReady ready =>
    cases hhosted
    exact .inr (.inr (.inr ⟨{ w.hosted.state with ready }, rfl, rfl⟩))
  | openTrading =>
    cases hhosted
    exact .inr (.inr (.inr ⟨{ w.hosted.state with trading := true }, rfl, rfl⟩))
  | degrade i =>
    cases hhosted
    exact .inr (.inr (.inr ⟨{ w.hosted.state with store := w.hosted.state.store.markDegraded i }, rfl, rfl⟩))
  | heal i =>
    cases hhosted
    exact .inr (.inr (.inr ⟨{ w.hosted.state with store := w.hosted.state.store.clearDegraded i }, rfl, rfl⟩))

theorem step_mirrors {e : Event} {w' : World} (h : w.Mirrors) (hstep : w.step e = some w') :
    w'.Mirrors := by
  rcases step_cases hstep with ⟨id, rfl, hc, rfl⟩ | ⟨id, d, a, c, rfl, hc, hd, rfl⟩ |
    ⟨id, o, c, rfl, hc, rfl⟩ | ⟨state, hhub, rfl⟩
  · exact h.attach id
  · exact h.teardown hd a
  · exact h.reply hc o
  · refine ⟨h.linked, h.subscribed, h.interest, h.gone, ?_⟩
    intro k
    rw [h.refcount k, ← hhub]

theorem start_mirrors (hs : machine.Start w) : w.Mirrors := by
  obtain ⟨⟨state, -, hhub, hhosted⟩, hnet⟩ := hs
  have hwires : ∀ id, w.net.wires id = {} := by
    intro id
    rw [hnet]
  refine ⟨⟨?_, ?_, ?_, ?_, ?_⟩, ?_, ?_, ?_, ?_⟩
  · intro id
    rw [hwires id]
    exact wired_fresh {}
  · intro k st hst
    rw [hnet] at hst
    cases hst
  · intro k st hst
    rw [hnet] at hst
    cases hst
  · intro k st hst
    rw [hnet] at hst
    cases hst
  · intro k st hst
    rw [hnet] at hst
    cases hst
  · intro id c hc
    rw [hhosted] at hc
    cases hc
  · intro id c hc
    rw [hhosted] at hc
    cases hc
  · intro id _
    rw [hwires id]
  · intro k
    rw [hnet, hhosted]
    show _ = state.hub.count k
    rw [hhub]
    rfl

end World

/-- What a new session has, and each operation keeps, every attached session has after a step. -/
theorem World.step_sessions {w w' : World} {e : Event} {P : SessionCtx → Prop} (hnew : P {})
    (hop : ∀ id o c, e = .op id o → w.hosted.sessions.get? id = some c → P c →
      P (o.reply ⟨w.hosted.state, c⟩).1.client)
    (h : ∀ id c, w.hosted.sessions.get? id = some c → P c) (hstep : w.step e = some w') :
    ∀ id c, w'.hosted.sessions.get? id = some c → P c := by
  rcases step_cases hstep with ⟨id, rfl, hnone, rfl⟩ | ⟨id, d, a, c, rfl, hid, hd, rfl⟩ |
    ⟨id, o, c, rfl, hid, rfl⟩ | ⟨state, hhub, rfl⟩
  · intro i c' hi
    rw [Dict.get?_set] at hi
    split at hi
    · cases hi
      exact hnew
    · exact h i c' hi
  · intro i c' hi
    exact h i c' (Dict.get?_filter.mp hi).1
  · intro i c' hi
    rw [Dict.get?_set] at hi
    split at hi
    · cases hi
      exact hop id o c rfl hid (h id c hid)
    · exact h i c' hi
  · exact h

theorem mirrors_of_run {ok : World → Event → Prop} {trace : List Event} {w : World}
    (hr : machine.Run ok trace w) : w.Mirrors :=
  hr.invariant (fun _ => World.start_mirrors) fun _ _ _ h _ => World.step_mirrors h

/-- The host of a run beside its objects runs by itself. -/
theorem hosted_of_run {ok : Hosted → Event → Prop} {trace : List Event} {w : World}
    (hr : machine.Run (fun w e => ok w.hosted e) trace w) : Host.machine.Run ok trace w.hosted := by
  induction hr with
  | start hs => exact .start hs.1
  | next _ hok hstep ih =>
    obtain ⟨hosted, hhosted, rfl⟩ := Option.map_eq_some_iff.mp hstep
    exact .next ih hok hhosted

/-! Whether a session leaves only topics that it is on. -/

section

variable {k key : SubKey} {v : View} {l l' : List Call}

theorem guarded_append :
    Guarded k v (l ++ l') ↔ Guarded k v l ∧ Guarded k (l.foldl View.call v) l' := by
  induction l generalizing v with
  | nil => simp [Guarded]
  | cons c l ih => simp only [List.cons_append, Guarded, List.foldl_cons, ih, and_assoc]

/-- Calls of `sync_kinds`. -/
def Resyncs (l : List Call) : Prop := ∀ c ∈ l, ∃ key mask, c = .sync key mask

theorem Syncs.resyncs (h : Syncs l) : Resyncs l := by
  intro c hc
  obtain ⟨mask, rfl⟩ := h c hc
  exact ⟨_, _, rfl⟩

theorem subscribed_sync (v : View) (key : SubKey) (mask : UInt8) :
    (v.call (.sync key mask)).subscribed = v.subscribed := by
  unfold View.call
  dsimp only
  split <;> rfl

theorem Resyncs.guarded (h : Resyncs l) :
    Guarded k v l ∧ (l.foldl View.call v).subscribed = v.subscribed := by
  induction l generalizing v with
  | nil => exact ⟨trivial, rfl⟩
  | cons c l ih =>
    obtain ⟨key, mask, rfl⟩ := h c List.mem_cons_self
    obtain ⟨hg, hsub⟩ := ih (v := v.call (.sync key mask)) fun x hx => h x (List.mem_cons_of_mem _ hx)
    refine ⟨⟨?_, hg⟩, hsub.trans (subscribed_sync v key mask)⟩
    rintro ⟨⟩

theorem guarded_leave (h : k = key → k ∈ v.subscribed) : Guarded k v [.leave key] := by
  refine ⟨?_, trivial⟩
  intro hleave
  exact h (Call.leave.inj hleave).symm

/-- A join that is rolled back leaves a topic that it has put the session on. -/
theorem Resyncs.guarded_join (h : Resyncs l) (had : Bool) :
    Guarded k v (.attach key :: (l ++ rollbackCalls key had)) := by
  refine ⟨by rintro ⟨⟩, guarded_append.mpr ⟨h.guarded.1, ?_⟩⟩
  have hon : key ∈ (v.attach key).subscribed := by
    unfold View.attach
    split
    · next hmem => exact hmem
    · exact Finset.mem_insert_self ..
  cases had with
  | true => trivial
  | false =>
    refine guarded_leave ?_
    rintro rfl
    rw [(h.guarded (k := k)).2]
    exact hon

theorem guarded_release (c : SessionCtx) (h : v.subscribed = c.subscribed) :
    Guarded k v (releaseTopicCalls c key) := by
  unfold releaseTopicCalls
  split
  · next hmem =>
    refine guarded_leave ?_
    rintro rfl
    exact h ▸ hmem
  · trivial

theorem resyncs_nil : Resyncs [] := by
  intro c hc
  cases hc

theorem resyncs_cons {mask : UInt8} (h : Resyncs l) : Resyncs (.sync key mask :: l) := by
  intro c hc
  rcases List.mem_cons.mp hc with rfl | hc
  · exact ⟨_, _, rfl⟩
  · exact h c hc

/-- A session that is on the topic of each market-data intent that it holds leaves only topics that it
is on. -/
theorem calls_guarded (o : Op) (s : Scope)
    (h : ∀ i : MdIntent, i.key = k → s.client.has i = true → k ∈ s.client.subscribed) :
    Guarded k (view s) (calls o s) := by
  unfold calls
  cases s.state.checkReady with
  | error e => trivial
  | ok u =>
    cases o with
    | subscribe i a =>
      show Guarded k (view s) (subscribeCalls a i s)
      unfold subscribeCalls
      split
      · trivial
      · dsimp only
        cases (subscribeTopic a i s).2 with
        | ok u => exact (resyncs_cons resyncs_nil).guarded_join true
        | error e => exact (resyncs_cons (resyncs_cons resyncs_nil)).guarded_join _
    | unsubscribe i a =>
      show Guarded k (view s) (unsubscribeCalls a i s)
      unfold unsubscribeCalls
      split
      · trivial
      · next hhas =>
        dsimp only
        cases (unsubscribeTopic a i s).2 with
        | ok u =>
          refine ⟨by rintro ⟨⟩, ?_⟩
          dsimp only
          split
          · trivial
          · refine guarded_leave ?_
            intro hk
            rw [subscribed_sync]
            exact h i hk.symm (by simpa using hhas)
        | error e => exact (resyncs_cons (resyncs_cons resyncs_nil)).guarded.1
    | subscribePnl a =>
      show Guarded k (view s) (subscribePnlCalls a s)
      obtain ⟨-, -, ⟨hl, -⟩ | ⟨hl, -⟩ | ⟨hl, -⟩⟩ := subscribePnl_ends a s
      · rw [hl]
        trivial
      · rw [hl]
        exact resyncs_nil.guarded_join true
      · rw [hl]
        exact resyncs_nil.guarded_join _
    | disconnectPnl a =>
      show Guarded k (view s) (disconnectPnlCalls a s)
      obtain ⟨-, -, ⟨hl, -⟩ | ⟨hl, -⟩⟩ := disconnectPnl_ends a s
      · rw [hl]
        trivial
      · rw [hl]
        exact guarded_release s.client rfl
    | subscribeOrders brackets a =>
      show Guarded k (view s) (subscribeOrdersCalls a (deniedMsg brackets) brackets s)
      obtain ⟨-, -, -, ⟨hl, -⟩ | ⟨l, hsyncs, ⟨hl, -⟩ | ⟨hl, -⟩⟩⟩ :=
        subscribeOrders_ends a (deniedMsg brackets) brackets s
      · rw [hl]
        trivial
      · rw [hl]
        have hjoin : Guarded k (view s) (.attach orderKey :: (l ++ rollbackCalls orderKey true)) :=
          hsyncs.resyncs.guarded_join true
        simpa [rollbackCalls] using hjoin
      · rw [hl]
        exact hsyncs.resyncs.guarded_join _
    | disconnectOrder a =>
      show Guarded k (view s) (disconnectOrderCalls a s)
      obtain ⟨-, -, -, l, hsyncs, ⟨hl, -⟩ | ⟨hl, -⟩⟩ := disconnectOrder_ends a s
      · rw [hl]
        obtain ⟨hg, hsub⟩ := hsyncs.resyncs.guarded (k := k) (v := view s)
        exact guarded_append.mpr ⟨hg, guarded_release s.client hsub⟩
      · rw [hl]
        exact hsyncs.resyncs.guarded.1
    | teardown d a => trivial

end

/-- A step keeps the hub's count of the sessions on a topic where each attached session is on the topic
of its market-data intents. -/
theorem World.step_counted {w w' : World} {e : Event} {k : SubKey} (hm : w.Mirrors)
    (hc : w.net.Counted k)
    (hon : ∀ id c, w.hosted.sessions.get? id = some c →
      ∀ i : MdIntent, i.key = k → c.has i = true → k ∈ c.subscribed)
    (hstep : w.step e = some w') : w'.net.Counted k := by
  rcases step_cases hstep with ⟨id, rfl, hnone, rfl⟩ | ⟨id, d, a, c, rfl, hid, hd, rfl⟩ |
    ⟨id, o, c, rfl, hid, rfl⟩ | ⟨state, hhub, rfl⟩
  · have hempty := hm.gone id hnone
    refine hc.keep rfl ?_
    intro i
    show (Function.update w.net.wires id _ i).topics k = _ ∧
      (k ∈ (Function.update w.net.wires id _ i).subscribed ↔ _)
    rw [Function.update_apply]
    split
    · next hi =>
      rw [hi, hempty]
      exact ⟨((hm.linked.wired id).topics_eq_none (by simp [hempty])).symm, Iff.rfl⟩
    · exact ⟨rfl, Iff.rfl⟩
  · refine hc.teardown hm.linked hd.2.2.2.1 ?_
    rw [hm.subscribed id c hid, ← hd.2.2.2.2, List.mem_toFinset]
  · exact hc.calls hm.linked (hm.shows hid) (calls_guarded o _ (hon id c hid))
  · exact hc

end RithmicNt.Host.Fanout
