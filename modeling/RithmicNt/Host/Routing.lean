import RithmicNt.Host.DeliveryRuns

/-! Market data reaches the sessions that hold it, once each, over every run on symbols of the market. -/

namespace RithmicNt.Host.Fanout

open RithmicNt.Lib

/-- The session is on the topic where it holds market data on it, and its interest there is the mask of
its holdings. -/
structure Served (c : SessionCtx) (k : SubKey) : Prop where
  subscribed : k ∈ c.subscribed ↔ c.wantsMd k = true
  kinds : k ∈ c.subscribed → c.kinds k = some (c.mask k)

/-- No market data of the session is on a reserved symbol. -/
def Plain (c : SessionCtx) : Prop := ∀ i, c.has i = true → i.key.symbol ∉ reservedSymbols

/-- The key is none of the two account topics. -/
def Market (k : SubKey) : Prop := k ≠ orderKey ∧ k ≠ pnlKey

section

variable {c d : SessionCtx} {k : SubKey}

theorem wantsMd_congr (h : ∀ i : MdIntent, i.key = k → d.has i = c.has i) :
    d.wantsMd k = c.wantsMd k := by
  rw [Bool.eq_iff_iff, SessionCtx.wantsMd_iff, SessionCtx.wantsMd_iff]
  constructor
  · rintro ⟨i, hi, rfl⟩
    exact ⟨i, h i rfl ▸ hi, rfl⟩
  · rintro ⟨i, hi, rfl⟩
    exact ⟨i, (h i rfl).symm ▸ hi, rfl⟩

theorem hasBars_iff : c.hasBars k = true ↔ ∃ t, c.has (.timeBars t) = true ∧
    (MdIntent.timeBars t).key = k := by
  obtain ⟨symbol, exchange⟩ := k
  simp [SessionCtx.hasBars, SessionCtx.has, MdIntent.key]

/-- The mask of a topic other than that of the orders, by the market data held on it. -/
theorem mask_congr_of_market (hk : k ≠ orderKey)
    (h : ∀ i : MdIntent, i.key = k → d.has i = c.has i) : d.mask k = c.mask k := by
  have hticker : decide (k ∈ d.ticker) = decide (k ∈ c.ticker) := h (.ticker k) rfl
  have hbook : decide (k ∈ d.book) = decide (k ∈ c.book) := h (.book k) rfl
  have hbars : d.hasBars k = c.hasBars k := by
    rw [Bool.eq_iff_iff, hasBars_iff, hasBars_iff]
    constructor
    · rintro ⟨t, ht, hkey⟩
      exact ⟨t, h _ hkey ▸ ht, hkey⟩
    · rintro ⟨t, ht, hkey⟩
      exact ⟨t, (h _ hkey).symm ▸ ht, hkey⟩
  unfold SessionCtx.mask
  rw [hticker, hbook, hbars]
  simp [hk]

/-- A step that changes nothing on the topic. -/
theorem Served.of_same (h : Served c k) (hk : k ≠ orderKey)
    (hhas : ∀ i : MdIntent, i.key = k → d.has i = c.has i)
    (hsub : k ∈ d.subscribed ↔ k ∈ c.subscribed) (hkinds : d.kinds k = c.kinds k) : Served d k := by
  refine ⟨?_, ?_⟩
  · rw [hsub, h.subscribed, wantsMd_congr hhas]
  · intro hmem
    rw [hkinds, h.kinds (hsub.mp hmem), mask_congr_of_market hk hhas]

theorem View.call_frame {x : Call} (hx : x.key ≠ k) (v : View) :
    (k ∈ (v.call x).subscribed ↔ k ∈ v.subscribed) ∧ (v.call x).kinds k = v.kinds k := by
  have hne : k ≠ x.key := Ne.symm hx
  cases x with
  | attach key =>
    have hne : k ≠ key := hne
    show (k ∈ (v.attach key).subscribed ↔ _) ∧ (v.attach key).kinds k = _
    unfold View.attach
    split
    · exact ⟨Iff.rfl, rfl⟩
    · simp [hne]
  | sync key mask =>
    have hne : k ≠ key := hne
    rw [subscribed_sync]
    refine ⟨Iff.rfl, ?_⟩
    unfold View.call
    dsimp only
    split
    · exact Function.update_of_ne hne ..
    · exact Function.update_of_ne hne ..
  | leave key =>
    have hne : k ≠ key := hne
    simp [View.call, hne]

theorem View.calls_frame {l : List Call} (hl : ∀ x ∈ l, x.key ≠ k) (v : View) :
    (k ∈ (l.foldl View.call v).subscribed ↔ k ∈ v.subscribed) ∧
      (l.foldl View.call v).kinds k = v.kinds k := by
  induction l generalizing v with
  | nil => exact ⟨Iff.rfl, rfl⟩
  | cons x l ih =>
    obtain ⟨hsub, hkinds⟩ := ih (fun y hy => hl y (List.mem_cons_of_mem x hy)) (v.call x)
    obtain ⟨hsub', hkinds'⟩ := View.call_frame (hl x List.mem_cons_self) v
    exact ⟨hsub.trans hsub', hkinds.trans hkinds'⟩

end

/-! One operation. -/

section

variable {s : Scope} {k : SubKey}

theorem holds_entered (i : MdIntent) (s : Scope) (j : Intent) :
    (entered i s).client.holds j = (decide (j = .md i) || s.client.holds j) := by
  show ((Host.attachSharedTopic s i.key).client.insert i).holds j = _
  rw [SessionCtx.holds_insert, attachSharedTopic_holds]

theorem subscribed_entered (i : MdIntent) (s : Scope) :
    (entered i s).client.subscribed = insert i.key s.client.subscribed := by
  show ((Host.attachSharedTopic s i.key).client.insert i).subscribed = _
  rw [(SessionCtx.insert_frame _ i).1, attachSharedTopic_subscribed]

theorem holds_rollbackSharedTopic (s : Scope) (key : SubKey) (had : Bool) (j : Intent) :
    (rollbackSharedTopic s key had).client.holds j = s.client.holds j := by
  cases had with
  | true => rfl
  | false => exact holds_dropDelivery s.client key j

theorem holds_releaseMdIfUnused (s : Scope) (key : SubKey) (j : Intent) :
    (releaseMdIfUnused s key).client.holds j = s.client.holds j := by
  unfold releaseMdIfUnused
  split
  · rfl
  · exact holds_dropDelivery s.client key j

theorem holds_subscribeTopic_ne {i : MdIntent} {j : Intent} (a : Answers) (hj : j ≠ .md i) :
    (subscribeTopic a i s).1.client.holds j = s.client.holds j := by
  rcases subscribeTopic_cases a i s with ⟨-, h⟩ | ⟨-, -, h⟩ | ⟨-, e, -, h⟩
  · rw [h.client]
  · rw [h.client, holds_entered]
    simp [hj]
  · rw [h.client, holds_rollbackSharedTopic]
    show ((entered i s).client.remove i).holds j = _
    rw [SessionCtx.holds_remove, holds_entered]
    simp [hj]

theorem holds_unsubscribeTopic_ne {i : MdIntent} {j : Intent} (a : Answers) (hj : j ≠ .md i) :
    (unsubscribeTopic a i s).1.client.holds j = s.client.holds j := by
  have hremove : (s.client.remove i).holds j = s.client.holds j := by
    rw [SessionCtx.holds_remove]
    simp [hj]
  rcases unsubscribeTopic_cases a i s with ⟨-, h⟩ | ⟨-, -, h⟩ | ⟨-, e, -, h⟩
  · rw [h]
  · rw [h.client, holds_releaseMdIfUnused]
    exact hremove
  · rw [h.client]
    show ((s.client.remove i).insert i).holds j = _
    rw [SessionCtx.holds_insert, hremove]
    simp [hj]

theorem has_subscribeTopic_ne {i j : MdIntent} (a : Answers) (hj : j ≠ i) :
    (subscribeTopic a i s).1.client.has j = s.client.has j :=
  holds_subscribeTopic_ne a fun h => hj (Intent.md.inj h)

theorem has_unsubscribeTopic_ne {i j : MdIntent} (a : Answers) (hj : j ≠ i) :
    (unsubscribeTopic a i s).1.client.has j = s.client.has j :=
  holds_unsubscribeTopic_ne a fun h => hj (Intent.md.inj h)

theorem has_unsubscribeTopic {i j : MdIntent} (a : Answers)
    (h : (unsubscribeTopic a i s).1.client.has j = true) : s.client.has j = true := by
  by_cases hj : j = i
  · subst hj
    rcases unsubscribeTopic_cases a j s with ⟨-, hs⟩ | ⟨hhas, -⟩ | ⟨hhas, -⟩
    · rwa [hs] at h
    · exact hhas
    · exact hhas
  · rwa [has_unsubscribeTopic_ne a hj] at h

theorem Served.subscribeTopic_self {i : MdIntent} (h : Served s.client i.key) (a : Answers) :
    Served (subscribeTopic a i s).1.client i.key := by
  rcases subscribeTopic_cases a i s with ⟨-, hsame⟩ | ⟨-, -, hsame⟩ | ⟨hno, e, -, hsame⟩
  · rw [hsame.client]
    exact h
  · rw [hsame.client]
    have hhas : (entered i s).client.holds (.md i) = true := by
      rw [holds_entered]
      simp
    refine ⟨?_, fun _ => SessionCtx.kinds_insert_self _ i⟩
    have hmem : i.key ∈ (entered i s).client.subscribed := by
      rw [subscribed_entered]
      exact Finset.mem_insert_self ..
    exact iff_of_true hmem (SessionCtx.wantsMd_iff.mpr ⟨i, hhas, rfl⟩)
  · rw [hsame.client]
    have hsub : ((entered i s).client.remove i).subscribed = insert i.key s.client.subscribed := by
      rw [(SessionCtx.remove_frame _ i).1, subscribed_entered]
    have hhas : ∀ j, ((entered i s).client.remove i).has j = s.client.has j := by
      intro j
      have hentered : (entered i s).client.has j = (decide (Intent.md j = .md i) || s.client.has j) :=
        holds_entered i s (.md j)
      rw [has_remove_eq, hentered]
      by_cases hj : j = i
      · simp [hj, hno]
      · simp [hj]
    have hwants : ((entered i s).client.remove i).wantsMd i.key = s.client.wantsMd i.key :=
      wantsMd_congr fun j _ => hhas j
    by_cases hmem : i.key ∈ s.client.subscribed
    · -- the topic was there before, and its interest is that of the holdings again
      rw [decide_eq_true hmem]
      show Served ((entered i s).client.remove i) i.key
      refine ⟨?_, ?_⟩
      · rw [hwants, ← h.subscribed, hsub]
        simp [hmem]
      · intro _
        apply SessionCtx.kinds_remove_self
        rw [← (SessionCtx.remove_frame _ i).1, hsub]
        exact Finset.mem_insert_self ..
    · rw [decide_eq_false hmem]
      show Served (((entered i s).client.remove i).dropDelivery i.key) i.key
      have hoff : i.key ∉ (((entered i s).client.remove i).dropDelivery i.key).subscribed :=
        by simp [SessionCtx.dropDelivery]
      refine ⟨iff_of_false hoff ?_, fun hon => absurd hon hoff⟩
      rw [wantsMd_congr fun j _ => holds_dropDelivery ((entered i s).client.remove i) i.key (.md j),
        hwants, ← h.subscribed]
      exact hmem

theorem Served.unsubscribeTopic_self {i : MdIntent} (h : Served s.client i.key) (a : Answers) :
    Served (unsubscribeTopic a i s).1.client i.key := by
  rcases unsubscribeTopic_cases a i s with ⟨-, hsame⟩ | ⟨hhas, -, hsame⟩ | ⟨hhas, e, -, hsame⟩
  · rw [hsame]
    exact h
  · have hmem : i.key ∈ s.client.subscribed :=
      h.subscribed.mpr (SessionCtx.wantsMd_iff.mpr ⟨i, hhas, rfl⟩)
    rw [hsame.client]
    unfold releaseMdIfUnused
    split
    · next hwants =>
      refine ⟨iff_of_true ?_ hwants, fun _ => SessionCtx.kinds_remove_self hmem⟩
      show i.key ∈ (s.client.remove i).subscribed
      rw [(s.client.remove_frame i).1]
      exact hmem
    · next hwants =>
      have hoff : i.key ∉ ((s.client.remove i).dropDelivery i.key).subscribed :=
        by simp [SessionCtx.dropDelivery]
      refine ⟨iff_of_false hoff ?_, fun hon => absurd hon hoff⟩
      show ¬ ((s.client.remove i).dropDelivery i.key).wantsMd i.key = true
      rw [wantsMd_congr fun j _ => holds_dropDelivery (s.client.remove i) i.key (.md j)]
      exact hwants
  · have hmem : i.key ∈ s.client.subscribed :=
      h.subscribed.mpr (SessionCtx.wantsMd_iff.mpr ⟨i, hhas, rfl⟩)
    rw [hsame.client]
    show Served ((s.client.remove i).insert i) i.key
    have hback : ((s.client.remove i).insert i).has i = true := by
      rw [has_insert_eq]
      simp
    refine ⟨iff_of_true ?_ (SessionCtx.wantsMd_iff.mpr ⟨i, hback, rfl⟩), ?_⟩
    · rw [(SessionCtx.insert_frame _ i).1, (s.client.remove_frame i).1]
      exact hmem
    · intro _
      exact SessionCtx.kinds_insert_self _ i

theorem key_of_mem_rollbackCalls {key : SubKey} {had : Bool} {x : Call}
    (hx : x ∈ rollbackCalls key had) : x.key = key := by
  cases had with
  | true => cases hx
  | false =>
    obtain rfl := List.mem_singleton.mp hx
    rfl

theorem key_of_mem_releaseTopicCalls {c : SessionCtx} {key : SubKey} {x : Call}
    (hx : x ∈ releaseTopicCalls c key) : x.key = key := by
  unfold releaseTopicCalls at hx
  split at hx
  · obtain rfl := List.mem_singleton.mp hx
    rfl
  · cases hx

theorem Syncs.key {l : List Call} (h : Syncs l) {x : Call} (hx : x ∈ l) : x.key = orderKey := by
  obtain ⟨mask, rfl⟩ := h x hx
  rfl

theorem key_of_mem_subscribeCalls {a : Answers} {i : MdIntent} {x : Call}
    (hx : x ∈ subscribeCalls a i s) : x.key = i.key := by
  unfold subscribeCalls at hx
  split at hx
  · cases hx
  · dsimp only at hx
    cases hr : (subscribeTopic a i s).2 with
    | ok u =>
      simp only [hr, List.cons_append, List.nil_append, List.mem_cons, List.not_mem_nil,
        or_false] at hx
      rcases hx with rfl | rfl <;> rfl
    | error e =>
      simp only [hr, List.cons_append, List.nil_append, List.mem_cons] at hx
      rcases hx with rfl | rfl | rfl | hx
      · rfl
      · rfl
      · rfl
      · exact key_of_mem_rollbackCalls hx

theorem key_of_mem_unsubscribeCalls {a : Answers} {i : MdIntent} {x : Call}
    (hx : x ∈ unsubscribeCalls a i s) : x.key = i.key := by
  unfold unsubscribeCalls at hx
  split at hx
  · cases hx
  · dsimp only at hx
    cases hr : (unsubscribeTopic a i s).2 with
    | ok u =>
      simp only [hr, List.mem_cons] at hx
      rcases hx with rfl | hx
      · rfl
      · split at hx
        · cases hx
        · obtain rfl := List.mem_singleton.mp hx
          rfl
    | error e =>
      simp only [hr, List.mem_cons, List.not_mem_nil, or_false] at hx
      rcases hx with rfl | rfl <;> rfl

theorem key_of_mem_subscribePnlCalls {a : Answers} {x : Call} (hx : x ∈ subscribePnlCalls a s) :
    x.key = pnlKey := by
  obtain ⟨-, -, ⟨hl, -⟩ | ⟨hl, -⟩ | ⟨hl, -⟩⟩ := subscribePnl_ends a s
  · rw [hl] at hx
    cases hx
  · rw [hl] at hx
    obtain rfl := List.mem_singleton.mp hx
    rfl
  · rw [hl] at hx
    rcases List.mem_cons.mp hx with rfl | hx
    · rfl
    · exact key_of_mem_rollbackCalls hx

theorem key_of_mem_disconnectPnlCalls {a : Answers} {x : Call}
    (hx : x ∈ disconnectPnlCalls a s) : x.key = pnlKey := by
  obtain ⟨-, -, ⟨hl, -⟩ | ⟨hl, -⟩⟩ := disconnectPnl_ends a s
  · rw [hl] at hx
    cases hx
  · rw [hl] at hx
    exact key_of_mem_releaseTopicCalls hx

theorem key_of_mem_subscribeOrdersCalls {a : Answers} {deniedMsg : String} {brackets : Bool}
    {x : Call} (hx : x ∈ subscribeOrdersCalls a deniedMsg brackets s) : x.key = orderKey := by
  obtain ⟨-, -, -, ⟨hl, -⟩ | ⟨l, hsyncs, ⟨hl, -⟩ | ⟨hl, -⟩⟩⟩ :=
    subscribeOrders_ends a deniedMsg brackets s
  · rw [hl] at hx
    cases hx
  · rw [hl] at hx
    rcases List.mem_cons.mp hx with rfl | hx
    · rfl
    · exact hsyncs.key hx
  · rw [hl] at hx
    rcases List.mem_cons.mp hx with rfl | hx
    · rfl
    · rcases List.mem_append.mp hx with hx | hx
      · exact hsyncs.key hx
      · exact key_of_mem_rollbackCalls hx

theorem key_of_mem_disconnectOrderCalls {a : Answers} {x : Call}
    (hx : x ∈ disconnectOrderCalls a s) : x.key = orderKey := by
  obtain ⟨-, -, -, l, hsyncs, ⟨hl, -⟩ | ⟨hl, -⟩⟩ := disconnectOrder_ends a s
  · rw [hl] at hx
    rcases List.mem_append.mp hx with hx | hx
    · exact hsyncs.key hx
    · exact key_of_mem_releaseTopicCalls hx
  · rw [hl] at hx
    exact hsyncs.key hx

/-- The calls of an operation on the account streams, and its frame: it changes no market data. -/
theorem Served.of_ends {order brackets pnl : Bool} {t : Scope} {l : List Call}
    (h : Served s.client k) (hk : k ≠ orderKey) (hends : Ends order brackets pnl s t l)
    (hl : ∀ x ∈ l, x.key ≠ k) : Served t.client k := by
  obtain ⟨hsub, hkinds⟩ := View.calls_frame hl (view s)
  rw [← hends.view] at hsub hkinds
  exact h.of_same hk (fun i _ => hends.has i) hsub hkinds

theorem Served.reply (h : Served s.client k) (hk : Market k) (o : Op) :
    Served (o.reply s).1.client k := by
  unfold Op.reply
  cases s.state.checkReady with
  | error e => exact h
  | ok u =>
    cases o with
    | subscribe i a =>
      show Served (subscribeTopic a i s).1.client k
      by_cases hkey : i.key = k
      · subst hkey
        exact h.subscribeTopic_self a
      · obtain ⟨hsub, hkinds⟩ := View.calls_frame (k := k) (l := subscribeCalls a i s)
          (fun x hx => key_of_mem_subscribeCalls hx ▸ hkey) (view s)
        rw [← view_subscribeTopic] at hsub hkinds
        refine h.of_same hk.1 ?_ hsub hkinds
        rintro j rfl
        exact has_subscribeTopic_ne a (ne_of_apply_ne MdIntent.key (Ne.symm hkey))
    | unsubscribe i a =>
      show Served (unsubscribeTopic a i s).1.client k
      by_cases hkey : i.key = k
      · subst hkey
        exact h.unsubscribeTopic_self a
      · obtain ⟨hsub, hkinds⟩ := View.calls_frame (k := k) (l := unsubscribeCalls a i s)
          (fun x hx => key_of_mem_unsubscribeCalls hx ▸ hkey) (view s)
        rw [← view_unsubscribeTopic] at hsub hkinds
        refine h.of_same hk.1 ?_ hsub hkinds
        rintro j rfl
        exact has_unsubscribeTopic_ne a (ne_of_apply_ne MdIntent.key (Ne.symm hkey))
    | subscribePnl a =>
      obtain ⟨pnl, hends, -⟩ := subscribePnl_ends a s
      exact h.of_ends hk.1 hends fun x hx => key_of_mem_subscribePnlCalls hx ▸ hk.2.symm
    | disconnectPnl a =>
      obtain ⟨pnl, hends, -⟩ := disconnectPnl_ends a s
      exact h.of_ends hk.1 hends fun x hx => key_of_mem_disconnectPnlCalls hx ▸ hk.2.symm
    | subscribeOrders b a =>
      obtain ⟨order, brackets, hends, -⟩ := subscribeOrders_ends a (deniedMsg b) b s
      exact h.of_ends hk.1 hends fun x hx => key_of_mem_subscribeOrdersCalls hx ▸ hk.1.symm
    | disconnectOrder a =>
      obtain ⟨order, brackets, hends, -⟩ := disconnectOrder_ends a s
      exact h.of_ends hk.1 hends fun x hx => key_of_mem_disconnectOrderCalls hx ▸ hk.1.symm
    | teardown d a => exact h

theorem Bounded.reply (h : Bounded s.client) (o : Op) : Bounded (o.reply s).1.client := by
  unfold Op.reply
  cases s.state.checkReady with
  | error e => exact h
  | ok u =>
    cases o with
    | subscribe i a => exact h.subscribeTopic a i
    | unsubscribe i a => exact h.unsubscribeTopic a i
    | subscribePnl a =>
      obtain ⟨pnl, hends, -⟩ := subscribePnl_ends a s
      exact hends.bounded h
    | disconnectPnl a =>
      obtain ⟨pnl, hends, -⟩ := disconnectPnl_ends a s
      exact hends.bounded h
    | subscribeOrders b a =>
      obtain ⟨order, brackets, hends, -⟩ := subscribeOrders_ends a (deniedMsg b) b s
      exact hends.bounded h
    | disconnectOrder a =>
      obtain ⟨order, brackets, hends, -⟩ := disconnectOrder_ends a s
      exact hends.bounded h
    | teardown d a => exact h

/-- An operation gives its session no market data but that of its own subscribe. -/
theorem has_reply {o : Op} {j : MdIntent} (h : (o.reply s).1.client.has j = true) :
    s.client.has j = true ∨ ∃ a, o = .subscribe j a := by
  unfold Op.reply at h
  cases hready : s.state.checkReady with
  | error e =>
    rw [hready] at h
    exact .inl h
  | ok u =>
    rw [hready] at h
    cases o with
    | subscribe i a =>
      by_cases hj : j = i
      · subst hj
        exact .inr ⟨a, rfl⟩
      · left
        rwa [← has_subscribeTopic_ne a hj]
    | unsubscribe i a => exact .inl (has_unsubscribeTopic a h)
    | subscribePnl a =>
      obtain ⟨pnl, hends, -⟩ := subscribePnl_ends a s
      exact .inl (hends.has j ▸ h)
    | disconnectPnl a =>
      obtain ⟨pnl, hends, -⟩ := disconnectPnl_ends a s
      exact .inl (hends.has j ▸ h)
    | subscribeOrders b a =>
      obtain ⟨order, brackets, hends, -⟩ := subscribeOrders_ends a (deniedMsg b) b s
      exact .inl (hends.has j ▸ h)
    | disconnectOrder a =>
      obtain ⟨order, brackets, hends, -⟩ := disconnectOrder_ends a s
      exact .inl (hends.has j ▸ h)
    | teardown d a => exact .inl h

end

/-! Whole runs. -/

/-- In every state of every run: the objects mirror the host, and on each topic of the market the hub
counts and knows the sessions that hold its data. -/
structure World.Routed (w : World) : Prop where
  mirrors : w.Mirrors
  served : ∀ k, Market k → ∀ id c, w.hosted.sessions.get? id = some c → Served c k
  bounded : ∀ id c, w.hosted.sessions.get? id = some c → Bounded c
  counted : ∀ k, Market k → w.net.Counted k

namespace World

variable {w w' : World} {e : Event}

theorem start_routed (hs : machine.Start w) : w.Routed := by
  have hmirrors := start_mirrors hs
  obtain ⟨⟨state, -, -, hhosted⟩, hnet⟩ := hs
  have hnone : ∀ id c, w.hosted.sessions.get? id ≠ some c := by
    intro id c hc
    rw [hhosted] at hc
    cases hc
  refine ⟨hmirrors, ?_, ?_, ?_⟩
  · intro k _ id c hc
    exact absurd hc (hnone id c)
  · intro id c hc
    exact absurd hc (hnone id c)
  · intro k _
    rw [hnet]
    refine ⟨?_, ∅, ?_, rfl⟩
    · rintro id t ⟨⟩
    · intro id
      exact iff_of_false (Finset.notMem_empty k) (Finset.notMem_empty id)

theorem step_routed (h : w.Routed) (hstep : w.step e = some w') : w'.Routed := by
  refine ⟨step_mirrors h.mirrors hstep, ?_, ?_, ?_⟩
  · intro k hk
    refine step_sessions (P := fun c => Served c k) ?_ ?_ (h.served k hk) hstep
    · exact ⟨iff_of_false (Finset.notMem_empty k) (by simp [SessionCtx.wantsMd, SessionCtx.hasBars]),
        fun hmem => absurd hmem (Finset.notMem_empty k)⟩
    · intro id o c _ _ hc
      exact Served.reply (s := ⟨w.hosted.state, c⟩) hc hk o
  · refine step_sessions ?_ ?_ h.bounded hstep
    · rintro k v ⟨⟩
    · intro id o c _ _ hc
      exact Bounded.reply (s := ⟨w.hosted.state, c⟩) hc o
  · intro k hk
    refine step_counted h.mirrors (h.counted k hk) ?_ hstep
    intro id c hc i hi hhas
    exact (h.served k hk id c hc).subscribed.mpr (SessionCtx.wantsMd_iff.mpr ⟨i, hhas, hi⟩)

end World

theorem routed_of_run {ok : World → Event → Prop} {trace : List Event} {w : World}
    (hr : machine.Run ok trace w) : w.Routed :=
  hr.invariant (fun _ => World.start_routed) fun _ _ _ h _ => World.step_routed h

/-- On symbols of the market no session holds market data on a reserved symbol. -/
theorem plain_of_run {trace : List Event} {w : World}
    (hr : machine.Run (fun w e => OnSymbols w.hosted e) trace w) :
    ∀ id c, w.hosted.sessions.get? id = some c → Plain c := by
  induction hr with
  | start hs =>
    intro id c hc
    obtain ⟨⟨state, -, -, hhosted⟩, -⟩ := hs
    rw [hhosted] at hc
    cases hc
  | next _ hok hstep ih =>
    refine World.step_sessions ?_ ?_ ih hstep
    · intro i hi
      cases i <;> cases hi
    · rintro id o c rfl _ hc i hi
      rcases has_reply hi with hold | ⟨a, rfl⟩
      · exact hc i hold
      · exact hok

/-! What is queued. -/

/-- The session holds the intent that asks for the kind on the topic. -/
def Asks (c : SessionCtx) (k : SubKey) : Kind → Bool
  | .any => false
  | .ticker => c.has (.ticker k)
  | .book => c.has (.book k)
  | .bars => c.hasBars k
  | .brackets => c.brackets && k = orderKey

theorem mask_bit_iff (c : SessionCtx) (k : SubKey) (kind : Kind) :
    c.mask k &&& kind.bit ≠ 0 ↔ Asks c k kind = true := by
  have hbits : ∀ ticker book bars brackets : Bool,
      (kindMask ticker book bars brackets &&& Kind.ticker.bit ≠ 0 ↔ ticker = true) ∧
      (kindMask ticker book bars brackets &&& Kind.book.bit ≠ 0 ↔ book = true) ∧
      (kindMask ticker book bars brackets &&& Kind.bars.bit ≠ 0 ↔ bars = true) ∧
      (kindMask ticker book bars brackets &&& Kind.brackets.bit ≠ 0 ↔ brackets = true) ∧
      kindMask ticker book bars brackets &&& Kind.any.bit = 0 := by decide
  obtain ⟨hticker, hbook, hbars, hbrackets, hany⟩ :=
    hbits (k ∈ c.ticker) (k ∈ c.book) (c.hasBars k) (c.brackets && k = orderKey)
  cases kind with
  | any => exact iff_of_false (fun hne => hne hany) Bool.false_ne_true
  | ticker => exact hticker
  | book => exact hbook
  | bars => exact hbars
  | brackets => exact hbrackets

namespace World

variable {w : World} {id : Nat} {c : SessionCtx} {k : SubKey} {kind : Kind}

/-- What reaches a session of one kind, it has asked for. -/
theorem Routed.asks_of_reaches (h : w.Routed) (hc : w.hosted.sessions.get? id = some c)
    (hkind : kind ≠ .any) (hreach : (w.net.wires id).Reaches k kind) : Asks c k kind = true := by
  obtain ⟨-, hany | ⟨v, hv, hbit⟩⟩ := hreach
  · exact absurd hany hkind
  · rw [h.mirrors.interest id c hc] at hv
    exact (mask_bit_iff c k kind).mp (h.bounded id c hc k v hv kind hbit)

/-- What a session asks for on a topic of the market reaches it. -/
theorem Routed.reaches_of_asks (h : w.Routed) (hc : w.hosted.sessions.get? id = some c)
    (hk : Market k) (hasks : Asks c k kind = true) : (w.net.wires id).Reaches k kind := by
  have hserved := h.served k hk id c hc
  have hwants : c.wantsMd k = true := by
    apply SessionCtx.wantsMd_iff.mpr
    cases kind with
    | any => cases hasks
    | ticker => exact ⟨.ticker k, hasks, rfl⟩
    | book => exact ⟨.book k, hasks, rfl⟩
    | bars =>
      obtain ⟨t, ht, hkey⟩ := hasBars_iff.mp hasks
      exact ⟨.timeBars t, ht, hkey⟩
    | brackets =>
      have hkey : k = orderKey := of_decide_eq_true (Bool.and_eq_true_iff.mp hasks).2
      exact absurd hkey hk.1
  have hmem := hserved.subscribed.mpr hwants
  refine ⟨?_, .inr ⟨c.mask k, ?_, (mask_bit_iff c k kind).mpr hasks⟩⟩
  · rw [h.mirrors.subscribed id c hc]
    exact hmem
  · rw [h.mirrors.interest id c hc]
    exact hserved.kinds hmem

theorem topicStream_of_symbol {symbol : String} (h : symbol ∉ reservedSymbols) :
    topicStream symbol = .ticker := by
  unfold topicStream
  split
  · next heq => exact absurd (by simp [reservedSymbols, heq]) h
  · split
    · next heq => exact absurd (by simp [reservedSymbols, heq]) h
    · rfl

/-- The kinds of market data. -/
def MarketKind (kind : Kind) : Prop := kind = .ticker ∨ kind = .book ∨ kind = .bars

theorem symbol_of_asks (hplain : Plain c) (hkind : MarketKind kind) (hasks : Asks c k kind = true) :
    k.symbol ∉ reservedSymbols := by
  rcases hkind with rfl | rfl | rfl
  · exact hplain (.ticker k) hasks
  · exact hplain (.book k) hasks
  · obtain ⟨t, ht, rfl⟩ := hasBars_iff.mp hasks
    exact hplain (.timeBars t) ht

/-- Market data of one kind, published on one topic. -/
theorem Routed.received_topic {event : PlantEvent} (h : w.Routed) (hplain : Plain c)
    (encoded : Nat → Bool) (hc : w.hosted.sessions.get? id = some c)
    (hroute : routeOf event = .topic k kind) (hkind : MarketKind kind)
    (hlane : streamOf event = if kind = .bars then .history else .ticker) :
    w.net.received encoded id event =
      if Asks c k kind then [(streamOf event, event)] else [] := by
  unfold Net.received Net.publishPlantEvent
  rw [hroute]
  dsimp only
  by_cases hasks : Asks c k kind = true
  · have hsymbol := symbol_of_asks hplain hkind hasks
    have hk : Market k := by
      constructor <;>
      · rintro rfl
        exact hsymbol (by decide)
    obtain ⟨d, hstream, hqueued⟩ : ∃ d : DeliveryTopic, d.stream = topicStream k.symbol ∧
        (w.net.publishAt encoded k kind event).filter (·.session = id) =
          [⟨id, d.lane (encoded id) kind event, event⟩] :=
      Net.filter_publishAt_of_reaches h.mirrors.linked (h.counted k hk).present
        (h.reaches_of_asks hc hk hasks)
    have hd : d.lane (encoded id) kind event = streamOf event := by
      unfold DeliveryTopic.lane
      rw [hstream, topicStream_of_symbol hsymbol, ← hlane]
      split <;> rfl
    rw [hqueued, if_pos hasks, List.map_singleton, hd]
  · have hany : kind ≠ .any := by
      rcases hkind with rfl | rfl | rfl <;> decide
    rw [Net.filter_publishAt_of_not_reaches h.mirrors.linked
      fun hreach => hasks (h.asks_of_reaches hc hany hreach), if_neg hasks]
    rfl

/-- A session that is gone receives nothing. -/
theorem Mirrors.received_of_gone (h : w.Mirrors) (encoded : Nat → Bool) (event : PlantEvent)
    (hgone : w.hosted.sessions.get? id = none) : w.net.received encoded id event = [] := by
  have hnot : ∀ k kind, ¬ (w.net.wires id).Reaches k kind := by
    rintro k kind ⟨hmem, -⟩
    rw [h.gone id hgone] at hmem
    cases hmem
  have hat : ∀ k kind,
      (w.net.publishAt encoded k kind event).filter (·.session = id) = [] :=
    fun k kind => Net.filter_publishAt_of_not_reaches h.linked (hnot k kind)
  have hsymbols : (w.net.publishSymbols encoded event).filter (·.session = id) = [] := by
    unfold Net.publishSymbols
    rw [List.filter_flatMap]
    apply List.flatMap_eq_nil_iff.mpr
    intro e he
    exact Net.filter_publish_of_not_reaches h.linked
      (Dict.mem_entries_iff.mp (List.mem_filter.mp he).1) (hnot e.1 .any)
  have hall : (w.net.publishPlantEvent encoded event).filter (·.session = id) = [] := by
    unfold Net.publishPlantEvent
    dsimp only
    split
    · exact hat ..
    · exact hsymbols
    · exact hsymbols
    · exact hat ..
    · exact hat ..
    · exact hat ..
    · exact hat ..
  unfold Net.received
  rw [hall]
  rfl

end World

/-- In every run on symbols of the market, whatever the venue answers, market data is queued once to
each session that holds it, and to no other. -/
theorem market_data_of_run {trace : List Event} {w : World}
    (hr : machine.Run (fun w e => OnSymbols w.hosted e) trace w) (encoded : Nat → Bool) (id : Nat)
    (symbol exchange : Option String) :
    let k : SubKey := ⟨text symbol, text exchange⟩
    (∀ c, w.hosted.sessions.get? id = some c →
      w.net.received encoded id (.lastTrade symbol exchange) =
        (if c.has (.ticker k) then [(.ticker, .lastTrade symbol exchange)] else []) ∧
      w.net.received encoded id (.bbo symbol exchange) =
        (if c.has (.ticker k) then [(.ticker, .bbo symbol exchange)] else []) ∧
      w.net.received encoded id (.orderBook symbol exchange) =
        (if c.has (.book k) then [(.ticker, .orderBook symbol exchange)] else []) ∧
      w.net.received encoded id (.timeBar symbol exchange) =
        (if c.hasBars k then [(.history, .timeBar symbol exchange)] else [])) ∧
    (w.hosted.sessions.get? id = none →
      w.net.received encoded id (.lastTrade symbol exchange) = [] ∧
      w.net.received encoded id (.bbo symbol exchange) = [] ∧
      w.net.received encoded id (.orderBook symbol exchange) = [] ∧
      w.net.received encoded id (.timeBar symbol exchange) = []) := by
  have h := routed_of_run hr
  constructor
  · intro c hc
    have hplain := plain_of_run hr id c hc
    exact ⟨h.received_topic hplain encoded hc rfl (.inl rfl) rfl,
      h.received_topic hplain encoded hc rfl (.inl rfl) rfl,
      h.received_topic hplain encoded hc rfl (.inr (.inl rfl)) rfl,
      h.received_topic hplain encoded hc rfl (.inr (.inr rfl)) rfl⟩
  · intro hgone
    have hnil := fun event => h.mirrors.received_of_gone encoded event hgone
    exact ⟨hnil _, hnil _, hnil _, hnil _⟩

def connectedWorld : World := ⟨connected, {}⟩

theorem connectedWorld_start : machine.Start connectedWorld := ⟨connected_start, rfl⟩

/-- Two sessions, of which one holds the ticker and has given up the book. -/
theorem market_data_of_two : ∃ w c,
    machine.Run (fun w e => OnSymbols w.hosted e)
      [.attach 1, .attach 2, .op 1 (.subscribe (.ticker nq) {}), .op 1 (.subscribe (.book nq) {}),
        .op 2 (.subscribe (.book nq) {}), .op 1 (.unsubscribe (.book nq) {})] w ∧
      w.hosted.sessions.get? 1 = some c ∧ c.has (.ticker nq) = true ∧ c.has (.book nq) = false ∧
      w.net.received (fun _ => false) 1 (.lastTrade (some "NQZ6") (some "CME")) =
        [(.ticker, .lastTrade (some "NQZ6") (some "CME"))] ∧
      w.net.received (fun _ => false) 1 (.orderBook (some "NQZ6") (some "CME")) = [] := by
  have hexec : ∃ w c, machine.exec (fun w e => OnSymbols w.hosted e) connectedWorld
      [.attach 1, .attach 2, .op 1 (.subscribe (.ticker nq) {}), .op 1 (.subscribe (.book nq) {}),
        .op 2 (.subscribe (.book nq) {}), .op 1 (.unsubscribe (.book nq) {})] = some w ∧
      w.hosted.sessions.get? 1 = some c ∧ c.has (.ticker nq) = true ∧
      c.has (.book nq) = false := ⟨_, _, rfl, rfl, rfl, rfl⟩
  obtain ⟨w, c, hexec, hc, hticker, hbook⟩ := hexec
  have hr := Machine.run_of_exec connectedWorld_start hexec
  obtain ⟨hlast, -, hbooks, -⟩ :=
    (market_data_of_run hr (fun _ => false) 1 (some "NQZ6") (some "CME")).1 c hc
  refine ⟨w, c, hr, hc, hticker, hbook, ?_, ?_⟩
  · rw [hlast]
    exact if_pos hticker
  · rw [hbooks]
    exact if_neg (by rw [show (⟨text (some "NQZ6"), text (some "CME")⟩ : SubKey) = nq from rfl, hbook]; decide)

end RithmicNt.Host.Fanout
