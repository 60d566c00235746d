import RithmicNt.Host.Delivery

/-! The operations on the account streams: the calls they make on the delivery of their session, and the
flags they leave in it. -/

namespace RithmicNt.Host.Fanout

open RithmicNt.Lib

/-- The scope `t` after the calls `l`, with the given account flags and otherwise the holdings of
`s`. -/
structure Ends (order brackets pnl : Bool) (s t : Scope) (l : List Call) : Prop where
  view : view t = l.foldl View.call (view s)
  holds : ∀ j, t.client.holds j = if j = .order then order else if j = .brackets then brackets
    else if j = .pnl then pnl else s.client.holds j
  bounded : Bounded s.client → Bounded t.client

namespace Ends

variable {order brackets pnl : Bool} {s t u : Scope} {l : List Call}

theorem refl (s : Scope) : Ends s.client.order s.client.brackets s.client.pnl s s [] := by
  refine ⟨rfl, ?_, id⟩
  intro j
  rcases j with (_ | _ | _) | _ | _ | _ <;> rfl

theorem order_eq (h : Ends order brackets pnl s t l) : t.client.order = order := h.holds .order

theorem brackets_eq (h : Ends order brackets pnl s t l) : t.client.brackets = brackets :=
  h.holds .brackets

theorem pnl_eq (h : Ends order brackets pnl s t l) : t.client.pnl = pnl := h.holds .pnl

theorem has (h : Ends order brackets pnl s t l) (i : MdIntent) : t.client.has i = s.client.has i :=
  h.holds (.md i)

/-- Steps that leave the session and the hub alone. -/
theorem same (h : Ends order brackets pnl s t l) (hsame : SameDelivery t u) :
    Ends order brackets pnl s u l := by
  refine ⟨hsame.view.trans h.view, ?_, ?_⟩
  · rw [hsame.client]
    exact h.holds
  · rw [hsame.client]
    exact h.bounded

theorem setOrder (h : Ends order brackets pnl s t l) (b : Bool) :
    Ends b brackets pnl s (t.setOrder b) l := by
  refine ⟨h.view, ?_, h.bounded⟩
  intro j
  rw [holds_setOrder, h.holds j]
  by_cases hj : j = .order <;> simp [hj]

theorem setPnl (h : Ends order brackets pnl s t l) (b : Bool) :
    Ends order brackets b s (t.setPnl b) l := by
  refine ⟨h.view, ?_, h.bounded⟩
  intro j
  rw [holds_setPnl, h.holds j]
  by_cases hj : j = .pnl <;> simp [hj]

theorem setBrackets (h : Ends order brackets pnl s t l) (b : Bool) :
    Ends order b pnl s (t.setBrackets b) (l ++ [syncBrackets s.client b]) := by
  refine ⟨?_, ?_, fun hs => (h.bounded hs).setBrackets b⟩
  · have hmask : ({ t.client with brackets := b } : SessionCtx).mask orderKey =
        ({ s.client with brackets := b } : SessionCtx).mask orderKey :=
      mask_congr (c := { t.client with brackets := b }) (d := { s.client with brackets := b })
        h.has rfl orderKey
    rw [List.foldl_append, ← h.view]
    show Fanout.view (⟨t.state, { t.client with brackets := b }.syncKinds orderKey⟩ : Scope) = _
    rw [view_syncKinds, hmask]
    rfl
  · intro j
    rw [holds_setBrackets, h.holds j]
    by_cases hj : j = .brackets <;> simp [hj]

theorem attach (h : Ends order brackets pnl s t l) (key : SubKey) :
    Ends order brackets pnl s (Host.attachSharedTopic t key) (l ++ [.attach key]) := by
  refine ⟨?_, ?_, fun hs => (h.bounded hs).attachSharedTopic key⟩
  · rw [view_attachSharedTopic, h.view, List.foldl_append]
    rfl
  · intro j
    rw [attachSharedTopic_holds, h.holds j]

theorem rollback (h : Ends order brackets pnl s t l) (key : SubKey) (had : Bool) :
    Ends order brackets pnl s (Host.rollbackSharedTopic t key had) (l ++ rollbackCalls key had) := by
  refine ⟨?_, ?_, fun hs => (h.bounded hs).rollbackSharedTopic key had⟩
  · rw [view_rollbackSharedTopic, h.view, List.foldl_append]
  · cases had with
    | true => exact h.holds
    | false =>
      intro j
      exact (holds_dropDelivery t.client key j).trans (h.holds j)

theorem release (h : Ends order brackets pnl s t l) (key : SubKey) :
    Ends order brackets pnl s (Host.releaseTopic t key) (l ++ releaseTopicCalls t.client key) := by
  unfold Host.releaseTopic releaseTopicCalls
  by_cases hmem : key ∈ t.client.subscribed
  · rw [if_pos hmem, if_pos hmem]
    exact h.rollback key false
  · rw [if_neg hmem, if_neg hmem, List.append_nil]
    exact h

end Ends

section

variable (a : Answers) (s : Scope)

theorem checkReady_lockVenue :
    (s.lockVenue a).state.checkReady = .ok () ↔ a.ready = true := by
  show HostState.checkReady { s.state with ready := a.ready } = .ok () ↔ _
  unfold HostState.checkReady
  cases a.ready <;> simp

/-- Everything that a PnL subscribe can do. -/
theorem subscribePnl_cases :
    ((!s.state.session || !a.ready || s.client.pnl) = true ∧
      SameDelivery s (Host.subscribePnl a s).1) ∨
    ((!s.state.session || !a.ready || s.client.pnl) = false ∧ (Host.subscribePnl a s).2 = .ok () ∧
      SameDelivery ((Host.attachSharedTopic s pnlKey).setPnl true) (Host.subscribePnl a s).1) ∨
    ((!s.state.session || !a.ready || s.client.pnl) = false ∧
      ∃ e, (Host.subscribePnl a s).2 = .error e ∧
        SameDelivery (rollbackSharedTopic ((Host.attachSharedTopic s pnlKey).setPnl false) pnlKey
          (pnlKey ∈ s.client.subscribed)) (Host.subscribePnl a s).1) := by
  unfold Host.subscribePnl
  split
  · next hsession => exact .inl ⟨by simp only [hsession, Bool.true_or], rfl, rfl⟩
  · next hsession =>
    have hsession : (!s.state.session) = false := by simpa using hsession
    dsimp only
    split
    · next e hready =>
      have hready : a.ready = false := by
        by_contra hne
        rw [(checkReady_lockVenue a s).mpr (by simpa using hne)] at hready
        cases hready
      exact .inl ⟨by simp [hready], rfl, rfl⟩
    · next hready =>
      have hready := (checkReady_lockVenue a s).mp hready
      have hlock : SameDelivery s (s.lockVenue a) := ⟨rfl, rfl⟩
      have hattach := hlock.attach pnlKey
      split
      · next hpnl =>
        have hpnl : s.client.pnl = true := hpnl
        exact .inl ⟨by simp [hpnl], rfl, rfl⟩
      · next hpnl =>
        have hpnl : ¬ s.client.pnl = true := hpnl
        have hpnl : s.client.pnl = false := by simpa using hpnl
        right
        split
        · refine .inl ⟨by simp [hsession, hready, hpnl], rfl, ?_, hattach.hub⟩
          show { (Host.attachSharedTopic (s.lockVenue a) pnlKey).client with pnl := true } = _
          rw [hattach.client]
          rfl
        · next e _ =>
          refine .inr ⟨by simp [hsession, hready, hpnl], _, rfl, SameDelivery.rollback ⟨?_, ?_⟩ _ _⟩
          · show { (Host.attachSharedTopic (s.lockVenue a) pnlKey).client with pnl := false } = _
            rw [hattach.client]
            rfl
          · exact hattach.hub

theorem subscribePnl_ends : ∃ pnl, Ends s.client.order s.client.brackets pnl s
      (Host.subscribePnl a s).1 (subscribePnlCalls a s) ∧
    ((subscribePnlCalls a s = [] ∧ pnl = s.client.pnl) ∨
      (subscribePnlCalls a s = [.attach pnlKey] ∧ pnl = true) ∨
      (subscribePnlCalls a s =
          .attach pnlKey :: rollbackCalls pnlKey (pnlKey ∈ s.client.subscribed) ∧
        s.client.pnl = false ∧ pnl = false)) := by
  have hrefl := Ends.refl s
  unfold subscribePnlCalls
  rcases subscribePnl_cases a s with ⟨hnone, h⟩ | ⟨hcan, hok, h⟩ | ⟨hcan, e, he, h⟩
  · rw [if_pos hnone]
    exact ⟨_, hrefl.same h, .inl ⟨rfl, rfl⟩⟩
  · rw [if_neg (by simp [hcan]), hok]
    exact ⟨true, ((hrefl.attach pnlKey).setPnl true).same h, .inr (.inl ⟨rfl, rfl⟩)⟩
  · rw [if_neg (by simp [hcan]), he]
    have hpnl : s.client.pnl = false := by
      rw [Bool.or_eq_false_iff] at hcan
      exact hcan.2
    exact ⟨false, (((hrefl.attach pnlKey).setPnl false).rollback pnlKey _).same h,
      .inr (.inr ⟨rfl, hpnl, rfl⟩)⟩

theorem leavePnl_ends : ∃ t,
    (leavePnl a true s = (t, .ok ()) ∧ Ends s.client.order s.client.brackets false s t []) ∨
    ∃ e, leavePnl a true s = (t, .error e) ∧
      Ends s.client.order s.client.brackets s.client.pnl s t [] := by
  have hrefl := Ends.refl s
  unfold leavePnl
  cases hpnl : s.client.pnl with
  | false =>
    rw [hpnl] at hrefl
    exact ⟨s, .inl ⟨rfl, hrefl⟩⟩
  | true =>
    have hleft : Ends s.client.order s.client.brackets false s ((s.setPnl false).forget .pnl) [] :=
      (hrefl.setPnl false).same ⟨rfl, rfl⟩
    rw [if_neg (by simp)]
    dsimp only
    split
    · split
      · exact ⟨_, .inl ⟨rfl, hleft⟩⟩
      · have hback : Ends s.client.order s.client.brackets false s
            (((s.setPnl false).forget .pnl).note .pnl) [] := hleft.same ⟨rfl, rfl⟩
        exact ⟨_, .inr ⟨_, rfl, hback.setPnl true⟩⟩
    · exact ⟨_, .inl ⟨rfl, hleft⟩⟩

/-- Everything that a PnL disconnect can do. -/
theorem disconnectPnl_ends : ∃ pnl, Ends s.client.order s.client.brackets pnl s
      (Host.disconnectPnl a s).1 (disconnectPnlCalls a s) ∧
    ((disconnectPnlCalls a s = [] ∧ pnl = s.client.pnl) ∨
      (disconnectPnlCalls a s = releaseTopicCalls s.client pnlKey ∧ pnl = false)) := by
  unfold disconnectPnlCalls Host.disconnectPnl
  obtain ⟨t, ⟨ht, h⟩ | ⟨e, ht, h⟩⟩ := leavePnl_ends a s
  · rw [ht]
    have hrelease := h.release pnlKey
    have hsub : t.client.subscribed = s.client.subscribed := congrArg View.subscribed h.view
    refine ⟨false, ?_, .inr ⟨rfl, rfl⟩⟩
    unfold releaseTopicCalls at hrelease ⊢
    rwa [hsub] at hrelease
  · rw [ht]
    exact ⟨_, h, .inl ⟨rfl, rfl⟩⟩

/-- Calls of `sync_kinds` on the order topic. -/
def Syncs (l : List Call) : Prop := ∀ c ∈ l, ∃ mask, c = .sync orderKey mask

theorem syncs_nil : Syncs [] := by
  intro c hc
  cases hc

theorem syncs_ite (p : Prop) [Decidable p] (c : SessionCtx) (b : Bool) :
    Syncs (if p then [syncBrackets c b] else []) := by
  split
  · intro x hx
    obtain rfl := List.mem_singleton.mp hx
    exact ⟨_, rfl⟩
  · exact syncs_nil

theorem Syncs.append {l l' : List Call} (h : Syncs l) (h' : Syncs l') : Syncs (l ++ l') := by
  intro c hc
  rcases List.mem_append.mp hc with hc | hc
  · exact h c hc
  · exact h' c hc

theorem Syncs.subscribed {l : List Call} (h : Syncs l) (v : View) :
    (l.foldl View.call v).subscribed = v.subscribed := by
  induction l generalizing v with
  | nil => rfl
  | cons c l ih =>
    obtain ⟨mask, rfl⟩ := h c List.mem_cons_self
    rw [List.foldl_cons, ih fun x hx => h x (List.mem_cons_of_mem _ hx)]
    show (View.call v (.sync orderKey mask)).subscribed = _
    unfold View.call
    dsimp only
    split <;> rfl

section

variable {a s} {order brackets pnl : Bool} {t : Scope} {l : List Call}

theorem Ends.noteStreams (h : Ends order brackets pnl s t l) (needOrder needBrackets : Bool) :
    Ends (order || needOrder) (brackets || needBrackets) pnl s
      (Host.noteStreams needOrder needBrackets t)
      (l ++ if needBrackets then [syncBrackets s.client true] else []) := by
  rw [noteStreams_eq]
  have horder : Ends (order || needOrder) brackets pnl s
      (if needOrder then (t.note .order).setOrder true else t) l := by
    cases needOrder with
    | false => simpa using h
    | true =>
      have hnoted : Ends order brackets pnl s (t.note .order) l := h.same ⟨rfl, rfl⟩
      simpa using hnoted.setOrder true
  cases needBrackets with
  | false => simpa using horder
  | true =>
    have hnoted := horder.same (u := (if needOrder then (t.note .order).setOrder true else t).note
      .brackets) ⟨rfl, rfl⟩
    simpa using hnoted.setBrackets true

theorem Ends.rollbackIntroductions (h : Ends true brackets pnl s t l) (a : Answers)
    (had introducedOrder introducedBrackets : Bool) :
    ∃ order, Ends order (brackets && !introducedBrackets) pnl s
        (rollbackOrderPlantStreamIntroductions a t had introducedOrder introducedBrackets)
        (l ++ (if introducedBrackets then [syncBrackets s.client false] else []) ++
          if introducedOrder && !order then rollbackCalls orderKey had else []) ∧
      (introducedOrder = false → order = true) := by
  unfold rollbackOrderPlantStreamIntroductions
  dsimp only
  have hcleared : Ends true (brackets && !introducedBrackets) pnl s
      (if introducedBrackets then (t.setBrackets false).forget .brackets else t)
      (l ++ if introducedBrackets then [syncBrackets s.client false] else []) := by
    cases introducedBrackets with
    | false => simpa using h
    | true =>
      have hcleared := (h.setBrackets false).same (u := (t.setBrackets false).forget .brackets)
        ⟨rfl, rfl⟩
      simpa using hcleared
  generalize (if introducedBrackets then (t.setBrackets false).forget .brackets else t) = u
    at hcleared ⊢
  cases introducedOrder with
  | false => exact ⟨true, by simpa using hcleared, fun _ => rfl⟩
  | true =>
    have hleft : Ends false (brackets && !introducedBrackets) pnl s
        ((u.setOrder false).forget .order) _ := (hcleared.setOrder false).same ⟨rfl, rfl⟩
    simp only [Bool.not_true, Bool.false_eq_true, if_false, Bool.true_and]
    split
    · split
      · exact ⟨false, by simpa using hleft.rollback orderKey had, by simp⟩
      · have hback := hleft.same (u := ((u.setOrder false).forget .order).note .order) ⟨rfl, rfl⟩
        exact ⟨true, by simpa using hback.setOrder true, by simp⟩
    · exact ⟨false, by simpa using hleft.rollback orderKey had, by simp⟩

end

end

/-- Everything that a subscribe of order or bracket updates can do. -/
theorem subscribeOrders_cases (a : Answers) (deniedMsg : String) (wantBrackets : Bool) (s : Scope) :
    let needOrder := !s.client.order
    let needBrackets := wantBrackets && !s.client.brackets
    let refused := !s.state.trading || (!needOrder && !needBrackets)
    let noted := noteStreams needOrder needBrackets (Host.attachSharedTopic s orderKey)
    let r := subscribeOrderPlantStream a deniedMsg wantBrackets s
    (refused = true ∧ r.1 = s) ∨
    (refused = false ∧ r.2 = .ok () ∧ r.1 = noted) ∨
    (refused = false ∧ ∃ e, r.2 = .error e ∧
      r.1 = rollbackOrderPlantStreamIntroductions a noted (orderKey ∈ s.client.subscribed) needOrder
        needBrackets) := by
  unfold subscribeOrderPlantStream
  dsimp only
  cases htrading : s.state.trading with
  | false => exact .inl ⟨rfl, rfl⟩
  | true =>
    simp only [Bool.not_true, Bool.false_or, Bool.false_eq_true, if_false]
    split
    · next hneed => exact .inl ⟨hneed, rfl⟩
    · next hneed =>
      have hneed := eq_false_of_ne_true hneed
      right
      split
      · exact .inr ⟨hneed, _, rfl, rfl⟩
      · split
        · exact .inl ⟨hneed, rfl, rfl⟩
        · exact .inr ⟨hneed, _, rfl, rfl⟩

theorem subscribeOrders_ends (a : Answers) (deniedMsg : String) (wantBrackets : Bool) (s : Scope) :
    ∃ order brackets, Ends order brackets s.client.pnl s
        (subscribeOrderPlantStream a deniedMsg wantBrackets s).1
        (subscribeOrdersCalls a deniedMsg wantBrackets s) ∧
      ((subscribeOrdersCalls a deniedMsg wantBrackets s = [] ∧ order = s.client.order) ∨
        ∃ l, Syncs l ∧
          ((subscribeOrdersCalls a deniedMsg wantBrackets s = .attach orderKey :: l ∧ order = true) ∨
            (subscribeOrdersCalls a deniedMsg wantBrackets s =
                .attach orderKey :: (l ++ rollbackCalls orderKey (orderKey ∈ s.client.subscribed)) ∧
              s.client.order = false ∧ order = false))) := by
  have hrefl := Ends.refl s
  have hcases := subscribeOrders_cases a deniedMsg wantBrackets s
  unfold subscribeOrdersCalls
  dsimp only at hcases ⊢
  generalize subscribeOrderPlantStream a deniedMsg wantBrackets s = r at hcases ⊢
  generalize (wantBrackets && !s.client.brackets) = needBrackets at hcases ⊢
  have hnoted := (hrefl.attach orderKey).noteStreams (!s.client.order) needBrackets
  rw [show (s.client.order || !s.client.order) = true by simp] at hnoted
  rcases hcases with ⟨hrefused, hr⟩ | ⟨hrefused, hok, hr⟩ | ⟨hrefused, e, he, hr⟩
  · rw [if_pos hrefused, hr]
    exact ⟨_, _, hrefl, .inl ⟨rfl, rfl⟩⟩
  · rw [if_neg (by rw [hrefused]; simp), hok, hr]
    refine ⟨true, _, by simpa using hnoted, .inr ⟨_, syncs_ite (needBrackets = true) s.client true, .inl ⟨?_, rfl⟩⟩⟩
    dsimp only
    rw [List.append_nil]
  · rw [if_neg (by rw [hrefused]; simp), he]
    obtain ⟨order, hback, horder⟩ := hnoted.rollbackIntroductions a
      (orderKey ∈ s.client.subscribed) (!s.client.order) needBrackets
    rw [← hr] at hback
    have horderEq : r.1.client.order = order := hback.order_eq
    dsimp only
    rw [horderEq]
    have hsyncs := (syncs_ite (needBrackets = true) s.client true).append
      (syncs_ite (needBrackets = true) s.client false)
    refine ⟨order, _, by simpa using hback, .inr ⟨_, hsyncs, ?_⟩⟩
    cases order with
    | true =>
      left
      simp
    | false =>
      right
      have hno : s.client.order = false := by
        by_contra hne
        exact absurd (horder (by simpa using hne)) (by decide)
      simp [hno]

theorem forgetOrderStreams_ends (s : Scope) :
    Ends false false s.client.pnl s (forgetOrderStreams s)
      (if s.client.brackets then [syncBrackets s.client false] else []) := by
  have hrefl := Ends.refl s
  have hcleared : Ends s.client.order false s.client.pnl s (clearClientBrackets s)
      (if s.client.brackets then [syncBrackets s.client false] else []) := by
    unfold clearClientBrackets
    cases hbr : s.client.brackets with
    | false =>
      rw [hbr] at hrefl
      simpa using hrefl
    | true =>
      have hcleared := (hrefl.setBrackets false).same (u := (s.setBrackets false).forget .brackets)
        ⟨rfl, rfl⟩
      simpa using hcleared
  unfold forgetOrderStreams
  dsimp only
  split
  · exact (hcleared.setOrder false).same ⟨rfl, rfl⟩
  · next hno =>
    rw [hcleared.order_eq] at hno
    have hno : s.client.order = false := by simpa using hno
    rwa [hno] at hcleared

/-- Everything that an order disconnect can do to the account flags. -/
theorem leaveOrder_ends (a : Answers) (s : Scope) : ∃ t,
    (leaveOrder a true s = (t, .ok ()) ∧ Ends false false s.client.pnl s t
      (if s.client.brackets then [syncBrackets s.client false] else [])) ∨
    (∃ e, leaveOrder a true s = (t, .error e) ∧
      Ends s.client.order s.client.brackets s.client.pnl s t
        ((if s.client.brackets then [syncBrackets s.client false] else []) ++
          if s.client.brackets then [syncBrackets s.client true] else [])) ∨
    ∃ e, leaveOrder a true s = (t, .error e) ∧ FailedReseat a s ∧ Ends false false s.client.pnl s t
      (if s.client.brackets then [syncBrackets s.client false] else []) := by
  have hleft := forgetOrderStreams_ends s
  unfold leaveOrder
  by_cases hnone : (!s.client.order && !s.client.brackets) = true
  · rw [if_pos hnone]
    simp only [Bool.and_eq_true, Bool.not_eq_true'] at hnone
    have hrefl := Ends.refl s
    rw [hnone.1, hnone.2] at hrefl
    refine ⟨s, .inl ⟨rfl, ?_⟩⟩
    rw [hnone.2]
    exact hrefl
  · rw [if_neg hnone]
    dsimp only
    cases hdisc : (if (lastOrder s && s.state.session) = true then a.disconnectOrderPlant
        else .ok ()) with
    | error e =>
      have hlast : s.client.order = true := by
        by_contra hno
        have hno : s.client.order = false := by simpa using hno
        simp [lastOrder, hno] at hdisc
      have hback := (hleft.same (u := (forgetOrderStreams s).note .order) ⟨rfl, rfl⟩).setOrder true
      dsimp only
      rw [if_pos rfl]
      cases hbr : s.client.brackets with
      | false =>
        rw [hbr] at hback
        refine ⟨_, .inr (.inl ⟨_, rfl, ?_⟩)⟩
        rw [hlast]
        simpa using hback
      | true =>
        have hnoted := hback.same
          (u := (((forgetOrderStreams s).note .order).setOrder true).note .brackets) ⟨rfl, rfl⟩
        refine ⟨_, .inr (.inl ⟨_, rfl, ?_⟩)⟩
        rw [hlast]
        rw [hbr] at hnoted
        exact hnoted.setBrackets true
    | ok u =>
      dsimp only
      by_cases hre : reseats s = true
      · rw [if_pos hre]
        cases hseated : reseatOrderPlantWithoutBrackets a s with
        | ok u => exact ⟨_, .inl ⟨rfl, hleft⟩⟩
        | error e =>
          have hfailed : FailedReseat a s := by
            unfold reseatOrderPlantWithoutBrackets at hseated
            split at hseated
            · next hs => exact ⟨hre, hs, by rw [hseated]; rfl⟩
            · cases hseated
          exact ⟨_, .inr (.inr ⟨_, rfl, hfailed, hleft.same ⟨rfl, rfl⟩⟩)⟩
      · rw [if_neg hre]
        exact ⟨_, .inl ⟨rfl, hleft⟩⟩

theorem disconnectOrder_ends (a : Answers) (s : Scope) : ∃ order brackets,
    Ends order brackets s.client.pnl s (Host.disconnectOrder a s).1 (disconnectOrderCalls a s) ∧
      ∃ l, Syncs l ∧
        ((disconnectOrderCalls a s = l ++ releaseTopicCalls s.client orderKey ∧ order = false) ∨
          (disconnectOrderCalls a s = l ∧ (order = s.client.order ∨ FailedReseat a s))) := by
  have hsyncs := syncs_ite (s.client.brackets = true) s.client false
  unfold disconnectOrderCalls Host.disconnectOrder
  obtain ⟨t, ⟨ht, h⟩ | ⟨e, ht, h⟩ | ⟨e, ht, hfailed, h⟩⟩ := leaveOrder_ends a s
  · rw [ht]
    have hsub : t.client.subscribed = s.client.subscribed :=
      (congrArg View.subscribed h.view).trans (hsyncs.subscribed (view s))
    have hrelease := h.release orderKey
    refine ⟨false, false, ?_, _, hsyncs, .inl ⟨rfl, rfl⟩⟩
    unfold releaseTopicCalls at hrelease ⊢
    rwa [hsub] at hrelease
  · rw [ht]
    have hbr : t.client.brackets = s.client.brackets := h.brackets_eq
    refine ⟨s.client.order, s.client.brackets, ?_, _,
      hsyncs.append (syncs_ite (s.client.brackets = true) s.client true), .inr ⟨?_, .inl rfl⟩⟩
    · dsimp only
      rw [hbr]
      exact h
    · dsimp only
      rw [hbr]
  · rw [ht]
    have hbr : t.client.brackets = false := h.brackets_eq
    refine ⟨false, false, ?_, _, hsyncs, .inr ⟨?_, .inr hfailed⟩⟩
    · dsimp only
      rw [hbr]
      simpa using h
    · dsimp only
      rw [hbr]
      simp

end RithmicNt.Host.Fanout
