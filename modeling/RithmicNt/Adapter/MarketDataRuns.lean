import RithmicNt.Adapter.MarketData

/-! Runs of the market data client: what is stored is of the epoch of the next event, because every
break between the two is still to be met, as a gap further on or as a reconcile that has not run. -/

namespace RithmicNt.Adapter.MarketData

open RithmicNt.Lib

variable {π δ : Type}

/-! ### The order of what is left -/

/-- The second item was queued after the first; a gap after an event begins a later epoch. -/
def Item.Precedes (a b : Item π δ) : Prop :=
  a.epoch ≤ b.epoch ∧ ∀ epoch, b = .gap epoch → a.epoch < epoch

/-- Every break after an epoch is a gap that is left, or a `Resumed` whose reconcile has not run. -/
def ToCome (items : List (Item π δ)) (epoch : Nat) (owed : List Nat) (e : Nat) : Prop :=
  ∀ k, e < k → k ≤ epoch → .gap k ∈ items ∨ k ∈ owed

/-- The items that are left, in the order of their epochs. -/
structure Flow (items : List (Item π δ)) (epoch : Nat) (owed : List Nat) : Prop where
  sorted : items.Pairwise Item.Precedes
  bound : ∀ i ∈ items, i.epoch ≤ epoch
  toCome : ∀ p, .event p ∈ items → ToCome items epoch owed p.epoch

/-- An epoch that nothing left is before, with its breaks still to come. -/
structure Current (items : List (Item π δ)) (epoch : Nat) (owed : List Nat) (e : Nat) : Prop where
  bound : e ≤ epoch
  first : ∀ i ∈ items, e ≤ i.epoch
  toCome : ToCome items epoch owed e

section Items

variable {items : List (Item π δ)} {epoch e : Nat} {owed : List Nat}

theorem ToCome.gap (h : ToCome items epoch owed e) :
    ToCome (items ++ [Item.gap (epoch + 1)]) (epoch + 1) owed e := by
  intro k hlt hle
  by_cases hk : k = epoch + 1
  · left
    simp [hk]
  · obtain hgap | howed := h k hlt (by omega)
    · exact .inl (List.mem_append_left _ hgap)
    · exact .inr howed

theorem ToCome.push (h : ToCome items epoch owed e) (i : Item π δ) :
    ToCome (items ++ [i]) epoch owed e := by
  intro k hlt hle
  obtain hgap | howed := h k hlt hle
  · exact .inl (List.mem_append_left _ hgap)
  · exact .inr howed

theorem ToCome.resumed (h : ToCome items epoch owed e) :
    ToCome items (epoch + 1) (owed ++ [epoch + 1]) e := by
  intro k hlt hle
  by_cases hk : k = epoch + 1
  · right
    simp [hk]
  · obtain hgap | howed := h k hlt (by omega)
    · exact .inl hgap
    · exact .inr (List.mem_append_left _ howed)

/-- A reconcile takes nothing from an epoch that it is not after. -/
theorem ToCome.reconcile (h : ToCome items epoch owed e) {t : Nat} (ht : t ≤ e) :
    ToCome items epoch (owed.filter fun k => t < k) e := by
  intro k hlt hle
  obtain hgap | howed := h k hlt hle
  · exact .inl hgap
  · right
    rw [List.mem_filter]
    exact ⟨howed, decide_eq_true (by omega)⟩

/-- The first item takes nothing from an epoch that it does not come after. -/
theorem ToCome.tail {i : Item π δ} (h : ToCome (i :: items) epoch owed e)
    (hi : ∀ k, i = .gap k → k ≤ e) : ToCome items epoch owed e := by
  intro k hlt hle
  obtain hgap | howed := h k hlt hle
  · obtain heq | hgap := List.mem_cons.mp hgap
    · have := hi k heq.symm
      omega
    · exact .inl hgap
  · exact .inr howed

theorem Flow.push (h : Flow items epoch owed) (event : Event π δ) :
    Flow (items ++ [Item.event ⟨event, epoch⟩]) epoch owed := by
  refine ⟨?_, ?_, ?_⟩
  · refine List.pairwise_append.mpr ⟨h.sorted, List.pairwise_singleton _ _, ?_⟩
    intro a ha b hb
    rw [List.mem_singleton.mp hb]
    exact ⟨h.bound a ha, by simp⟩
  · intro i hi
    obtain hi | hi := List.mem_append.mp hi
    · exact h.bound i hi
    · rw [List.mem_singleton.mp hi]
      exact le_rfl
  · intro p hp
    obtain hp | hp := List.mem_append.mp hp
    · exact (h.toCome p hp).push _
    · cases List.mem_singleton.mp hp
      intro k hlt hle
      simp only at hlt
      omega

theorem Flow.gap (h : Flow items epoch owed) :
    Flow (items ++ [Item.gap (epoch + 1)]) (epoch + 1) owed := by
  refine ⟨?_, ?_, ?_⟩
  · refine List.pairwise_append.mpr ⟨h.sorted, List.pairwise_singleton _ _, ?_⟩
    intro a ha b hb
    have hbound := h.bound a ha
    rw [List.mem_singleton.mp hb]
    refine ⟨Nat.le_succ_of_le hbound, ?_⟩
    rintro k ⟨⟩
    omega
  · intro i hi
    obtain hi | hi := List.mem_append.mp hi
    · have := h.bound i hi
      omega
    · rw [List.mem_singleton.mp hi]
      exact le_rfl
  · intro p hp
    obtain hp | hp := List.mem_append.mp hp
    · exact (h.toCome p hp).gap
    · cases List.mem_singleton.mp hp

theorem Flow.resumed (h : Flow items epoch owed) :
    Flow items (epoch + 1) (owed ++ [epoch + 1]) := by
  refine ⟨h.sorted, fun i hi => ?_, fun p hp => (h.toCome p hp).resumed⟩
  have := h.bound i hi
  omega

theorem Flow.reconcile (h : Flow items epoch owed) {t : Nat} (ht : ∀ i ∈ items, i.Since t) :
    Flow items epoch (owed.filter fun k => t < k) :=
  ⟨h.sorted, h.bound, fun p hp => (h.toCome p hp).reconcile (ht _ hp)⟩

theorem Flow.tail {i : Item π δ} (h : Flow (i :: items) epoch owed) : Flow items epoch owed := by
  obtain ⟨hhead, htail⟩ := List.pairwise_cons.mp h.sorted
  refine ⟨htail, fun j hj => h.bound j (by simp [hj]), fun p hp => ?_⟩
  refine (h.toCome p (by simp [hp])).tail ?_
  rintro k rfl
  exact (hhead _ hp).1

theorem Current.push (h : Current items epoch owed e) (event : Event π δ) :
    Current (items ++ [Item.event ⟨event, epoch⟩]) epoch owed e := by
  refine ⟨h.bound, fun i hi => ?_, h.toCome.push _⟩
  obtain hi | hi := List.mem_append.mp hi
  · exact h.first i hi
  · rw [List.mem_singleton.mp hi]
    exact h.bound

theorem Current.gap (h : Current items epoch owed e) :
    Current (items ++ [Item.gap (epoch + 1)]) (epoch + 1) owed e := by
  have hbound := h.bound
  refine ⟨Nat.le_succ_of_le hbound, fun i hi => ?_, h.toCome.gap⟩
  obtain hi | hi := List.mem_append.mp hi
  · exact h.first i hi
  · rw [List.mem_singleton.mp hi]
    exact Nat.le_succ_of_le hbound

theorem Current.resumed (h : Current items epoch owed e) :
    Current items (epoch + 1) (owed ++ [epoch + 1]) e :=
  ⟨Nat.le_succ_of_le h.bound, h.first, h.toCome.resumed⟩

/-- The epoch of the event at the front is the one that is current once it is taken. -/
theorem Flow.current {p : Pushed π δ} (h : Flow (.event p :: items) epoch owed) :
    Current items epoch owed p.epoch := by
  obtain ⟨hhead, -⟩ := List.pairwise_cons.mp h.sorted
  refine ⟨h.bound (.event p) (by simp), fun i hi => (hhead i hi).1, ?_⟩
  refine (h.toCome p (by simp)).tail ?_
  simp

/-- With no reconcile owed before it, the event at the front is of the current epoch: no gap comes
before it. -/
theorem Current.eq_front {p : Pushed π δ} (h : Current (.event p :: items) epoch owed e)
    (hflow : Flow (.event p :: items) epoch owed) (howed : ∀ t ∈ owed, p.epoch < t) : e = p.epoch := by
  have hle : e ≤ p.epoch := h.first (.event p) (by simp)
  have hbound : p.epoch ≤ epoch := hflow.bound (.event p) (by simp)
  by_contra hne
  obtain hgap | hmem := h.toCome (e + 1) (by omega) (by omega)
  · obtain ⟨hhead, -⟩ := List.pairwise_cons.mp hflow.sorted
    obtain heq | hgap := List.mem_cons.mp hgap
    · cases heq
    · have hlt : p.epoch < e + 1 := (hhead _ hgap).2 _ rfl
      omega
  · have := howed _ hmem
    omega

end Items

/-! ### The invariant -/

/-- The ticker loop does not wait for the resync lock. -/
def State.NotWaiting (s : State π δ) : Prop := ∀ g, s.resync .ticker ≠ .waiting g

/-- While the ticker loop waits for the resync lock, what it stores is about to be dropped. -/
structure State.Inv (s : State π δ) : Prop where
  flow : Flow s.remaining s.epoch s.owed
  stored : s.NotWaiting → ∀ e, s.client.Holds e → Current s.remaining s.epoch s.owed e
  waits : s.resync .ticker = .idle ∨ ∃ rest, s.poller = .resyncing rest
  unbroken : ∀ o ∈ s.emitted, o.Unbroken

namespace State

variable {s s' : State π δ}

/-- Steps that change none of what is left, of the epochs and of the outputs. -/
theorem Inv.of_same (h : s.Inv) (hremaining : s'.remaining = s.remaining) (hepoch : s'.epoch = s.epoch)
    (howed : s'.owed = s.owed) (hemitted : s'.emitted = s.emitted)
    (hstored : s'.NotWaiting → ∀ e, s'.client.Holds e → s.NotWaiting ∧ s.client.Holds e)
    (hwaits : s'.resync .ticker = .idle ∨ ∃ rest, s'.poller = .resyncing rest) : s'.Inv := by
  refine ⟨?_, fun hnot e he => ?_, hwaits, ?_⟩
  · rw [hremaining, hepoch, howed]
    exact h.flow
  · obtain ⟨hnot, he⟩ := hstored hnot e he
    rw [hremaining, hepoch, howed]
    exact h.stored hnot e he
  · rw [hemitted]
    exact h.unbroken

theorem Inv.idle_of (h : s.Inv) (hpoller : ∀ rest, s.poller ≠ .resyncing rest) :
    s.resync .ticker = .idle := by
  obtain hidle | ⟨rest, hrest⟩ := h.waits
  · exact hidle
  · exact absurd hrest (hpoller rest)

/-- A loop that takes the resync lock drops what is stored. -/
theorem Inv.enter (h : s.Inv) {loop : Loop}
    (hloop : loop = .ticker → ∃ rest, s.poller = .resyncing rest) : (s.enter loop).Inv := by
  refine h.of_same rfl rfl rfl rfl (fun _ e he => absurd he s.client.not_holds_clear) ?_
  cases loop with
  | ticker => exact .inr (hloop rfl)
  | history => exact h.waits

theorem Inv.beginHistory (h : s.Inv) : (s.beginResync .history).Inv := by
  unfold beginResync
  split
  · exact h.enter (by simp)
  · exact h.of_same rfl rfl rfl rfl (fun hnot e he => ⟨hnot, he⟩) h.waits

/-- The end of a resync; of the ticker's, where nothing is stored or it did not wait. -/
theorem Inv.endResync (h : s.Inv) {loop : Loop}
    (hstored : loop = .ticker → ∀ e, s.client.Holds e → s.NotWaiting) : (s.endResync loop).Inv := by
  have hremaining : (s.endResync loop).remaining = s.remaining := by
    unfold State.endResync State.remaining
    cases loop with
    | ticker => cases s.poller <;> rfl
    | history => rfl
  cases loop with
  | ticker =>
    refine h.of_same hremaining rfl rfl rfl (fun _ e he => ⟨hstored rfl e he, he⟩) (.inl ?_)
    simp [State.endResync]
  | history => exact h.of_same hremaining rfl rfl rfl (fun hnot e he => ⟨hnot, he⟩) h.waits

theorem Inv.granted (h : s.Inv) {loop : Loop} (hok : Settled s (.granted loop))
    (hstep : s.granted loop = some s') : s'.Inv := by
  unfold State.granted at hstep
  split at hstep
  · next g hwaiting =>
    split at hstep
    · split at hstep
      · next hchanged =>
        cases hstep
        apply h.endResync
        rintro rfl e he
        obtain hsame | ⟨hbbo, hpending⟩ := hok
        · rw [hwaiting] at hsame
          cases hsame
          exact absurd rfl hchanged
        · exact absurd he (Client.not_holds_of_empty hbbo hpending)
      · cases hstep
        apply h.enter
        rintro rfl
        obtain hidle | hrest := h.waits
        · rw [hwaiting] at hidle
          cases hidle
        · exact hrest
    · cases hstep
  · cases hstep

theorem Inv.replayed (h : s.Inv) {loop : Loop} {ok : Bool}
    (hstep : s.replayed loop ok = some s') : s'.Inv := by
  unfold State.replayed at hstep
  split at hstep
  · next hreplaying =>
    cases hstep
    have hbase : Inv { s with
        resyncLock := none
        resyncGeneration := if ok then s.resyncGeneration + 1 else s.resyncGeneration } :=
      h.of_same rfl rfl rfl rfl (fun hnot e he => ⟨hnot, he⟩) h.waits
    apply hbase.endResync
    rintro rfl e - g hg
    rw [show s.resync .ticker = .replaying from hreplaying] at hg
    cases hg
  · cases hstep

section Steps

variable {instrumentId : String → Option String → String} {known : String → Bool}

/-- The event at the front is dispatched over what is stored of its own epoch. -/
theorem Inv.dispatch {p : Pushed π δ} {rest : List (Item π δ)} (h : s.Inv)
    (hpoller : s.poller = .handling (.event p :: rest)) (howed : ∀ t ∈ s.owed, p.epoch < t) :
    ({ s with poller := .handling rest }.dispatch instrumentId known p).Inv := by
  have hremaining : s.remaining = .event p :: (rest ++ s.queue) := by
    simp [State.remaining, hpoller, Poller.batch]
  have hidle : s.resync .ticker = .idle := h.idle_of (by simp [hpoller])
  have hnot : s.NotWaiting := by
    intro g hg
    rw [hidle] at hg
    cases hg
  have hflow := h.flow
  rw [hremaining] at hflow
  have huniform : s.client.Uniform p.epoch := by
    intro e he
    have hcurrent := h.stored hnot e he
    rw [hremaining] at hcurrent
    exact hcurrent.eq_front hflow howed
  obtain ⟨hclient, houtput⟩ := huniform.dispatch instrumentId known
  refine ⟨hflow.tail, fun _ e he => ?_, .inl hidle, ?_⟩
  · rw [hclient e he]
    exact hflow.current
  · intro o ho
    obtain ho | ho := List.mem_append.mp ho
    · exact h.unbroken o ho
    · exact houtput o (Option.mem_toList.mp ho)

/-- The resync of a gap drops what is stored, or the loop waits for the lock first. -/
theorem Inv.gapMet {k : Nat} {rest : List (Item π δ)} (h : s.Inv)
    (hpoller : s.poller = .handling (.gap k :: rest)) :
    ({ s with poller := .resyncing rest }.beginResync .ticker).Inv := by
  have hremaining : s.remaining = .gap k :: (rest ++ s.queue) := by
    simp [State.remaining, hpoller, Poller.batch]
  have hflow := h.flow
  rw [hremaining] at hflow
  unfold State.beginResync
  split
  · refine ⟨hflow.tail, fun _ e he => absurd he s.client.not_holds_clear, .inr ⟨rest, rfl⟩, ?_⟩
    exact h.unbroken
  · refine ⟨hflow.tail, fun hnot e he => ?_, .inr ⟨rest, rfl⟩, h.unbroken⟩
    exact absurd rfl (hnot s.resyncGeneration)

theorem Inv.next (h : s.Inv) (hok : Settled s .next)
    (hstep : s.next instrumentId known = some s') : s'.Inv := by
  unfold State.next at hstep
  split at hstep
  · next hpoller =>
    cases hstep
    have hidle := h.idle_of (by simp [hpoller])
    refine h.of_same ?_ rfl rfl rfl (fun hnot e he => ⟨hnot, he⟩) (.inl hidle)
    simp [State.remaining, hpoller, Poller.batch]
  · next p rest hpoller =>
    cases hstep
    have howed : s.poller.Before s.owed := hok
    rw [hpoller] at howed
    exact h.dispatch hpoller howed
  · next k rest hpoller =>
    cases hstep
    exact h.gapMet hpoller
  · cases hstep

theorem Inv.step {a : Step π δ} (h : s.Inv) (hok : Settled s a)
    (hstep : s.step instrumentId known a = some s') : s'.Inv := by
  cases a with
  | push event =>
    cases hstep
    refine ⟨?_, fun hnot e he => ?_, h.waits, h.unbroken⟩
    · have hflow := h.flow.push event
      rwa [State.remaining, List.append_assoc] at hflow
    · have hcurrent := (h.stored hnot e he).push event
      rwa [State.remaining, List.append_assoc] at hcurrent
  | gap =>
    cases hstep
    refine ⟨?_, fun hnot e he => ?_, h.waits, h.unbroken⟩
    · have hflow := h.flow.gap
      rwa [State.remaining, List.append_assoc] at hflow
    · have hcurrent := (h.stored hnot e he).gap
      rwa [State.remaining, List.append_assoc] at hcurrent
  | interrupted =>
    simp only [State.step] at hstep
    split at hstep
    · cases hstep
      exact h.of_same rfl rfl rfl rfl (fun hnot e he => ⟨hnot, he⟩) h.waits
    · cases hstep
  | resumed =>
    simp only [State.step] at hstep
    split at hstep
    · cases hstep
    · cases hstep
      exact ⟨h.flow.resumed, fun hnot e he => (h.stored hnot e he).resumed, h.waits, h.unbroken⟩
  | reconcile t =>
    simp only [State.step] at hstep
    split at hstep
    · cases hstep
      exact ⟨h.flow.reconcile hok, fun _ e he => absurd he s.client.not_holds_clear, h.waits,
        h.unbroken⟩
    · cases hstep
  | take n =>
    simp only [State.step] at hstep
    split at hstep
    · next hpoller =>
      split at hstep
      · cases hstep
        have hidle := h.idle_of (by simp [hpoller])
        refine h.of_same ?_ rfl rfl rfl (fun hnot e he => ⟨hnot, he⟩) (.inl hidle)
        simp [State.remaining, hpoller, Poller.batch]
      · cases hstep
    · cases hstep
  | returned =>
    simp only [State.step] at hstep
    split at hstep
    · next batch hpoller =>
      cases hstep
      have hidle := h.idle_of (by simp [hpoller])
      refine h.of_same ?_ rfl rfl rfl (fun hnot e he => ⟨hnot, he⟩) (.inl hidle)
      simp [State.remaining, hpoller, Poller.batch]
    · cases hstep
  | next => exact h.next hok hstep
  | historyGap =>
    simp only [State.step] at hstep
    split at hstep
    · cases hstep
      exact h.beginHistory
    · cases hstep
  | granted loop => exact h.granted hok hstep
  | replayed loop ok => exact h.replayed hstep

end Steps

end State

/-- Over every run in which the reconcile after a `Resumed` comes between the last event from before
and the first one after, and no resync of a ticker gap is skipped over stored data, the sides of every
quote and the parts of every book batch were pushed in one epoch. -/
theorem unbroken_of_run {instrumentId : String → Option String → String} {known : String → Bool}
    {trace : List (Step π δ)} {s : State π δ}
    (h : (stream instrumentId known).Run Settled trace s) : ∀ o ∈ s.emitted, o.Unbroken := by
  have hinv : s.Inv := by
    refine h.invariant (I := State.Inv) ?_ fun s a t hs hok hstep => hs.step hok hstep
    rintro s rfl
    refine ⟨⟨List.Pairwise.nil, ?_, ?_⟩, fun _ e he => ?_, .inl rfl, by simp⟩
    · simp [State.remaining, Poller.batch]
    · simp [State.remaining, Poller.batch]
    · exact absurd he (Client.not_holds_of_empty rfl rfl)
  exact hinv.unbroken

/-! ### Two runs -/

def oneBid (price : Nat) : Event Nat Nat :=
  .bbo { symbol := "ESH6", bidPrice := some price, bidSize := some 1, ts := some 0 }

def oneAsk (price : Nat) : Event Nat Nat :=
  .bbo { symbol := "ESH6", askPrice := some price, askSize := some 1, ts := some 0 }

def symbolId (symbol : String) (_ : Option String) : String := symbol

/-- The quote of two sides without an exchange. -/
def quoteOf (bid ask : Side Nat) : Output Nat Nat := .quote ⟨"ESH6", none, bid, ask, 0⟩

theorem unbroken_reconciled : ∃ s, (stream symbolId fun _ => true).Run Settled
      [.push (oneBid 7), .interrupted, .resumed, .take 1, .returned, .next, .next, .reconcile 1,
        .push (oneAsk 9), .push (oneBid 8), .take 2, .returned, .next, .next] s ∧
    s.emitted = [quoteOf ⟨8, 1, 1⟩ ⟨9, 1, 1⟩] ∧ ∀ o ∈ s.emitted, o.Unbroken := by
  have hrun : ∃ s, (stream symbolId fun _ => true).exec Settled {}
      [.push (oneBid 7), .interrupted, .resumed, .take 1, .returned, .next, .next, .reconcile 1,
        .push (oneAsk 9), .push (oneBid 8), .take 2, .returned, .next, .next] = some s ∧
      s.emitted = [quoteOf ⟨8, 1, 1⟩ ⟨9, 1, 1⟩] := ⟨_, rfl, by decide⟩
  obtain ⟨s, hs, hemitted⟩ := hrun
  have hrun := Machine.run_of_exec (M := stream symbolId fun _ => true) rfl hs
  exact ⟨s, hrun, hemitted, unbroken_of_run hrun⟩

/-- A batch with the old bid sits in the thread of `next_events` while the transport breaks, resumes
and is reconciled; the bid is then merged with an ask from after the break. -/
theorem stale_bid_quoted : ∃ s, (stream symbolId fun _ => true).Run Machine.Free
      [.push (oneBid 7), .take 1, .interrupted, .resumed, .reconcile 1, .returned, .next, .next,
        .push (oneAsk 9), .take 1, .returned, .next] s ∧
    s.emitted = [quoteOf ⟨7, 1, 0⟩ ⟨9, 1, 1⟩] ∧ ¬ ∀ o ∈ s.emitted, o.Unbroken := by
  have hrun : ∃ s, (stream symbolId fun _ => true).exec Machine.Free {}
      [.push (oneBid 7), .take 1, .interrupted, .resumed, .reconcile 1, .returned, .next, .next,
        .push (oneAsk 9), .take 1, .returned, .next] = some s ∧
      s.emitted = [quoteOf ⟨7, 1, 0⟩ ⟨9, 1, 1⟩] := ⟨_, rfl, by decide⟩
  obtain ⟨s, hs, hemitted⟩ := hrun
  have hrun := Machine.run_of_exec (M := stream symbolId fun _ => true) rfl hs
  refine ⟨s, hrun, hemitted, fun h => ?_⟩
  have hepochs : 0 = 1 := h (quoteOf ⟨7, 1, 0⟩ ⟨9, 1, 1⟩) (by simp [hemitted])
  omega

end RithmicNt.Adapter.MarketData
