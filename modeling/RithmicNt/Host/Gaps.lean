import RithmicNt.Host.Routing

/-! Gaps: one on the PnL or the order stream is queued to the sessions on its topic, one on the ticker or
the history stream on every topic of a symbol, so that a session receives it as often as it is on
such a topic. -/

namespace RithmicNt.Host.Fanout

open RithmicNt.Lib

theorem flatMap_ite_eq_replicate {α β : Type*} (l : List α) (p : α → Bool) (x : β) :
    (l.flatMap fun a => if p a then [x] else []) = List.replicate (l.countP p) x := by
  induction l with
  | nil => rfl
  | cons a l ih =>
    rw [List.flatMap_cons, ih, List.countP_cons]
    by_cases ha : p a = true
    · simp [ha, List.replicate_succ]
    · simp [ha]

namespace Net

variable {n : Net} {encoded : Nat → Bool} {event : PlantEvent} {id : Nat}

/-- What is queued to a session on one topic of a gap. -/
theorem map_filter_publish_gap {key : SubKey} {st : SubState} (h : n.Linked) (hp : n.Present key)
    (hst : n.subs.get? key = some st) (hgap : event.isGap = true) :
    ((n.publish encoded st .any event).filter (·.session = id)).map
        (fun q => (q.stream, q.event)) =
      if key ∈ (n.wires id).subscribed then [(streamOf event, event)] else [] := by
  by_cases hmem : key ∈ (n.wires id).subscribed
  · obtain ⟨d, -, hqueued⟩ : ∃ d : DeliveryTopic, d.stream = topicStream key.symbol ∧
        (n.publish encoded st .any event).filter (·.session = id) =
          [⟨id, d.lane (encoded id) .any event, event⟩] :=
      filter_publish_of_reaches h hp hst ⟨hmem, .inl rfl⟩
    have hd : d.lane (encoded id) .any event = streamOf event := by
      simp [DeliveryTopic.lane, hgap]
    rw [hqueued, if_pos hmem, List.map_singleton, hd]
  · rw [filter_publish_of_not_reaches h hst fun hreach => hmem hreach.1, if_neg hmem]
    rfl

/-- A gap on every topic of a symbol. -/
theorem map_filter_publishSymbols (h : n.Linked)
    (hp : ∀ k : SubKey, internal k.symbol = false → n.Present k) (hgap : event.isGap = true) :
    ((n.publishSymbols encoded event).filter (·.session = id)).map (fun q => (q.stream, q.event)) =
      List.replicate ((n.wires id).subscribed.filter fun k => internal k.symbol = false).card
        (streamOf event, event) := by
  unfold publishSymbols
  rw [List.filter_flatMap, List.map_flatMap, List.flatMap_congr
    (g := fun e => if decide (e.1 ∈ (n.wires id).subscribed) then [(streamOf event, event)] else [])]
  · rw [flatMap_ite_eq_replicate, List.countP_filter]
    congr 1
    rw [← Dict.countP_mem_eq_card (d := n.subs)]
    · congr 1
      funext e
      simp [Finset.mem_filter]
    · intro k hk
      obtain ⟨hk, hsymbol⟩ := Finset.mem_filter.mp hk
      obtain ⟨t, ht⟩ := Option.isSome_iff_exists.mp (((h.wired id).topics k).mpr hk)
      obtain ⟨st, hst, -⟩ := hp k hsymbol id t ht
      rw [hst]
      rfl
  · intro e he
    obtain ⟨hmem, hsymbol⟩ := List.mem_filter.mp he
    have hst : n.subs.get? e.1 = some e.2 := Dict.mem_entries_iff.mp hmem
    rw [map_filter_publish_gap h (hp e.1 (by simpa using hsymbol)) hst hgap]
    simp

end Net

/-- The session holds an intent that the stream carries. -/
def carriedBy (c : SessionCtx) : Stream → Bool
  | .ticker => c.ticker.Nonempty ∨ c.book.Nonempty
  | .history => c.timeBars.Nonempty
  | .pnl => c.pnl
  | .order => c.order

/-- The topics of the session's market data on symbols that are not internal. -/
def symbolTopics (c : SessionCtx) : Finset SubKey :=
  (c.ticker ∪ c.book ∪ c.timeBars.image fun t => (MdIntent.timeBars t).key).filter fun k =>
    internal k.symbol = false

theorem mem_symbolTopics {c : SessionCtx} {k : SubKey} :
    k ∈ symbolTopics c ↔ c.wantsMd k = true ∧ internal k.symbol = false := by
  rw [symbolTopics, Finset.mem_filter, SessionCtx.wantsMd_iff]
  apply and_congr_left'
  constructor
  · intro hk
    rcases Finset.mem_union.mp hk with hk | hk
    · rcases Finset.mem_union.mp hk with hk | hk
      · exact ⟨.ticker k, by simpa [SessionCtx.has] using hk, rfl⟩
      · exact ⟨.book k, by simpa [SessionCtx.has] using hk, rfl⟩
    · obtain ⟨t, ht, hkey⟩ := Finset.mem_image.mp hk
      exact ⟨.timeBars t, by simpa [SessionCtx.has] using ht, hkey⟩
  · rintro ⟨i, hi, rfl⟩
    cases i with
    | ticker key =>
      have hmem : key ∈ c.ticker := by simpa [SessionCtx.has] using hi
      exact Finset.mem_union_left _ (Finset.mem_union_left _ hmem)
    | book key =>
      have hmem : key ∈ c.book := by simpa [SessionCtx.has] using hi
      exact Finset.mem_union_left _ (Finset.mem_union_right _ hmem)
    | timeBars t =>
      have hmem : t ∈ c.timeBars := by simpa [SessionCtx.has] using hi
      exact Finset.mem_union_right _ (Finset.mem_image_of_mem _ hmem)

namespace World

/-- A gap on the stream is queued once to each session that holds an intent carried by it, and to no
other. -/
def GapOnce (w : World) (stream : Stream) : Prop :=
  ∀ (encoded : Nat → Bool) (skipped id : Nat),
    w.net.received encoded id (.gap stream skipped) =
      match w.hosted.sessions.get? id with
      | some c => if carriedBy c stream then [(stream, .gap stream skipped)] else []
      | none => []

/-- Each session that holds an intent carried by the stream is on one topic of a symbol, and no other
session is on one. -/
def OneTopic (w : World) (stream : Stream) : Prop :=
  ∀ id c, w.hosted.sessions.get? id = some c →
    (symbolTopics c).card = if carriedBy c stream then 1 else 0

variable {w : World} {id : Nat} {c : SessionCtx} {stream : Stream}

theorem market_of_symbol {k : SubKey} (h : internal k.symbol = false) : Market k := by
  constructor <;>
  · rintro rfl
    exact absurd h (by decide)

/-- A session receives a gap of the ticker or the history stream on each of its topics. -/
theorem Routed.received_symbols_gap (h : w.Routed) (encoded : Nat → Bool) (skipped : Nat)
    (hstream : stream = .ticker ∨ stream = .history) (hc : w.hosted.sessions.get? id = some c) :
    w.net.received encoded id (.gap stream skipped) =
      List.replicate (symbolTopics c).card (stream, .gap stream skipped) := by
  have hpublish : w.net.publishPlantEvent encoded (.gap stream skipped) =
      w.net.publishSymbols encoded (.gap stream skipped) := by
    rcases hstream with rfl | rfl <;> rfl
  have htopics : ((w.net.wires id).subscribed.filter fun k => internal k.symbol = false) =
      symbolTopics c := by
    ext k
    rw [Finset.mem_filter, mem_symbolTopics, h.mirrors.subscribed id c hc]
    constructor
    · rintro ⟨hk, hsymbol⟩
      exact ⟨(h.served k (market_of_symbol hsymbol) id c hc).subscribed.mp hk, hsymbol⟩
    · rintro ⟨hk, hsymbol⟩
      exact ⟨(h.served k (market_of_symbol hsymbol) id c hc).subscribed.mpr hk, hsymbol⟩
  unfold Net.received
  rw [hpublish, Net.map_filter_publishSymbols h.mirrors.linked, htopics]
  · rfl
  · intro k hsymbol
    exact (h.counted k (market_of_symbol hsymbol)).present
  · rfl

theorem Routed.gapOnce_iff (h : w.Routed) (hstream : stream = .ticker ∨ stream = .history) :
    w.GapOnce stream ↔ w.OneTopic stream := by
  constructor
  · intro hgap id c hc
    have honce := hgap (fun _ => false) 0 id
    rw [h.received_symbols_gap _ 0 hstream hc, hc] at honce
    have hlength := congrArg List.length honce
    rw [List.length_replicate] at hlength
    rw [hlength]
    dsimp only
    split <;> rfl
  · intro hone encoded skipped id
    cases hc : w.hosted.sessions.get? id with
    | none => exact h.mirrors.received_of_gone encoded _ hc
    | some c =>
      rw [h.received_symbols_gap encoded skipped hstream hc, hone id c hc]
      dsimp only
      split <;> rfl

/-- A gap of the PnL or the order stream, on the one topic of the stream. -/
theorem Mirrors.gapOnce_of_topic (h : w.Mirrors) (hstream : stream = .pnl ∨ stream = .order)
    (hp : w.net.Present (gapKey stream))
    (hon : ∀ id c, w.hosted.sessions.get? id = some c →
      (gapKey stream ∈ c.subscribed ↔ carriedBy c stream = true)) : w.GapOnce stream := by
  intro encoded skipped id
  cases hc : w.hosted.sessions.get? id with
  | none => exact h.received_of_gone encoded _ hc
  | some c =>
    have hsub := h.subscribed id c hc
    have hpublish : w.net.publishPlantEvent encoded (.gap stream skipped) =
        w.net.publishAt encoded (gapKey stream) .any (.gap stream skipped) := by
      rcases hstream with rfl | rfl <;> rfl
    unfold Net.received
    rw [hpublish]
    dsimp only
    by_cases hcarried : carriedBy c stream = true
    · have hmem : gapKey stream ∈ (w.net.wires id).subscribed := hsub ▸ (hon id c hc).mpr hcarried
      obtain ⟨t, ht⟩ := Option.isSome_iff_exists.mp (((h.linked.wired id).topics _).mpr hmem)
      obtain ⟨st, hst, -⟩ := hp id t ht
      unfold Net.publishAt
      rw [hst]
      dsimp only
      rw [Net.map_filter_publish_gap h.linked hp hst rfl, if_pos hmem, if_pos hcarried]
      rfl
    · rw [Net.filter_publishAt_of_not_reaches h.linked, if_neg hcarried]
      · rfl
      · rintro ⟨hmem, -⟩
        exact hcarried ((hon id c hc).mp (hsub ▸ hmem))

end World

/-- On symbols of the market the hub counts the sessions on the account topics too. -/
theorem counted_reserved_of_run {trace : List Event} {w : World} {k : SubKey}
    (hk : k.symbol ∈ reservedSymbols)
    (hr : machine.Run (fun w e => OnSymbols w.hosted e) trace w) : w.net.Counted k := by
  induction hr with
  | start hs =>
    obtain ⟨-, hnet⟩ := hs
    rw [hnet]
    refine ⟨?_, ∅, ?_, rfl⟩
    · rintro id t ⟨⟩
    · intro id
      exact iff_of_false (Finset.notMem_empty k) (Finset.notMem_empty id)
  | next hprev hok hstep ih =>
    refine World.step_counted (mirrors_of_run hprev) ih ?_ hstep
    rintro id c hc i rfl hhas
    exact absurd hk (plain_of_run hprev id c hc i hhas)

/-- In every run, a gap of the ticker or of the history stream is queued once exactly where each session
that the stream carries data for is on one topic of a symbol, and the others on none.  One of the
PnL or of the order stream is, in every run on symbols of the market whose re-seats are answered. -/
theorem gapOnce_of_run {trace : List Event} {w : World} (hr : machine.Run Machine.Free trace w) :
    (w.GapOnce .ticker ↔ w.OneTopic .ticker) ∧ (w.GapOnce .history ↔ w.OneTopic .history) ∧
      (machine.Run (fun w e => OnSymbols w.hosted e ∧ ReseatAnswered w.hosted e) trace w →
        w.GapOnce .pnl ∧ w.GapOnce .order) := by
  have h := routed_of_run hr
  refine ⟨h.gapOnce_iff (.inl rfl), h.gapOnce_iff (.inr rfl), ?_⟩
  intro hok
  have hplain := hok.mono fun _ _ hboth => hboth.1
  have hhosted : Host.machine.Run (fun h e => OnSymbols h e ∧ ReseatAnswered h e) trace w.hosted :=
    hosted_of_run hok
  have hinv : w.hosted.Invariant :=
    hhosted.invariant (fun _ => Hosted.start_invariant) fun _ _ _ hi hboth hstep =>
      Hosted.step_invariant hi hboth.1 hboth.2 hstep
  constructor
  · exact h.mirrors.gapOnce_of_topic (.inl rfl)
      (counted_reserved_of_run (k := pnlKey) (by decide) hplain).present hinv.consistent.pnlTopic
  · exact h.mirrors.gapOnce_of_topic (.inr rfl)
      (counted_reserved_of_run (k := orderKey) (by decide) hplain).present hinv.consistent.orderTopic

def nqBars : TimeBarIntent := ⟨"NQZ6", "CME", 2, 1⟩

/-- A session with the ticker and the bars of one symbol, beside one with the account streams. -/
theorem gapOnce_of_one_symbol : ∃ w,
    machine.Run Machine.Free
      [.attach 1, .attach 2, .op 1 (.subscribe (.ticker nq) {}),
        .op 1 (.subscribe (.timeBars nqBars) {}), .op 2 (.subscribePnl {}),
        .op 2 (.subscribeOrders true {})] w ∧
      w.GapOnce .ticker ∧ w.GapOnce .history ∧ w.GapOnce .pnl ∧ w.GapOnce .order := by
  have hexec : ∃ w,
      machine.exec (fun w e => OnSymbols w.hosted e ∧ ReseatAnswered w.hosted e) connectedWorld
        [.attach 1, .attach 2, .op 1 (.subscribe (.ticker nq) {}),
          .op 1 (.subscribe (.timeBars nqBars) {}), .op 2 (.subscribePnl {}),
          .op 2 (.subscribeOrders true {})] = some w ∧
      (w.hosted.sessions.entries.all fun e =>
        decide ((symbolTopics e.2).card = if carriedBy e.2 .ticker then 1 else 0) &&
          decide ((symbolTopics e.2).card = if carriedBy e.2 .history then 1 else 0)) = true :=
    ⟨_, rfl, by decide⟩
  obtain ⟨w, hexec, hall⟩ := hexec
  have hr := Machine.run_of_exec connectedWorld_start hexec
  have hfree : machine.Run Machine.Free _ w := hr.mono fun _ _ _ => trivial
  obtain ⟨hticker, hhistory, haccount⟩ := gapOnce_of_run hfree
  have hone : ∀ id c, w.hosted.sessions.get? id = some c →
      (symbolTopics c).card = (if carriedBy c .ticker then 1 else 0) ∧
        (symbolTopics c).card = if carriedBy c .history then 1 else 0 := by
    intro id c hc
    simpa using List.all_eq_true.mp hall (id, c) (Dict.mem_entries_iff.mpr hc)
  refine ⟨w, hfree, hticker.mpr fun id c hc => (hone id c hc).1,
    hhistory.mpr fun id c hc => (hone id c hc).2, ?_⟩
  exact haccount hr

def es : SubKey := ⟨"ESZ6", "CME"⟩

/-- A session with the tickers of two symbols receives one gap of the ticker stream twice. -/
theorem gap_twice_on_two_symbols :
    ¬ ∀ (trace : List Event) (w : World), machine.Run Machine.Free trace w →
      ∀ stream, w.GapOnce stream := by
  intro hall
  have hexec : ∃ w c, machine.exec Machine.Free connectedWorld
      [.attach 1, .op 1 (.subscribe (.ticker nq) {}), .op 1 (.subscribe (.ticker es) {})] = some w ∧
      w.hosted.sessions.get? 1 = some c ∧ carriedBy c .ticker = true ∧
      w.net.received (fun _ => false) 1 (.gap .ticker 5) =
        [(.ticker, .gap .ticker 5), (.ticker, .gap .ticker 5)] := ⟨_, _, rfl, rfl, rfl, rfl⟩
  obtain ⟨w, c, hexec, hc, hcarried, htwice⟩ := hexec
  have honce := hall _ w (Machine.run_of_exec connectedWorld_start hexec) .ticker (fun _ => false) 5 1
  rw [htwice, hc] at honce
  simp only [hcarried, if_true] at honce
  cases honce

end RithmicNt.Host.Fanout
