import Mathlib.Data.List.Dedup
import RithmicNt.Adapter.PnlGate

/-! What the client's PnL state says about the rows that `next_events` returned on the current
stream: every unreadable row is still marked or was replaced by a readable row of its contract, and
a position counts as seen only if one of its rows was returned. -/

namespace RithmicNt.Adapter.Pnl

open RithmicNt.Lib RithmicNt.Exec

section

variable (env : Env)

def idOf (d : InstrumentPnl) : Except IdentError String :=
  instrumentId env.upper (d.symbol.getD "") d.exchange venue

def lastRow (log : List InstrumentPnl) (id : String) : Option Position :=
  ((log.filterMap (instrumentPnlToFields env)).filter (·.instrumentId = id)).getLast?

/-- A readable row takes away only the marks of its own contract: the unreadable rows before it that
left the same mark are rows of the same contract. -/
def OwnMarks : List InstrumentPnl → List InstrumentPnl → Prop
  | _, [] => True
  | log, e :: rows =>
    (∀ fields ∈ instrumentPnlToFields env e, ∀ u ∈ log, instrumentPnlToFields env u = none →
      u.mark = strip fields.symbol → idOf env u = .ok fields.instrumentId) ∧
    OwnMarks (log ++ [e]) rows

instance decidableOwnMarks : (log rows : List InstrumentPnl) → Decidable (OwnMarks env log rows)
  | _, [] => .isTrue trivial
  | log, e :: rows =>
    have := decidableOwnMarks (log ++ [e]) rows
    inferInstanceAs (Decidable (_ ∧ _))

/-- The unreadable rows are accounted for, and the stamps and keys are sound. -/
structure Recorded (c : Client) (log : List InstrumentPnl) : Prop where
  marked : ∀ before u after, log = before ++ u :: after → instrumentPnlToFields env u = none →
    u.mark ∈ c.unreadable ∨
      ∃ r ∈ after, ∃ fields ∈ instrumentPnlToFields env r, idOf env u = .ok fields.instrumentId
  live : ∀ live ∈ c.liveSince, 0 < live ∧ live ≤ c.clock
  stamps : ∀ id t, c.seen.get? id = some t → t ≤ c.clock
  seen : ∀ live ∈ c.liveSince, ∀ id t, c.seen.get? id = some t → live ≤ t →
    (lastRow env log id).isSome
  keyed : ∀ id fields, c.positions.get? id = some fields →
    fields.instrumentId = id ∧ symbolOf id = trim fields.symbol

variable {env}

theorem instrumentPnlToFields_spec {d : InstrumentPnl} {fields : Position}
    (h : instrumentPnlToFields env d = some fields) :
    idOf env d = .ok fields.instrumentId ∧ symbolOf fields.instrumentId = trim fields.symbol := by
  obtain ⟨symbol, hsymbol, h⟩ := Option.bind_eq_some_iff.mp h
  obtain ⟨net, -, h⟩ := Option.bind_eq_some_iff.mp h
  obtain ⟨id, hid, h⟩ := Option.bind_eq_some_iff.mp h
  obtain rfl := Option.some.inj h
  have hok : instrumentId env.upper symbol d.exchange venue = .ok id := by
    cases hres : instrumentId env.upper symbol d.exchange venue with
    | error e => simp [hres, Except.toOption] at hid
    | ok id' => simpa [hres, Except.toOption] using hid
  exact ⟨by simp [idOf, hsymbol, hok], symbolOf_instrumentId hok⟩

theorem lastRow_append_unreadable {log : List InstrumentPnl} {e : InstrumentPnl}
    (he : instrumentPnlToFields env e = none) (id : String) :
    lastRow env (log ++ [e]) id = lastRow env log id := by
  simp [lastRow, he]

theorem lastRow_append_readable {log : List InstrumentPnl} {e : InstrumentPnl} {fields : Position}
    (he : instrumentPnlToFields env e = some fields) (id : String) :
    lastRow env (log ++ [e]) id =
      if fields.instrumentId = id then some fields else lastRow env log id := by
  by_cases hid : fields.instrumentId = id <;> simp [lastRow, he, hid]

theorem append_singleton_split {α : Type*} {log before after : List α} {e u : α}
    (h : log ++ [e] = before ++ u :: after) : (after = [] ∧ u = e) ∨
      ∃ after', after = after' ++ [e] ∧ log = before ++ u :: after' := by
  rcases List.eq_nil_or_concat after with rfl | ⟨after', x, rfl⟩
  · obtain ⟨-, hu⟩ := List.append_inj' h rfl
    exact .inl ⟨rfl, by simpa using hu.symm⟩
  · have h' : log ++ [e] = (before ++ u :: after') ++ [x] := by simpa using h
    obtain ⟨hlog, hx⟩ := List.append_inj' h' rfl
    obtain rfl : e = x := by simpa using hx
    exact .inr ⟨after', by simp, hlog⟩

theorem Recorded.observe {c : Client} {log : List InstrumentPnl} (h : Recorded env c log)
    {clock : Nat} {live : Option Nat} (now : Nat) (account : Account) (observed : Option Nat)
    (hclock : c.clock ≤ clock)
    (hlive : live = c.liveSince ∨ live = some now ∧ c.clock < now ∧ now ≤ clock) :
    Recorded env { c with
      clock := clock, account := account, liveSince := live, observed := observed } log where
  marked := h.marked
  live l hl := by
    rcases hlive with rfl | ⟨rfl, hlt, hle⟩
    · have := h.live l hl
      exact ⟨this.1, Nat.le_trans this.2 hclock⟩
    · obtain rfl := Option.mem_some_iff.mp hl
      exact ⟨Nat.zero_lt_of_lt hlt, hle⟩
  stamps id t ht := Nat.le_trans (h.stamps id t ht) hclock
  seen l hl id t ht hlt := by
    rcases hlive with rfl | ⟨rfl, hnow, hle⟩
    · exact h.seen l hl id t ht hlt
    · obtain rfl := Option.mem_some_iff.mp hl
      have := h.stamps id t ht
      omega
  keyed := h.keyed

theorem Recorded.unreadable {c : Client} {log : List InstrumentPnl} (h : Recorded env c log)
    {clock : Nat} {e : InstrumentPnl} (he : instrumentPnlToFields env e = none)
    (hclock : c.clock ≤ clock) :
    Recorded env { c with clock := clock, unreadable := c.unreadable.insert e.mark }
      (log ++ [e]) where
  marked before u after hsplit hu := by
    rcases append_singleton_split hsplit with ⟨rfl, rfl⟩ | ⟨after', rfl, hlog⟩
    · exact .inl (by simp)
    · rcases h.marked before u after' hlog hu with hmark | ⟨r, hr, hrest⟩
      · exact .inl (by simp [hmark])
      · exact .inr ⟨r, by simp [hr], hrest⟩
  live l hl := ⟨(h.live l hl).1, Nat.le_trans (h.live l hl).2 hclock⟩
  stamps id t ht := Nat.le_trans (h.stamps id t ht) hclock
  seen l hl id t ht hle := by
    rw [lastRow_append_unreadable he]
    exact h.seen l hl id t ht hle
  keyed := h.keyed

theorem Recorded.write {c : Client} {log : List InstrumentPnl} (h : Recorded env c log)
    {clock : Nat} {e : InstrumentPnl} {fields : Position} (account : Account)
    (he : instrumentPnlToFields env e = some fields) (hclock : c.clock ≤ clock)
    (hown : OwnMarks env log [e]) :
    Recorded env { c with
      clock := clock, account := account
      unreadable := c.unreadable.filter (· ≠ strip fields.symbol)
      positions := c.positions.set fields.instrumentId fields } (log ++ [e]) where
  marked before u after hsplit hu := by
    rcases append_singleton_split hsplit with ⟨rfl, rfl⟩ | ⟨after', rfl, hlog⟩
    · rw [he] at hu
      cases hu
    · rcases h.marked before u after' hlog hu with hmark | ⟨r, hr, hrest⟩
      · by_cases hsame : u.mark = strip fields.symbol
        · have hid := hown.1 fields he u (by simp [hlog]) hu hsame
          exact .inr ⟨e, by simp, fields, he, hid⟩
        · exact .inl (List.mem_filter.mpr ⟨hmark, by simpa using hsame⟩)
      · exact .inr ⟨r, by simp [hr], hrest⟩
  live l hl := ⟨(h.live l hl).1, Nat.le_trans (h.live l hl).2 hclock⟩
  stamps id t ht := Nat.le_trans (h.stamps id t ht) hclock
  seen l hl id t ht hle := by
    rw [lastRow_append_readable he]
    split
    · rfl
    · exact h.seen l hl id t ht hle
  keyed id f hf := by
    rw [Dict.get?_set] at hf
    split at hf
    · next hid =>
      obtain rfl := Option.some.inj hf
      subst hid
      exact ⟨rfl, (instrumentPnlToFields_spec he).2⟩
    · exact h.keyed id f hf

theorem Recorded.stamp {c : Client} {log : List InstrumentPnl} (h : Recorded env c log)
    {id : String} {now : Nat} (hrow : (lastRow env log id).isSome) (hnow : now ≤ c.clock) :
    Recorded env { c with seen := c.seen.set id now } log where
  marked := h.marked
  live := h.live
  stamps id' t ht := by
    rw [Dict.get?_set] at ht
    split at ht
    · exact Option.some.inj ht ▸ hnow
    · exact h.stamps id' t ht
  seen l hl id' t ht hle := by
    rw [Dict.get?_set] at ht
    split at ht
    · next hid => exact hid ▸ hrow
    · exact h.seen l hl id' t ht hle
  keyed := h.keyed

theorem or_some_cases (live : Option Nat) (now : Nat) :
    live.or (some now) = live ∨ live.or (some now) = some now ∧ live = none := by
  cases live <;> simp

theorem positionRows_singleton {d : Delivery} {e : InstrumentPnl} (h : d.row = .instrument e) :
    State.positionRows [d] = [e] := by
  simp [State.positionRows, h]

theorem positionRows_other {d : Delivery} (h : ∀ e, d.row ≠ .instrument e) :
    State.positionRows [d] = [] := by
  cases hrow : d.row with
  | instrument e => exact absurd hrow (h e)
  | account e => simp [State.positionRows, hrow]
  | gap n => simp [State.positionRows, hrow]

theorem Recorded.effect {c c' : Client} {log : List InstrumentPnl} {d : Delivery}
    {outcome : Outcome} (h : Recorded env c log) (heffect : Effect env d c c' outcome)
    (hown : OwnMarks env log (State.positionRows [d])) :
    Recorded env c' (log ++ State.positionRows [d]) := by
  cases heffect with
  | quiet hrow hclock =>
    rw [positionRows_other hrow, List.append_nil]
    exact h.observe 0 _ _ hclock (.inl rfl)
  | @observed clock live account hrow _ hlt hle hlive =>
    rw [positionRows_other hrow, List.append_nil]
    refine h.observe live _ _ hle ?_
    exact (or_some_cases c.liveSince live).imp_right fun ⟨heq, hnone⟩ => ⟨heq, hlt, hlive hnone⟩
  | unreadable hrow he hclock =>
    rw [positionRows_singleton hrow]
    exact h.unreadable he hclock
  | cut hrow he hclock =>
    rw [positionRows_singleton hrow] at hown ⊢
    exact h.write _ he hclock hown
  | @position clock now account e fields hrow he hlt hle =>
    rw [positionRows_singleton hrow] at hown ⊢
    have hwrite := h.write account he (Nat.le_refl c.clock) hown
    have hlive := hwrite.observe now account (c.observed.or (some d.pushed))
      (Nat.le_trans (Nat.le_of_lt hlt) hle)
      ((or_some_cases c.liveSince now).imp_right fun ⟨heq, _⟩ => ⟨heq, hlt, hle⟩)
    exact hlive.stamp (by rw [lastRow_append_readable he]; simp) hle

theorem positionRows_cons (d : Delivery) (batch : List Delivery) :
    State.positionRows (d :: batch) = State.positionRows [d] ++ State.positionRows batch := by
  simp only [State.positionRows, ← List.filterMap_append, List.cons_append, List.nil_append]

theorem OwnMarks.append {log rows rest : List InstrumentPnl}
    (h : OwnMarks env log (rows ++ rest)) :
    OwnMarks env log rows ∧ OwnMarks env (log ++ rows) rest := by
  induction rows generalizing log with
  | nil => exact ⟨trivial, by simpa using h⟩
  | cons e rows ih =>
    obtain ⟨hrows, hrest⟩ := ih h.2
    exact ⟨⟨h.1, hrows⟩, by simpa using hrest⟩

theorem Recorded.batch {c : Client} {log : List InstrumentPnl} {batch : List Delivery}
    (h : Recorded env c log) (hown : OwnMarks env log (State.positionRows batch)) :
    Recorded env (c.dispatchBatch env batch) (log ++ State.positionRows batch) := by
  induction batch generalizing c log with
  | nil => simpa [State.positionRows, Client.dispatchBatch] using h
  | cons d batch ih =>
    rw [positionRows_cons] at hown ⊢
    obtain ⟨hrow, hrest⟩ := hown.append
    rw [Client.dispatchBatch_cons, ← List.append_assoc]
    exact ih (h.effect (c.dispatchPnlEvent_effect d) hrow) hrest

end

/-! ### Invariants of the stream -/

section

variable (env : Env) (okBatch : Client → List InstrumentPnl → List Delivery → Prop)

/-- A batch that reaches the handlers meets `okBatch`, and one that an order-gap recovery overtook
on its own stream, so that its rows are ignored, holds no position row. -/
def Reads (s : State) : Event → Prop
  | .dispatch i => ∀ p ∈ s.poll? i, ∀ batch ∈ p.batch, p.stream = s.stream →
      if p.epoch = s.client.epoch then okBatch s.client s.returned batch
      else State.positionRows batch = []
  | _ => True

instance [∀ c log batch, Decidable (okBatch c log batch)] (s : State) (event : Event) :
    Decidable (Reads okBatch s event) := by
  unfold Reads
  split <;> infer_instance

/-- What every step on the client keeps true of its state and of the rows returned on the current
stream. -/
structure StreamInv (I : Client → List InstrumentPnl → Prop) : Prop where
  start : I {} []
  batch : ∀ c log batch, I c log → okBatch c log batch →
    I (c.dispatchBatch env batch) (log ++ State.positionRows batch)
  forget : ∀ c log, I c log → I c.forgetPnlState []
  resync : ∀ c log, I c log → I c.resyncPnlSubscription []
  gap : ∀ c log, I c log → I c.recoverOrderGap log
  later : ∀ c log clock account, I c log → c.clock ≤ clock →
    I { c with clock := clock, account := account } log

/-- A poll of the current epoch belongs to the current stream. -/
structure OnStream (I : Client → List InstrumentPnl → Prop) (s : State) : Prop where
  epochs : ∀ p ∈ s.polls, p.epoch ≤ s.client.epoch
  streams : ∀ p ∈ s.polls, p.epoch = s.client.epoch → p.stream = s.stream
  client : I s.client s.returned

variable {env okBatch} {I : Client → List InstrumentPnl → Prop}

theorem OnStream.keep {s t : State} (h : OnStream I s) (hpolls : t.polls ⊆ s.polls)
    (hstream : t.stream = s.stream) (hepoch : t.client.epoch = s.client.epoch)
    (hclient : I t.client t.returned) : OnStream I t where
  epochs p hp := hepoch ▸ h.epochs p (hpolls hp)
  streams p hp hcurrent := (h.streams p (hpolls hp) (hcurrent.trans hepoch)).trans hstream.symm
  client := hclient

theorem OnStream.bump {s t : State} (h : OnStream I s) (hpolls : t.polls ⊆ s.polls)
    (hepoch : t.client.epoch = s.client.epoch + 1) (hclient : I t.client t.returned) :
    OnStream I t where
  epochs p hp := by
    have := h.epochs p (hpolls hp)
    omega
  streams p hp hcurrent := by
    have := h.epochs p (hpolls hp)
    omega
  client := hclient

theorem OnStream.pollStart {s : State} (h : OnStream I s) (id next : Nat) :
    OnStream I { s with
      polls := s.polls ++ [{ id := id, epoch := s.client.epoch, stream := s.stream }]
      nextPoll := next } := by
  refine ⟨fun p hp => ?_, fun p hp => ?_, h.client⟩
  · rcases List.mem_append.mp hp with hp | hp
    · exact h.epochs p hp
    · obtain rfl := List.mem_singleton.mp hp
      exact Nat.le_refl _
  · rcases List.mem_append.mp hp with hp | hp
    · exact h.streams p hp
    · obtain rfl := List.mem_singleton.mp hp
      exact fun _ => rfl

theorem OnStream.dequeue {s : State} (h : OnStream I s) (i n : Nat) :
    OnStream I { s.setBatch i (s.queue.take n) with queue := s.queue.drop n } := by
  have hmem : ∀ p ∈ (s.setBatch i (s.queue.take n)).polls, ∃ p₀ ∈ s.polls,
      p.epoch = p₀.epoch ∧ p.stream = p₀.stream := by
    intro p hp
    obtain ⟨p₀, hp₀, rfl⟩ := List.mem_map.mp hp
    refine ⟨p₀, hp₀, ?_⟩
    split <;> exact ⟨rfl, rfl⟩
  refine ⟨fun p hp => ?_, fun p hp hcurrent => ?_, h.client⟩
  · obtain ⟨p₀, hp₀, hepoch, -⟩ := hmem p hp
    exact hepoch ▸ h.epochs p₀ hp₀
  · obtain ⟨p₀, hp₀, hepoch, hstream⟩ := hmem p hp
    exact hstream.trans (h.streams p₀ hp₀ (hepoch.symm.trans hcurrent))

theorem OnStream.dispatch {s : State} (hI : StreamInv env okBatch I) (h : OnStream I s) {p : Poll}
    {batch : List Delivery} (hstream : p.epoch = s.client.epoch → p.stream = s.stream)
    (hok : p.stream = s.stream → if p.epoch = s.client.epoch then okBatch s.client s.returned batch
      else State.positionRows batch = []) :
    OnStream I (s.dispatch env p batch) := by
  unfold State.dispatch
  dsimp only
  have hbatch : I (if p.epoch = s.client.epoch then s.client.dispatchBatch env batch else s.client)
      (if p.stream = s.stream then s.returned ++ State.positionRows batch else s.returned) := by
    by_cases hcurrent : p.epoch = s.client.epoch
    · have hs := hstream hcurrent
      have hok := hok hs
      rw [if_pos hcurrent] at hok
      rw [if_pos hcurrent, if_pos hs]
      exact hI.batch _ _ _ h.client hok
    · rw [if_neg hcurrent]
      split
      · next hs =>
        have hok := hok hs
        rw [if_neg hcurrent] at hok
        rw [hok, List.append_nil]
        exact h.client
      · exact h.client
  have hepoch : (if p.epoch = s.client.epoch then s.client.dispatchBatch env batch
      else s.client).epoch = s.client.epoch := by
    split
    · exact Client.dispatchBatch_epoch _ _
    · rfl
  split
  · exact h.bump (List.Subset.refl _) (congrArg (· + 1) hepoch) (hI.resync _ _ hbatch)
  · exact h.keep (List.Subset.refl _) rfl hepoch hbatch

theorem step_onStream {s t : State} {event : Event} (hI : StreamInv env okBatch I)
    (hinv : OnStream I s) (hok : Reads okBatch s event) (hstep : step env s event = some t) :
    OnStream I t := by
  have h : OnStream I { s with now := s.now + 1, passed := none } :=
    hinv.keep (List.Subset.refl _) rfl rfl hinv.client
  have hall : s.polls ⊆ s.polls := List.Subset.refl _
  cases step_cases hstep with
  | push d => exact h.keep hall rfl rfl h.client
  | pollStart => exact h.pollStart _ _
  | dequeue i n => exact h.dequeue i n
  | dispatch hp hbatch =>
    refine OnStream.dispatch hI ?_ (h.streams _ (mem_of_poll? hp)) (hok _ hp _ hbatch)
    exact h.keep List.filter_sublist.subset rfl rfl h.client
  | pollEnds i => exact h.keep List.filter_sublist.subset rfl rfl h.client
  | pollResyncs i =>
    exact h.bump List.filter_sublist.subset rfl (hI.resync _ _ h.client)
  | connect => exact h.bump hall rfl (hI.forget _ _ h.client)
  | restore => exact h.bump hall rfl (hI.forget _ _ h.client)
  | restoreTrading => exact h.bump hall rfl (hI.forget _ _ h.client)
  | orderGap => exact h.bump hall rfl (hI.gap _ _ h.client)
  | passes => exact h.keep hall rfl rfl h.client
  | waits i => exact h.keep hall rfl rfl h.client
  | resumes => exact h.keep hall rfl rfl h.client
  | abort i => exact h.keep hall rfl rfl h.client
  | client hclock => exact h.keep hall rfl rfl (hI.later _ _ _ _ h.client hclock)

theorem run_onStream {trace : List Event} {s : State} (hI : StreamInv env okBatch I)
    (h : (machine env).Run (Reads okBatch) trace s) : OnStream I s := by
  refine h.invariant (I := OnStream I) ?_ fun _ _ _ => step_onStream hI
  rintro _ rfl
  exact ⟨fun _ hp => by simp at hp, fun _ hp => by simp at hp, hI.start⟩

/-- The rows of a batch take away only the marks of their own contracts. -/
def OwnBatch (env : Env) (_ : Client) (log : List InstrumentPnl) (batch : List Delivery) : Prop :=
  OwnMarks env log (State.positionRows batch)

instance (c : Client) (log : List InstrumentPnl) (batch : List Delivery) :
    Decidable (OwnBatch env c log batch) :=
  decidableOwnMarks env log (State.positionRows batch)

theorem Recorded.of_new {c : Client} (hlive : c.liveSince = none)
    (hstamps : ∀ id t, c.seen.get? id = some t → t ≤ c.clock)
    (hkeyed : ∀ id fields, c.positions.get? id = some fields →
      fields.instrumentId = id ∧ symbolOf id = trim fields.symbol) : Recorded env c [] where
  marked _ _ _ h := by simp at h
  live _ h := by simp [hlive] at h
  stamps := hstamps
  seen _ h := by simp [hlive] at h
  keyed := hkeyed

theorem recorded_streamInv : StreamInv env (OwnBatch env) (Recorded env) where
  start := .of_new rfl (by simp) (by simp)
  batch _ _ _ h hown := h.batch hown
  forget _ _ _ := .of_new rfl (by simp [Client.forgetPnlState]) (by simp [Client.forgetPnlState])
  resync _ _ h := .of_new rfl h.stamps h.keyed
  gap _ _ h := ⟨h.marked, h.live, h.stamps, h.seen, h.keyed⟩
  later _ _ _ account h hclock := h.observe 0 account _ hclock (.inl rfl)

end

end RithmicNt.Adapter.Pnl
