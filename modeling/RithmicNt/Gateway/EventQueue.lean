import RithmicNt.Host.Attachment
import RithmicNt.Lib.Machine

/-! The bounded event queues of a facade of the gateway client: the reader pushes what the parent
sends, gaps among it, and the facade's polls take from the front.  Over every run the weight that was
pushed is returned, queued or recorded as lagged, as long as the bound drops nothing but single
events. -/

namespace RithmicNt.Gateway.EventQueue

open RithmicNt.Lib RithmicNt.Host RithmicNt.Host.Attachment

def eventQueueCap : Nat := 16384

inductive Channel
  | market
  | history
  | pnl
  | order
  deriving DecidableEq, Repr

namespace Channel

def stream : Channel → Stream
  | .market => .ticker
  | .history => .history
  | .pnl => .pnl
  | .order => .order

def plant : Channel → String
  | .market => "ticker"
  | .history => "history"
  | .pnl => "pnl"
  | .order => "order"

def ofStream : Stream → Channel
  | .ticker => .market
  | .history => .history
  | .pnl => .pnl
  | .order => .order

end Channel

/-- `Stream::plant`. -/
def streamPlant : Stream → String
  | .ticker => "ticker"
  | .history => "history"
  | .pnl => "pnl"
  | .order => "order"

variable {δ : Type}

/-- `Channel::of`. -/
def channelOf : Event δ → Channel
  | .timeBar .. => .history
  | .gap stream _ => .ofStream stream
  | .accountPnl _ | .instrumentPnl _ => .pnl
  | .orderNotification _ | .bracketUpdate _ => .order
  | .lastTrade .. | .bbo .. | .orderBook .. | .other _ => .market

structure Queue (δ : Type) where
  items : List (Event δ) := []
  lagged : Nat := 0
  armed : Bool := false

inductive Take (δ : Type)
  | event (event : Event δ)
  | lagged (skipped : Nat)
  | empty

namespace Queue

def arm (q : Queue δ) : Queue δ := { q with armed := true }

/-- The `u64` count wraps. -/
def push (q : Queue δ) (event : Event δ) : Queue δ :=
  let q :=
    if eventQueueCap ≤ q.items.length then
      { q with items := q.items.tail, lagged := (q.lagged + 1) % 2 ^ 64 }
    else q
  { q with items := q.items ++ [event] }

/-- A lag is reported first, once. -/
def take (q : Queue δ) : Take δ × Queue δ :=
  if 0 < q.lagged then (.lagged q.lagged, { q with lagged := 0 })
  else
    match q.items with
    | event :: items => (.event event, { q with items })
    | [] => (.empty, q)

end Queue

inductive Error
  | channelLagged (plant : String) (skipped : Nat)
  | channelClosed (plant : String)
  | notConnected (plant : String)
  deriving DecidableEq, Repr

/-- A facade as its polls see it. -/
structure Facade (δ : Type) where
  queues : Channel → Queue δ := fun _ => {}
  connected : Bool := false
  hasConnected : Bool := false
  streamClosed : Bool := false

namespace Facade

def setQueue (f : Facade δ) (channel : Channel) (q : Queue δ) : Facade δ :=
  { f with queues := Function.update f.queues channel q }

/-- What the reader does with an event of the parent: an unarmed queue is not filled. -/
def deliver (f : Facade δ) (event : Event δ) : Facade δ :=
  let channel := channelOf event
  if (f.queues channel).armed then f.setQueue channel ((f.queues channel).push event) else f

/-- The look of `poll_raw` that answers; `none` once its wait is over. -/
def pollRaw (f : Facade δ) (channel : Channel) : Except Error (Option (Event δ)) × Facade δ :=
  if !f.hasConnected && !f.connected then (.error (.notConnected "gateway"), f)
  else
    let (taken, q) := (f.queues channel).arm.take
    let f := f.setQueue channel q
    match taken with
    | .event event => (.ok (some event), f)
    | .lagged skipped => (.ok (some (.gap channel.stream skipped)), f)
    | .empty =>
      if !f.connected || f.streamClosed then (.error (.channelClosed channel.plant), f)
      else (.ok none, f)

/-- A gap reads as an error. -/
def poll (f : Facade δ) (channel : Channel) : Except Error (Option (Event δ)) × Facade δ :=
  match f.pollRaw channel with
  | (.ok (some (.gap stream skipped)), f) => (.error (.channelLagged (streamPlant stream) skipped), f)
  | answer => answer

/-- A further pass of `next_events`, after its `poll_raw`; `none` ends the loop. -/
def more (f : Facade δ) (channel : Channel) : Option (Event δ) × Facade δ :=
  let (taken, q) := (f.queues channel).take
  let f := f.setQueue channel q
  match taken with
  | .event event => (some event, f)
  | .lagged skipped => (some (.gap channel.stream skipped), f)
  | .empty => (none, f)

end Facade

/-- An event weighs one, a gap what it counts. -/
def weight : Event δ → Nat
  | .gap _ skipped => skipped
  | _ => 1

/-- What the polls of a channel will return if nothing more is pushed. -/
def owed (channel : Channel) (q : Queue δ) : List (Event δ) :=
  (if 0 < q.lagged then [.gap channel.stream q.lagged] else []) ++ q.items

inductive Op (δ : Type)
  | deliver (event : Event δ)
  | arm (channel : Channel)
  | poll (channel : Channel)
  | pollRaw (channel : Channel)
  | more (channel : Channel)
  | session (connected hasConnected streamClosed : Bool)

/-- A facade with what was pushed into its armed queues and what its polls returned. -/
structure Watched (δ : Type) where
  facade : Facade δ
  pushed : Channel → List (Event δ) := fun _ => []
  returned : Channel → List (Event δ) := fun _ => []

/-- What a poll of a channel has returned of its queue. -/
def answered (channel : Channel) : Except Error (Option (Event δ)) → List (Event δ)
  | .ok event => event.toList
  | .error (.channelLagged _ skipped) => [.gap channel.stream skipped]
  | .error _ => []

namespace Watched

def hand (w : Watched δ) (channel : Channel) (events : List (Event δ)) :
    Channel → List (Event δ) :=
  Function.update w.returned channel (w.returned channel ++ events)

def step (w : Watched δ) : Op δ → Option (Watched δ)
  | .deliver event =>
    let channel := channelOf event
    some { w with
      facade := w.facade.deliver event
      pushed :=
        if (w.facade.queues channel).armed then
          Function.update w.pushed channel (w.pushed channel ++ [event])
        else w.pushed }
  | .arm channel =>
    some { w with facade := w.facade.setQueue channel (w.facade.queues channel).arm }
  | .poll channel =>
    let (answer, facade) := w.facade.poll channel
    some { w with facade, returned := w.hand channel (answered channel answer) }
  | .pollRaw channel =>
    let (answer, facade) := w.facade.pollRaw channel
    some { w with facade, returned := w.hand channel (answered channel answer) }
  | .more channel =>
    let (event, facade) := w.facade.more channel
    some { w with facade, returned := w.hand channel event.toList }
  | .session connected hasConnected streamClosed =>
    some { w with facade := { w.facade with connected, hasConnected, streamClosed } }

end Watched

/-- A new facade, and any pushes and polls on its four channels. -/
def polls : Machine (Watched δ) (Op δ) where
  Start w := w = { facade := {} }
  step := Watched.step

/-- A full queue drops an item of weight one, and the count stays within a `u64`. -/
def Queue.DropsOne (q : Queue δ) : Prop :=
  eventQueueCap ≤ q.items.length → (∀ x ∈ q.items.head?, weight x = 1) ∧ q.lagged + 1 < 2 ^ 64

/-- No push drops a gap, unless it is a gap of one. -/
def DropsEvents (w : Watched δ) : Op δ → Prop
  | .deliver event =>
    (w.facade.queues (channelOf event)).armed → (w.facade.queues (channelOf event)).DropsOne
  | _ => True

/-- The pushes of a channel are accounted for by what was returned and what is owed; so their weights
agree, and a poll returns the front of what is owed. -/
structure Watched.Conserved (w : Watched δ) (channel : Channel) : Prop where
  account : Accounted (.gap channel.stream) weight (w.pushed channel)
    (w.returned channel ++ owed channel (w.facade.queues channel))
  weights : total weight (w.pushed channel) = total weight (w.returned channel) +
    ((w.facade.queues channel).lagged + total weight (w.facade.queues channel).items)
  front : ∀ x rest, owed channel (w.facade.queues channel) = x :: rest → w.facade.hasConnected →
    (w.facade.pollRaw channel).1 = .ok (some x) ∧
      owed channel ((w.facade.pollRaw channel).2.queues channel) = rest

/-! ### One queue -/

theorem weight_gap (channel : Channel) (n : Nat) :
    weight (.gap channel.stream n : Event δ) = n := rfl

namespace Queue

variable {q : Queue δ} {channel : Channel} {pushed returned : List (Event δ)}

/-- What a look has taken, as its channel's poll returns it. -/
def taken (channel : Channel) : Take δ → List (Event δ)
  | .event event => [event]
  | .lagged skipped => [.gap channel.stream skipped]
  | .empty => []

theorem take_arm (q : Queue δ) : q.arm.take = (q.take.1, q.take.2.arm) := by
  obtain ⟨items, lagged, armed⟩ := q
  unfold take arm
  split
  · rfl
  · cases items with
    | nil => rfl
    | cons event items => rfl

theorem owed_take (q : Queue δ) (channel : Channel) :
    owed channel q = taken channel q.take.1 ++ owed channel q.take.2 := by
  unfold take owed
  split
  · rfl
  · next hzero =>
    cases hitems : q.items with
    | nil => simp [taken, hzero, hitems]
    | cons event items => simp [taken, hzero]

theorem owing_take
    (h : Owing (.gap channel.stream) weight pushed returned q.items q.lagged) :
    Owing (.gap channel.stream) weight pushed (returned ++ taken channel q.take.1)
      q.take.2.items q.take.2.lagged := by
  unfold take
  split
  · next hpos => exact h.takeGap (weight_gap channel) hpos
  · next hzero =>
    have hnone : q.lagged = 0 := by omega
    rw [hnone] at h
    cases hitems : q.items with
    | nil =>
      rw [hitems] at h
      simpa [taken, hnone, hitems] using h
    | cons event items =>
      rw [hitems] at h
      have htaken : Owing (.gap channel.stream) weight pushed (returned ++ [event]) items 0 :=
        Owing.take h
      simpa [taken, hnone] using htaken

theorem owing_push (event : Event δ) (hok : q.DropsOne)
    (h : Owing (.gap channel.stream) weight pushed returned q.items q.lagged) :
    Owing (.gap channel.stream) weight (pushed ++ [event]) returned (q.push event).items
      (q.push event).lagged := by
  unfold push
  split
  · next hfull =>
    obtain ⟨hone, hfits⟩ := hok hfull
    cases hitems : q.items with
    | nil => simp [hitems, eventQueueCap] at hfull
    | cons x items =>
      have hx : weight x = 1 := hone x (by simp [hitems])
      rw [hitems] at h
      have hdrop : Owing (.gap channel.stream) weight pushed returned items
          (q.lagged + total weight [x]) := Owing.drop h (by simp [hx])
      simp only [total_cons, total_nil, hx, Nat.add_zero] at hdrop
      rw [← Nat.mod_eq_of_lt hfits] at hdrop
      exact hdrop.push [event]
  · exact h.push [event]

end Queue

/-! ### Runs -/

/-- How far the polls of every channel have come. -/
def Watched.Sound (w : Watched δ) : Prop :=
  ∀ channel, Owing (.gap channel.stream) weight (w.pushed channel) (w.returned channel)
    (w.facade.queues channel).items (w.facade.queues channel).lagged

theorem Facade.pollRaw_cases (f : Facade δ) (channel : Channel) :
    (answered channel (f.pollRaw channel).1 = [] ∧ (f.pollRaw channel).2 = f) ∨
      (answered channel (f.pollRaw channel).1 =
          Queue.taken channel (f.queues channel).take.1 ∧
        ∃ q, (f.pollRaw channel).2 = f.setQueue channel q ∧
          q.items = (f.queues channel).take.2.items ∧
          q.lagged = (f.queues channel).take.2.lagged) := by
  unfold pollRaw
  by_cases hnever : (!f.hasConnected && !f.connected) = true
  · rw [if_pos hnever]
    exact .inl ⟨rfl, rfl⟩
  · rw [if_neg hnever]
    refine .inr ?_
    rw [Queue.take_arm]
    cases htake : (f.queues channel).take.1 with
    | event event => exact ⟨rfl, _, rfl, rfl, rfl⟩
    | lagged skipped => exact ⟨rfl, _, rfl, rfl, rfl⟩
    | empty =>
      simp only
      split
      · exact ⟨rfl, _, rfl, rfl, rfl⟩
      · exact ⟨rfl, _, rfl, rfl, rfl⟩

/-- `poll` returns what `poll_raw` would, a gap as the count of an error. -/
theorem Facade.poll_cases (f : Facade δ) (channel : Channel) :
    (f.poll channel).2 = (f.pollRaw channel).2 ∧
      (answered channel (f.poll channel).1 = answered channel (f.pollRaw channel).1 ∨
        ∃ x, answered channel (f.pollRaw channel).1 = [x] ∧
          answered channel (f.poll channel).1 = [.gap channel.stream (weight x)]) := by
  unfold poll
  split
  · next stream skipped f' hraw =>
    rw [hraw]
    exact ⟨rfl, .inr ⟨_, rfl, rfl⟩⟩
  · exact ⟨rfl, .inl rfl⟩

theorem Facade.more_eq (f : Facade δ) (channel : Channel) :
    (f.more channel).1.toList = Queue.taken channel (f.queues channel).take.1 ∧
      (f.more channel).2 = f.setQueue channel (f.queues channel).take.2 := by
  unfold more
  cases htake : (f.queues channel).take with
  | mk taken q => cases taken <;> exact ⟨rfl, rfl⟩

namespace Watched.Sound

variable {w w' : Watched δ} {channel : Channel}

/-- A change to the queue and the history of one channel. -/
theorem update (h : w.Sound) {q : Queue δ} {events pushed : List (Event δ)}
    (hq : Owing (.gap channel.stream) weight pushed (w.returned channel ++ events) q.items q.lagged) :
    Watched.Sound { w with
      facade := w.facade.setQueue channel q
      pushed := Function.update w.pushed channel pushed
      returned := w.hand channel events } := by
  intro c
  unfold Facade.setQueue Watched.hand
  by_cases hc : c = channel
  · subst hc
    simpa using hq
  · simpa [Function.update_of_ne hc] using h c

theorem took (h : w.Sound) {q : Queue δ} {events : List (Event δ)}
    (hq : Owing (.gap channel.stream) weight (w.pushed channel) (w.returned channel ++ events)
      q.items q.lagged) :
    Watched.Sound { w with
      facade := w.facade.setQueue channel q
      returned := w.hand channel events } := by
  have := h.update hq
  rwa [Function.update_eq_self] at this

theorem hand_nil (w : Watched δ) (channel : Channel) : w.hand channel [] = w.returned := by
  simp [Watched.hand]

theorem pollRaw (h : w.Sound) : Watched.Sound { w with
    facade := (w.facade.pollRaw channel).2
    returned := w.hand channel (answered channel (w.facade.pollRaw channel).1) } := by
  obtain ⟨hnone, hsame⟩ | ⟨htaken, q, hq, hitems, hlagged⟩ := w.facade.pollRaw_cases channel
  · rw [hnone, hsame, hand_nil]
    exact h
  · rw [htaken, hq]
    apply h.took
    rw [hitems, hlagged]
    exact Queue.owing_take (h channel)

theorem poll (h : w.Sound) : Watched.Sound { w with
    facade := (w.facade.poll channel).2
    returned := w.hand channel (answered channel (w.facade.poll channel).1) } := by
  obtain ⟨hsame, hanswer | ⟨x, hraw, hgap⟩⟩ := w.facade.poll_cases channel
  · rw [hsame, hanswer]
    exact h.pollRaw
  · -- the gap is reported on the channel's own stream
    have hsound : Watched.Sound { w with
        facade := (w.facade.pollRaw channel).2
        returned := w.hand channel (answered channel (w.facade.pollRaw channel).1) } := h.pollRaw
    rw [hraw] at hsound
    rw [hsame, hgap]
    intro c
    have hc := hsound c
    by_cases heq : c = channel
    · subst heq
      simp only [Watched.hand, Function.update_self] at hc ⊢
      exact hc.recount (weight_gap c)
    · simpa [Watched.hand, Function.update_of_ne heq] using hc

theorem step {op : Op δ} (h : w.Sound) (hok : DropsEvents w op) (hstep : w.step op = some w') :
    w'.Sound := by
  cases op with
  | deliver event =>
    simp only [Watched.step, Option.some.injEq] at hstep
    subst hstep
    unfold Facade.deliver
    by_cases harmed : (w.facade.queues (channelOf event)).armed = true
    · have hpush := Queue.owing_push event (hok harmed) (h (channelOf event))
      rw [← List.append_nil (w.returned (channelOf event))] at hpush
      have hsound := h.update hpush
      rw [hand_nil] at hsound
      simp only [harmed, if_true]
      exact hsound
    · simp only [harmed]
      exact h
  | arm channel =>
    simp only [Watched.step, Option.some.injEq] at hstep
    subst hstep
    have howing : Owing (.gap channel.stream) weight (w.pushed channel)
        (w.returned channel ++ []) (w.facade.queues channel).arm.items
        (w.facade.queues channel).arm.lagged := by
      rw [List.append_nil]
      exact h channel
    have harm := h.took howing
    rwa [hand_nil] at harm
  | poll channel =>
    simp only [Watched.step, Option.some.injEq] at hstep
    subst hstep
    exact h.poll
  | pollRaw channel =>
    simp only [Watched.step, Option.some.injEq] at hstep
    subst hstep
    exact h.pollRaw
  | more channel =>
    simp only [Watched.step, Option.some.injEq] at hstep
    subst hstep
    obtain ⟨htaken, hqueue⟩ := w.facade.more_eq channel
    rw [htaken, hqueue]
    exact h.took (Queue.owing_take (h channel))
  | session connected hasConnected streamClosed =>
    simp only [Watched.step, Option.some.injEq] at hstep
    subst hstep
    exact h

end Watched.Sound

theorem Facade.pollRaw_of_owed {f : Facade δ} {channel : Channel} {x : Event δ}
    {rest : List (Event δ)} (howed : owed channel (f.queues channel) = x :: rest)
    (hup : f.hasConnected = true) : (f.pollRaw channel).1 = .ok (some x) ∧
      owed channel ((f.pollRaw channel).2.queues channel) = rest := by
  have hsplit := Queue.owed_take (f.queues channel).arm channel
  have harm : owed channel (f.queues channel).arm = x :: rest := howed
  rw [harm] at hsplit
  unfold pollRaw
  rw [if_neg (by simp [hup])]
  cases htake : (f.queues channel).arm.take with
  | mk taken q =>
    rw [htake] at hsplit
    cases taken with
    | event event =>
      obtain ⟨rfl, rfl⟩ := List.cons.inj hsplit
      exact ⟨rfl, by simp [setQueue]⟩
    | lagged skipped =>
      obtain ⟨rfl, rfl⟩ := List.cons.inj hsplit
      exact ⟨rfl, by simp [setQueue]⟩
    | empty =>
      -- an empty look leaves nothing owed
      exfalso
      have hq : q = (f.queues channel).arm ∧ (f.queues channel).arm.items = [] ∧
          ¬ 0 < (f.queues channel).arm.lagged := by
        unfold Queue.take at htake
        split at htake
        · cases htake
        · next hzero =>
          split at htake
          · cases htake
          · next hitems =>
            cases htake
            exact ⟨rfl, hitems, hzero⟩
      simp [owed, hq.1, hq.2.1, hq.2.2, Queue.taken] at hsplit

theorem Watched.Sound.conserved {w : Watched δ} (h : w.Sound) (channel : Channel) :
    w.Conserved channel where
  account := Owing.account (weight_gap channel) (h channel)
  weights := by
    have haccount := (Owing.account (weight_gap channel) (h channel)).total_eq
    rw [haccount, total_append, total_append]
    split
    · simp [weight_gap]
    · next hzero =>
      have hnone : (w.facade.queues channel).lagged = 0 := by omega
      simp [hnone]
  front x rest howed hup := Facade.pollRaw_of_owed howed hup

/-- Over every run in which the bound drops only items of weight one, the weight pushed into each
channel is returned, queued or lagged, and what survives comes out in order behind the gap for what
was dropped before it. -/
theorem weight_conserved_of_run {trace : List (Op δ)} {w : Watched δ}
    (h : polls.Run DropsEvents trace w) (channel : Channel) : w.Conserved channel := by
  have hsound : w.Sound := by
    refine h.invariant (I := Watched.Sound) ?_ fun s op t hs hok hstep => hs.step hok hstep
    rintro s rfl channel
    exact Owing.start
  exact hsound.conserved channel

/-! ### A queue that overflows -/

namespace Watched

/-- The order channel with more events. -/
def grown (w : Watched δ) (events : List (Event δ)) : Watched δ :=
  { w with
    facade := w.facade.setQueue .order { w.facade.queues .order with
      items := (w.facade.queues .order).items ++ events }
    pushed := Function.update w.pushed .order (w.pushed .order ++ events) }

theorem grown_grown (w : Watched δ) (xs ys : List (Event δ)) :
    (w.grown xs).grown ys = w.grown (xs ++ ys) := by
  simp [grown, Facade.setQueue]

theorem step_deliver_of_room {w : Watched δ} {event : Event δ} (hchannel : channelOf event = .order)
    (harmed : (w.facade.queues .order).armed = true)
    (hroom : (w.facade.queues .order).items.length < eventQueueCap) :
    w.step (.deliver event) = some (w.grown [event]) := by
  have hfull : ¬ eventQueueCap ≤ (w.facade.queues .order).items.length := by omega
  simp [step, Facade.deliver, Queue.push, grown, hchannel, harmed, hfull]

theorem step_deliver_of_full {w : Watched δ} (event : Event δ) {x : Event δ}
    {rest : List (Event δ)} (hchannel : channelOf event = .order) (harmed : (w.facade.queues .order).armed = true)
    (hitems : (w.facade.queues .order).items = x :: rest) (hfull : eventQueueCap ≤ rest.length + 1) :
    ∃ w', w.step (.deliver event) = some w' ∧ w'.pushed .order = w.pushed .order ++ [event] ∧
      w'.returned = w.returned ∧
      (w'.facade.queues .order).lagged = ((w.facade.queues .order).lagged + 1) % 2 ^ 64 ∧
      (w'.facade.queues .order).items = rest ++ [event] := by
  refine ⟨_, rfl, ?_, rfl, ?_, ?_⟩
  · simp [hchannel, harmed]
  · simp [Facade.deliver, Facade.setQueue, Queue.push, hchannel, harmed, hitems, hfull]
  · simp [Facade.deliver, Facade.setQueue, Queue.push, hchannel, harmed, hitems, hfull]

end Watched

theorem run_fill {ok : Watched δ → Op δ → Prop} {trace : List (Op δ)} {w : Watched δ}
    {event : Event δ} (h : polls.Run ok trace w) (hchannel : channelOf event = .order)
    (harmed : (w.facade.queues .order).armed = true) (n : Nat)
    (hroom : (w.facade.queues .order).items.length + n ≤ eventQueueCap)
    (hok : ∀ w' : Watched δ, (w'.facade.queues .order).items.length < eventQueueCap →
      ok w' (.deliver event)) :
    polls.Run ok (trace ++ List.replicate n (Op.deliver event))
      (w.grown (List.replicate n event)) := by
  induction n with
  | zero =>
    have hsame : w.grown [] = w := by simp [Watched.grown, Facade.setQueue]
    simpa [hsame] using h
  | succ n ih =>
    have hrun := ih (by omega)
    have hlen : ((w.grown (List.replicate n event)).facade.queues .order).items.length <
        eventQueueCap := by
      simp [Watched.grown, Facade.setQueue]
      omega
    have hstep := Watched.step_deliver_of_room hchannel
      (w := w.grown (List.replicate n event))
      (by simpa [Watched.grown, Facade.setQueue] using harmed) hlen
    rw [Watched.grown_grown, ← List.replicate_succ'] at hstep
    have hnext := hrun.next (hok _ hlen) hstep
    rwa [List.append_assoc, ← List.replicate_succ'] at hnext

/-- The order channel armed, one item pushed, and behind it one order event more than fits. -/
def overfill (first : Event Nat) : List (Op Nat) :=
  [Op.arm .order, .deliver first] ++
    List.replicate (eventQueueCap - 1) (Op.deliver (.orderNotification 1)) ++
    [Op.deliver (.orderNotification 1)]

/-- The last push of `overfill` drops the first item. -/
theorem run_overfill (ok : Watched Nat → Op Nat → Prop) (first : Event Nat)
    (hfirst : channelOf first = .order) (harm : ∀ w, ok w (.arm .order))
    (hroom : ∀ w event, channelOf event = .order →
      (w.facade.queues .order).items.length < eventQueueCap → ok w (.deliver event))
    (hfull : ∀ w, (w.facade.queues .order).items.head? = some first →
      (w.facade.queues .order).lagged = 0 → ok w (.deliver (.orderNotification 1))) :
    ∃ w, polls.Run ok (overfill first) w ∧
      w.pushed .order =
        first :: List.replicate (eventQueueCap - 1) (.orderNotification 1) ++
          [Event.orderNotification 1] ∧
      w.returned .order = [] ∧ (w.facade.queues .order).lagged = 1 ∧
      (w.facade.queues .order).items =
        List.replicate (eventQueueCap - 1) (Event.orderNotification 1) ++
          [Event.orderNotification 1] := by
  let armed : Watched Nat := { facade := ({} : Facade Nat).setQueue .order { armed := true } }
  have harmed : polls.Run ok [.arm .order] armed := by
    have hstart : polls.Run ok [] ({ facade := {} } : Watched Nat) := .start rfl
    exact hstart.next (harm _) rfl
  have hone : polls.Run ok [.arm .order, .deliver first] (armed.grown [first]) := by
    refine harmed.next (hroom _ _ hfirst (by decide)) ?_
    exact Watched.step_deliver_of_room hfirst rfl (by decide)
  have hone_room : ((armed.grown [first]).facade.queues .order).items.length +
      (eventQueueCap - 1) ≤ eventQueueCap := by
    have hlen : ((armed.grown [first]).facade.queues .order).items.length = 1 := rfl
    rw [hlen]
    decide
  have hnote : ∀ w' : Watched Nat, (w'.facade.queues .order).items.length < eventQueueCap →
      ok w' (.deliver (.orderNotification 1)) := fun w' hlen => hroom w' _ rfl hlen
  have hfill := run_fill hone rfl rfl (eventQueueCap - 1) hone_room hnote
  rw [Watched.grown_grown] at hfill
  generalize hrest : List.replicate (eventQueueCap - 1) (Event.orderNotification 1) = rest at *
  have hlen : eventQueueCap ≤ rest.length + 1 := by
    rw [← hrest, List.length_replicate]
    decide
  obtain ⟨w, hstep, hpushed, hreturned, hlagged, hitems⟩ :=
    Watched.step_deliver_of_full (w := armed.grown ([first] ++ rest)) (.orderNotification 1)
      rfl rfl rfl hlen
  exact ⟨w, hfill.next (hfull _ rfl rfl) hstep, hpushed, by rw [hreturned]; rfl, hlagged, hitems⟩

theorem weight_conserved_overfill : ∃ w, polls.Run DropsEvents (overfill (.orderNotification 1)) w ∧
    (w.facade.queues .order).lagged = 1 ∧ w.Conserved .order := by
  have hroom : ∀ (w : Watched Nat) (event : Event Nat), channelOf event = .order →
      (w.facade.queues .order).items.length < eventQueueCap → DropsEvents w (.deliver event) := by
    intro w event hchannel hlen _ hfull
    rw [hchannel] at hfull
    omega
  have hfull : ∀ w : Watched Nat,
      (w.facade.queues .order).items.head? = some (.orderNotification 1) →
      (w.facade.queues .order).lagged = 0 → DropsEvents w (.deliver (.orderNotification 1)) := by
    intro w hhead hzero _ _
    have hqueue : channelOf (.orderNotification 1 : Event Nat) = .order := rfl
    rw [hqueue, hhead, hzero]
    refine ⟨fun x hx => ?_, by decide⟩
    cases hx
    rfl
  obtain ⟨w, hrun, -, -, hlagged, -⟩ := run_overfill DropsEvents (.orderNotification 1) rfl
    (fun _ => trivial) hroom hfull
  exact ⟨w, hrun, hlagged, weight_conserved_of_run hrun .order⟩

/-- A gap of five from the parent is dropped by the bound and counted as one event. -/
theorem gap_dropped_as_one : ∃ w, polls.Run Machine.Free (overfill (.gap .order 5)) w ∧
    total weight (w.pushed .order) = eventQueueCap + 5 ∧ w.returned .order = [] ∧
    (w.facade.queues .order).lagged + total weight (w.facade.queues .order).items =
      eventQueueCap + 1 ∧ ¬ w.Conserved .order := by
  obtain ⟨w, hrun, hpushed, hreturned, hlagged, hitems⟩ := run_overfill Machine.Free
    (.gap .order 5) rfl (fun _ => trivial) (fun _ _ _ _ => trivial) fun _ _ _ => trivial
  have hnotes : total weight (List.replicate (eventQueueCap - 1)
      (.orderNotification 1 : Event Nat)) = eventQueueCap - 1 := by
    simp [total, weight]
  have hcap : 1 ≤ eventQueueCap := by decide
  have hin : total weight (w.pushed .order) = eventQueueCap + 5 := by
    rw [hpushed, total_append, total_cons, hnotes]
    simp only [weight, total_cons, total_nil]
    omega
  have hleft : (w.facade.queues .order).lagged + total weight (w.facade.queues .order).items =
      eventQueueCap + 1 := by
    rw [hlagged, hitems, total_append, hnotes]
    simp only [weight, total_cons, total_nil]
    omega
  refine ⟨w, hrun, hin, hreturned, hleft, fun h => ?_⟩
  have hweights := h.weights
  rw [hin, hreturned, hleft, total_nil] at hweights
  omega

end RithmicNt.Gateway.EventQueue
