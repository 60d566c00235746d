import Mathlib.Logic.Relation
import RithmicNt.Host.Publishers

/-! A publisher that nothing interrupts does to the hub what one call of `Hub.publishPlantEvents` does. -/

namespace RithmicNt.Host.Publishers

open RithmicNt.Lib RithmicNt.Host.Fanout RithmicNt.Host.Attachment RithmicNt.Host.Batches

variable {δ β : Type}

/-! ### The hub -/

section Hub

variable {hub : Hub δ β} {kind : Kind} {fan : Fan δ β}

/-- The delivery behind a reference, where it is live and wants the kind. -/
def find (hub : Hub δ β) (kind : Kind) (r : Weak) : Option Target :=
  (hub.net.upgrade r).bind fun topic =>
    if topic.wants (hub.net.wires r.session).cells kind then some (r.session, topic) else none

/-- What `share` does to the hub. -/
def handed (fan : Fan δ β) (hub : Hub δ β) : Pending → Hub δ β
  | .held target => hub.shared fan target
  | .weak r => (find hub fan.kind r).elim hub (hub.shared fan)
  | .ring key => hub.send key fan

/-- A topic without receivers, by the consumers that want the event. -/
def direct (hub : Hub δ β) (kind : Kind) (event : Event δ) : List Target → Hub δ β
  | [] => hub
  | [only] =>
    if (hub.attachments only.1).transport then hub.shared (hub.fan kind event) only
    else hub.setAttachment only.1 ((hub.attachments only.1).push event.stream (.batch event []))
  | first :: second :: rest =>
    (first :: second :: rest).foldl (fun h target => h.shared (hub.fan kind event) target) hub

/-- The consumer that is handed a batch, by the consumers that want its first event. -/
def soleOf (hub : Hub δ β) (first : Event δ) (rest : List (Event δ)) : List Target → Option Nat
  | [only] =>
    if !(hub.attachments only.1).transport &&
        (first :: rest).all fun event => routeOf event.plant = routeOf first.plant then
      some only.1
    else none
  | _ => none

@[simp] theorem kind_fan (hub : Hub δ β) (kind : Kind) (event : Event δ) :
    (hub.fan kind event).kind = kind := by
  unfold Hub.fan
  split
  · split
    · rfl
    · rfl
  · rfl

theorem wanted_eq (hub : Hub δ β) (st : SubState) (kind : Kind) :
    hub.wanted st kind = st.deliveries.filterMap (find hub kind) := rfl

/-- References that are looked up one after another, while records go out. -/
theorem foldl_handed_weak (fan : Fan δ β) (rs : List Weak) (hub : Hub δ β) :
    (rs.map Pending.weak).foldl (handed fan) hub =
      (rs.filterMap (find hub fan.kind)).foldl (fun h target => h.shared fan target) hub := by
  induction rs generalizing hub with
  | nil => rfl
  | cons r rs ih =>
    rw [List.map_cons, List.foldl_cons, ih]
    cases hr : find hub fan.kind r with
    | none => simp [handed, hr]
    | some target =>
      rw [List.filterMap_cons_some hr, List.foldl_cons]
      simp only [handed, hr, Option.elim_some]
      rfl

theorem foldl_handed_pendingOf (fan : Fan δ β) (key : SubKey) (st : SubState) (hub : Hub δ β) :
    (pendingOf key st).foldl (handed fan) hub = hub.publish key st fan := by
  rw [pendingOf, List.foldl_append, foldl_handed_weak, ← wanted_eq]
  rfl

/-- Two consumers that are held, and references that are still to be looked at. -/
theorem direct_cons_cons (hub : Hub δ β) (kind : Kind) (event : Event δ) (first second : Target)
    (rs : List Weak) :
    direct hub kind event (first :: second :: rs.filterMap (find hub kind)) =
      ([Pending.held first, Pending.held second] ++ rs.map Pending.weak).foldl
        (handed (hub.fan kind event)) hub := by
  rw [List.foldl_append, foldl_handed_weak, kind_fan]
  rfl

theorem event_eq (key : SubKey) (st : SubState) (kind : Kind) (event : Event δ) :
    hub.event key st kind event =
      if hub.receiverCount key = 0 then direct hub kind event (hub.wanted st kind)
      else hub.publish key st (hub.fan kind event) := by
  unfold Hub.event
  split
  · match hub.wanted st kind with
    | [] => rfl
    | [_] => rfl
    | _ :: _ :: _ => rfl
  · rfl

theorem sole_eq (hub : Hub δ β) (first : Event δ) (rest : List (Event δ)) :
    hub.sole first rest =
      match routeOf first.plant with
      | .topic key kind =>
        (hub.net.subs.get? key).bind fun st =>
          if hub.receiverCount key = 0 then soleOf hub first rest (hub.wanted st kind) else none
      | _ => none := rfl

end Hub

/-! ### States in the middle of a publish -/

namespace State

variable {s : State δ β} {p : Nat} {hub : Hub δ β} {todo : List (Event δ)} {kind : Kind}

/-- Publisher `p` goes from `s` to `t` alone. -/
def Alone (p : Nat) : State δ β → State δ β → Prop :=
  Relation.ReflTransGen fun s t => s.advance p = some t

/-- `s` with `hub` for its hub, and `p` between two events. -/
def idle (s : State δ β) (p : Nat) (hub : Hub δ β) (todo : List (Event δ)) : State δ β :=
  { s with hub, publishers := Function.update s.publishers p { todo } }

/-- `s` with `hub` for its hub, and `p` at work under the guard. -/
def busy (s : State δ β) (p : Nat) (hub : Hub δ β) (todo : List (Event δ)) (phase : Phase δ β) :
    State δ β :=
  { s with
    hub
    publishers := Function.update s.publishers p { todo, phase }
    readers := s.readers + 1 }

@[simp] theorem publishers_idle : (s.idle p hub todo).publishers p = ⟨todo, .idle⟩ :=
  Function.update_self ..

@[simp] theorem publishers_busy {phase : Phase δ β} :
    (s.busy p hub todo phase).publishers p = ⟨todo, phase⟩ :=
  Function.update_self ..

@[simp] theorem hub_idle : (s.idle p hub todo).hub = hub := rfl

@[simp] theorem hub_busy {phase : Phase δ β} : (s.busy p hub todo phase).hub = hub := rfl

@[simp] theorem setPublisher_idle {todo' : List (Event δ)} :
    (s.idle p hub todo).setPublisher p { todo := todo' } = s.idle p hub todo' := by
  simp [idle, setPublisher]

@[simp] theorem enter_idle {phase : Phase δ β} :
    (s.idle p hub todo).enter p phase = s.busy p hub todo phase := by
  simp [idle, enter, goto, setPublisher, busy]

@[simp] theorem goto_busy {phase phase' : Phase δ β} :
    (s.busy p hub todo phase).goto p phase' = s.busy p hub todo phase' := by
  simp [busy, goto, setPublisher]

@[simp] theorem setPublisher_goto_busy {phase phase' : Phase δ β} {todo' : List (Event δ)} :
    ((s.busy p hub todo phase).setPublisher p { todo := todo' }).goto p phase' =
      s.busy p hub todo' phase' := by
  simp [busy, goto, setPublisher]

@[simp] theorem leave_busy {phase : Phase δ β} :
    (s.busy p hub todo phase).leave p = s.idle p hub todo := by
  simp [busy, leave, goto, setPublisher, idle]

theorem multicast_busy {phase : Phase δ β} (task : Task δ) (first second : Target) (rest : List Weak) :
    (s.busy p hub todo phase).multicast p task kind first second rest =
      (s.busy p hub todo .idle).multicast p task kind first second rest := by
  cases task with
  | batch => simp only [multicast, leave_busy]
  | event => simp only [multicast, goto_busy]

@[simp] theorem setDelivery_busy {phase : Phase δ β} (id : Nat) (d : Delivery δ β) :
    (s.busy p hub todo phase).setDelivery id d = s.busy p (hub.setAttachment id d) todo phase := rfl

@[simp] theorem share_busy {phase : Phase δ β} (fan : Fan δ β) (x : Pending) :
    (s.busy p hub todo phase).share fan x = s.busy p (handed fan hub x) todo phase := by
  cases x with
  | held target => rfl
  | weak r =>
    have hfind : (s.busy p hub todo phase).wanted r fan.kind = find hub fan.kind r := rfl
    simp only [share, handed, hfind]
    cases find hub fan.kind r with
    | none => rfl
    | some target => rfl
  | ring key => rfl

/-! ### One event -/

theorem alone_sharing (fan : Fan δ β) (pending : List Pending) :
    Alone p (s.busy p hub todo (.sharing fan pending))
      (s.idle p (pending.foldl (handed fan) hub) todo) := by
  induction pending generalizing hub with
  | nil =>
    apply Relation.ReflTransGen.single
    simp [advance]
  | cons x pending ih =>
    refine Relation.ReflTransGen.head ?_ ih
    simp [advance]

/-- How the search of `p` for consumers ends from `t`, by those that it finds. -/
inductive Ends (s : State δ β) (p : Nat) (hub : Hub δ β) (todo : List (Event δ)) (task : Task δ)
    (kind : Kind) (t : State δ β) : List Target → Prop
  | none : Alone p t (s.idle p hub todo) → Ends s p hub todo task kind t []
  | one (only : Target) : Alone p t (s.busy p hub todo (.asking task kind only)) →
      Ends s p hub todo task kind t [only]
  | more (first second : Target) (rest : List Weak) :
      Alone p t ((s.busy p hub todo .idle).multicast p task kind first second rest) →
      Ends s p hub todo task kind t (first :: second :: rest.filterMap (find hub kind))

theorem Ends.head {task : Task δ} {t u : State δ β} {found : List Target} (hstep : t.advance p = some u)
    (h : Ends s p hub todo task kind u found) : Ends s p hub todo task kind t found := by
  cases h with
  | none hrun => exact .none (.head hstep hrun)
  | one only hrun => exact .one only (.head hstep hrun)
  | more first second rest hrun => exact .more first second rest (.head hstep hrun)

/-- The search for consumers, with what it has found. -/
theorem ends_looking (task : Task δ) (held : Option Target) (rs : List Weak) :
    Ends s p hub todo task kind (s.busy p hub todo (.looking task kind held rs))
      (held.toList ++ rs.filterMap (find hub kind)) := by
  induction rs generalizing held with
  | nil =>
    cases held with
    | none =>
      refine .none (.single ?_)
      simp [advance, looked]
    | some only =>
      refine .one only (.single ?_)
      simp [advance, looked]
  | cons r rs ih =>
    have hfind : (s.busy p hub todo (.looking task kind held (r :: rs))).wanted r kind =
        find hub kind r := rfl
    cases hr : find hub kind r with
    | none =>
      rw [List.filterMap_cons_none hr]
      refine (ih held).head ?_
      simp only [advance, publishers_busy, look, hfind, hr, goto_busy]
    | some target =>
      rw [List.filterMap_cons_some hr]
      cases held with
      | none =>
        refine (ih (some target)).head ?_
        simp only [advance, publishers_busy, look, hfind, hr, goto_busy]
      | some first =>
        refine .more first target rs (.single ?_)
        simp only [advance, publishers_busy, look, hfind, hr]
        exact congrArg some (multicast_busy task first target rs)

theorem alone_making (event : Event δ) (pending : List Pending) :
    Alone p (s.busy p hub todo (.making kind event pending))
      (s.idle p (pending.foldl (handed (hub.fan kind event)) hub) todo) := by
  have hshare : Alone p (s.busy p hub todo (.sharing (hub.fan kind event) pending))
      (s.idle p (pending.foldl (handed (hub.fan kind event)) hub) todo) := alone_sharing _ pending
  by_cases hload : (!event.plant.isGap && hub.nativeSessions = 0) = true
  · have hmake : (s.busy p hub todo (.making kind event pending)).advance p =
        some (s.busy p hub todo (.encoding kind event pending)) := by
      simp only [advance, publishers_busy, make, goto_busy]
      exact congrArg some (if_pos hload)
    have hencode : (s.busy p hub todo (.encoding kind event pending)).advance p =
        some (s.busy p hub todo (.sharing (hub.fan kind event) pending)) := by
      rw [Hub.fan, if_pos hload]
      simp only [advance, publishers_busy, goto_busy]
      rfl
    exact .head hmake (.head hencode hshare)
  · have hmake : (s.busy p hub todo (.making kind event pending)).advance p =
        some (s.busy p hub todo (.sharing (hub.fan kind event) pending)) := by
      rw [Hub.fan, if_neg hload]
      simp only [advance, publishers_busy, make, goto_busy]
      exact congrArg some (if_neg hload)
    exact .head hmake hshare

theorem alone_asking (event : Event δ) (only : Target) :
    Alone p (s.busy p hub todo (.asking (.event event) kind only))
      (s.idle p (direct hub kind event [only]) todo) := by
  simp only [direct]
  by_cases htransport : (hub.attachments only.1).transport = true
  · rw [if_pos htransport]
    refine .head ?_ (alone_making event [.held only])
    simp only [advance, publishers_busy, ask, hub_busy, if_pos htransport, goto_busy]
  · rw [if_neg htransport]
    have hask : (s.busy p hub todo (.asking (.event event) kind only)).advance p =
        some (s.busy p hub todo (.owning event [] only)) := by
      simp only [advance, publishers_busy, ask, hub_busy, if_neg htransport, goto_busy]
    refine .head hask (.single ?_)
    simp only [advance, publishers_busy, hub_busy, setDelivery_busy, leave_busy]

theorem alone_looking (event : Event δ) (rs : List Weak) :
    Alone p (s.busy p hub todo (.looking (.event event) kind none rs))
      (s.idle p (direct hub kind event (rs.filterMap (find hub kind))) todo) := by
  have hends : Ends s p hub todo (.event event) kind
      (s.busy p hub todo (.looking (.event event) kind none rs)) (rs.filterMap (find hub kind)) :=
    ends_looking (.event event) none rs
  generalize rs.filterMap (find hub kind) = found at hends
  cases hends with
  | none hrun => exact hrun
  | one only hrun => exact hrun.trans (alone_asking event only)
  | more first second rest hrun =>
    rw [direct_cons_cons]
    refine hrun.trans ?_
    simp only [multicast, goto_busy]
    exact alone_making event _

theorem alone_event (key : SubKey) (event : Event δ) :
    Alone p ((s.idle p hub todo).event p key kind event)
      (s.idle p (hub.eventAt key kind event) todo) := by
  unfold State.event Hub.eventAt
  simp only [hub_idle, enter_idle]
  cases hub.net.subs.get? key with
  | none => exact .refl
  | some st =>
    simp only [event_eq]
    split
    · exact alone_looking event st.deliveries
    · rw [← foldl_handed_pendingOf]
      exact alone_making event _

/-- A gap of a market-data stream goes to every symbol. -/
theorem alone_gap (fan : Fan δ β) :
    Alone p ((s.idle p hub todo).goto p (.gapping fan))
      (s.idle p (hub.publishSymbols fan) todo) := by
  have hsymbols : hub.publishSymbols fan =
      ((hub.net.subs.entries.filter fun e => !internal e.1.symbol).flatMap fun e =>
        pendingOf e.1 e.2).foldl (handed fan) hub := by
    rw [List.foldl_flatMap, Hub.publishSymbols]
    simp only [foldl_handed_pendingOf]
  rw [hsymbols]
  refine .head ?_ (alone_sharing fan _)
  simp [advance, goto, setPublisher, idle, enter, busy]

theorem alone_plantEvent (event : Event δ) :
    Alone p ((s.idle p hub todo).publishPlantEvent p event)
      (s.idle p (hub.publishPlantEvent event) todo) := by
  unfold State.publishPlantEvent Hub.publishPlantEvent
  simp only [hub_idle]
  cases routeOf event.plant with
  | topic key kind => exact alone_event key event
  | pnl => exact alone_event pnlKey event
  | order => exact alone_event orderKey event
  | other => exact alone_event otherKey event
  | gap stream =>
    cases stream with
    | ticker => exact alone_gap _
    | history => exact alone_gap _
    | pnl => exact alone_event (gapKey .pnl) event
    | order => exact alone_event (gapKey .order) event

theorem alone_todo (todo : List (Event δ)) :
    Alone p (s.idle p hub todo) (s.idle p (todo.foldl Hub.publishPlantEvent hub) []) := by
  induction todo generalizing hub with
  | nil => exact .refl
  | cons event todo ih =>
    refine .head ?_ ((alone_plantEvent event).trans ih)
    simp only [advance, publishers_idle, setPublisher_idle]

/-! ### A batch -/

theorem alone_asking_batch (first : Event δ) (rest : List (Event δ)) (only : Target) :
    Alone p (s.busy p hub todo (.asking (.batch first rest) kind only))
      (match soleOf hub first rest [only] with
      | some id =>
        s.idle p (hub.setAttachment id ((hub.attachments id).push first.stream (.batch first rest))) []
      | none => s.idle p hub todo) := by
  simp only [soleOf]
  split
  · next id hsole =>
    split at hsole
    · next hall =>
      cases hsole
      have hask : (s.busy p hub todo (.asking (.batch first rest) kind only)).advance p =
          some (s.busy p hub [] (.owning first rest only)) := by
        simp only [advance, publishers_busy, ask, hub_busy, if_pos hall, setPublisher_goto_busy]
      refine .head hask (.single ?_)
      simp only [advance, publishers_busy, hub_busy, setDelivery_busy, leave_busy]
    · cases hsole
  · next hsole =>
    split at hsole
    · cases hsole
    · next hall =>
      apply Relation.ReflTransGen.single
      simp only [advance, publishers_busy, ask, hub_busy, if_neg hall, leave_busy]

/-- The search for the consumer that is handed the whole batch. -/
theorem alone_looking_batch (first : Event δ) (rest : List (Event δ)) (rs : List Weak) :
    Alone p (s.busy p hub todo (.looking (.batch first rest) kind none rs))
      (match soleOf hub first rest (rs.filterMap (find hub kind)) with
      | some id =>
        s.idle p (hub.setAttachment id ((hub.attachments id).push first.stream (.batch first rest))) []
      | none => s.idle p hub todo) := by
  have hends : Ends s p hub todo (.batch first rest) kind
      (s.busy p hub todo (.looking (.batch first rest) kind none rs)) (rs.filterMap (find hub kind)) :=
    ends_looking (.batch first rest) none rs
  generalize rs.filterMap (find hub kind) = found at hends
  cases hends with
  | none hrun => exact hrun
  | one only hrun => exact hrun.trans (alone_asking_batch first rest only)
  | more one two others hrun =>
    simp only [multicast, leave_busy] at hrun
    exact hrun

theorem idle_eq (h : s.publishers p = {}) (hub : Hub δ β) : s.idle p hub [] = { s with hub } := by
  rw [idle, ← h, Function.update_eq_self]

theorem publishPlantEvent_alone (h : s.publishers p = {}) (event : Event δ) :
    ∃ t, s.step (.publishPlantEvent p event) = some t ∧
      Alone p t { s with hub := s.hub.publishPlantEvent event } := by
  refine ⟨s.publishPlantEvent p event, by simp only [State.step, h], ?_⟩
  have hrun : Alone p ((s.idle p s.hub []).publishPlantEvent p event)
      (s.idle p (s.hub.publishPlantEvent event) []) := alone_plantEvent event
  rw [idle_eq h, idle_eq h] at hrun
  exact hrun

/-- A publish from its first step to its last, alone, is one call on the hub. -/
theorem publishPlantEvents_alone (h : s.publishers p = {}) (events : List (Event δ)) :
    ∃ t, s.step (.publishPlantEvents p events) = some t ∧
      Alone p t { s with hub := s.hub.publishPlantEvents events } := by
  have htodo : ∀ todo, s.setPublisher p { todo } = s.idle p s.hub todo := fun todo => rfl
  refine ⟨s.publishPlantEvents p events, by simp only [State.step, h], ?_⟩
  rw [← idle_eq h]
  unfold State.publishPlantEvents Hub.publishPlantEvents
  cases events with
  | nil => exact .refl
  | cons first rest =>
    have hall : Alone p (s.idle p s.hub (first :: rest))
        (s.idle p ((first :: rest).foldl Hub.publishPlantEvent s.hub) []) := alone_todo _
    simp only [htodo, sole_eq]
    cases routeOf first.plant with
    | topic key kind =>
      simp only [hub_idle, enter_idle]
      cases s.hub.net.subs.get? key with
      | none => exact hall
      | some st =>
        simp only [Option.bind_some]
        split
        · have hlook : Alone p
              (s.busy p s.hub (first :: rest) (.looking (.batch first rest) kind none st.deliveries))
              (match soleOf s.hub first rest (s.hub.wanted st kind) with
              | some id => s.idle p (s.hub.setAttachment id
                  ((s.hub.attachments id).push first.stream (.batch first rest))) []
              | none => s.idle p s.hub (first :: rest)) := alone_looking_batch first rest st.deliveries
          cases hsole : soleOf s.hub first rest (s.hub.wanted st kind) with
          | none =>
            rw [hsole] at hlook
            exact hlook.trans hall
          | some id =>
            rw [hsole] at hlook
            exact hlook
        · exact hall
    | _ => exact hall

end State

end RithmicNt.Host.Publishers
