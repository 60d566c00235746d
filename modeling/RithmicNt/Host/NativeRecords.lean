import RithmicNt.Host.AttachmentReads
import RithmicNt.Host.Publishers

/-! A native reader never meets an encoded record: a publisher encodes only what it shares with
attachments that a transport has claimed, or that are closed. -/

namespace RithmicNt.Host.Publishers

open RithmicNt.Lib RithmicNt.Host.Fanout RithmicNt.Host.Attachment RithmicNt.Host.Batches

variable {δ β : Type}

/-! ### One attachment -/

/-- Every queued record is typed. -/
def Typed (d : Delivery δ β) : Prop :=
  ∀ stream, ∀ x ∈ (d.queues stream).entries, ∃ e, x = .event e

/-- Whatever is pushed from now on, no native read meets it. -/
def Out (d : Delivery δ β) : Prop := d.transport = true ∨ d.closed = true

/-- Native reads of the attachment meet typed records only. -/
def Readable (d : Delivery δ β) : Prop := d.transport = false → Typed d

/-- What each call on an attachment and each push to it keeps. -/
structure Follows (d d' : Delivery δ β) : Prop where
  transport : d.transport = true → d'.transport = true
  closed : d.closed = true → d'.closed = true
  readable : Readable d → Readable d'

section Delivery

variable {d d' : Delivery δ β} {stream : Stream}

theorem typed_new (capacity : Nat) : Typed (.new capacity : Delivery δ β) := by
  intro stream x hx
  cases hx

theorem Out.follows (h : Out d) (hd : Follows d d') : Out d' := h.imp hd.transport hd.closed

theorem Typed.push (h : Typed d) {record : Record δ β}
    (hrecord : ∀ x ∈ record.entries, ∃ e, x = .event e) : Typed (d.push stream record) := by
  unfold Delivery.push
  split
  · exact h
  · intro s x hx
    by_cases hs : s = stream
    · subst hs
      rw [Delivery.queues_setQueue, Function.update_self] at hx
      have hmem : x ∈ (d.queues s).entries ++ record.entries := by
        rw [Queue.entries_push (d.queues s) d.capacity (d.sequence + 1) record]
        exact List.mem_append_right _ hx
      rcases List.mem_append.mp hmem with hx | hx
      · exact h s x hx
      · exact hrecord x hx
    · rw [Delivery.queues_setQueue, Function.update_of_ne hs] at hx
      exact h s x hx

/-- A call that keeps the flags, and the queues typed where native reads are left. -/
theorem Follows.of_frame (htransport : d'.transport = d.transport) (hclosed : d'.closed = d.closed)
    (htyped : d.transport = false → Typed d → Typed d') : Follows d d' where
  transport h := htransport.trans h
  closed h := hclosed.trans h
  readable h hnative :=
    have hleft := htransport.symm.trans hnative
    htyped hleft (h hleft)

/-- A push of typed records. -/
theorem Follows.push {record : Record δ β} (hrecord : ∀ x ∈ record.entries, ∃ e, x = .event e) :
    Follows d (d.push stream record) :=
  .of_frame (transport_push record) (closed_push record) fun _ h => h.push hrecord

/-- Any push to an attachment that is claimed or closed. -/
theorem Follows.push_of_out (hout : Out d) (record : Record δ β) : Follows d (d.push stream record) := by
  refine .of_frame (transport_push record) (closed_push record) fun hnative h => ?_
  rcases hout with ht | hc
  · rw [ht] at hnative
    cases hnative
  · rw [push_of_closed record hc]
    exact h

theorem entries_batch_typed (first : Event δ) (rest : List (Event δ)) :
    ∀ x ∈ (Record.batch first rest : Record δ β).entries, ∃ e, x = .event e := by
  intro x hx
  obtain ⟨t, ht, rfl⟩ := List.mem_map.mp hx
  rcases List.mem_cons.mp ht with rfl | ht
  · exact ⟨first, rfl⟩
  · obtain ⟨e, -, rfl⟩ := List.mem_map.mp ht
    exact ⟨e, rfl⟩

theorem entries_shared_typed {fan : Fan δ β} {e : Event δ} (h : fan.event = some e) :
    ∀ x ∈ (Record.shared fan : Record δ β).entries, ∃ e, x = .event e := by
  intro x hx
  obtain ⟨t, ht, rfl⟩ := List.mem_map.mp hx
  obtain rfl := List.mem_singleton.mp ht
  exact ⟨e, Taken.entry_of_event h⟩

theorem Follows.shared (fan : Fan δ β) (h : fan.event = none → Out d) :
    Follows d (d.shared stream fan) := by
  cases hfan : fan.event with
  | none => exact .push_of_out (h hfan) _
  | some e => exact .push (entries_shared_typed hfan)

/-! Native reads -/

theorem mem_entries_pop {q q' : Queue δ β} {t : Taken δ β} (h : q.pop stream = some (t, q'))
    {x : Entry δ β} (hx : x ∈ q'.entries) : x ∈ q.entries := by
  unfold Queue.pop at h
  split at h
  · cases h
    exact hx
  · obtain ⟨⟨y, rest⟩, hpop, hrest⟩ := Option.map_eq_some_iff.mp h
    cases hrest
    obtain ⟨hitems, -, -⟩ := Queue.popRecord_eq_some hpop
    unfold Queue.entries at hx ⊢
    rw [hitems, List.map_cons]
    exact List.mem_cons_of_mem _ hx

theorem mem_entries_popEvents {q q' : Queue δ β} {count : Nat} {events : List (Event δ)}
    (h : q.popEvents stream count = some (events, q')) {x : Entry δ β} (hx : x ∈ q'.entries) :
    x ∈ q.entries := by
  induction count generalizing q events with
  | zero =>
    cases h
    exact hx
  | succ count ih =>
    obtain ⟨⟨t, rest⟩, ht, hrest⟩ := Option.bind_eq_some_iff.mp h
    obtain ⟨event, -, hmore⟩ := Option.bind_eq_some_iff.mp hrest
    obtain ⟨⟨batch, last⟩, hbatch, hlast⟩ := Option.map_eq_some_iff.mp hmore
    cases hlast
    exact mem_entries_pop ht (ih hbatch)

theorem singles_frame {max : Nat} {answer : Batch δ} (h : d.singles stream max = some (answer, d')) :
    d'.transport = d.transport ∧ d'.closed = d.closed := by
  unfold Delivery.singles at h
  simp only at h
  rw [← Queue.length_owed _ stream] at h
  split at h
  · obtain ⟨⟨events, q⟩, -, hd⟩ := Option.map_eq_some_iff.mp h
    cases hd
    exact ⟨rfl, rfl⟩
  · split at h
    · cases h
      exact ⟨rfl, rfl⟩
    · cases h
      exact ⟨rfl, rfl⟩

theorem nextEvents_frame {max : Nat} {answer : Batch δ} (h : d.nextEvents stream max = some (answer, d')) :
    d'.transport = d.transport ∧ d'.closed = d.closed := by
  unfold Delivery.nextEvents at h
  simp only at h
  split at h
  · split at h
    · cases h
      exact ⟨rfl, rfl⟩
    · exact singles_frame (d := { d with nativeStarted := true }) h
  · exact singles_frame (d := { d with nativeStarted := true }) h

/-- A native read takes from the front of its queue. -/
theorem mem_entries_nextEvents {max : Nat} {answer : Batch δ}
    (h : d.nextEvents stream max = some (answer, d')) (s : Stream) {x : Entry δ β}
    (hx : x ∈ (d'.queues s).entries) : x ∈ (d.queues s).entries := by
  obtain ⟨q, hq, hcases⟩ := Delivery.nextEvents_cases h
  rw [hq] at hx
  by_cases hs : s = stream
  · subst hs
    rw [Function.update_self] at hx
    obtain ⟨sequence, first, rest, records, -, hrecords, -, rfl⟩ | ⟨count, events, hpop, -⟩ |
      ⟨rfl, -⟩ := hcases
    · rw [Queue.entries_batch hrecords]
      exact List.mem_append_right _ hx
    · exact mem_entries_popEvents hpop hx
    · exact hx
  · rw [Function.update_of_ne hs] at hx
    exact hx

theorem Follows.nextEvents {max : Nat} {answer : Batch δ}
    (h : d.nextEvents stream max = some (answer, d')) : Follows d d' := by
  obtain ⟨htransport, hclosed⟩ := nextEvents_frame h
  refine .of_frame htransport hclosed fun _ htyped s x hx => ?_
  exact htyped s x (mem_entries_nextEvents h s hx)

/-! The other calls -/

theorem Follows.close (d : Delivery δ β) : Follows d d.close := ⟨id, fun _ => rfl, id⟩

theorem Follows.flush (d : Delivery δ β) : Follows d d.flush := by
  unfold Delivery.flush
  split
  · exact ⟨id, id, id⟩
  · split
    · exact ⟨id, id, id⟩
    · exact ⟨id, id, id⟩

theorem Follows.takeEvents (d : Delivery δ β) : Follows d d.takeEvents := by
  unfold Delivery.takeEvents
  split
  · exact ⟨id, id, id⟩
  · refine ⟨fun _ => rfl, id, fun _ hnative => ?_⟩
    cases hnative

/-- What a transport takes is out of reach of native reads. -/
theorem Follows.tryRecv {received : Received δ β} (htransport : d.transport = true)
    (h : d.tryRecv = some (received, d')) : Follows d d' := by
  have hframe : d'.transport = d.transport ∧ d'.closed = d.closed := by
    unfold Delivery.tryRecv at h
    split at h
    · cases h
    · cases h
      exact ⟨rfl, rfl⟩
    · obtain ⟨⟨taken, q⟩, -, hd⟩ := Option.map_eq_some_iff.mp h
      cases hd
      exact ⟨rfl, rfl⟩
  refine .of_frame hframe.1 hframe.2 fun hnative => ?_
  rw [htransport] at hnative
  cases hnative

end Delivery

/-! ### Sessions and publishers -/

/-- The session is on the count of native sessions. -/
def Session.counts (x : Session) : Bool := x.native || x.life = .releasing || x.life = .leaving

/-- How far a session and its attachment have come together. -/
structure Session.Fits (x : Session) (d : Delivery δ β) : Prop where
  out : x.native = false → Out d
  claimed : x.life = .claimed ∨ x.life = .releasing → d.transport = true
  closed : x.life = .closed ∨ x.life = .leaving → d.closed = true
  swapped : x.life = .releasing ∨ x.life = .leaving → x.native = false

theorem Session.Fits.follows {x : Session} {d d' : Delivery δ β} (h : x.Fits d) (hd : Follows d d') :
    x.Fits d' where
  out hnative := (h.out hnative).follows hd
  claimed hlife := hd.transport (h.claimed hlife)
  closed hlife := hd.closed (h.closed hlife)
  swapped := h.swapped

/-- A session that no call is taking off the count. -/
theorem Session.fits_of_out {x : Session} {d : Delivery δ β} (hlife : x.life = .live ∨ x.life = .gone)
    (hout : x.native = false → Out d) : x.Fits d := by
  rcases hlife with hlife | hlife
  · exact ⟨hout, by simp [hlife], by simp [hlife], by simp [hlife]⟩
  · exact ⟨hout, by simp [hlife], by simp [hlife], by simp [hlife]⟩

def Pending.Within (ok : Nat → Prop) : Pending → Prop
  | .held target => ok target.1
  | .weak r => ok r.session
  | .ring _ => True

/-- A publisher holds and looks at deliveries of `known` sessions, and takes an encoded record only to
those that are `out`. -/
def Phase.Fits (known out : Nat → Prop) : Phase δ β → Prop
  | .idle | .owning .. => True
  | .gapping fan => ∃ e, fan.event = some e
  | .looking _ _ held rest => (∀ target ∈ held, known target.1) ∧ ∀ r ∈ rest, known r.session
  | .asking _ _ only => known only.1
  | .making _ _ pending => ∀ x ∈ pending, x.Within known
  | .encoding _ _ pending => ∀ x ∈ pending, x.Within out
  | .sharing fan pending => fan.event = none → ∀ x ∈ pending, x.Within out

theorem Pending.Within.mono {ok ok' : Nat → Prop} (hle : ∀ id, ok id → ok' id) {x : Pending}
    (h : x.Within ok) : x.Within ok' := by
  cases x with
  | held target => exact hle _ h
  | weak r => exact hle _ h
  | ring key => trivial

theorem Phase.Fits.mono {known known' out out' : Nat → Prop} {phase : Phase δ β}
    (h : phase.Fits known out) (hknown : ∀ id, known id → known' id) (hout : ∀ id, out id → out' id) :
    phase.Fits known' out' := by
  cases phase with
  | idle => trivial
  | owning => trivial
  | gapping => exact h
  | looking => exact ⟨fun target ht => hknown _ (h.1 target ht), fun r hr => hknown _ (h.2 r hr)⟩
  | asking => exact hknown _ h
  | making => exact fun x hx => (h x hx).mono hknown
  | encoding => exact fun x hx => (h x hx).mono hout
  | sharing => exact fun hfan x hx => (h hfan x hx).mono hout

namespace State

variable {s t : State δ β} {id p : Nat}

def Known (s : State δ β) (id : Nat) : Prop := (s.sessions.get? id).isSome = true

/-- A session whose attachment no native read needs any more. -/
def Left (s : State δ β) (id : Nat) : Prop := s.Known id ∧ Out (s.hub.attachments id)

/-- The count is that of the sessions on it, a session is off it only once its attachment is out, and
an encoded record is on its way only to such attachments. -/
structure Inv (s : State δ β) : Prop where
  counted : s.hub.nativeSessions = s.sessions.entries.countP fun e => e.2.counts
  sessions : ∀ id x, s.sessions.get? id = some x → x.Fits (s.hub.attachments id)
  members : ∀ key st, s.hub.net.subs.get? key = some st → ∀ r ∈ st.deliveries, s.Known r.session
  readable : ∀ id, Readable (s.hub.attachments id)
  phases : ∀ p, (s.publishers p).phase.Fits s.Known s.Left

theorem inv_start (capacity : Nat) (encoder : Option (Event δ → β)) : (start capacity encoder).Inv where
  counted := rfl
  sessions id x h := by cases h
  members key st h := by cases h
  readable id _ := typed_new capacity
  phases p := trivial

/-- A load of 0 tells that every session has left. -/
theorem Inv.left_of_count (h : s.Inv) (hcount : s.hub.nativeSessions = 0) (hid : s.Known id) :
    s.Left id := by
  obtain ⟨x, hx⟩ := Option.isSome_iff_exists.mp hid
  have hnone := List.countP_eq_zero.mp (h.counted.symm.trans hcount)
  have hcounts : ¬ x.counts = true := hnone (id, x) (Dict.mem_entries_iff.mpr hx)
  have hnative : x.native = false := by
    cases hn : x.native with
    | false => rfl
    | true => simp [Session.counts, hn] at hcounts
  exact ⟨hid, (h.sessions id x hx).out hnative⟩

/-! #### Publishers -/

theorem Inv.setPublisher (h : s.Inv) {x : Publisher δ β} (hx : x.phase.Fits s.Known s.Left) :
    (s.setPublisher p x).Inv where
  counted := h.counted
  sessions := h.sessions
  members := h.members
  readable := h.readable
  phases := by
    refine (Function.forall_update_iff s.publishers fun _ y => y.phase.Fits s.Known s.Left).mpr ?_
    exact ⟨hx, fun p' _ => h.phases p'⟩

theorem Inv.goto (h : s.Inv) {phase : Phase δ β} (hphase : phase.Fits s.Known s.Left) :
    (s.goto p phase).Inv :=
  h.setPublisher hphase

theorem Inv.setReaders (h : s.Inv) (readers : Nat) : Inv { s with readers } :=
  ⟨h.counted, h.sessions, h.members, h.readable, h.phases⟩

theorem Inv.enter (h : s.Inv) {phase : Phase δ β} (hphase : phase.Fits s.Known s.Left) :
    (s.enter p phase).Inv :=
  (h.setReaders (s.readers + 1)).goto hphase

theorem Inv.leave (h : s.Inv) : (s.leave p).Inv := (h.setReaders (s.readers - 1)).goto trivial

theorem session_of_wanted {r : Weak} {kind : Kind} {target : Target}
    (h : s.wanted r kind = some target) : target.1 = r.session := by
  obtain ⟨topic, -, htopic⟩ := Option.bind_eq_some_iff.mp h
  split at htopic
  · cases htopic
    rfl
  · cases htopic

theorem Inv.within_pendingOf (h : s.Inv) {key : SubKey} {st : SubState}
    (hst : s.hub.net.subs.get? key = some st) : ∀ x ∈ pendingOf key st, x.Within s.Known := by
  intro x hx
  rcases List.mem_append.mp hx with hx | hx
  · obtain ⟨r, hr, rfl⟩ := List.mem_map.mp hx
    exact h.members key st hst r hr
  · obtain rfl := List.mem_singleton.mp hx
    trivial

theorem Inv.event (h : s.Inv) (key : SubKey) (kind : Kind) (event : Event δ) :
    (s.event p key kind event).Inv := by
  unfold State.event
  split
  · exact h
  · next st hst =>
    split
    · exact h.enter ⟨nofun, h.members key st hst⟩
    · exact h.enter (h.within_pendingOf hst)

theorem isGap_of_routeOf {event : PlantEvent} {stream : Stream} (h : routeOf event = .gap stream) :
    event.isGap = true := by
  cases event with
  | gap => rfl
  | _ => cases h

/-- A gap is never encoded. -/
theorem fan_of_isGap (hub : Hub δ β) (kind : Kind) {event : Event δ} (h : event.plant.isGap = true) :
    (hub.fan kind event).event = some event := by
  unfold Hub.fan
  rw [h]
  rfl

theorem Inv.publishPlantEvent (h : s.Inv) (event : Event δ) : (s.publishPlantEvent p event).Inv := by
  have hgap : ∀ stream, routeOf event.plant = .gap stream →
      (s.goto p (.gapping (s.hub.fan .any event))).Inv := fun stream hroute =>
    h.goto ⟨event, fan_of_isGap s.hub .any (isGap_of_routeOf hroute)⟩
  unfold State.publishPlantEvent
  simp only
  split
  · exact h.event ..
  · next hroute => exact hgap _ hroute
  · next hroute => exact hgap _ hroute
  · exact h.event ..
  · exact h.event ..
  · exact h.event ..
  · exact h.event ..

theorem Inv.publishPlantEvents (h : s.Inv) (events : List (Event δ)) :
    (s.publishPlantEvents p events).Inv := by
  have htodo : (s.setPublisher p { todo := events }).Inv := h.setPublisher trivial
  unfold State.publishPlantEvents
  simp only
  split
  · exact htodo
  · split
    · split
      · exact htodo
      · next st hst =>
        split
        · exact htodo.enter ⟨nofun, htodo.members _ st hst⟩
        · exact htodo
    · exact htodo

/-- The look at one more delivery. -/
theorem Inv.look (h : s.Inv) {task : Task δ} {kind : Kind} {held : Option Target} {r : Weak}
    {rest : List Weak} (hheld : ∀ target ∈ held, s.Known target.1)
    (hrest : ∀ r' ∈ r :: rest, s.Known r'.session) : (s.look p task kind held r rest).Inv := by
  have hmore : ∀ r' ∈ rest, s.Known r'.session := fun r' hr' => hrest r' (List.mem_cons_of_mem _ hr')
  have hfound : ∀ {target}, s.wanted r kind = some target → s.Known target.1 := by
    intro target hw
    rw [session_of_wanted hw]
    exact hrest r List.mem_cons_self
  unfold State.look
  split
  · exact h.goto ⟨hheld, hmore⟩
  · next first hw =>
    refine h.goto ⟨fun target ht => ?_, hmore⟩
    obtain rfl := Option.some.inj ht
    exact hfound hw
  · next second first hw =>
    unfold State.multicast
    split
    · exact h.leave
    · refine h.goto fun x hx => ?_
      rcases List.mem_cons.mp hx with rfl | hx
      · exact hheld first rfl
      · rcases List.mem_cons.mp hx with rfl | hx
        · exact hfound hw
        · obtain ⟨r', hr', rfl⟩ := List.mem_map.mp hx
          exact hmore r' hr'

theorem Inv.ask (h : s.Inv) {task : Task δ} {kind : Kind} {only : Target} (honly : s.Known only.1) :
    (s.ask p task kind only).Inv := by
  unfold State.ask
  split
  · split
    · exact (h.setPublisher (x := { todo := [] }) trivial).goto trivial
    · exact h.leave
  · split
    · refine h.goto fun x hx => ?_
      obtain rfl := List.mem_singleton.mp hx
      exact honly
    · exact h.goto trivial

/-- The load of the count.  Whoever is to be served was there before it. -/
theorem Inv.make (h : s.Inv) {kind : Kind} {event : Event δ} {pending : List Pending}
    (hpending : ∀ x ∈ pending, x.Within s.Known) : (s.make p kind event pending).Inv := by
  unfold State.make
  split
  · next hload =>
    have hcount : s.hub.nativeSessions = 0 := by
      rw [Bool.and_eq_true, decide_eq_true_eq] at hload
      exact hload.2
    exact h.goto fun x hx => (hpending x hx).mono fun id hid => h.left_of_count hcount hid
  · refine h.goto fun hnone => ?_
    cases hnone

/-! #### Attachments -/

theorem left_setDelivery {d : Delivery δ β} (hd : Follows (s.hub.attachments id) d) :
    ∀ i, s.Left i → (s.setDelivery id d).Left i := by
  refine (Function.forall_update_iff s.hub.attachments fun i d' =>
    s.Left i → s.Known i ∧ Out d').mpr ?_
  exact ⟨fun hleft => ⟨hleft.1, hleft.2.follows hd⟩, fun i _ hleft => hleft⟩

theorem Inv.setDelivery (h : s.Inv) {d : Delivery δ β} (hd : Follows (s.hub.attachments id) d) :
    (s.setDelivery id d).Inv where
  counted := h.counted
  sessions := by
    refine (Function.forall_update_iff s.hub.attachments fun i d' =>
      ∀ x, s.sessions.get? i = some x → x.Fits d').mpr ?_
    exact ⟨fun x hx => (h.sessions id x hx).follows hd, fun i _ => h.sessions i⟩
  members := h.members
  readable := by
    refine (Function.forall_update_iff s.hub.attachments fun _ d' => Readable d').mpr ?_
    exact ⟨hd.readable (h.readable id), fun i _ => h.readable i⟩
  phases p := (h.phases p).mono (fun _ hi => hi) (left_setDelivery hd)

/-- A record that is encoded goes to an attachment that has left. -/
theorem Inv.shared (h : s.Inv) {fan : Fan δ β} {target : Target}
    (htarget : fan.event = none → s.Left target.1) :
    Inv { s with hub := s.hub.shared fan target } :=
  h.setDelivery (.shared fan fun hfan => (htarget hfan).2)

theorem Inv.setChannels (h : s.Inv) (channels : SubKey → Option (Channel δ β)) :
    Inv { s with hub := { s.hub with channels } } :=
  ⟨h.counted, h.sessions, h.members, h.readable, h.phases⟩

theorem Inv.send (h : s.Inv) (key : SubKey) (fan : Fan δ β) : Inv { s with hub := s.hub.send key fan } := by
  unfold Hub.send
  split
  · exact h
  · split
    · exact h
    · exact h.setChannels _

theorem Inv.share (h : s.Inv) {fan : Fan δ β} {next : Pending}
    (hnext : fan.event = none → next.Within s.Left) : (s.share fan next).Inv := by
  cases next with
  | held target => exact h.shared hnext
  | weak r =>
    unfold State.share
    simp only
    split
    · exact h
    · next target hw =>
      refine h.shared fun hfan => ?_
      rw [session_of_wanted hw]
      exact hnext hfan
  | ring key => exact h.send key fan

theorem publishers_share (fan : Fan δ β) (next : Pending) :
    (s.share fan next).publishers = s.publishers := by
  cases next with
  | held target => rfl
  | weak r =>
    unfold State.share
    simp only
    split
    · rfl
    · rfl
  | ring key => rfl

/-- One step of a publisher. -/
theorem Inv.advance (h : s.Inv) (hstep : s.advance p = some t) : t.Inv := by
  have hphase := h.phases p
  unfold State.advance at hstep
  split at hstep
  · cases hstep
  · cases hstep
    exact (h.setPublisher (x := { todo := _ }) trivial).publishPlantEvent _
  · next fan hp =>
    cases hstep
    rw [hp] at hphase
    obtain ⟨e, he⟩ := hphase
    refine h.enter fun hnone => ?_
    rw [he] at hnone
    cases hnone
  · next held hp =>
    cases hstep
    rw [hp] at hphase
    unfold State.looked
    split
    · exact h.leave
    · exact h.goto (hphase.1 _ rfl)
  · next hp =>
    cases hstep
    rw [hp] at hphase
    exact h.look hphase.1 hphase.2
  · next hp =>
    cases hstep
    rw [hp] at hphase
    exact h.ask hphase
  · cases hstep
    exact (h.setDelivery (.push (entries_batch_typed _ _))).leave
  · next hp =>
    cases hstep
    rw [hp] at hphase
    exact h.make hphase
  · next hp =>
    cases hstep
    rw [hp] at hphase
    exact h.goto fun _ => hphase
  · cases hstep
    exact h.leave
  · next fan next pending hp =>
    cases hstep
    rw [hp] at hphase
    have hshare := h.share fun hfan => hphase hfan next List.mem_cons_self
    have hrest := hshare.phases p
    rw [publishers_share, hp] at hrest
    exact hshare.goto fun hfan x hx => hrest hfan x (List.mem_cons_of_mem _ hx)

/-! #### Sessions -/

theorem known_set {x : Session} {i : Nat} (h : s.Known i) :
    ((s.sessions.set id x).get? i).isSome = true := by
  rw [Dict.get?_set]
  split
  · rfl
  · exact h

/-- A session moves on, and the count with it. -/
theorem Inv.setSession (h : s.Inv) {x y : Session} {count : Nat} (hx : s.sessions.get? id = some x)
    (hcount : count + (if x.counts then 1 else 0) = s.hub.nativeSessions + if y.counts then 1 else 0)
    (hfits : y.Fits (s.hub.attachments id)) :
    Inv { s with hub := { s.hub with nativeSessions := count }, sessions := s.sessions.set id y } where
  counted := by
    have hset := Dict.countP_set hx y fun e => e.2.counts
    have hcounted := h.counted
    show count = (s.sessions.set id y).entries.countP fun e => e.2.counts
    simp only at hset
    omega
  sessions i z hz := by
    change (s.sessions.set id y).get? i = some z at hz
    rw [Dict.get?_set] at hz
    split at hz
    · next hi =>
      cases hz
      exact hi ▸ hfits
    · exact h.sessions i z hz
  members key st hst r hr := known_set (h.members key st hst r hr)
  readable := h.readable
  phases p := (h.phases p).mono (fun _ hi => known_set hi) fun _ hi => ⟨known_set hi.1, hi.2⟩

/-- An attachment of its own comes with a count of its own. -/
theorem Inv.attach (h : s.Inv) (hid : s.sessions.get? id = none) (native : Bool) :
    (s.attach id native).Inv := by
  have hne : ∀ {i}, s.Known i → i ≠ id := by
    rintro i hi rfl
    rw [Known, hid] at hi
    cases hi
  constructor
  case counted =>
    have hset := Dict.countP_set_new hid { native } fun e => e.2.counts
    have hcounts : ({ native } : Session).counts = native := by simp [Session.counts]
    show s.hub.nativeSessions + _ = (s.sessions.set id { native }).entries.countP fun e => e.2.counts
    rw [hset, h.counted, hcounts]
  case sessions =>
    intro i x hx
    change (s.sessions.set id { native }).get? i = some x at hx
    show x.Fits (Function.update s.hub.attachments id _ i)
    rw [Dict.get?_set] at hx
    split at hx
    · next hi =>
      cases hx
      rw [hi, Function.update_self]
      refine Session.fits_of_out (.inl rfl) ?_
      rintro rfl
      exact .inl rfl
    · next hi =>
      rw [Function.update_of_ne hi]
      exact h.sessions i x hx
  case members => exact fun key st hst r hr => known_set (h.members key st hst r hr)
  case readable =>
    refine (Function.forall_update_iff s.hub.attachments fun _ d' => Readable d').mpr ?_
    refine ⟨fun hnative => ?_, fun i _ => h.readable i⟩
    split
    · exact typed_new s.capacity
    · next hn =>
      rw [if_neg hn] at hnative
      cases hnative
  case phases =>
    intro p
    refine (h.phases p).mono (fun _ hi => known_set hi) fun i hi => ⟨known_set hi.1, ?_⟩
    show Out (Function.update s.hub.attachments id _ i)
    rw [Function.update_of_ne (hne hi.1)]
    exact hi.2

/-- The claim comes before the swap of the flag and before the count. -/
theorem Inv.takeEvents (h : s.Inv) {x : Session} (hx : s.sessions.get? id = some x)
    (hheld : x.life.isHeld = true) : (s.takeEvents id x).Inv := by
  unfold State.takeEvents
  simp only
  split
  · exact h
  · next hfree =>
    rw [Bool.or_eq_true, not_or] at hfree
    have hfits := h.sessions id x hx
    have hlive : x.life = .live := by
      cases hlife : x.life with
      | live => rfl
      | claimed => exact absurd (hfits.claimed (.inl hlife)) hfree.2
      | releasing => exact absurd (hfits.claimed (.inr hlife)) hfree.2
      | _ => simp [Life.isHeld, hlife] at hheld
    have htaken := h.setDelivery (Follows.takeEvents (s.hub.attachments id))
    have hclaimed : ((s.setDelivery id (s.hub.attachments id).takeEvents).hub.attachments id).transport =
        true := by
      simp [State.setDelivery, Hub.setAttachment, Delivery.takeEvents, hfree.1]
    refine htaken.setSession hx ?_ ⟨fun _ => .inl hclaimed, fun _ => hclaimed, ?_, ?_⟩
    · simp [Session.counts, hlive, State.setDelivery, Hub.setAttachment]
    · simp
    · simp

/-- The flag is swapped on an attachment that is out, and the session stays on the count. -/
theorem Inv.swapNative (h : s.Inv) {x : Session} (hx : s.sessions.get? id = some x)
    (hstep : s.swapNative id x = some t) : t.Inv := by
  have hfits := h.sessions id x hx
  unfold State.swapNative at hstep
  split at hstep
  · next hlife =>
    cases hstep
    have htransport := hfits.claimed (.inl hlife)
    refine h.setSession hx ?_ ⟨fun _ => .inl htransport, fun _ => htransport, ?_, fun _ => rfl⟩
    · cases hn : x.native <;> simp [Session.counts, hlife, hn]
    · cases hn : x.native <;> simp
  · next hlife =>
    cases hstep
    have hclosed := hfits.closed (.inl hlife)
    refine h.setSession hx ?_ ⟨fun _ => .inr hclosed, ?_, fun _ => hclosed, fun _ => rfl⟩
    · cases hn : x.native <;> simp [Session.counts, hlife, hn]
    · cases hn : x.native <;> simp
  · cases hstep

/-- The session goes off the count. -/
theorem Inv.nativeDetached (h : s.Inv) {x : Session} (hx : s.sessions.get? id = some x)
    (hstep : s.nativeDetached id x = some t) : t.Inv := by
  have hfits := h.sessions id x hx
  have hcount : ∀ life, x.counts = true → ({ x with life } : Session).counts = false →
      s.hub.nativeSessions - 1 + (if x.counts then 1 else 0) =
        s.hub.nativeSessions + if ({ x with life } : Session).counts then 1 else 0 := by
    intro life hon hoff
    have hpos : 0 < s.hub.nativeSessions := by
      rw [h.counted]
      exact List.countP_pos_iff.mpr ⟨(id, x), Dict.mem_entries_iff.mpr hx, hon⟩
    rw [if_pos hon, hoff]
    simp only [Bool.false_eq_true, if_false]
    omega
  unfold State.nativeDetached at hstep
  split at hstep
  · next hlife =>
    cases hstep
    have hnative := hfits.swapped (.inl hlife)
    refine h.setSession hx (hcount .live ?_ ?_) (Session.fits_of_out (.inl rfl) hfits.out)
    · simp [Session.counts, hlife]
    · simp [Session.counts, hnative]
  · next hlife =>
    cases hstep
    have hnative := hfits.swapped (.inr hlife)
    refine h.setSession hx (hcount .gone ?_ ?_) (Session.fits_of_out (.inr rfl) hfits.out)
    · simp [Session.counts, hlife]
    · simp [Session.counts, hnative]
  · cases hstep

/-- The drop of a session closes its queues before anything else. -/
theorem Inv.drop (h : s.Inv) {x : Session} (hx : s.sessions.get? id = some x) (hlive : x.life = .live) :
    ((s.setDelivery id (s.hub.attachments id).close).setSession id { x with life := .closed }).Inv := by
  have hclosed := h.setDelivery (Follows.close (s.hub.attachments id))
  have hclose : ((s.setDelivery id (s.hub.attachments id).close).hub.attachments id).closed = true := by
    simp [State.setDelivery, Hub.setAttachment, Delivery.close]
  refine hclosed.setSession hx ?_ ⟨fun _ => .inr hclose, ?_, fun _ => hclose, ?_⟩
  · simp [Session.counts, hlive, State.setDelivery, Hub.setAttachment]
  · simp
  · simp

theorem Inv.onDelivery (h : s.Inv) {f : Delivery δ β → Option (Delivery δ β)}
    (hf : ∀ d d', f d = some d' → Follows d d') (hstep : s.onDelivery id f = some t) : t.Inv := by
  obtain ⟨x, -, hcall⟩ := Option.bind_eq_some_iff.mp hstep
  split at hcall
  · obtain ⟨d, hd, rfl⟩ := Option.map_eq_some_iff.mp hcall
    exact h.setDelivery (hf _ d hd)
  · cases hcall

/-! #### Topics -/

theorem Inv.setNet (h : s.Inv) {net : Net}
    (hnet : ∀ key st, net.subs.get? key = some st → ∀ r ∈ st.deliveries, s.Known r.session) :
    (s.setNet net).Inv :=
  ⟨h.counted, h.sessions, hnet, h.readable, h.phases⟩

theorem Inv.write (h : s.Inv) {net : Net}
    (hnet : ∀ key st, net.subs.get? key = some st → ∀ r ∈ st.deliveries, s.Known r.session)
    (hstep : s.write net = some t) : t.Inv := by
  unfold State.write at hstep
  split at hstep
  · cases hstep
    exact h.setNet hnet
  · cases hstep

/-- A write to one topic, whose deliveries are known. -/
theorem Inv.members_set (h : s.Inv) {key : SubKey} {st : SubState}
    (hst : ∀ r ∈ st.deliveries, s.Known r.session) (key' : SubKey) (st' : SubState)
    (hget : (s.hub.net.subs.set key st).get? key' = some st') :
    ∀ r ∈ st'.deliveries, s.Known r.session := by
  rw [Dict.get?_set] at hget
  split at hget
  · cases hget
    exact hst
  · exact h.members key' st' hget

theorem Inv.addInterest (h : s.Inv) {key : SubKey}
    (hstep : s.write (s.hub.net.addInterest key) = some t) : t.Inv := by
  refine h.write (fun key' st' hget => ?_) hstep
  unfold Net.addInterest Fanout.addInterest at hget
  split at hget
  · next st hst =>
    refine h.members_set ?_ key' st' hget
    exact h.members key st hst
  · refine h.members_set ?_ key' st' hget
    intro r hr
    cases hr

theorem Inv.removeInterest (h : s.Inv) {key : SubKey}
    (hstep : s.write (s.hub.net.removeInterest key) = some t) : t.Inv := by
  refine h.write (fun key' st' hget => ?_) hstep
  unfold Net.removeInterest Fanout.removeInterest at hget
  split at hget
  · exact h.members key' st' hget
  · next st hst =>
    split at hget
    · exact h.members key' st' (Dict.get?_filter.mp hget).1
    · refine h.members_set ?_ key' st' hget
      exact h.members key st hst

theorem Inv.ensureDelivery (h : s.Inv) {key : SubKey} (hid : s.Known id)
    (hstep : s.write (s.hub.net.ensureDelivery id key) = some t) : t.Inv := by
  refine h.write (fun key' st' hget => ?_) hstep
  unfold Net.ensureDelivery at hget
  split at hget
  · exact h.members key' st' hget
  · simp only at hget
    split at hget
    · exact h.members key' st' hget
    · next n number hn =>
      unfold Net.subscribeDelivery at hn
      split at hn
      · cases hn
      · next st hst =>
        cases hn
        refine h.members_set (fun r hr => ?_) key' st' hget
        rcases List.mem_append.mp hr with hr | hr
        · exact h.members key st hst r (List.mem_filter.mp hr).1
        · obtain rfl := List.mem_singleton.mp hr
          exact hid

/-! ### Runs -/

theorem Inv.step (h : s.Inv) {act : Act δ β} (hstep : s.step act = some t) : t.Inv := by
  cases act with
  | publishPlantEvents p events =>
    simp only [State.step] at hstep
    split at hstep
    · cases hstep
      exact h.publishPlantEvents events
    · cases hstep
  | publishPlantEvent p event =>
    simp only [State.step] at hstep
    split at hstep
    · cases hstep
      exact h.publishPlantEvent event
    · cases hstep
  | advance p => exact h.advance hstep
  | attach id native =>
    simp only [State.step] at hstep
    split at hstep
    · cases hstep
    · next hid =>
      cases hstep
      exact h.attach (Option.not_isSome_iff_eq_none.mp hid) native
  | takeEvents id =>
    obtain ⟨x, hx, hcall⟩ := Option.bind_eq_some_iff.mp hstep
    split at hcall
    · next hheld =>
      cases hcall
      exact h.takeEvents hx hheld
    · cases hcall
  | swapNative id =>
    obtain ⟨x, hx, hcall⟩ := Option.bind_eq_some_iff.mp hstep
    exact h.swapNative hx hcall
  | nativeDetached id =>
    obtain ⟨x, hx, hcall⟩ := Option.bind_eq_some_iff.mp hstep
    exact h.nativeDetached hx hcall
  | drop id =>
    obtain ⟨x, hx, hcall⟩ := Option.bind_eq_some_iff.mp hstep
    split at hcall
    · next hlive =>
      cases hcall
      exact h.drop hx hlive
    · cases hcall
  | close id =>
    simp only [State.step] at hstep
    refine h.onDelivery (fun d d' hd => ?_) hstep
    cases hd
    exact .close d
  | flush id =>
    simp only [State.step] at hstep
    refine h.onDelivery (fun d d' hd => ?_) hstep
    cases hd
    exact .flush d
  | nextEvents id stream max =>
    simp only [State.step] at hstep
    refine h.onDelivery (fun d d' hd => ?_) hstep
    obtain ⟨⟨answer, d''⟩, hread, rfl⟩ := Option.map_eq_some_iff.mp hd
    exact .nextEvents hread
  | tryRecv id =>
    simp only [State.step] at hstep
    split at hstep
    · next hcond =>
      obtain ⟨⟨received, d⟩, hread, rfl⟩ := Option.map_eq_some_iff.mp hstep
      rw [Bool.and_eq_true] at hcond
      exact h.setDelivery (.tryRecv hcond.2 hread)
    · cases hstep
  | addInterest key => exact h.addInterest hstep
  | removeInterest key => exact h.removeInterest hstep
  | ensureDelivery id key =>
    obtain ⟨x, hx, hcall⟩ := Option.bind_eq_some_iff.mp hstep
    split at hcall
    · refine h.ensureDelivery ?_ hcall
      rw [Known, hx]
      rfl
    · cases hcall
  | syncKinds id key mask =>
    cases hstep
    exact h.setNet h.members
  | dropDelivery id key =>
    cases hstep
    exact h.setNet h.members
  | releaseTopic id key =>
    cases hstep
    exact h.setNet h.members
  | subscribeReceiver key =>
    simp only [State.step] at hstep
    split at hstep
    · cases hstep
    · cases hstep
      exact h.setChannels _
  | dropReceiver key =>
    obtain ⟨c, -, rfl⟩ := Option.map_eq_some_iff.mp hstep
    exact h.setChannels _
  | setEncoder encode =>
    simp only [State.step] at hstep
    split at hstep
    · cases hstep
    · cases hstep
      exact ⟨h.counted, h.sessions, h.members, h.readable, h.phases⟩

theorem inv_of_run {trace : List (Act δ β)} (h : machine.Run Machine.Free trace s) : s.Inv := by
  refine h.invariant (I := Inv) ?_ fun s act t hs _ hstep => hs.step hstep
  rintro s ⟨capacity, encoder, rfl⟩
  exact inv_start capacity encoder

end State

/-- An encoded record would be seen by the reads of its stream. -/
theorem Typed.not_encoded {d : Delivery δ β} (h : Typed d) (stream : Stream) {r : Nat × Record δ β}
    (hr : r ∈ (d.queues stream).records) (kind : Kind) (bytes : β) :
    r.2 ≠ .shared (.encoded kind bytes) := by
  intro hencoded
  have hitem : (r.1, Taken.shared (.encoded kind bytes)) ∈ (d.queues stream).items := by
    refine List.mem_flatMap.mpr ⟨r, hr, ?_⟩
    rw [hencoded]
    exact List.mem_singleton_self _
  obtain ⟨e, he⟩ := h stream _ (List.mem_map_of_mem hitem)
  cases he

/-- Over every run, no record in the queues of an attachment that no transport has claimed is encoded,
and neither native read of it panics. -/
theorem native_reader_meets_no_encoded {trace : List (Act δ β)} {s : State δ β}
    (h : machine.Run Machine.Free trace s) (id : Nat)
    (hnative : (s.hub.attachments id).transport = false) :
    (∀ stream, ∀ r ∈ ((s.hub.attachments id).queues stream).records, ∀ kind bytes,
      r.2 ≠ .shared (.encoded kind bytes)) ∧
    ∀ stream, (∀ max, ((s.hub.attachments id).nextEvents stream max).isSome = true) ∧
      ((s.hub.attachments id).poll stream).isSome = true := by
  have htyped : Typed (s.hub.attachments id) := (State.inv_of_run h).readable id hnative
  have hread : ∀ stream max, ((s.hub.attachments id).nextEvents stream max).isSome = true := by
    intro stream max
    obtain ⟨answer, d, hanswer, -⟩ := Delivery.serves_nextEvents (htyped stream) max
    rw [hanswer]
    rfl
  refine ⟨fun stream r hr => htyped.not_encoded stream hr, fun stream => ⟨hread stream, ?_⟩⟩
  rw [Delivery.poll, Option.isSome_map]
  exact hread stream 1

/-- Two native sessions on the order topic; one is claimed while an event is on its way to both. -/
def claimedMidway : List (Act Nat Nat) :=
  [.setEncoder fun _ => 0, .attach 0 true, .attach 1 true, .addInterest orderKey,
    .ensureDelivery 0 orderKey, .ensureDelivery 1 orderKey,
    .publishPlantEvents 0 [.orderNotification 7], .advance 0, .advance 0, .advance 0, .takeEvents 1,
    .swapNative 1, .nativeDetached 1, .advance 0, .advance 0, .advance 0]

theorem native_reader_claimedMidway : ∃ s : State Nat Nat,
    machine.Run Machine.Free claimedMidway s ∧ s.hub.nativeSessions = 1 ∧
    ((s.hub.attachments 0).queues .order).records =
      [(1, .shared (.native .any (.orderNotification 7)))] ∧
    ((s.hub.attachments 0).poll .order).isSome = true := by
  have hrun : ∃ s, machine.exec Machine.Free (.start 8 none) claimedMidway = some s ∧
      s.hub.nativeSessions = 1 ∧ (s.hub.attachments 0).transport = false ∧
      ((s.hub.attachments 0).queues .order).records =
        [(1, .shared (.native .any (.orderNotification 7)))] := ⟨_, rfl, rfl, rfl, rfl⟩
  obtain ⟨s, hs, hcount, hnative, hrecords⟩ := hrun
  have hrun := Machine.run_of_exec (M := machine) ⟨8, none, rfl⟩ hs
  exact ⟨s, hrun, hcount, hrecords, ((native_reader_meets_no_encoded hrun 0 hnative).2 .order).2⟩

end RithmicNt.Host.Publishers
