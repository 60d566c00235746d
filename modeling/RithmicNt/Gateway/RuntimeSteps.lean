import RithmicNt.Gateway.Runtime

/-! What the holder of the redial lock knows of the published connection, and why each step of the
gateway client keeps it. -/

namespace RithmicNt.Gateway.Runtime

open RithmicNt.Lib

/-- Only the loss of a closed connection is reported, and a reader that passes a resumption on has
taken no other frame since. -/
structure Connection.Ok (x : Connection) : Prop where
  lost : x.loss ≠ .unreported → x.closed = true
  resumes : x.reader.resumes = true → x.lastFrame = some .resumed

def ConnsOk (s : State) : Prop := ∀ c, (s.conns c).Ok

/-- Held intents are acknowledged on the connection, or still to be joined on it. -/
def Covers (s : State) (c : Nat) (todo : List IntentKey) : Prop :=
  ∀ key ∈ s.heldKeys, key ∈ (s.conns c).acked ∨ key ∈ todo

/-- A flight has published the connection, and has not shut it down. -/
structure Published (s : State) (c : Nat) (joined : Bool) : Prop where
  conn : s.conn = some c
  joined : (s.conns c).joined = joined
  unintended : (s.conns c).intentional = false

/-- What the holder of the `redial` lock knows.  While `finish_attach` has the mutex of `conn`, no
report of the loss of its connection gets past its look at it. -/
def RedialOk (s : State) : Redial → Prop
  | .connected _ _ c => c < s.nextConnId ∧ (s.conns c).joined = false ∧
      (s.conns c).intentional = false
  | .published _ _ c => Published s c false
  | .joining _ _ c todo => Published s c false ∧ Covers s c todo
  | .awaiting _ _ c key todo => Published s c false ∧ Covers s c (key :: todo)
  | .joined _ _ c => Published s c false ∧ Covers s c []
  | .attaching _ _ c next => Published s c next.pastJoin ∧ Covers s c [] ∧
      (next ≠ .look → (s.conns c).loss.early = true)
  | .intending _ _ c | .closing _ _ c => (∀ d, c = some d → d < s.nextConnId) ∧
      ∀ d, s.conn = some d → (s.conns d).joined = false
  | .subscribing c _ _ => s.conn = some c ∧ (s.conns c).joined = true
  | .releasing c _ had => s.conn = some c ∧ (s.conns c).joined = true ∧
      ∀ key ∈ had, key ∈ (s.conns c).acked
  | .free | .dialing .. | .pausing .. | .failing .. | .reporting .. | .clearing => True

structure Placed (s : State) : Prop where
  current : ∀ c, s.conn = some c → c < s.nextConnId
  fresh : ∀ c, s.nextConnId ≤ c → s.conns c = {}
  unintended : ∀ c, s.conn = some c → (s.conns c).joined = true → (s.conns c).intentional = false
  acked : ∀ c, s.conn = some c → (s.conns c).joined = true → Covers s c []
  redial : RedialOk s s.redial

/-- Nothing has happened to a connection of which the lock holder knows, but acknowledgements. -/
structure Alike (x y : Connection) : Prop where
  joined : y.joined = x.joined
  intentional : y.intentional = x.intentional
  acked : x.acked ⊆ y.acked

theorem Alike.refl (x : Connection) : Alike x x := ⟨rfl, rfl, fun _ hk => hk⟩

/-- A step that publishes no connection, joins none and shuts none down; an intent that gets its first
holder has been acknowledged. -/
structure Still (s t : State) : Prop where
  conn : t.conn = s.conn
  conns : ∀ c, Alike (s.conns c) (t.conns c)
  fresh : ∀ c, s.nextConnId ≤ c → t.conns c = s.conns c
  nextConnId : t.nextConnId = s.nextConnId
  held : ∀ key ∈ t.heldKeys, key ∈ s.heldKeys ∨ ∀ c, s.conn = some c → key ∈ (t.conns c).acked

/-- A step of the facades: it changes the holdings, the lock holder and what is acknowledged. -/
structure Silent (s t : State) : Prop where
  conn : t.conn = s.conn
  conns : ∀ c, ∃ acked, (s.conns c).acked ⊆ acked ∧ t.conns c = { s.conns c with acked := acked }
  fresh : ∀ c, s.nextConnId ≤ c → t.conns c = s.conns c
  nextConnId : t.nextConnId = s.nextConnId
  held : ∀ key ∈ t.heldKeys, key ∈ s.heldKeys ∨ ∀ c, s.conn = some c → key ∈ (t.conns c).acked
  recovering : t.recovering = s.recovering
  generation : t.generation = s.generation
  sent : t.sent = s.sent
  counted : t.counted = s.counted

section Steps

variable {attempts : Nat} {s t : State}

@[simp] theorem setConn_self (c : Nat) (x : Connection) : (s.setConn c x).conns c = x := by
  simp [State.setConn]

theorem setConn_of_ne {c d : Nat} (x : Connection) (h : d ≠ c) :
    (s.setConn c x).conns d = s.conns d :=
  Function.update_of_ne h _ _

theorem live_eq_some {s : State} {c : Nat} : s.live? = some c ↔
    s.conn = some c ∧ (s.conns c).closed = false ∧ (s.conns c).joined = true := by
  simp only [State.live?, Option.filter_eq_some_iff, Bool.and_eq_true, Bool.not_eq_true']

theorem ConnsOk.update (h : ConnsOk s) {c : Nat} {x : Connection} (hx : x.Ok) (d : Nat) :
    (Function.update s.conns c x d).Ok := by
  by_cases hd : d = c
  · rw [hd, Function.update_self]
    exact hx
  · rw [Function.update_of_ne hd]
    exact h d

theorem ConnsOk.of_silent (h : ConnsOk s) (hst : Silent s t) : ConnsOk t := by
  intro c
  obtain ⟨acked, -, heq⟩ := hst.conns c
  rw [heq]
  exact ⟨(h c).lost, (h c).resumes⟩

theorem Silent.still (h : Silent s t) : Still s t where
  conn := h.conn
  conns c := by
    obtain ⟨acked, hacked, heq⟩ := h.conns c
    rw [heq]
    exact ⟨rfl, rfl, hacked⟩
  fresh := h.fresh
  nextConnId := h.nextConnId
  held := h.held

theorem Silent.trans {u : State} (h : Silent s t) (h' : Silent t u) : Silent s u where
  conn := h'.conn.trans h.conn
  conns c := by
    obtain ⟨acked, hacked, heq⟩ := h.conns c
    obtain ⟨acked', hacked', heq'⟩ := h'.conns c
    rw [heq] at hacked' heq'
    exact ⟨acked', hacked.trans hacked', heq'⟩
  fresh c hc := (h'.fresh c (h.nextConnId ▸ hc)).trans (h.fresh c hc)
  nextConnId := h'.nextConnId.trans h.nextConnId
  held key hk := by
    rcases h'.held key hk with hk | hk
    · exact (h.held key hk).imp id fun hacked c hc => (h'.still.conns c).acked (hacked c hc)
    · exact .inr fun c hc => hk c (h.conn.trans hc)
  recovering := h'.recovering.trans h.recovering
  generation := h'.generation.trans h.generation
  sent := h'.sent.trans h.sent
  counted := h'.counted.trans h.counted

theorem Covers.of_still {c : Nat} {todo : List IntentKey} (h : Covers s c todo) (hst : Still s t)
    (hconn : s.conn = some c) : Covers t c todo := by
  intro key hk
  rcases hst.held key hk with hk | hk
  · exact (h key hk).imp (fun hacked => (hst.conns c).acked hacked) id
  · exact .inl (hk c hconn)

theorem Published.of_still {c : Nat} {joined : Bool} (h : Published s c joined) (hst : Still s t) :
    Published t c joined where
  conn := hst.conn.trans h.conn
  joined := (hst.conns c).joined.trans h.joined
  unintended := (hst.conns c).intentional.trans h.unintended

theorem RedialOk.of_still {r : Redial} (h : RedialOk s r) (hst : Still s t)
    (hearly : r.isAttaching = true →
      ∀ c, (s.conns c).loss.early = true → (t.conns c).loss.early = true) : RedialOk t r := by
  cases r with
  | connected auto n c =>
    obtain ⟨hc, hjoined, hint⟩ := h
    exact ⟨by rw [hst.nextConnId]; exact hc, (hst.conns c).joined.trans hjoined,
      (hst.conns c).intentional.trans hint⟩
  | published auto n c => exact Published.of_still h hst
  | joining auto n c todo => exact ⟨h.1.of_still hst, h.2.of_still hst h.1.conn⟩
  | awaiting auto n c key todo => exact ⟨h.1.of_still hst, h.2.of_still hst h.1.conn⟩
  | joined auto n c => exact ⟨h.1.of_still hst, h.2.of_still hst h.1.conn⟩
  | attaching auto n c next =>
    obtain ⟨hpub, hcovers, hloss⟩ := h
    exact ⟨hpub.of_still hst, hcovers.of_still hst hpub.conn, fun hne => hearly rfl c (hloss hne)⟩
  | intending auto n c | closing auto n c =>
    obtain ⟨hknown, hunjoined⟩ := h
    refine ⟨?_, fun d hd => (hst.conns d).joined.trans (hunjoined d (hst.conn.symm.trans hd))⟩
    rw [hst.nextConnId]
    exact hknown
  | subscribing c facade key => exact ⟨hst.conn.trans h.1, (hst.conns c).joined.trans h.2⟩
  | releasing c facade had =>
    obtain ⟨hc, hj, hacked⟩ := h
    exact ⟨hst.conn.trans hc, (hst.conns c).joined.trans hj,
      fun key hk => (hst.conns c).acked (hacked key hk)⟩
  | free | dialing | pausing | failing | reporting | clearing => trivial

theorem Placed.of_still (h : Placed s) (hst : Still s t) (hredial : RedialOk t t.redial) :
    Placed t := by
  refine ⟨?_, ?_, ?_, ?_, hredial⟩
  · rw [hst.conn, hst.nextConnId]
    exact h.current
  · rw [hst.nextConnId]
    exact fun c hc => (hst.fresh c hc).trans (h.fresh c hc)
  · rw [hst.conn]
    intro c hc
    rw [(hst.conns c).joined, (hst.conns c).intentional]
    exact h.unintended c hc
  · rw [hst.conn]
    intro c hc
    rw [(hst.conns c).joined]
    exact fun hj => (h.acked c hc hj).of_still hst hc

/-- What the lock holder knows where it is. -/
theorem Placed.redial_at {r : Redial} (h : Placed s) (hr : s.redial = r) : RedialOk s r := by
  rw [← hr]
  exact h.redial

/-- A step of the lock holder that leaves the connections alone. -/
theorem Placed.same (h : Placed s) (hconns : t.conns = s.conns) (hconn : t.conn = s.conn)
    (hnext : t.nextConnId = s.nextConnId) (hheld : t.held = s.held) (hredial : RedialOk s t.redial) :
    Placed t := by
  have hst : Still s t := by
    refine ⟨hconn, fun c => ?_, fun c _ => ?_, hnext, fun key hk => ?_⟩
    · rw [hconns]
      exact .refl _
    · rw [hconns]
    · rw [State.heldKeys, hheld] at hk
      exact .inl hk
  exact h.of_still hst (hredial.of_still hst fun _ c hc => by rw [hconns]; exact hc)

/-- A step that changes one connection, in what the lock holder does not know of it. -/
theorem Placed.update {c : Nat} {x : Connection} (h : Placed s)
    (hconns : t.conns = Function.update s.conns c x) (hconn : t.conn = s.conn)
    (hnext : t.nextConnId = s.nextConnId) (hheld : t.held = s.held) (hr : t.redial = s.redial)
    (hc : c < s.nextConnId) (hx : Alike (s.conns c) x)
    (hearly : s.redial.isAttaching = true → (s.conns c).loss.early = true → x.loss.early = true) :
    Placed t := by
  have hst : Still s t := by
    refine ⟨hconn, fun d => ?_, fun d hd => ?_, hnext, fun key hk => ?_⟩
    · rw [hconns]
      by_cases hd : d = c
      · rw [hd, Function.update_self]
        exact hx
      · rw [Function.update_of_ne hd]
        exact .refl _
    · rw [hconns, Function.update_of_ne (by omega)]
    · rw [State.heldKeys, hheld] at hk
      exact .inl hk
  refine h.of_still hst ?_
  rw [hr]
  refine h.redial.of_still hst fun hattaching d hd => ?_
  rw [hconns]
  by_cases hdc : d = c
  · rw [hdc, Function.update_self]
    exact hearly hattaching (hdc ▸ hd)
  · rw [Function.update_of_ne hdc]
    exact hd

/-- A step of the facades or of the lock holder alone. -/
theorem silent_of_held (hconn : t.conn = s.conn) (hconns : t.conns = s.conns)
    (hnext : t.nextConnId = s.nextConnId) (hrec : t.recovering = s.recovering)
    (hgen : t.generation = s.generation) (hsent : t.sent = s.sent) (hcounted : t.counted = s.counted)
    (hheld : t.heldKeys ⊆ s.heldKeys) : Silent s t where
  conn := hconn
  conns c := ⟨(s.conns c).acked, fun _ hk => hk, by rw [hconns]⟩
  fresh c _ := by rw [hconns]
  nextConnId := hnext
  held key hk := .inl (hheld hk)
  recovering := hrec
  generation := hgen
  sent := hsent
  counted := hcounted

theorem silent_goto (r : Redial) : Silent s (s.goto r) :=
  silent_of_held rfl rfl rfl rfl rfl rfl rfl fun _ hk => hk

theorem silent_unhold (facade : Nat) (key : IntentKey) : Silent s (s.unhold facade key) :=
  silent_of_held rfl rfl rfl rfl rfl rfl rfl (Finset.image_subset_image (Finset.erase_subset _ _))

theorem heldKeys_hold (facade : Nat) (key : IntentKey) :
    (s.hold facade key).heldKeys = insert key s.heldKeys := by
  simp [State.heldKeys, State.hold, Finset.image_insert]

/-- A holder of an intent that has been acknowledged on the published connection. -/
theorem silent_hold (facade : Nat) (key : IntentKey)
    (hacked : ∀ c, s.conn = some c → key ∈ (s.conns c).acked) : Silent s (s.hold facade key) where
  conn := rfl
  conns c := ⟨(s.conns c).acked, fun _ hk => hk, rfl⟩
  fresh _ _ := rfl
  nextConnId := rfl
  held k hk := by
    rw [heldKeys_hold] at hk
    rcases Finset.mem_insert.mp hk with rfl | hk
    · exact .inr hacked
    · exact .inl hk
  recovering := rfl
  generation := rfl
  sent := rfl
  counted := rfl

/-- An acknowledgement. -/
theorem silent_ack {c : Nat} (key : IntentKey) (hc : c < s.nextConnId) :
    Silent s (s.setConn c { s.conns c with acked := insert key (s.conns c).acked }) where
  conn := rfl
  conns d := by
    by_cases hd : d = c
    · subst hd
      exact ⟨_, Finset.subset_insert key _, setConn_self _ _⟩
    · exact ⟨_, fun _ hk => hk, setConn_of_ne _ hd⟩
  fresh d hd := setConn_of_ne _ (by omega)
  nextConnId := rfl
  held key hk := .inl hk
  recovering := rfl
  generation := rfl
  sent := rfl
  counted := rfl

theorem silent_holds {c : Nat} {had : List IntentKey} (facade : Nat) (hconn : s.conn = some c)
    (hacked : ∀ key ∈ had, key ∈ (s.conns c).acked) :
    Silent s (had.foldl (fun t key => t.hold facade key) s) := by
  induction had generalizing s with
  | nil => exact silent_of_held rfl rfl rfl rfl rfl rfl rfl fun _ hk => hk
  | cons key had ih =>
    have hone : Silent s (s.hold facade key) := by
      refine silent_hold facade key fun d hd => ?_
      rw [← Option.some.inj (hconn.symm.trans hd)]
      exact hacked key List.mem_cons_self
    exact hone.trans (ih hconn fun k hk => hacked k (List.mem_cons_of_mem key hk))

/-- Taking intents up again leaves the lock alone. -/
theorem redial_holds (facade : Nat) (had : List IntentKey) (s : State) :
    (had.foldl (fun t key => t.hold facade key) s).redial = s.redial := by
  induction had generalizing s with
  | nil => rfl
  | cons key had ih => exact ih (s.hold facade key)

theorem mem_heldKeys {key : IntentKey} {facade : Nat} (h : (key, facade) ∈ s.held) :
    key ∈ s.heldKeys :=
  Finset.mem_image.mpr ⟨(key, facade), h, rfl⟩

/-- What is held is acknowledged on the attached connection. -/
theorem Placed.mem_acked {c : Nat} {key : IntentKey} (h : Placed s) (hlive : s.live? = some c)
    (hk : key ∈ s.heldKeys) : key ∈ (s.conns c).acked := by
  obtain ⟨hconn, -, hjoined⟩ := live_eq_some.mp hlive
  rcases h.acked c hconn hjoined key hk with hacked | hnil
  · exact hacked
  · cases hnil

/-- What the facades' steps leave alone: the connections, and whether an attach is being finished. -/
structure Quiescent (s t : State) : Prop extends Silent s t where
  redial : RedialOk t t.redial
  attaching : t.redial = s.redial ∨ t.redial.isAttaching = false

theorem Placed.quiescent_same (h : Placed s) (hst : Silent s t) (hr : t.redial = s.redial) :
    Quiescent s t := by
  refine ⟨hst, ?_, .inl hr⟩
  rw [hr]
  refine h.redial.of_still hst.still fun _ c hc => ?_
  obtain ⟨acked, -, heq⟩ := hst.conns c
  rw [heq]
  exact hc

theorem Placed.quiescent_release {c facade : Nat} {key : IntentKey} (h : Placed s)
    (hlive : s.live? = some c) : Quiescent s (s.release c facade key) := by
  obtain ⟨hconn, -, hjoined⟩ := live_eq_some.mp hlive
  have hsilent := silent_unhold (s := s) facade key
  unfold State.release
  simp only
  split
  · exact h.quiescent_same hsilent rfl
  · refine ⟨hsilent.trans (silent_goto _), ⟨hconn, hjoined, ?_⟩, .inr rfl⟩
    intro k hk
    split at hk
    · next hmine =>
      rw [List.mem_singleton.mp hk]
      exact h.mem_acked hlive (mem_heldKeys hmine)
    · cases hk

theorem Placed.quiescent_releaseOrder {c facade : Nat} (h : Placed s) (hlive : s.live? = some c) :
    Quiescent s (s.releaseOrder c facade) := by
  obtain ⟨hconn, -, hjoined⟩ := live_eq_some.mp hlive
  have hsilent := (silent_unhold (s := s) facade .order).trans (silent_unhold facade .brackets)
  unfold State.releaseOrder
  simp only
  split
  · exact h.quiescent_same hsilent rfl
  · refine ⟨hsilent.trans (silent_goto _), ⟨hconn, hjoined, ?_⟩, .inr rfl⟩
    intro key hkey
    have hmine : (key, facade) ∈ s.held := by simpa using (List.mem_filter.mp hkey).2
    exact h.mem_acked hlive (mem_heldKeys hmine)

theorem Placed.quiescent_subscribed {c facade : Nat} {key : IntentKey} {acked : Bool} (h : Placed s)
    (hr : s.redial = .subscribing c facade key) :
    Quiescent s (if acked then
        if facade ∈ s.facades then
          (((s.goto .free).setConn c
            { s.conns c with acked := insert key (s.conns c).acked }).hold facade key)
        else (s.goto .free).setConn c
          { s.conns c with acked := insert key (s.conns c).acked }
      else s.goto .free) := by
  have hok := h.redial_at hr
  obtain ⟨hconn, hjoined⟩ := hok
  have hfree := silent_goto (s := s) .free
  have hack := hfree.trans (silent_ack (s := s.goto .free) key (h.current c hconn))
  split
  · split
    · refine ⟨hack.trans (silent_hold facade key fun d hd => ?_), trivial, .inr rfl⟩
      rw [← Option.some.inj (hconn.symm.trans hd)]
      simp [State.goto]
    · exact ⟨hack, trivial, .inr rfl⟩
  · exact ⟨hfree, trivial, .inr rfl⟩

theorem Placed.quiescent_released {c facade : Nat} {had : List IntentKey} {ok : Bool} (h : Placed s)
    (hr : s.redial = .releasing c facade had) :
    Quiescent s (if ok then s.goto .free
      else had.foldl (fun t key => t.hold facade key) (s.goto .free)) := by
  have hok := h.redial_at hr
  obtain ⟨hconn, -, hacked⟩ := hok
  have hfree := silent_goto (s := s) .free
  split
  · exact ⟨hfree, trivial, .inr rfl⟩
  · have hredial := redial_holds facade had (s.goto .free)
    refine ⟨hfree.trans (silent_holds (s := s.goto .free) facade hconn hacked), ?_, .inr ?_⟩
    · rw [hredial]
      trivial
    · rw [hredial]
      rfl

theorem Placed.quiescent {e : Event} (h : Placed s) (hi : Intending s e t) : Quiescent s t := by
  cases hi with
  | register => exact h.quiescent_same (silent_of_held rfl rfl rfl rfl rfl rfl rfl fun _ hk => hk) rfl
  | leave =>
    exact h.quiescent_same (silent_of_held rfl rfl rfl rfl rfl rfl rfl
      (Finset.image_subset_image (Finset.filter_subset _ _))) rfl
  | subscribe _ hlive =>
    obtain ⟨hconn, -, hjoined⟩ := live_eq_some.mp hlive
    exact ⟨silent_goto _, ⟨hconn, hjoined⟩, .inr rfl⟩
  | subscribed hr => exact h.quiescent_subscribed hr
  | release _ hlive => exact h.quiescent_release hlive
  | releaseOrder _ hlive => exact h.quiescent_releaseOrder hlive
  | released hr => exact h.quiescent_released hr
  | allowRecovery =>
    exact h.quiescent_same (silent_of_held rfl rfl rfl rfl rfl rfl rfl fun _ hk => hk) rfl

/-- An intent that has lost its holders is not to be joined any more. -/
theorem Covers.pass {c : Nat} {key : IntentKey} {todo : List IntentKey} (h : Covers s c (key :: todo))
    (hout : key ∉ s.heldKeys) : Covers s c todo := by
  intro k hk
  rcases h k hk with hacked | hmem
  · exact .inl hacked
  · rcases List.mem_cons.mp hmem with rfl | hmem
    · exact absurd hk hout
    · exact .inr hmem

theorem Published.unjoined {c : Nat} (h : Published s c false) :
    ∀ d, s.conn = some d → (s.conns d).joined = false := by
  intro d hd
  rw [← Option.some.inj (h.conn.symm.trans hd)]
  exact h.joined

theorem Placed.onward {r : Redial} (h : Placed s) (hok : ConnsOk s) (ho : Onward s r) :
    RedialOk s r := by
  cases ho with
  | dial | retry | reporting => trivial
  | snapshot hr hkeys =>
    have hpub := h.redial_at hr
    refine ⟨hpub, fun key hk => .inr ?_⟩
    rw [← hkeys] at hk
    exact List.mem_toFinset.mp hk
  | passed hr hout =>
    have hat := h.redial_at hr
    exact ⟨hat.1, hat.2.pass hout⟩
  | awaiting hr =>
    have hat := h.redial_at hr
    exact ⟨hat.1, hat.2⟩
  | joined hr =>
    have hat := h.redial_at hr
    exact ⟨hat.1, hat.2⟩
  | @refused auto n c hr =>
    have hpub : Published s c false := by
      rcases hr with hr | hr
      · exact (h.redial_at hr).1
      · exact (h.redial_at hr).1
    split
    · refine ⟨?_, hpub.unjoined⟩
      rintro d ⟨⟩
      exact h.current _ hpub.conn
    · trivial
  | look hr =>
    have hat := h.redial_at hr
    exact ⟨hat.1, hat.2, fun hne => absurd rfl hne⟩
  | @join auto n c hr hopen =>
    have hat := h.redial_at hr
    refine ⟨hat.1, hat.2.1, fun _ => ?_⟩
    have hloss : (s.conns c).loss = .unreported := by
      by_contra hne
      cases hopen.symm.trans ((hok c).lost hne)
    rw [hloss]
    rfl
  | measure hr =>
    have hat := h.redial_at hr
    split
    · exact ⟨hat.1, hat.2.1, fun _ => hat.2.2 (by simp)⟩
    · exact ⟨hat.1, hat.2.1, fun _ => hat.2.2 (by simp)⟩
  | unintended hr =>
    have hat := h.redial_at hr
    exact ⟨hat.1, hat.2⟩
  | unclosed => split <;> trivial

theorem Placed.connected {auto : Bool} {n : Nat} (h : Placed s) :
    Placed { s.setConn s.nextConnId { reading := true } with
      nextConnId := s.nextConnId + 1
      redial := .connected auto n s.nextConnId } := by
  have hother : ∀ c, s.conn = some c →
      (s.setConn s.nextConnId { reading := true }).conns c = s.conns c := by
    intro c hc
    have := h.current c hc
    exact setConn_of_ne _ (by omega)
  refine ⟨?_, ?_, ?_, ?_, ?_⟩
  · intro c hc
    have := h.current c hc
    show c < s.nextConnId + 1
    omega
  · intro c hc
    have hc : s.nextConnId + 1 ≤ c := hc
    exact (setConn_of_ne _ (by omega)).trans (h.fresh c (by omega))
  · intro c hc
    rw [hother c hc]
    exact h.unintended c hc
  · intro c hc hj key hk
    rw [hother c hc] at hj ⊢
    exact h.acked c hc hj key hk
  · refine ⟨Nat.lt_succ_self _, ?_, ?_⟩ <;> simp

theorem Placed.publish {auto : Bool} {n c : Nat} (h : Placed s)
    (hr : s.redial = .connected auto n c) : Placed (s.publish auto n c) := by
  have hat := h.redial_at hr
  obtain ⟨hc, hjoined, hint⟩ := hat
  refine ⟨?_, h.fresh, ?_, ?_, ⟨rfl, hjoined, hint⟩⟩
  · rintro d ⟨⟩
    exact hc
  · rintro d ⟨⟩ hj
    cases hjoined.symm.trans hj
  · rintro d ⟨⟩ hj
    cases hjoined.symm.trans hj

/-- No connection is published any more. -/
theorem Placed.takeConn {auto : Bool} {n : Nat} (h : Placed s) : Placed (s.takeConn auto n) := by
  refine ⟨?_, h.fresh, ?_, ?_, h.current, ?_⟩
  · rintro c ⟨⟩
  · rintro c ⟨⟩
  · rintro c ⟨⟩
  · rintro c ⟨⟩

theorem Placed.joinAcked {auto : Bool} {n c : Nat} {key : IntentKey} {todo : List IntentKey}
    (h : Placed s) (hr : s.redial = .awaiting auto n c key todo) :
    Placed ((s.setConn c { s.conns c with acked := insert key (s.conns c).acked }).goto
      (.joining auto n c todo)) := by
  have hat := h.redial_at hr
  obtain ⟨hpub, hcovers⟩ := hat
  have hst := ((silent_ack key (h.current c hpub.conn)).trans
    (silent_goto (.joining auto n c todo))).still
  refine h.of_still hst ⟨hpub.of_still hst, fun k hk => ?_⟩
  rcases hcovers.of_still hst hpub.conn k hk with hacked | hmem
  · exact .inl hacked
  · rcases List.mem_cons.mp hmem with rfl | hmem
    · exact .inl (by simp [State.goto])
    · exact .inr hmem

/-- `joined` is stored. -/
theorem Placed.join {auto : Bool} {n c : Nat} (h : Placed s)
    (hr : s.redial = .attaching auto n c .join) :
    Placed ((s.setConn c { s.conns c with joined := true }).goto (.attaching auto n c .clear)) := by
  have hat := h.redial_at hr
  obtain ⟨hpub, hcovers, hearly⟩ := hat
  have hc := h.current c hpub.conn
  have hmine : ∀ d, s.conn = some d → d = c := fun d hd => Option.some.inj (hd.symm.trans hpub.conn)
  refine ⟨h.current, fun d hd => (setConn_of_ne _ (show d ≠ c by
    have hd : s.nextConnId ≤ d := hd
    omega)).trans (h.fresh d hd), ?_, ?_, ⟨hpub.conn, ?_, ?_⟩, ?_, fun _ => ?_⟩
  · intro d hd _
    rw [hmine d hd]
    simpa [State.goto] using hpub.unintended
  · intro d hd _ key hk
    rw [hmine d hd]
    simpa [State.goto] using hcovers key hk
  · simp [State.goto, Attach.pastJoin]
  · simpa [State.goto] using hpub.unintended
  · intro key hk
    simpa [State.goto] using hcovers key hk
  · simpa [State.goto] using hearly (by simp)

theorem Placed.attach {auto : Bool} {n c : Nat} {next : Attach} (h : Placed s)
    (hr : s.redial = .attaching auto n c next) (hlook : next ≠ .look) (hmeasure : next ≠ .measure) :
    Placed (s.attach auto n c next) := by
  have hat := h.redial_at hr
  obtain ⟨hpub, hcovers, hearly⟩ := hat
  cases next with
  | look => exact absurd rfl hlook
  | measure => exact absurd rfl hmeasure
  | join => exact h.join hr
  | clear => exact h.same rfl rfl rfl rfl ⟨hpub, hcovers, fun _ => hearly (by simp)⟩
  | first => exact h.same rfl rfl rfl rfl trivial
  | count => exact h.same rfl rfl rfl rfl ⟨hpub, hcovers, fun _ => hearly (by simp)⟩
  | announce generation => exact h.same rfl rfl rfl rfl trivial

/-- The connection that is shut down is not published, or was never joined. -/
theorem Placed.intend {auto : Bool} {n c : Nat} (h : Placed s)
    (hr : s.redial = .intending auto n (some c)) : Placed (s.intend auto n (some c)) := by
  have hat := h.redial_at hr
  obtain ⟨hknown, hunjoined⟩ := hat
  have hc := hknown c rfl
  have hnot : ∀ d, s.conn = some d → (((s.setConn c { s.conns c with intentional := true }).conns d).joined =
      false) := by
    intro d hd
    by_cases hdc : d = c
    · rw [hdc, setConn_self]
      exact hdc ▸ hunjoined d hd
    · rw [setConn_of_ne _ hdc]
      exact hunjoined d hd
  refine ⟨h.current, fun d hd => (setConn_of_ne _ (show d ≠ c by
    have hd : s.nextConnId ≤ d := hd
    omega)).trans (h.fresh d hd), ?_, ?_, hknown, hnot⟩
  · intro d hd hj
    cases (hnot d hd).symm.trans hj
  · intro d hd hj
    cases (hnot d hd).symm.trans hj

theorem Placed.shutDown {auto : Bool} {n c : Nat} (h : Placed s)
    (hr : s.redial = .closing auto n (some c)) : Placed (s.shutDown auto n (some c)) := by
  have hat := h.redial_at hr
  have hclosed : Placed (s.close c) :=
    h.update rfl rfl rfl rfl rfl (hat.1 c rfl) ⟨rfl, rfl, fun _ hk => hk⟩ fun _ he => he
  refine hclosed.same rfl rfl rfl rfl ?_
  show RedialOk (s.close c) (if auto then .pausing n else .free)
  split <;> trivial

theorem Placed.read {c : Nat} (h : Placed s) (hc : c < s.nextConnId) (hread : Reading s c t) :
    Placed t := by
  cases hread with
  | interrupting | warning | resuming | counting | announcing =>
    exact h.update rfl rfl rfl rfl rfl hc ⟨rfl, rfl, fun _ hk => hk⟩ fun _ he => he

/-- No report gets past its look at `conn` while `finish_attach` has its mutex. -/
theorem Placed.lossStep {c : Nat} (h : Placed s) (hc : c < s.nextConnId)
    (hloss : Losing attempts s c t) : Placed t := by
  have hacked : (s.conns c).acked ⊆ (s.conns c).acked := fun _ hk => hk
  cases hloss with
  | claim => exact h.update rfl rfl rfl rfl rfl hc ⟨rfl, rfl, hacked⟩ fun _ _ => rfl
  | current hl hfree | replaced hl hfree =>
    refine h.update rfl rfl rfl rfl rfl hc ⟨rfl, rfl, hacked⟩ fun hattaching _ => ?_
    cases hfree.symm.trans hattaching
  | joined hl | mark hl | marked hl | warning hl =>
    refine h.update rfl rfl rfl rfl rfl hc ⟨rfl, rfl, hacked⟩ fun _ he => ?_
    simp [hl, Loss.early] at he
  | starting hl =>
    unfold State.startRecovery
    split
    · refine h.update rfl rfl rfl rfl rfl hc ⟨rfl, rfl, hacked⟩ fun _ he => ?_
      simp [hl, Loss.early] at he
    · refine h.update rfl rfl rfl rfl rfl hc ⟨rfl, rfl, hacked⟩ fun _ he => ?_
      simp [hl, Loss.early] at he

theorem placed_start : Placed {} := by
  refine ⟨?_, fun _ _ => rfl, ?_, ?_, trivial⟩
  · rintro c ⟨⟩
  · rintro c ⟨⟩
  · rintro c ⟨⟩

theorem Placed.step {e : Event} (h : Placed s) (hok : ConnsOk s) (hstep : Step attempts s e t) :
    Placed t := by
  cases hstep with
  | intent hi =>
    have hquiescent := h.quiescent hi
    exact h.of_still hquiescent.still hquiescent.redial
  | onward ho => exact h.same rfl rfl rfl rfl (h.onward hok ho)
  | recover | fail | failed | clear => exact h.same rfl rfl rfl rfl trivial
  | connected => exact h.connected
  | publish hr => exact h.publish hr
  | undialed | unjoined => exact h.takeConn
  | joinAcked hr => exact h.joinAcked hr
  | attach hr hlook hmeasure => exact h.attach hr hlook hmeasure
  | intend hr => exact h.intend hr
  | shutDown hr => exact h.shutDown hr
  | frame hc | lost hc | broken hc =>
    exact h.update rfl rfl rfl rfl rfl hc ⟨rfl, rfl, fun _ hk => hk⟩ fun _ he => he
  | read hc hread => exact h.read hc hread
  | report hc => exact h.update rfl rfl rfl rfl rfl hc ⟨rfl, rfl, fun _ hk => hk⟩ fun _ _ => rfl
  | lossStep hc hloss => exact h.lossStep hc hloss

end Steps

end RithmicNt.Gateway.Runtime
