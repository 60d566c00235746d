import Mathlib.Logic.Function.Basic
import RithmicNt.Host.Intents

/-! What the host keeps for one attached session, and the host state that a session's operation
reads and writes beside it. -/

namespace RithmicNt.Host

open RithmicNt.Lib

def pnlKey : SubKey := ⟨"__pnl__", ""⟩

def orderKey : SubKey := ⟨"__order__", ""⟩

inductive Error
  | gateway (code message : String)
  | notSent (message : String)
  /-- Any other error of the venue, by its printed form. -/
  | other (text : String)
  deriving DecidableEq, Repr

def Error.text : Error → String
  | .gateway code message => "gateway error: " ++ code ++ ": " ++ message
  | .notSent message => "not sent: " ++ message
  | .other text => text

def codedError (code : String) : Error → Error
  | .gateway c message => .gateway c message
  | e => .gateway code e.text

def noVenue : Error := .gateway "no_session" "gateway has no plant session"

inductive Kind
  | any
  | ticker
  | book
  | bars
  | brackets
  deriving DecidableEq, Repr

def Kind.bit : Kind → UInt8
  | .any => 0
  | .ticker => 1
  | .book => 2
  | .bars => 4
  | .brackets => 8

def kindMask (ticker book bars brackets : Bool) : UInt8 :=
  (if ticker then Kind.ticker.bit else 0) ||| (if book then Kind.book.bit else 0) |||
    (if bars then Kind.bars.bit else 0) ||| (if brackets then Kind.brackets.bit else 0)

theorem kindMask_ne_zero : ∀ ticker book bars brackets : Bool,
    (ticker || book || bars) = true → kindMask ticker book bars brackets ≠ 0 := by
  decide

/-- The topics and the typed intents of one session. -/
structure SessionCtx where
  subscribed : Finset SubKey := ∅
  ticker : Finset SubKey := ∅
  book : Finset SubKey := ∅
  timeBars : Finset TimeBarIntent := ∅
  pnl : Bool := false
  order : Bool := false
  brackets : Bool := false
  kinds : SubKey → Option UInt8 := fun _ => none
  topics : Finset SubKey := ∅

namespace SessionCtx

def hasBars (c : SessionCtx) (key : SubKey) : Bool :=
  ∃ t ∈ c.timeBars, t.symbol = key.symbol ∧ t.exchange = key.exchange

/-- The frame kinds the session wants on the topic of `key`. -/
def mask (c : SessionCtx) (key : SubKey) : UInt8 :=
  kindMask (key ∈ c.ticker) (key ∈ c.book) (c.hasBars key) (c.brackets && key = orderKey)

def syncKinds (c : SessionCtx) (key : SubKey) : SessionCtx :=
  if c.mask key = 0 ∧ key ∉ c.subscribed then { c with kinds := Function.update c.kinds key none }
  else { c with kinds := Function.update c.kinds key (some (c.mask key)) }

def wantsMd (c : SessionCtx) (key : SubKey) : Bool :=
  key ∈ c.ticker || key ∈ c.book || c.hasBars key

/-- Nothing where the session is on the topic already, and no delivery where the hub has no such
topic. -/
def ensureDelivery (c : SessionCtx) (hub : Tally SubKey) (key : SubKey) : SessionCtx :=
  if key ∈ c.subscribed then c
  else
    let kinds := Function.update c.kinds key (some ((c.kinds key).getD 0))
    if hub.contains key then
      { c with kinds, topics := insert key c.topics, subscribed := insert key c.subscribed }
    else { c with kinds }

def dropDelivery (c : SessionCtx) (key : SubKey) : SessionCtx :=
  { c with
    topics := c.topics.erase key
    kinds := Function.update c.kinds key none
    subscribed := c.subscribed.erase key }

def has (c : SessionCtx) : MdIntent → Bool
  | .ticker key => key ∈ c.ticker
  | .book key => key ∈ c.book
  | .timeBars t => t ∈ c.timeBars

def insert (c : SessionCtx) (i : MdIntent) : SessionCtx :=
  match i with
  | .ticker key => { c with ticker := Insert.insert key c.ticker }.syncKinds i.key
  | .book key => { c with book := Insert.insert key c.book }.syncKinds i.key
  | .timeBars t => { c with timeBars := Insert.insert t c.timeBars }.syncKinds i.key

def remove (c : SessionCtx) (i : MdIntent) : SessionCtx :=
  match i with
  | .ticker key => { c with ticker := c.ticker.erase key }.syncKinds i.key
  | .book key => { c with book := c.book.erase key }.syncKinds i.key
  | .timeBars t => { c with timeBars := c.timeBars.erase t }.syncKinds i.key

/-- The session holds an intent. -/
def holds (c : SessionCtx) : Intent → Bool
  | .md i => c.has i
  | .pnl => c.pnl
  | .order => c.order
  | .brackets => c.brackets

/-- The session holds an intent carried on the topic of `key`. -/
def Carries (c : SessionCtx) (key : SubKey) : Prop :=
  (∃ i : MdIntent, c.has i ∧ i.key = key) ∨ (c.order ∧ key = orderKey) ∨ (c.pnl ∧ key = pnlKey)

/-- Two contexts that hold the same intents on the same topics. -/
structure Alike (c d : SessionCtx) : Prop where
  subscribed : c.subscribed = d.subscribed
  ticker : c.ticker = d.ticker
  book : c.book = d.book
  timeBars : c.timeBars = d.timeBars
  pnl : c.pnl = d.pnl
  order : c.order = d.order
  brackets : c.brackets = d.brackets

theorem Alike.trans {c d e : SessionCtx} (h : Alike c d) (h' : Alike d e) : Alike c e :=
  ⟨h.subscribed.trans h'.subscribed, h.ticker.trans h'.ticker, h.book.trans h'.book,
    h.timeBars.trans h'.timeBars, h.pnl.trans h'.pnl, h.order.trans h'.order,
    h.brackets.trans h'.brackets⟩

theorem Alike.has {c d : SessionCtx} (h : Alike c d) (i : MdIntent) : c.has i = d.has i := by
  cases i <;> simp [SessionCtx.has, h.ticker, h.book, h.timeBars]

theorem Alike.holds {c d : SessionCtx} (h : Alike c d) (i : Intent) : c.holds i = d.holds i := by
  cases i with
  | md i => exact h.has i
  | pnl => exact h.pnl
  | order => exact h.order
  | brackets => exact h.brackets

theorem Alike.mask {c d : SessionCtx} (h : Alike c d) (key : SubKey) : c.mask key = d.mask key := by
  unfold SessionCtx.mask SessionCtx.hasBars
  rw [h.ticker, h.book, h.timeBars, h.brackets]

theorem syncKinds_alike (c : SessionCtx) (key : SubKey) : Alike (c.syncKinds key) c := by
  unfold syncKinds
  split <;> exact ⟨rfl, rfl, rfl, rfl, rfl, rfl, rfl⟩

theorem wantsMd_iff {c : SessionCtx} {key : SubKey} :
    c.wantsMd key = true ↔ ∃ i : MdIntent, c.has i ∧ i.key = key := by
  obtain ⟨symbol, exchange⟩ := key
  simp only [wantsMd, hasBars, Bool.or_eq_true, decide_eq_true_eq]
  constructor
  · rintro ((h | h) | ⟨t, ht, rfl, rfl⟩)
    · exact ⟨.ticker _, by simpa [has] using h, rfl⟩
    · exact ⟨.book _, by simpa [has] using h, rfl⟩
    · exact ⟨.timeBars t, by simpa [has] using ht, rfl⟩
  · rintro ⟨i, hi, hkey⟩
    cases i with
    | ticker k =>
      cases hkey
      exact .inl (.inl (by simpa [has] using hi))
    | book k =>
      cases hkey
      exact .inl (.inr (by simpa [has] using hi))
    | timeBars t =>
      refine .inr ⟨t, by simpa [has] using hi, ?_⟩
      cases hkey
      exact ⟨rfl, rfl⟩

/-- The mask of a topic on which the session holds a market-data intent is not empty. -/
theorem mask_ne_zero {c : SessionCtx} {i : MdIntent} (h : c.has i) : c.mask i.key ≠ 0 := by
  have hwants : c.wantsMd i.key = true := wantsMd_iff.mpr ⟨i, h, rfl⟩
  exact kindMask_ne_zero _ _ _ _ hwants

theorem has_insert (c : SessionCtx) (i j : MdIntent) :
    (c.insert i).has j = true ↔ j = i ∨ c.has j = true := by
  cases i <;> cases j <;>
    simp [insert, has, (syncKinds_alike _ _).ticker, (syncKinds_alike _ _).book,
      (syncKinds_alike _ _).timeBars]

theorem has_remove (c : SessionCtx) (i j : MdIntent) :
    (c.remove i).has j = true ↔ j ≠ i ∧ c.has j = true := by
  cases i <;> cases j <;>
    simp [remove, has, (syncKinds_alike _ _).ticker, (syncKinds_alike _ _).book,
      (syncKinds_alike _ _).timeBars]

/-- What `client_insert` and `client_remove` leave alone. -/
theorem insert_frame (c : SessionCtx) (i : MdIntent) :
    (c.insert i).subscribed = c.subscribed ∧ (c.insert i).pnl = c.pnl ∧
      (c.insert i).order = c.order ∧ (c.insert i).brackets = c.brackets := by
  cases i <;> simp [insert, (syncKinds_alike _ _).subscribed, (syncKinds_alike _ _).pnl,
    (syncKinds_alike _ _).order, (syncKinds_alike _ _).brackets]

theorem remove_frame (c : SessionCtx) (i : MdIntent) :
    (c.remove i).subscribed = c.subscribed ∧ (c.remove i).pnl = c.pnl ∧
      (c.remove i).order = c.order ∧ (c.remove i).brackets = c.brackets := by
  cases i <;> simp [remove, (syncKinds_alike _ _).subscribed, (syncKinds_alike _ _).pnl,
    (syncKinds_alike _ _).order, (syncKinds_alike _ _).brackets]

end SessionCtx

/-- The parts of `HostState` that session operations read and write, with the counts of its
`ReconnectController` and the interest counts of its hub.  `session`: the host has a venue. -/
structure HostState where
  session : Bool := true
  ready : Bool := true
  recovering : Bool := false
  forceReconnect : Bool := false
  trading : Bool := true
  store : IntentStore := {}
  hub : Tally SubKey := .empty

def HostState.checkReady (s : HostState) : Except Error Unit :=
  if s.ready then .ok ()
  else .error (.notSent "gateway not ready (plants reconnecting); request not sent")

def HostState.requestReconnect (s : HostState) : HostState :=
  { s with recovering := true, ready := false, forceReconnect := true }

end RithmicNt.Host
