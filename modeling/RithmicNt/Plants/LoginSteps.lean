import RithmicNt.Plants.Logins

/-! What one step of a call does to the session, seen by the call itself and by the others. -/

namespace RithmicNt.Plants.Logins

open RithmicNt.Lib RithmicNt.Host

/-! ### What holds of the session -/

/-- The lock under which the logins of a plant are made. -/
def Session.lock (s : Session) (p : Stream) : Option Nat := if p = .ticker then s.reset else s.inner

structure Session.Inv (s : Session) : Prop where
  slots : ∀ p n, s.slot p = some n → s.Kept (p, n)
  one : ∀ p n m, s.Kept (p, n) → s.Kept (p, m) → n = m
  openedLt : ∀ l ∈ s.opened, l.2 < s.logins
  letGoLt : ∀ l ∈ s.letGo, l.2 < s.logins
  known : s.slot .order ≠ none → s.resolvedAccount = true
  down : s.down = true → ∀ p, s.slot p = none
  renews : s.renewing ≠ none → s.reset ≠ none ∧ s.slot .ticker = none
  stale : ∀ e, s.renewing = some e → e ≤ s.epoch ∧ (s.down = true → e < s.epoch)

namespace Place

def hasInner : Place → Bool
  | .opening .. | .probing .. | .discovering .. | .listing .. | .leaving .. | .subscribing ..
  | .closing .. | .tickerDropping .. => true
  | _ => false

def hasReset : Place → Bool
  | .innerWait c => c.first == .resetWait c
  | .opening t _ | .probing t => t != .resetHistory
  | .discovering .. | .listing .. | .leaving .. | .subscribing _ | .tickerClosing ..
  | .tickerOpening _ | .tickerFinish .. | .tickerDropping .. => true
  | _ => false

/-- Here the call is bringing a plant up, or one was up when it began to close. -/
def brings : Place → Bool
  | .opening .. | .probing .. | .discovering .. | .listing .. | .leaving .. | .subscribing ..
  | .closing .. => true
  | _ => false

/-- The plants that a connect comes to after this one. -/
def later : Place → Stream → Prop
  | .opening .connect .ticker, x => x = .history ∨ x = .pnl
  | .opening .connect .history, x | .probing .connect, x => x = .pnl
  | _, _ => False

/-- The epoch in which the ticker reset began. -/
def began : Place → Option Nat
  | .tickerClosing e _ _ | .tickerOpening e | .tickerFinish e _ | .tickerDropping e _ => some e
  | _ => none

end Place

/-- The plants that the tasks open. -/
def Task.opens : Task → Stream → Prop
  | .connect, p => p ≠ .order
  | .requestPlants, _ => True
  | .ensurePlant, p => p = .order ∨ p = .pnl
  | .subscribeOrders, p => p = .order
  | .resetHistory, p => p = .history

/-- What holds while the plants of `rest` are still to be closed. -/
def Downward (s : Session) (rest : List Stream) : Next → Prop
  | .down _ => (∀ x, x ∉ rest → s.slot x = none) ∧ ∀ e, s.renewing = some e → e < s.epoch
  | .finish _ => True
  | .reopenHistory => s.down = false ∧ (.history ∉ rest → s.slot .history = none)

/-- What holds while call `i` is at its place. -/
structure Knows (i : Nat) (p : Place) (s : Session) : Prop where
  inner : p.hasInner = true → s.inner = some i
  up : p.brings = true → s.down = false
  reset : p.hasReset = true → s.reset = some i ∧ s.renewing = p.began
  awaits : ∀ q, p.awaits = some q → s.lock q = some i ∧ ∀ n, ¬ s.Kept (q, n)
  hand : ∀ l, p.hand = some l → s.Kept l ∧ s.slot l.1 ≠ some l.2
  ticker : ∀ n, p.hand = some (.ticker, n) → p.began = none → s.renewing = none
  closing : ∀ next q n rest, p = .closing next q n rest → Downward s rest next
  valid : ∀ t q, p = .opening t q → t.opens q
  ensures : ∀ t q, (p = .discovering t q ∨ (∃ n, p = .listing t q n) ∨ ∃ n b, p = .leaving t q n b) →
    t ≠ .connect ∧ t.opens q ∧ s.slot q = none ∧ s.slot .order = none ∧ q ≠ .ticker
  later : ∀ x, p.later x → s.slot x = none
  known : ∀ t, p = .opening t .order → s.resolvedAccount = true
  calls : ∀ c, p = .resetWait c ∨ p = .innerWait c → c.Valid

variable {i j : Nat} {s s' t : Session} {p q : Place} {h h' : Option Login} {r : Session × Place}

/-! ### What a step can do to the session -/

/-- What a call that has the session keeps while others take steps. -/
structure Spared (j : Nat) (s s' : Session) : Prop where
  inner : s'.inner = some j
  slot : s'.slot = s.slot
  epoch : s'.epoch = s.epoch
  down : s'.down = s.down
  known : s'.resolvedAccount = s.resolvedAccount
  renewing : s'.renewing = s.renewing ∨ s'.renewing = none

theorem Downward.mono {next : Next} {rest : List Stream} (hd : Downward s rest next)
    (hslot : ∀ x, s.slot x = none → s'.slot x = none) (hdown : s'.down = s.down)
    (hepoch : s'.epoch = s.epoch) (hren : ∀ e, s'.renewing = some e → s.renewing = some e) :
    Downward s' rest next := by
  cases next with
  | down a =>
    refine ⟨fun x hx => hslot x (hd.1 x hx), ?_⟩
    intro e he
    rw [hepoch]
    exact hd.2 e (hren e he)
  | finish a => trivial
  | reopenHistory => exact ⟨hdown.trans hd.1, fun hrest => hslot _ (hd.2 hrest)⟩

theorem Downward.tail {next : Next} {x : Stream} {rest : List Stream}
    (hd : Downward s (x :: rest) next) (hx : s.slot x = none) : Downward s rest next := by
  have hmem : ∀ y, y ∉ rest → y = x ∨ y ∉ x :: rest := by
    intro y hy
    by_cases hyx : y = x
    · exact .inl hyx
    · exact .inr (by simp [hyx, hy])
  cases next with
  | down a =>
    refine ⟨?_, hd.2⟩
    intro y hy
    rcases hmem y hy with rfl | hy
    · exact hx
    · exact hd.1 y hy
  | finish a => trivial
  | reopenHistory =>
    refine ⟨hd.1, ?_⟩
    intro hrest
    rcases hmem _ hrest with h | h
    · rw [h]
      exact hx
    · exact hd.2 h

theorem Spared.trans {u : Session} (h₁ : Spared j s s') (h₂ : Spared j s' u) : Spared j s u := by
  refine ⟨h₂.inner, h₂.slot.trans h₁.slot, h₂.epoch.trans h₁.epoch, h₂.down.trans h₁.down,
    h₂.known.trans h₁.known, ?_⟩
  rcases h₂.renewing with h | h
  · rw [h]
    exact h₁.renewing
  · exact .inr h

/-- Call `i` with `h` in its hands takes the session from `s` to `s'`, and has `h'` in its hands then. -/
structure Moves (i : Nat) (h : Option Login) (s : Session) (h' : Option Login) (s' : Session) :
    Prop where
  inner : ∀ j, j ≠ i → s.inner = some j → Spared j s s'
  reset : ∀ j, j ≠ i → s.reset = some j → s'.reset = some j ∧ s'.renewing = s.renewing
  gain : ∀ l, s'.Kept l → s.Kept l ∨ ∀ j, j ≠ i → s.lock l.1 ≠ some j
  lost : ∀ l, s.Kept l → s'.Kept l ∨ s.slot l.1 = some l.2 ∨ h = some l
  placed : ∀ q n, s'.slot q = some n → s.slot q = some n ∨ ¬ s.Kept (q, n) ∨ h = some (q, n)
  held : ∀ l, s'.Kept l → s'.slot l.1 = some l.2 ∨ h' = some l ∨
    s.Kept l ∧ s.slot l.1 ≠ some l.2 ∧ h ≠ some l

theorem lock_of_moves (hm : Moves i h s h' s') (hj : j ≠ i) {x : Stream} (hl : s.lock x = some j) :
    s'.lock x = some j := by
  unfold Session.lock at *
  split at hl
  · next hx => exact (if_pos hx).trans (hm.reset j hj hl).1
  · next hx => exact (if_neg hx).trans (hm.inner j hj hl).inner

theorem Moves.trans {u : Session} {h'' : Option Login} (h₁ : Moves i h s none s')
    (h₂ : Moves i none s' h'' u) : Moves i h s h'' u where
  inner j hj hin := (h₁.inner j hj hin).trans (h₂.inner j hj (h₁.inner j hj hin).inner)
  reset j hj hres := by
    obtain ⟨hres', hren⟩ := h₁.reset j hj hres
    obtain ⟨hres'', hren'⟩ := h₂.reset j hj hres'
    exact ⟨hres'', hren'.trans hren⟩
  gain l hl := by
    rcases h₂.gain l hl with hl | hl
    · exact h₁.gain l hl
    · exact .inr fun j hj hlock => hl j hj (lock_of_moves h₁ hj hlock)
  lost l hl := by
    rcases h₁.lost l hl with hl' | hl' | hl'
    · rcases h₂.lost l hl' with hl'' | hslot | hnone
      · exact .inl hl''
      · rcases h₁.placed _ _ hslot with hslot | hkept | hhand
        · exact .inr (.inl hslot)
        · exact absurd hl hkept
        · exact .inr (.inr hhand)
      · cases hnone
    · exact .inr (.inl hl')
    · exact .inr (.inr hl')
  placed x n hx := by
    rcases h₂.placed x n hx with hx | hkept | hnone
    · exact h₁.placed x n hx
    · by_cases hs : s.Kept (x, n)
      · rcases h₁.lost _ hs with hs' | hslot | hhand
        · exact absurd hs' hkept
        · exact .inl hslot
        · exact .inr (.inr hhand)
      · exact .inr (.inl hs)
    · cases hnone
  held l hl := by
    rcases h₂.held l hl with hslot | hhand | ⟨hkept, hslot, -⟩
    · exact .inl hslot
    · exact .inr (.inl hhand)
    · rcases h₁.held l hkept with hslot' | hnone | hold
      · exact absurd hslot' hslot
      · cases hnone
      · exact .inr (.inr hold)

/-- A step that leaves the plants and the logins alone, and what the others have. -/
theorem moves_same (hslot : s'.slot = s.slot) (hopened : s'.opened = s.opened)
    (hletGo : s'.letGo = s.letGo)
    (hinner : ∀ j, j ≠ i → s.inner = some j → Spared j s s')
    (hreset : ∀ j, j ≠ i → s.reset = some j → s'.reset = some j ∧ s'.renewing = s.renewing) :
    Moves i h s h s' := by
  have hkept : ∀ l, s'.Kept l ↔ s.Kept l := by
    intro l
    unfold Session.Kept
    rw [hopened, hletGo]
  refine ⟨hinner, hreset, fun l hl => .inl ((hkept l).mp hl), fun l hl => .inl ((hkept l).mpr hl),
    ?_, ?_⟩
  · intro x n hx
    rw [hslot] at hx
    exact .inl hx
  · intro l hl
    rw [hslot]
    by_cases hx : s.slot l.1 = some l.2
    · exact .inl hx
    · by_cases hh : h = some l
      · exact .inr (.inl hh)
      · exact .inr (.inr ⟨(hkept l).mp hl, hx, hh⟩)

theorem Moves.refl : Moves i h s h s :=
  moves_same rfl rfl rfl (fun _ _ h => ⟨h, rfl, rfl, rfl, rfl, .inl rfl⟩) (fun _ _ h => ⟨h, rfl⟩)

/-- A step of the call that has the session, or that takes it. -/
theorem moves_own (hin : s.inner = none ∨ s.inner = some i) (hslot : s'.slot = s.slot)
    (hopened : s'.opened = s.opened) (hletGo : s'.letGo = s.letGo)
    (hreset : ∀ j, j ≠ i → s.reset = some j → s'.reset = some j ∧ s'.renewing = s.renewing) :
    Moves i h s h s' := by
  refine moves_same hslot hopened hletGo ?_ hreset
  intro j hj hj'
  rcases hin with h | h
  · rw [hj'] at h
    cases h
  · exact absurd (Option.some.inj (hj'.symm.trans h)) hj

theorem moves_release (i : Nat) (s : Session) : Moves i none s none (s.release i) := by
  refine moves_same rfl rfl rfl ?_ ?_
  · intro j hj hin
    have hne : s.inner ≠ some i := by
      rw [hin]
      exact fun e => hj (Option.some.inj e)
    refine ⟨(if_neg hne).trans hin, rfl, rfl, rfl, rfl, ?_⟩
    unfold Session.release
    by_cases hres : s.reset = some i
    · exact .inr (if_pos hres)
    · exact .inl (if_neg hres)
  · intro j hj hres
    have hne : s.reset ≠ some i := by
      rw [hres]
      exact fun e => hj (Option.some.inj e)
    exact ⟨(if_neg hne).trans hres, if_neg hne⟩

/-- What another call has in its hands, and what it waits for, survives. -/
theorem Knows.stable (hk : Knows j q s) (hm : Moves i h s h' s') (hj : j ≠ i)
    (hapart : ∀ l, q.hand = some l → h ≠ some l) : Knows j q s' := by
  have hslot : q.hasInner = true → s'.slot = s.slot := fun hq => (hm.inner j hj (hk.inner hq)).slot
  refine ⟨fun hq => (hm.inner j hj (hk.inner hq)).inner, ?_, ?_, ?_, ?_, ?_, ?_, hk.valid, ?_, ?_,
    ?_, hk.calls⟩
  · intro hq
    have hin : q.hasInner = true := by
      cases q <;> simp_all [Place.brings, Place.hasInner]
    exact (hm.inner j hj (hk.inner hin)).down.trans (hk.up hq)
  · intro hq
    obtain ⟨hres, hren⟩ := hk.reset hq
    obtain ⟨hres', hren'⟩ := hm.reset j hj hres
    exact ⟨hres', hren'.trans hren⟩
  · intro x hx
    obtain ⟨hlock, hnone⟩ := hk.awaits x hx
    refine ⟨lock_of_moves hm hj hlock, ?_⟩
    intro n hn
    rcases hm.gain _ hn with hn | hn
    · exact hnone n hn
    · exact hn j hj hlock
  · intro l hl
    obtain ⟨hkept, hne⟩ := hk.hand l hl
    refine ⟨?_, ?_⟩
    · rcases hm.lost l hkept with h | h | h
      · exact h
      · exact absurd h hne
      · exact absurd h (hapart l hl)
    · intro hslot
      rcases hm.placed _ _ hslot with h | h | h
      · exact hne h
      · exact h hkept
      · exact hapart l hl h
  · intro n hl hb
    have hren := hk.ticker n hl hb
    have hin : q.hasInner = true := by
      cases q <;> simp_all [Place.hand, Place.began, Place.hasInner]
    rcases (hm.inner j hj (hk.inner hin)).renewing with h | h
    · exact h.trans hren
    · exact h
  · rintro next x n rest rfl
    have hspared := hm.inner j hj (hk.inner rfl)
    refine (hk.closing next x n rest rfl).mono (fun y hy => ?_) hspared.down hspared.epoch ?_
    · rw [hspared.slot]
      exact hy
    · intro e he
      rcases hspared.renewing with h | h
      · exact h.symm.trans he
      · rw [h] at he
        cases he
  · intro t x hx
    obtain ⟨ht, hop, hvacant, horder, hne⟩ := hk.ensures t x hx
    have hin : q.hasInner = true := by
      rcases hx with rfl | ⟨n, rfl⟩ | ⟨n, b, rfl⟩ <;> rfl
    rw [hslot hin]
    exact ⟨ht, hop, hvacant, horder, hne⟩
  · intro x hx
    have hin : q.hasInner = true := by
      cases q <;> simp_all [Place.later, Place.hasInner]
    rw [hslot hin]
    exact hk.later x hx
  · rintro t rfl
    exact (hm.inner j hj (hk.inner rfl)).known.trans (hk.known t rfl)

/-- A call with a login in its hands has the session, or is a ticker reset. -/
theorem hand_locked {l : Login} (hp : p.hand = some l) :
    p.hasInner = true ∧ p.brings = true ∧ p.began = none ∨
      p.hasReset = true ∧ p.began ≠ none ∧ l.1 = .ticker := by
  cases p with
  | listing t x n | leaving t x n b | closing next x n rest => exact .inl ⟨rfl, rfl, rfl⟩
  | tickerClosing e n w | tickerDropping e n =>
    cases hp
    exact .inr ⟨rfl, by simp [Place.began], rfl⟩
  | tickerFinish e n =>
    obtain ⟨m, -, rfl⟩ := Option.map_eq_some_iff.mp hp
    exact .inr ⟨rfl, by simp [Place.began], rfl⟩
  | _ => cases hp

/-- Two calls never have the same login in their hands. -/
theorem hand_ne (hi : Knows i p s) (hj : Knows j q s) (hne : j ≠ i) {l : Login}
    (hq : q.hand = some l) : p.hand ≠ some l := by
  intro hp
  have hclear : ∀ {i j : Nat} {p q : Place}, Knows i p s → Knows j q s → p.hand = some l →
      p.began = none → q.hasReset = true → q.began ≠ none → l.1 = .ticker → False := by
    rintro i j p q hi hj hp hb hr hbq hl
    obtain ⟨x, n⟩ := l
    obtain rfl : x = .ticker := hl
    exact hbq ((hj.reset hr).2.symm.trans (hi.ticker n hp hb))
  rcases hand_locked hp with ⟨hin, -, hb⟩ | ⟨hr, hb, hl⟩
  · rcases hand_locked hq with ⟨hin', -, -⟩ | ⟨hr', hb', hl'⟩
    · exact hne (Option.some.inj ((hj.inner hin').symm.trans (hi.inner hin)))
    · exact hclear hi hj hp hb hr' hb' hl'
  · rcases hand_locked hq with ⟨hin', -, hb'⟩ | ⟨hr', -, -⟩
    · exact hclear hj hi hq hb' hr hb hl
    · exact hne (Option.some.inj ((hj.reset hr').1.symm.trans (hi.reset hr).1))

/-- A step of call `i`, with `h` in its hands. -/
structure Goes (i : Nat) (h : Option Login) (s : Session) (r : Session × Place) : Prop where
  inv : r.1.Inv
  knows : Knows i r.2 r.1
  moves : Moves i h s r.2.hand r.1

theorem Goes.after (hg : Goes i none s' r) (hm : Moves i h s none s') : Goes i h s r :=
  ⟨hg.inv, hg.knows, hm.trans hg.moves⟩

/-! ### The session of one call -/

/-- Call `i` has the session, and nothing in its hands. -/
structure Under (i : Nat) (s : Session) : Prop where
  inv : s.Inv
  inner : s.inner = some i
  mine : ∀ l, s.Kept l → s.slot l.1 = some l.2 ∨ l.1 = .ticker ∧ s.reset ≠ some i

/-- It has the reset lock as well, and no ticker reset is in flight. -/
structure BringsUp (i : Nat) (s : Session) : Prop extends Under i s where
  reset : s.reset = some i
  renewing : s.renewing = none
  up : s.down = false

theorem knows_done (i : Nat) (a : Answer) (s : Session) : Knows i (.done a) s := by
  constructor <;>
    simp [Place.hasInner, Place.brings, Place.hasReset, Place.awaits, Place.hand, Place.later]

theorem Session.Inv.release (h : s.Inv) (i : Nat) : (s.release i).Inv := by
  refine ⟨h.slots, h.one, h.openedLt, h.letGoLt, h.known, h.down, ?_, ?_⟩
  · intro hren
    have hne : s.reset ≠ some i := fun e => hren (if_pos e)
    have hren : s.renewing ≠ none := fun e => hren ((if_neg hne).trans e)
    refine ⟨?_, (h.renews hren).2⟩
    intro e
    exact (h.renews hren).1 ((if_neg hne).symm.trans e)
  · intro e he
    by_cases hres : s.reset = some i
    · exact absurd ((if_pos hres).symm.trans he) (by simp)
    · exact h.stale e ((if_neg hres).symm.trans he)

theorem goes_finish (h : s.Inv) (i : Nat) (a : Answer) : Goes i none s (s.finish i a) :=
  ⟨h.release i, knows_done i a _, moves_release i s⟩

theorem Under.vacate (h : Under i s) {x : Stream} {n : Nat} (hx : s.slot x = some n) :
    (s.vacate x).Inv ∧ Moves i none s (some (x, n)) (s.vacate x) := by
  have hslot : ∀ y m, (s.vacate x).slot y = some m → y ≠ x ∧ s.slot y = some m := by
    intro y m hy
    unfold Session.vacate at hy
    by_cases hyx : y = x
    · subst hyx
      simp at hy
    · exact ⟨hyx, by simpa [hyx] using hy⟩
  have hof : ∀ y, y ≠ x → (s.vacate x).slot y = s.slot y := by
    intro y hy
    simp [Session.vacate, hy]
  refine ⟨⟨?_, h.inv.one, h.inv.openedLt, h.inv.letGoLt, ?_, ?_, ?_, h.inv.stale⟩, ?_⟩
  · intro y m hy
    exact h.inv.slots y m (hslot y m hy).2
  · intro horder
    obtain ⟨m, hm⟩ := Option.ne_none_iff_exists'.mp horder
    exact h.inv.known (by simp [(hslot _ m hm).2])
  · intro hd y
    have := h.inv.down hd x
    rw [hx] at this
    cases this
  · intro hren
    refine ⟨(h.inv.renews hren).1, ?_⟩
    by_contra hne
    obtain ⟨m, hm⟩ := Option.ne_none_iff_exists'.mp hne
    exact absurd ((hslot _ m hm).2.symm.trans (h.inv.renews hren).2) (by simp)
  · refine ⟨?_, fun j _ hres => ⟨hres, rfl⟩, fun l hl => .inl hl, fun l hl => .inl hl, ?_, ?_⟩
    · intro j hj hin
      exact absurd (Option.some.inj (hin.symm.trans h.inner)) hj
    · intro y m hy
      exact .inl (hslot y m hy).2
    · rintro ⟨y, m⟩ hl
      rcases h.mine _ hl with hy | ⟨rfl, hres⟩
      · by_cases hyx : y = x
        · subst hyx
          obtain rfl : n = m := Option.some.inj (hx.symm.trans hy)
          exact .inr (.inl rfl)
        · exact .inl ((hof y hyx).trans hy)
      · by_cases hy : s.slot .ticker = some m
        · by_cases hyx : Stream.ticker = x
          · subst hyx
            obtain rfl : n = m := Option.some.inj (hx.symm.trans hy)
            exact .inr (.inl rfl)
          · exact .inl ((hof _ hyx).trans hy)
        · exact .inr (.inr ⟨hl, hy, by simp⟩)

theorem goes_opening (h : Under i s) {task : Task} {x : Stream} (hslot : s.slot x = none)
    (hticker : x = .ticker → s.reset = some i)
    (hreset : task ≠ .resetHistory → s.reset = some i ∧ s.renewing = none) (hup : s.down = false)
    (hopens : task.opens x) (hlater : ∀ y, (Place.opening task x).later y → s.slot y = none)
    (hknown : x = .order → s.resolvedAccount = true) :
    Goes i none s (s, .opening task x) := by
  refine ⟨h.inv, ⟨fun _ => h.inner, fun _ => hup, ?_, ?_, by simp [Place.hand],
    by simp [Place.hand], by simp, ?_, by simp, hlater, ?_, by simp⟩, .refl⟩
  · intro ht
    exact hreset (by simpa [Place.hasReset] using ht)
  · intro y hy
    obtain rfl : x = y := Option.some.inj hy
    refine ⟨?_, ?_⟩
    · unfold Session.lock
      split
      · next hx => exact hticker hx
      · exact h.inner
    · intro n hn
      rcases h.mine _ hn with hs | ⟨hx, hne⟩
      · rw [hslot] at hs
        cases hs
      · exact hne (hticker hx)
  · intro t y hy
    cases hy
    exact hopens
  · intro t ht
    cases ht
    exact hknown rfl

theorem goes_after (h : Under i s) {next : Next} (hd : Downward s [] next) :
    Goes i none s (s.after i next) := by
  cases next with
  | down a =>
    obtain ⟨hnone, hren⟩ := hd
    have hinv : ({ s with down := true } : Session).Inv :=
      ⟨h.inv.slots, h.inv.one, h.inv.openedLt, h.inv.letGoLt, h.inv.known,
        fun _ x => hnone x (List.not_mem_nil), h.inv.renews,
        fun e he => ⟨(h.inv.stale e he).1, fun _ => hren e he⟩⟩
    exact (goes_finish hinv i a).after
      (moves_own (.inr h.inner) rfl rfl rfl fun _ _ hr => ⟨hr, rfl⟩)
  | finish a => exact goes_finish h.inv i a
  | reopenHistory =>
    simp only [Session.after]
    split
    · exact goes_finish h.inv i _
    · split
      · exact goes_opening h (hd.2 List.not_mem_nil) (by simp) (by simp) hd.1 rfl
          (by simp [Place.later]) (by simp)
      · exact goes_finish h.inv i _

/-- A row of closes takes one plant after the other into the hands of the call. -/
theorem goes_close (h : Under i s) {next : Next} {rest : List Stream} (hd : Downward s rest next) :
    Goes i none s (s.close i next rest) := by
  induction rest with
  | nil => exact goes_after h hd
  | cons x rest ih =>
    unfold Session.close
    split
    · next n hx =>
      obtain ⟨hinv, hm⟩ := h.vacate hx
      have hx' : (s.vacate x).slot x = none := by simp [Session.vacate]
      have hy' : ∀ y, s.slot y = none → (s.vacate x).slot y = none := by
        intro y hy
        by_cases hyx : y = x
        · rw [hyx]
          exact hx'
        · simpa [Session.vacate, hyx] using hy
      refine ⟨hinv, ⟨fun _ => h.inner, ?_, by simp [Place.hasReset], by simp [Place.awaits], ?_, ?_,
        ?_, by simp, by simp, by simp [Place.later], by simp, by simp⟩, hm⟩
      · intro _
        by_contra hdown
        have hdown : s.down = true := Bool.of_not_eq_false hdown
        exact absurd (hx.symm.trans (h.inv.down hdown x)) (by simp)
      · intro l hl
        cases hl
        refine ⟨h.inv.slots x n hx, ?_⟩
        simp [hx']
      · intro m hl _
        obtain ⟨rfl, -⟩ : x = .ticker ∧ n = m := by simpa [Place.hand] using hl
        by_contra hren
        have := (h.inv.renews hren).2
        rw [hx] at this
        cases this
      · intro next' y m rest' he
        cases he
        exact (hd.mono hy' rfl rfl fun _ he => he).tail hx'
    · next hx => exact ih (hd.tail hx)

theorem goes_disconnect (h : Under i s) (a : Answer) : Goes i none s (s.disconnect i a) := by
  have hinv : ({ s with epoch := s.epoch + 1 } : Session).Inv := by
    refine ⟨h.inv.slots, h.inv.one, h.inv.openedLt, h.inv.letGoLt, h.inv.known, h.inv.down,
      h.inv.renews, ?_⟩
    intro e he
    have := (h.inv.stale e he).1
    exact ⟨by show e ≤ s.epoch + 1; omega, fun _ => by show e < s.epoch + 1; omega⟩
  have hd : Downward { s with epoch := s.epoch + 1 } [.order, .pnl, .history, .ticker] (.down a) := by
    refine ⟨?_, ?_⟩
    · intro x hx
      cases x <;> simp at hx
    · intro e he
      exact Nat.lt_succ_of_le (h.inv.stale e he).1
  exact (goes_close ⟨hinv, h.inner, h.mine⟩ hd).after
    (moves_own (.inr h.inner) rfl rfl rfl fun _ _ hr => ⟨hr, rfl⟩)

/-! ### Bring-ups -/

theorem goes_connected (h : Under i s) : Goes i none s (s.connected i) := by
  unfold Session.connected
  split
  · next n hn =>
    obtain ⟨hinv, hm⟩ := h.vacate hn
    have hkept : ∀ l, ((s.vacate .order).abandon (.order, n)).Kept l ↔
        (s.vacate .order).Kept l ∧ l ≠ (.order, n) := by
      intro l
      simp only [Session.Kept, Session.abandon, Finset.mem_insert, not_or]
      tauto
    have hslot : (s.vacate .order).slot .order = none := by simp [Session.vacate]
    have hinv' : ((s.vacate .order).abandon (.order, n)).Inv := by
      refine ⟨?_, ?_, hinv.openedLt, ?_, hinv.known, hinv.down, hinv.renews, hinv.stale⟩
      · intro x m hx
        refine (hkept _).mpr ⟨hinv.slots x m hx, ?_⟩
        rintro he
        cases he
        exact absurd (hx.symm.trans hslot) (by simp)
      · intro x m m' hx hx'
        exact hinv.one x m m' ((hkept _).mp hx).1 ((hkept _).mp hx').1
      · intro l hl
        rcases Finset.mem_insert.mp hl with rfl | hl
        · exact h.inv.openedLt _ (h.inv.slots _ _ hn).1
        · exact hinv.letGoLt l hl
    refine (goes_finish hinv' i .ok).after ?_
    refine ⟨?_, fun j _ hres => ⟨hres, rfl⟩, ?_, ?_, hm.placed, ?_⟩
    · intro j hj hin
      exact absurd (Option.some.inj (hin.symm.trans h.inner)) hj
    · intro l hl
      exact hm.gain l ((hkept l).mp hl).1
    · intro l hl
      by_cases he : l = (.order, n)
      · subst he
        exact .inr (.inl hn)
      · rcases hm.lost l hl with hl | hl | hl
        · exact .inl ((hkept l).mpr ⟨hl, he⟩)
        · exact .inr (.inl hl)
        · cases hl
    · intro l hl
      obtain ⟨hl, he⟩ := (hkept l).mp hl
      rcases hm.held l hl with hl | hl | hl
      · exact .inl hl
      · exact absurd (Option.some.inj hl).symm he
      · exact .inr (.inr hl)
  · exact goes_finish h.inv i .ok

theorem goes_connectPnl (h : BringsUp i s) (hpnl : s.slot .pnl = none) :
    Goes i none s (s.connectPnl i) := by
  unfold Session.connectPnl
  split
  · exact goes_opening h.toUnder hpnl (by simp) (fun _ => ⟨h.reset, h.renewing⟩) h.up
      (by simp [Task.opens]) (by simp [Place.later]) (by simp)
  · exact goes_connected h.toUnder

theorem goes_connectHistory (h : BringsUp i s) (hhistory : s.slot .history = none)
    (hpnl : s.slot .pnl = none) : Goes i none s (s.connectHistory i) := by
  unfold Session.connectHistory
  split
  · refine goes_opening h.toUnder hhistory (by simp) (fun _ => ⟨h.reset, h.renewing⟩) h.up
      (by simp [Task.opens]) ?_ (by simp)
    rintro y rfl
    exact hpnl
  · exact goes_connectPnl h hpnl

theorem goes_connect (h : BringsUp i s) : Goes i none s (s.connect i) := by
  unfold Session.connect
  split
  · exact goes_finish h.inv i _
  · next hdown =>
    obtain ⟨⟨hticker, hhistory⟩, hpnl⟩ :
        (s.slot .ticker = none ∧ s.slot .history = none) ∧ s.slot .pnl = none := by
      simpa [Session.isUp] using hdown
    have hinv : ({ s with epoch := s.epoch + 1 } : Session).Inv := by
      refine ⟨h.inv.slots, h.inv.one, h.inv.openedLt, h.inv.letGoLt, h.inv.known, h.inv.down,
        h.inv.renews, ?_⟩
      intro e he
      exact absurd (h.renewing.symm.trans he) (by simp)
    have hm : Moves i none s none { s with epoch := s.epoch + 1 } :=
      moves_own (.inr h.inner) rfl rfl rfl fun _ _ hr => ⟨hr, rfl⟩
    have hup : BringsUp i { s with epoch := s.epoch + 1 } :=
      ⟨⟨hinv, h.inner, h.mine⟩, h.reset, h.renewing, h.up⟩
    dsimp only
    split
    · refine Goes.after ?_ hm
      unfold Session.connectTicker
      split
      · refine goes_opening hup.toUnder hticker (fun _ => h.reset) (fun _ => ⟨h.reset, h.renewing⟩)
          h.up (by simp [Task.opens]) ?_ (by simp)
        rintro y (rfl | rfl)
        · exact hhistory
        · exact hpnl
      · exact goes_connectHistory hup hhistory hpnl
    · exact (goes_finish hinv i _).after hm

theorem goes_ensured (h : BringsUp i s) (openedHere : Bool) (task : Task) :
    Goes i none s (s.ensured i openedHere task) := by
  unfold Session.ensured
  split
  · refine ⟨h.inv, ⟨fun _ => h.inner, fun _ => h.up, fun _ => ⟨h.reset, h.renewing⟩, ?_, ?_, ?_,
      ?_, ?_, ?_, ?_, ?_, by simp⟩, .refl⟩ <;> simp [Place.awaits, Place.hand, Place.later]
  · exact goes_finish h.inv i .ok

theorem BringsUp.resolve (h : BringsUp i s) :
    BringsUp i { s with resolvedAccount := true } ∧
      Moves i none s none { s with resolvedAccount := true } :=
  ⟨⟨⟨⟨h.inv.slots, h.inv.one, h.inv.openedLt, h.inv.letGoLt, fun _ => rfl, h.inv.down,
    h.inv.renews, h.inv.stale⟩, h.inner, h.mine⟩, h.reset, h.renewing, h.up⟩,
    moves_own (.inr h.inner) rfl rfl rfl fun _ _ hr => ⟨hr, rfl⟩⟩

theorem goes_connectPlant (h : BringsUp i s) {task : Task} {x : Stream} (hx : s.slot x = none)
    (htask : task ≠ .connect) (hopens : task.opens x) :
    Goes i none s (s.connectPlant i task x) := by
  obtain ⟨hup, hm⟩ := h.resolve
  unfold Session.connectPlant
  dsimp only
  split
  · refine (goes_opening hup.toUnder hx (fun _ => h.reset) (fun _ => ⟨h.reset, h.renewing⟩) h.up
      hopens ?_ fun _ => rfl).after hm
    intro y hy
    cases task <;> simp_all [Place.later]
  · exact (goes_finish hup.inv i _).after hm

theorem goes_ensurePlant (h : BringsUp i s) {task : Task} {x : Stream} (htask : task ≠ .connect)
    (hopens : task.opens x) (hx : x ≠ .ticker) : Goes i none s (s.ensurePlant i task x) := by
  unfold Session.ensurePlant
  split
  · exact goes_ensured h false task
  · next hslot =>
    have hslot : s.slot x = none := by simpa using hslot
    split
    · exact goes_finish h.inv i _
    · split
      · exact goes_connectPlant h hslot htask hopens
      · next hacct =>
        split
        · have horder : s.slot .order = none := by
            by_contra hne
            simp [h.inv.known hne] at hacct
          refine ⟨h.inv, ⟨fun _ => h.inner, fun _ => h.up, fun _ => ⟨h.reset, h.renewing⟩, ?_,
            by simp [Place.hand], by simp [Place.hand], by simp, by simp, ?_, by simp [Place.later],
            by simp, by simp⟩, .refl⟩
          · intro y hy
            obtain rfl : Stream.order = y := Option.some.inj hy
            refine ⟨h.inner, ?_⟩
            intro n hn
            rcases h.mine _ hn with hs | ⟨hs, -⟩
            · rw [horder] at hs
              cases hs
            · cases hs
          · rintro t y (he | ⟨n, he⟩ | ⟨n, b, he⟩)
            · cases he
              exact ⟨htask, hopens, hslot, horder, hx⟩
            · cases he
            · cases he
        · exact goes_finish h.inv i _

theorem goes_requestPnl (h : BringsUp i s) : Goes i none s (s.requestPnl i) := by
  unfold Session.requestPnl
  split
  · exact goes_ensurePlant h (by simp) trivial (by simp)
  · exact goes_finish h.inv i .ok

theorem goes_requestHistory (h : BringsUp i s) : Goes i none s (s.requestHistory i) := by
  unfold Session.requestHistory
  split
  · next hc =>
    have hx : s.slot .history = none := by simp at hc; exact hc.2
    exact goes_opening h.toUnder hx (by simp) (fun _ => ⟨h.reset, h.renewing⟩) h.up trivial
      (by simp [Place.later]) (by simp)
  · exact goes_requestPnl h

theorem goes_requestPlants (h : BringsUp i s) (extra : PlantSet) :
    Goes i none s (s.requestPlants i extra) := by
  have hup : BringsUp i { s with plants := s.plants.union extra } :=
    ⟨⟨⟨h.inv.slots, h.inv.one, h.inv.openedLt, h.inv.letGoLt, h.inv.known, h.inv.down,
      h.inv.renews, h.inv.stale⟩, h.inner, h.mine⟩, h.reset, h.renewing, h.up⟩
  have hm : Moves i none s none { s with plants := s.plants.union extra } :=
    moves_own (.inr h.inner) rfl rfl rfl fun _ _ hr => ⟨hr, rfl⟩
  unfold Session.requestPlants
  refine Goes.after ?_ hm
  dsimp only
  split
  · exact goes_finish hup.inv i _
  · split
    · unfold Session.requestTicker
      split
      · next hc =>
        have hx : s.slot .ticker = none := by simp at hc; exact hc.2
        exact goes_opening hup.toUnder hx (fun _ => h.reset) (fun _ => ⟨h.reset, h.renewing⟩) h.up
          trivial (by simp [Place.later]) (by simp)
      · exact goes_requestHistory hup
    · exact goes_finish hup.inv i _

/-! ### Logins -/

theorem kept_login {l : Login} (hinv : s.Inv) (x : Stream) :
    (s.login x).Kept l ↔ s.Kept l ∨ l = (x, s.logins) := by
  have hfresh : (x, s.logins) ∉ s.letGo := fun h => Nat.lt_irrefl _ (hinv.letGoLt _ h)
  simp only [Session.Kept, Session.login, Finset.mem_insert]
  constructor
  · rintro ⟨rfl | h, h'⟩
    · exact .inr rfl
    · exact .inl ⟨h, h'⟩
  · rintro (⟨h, h'⟩ | rfl)
    · exact ⟨.inr h, h'⟩
    · exact ⟨.inl rfl, hfresh⟩

theorem kept_logout {l k : Login} : (s.logout k).Kept l ↔ s.Kept l ∧ l ≠ k := by
  simp only [Session.Kept, Session.logout, Finset.mem_erase]
  tauto

theorem kept_abandon {l k : Login} : (s.abandon k).Kept l ↔ s.Kept l ∧ l ≠ k := by
  simp only [Session.Kept, Session.abandon, Finset.mem_insert, not_or]
  tauto

theorem Session.Inv.login (hinv : s.Inv) {x : Stream} (hnone : ∀ n, ¬ s.Kept (x, n)) :
    (s.login x).Inv := by
  refine ⟨?_, ?_, ?_, ?_, hinv.known, hinv.down, hinv.renews, hinv.stale⟩
  · intro y n hy
    exact (kept_login hinv x).mpr (.inl (hinv.slots y n hy))
  · intro y n m hn hm
    rw [kept_login hinv] at hn hm
    rcases hn with hn | hn
    · rcases hm with hm | hm
      · exact hinv.one y n m hn hm
      · cases hm
        exact absurd hn (hnone n)
    · rcases hm with hm | hm
      · cases hn
        exact absurd hm (hnone m)
      · cases hn
        cases hm
        rfl
  · intro l hl
    show l.2 < s.logins + 1
    rcases Finset.mem_insert.mp hl with rfl | hl
    · exact Nat.lt_succ_self _
    · exact Nat.lt_succ_of_lt (hinv.openedLt l hl)
  · intro l hl
    exact Nat.lt_succ_of_lt (hinv.letGoLt l hl)

theorem moves_login (hinv : s.Inv) {x : Stream} (hlock : s.lock x = some i) :
    Moves i none s (some (x, s.logins)) (s.login x) := by
  refine ⟨fun _ _ h => ⟨h, rfl, rfl, rfl, rfl, .inl rfl⟩, fun _ _ h => ⟨h, rfl⟩, ?_, ?_,
    fun _ _ h => .inl h, ?_⟩
  · intro l hl
    rcases (kept_login hinv x).mp hl with hl | rfl
    · exact .inl hl
    · refine .inr ?_
      intro j hj hlock'
      exact hj (Option.some.inj (hlock'.symm.trans hlock))
  · intro l hl
    exact .inl ((kept_login hinv x).mpr (.inl hl))
  · intro l hl
    rcases (kept_login hinv x).mp hl with hl | rfl
    · by_cases hs : s.slot l.1 = some l.2
      · exact .inl hs
      · exact .inr (.inr ⟨hl, hs, by simp⟩)
    · exact .inr (.inl rfl)

/-- What a call has in its hands is logged out, or let go. -/
theorem Session.Inv.drop (hinv : s.Inv) {k : Login} (hk : s.Kept k) (hslot : s.slot k.1 ≠ some k.2)
    (hopened : ∀ l ∈ s'.opened, l ∈ s.opened) (hletGo : ∀ l ∈ s'.letGo, l ∈ s.letGo ∨ l = k)
    (hkept : ∀ l, s'.Kept l ↔ s.Kept l ∧ l ≠ k)
    (hsame : s' = { s with opened := s'.opened, letGo := s'.letGo }) : s'.Inv := by
  rw [hsame]
  refine ⟨?_, ?_, ?_, ?_, hinv.known, hinv.down, hinv.renews, hinv.stale⟩
  · intro x n hx
    refine (hkept _).mpr ⟨hinv.slots x n hx, ?_⟩
    rintro rfl
    exact hslot hx
  · intro x n m hn hm
    exact hinv.one x n m ((hkept _).mp hn).1 ((hkept _).mp hm).1
  · intro l hl
    exact hinv.openedLt l (hopened l hl)
  · intro l hl
    rcases hletGo l hl with hl | rfl
    · exact hinv.letGoLt l hl
    · exact hinv.openedLt _ hk.1

theorem Session.Inv.logout (hinv : s.Inv) {k : Login} (hk : s.Kept k)
    (hslot : s.slot k.1 ≠ some k.2) : (s.logout k).Inv :=
  hinv.drop hk hslot (fun _ hl => Finset.mem_of_mem_erase hl) (fun _ hl => .inl hl)
    (fun _ => kept_logout) rfl

theorem Session.Inv.abandon (hinv : s.Inv) {k : Login} (hk : s.Kept k)
    (hslot : s.slot k.1 ≠ some k.2) : (s.abandon k).Inv :=
  hinv.drop hk hslot (fun _ hl => hl) (fun _ hl => (Finset.mem_insert.mp hl).symm)
    (fun _ => kept_abandon) rfl

theorem moves_drop {k : Login} (hkept : ∀ l, s'.Kept l ↔ s.Kept l ∧ l ≠ k)
    (hsame : s' = { s with opened := s'.opened, letGo := s'.letGo }) :
    Moves i (some k) s none s' := by
  have hslot : s'.slot = s.slot := by rw [hsame]
  have hinner : s'.inner = s.inner := by rw [hsame]
  have hreset : s'.reset = s.reset := by rw [hsame]
  have hrenewing : s'.renewing = s.renewing := by rw [hsame]
  refine ⟨?_, fun _ _ h => ⟨hreset.trans h, hrenewing⟩, fun l hl => .inl ((hkept l).mp hl).1, ?_, ?_,
    ?_⟩
  · intro j _ h
    refine ⟨hinner.trans h, hslot, ?_, ?_, ?_, .inl hrenewing⟩ <;> rw [hsame]
  · intro l hl
    by_cases he : l = k
    · exact .inr (.inr (by rw [he]))
    · exact .inl ((hkept l).mpr ⟨hl, he⟩)
  · intro x n hx
    rw [hslot] at hx
    exact .inl hx
  · intro l hl
    rw [hslot]
    obtain ⟨hl, he⟩ := (hkept l).mp hl
    by_cases hs : s.slot l.1 = some l.2
    · exact .inl hs
    · exact .inr (.inr ⟨hl, hs, fun h => he (Option.some.inj h).symm⟩)

theorem moves_logout (i : Nat) (s : Session) (k : Login) : Moves i (some k) s none (s.logout k) :=
  moves_drop (fun _ => kept_logout) rfl

theorem moves_abandon (i : Nat) (s : Session) (k : Login) : Moves i (some k) s none (s.abandon k) :=
  moves_drop (fun _ => kept_abandon) rfl

theorem Session.Inv.install (hinv : s.Inv) {x : Stream} {n : Nat} (hkept : s.Kept (x, n))
    (hdown : s.down = false) (hren : x = .ticker → s.renewing = none)
    (hknown : x = .order → s.resolvedAccount = true) : (s.install x n).Inv := by
  have hslot : ∀ y m, (s.install x n).slot y = some m → y = x ∧ m = n ∨ y ≠ x ∧ s.slot y = some m := by
    intro y m hy
    unfold Session.install at hy
    by_cases hyx : y = x
    · subst hyx
      simp only [Function.update_self, Option.some.injEq] at hy
      exact .inl ⟨rfl, hy.symm⟩
    · exact .inr ⟨hyx, by simpa [hyx] using hy⟩
  refine ⟨?_, hinv.one, hinv.openedLt, hinv.letGoLt, ?_, ?_, ?_, hinv.stale⟩
  · intro y m hy
    rcases hslot y m hy with ⟨rfl, rfl⟩ | ⟨-, hy⟩
    · exact hkept
    · exact hinv.slots y m hy
  · intro horder
    obtain ⟨m, hm⟩ := Option.ne_none_iff_exists'.mp horder
    rcases hslot _ m hm with ⟨hx, -⟩ | ⟨-, hm⟩
    · exact hknown hx.symm
    · exact hinv.known (by simp [hm])
  · intro hd
    exact absurd (hdown.symm.trans hd) (by simp)
  · intro hr
    refine ⟨(hinv.renews hr).1, ?_⟩
    by_contra hne
    obtain ⟨m, hm⟩ := Option.ne_none_iff_exists'.mp hne
    rcases hslot _ m hm with ⟨hx, -⟩ | ⟨-, hm⟩
    · exact hr (hren hx.symm)
    · exact absurd (hm.symm.trans (hinv.renews hr).2) (by simp)

/-- The login that a call has in its hands goes into a free place of the session. -/
theorem moves_install {x : Stream} {n : Nat} (hslot : s.slot x = none)
    (hinner : s.inner = none ∨ s.inner = some i) :
    Moves i (some (x, n)) s none (s.install x n) := by
  refine ⟨?_, fun _ _ h => ⟨h, rfl⟩, fun _ h => .inl h, fun _ h => .inl h, ?_, ?_⟩
  · intro j hj hin
    rcases hinner with h | h
    · exact absurd (hin.symm.trans h) (by simp)
    · exact absurd (Option.some.inj (hin.symm.trans h)) hj
  · intro y m hy
    by_cases hyx : y = x
    · subst hyx
      simp only [Session.install, Function.update_self, Option.some.injEq] at hy
      exact .inr (.inr (by rw [hy]))
    · exact .inl (by simpa [Session.install, hyx] using hy)
  · rintro ⟨y, m⟩ hl
    by_cases hyx : y = x
    · subst hyx
      by_cases hmn : m = n
      · exact .inl (by simp [Session.install, hmn])
      · refine .inr (.inr ⟨hl, ?_, ?_⟩)
        · simp [hslot]
        · simpa using fun h => hmn h.symm
    · by_cases hs : s.slot y = some m
      · exact .inl (by simpa [Session.install, hyx] using hs)
      · refine .inr (.inr ⟨hl, hs, ?_⟩)
        simpa using fun h => absurd h.symm hyx

/-! ### Steps -/

/-- Every login that was not let go is in the session, in the hands of the call, or a ticker in the
hands of a reset that is another call. -/
def Alone (i : Nat) (h : Option Login) (s : Session) : Prop :=
  ∀ l, s.Kept l → s.slot l.1 = some l.2 ∨ h = some l ∨ l.1 = .ticker ∧ s.reset ≠ some i

theorem Alone.under (ha : Alone i none s) (hinv : s.Inv) (hinner : s.inner = some i) : Under i s := by
  refine ⟨hinv, hinner, ?_⟩
  intro l hl
  rcases ha l hl with h | h | h
  · exact .inl h
  · cases h
  · exact .inr h

/-- After the logout of what it has in its hands. -/
theorem Alone.logout {k : Login} (ha : Alone i (some k) s) (hk : Knows i p s)
    (hand : p.hand = some k) (hinv : s.Inv) (hinner : s.inner = some i) : Under i (s.logout k) := by
  obtain ⟨hkept, hslot⟩ := hk.hand k hand
  refine ⟨hinv.logout hkept hslot, hinner, ?_⟩
  intro l hl
  obtain ⟨hl, hne⟩ := kept_logout.mp hl
  rcases ha l hl with h | h | h
  · exact .inl h
  · exact absurd (Option.some.inj h).symm hne
  · exact .inr h

theorem Under.bringsUp (h : Under i s) (hk : Knows i p s) (hreset : p.hasReset = true)
    (hbegan : p.began = none) (hup : p.brings = true) : BringsUp i s := by
  obtain ⟨hres, hren⟩ := hk.reset hreset
  exact ⟨h, hres, hren.trans hbegan, hk.up hup⟩

theorem goes_drop (hinv : s.Inv) (hk : Knows i p s) (landed : Bool) :
    Goes i p.hand s (s.drop i landed p) := by
  unfold Session.drop
  split
  · next _ k hand =>
    obtain ⟨hkept, hslot⟩ := hk.hand k hand
    rw [hand]
    exact (goes_finish (hinv.abandon hkept hslot) i .dropped).after (moves_abandon i s k)
  · next x hand hawaits =>
    rw [hand]
    obtain ⟨hlock, hnone⟩ := hk.awaits x hawaits
    split
    · have hkept : (s.login x).Kept (x, s.logins) := (kept_login hinv x).mpr (.inr rfl)
      have hslot : (s.login x).slot x ≠ some s.logins := by
        intro h
        exact hnone _ (hinv.slots x _ h)
      refine (goes_finish ((hinv.login hnone).abandon hkept hslot) i .dropped).after ?_
      refine ⟨fun _ _ h => ⟨h, rfl, rfl, rfl, rfl, .inl rfl⟩, fun _ _ h => ⟨h, rfl⟩, ?_, ?_,
        fun _ _ h => .inl h, ?_⟩
      · intro l hl
        rcases (kept_login hinv x).mp (kept_abandon.mp hl).1 with h | h
        · exact .inl h
        · exact absurd h (kept_abandon.mp hl).2
      · intro l hl
        refine .inl (kept_abandon.mpr ⟨(kept_login hinv x).mpr (.inl hl), ?_⟩)
        rintro rfl
        exact hnone _ hl
      · intro l hl
        rcases (kept_login hinv x).mp (kept_abandon.mp hl).1 with h | h
        · by_cases hs : s.slot l.1 = some l.2
          · exact .inl hs
          · exact .inr (.inr ⟨h, hs, by simp⟩)
        · exact absurd h (kept_abandon.mp hl).2
    · exact goes_finish hinv i .dropped
  · next hand _ =>
    rw [hand]
    exact goes_finish hinv i .dropped

theorem goes_resetWait (hinv : s.Inv) {c : Call} (hc : c.Valid) (hfree : s.reset = none) :
    Goes i none s ({ s with reset := some i }, .innerWait c) := by
  have hren : s.renewing = none := by
    by_contra hne
    exact (hinv.renews hne).1 hfree
  refine ⟨⟨hinv.slots, hinv.one, hinv.openedLt, hinv.letGoLt, hinv.known, hinv.down, ?_, hinv.stale⟩,
    ⟨by simp [Place.hasInner], by simp [Place.brings], fun _ => ⟨rfl, hren⟩, by simp [Place.awaits],
      by simp [Place.hand], by simp [Place.hand], by simp, by simp, by simp, by simp [Place.later],
      by simp, ?_⟩, ?_⟩
  · intro hne
    exact absurd hren hne
  · rintro c' (he | he)
    · cases he
    · cases he
      exact hc
  · refine moves_same rfl rfl rfl (fun _ _ h => ⟨h, rfl, rfl, rfl, rfl, .inl rfl⟩) ?_
    intro j _ h
    rw [hfree] at h
    cases h

/-- A ticker reset begins: it takes the ticker out, or has none to take. -/
theorem goes_beginTickerReset (hinv : s.Inv) (ha : Alone i none s) (hinner : s.inner = none)
    (hreset : s.reset = some i) (hren : s.renewing = none) (hup : s.down = false) :
    Goes i none s (s.beginTickerReset i) := by
  unfold Session.beginTickerReset
  split
  · exact goes_finish hinv i _
  · have hothers : ∀ j, j ≠ i → s.reset ≠ some j := by
      intro j hj h
      exact hj (Option.some.inj (h.symm.trans hreset))
    have hinv' : s.slot .ticker = none → ({ s with renewing := some s.epoch } : Session).Inv := by
      intro hnone
      refine ⟨hinv.slots, hinv.one, hinv.openedLt, hinv.letGoLt, hinv.known, hinv.down, ?_, ?_⟩
      · intro _
        exact ⟨by simp [hreset], hnone⟩
      · intro e he
        obtain rfl : s.epoch = e := Option.some.inj he
        refine ⟨Nat.le_refl _, ?_⟩
        intro hd
        exact absurd (hup.symm.trans hd) (by simp)
    have hm : Moves i none s none { s with renewing := some s.epoch } :=
      moves_own (.inl hinner) rfl rfl rfl fun j hj h => absurd h (hothers j hj)
    dsimp only
    split
    · next n hn =>
      have hkept := hinv.slots _ n hn
      have hslot : (s.vacate .ticker).slot .ticker = none := by simp [Session.vacate]
      have hinvv : (s.vacate .ticker).Inv := by
        refine ⟨?_, hinv.one, hinv.openedLt, hinv.letGoLt, ?_, ?_, ?_, hinv.stale⟩
        · intro y m hy
          by_cases hyx : y = .ticker
          · rw [hyx, hslot] at hy
            cases hy
          · exact hinv.slots y m (by simpa [Session.vacate, hyx] using hy)
        · intro horder
          exact hinv.known (by simpa [Session.vacate] using horder)
        · intro hd
          exact absurd (hup.symm.trans hd) (by simp)
        · intro hr
          exact absurd hren hr
      have hinvr : ({ s.vacate .ticker with renewing := some s.epoch } : Session).Inv := by
        refine ⟨hinvv.slots, hinvv.one, hinvv.openedLt, hinvv.letGoLt, hinvv.known, hinvv.down, ?_, ?_⟩
        · intro _
          exact ⟨by simp [Session.vacate, hreset], hslot⟩
        · intro e he
          obtain rfl : s.epoch = e := Option.some.inj he
          refine ⟨Nat.le_refl _, ?_⟩
          intro hd
          exact absurd (hup.symm.trans hd) (by simp)
      refine ⟨hinvr, ⟨by simp [Place.hasInner], by simp [Place.brings], fun _ => ⟨hreset, rfl⟩,
        by simp [Place.awaits], ?_, by simp [Place.began], by simp, by simp, by simp,
        by simp [Place.later], by simp, by simp⟩, ?_⟩
      · intro l hl
        cases hl
        exact ⟨hkept, by simp [Session.vacate]⟩
      · refine ⟨?_, fun j hj h => absurd h (hothers j hj), fun _ h => .inl h, fun _ h => .inl h, ?_,
          ?_⟩
        · intro j _ h
          rw [hinner] at h
          cases h
        · intro y m hy
          by_cases hyx : y = .ticker
          · subst hyx
            simp [Session.vacate] at hy
          · exact .inl (by simpa [Session.vacate, hyx] using hy)
        · rintro ⟨y, m⟩ hl
          by_cases hs : s.slot y = some m
          · by_cases hyx : y = .ticker
            · subst hyx
              obtain rfl : n = m := Option.some.inj (hn.symm.trans hs)
              exact .inr (.inl rfl)
            · exact .inl (by simpa [Session.vacate, hyx] using hs)
          · exact .inr (.inr ⟨hl, hs, by simp⟩)
    · next hn =>
      have hnone : ∀ n, ¬ s.Kept (.ticker, n) := by
        intro n hl
        rcases ha _ hl with h | h | ⟨-, h⟩
        · exact absurd (hn.symm.trans h) (by simp)
        · cases h
        · exact h hreset
      split
      · refine ⟨hinv' hn, ⟨by simp [Place.hasInner], by simp [Place.brings], fun _ => ⟨hreset, rfl⟩,
          ?_, by simp [Place.hand], by simp [Place.hand], by simp, by simp, by simp,
          by simp [Place.later], by simp, by simp⟩, hm⟩
        intro y hy
        obtain rfl : Stream.ticker = y := Option.some.inj hy
        exact ⟨hreset, hnone⟩
      · exact ⟨hinv' hn, ⟨by simp [Place.hasInner], by simp [Place.brings], fun _ => ⟨hreset, rfl⟩,
          by simp [Place.awaits], by simp [Place.hand], by simp [Place.hand], by simp, by simp,
          by simp, by simp [Place.later], by simp, by simp⟩, hm⟩

theorem goes_enter (hinv : s.Inv) {c : Call} (hk : Knows i (.innerWait c) s) (ha : Alone i none s)
    (hfree : s.inner = none) : Goes i none s (s.enter i c) := by
  have hlocked : ({ s with inner := some i } : Session).Inv :=
    ⟨hinv.slots, hinv.one, hinv.openedLt, hinv.letGoLt, hinv.known, hinv.down, hinv.renews, hinv.stale⟩
  have hunder : Under i { s with inner := some i } := Alone.under ha hlocked rfl
  have hm : Moves i none s none { s with inner := some i } :=
    moves_own (.inl hfree) rfl rfl rfl fun _ _ h => ⟨h, rfl⟩
  have hopen : ∀ b, ({ s with inner := b, down := false } : Session).Inv := fun _ =>
    ⟨hinv.slots, hinv.one, hinv.openedLt, hinv.letGoLt, hinv.known, by simp, hinv.renews,
      fun e he => ⟨(hinv.stale e he).1, by simp⟩⟩
  have hm' : ∀ b, Moves i none s none { s with inner := b, down := false } := fun _ =>
    moves_own (.inl hfree) rfl rfl rfl fun _ _ h => ⟨h, rfl⟩
  have hup : (Place.innerWait c).hasReset = true →
      BringsUp i { s with inner := some i, down := false } := by
    intro hr
    obtain ⟨hres, hren⟩ := hk.reset hr
    exact ⟨Alone.under ha (hopen _) rfl, hres, hren, rfl⟩
  cases c with
  | connect => exact (goes_connect (hup rfl)).after (hm' _)
  | disconnect => exact (goes_disconnect hunder .ok).after hm
  | requestPlants extra =>
    exact (goes_requestPlants (hup (by simp [Place.hasReset, Call.first])) extra).after (hm' _)
  | ensurePlant p =>
    have hp : Task.opens .ensurePlant p := hk.calls _ (.inr rfl)
    refine (goes_ensurePlant (hup (by simp [Place.hasReset, Call.first])) (by simp) hp ?_).after (hm' _)
    rintro rfl
    simp [Task.opens] at hp
  | subscribeOrders =>
    have horder : Task.opens .subscribeOrders .order := rfl
    exact (goes_ensurePlant (hup rfl) (by simp) horder (by simp)).after (hm' _)
  | disconnectPlant p =>
    have hd : Downward { s with inner := some i } [p] (.finish .ok) := trivial
    exact (goes_close hunder hd).after hm
  | resetTicker =>
    obtain ⟨hres, hren⟩ := hk.reset rfl
    exact (goes_beginTickerReset (s := { s with down := false }) (hopen s.inner) ha hfree hres hren
      rfl).after (hm' s.inner)
  | resetHistory =>
    have hd : Downward { s with inner := some i, down := false } [.history] .reopenHistory :=
      ⟨rfl, by simp⟩
    have hunder' : Under i { s with inner := some i, down := false } :=
      Alone.under ha (hopen _) rfl
    exact (goes_close hunder' hd).after (hm' _)

/-- The plant that the call waited for goes into the session. -/
theorem goes_opened (hinv : s.Inv) {task : Task} {x : Stream} (hk : Knows i (.opening task x) s)
    (ha : Alone i none s) : Goes i none s (s.plantConnected i task x) := by
  have hinner := hk.inner rfl
  have hup := hk.up rfl
  obtain ⟨hlock, hnone⟩ := hk.awaits x rfl
  have hslot : s.slot x = none := by
    by_contra hne
    obtain ⟨n, hn⟩ := Option.ne_none_iff_exists'.mp hne
    exact hnone n (hinv.slots x n hn)
  have hticker : x = .ticker → s.reset = some i := by
    rintro rfl
    exact hlock
  have hren : x = .ticker → s.renewing = none := by
    rintro rfl
    refine (hk.reset ?_).2
    have := hk.valid task .ticker rfl
    cases task <;> simp_all [Task.opens, Place.hasReset]
  have hknown : x = .order → s.resolvedAccount = true := by
    rintro rfl
    exact hk.known task rfl
  have hkept : (s.login x).Kept (x, s.logins) := (kept_login hinv x).mpr (.inr rfl)
  have hinv' : ((s.login x).install x s.logins).Inv :=
    (hinv.login hnone).install hkept hup hren hknown
  have hm : Moves i none s none ((s.login x).install x s.logins) := by
    have h₁ := moves_login hinv hlock
    have h₂ : Moves i (some (x, s.logins)) (s.login x) none ((s.login x).install x s.logins) :=
      moves_install hslot (.inr hinner)
    refine ⟨?_, fun _ _ h => ⟨h, rfl⟩, fun l hl => h₁.gain l hl, fun l hl => h₁.lost l hl, ?_, ?_⟩
    · intro j hj h
      exact absurd (Option.some.inj (h.symm.trans hinner)) hj
    · intro y m hy
      rcases h₂.placed y m hy with h | h | h
      · exact .inl h
      · exact .inr (.inl fun h' => h ((kept_login hinv x).mpr (.inl h')))
      · obtain ⟨rfl, rfl⟩ : x = y ∧ s.logins = m := by simpa using h
        exact .inr (.inl (hnone _))
    · intro l hl
      rcases h₂.held l hl with h | h | ⟨h, hs, hne⟩
      · exact .inl h
      · cases h
      · rcases (kept_login hinv x).mp h with h | rfl
        · exact .inr (.inr ⟨h, hs, by simp⟩)
        · exact absurd rfl hne
  have hother : ∀ y, y ≠ x → ((s.login x).install x s.logins).slot y = s.slot y := by
    intro y hy
    simp [Session.install, Session.login, hy]
  have hunder : Under i ((s.login x).install x s.logins) := by
    refine ⟨hinv', hinner, ?_⟩
    intro l hl
    rcases hm.held l hl with h | h | ⟨h, hs, -⟩
    · exact .inl h
    · cases h
    · rcases ha l h with h | h | h
      · exact absurd h hs
      · cases h
      · exact .inr h
  have hbrings : task ≠ .resetHistory → BringsUp i ((s.login x).install x s.logins) := by
    intro ht
    obtain ⟨hres, hren⟩ := hk.reset (by simpa [Place.hasReset] using ht)
    exact ⟨hunder, hres, hren, hup⟩
  have hprobing : ∀ t : Task, (t ≠ .resetHistory → task ≠ .resetHistory) →
      (t = .connect → ((s.login x).install x s.logins).slot .pnl = none) →
      Goes i none ((s.login x).install x s.logins) ((s.login x).install x s.logins, .probing t) := by
    intro t ht hpnl
    refine ⟨hinv', ⟨fun _ => hinner, fun _ => hup, ?_, by simp [Place.awaits], by simp [Place.hand],
      by simp [Place.hand], by simp, by simp, by simp, ?_, by simp, by simp⟩, .refl⟩
    · intro hr
      exact hk.reset (by simpa [Place.hasReset] using ht (by simpa [Place.hasReset] using hr))
    · intro y hy
      cases t <;> simp_all [Place.later]
  have hopens := hk.valid task x rfl
  unfold Session.plantConnected
  dsimp only
  refine Goes.after ?_ hm
  split
  · refine goes_connectHistory (hbrings (by simp)) ?_ ?_
    · rw [hother _ (by simp)]
      exact hk.later _ (.inl rfl)
    · rw [hother _ (by simp)]
      exact hk.later _ (.inr rfl)
  · refine hprobing .connect (by simp) fun _ => ?_
    rw [hother _ (by simp)]
    exact hk.later _ rfl
  · exact goes_connected hunder
  · exact goes_requestHistory (hbrings (by simp))
  · exact hprobing .requestPlants (by simp) (by simp)
  · exact hprobing .resetHistory (by simp) (by simp)
  · next hreset _ _ _ _ => exact goes_ensured (hbrings hreset) true _

theorem goes_unopened (h : Under i s) (task : Task) : Goes i none s (s.unopened i task) := by
  unfold Session.unopened
  split
  · exact goes_disconnect h .failed
  · exact goes_finish h.inv i _

theorem goes_probed (h : Under i s) {task : Task} (hk : Knows i (.probing task) s) (ok : Bool) :
    Goes i none s (if ok then s.proved i task else s.unproved i task) := by
  have hup : task ≠ .resetHistory → BringsUp i s := fun ht =>
    h.bringsUp hk (by simpa [Place.hasReset] using ht) rfl rfl
  split
  · unfold Session.proved
    split
    · exact goes_connectPnl (hup (by simp)) (hk.later _ rfl)
    · exact goes_requestPnl (hup (by simp))
    · exact goes_finish h.inv i _
  · unfold Session.unproved
    split
    · exact goes_disconnect h .failed
    · have hd : Downward s [.history] (.finish .failed) := trivial
      exact goes_close h hd
    · exact goes_finish h.inv i _

/-! ### The account of a venue -/

theorem goes_discovered (hinv : s.Inv) {task : Task} {x : Stream}
    (hk : Knows i (.discovering task x) s) :
    Goes i none s (s.login .order, .listing task x s.logins) := by
  obtain ⟨hlock, hnone⟩ := hk.awaits .order rfl
  obtain ⟨htask, hopens, hx, horder, hne⟩ := hk.ensures task x (.inl rfl)
  refine ⟨hinv.login hnone, ⟨fun _ => hk.inner rfl, fun _ => hk.up rfl, fun _ => hk.reset rfl,
    by simp [Place.awaits], ?_, by simp [Place.hand], by simp, by simp, ?_, by simp [Place.later],
    by simp, by simp⟩, moves_login hinv hlock⟩
  · intro l hl
    cases hl
    refine ⟨(kept_login hinv _).mpr (.inr rfl), ?_⟩
    intro h
    exact absurd (horder.symm.trans h) (by simp)
  · rintro t y (he | ⟨n, he⟩ | ⟨n, b, he⟩)
    · cases he
    · cases he
      exact ⟨htask, hopens, hx, horder, hne⟩
    · cases he

theorem goes_listed (hinv : s.Inv) {task : Task} {x : Stream} {n : Nat}
    (hk : Knows i (.listing task x n) s) (picked : Bool) :
    Goes i (some (.order, n)) s (s, .leaving task x n picked) := by
  have hens := hk.ensures task x (.inr (.inl ⟨n, rfl⟩))
  refine ⟨hinv, ⟨fun _ => hk.inner rfl, fun _ => hk.up rfl, fun _ => hk.reset rfl,
    by simp [Place.awaits], hk.hand, by simp [Place.hand], by simp, by simp, ?_,
    by simp [Place.later], by simp, by simp⟩, .refl⟩
  rintro t y (he | ⟨n, he⟩ | ⟨n, b, he⟩)
  · cases he
  · cases he
  · cases he
    exact hens

theorem goes_left (hinv : s.Inv) {task : Task} {x : Stream} {n : Nat} {picked : Bool}
    (hk : Knows i (.leaving task x n picked) s) (ha : Alone i (some (.order, n)) s) :
    Goes i (some (.order, n)) s (if picked then (s.logout (.order, n)).connectPlant i task x
      else (s.logout (.order, n)).finish i .failed) := by
  obtain ⟨htask, hopens, hx, -, -⟩ := hk.ensures task x (.inr (.inr ⟨n, picked, rfl⟩))
  have hunder : Under i (s.logout (.order, n)) := ha.logout hk rfl hinv (hk.inner rfl)
  obtain ⟨hres, hren⟩ := hk.reset rfl
  have hup : BringsUp i (s.logout (.order, n)) := ⟨hunder, hres, hren, hk.up rfl⟩
  refine Goes.after ?_ (moves_logout i s (.order, n))
  split
  · exact goes_connectPlant hup hx htask hopens
  · exact goes_finish hunder.inv i _

/-! ### Closes and ticker resets -/

theorem goes_closed (hinv : s.Inv) {next : Next} {x : Stream} {n : Nat} {rest : List Stream}
    (hk : Knows i (.closing next x n rest) s) (ha : Alone i (some (x, n)) s) :
    Goes i (some (x, n)) s ((s.logout (x, n)).close i next rest) := by
  have hd := hk.closing next x n rest rfl
  have hd' : Downward (s.logout (x, n)) rest next :=
    hd.mono (fun _ h => h) rfl rfl (fun _ h => h)
  exact (goes_close (ha.logout hk rfl hinv (hk.inner rfl)) hd').after (moves_logout i s (x, n))

theorem goes_tickerClosed (hinv : s.Inv) {epoch n : Nat} {wanted : Bool}
    (hk : Knows i (.tickerClosing epoch n wanted) s) :
    Goes i (some (.ticker, n)) s (s.logout (.ticker, n),
      if wanted then .tickerOpening epoch else .tickerFinish epoch none) := by
  obtain ⟨hkept, hslot⟩ := hk.hand (.ticker, n) rfl
  obtain ⟨hres, hren⟩ := hk.reset rfl
  have hinv' := hinv.logout hkept hslot
  have hm := moves_logout i s (.ticker, n)
  split
  · refine ⟨hinv', ⟨by simp [Place.hasInner], by simp [Place.brings], fun _ => ⟨hres, hren⟩, ?_,
      by simp [Place.hand], by simp [Place.hand], by simp, by simp, by simp, by simp [Place.later],
      by simp, by simp⟩, hm⟩
    intro x hx
    obtain rfl : Stream.ticker = x := Option.some.inj hx
    refine ⟨hres, ?_⟩
    intro m hl
    obtain ⟨hl, hne⟩ := kept_logout.mp hl
    exact hne (by rw [hinv.one .ticker m n hl hkept])
  · exact ⟨hinv', ⟨by simp [Place.hasInner], by simp [Place.brings], fun _ => ⟨hres, hren⟩,
      by simp [Place.awaits], by simp [Place.hand], by simp [Place.hand], by simp, by simp, by simp,
      by simp [Place.later], by simp, by simp⟩, hm⟩

theorem goes_tickerOpened (hinv : s.Inv) {epoch : Nat} (hk : Knows i (.tickerOpening epoch) s) :
    Goes i none s (s.login .ticker, .tickerFinish epoch (some s.logins)) := by
  obtain ⟨hlock, hnone⟩ := hk.awaits .ticker rfl
  refine ⟨hinv.login hnone, ⟨by simp [Place.hasInner], by simp [Place.brings], fun _ => hk.reset rfl,
    by simp [Place.awaits], ?_, by simp [Place.began], by simp, by simp, by simp,
    by simp [Place.later], by simp, by simp⟩, moves_login hinv hlock⟩
  intro l hl
  cases hl
  refine ⟨(kept_login hinv _).mpr (.inr rfl), ?_⟩
  intro h
  exact hnone _ (hinv.slots _ _ h)

/-- A ticker of an older epoch, or one that finds its place taken, is not installed. -/
theorem goes_finishTickerReset (hinv : s.Inv) {epoch : Nat} {n : Option Nat}
    (hk : Knows i (.tickerFinish epoch n) s) (hfree : s.inner = none) :
    Goes i (n.map (Prod.mk .ticker)) s (s.finishTickerReset i epoch n) := by
  obtain ⟨hres, hren⟩ := hk.reset rfl
  cases n with
  | none => exact goes_finish hinv i .ok
  | some n =>
    obtain ⟨hkept, hslot⟩ := hk.hand (.ticker, n) rfl
    simp only [Session.finishTickerReset]
    split
    · next hcurrent =>
      obtain ⟨rfl, hempty⟩ := hcurrent
      have hup : s.down = false := by
        by_contra hd
        exact Nat.lt_irrefl _ ((hinv.stale _ hren).2 (by simpa using hd))
      have hinv' : ({ s with renewing := none } : Session).Inv :=
        ⟨hinv.slots, hinv.one, hinv.openedLt, hinv.letGoLt, hinv.known, hinv.down, by simp, by simp⟩
      have hinst : (({ s with renewing := none } : Session).install .ticker n).Inv :=
        hinv'.install hkept hup (fun _ => rfl) (by simp)
      have heq : (s.install .ticker n).finish i .ok =
          (({ s with renewing := none } : Session).install .ticker n).finish i .ok := by
        simp [Session.finish, Session.release, Session.install, hres]
      have hg := goes_finish hinst i .ok
      rw [← heq] at hg
      refine ⟨hg.inv, hg.knows, ?_⟩
      exact Moves.trans (moves_install hempty (.inl hfree)) (moves_release i _)
    · refine ⟨⟨hinv.slots, hinv.one, hinv.openedLt, hinv.letGoLt, hinv.known, hinv.down,
        hinv.renews, hinv.stale⟩, ⟨fun _ => rfl, by simp [Place.brings], fun _ => ⟨hres, hren⟩,
        by simp [Place.awaits], hk.hand, by simp [Place.began], by simp, by simp, by simp,
        by simp [Place.later], by simp, by simp⟩, ?_⟩
      exact moves_own (.inl hfree) rfl rfl rfl fun _ _ h => ⟨h, rfl⟩

theorem goes_tickerDropped (hinv : s.Inv) {epoch n : Nat} (hk : Knows i (.tickerDropping epoch n) s) :
    Goes i (some (.ticker, n)) s ((s.logout (.ticker, n)).finish i .ok) := by
  obtain ⟨hkept, hslot⟩ := hk.hand (.ticker, n) rfl
  exact (goes_finish (hinv.logout hkept hslot) i .ok).after (moves_logout i s (.ticker, n))

/-- Every step of a call. -/
theorem goes_run (hinv : s.Inv) (hk : Knows i p s)
    (ha : s.inner = none ∨ s.inner = some i → Alone i p.hand s) {a : Act}
    (hr : s.run i p a = some r) : Goes i p.hand s r := by
  have hown : p.hasInner = true → Alone i p.hand s := fun hp => ha (.inr (hk.inner hp))
  unfold Session.run at hr
  split at hr
  · cases hr
  · next landed _ =>
    cases hr
    exact goes_drop hinv hk landed
  · next c =>
    split at hr
    · next hfree =>
      cases hr
      exact goes_resetWait hinv (hk.calls c (.inl rfl)) hfree
    · cases hr
  · next c =>
    split at hr
    · next hfree =>
      cases hr
      exact goes_enter hinv hk (ha (.inl hfree)) hfree
    · cases hr
  · next task x ok =>
    cases hr
    split
    · exact goes_opened hinv hk (hown rfl)
    · exact goes_unopened ((hown rfl).under hinv (hk.inner rfl)) task
  · next task ok =>
    cases hr
    exact goes_probed ((hown rfl).under hinv (hk.inner rfl)) hk ok
  · next task x ok =>
    cases hr
    split
    · exact goes_discovered hinv hk
    · exact goes_finish hinv i _
  · next task x n picked =>
    cases hr
    exact goes_listed hinv hk picked
  · next task x n picked =>
    cases hr
    exact goes_left hinv hk (hown rfl)
  · next openedHere ok =>
    cases hr
    have hd : Downward s [.order] (.finish .failed) := trivial
    split
    · exact goes_finish hinv i _
    · split
      · exact goes_close ((hown rfl).under hinv (hk.inner rfl)) hd
      · exact goes_finish hinv i _
  · next next x n rest =>
    cases hr
    exact goes_closed hinv hk (hown rfl)
  · next epoch n wanted =>
    cases hr
    exact goes_tickerClosed hinv hk
  · next epoch ok =>
    cases hr
    split
    · exact goes_tickerOpened hinv hk
    · exact goes_finish hinv i _
  · next epoch n =>
    split at hr
    · next hfree =>
      cases hr
      exact goes_finishTickerReset hinv hk hfree
    · cases hr
  · next epoch n =>
    cases hr
    exact goes_tickerDropped hinv hk
  · cases hr

end RithmicNt.Plants.Logins
