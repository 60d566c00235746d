import RithmicNt.Plants.LoginSteps

/-! In every run each login that was not let go is in the session or in the hands of one call, and no
plant has two of them. -/

namespace RithmicNt.Plants.Logins

open RithmicNt.Lib RithmicNt.Host

variable {i j : Nat} {s t : Session} {p : Place} {P Q : Pool Session Place}

/-! ### Every run -/

structure Sound (P : Pool Session Place) : Prop where
  inv : P.shared.Inv
  knows : ∀ i p, P.At i p → Knows i p P.shared
  held : ∀ l, P.shared.Kept l →
    P.shared.slot l.1 = some l.2 ∨ ∃ i p, P.At i p ∧ p.hand = some l

theorem Sound.alone (hP : Sound P) (hp : P.At i p)
    (hinner : P.shared.inner = none ∨ P.shared.inner = some i) : Alone i p.hand P.shared := by
  intro l hl
  rcases hP.held l hl with hslot | ⟨j, q, hq, hand⟩
  · exact .inl hslot
  · by_cases hji : j = i
    · subst hji
      obtain rfl : p = q := Option.some.inj (hp.symm.trans hq)
      exact .inr (.inl hand)
    · have hk := hP.knows j q hq
      refine .inr (.inr ?_)
      rcases hand_locked hand with ⟨hin, -⟩ | ⟨hres, -, hticker⟩
      · have hj := hk.inner hin
        rcases hinner with h | h
        · exact absurd (hj.symm.trans h) (by simp)
        · exact absurd (Option.some.inj (hj.symm.trans h)) hji
      · refine ⟨hticker, ?_⟩
        intro h
        exact hji (Option.some.inj ((hk.reset hres).1.symm.trans h))

theorem sound_put (hP : Sound P) (hp : P.At i p) {r : Session × Place}
    (hg : Goes i p.hand P.shared r) : Sound (P.put i r) := by
  refine ⟨hg.inv, ?_, ?_⟩
  · intro j q hq
    rcases Pool.at_put hq with ⟨hne, hq⟩ | ⟨rfl, rfl⟩
    · refine (hP.knows j q hq).stable hg.moves hne ?_
      intro l hl
      exact hand_ne (hP.knows i p hp) (hP.knows j q hq) hne hl
    · exact hg.knows
  · intro l hl
    rcases hg.moves.held l hl with h | h | ⟨hkept, hslot, hother⟩
    · exact .inl h
    · exact .inr ⟨i, r.2, (Pool.at_put_iff hp).mpr (.inr ⟨rfl, rfl⟩), h⟩
    · rcases hP.held l hkept with h | ⟨j, q, hq, hand⟩
      · exact absurd h hslot
      · refine .inr ⟨j, q, (Pool.at_put_iff hp).mpr (.inl ⟨?_, hq⟩), hand⟩
        rintro rfl
        obtain rfl : p = q := Option.some.inj (hp.symm.trans hq)
        exact hother hand

theorem knows_first {c : Call} (hc : c.Valid) (i : Nat) (s : Session) : Knows i c.first s := by
  cases c <;> constructor <;>
    simp_all [Call.first, Place.hasInner, Place.brings, Place.hasReset, Place.awaits, Place.hand,
      Place.later]

theorem sound_add (hP : Sound P) {c : Call} (hc : c.Valid) :
    Sound (P.add (P.shared, c.first)) := by
  refine ⟨hP.inv, ?_, ?_⟩
  · intro j q hq
    rcases Pool.at_add hq with hq | ⟨rfl, rfl⟩
    · exact hP.knows j q hq
    · exact knows_first hc _ _
  · intro l hl
    rcases hP.held l hl with h | ⟨j, q, hq, hand⟩
    · exact .inl h
    · exact .inr ⟨j, q, Pool.at_add_iff.mpr (.inl hq), hand⟩

theorem sound_step {m : Move Call Act} (hP : Sound P) (h : P.step Session.code m = some Q) :
    Sound Q := by
  obtain ⟨c, r, rfl, hr, rfl⟩ | ⟨i, a, p, r, rfl, hp, hr, rfl⟩ := Pool.step_cases h
  · obtain ⟨hc, hr⟩ : c.Valid ∧ (P.shared, c.first) = r := by
      simpa [Session.code, Session.spawn] using hr
    rw [← hr]
    exact sound_add hP hc
  · exact sound_put hP hp (goes_run hP.inv (hP.knows i p hp) (hP.alone hp) hr)

theorem sound_of_run {ok : Pool Session Place → Move Call Act → Prop} {trace : List (Move Call Act)}
    (h : machine.Run ok trace P) : Sound P := by
  refine h.invariant (I := Sound) ?_ fun _ _ _ hP _ hstep => sound_step hP hstep
  rintro ⟨s, threads⟩ ⟨⟨config, account, plants, rfl⟩, rfl⟩
  refine ⟨⟨?_, ?_, ?_, ?_, ?_, ?_, ?_, ?_⟩, ?_, ?_⟩ <;>
    simp [Session.withPlants, Session.Kept, Pool.At]

/-- Every call is over. -/
def AtRest (P : Pool Session Place) : Prop := ∀ i p, P.At i p → ∃ a, p = .done a

theorem Sound.slots_of_rest (hP : Sound P) (hrest : AtRest P) (l : Login) :
    P.shared.Kept l ↔ P.shared.slot l.1 = some l.2 := by
  constructor
  · intro hl
    rcases hP.held l hl with h | ⟨i, p, hp, hand⟩
    · exact h
    · obtain ⟨a, rfl⟩ := hrest i p hp
      cases hand
  · intro h
    exact hP.inv.slots l.1 l.2 h

/-- A disconnect overtakes a ticker reset, which then has a new ticker in its hands. -/
def overtaken : List (Move Call Act) :=
  [.spawn .connect, .run 0 .go, .run 0 .go, .run 0 (.answer true), .spawn .resetTicker, .run 1 .go,
    .run 1 .go, .spawn .disconnect, .run 2 .go, .run 1 .go, .run 1 (.answer true)]

def tickerOnly : Pool Session Place := ⟨.withPlants true true { ticker := true }, []⟩

theorem start_tickerOnly : machine.Start tickerOnly := ⟨⟨true, true, _, rfl⟩, rfl⟩

/-- What a session that is down still has logged in is a ticker that a reset of an older epoch made
or took, and that it will log out. -/
theorem Sound.down (hP : Sound P) (hd : P.shared.down = true) {l : Login} (hl : P.shared.Kept l) :
    l.1 = .ticker ∧ ∃ i p e, P.At i p ∧ p.hand = some l ∧ p.began = some e ∧ e < P.shared.epoch := by
  rcases hP.held l hl with h | ⟨i, p, hp, hand⟩
  · exact absurd (h.symm.trans (hP.inv.down hd l.1)) (by simp)
  · have hk := hP.knows i p hp
    rcases hand_locked hand with ⟨-, hup, -⟩ | ⟨hres, hbegan, hticker⟩
    · exact absurd ((hk.up hup).symm.trans hd) (by simp)
    · obtain ⟨e, he⟩ := Option.ne_none_iff_exists'.mp hbegan
      have hren := (hk.reset hres).2.trans he
      exact ⟨hticker, i, p, e, hp, hand, he, (hP.inv.stale e hren).2 hd⟩

/-! ### Runs that let nothing go -/

/-- A connect goes on. -/
def Place.connecting : Place → Prop
  | .opening .connect _ | .probing .connect => True
  | _ => False

/-- The step lets nothing go, and a connect that goes on has no order plant to drop. -/
structure Session.Tidy (s : Session) (r : Session × Place) : Prop where
  letGo : r.1.letGo = s.letGo
  order : r.2.connecting → r.1.slot .order = none

theorem Session.Tidy.after {r : Session × Place} (h : t.Tidy r) (hletGo : t.letGo = s.letGo) :
    s.Tidy r :=
  ⟨h.letGo.trans hletGo, h.order⟩

theorem tidy_stay {p : Place} (hp : ¬ p.connecting) : s.Tidy (s, p) := ⟨rfl, fun h => absurd h hp⟩

theorem tidy_finish (s : Session) (i : Nat) (a : Answer) : s.Tidy (s.finish i a) := ⟨rfl, False.elim⟩

theorem tidy_after (s : Session) (i : Nat) (next : Next) : s.Tidy (s.after i next) := by
  cases next with
  | down a => exact (tidy_finish { s with down := true } i a).after rfl
  | finish a => exact tidy_finish s i a
  | reopenHistory =>
    simp only [Session.after]
    split
    · exact tidy_finish s i _
    · split
      · exact tidy_stay id
      · exact tidy_finish s i _

theorem tidy_close (s : Session) (i : Nat) (next : Next) (rest : List Stream) :
    s.Tidy (s.close i next rest) := by
  induction rest with
  | nil => exact tidy_after s i next
  | cons x rest ih =>
    unfold Session.close
    split
    · exact ⟨rfl, False.elim⟩
    · exact ih

theorem tidy_disconnect (s : Session) (i : Nat) (a : Answer) : s.Tidy (s.disconnect i a) :=
  (tidy_close { s with epoch := s.epoch + 1 } i _ _).after rfl

theorem tidy_connected (i : Nat) (horder : s.slot .order = none) : s.Tidy (s.connected i) := by
  unfold Session.connected
  rw [horder]
  exact tidy_finish s i .ok

theorem tidy_connectPnl (i : Nat) (horder : s.slot .order = none) : s.Tidy (s.connectPnl i) := by
  unfold Session.connectPnl
  split
  · exact ⟨rfl, fun _ => horder⟩
  · exact tidy_connected i horder

theorem tidy_connectHistory (i : Nat) (horder : s.slot .order = none) :
    s.Tidy (s.connectHistory i) := by
  unfold Session.connectHistory
  split
  · exact ⟨rfl, fun _ => horder⟩
  · exact tidy_connectPnl i horder

theorem tidy_connect (i : Nat) (horder : s.slot .order = none ∨ s.isUp = true) :
    s.Tidy (s.connect i) := by
  unfold Session.connect
  split
  · exact tidy_finish s i _
  · next hdown =>
    have horder : ({ s with epoch := s.epoch + 1 } : Session).slot .order = none :=
      horder.resolve_right hdown
    refine Session.Tidy.after ?_ (t := { s with epoch := s.epoch + 1 }) rfl
    dsimp only
    split
    · unfold Session.connectTicker
      split
      · exact ⟨rfl, fun _ => horder⟩
      · exact tidy_connectHistory i horder
    · exact tidy_finish _ i _

theorem tidy_ensured (s : Session) (i : Nat) (openedHere : Bool) (task : Task) :
    s.Tidy (s.ensured i openedHere task) := by
  unfold Session.ensured
  split
  · exact tidy_stay id
  · exact tidy_finish s i .ok

theorem tidy_connectPlant (s : Session) (i : Nat) {task : Task} (htask : task ≠ .connect)
    (x : Stream) : s.Tidy (s.connectPlant i task x) := by
  unfold Session.connectPlant
  dsimp only
  split
  · refine ⟨rfl, ?_⟩
    intro h
    cases task <;> simp_all [Place.connecting]
  · exact (tidy_finish { s with resolvedAccount := true } i _).after rfl

theorem tidy_ensurePlant (s : Session) (i : Nat) {task : Task} (htask : task ≠ .connect)
    (x : Stream) : s.Tidy (s.ensurePlant i task x) := by
  unfold Session.ensurePlant
  split
  · exact tidy_ensured s i false task
  · split
    · exact tidy_finish s i _
    · split
      · exact tidy_connectPlant s i htask x
      · split
        · exact tidy_stay id
        · exact tidy_finish s i _

theorem tidy_requestPnl (s : Session) (i : Nat) : s.Tidy (s.requestPnl i) := by
  unfold Session.requestPnl
  split
  · exact tidy_ensurePlant s i (by simp) _
  · exact tidy_finish s i _

theorem tidy_requestHistory (s : Session) (i : Nat) : s.Tidy (s.requestHistory i) := by
  unfold Session.requestHistory
  split
  · exact tidy_stay id
  · exact tidy_requestPnl s i

theorem tidy_requestPlants (s : Session) (i : Nat) (extra : PlantSet) :
    s.Tidy (s.requestPlants i extra) := by
  unfold Session.requestPlants
  refine Session.Tidy.after ?_ (t := { s with plants := s.plants.union extra }) rfl
  dsimp only
  split
  · exact tidy_finish _ i _
  · split
    · unfold Session.requestTicker
      split
      · exact tidy_stay id
      · exact tidy_requestHistory _ i
    · exact tidy_finish _ i _

theorem tidy_opened (i : Nat) {task : Task} {x : Stream}
    (horder : task = .connect → x ≠ .order ∧ s.slot .order = none) :
    s.Tidy (s.plantConnected i task x) := by
  have hslot : task = .connect → ((s.login x).install x s.logins).slot .order = none := by
    intro htask
    obtain ⟨hx, hnone⟩ := horder htask
    simpa [Session.install, Session.login, hx.symm] using hnone
  unfold Session.plantConnected
  dsimp only
  refine Session.Tidy.after ?_ (t := (s.login x).install x s.logins) rfl
  split
  · exact tidy_connectHistory i (hslot rfl)
  · exact ⟨rfl, fun _ => hslot rfl⟩
  · exact tidy_connected i (hslot rfl)
  · exact tidy_requestHistory _ i
  · exact tidy_stay id
  · exact tidy_stay id
  · exact tidy_ensured _ i true _

theorem tidy_probed (i : Nat) {task : Task} (horder : task = .connect → s.slot .order = none)
    (ok : Bool) : s.Tidy (if ok then s.proved i task else s.unproved i task) := by
  split
  · unfold Session.proved
    split
    · exact tidy_connectPnl i (horder rfl)
    · exact tidy_requestPnl s i
    · exact tidy_finish s i _
  · unfold Session.unproved
    split
    · exact tidy_disconnect s i _
    · exact tidy_close s i _ _
    · exact tidy_finish s i _

theorem tidy_unopened (s : Session) (i : Nat) (task : Task) : s.Tidy (s.unopened i task) := by
  unfold Session.unopened
  split
  · exact tidy_disconnect s i _
  · exact tidy_finish s i _

theorem tidy_beginTickerReset (s : Session) (i : Nat) : s.Tidy (s.beginTickerReset i) := by
  unfold Session.beginTickerReset
  split
  · exact tidy_finish s i _
  · dsimp only
    split
    · exact ⟨rfl, False.elim⟩
    · refine ⟨rfl, ?_⟩
      intro h
      split at h <;> exact h.elim

theorem tidy_finishTickerReset (s : Session) (i epoch : Nat) (n : Option Nat) :
    s.Tidy (s.finishTickerReset i epoch n) := by
  cases n with
  | none => exact tidy_finish s i _
  | some n =>
    simp only [Session.finishTickerReset]
    split
    · exact (tidy_finish (s.install .ticker n) i _).after rfl
    · exact ⟨rfl, False.elim⟩

theorem tidy_enter (i : Nat) {c : Call}
    (horder : c = .connect → s.slot .order = none ∨ s.isUp = true) : s.Tidy (s.enter i c) := by
  cases c with
  | connect =>
    have h := tidy_connect (s := { s with inner := some i, down := false }) i (horder rfl)
    exact h.after rfl
  | disconnect => exact (tidy_disconnect { s with inner := some i } i _).after rfl
  | requestPlants extra =>
    exact (tidy_requestPlants { s with inner := some i, down := false } i extra).after rfl
  | ensurePlant p =>
    exact (tidy_ensurePlant { s with inner := some i, down := false } i (by simp) p).after rfl
  | subscribeOrders =>
    exact (tidy_ensurePlant { s with inner := some i, down := false } i (by simp) .order).after rfl
  | disconnectPlant p => exact (tidy_close { s with inner := some i } i _ _).after rfl
  | resetTicker => exact (tidy_beginTickerReset { s with down := false } i).after rfl
  | resetHistory => exact (tidy_close { s with inner := some i, down := false } i _ _).after rfl

theorem tidy_run {a : Act} {r : Session × Place} (hk : Knows i p s)
    (horder : p.connecting → s.slot .order = none) (hdrop : ∀ landed, a ≠ .drop landed)
    (hconnect : p = .innerWait .connect → s.slot .order = none ∨ s.isUp = true)
    (hr : s.run i p a = some r) : s.Tidy r := by
  unfold Session.run at hr
  split at hr
  · cases hr
  · next landed _ => exact absurd rfl (hdrop landed)
  · split at hr
    · cases hr
      exact ⟨rfl, False.elim⟩
    · cases hr
  · split at hr
    · cases hr
      refine tidy_enter i ?_
      rintro rfl
      exact hconnect rfl
    · cases hr
  · next task x ok =>
    cases hr
    split
    · refine tidy_opened i ?_
      rintro rfl
      exact ⟨hk.valid .connect x rfl, horder trivial⟩
    · exact tidy_unopened s i task
  · next task ok =>
    cases hr
    refine tidy_probed i ?_ ok
    rintro rfl
    exact horder trivial
  · cases hr
    split
    · exact ⟨rfl, False.elim⟩
    · exact tidy_finish s i _
  · cases hr
    exact tidy_stay id
  · next task x n picked =>
    cases hr
    have htask := (hk.ensures task x (.inr (.inr ⟨n, picked, rfl⟩))).1
    split
    · exact (tidy_connectPlant (s.logout (.order, n)) i htask x).after rfl
    · exact (tidy_finish (s.logout (.order, n)) i _).after rfl
  · cases hr
    split
    · exact tidy_finish s i _
    · split
      · exact tidy_close s i _ _
      · exact tidy_finish s i _
  · next next x n rest =>
    cases hr
    exact (tidy_close (s.logout (x, n)) i next rest).after rfl
  · cases hr
    refine ⟨rfl, ?_⟩
    intro h
    split at h <;> exact h.elim
  · cases hr
    split
    · exact ⟨rfl, False.elim⟩
    · exact tidy_finish s i _
  · next epoch n =>
    split at hr
    · cases hr
      exact tidy_finishTickerReset s i epoch n
    · cases hr
  · next n =>
    cases hr
    exact (tidy_finish (s.logout (.ticker, n)) i _).after rfl
  · cases hr

structure Sparing (P : Pool Session Place) : Prop extends Sound P where
  letGo : P.shared.letGo = ∅
  order : ∀ i p, P.At i p → p.connecting → P.shared.slot .order = none

theorem sparing_step {m : Move Call Act} (hP : Sparing P) (hok : Careful P m)
    (h : P.step Session.code m = some Q) : Sparing Q := by
  have hQ := sound_step hP.toSound h
  obtain ⟨c, r, rfl, hr, rfl⟩ | ⟨i, a, p, r, rfl, hp, hr, rfl⟩ := Pool.step_cases h
  · obtain ⟨-, hr⟩ : c.Valid ∧ (P.shared, c.first) = r := by
      simpa [Session.code, Session.spawn] using hr
    rw [← hr]
    rw [← hr] at hQ
    refine ⟨hQ, hP.letGo, ?_⟩
    intro j q hq hc
    rcases Pool.at_add hq with hq | ⟨-, rfl⟩
    · exact hP.order j q hq hc
    · cases c <;> exact hc.elim
  · have hk := hP.knows i p hp
    have hg := goes_run hP.inv hk (hP.alone hp) hr
    have htidy : P.shared.Tidy r := by
      refine tidy_run hk (hP.order i p hp) ?_ ?_ hr
      · rintro landed rfl
        exact hok
      · rintro rfl
        cases a with
        | drop landed => exact hok.elim
        | go | answer b => exact hok hp
    refine ⟨hQ, htidy.letGo.trans hP.letGo, ?_⟩
    intro j q hq hc
    rcases Pool.at_put hq with ⟨hne, hq⟩ | ⟨rfl, rfl⟩
    · have hin : q.hasInner = true := by
        cases q <;> simp_all [Place.connecting, Place.hasInner]
      have hslot := (hg.moves.inner j hne ((hP.knows j q hq).inner hin)).slot
      show r.1.slot .order = none
      rw [hslot]
      exact hP.order j q hq hc
    · exact htidy.order hc

theorem sparing_of_run {trace : List (Move Call Act)} (h : machine.Run Careful trace P) :
    Sparing P := by
  refine h.invariant (I := Sparing) ?_ fun _ _ _ hP hok hstep => sparing_step hP hok hstep
  rintro ⟨s, threads⟩ hstart
  have hstarted : machine.Run Careful [] ⟨s, threads⟩ := .start hstart
  have hP := sound_of_run hstarted
  obtain ⟨⟨config, account, plants, rfl⟩, rfl⟩ := hstart
  exact ⟨hP, rfl, by simp [Pool.At]⟩

/-- A connect that finds an order plant while the others are gone drops it without a logout: it is
open at the venue after every call is over. -/
theorem order_plant_left_open :
    ∃ P, machine.Run Machine.Free
      [.spawn .connect, .run 0 .go, .run 0 .go, .run 0 (.answer true), .spawn (.ensurePlant .order),
        .run 1 .go, .run 1 .go, .run 1 (.answer true), .spawn .resetTicker, .run 2 .go, .run 2 .go,
        .run 2 .go, .run 2 (.answer false), .spawn .connect, .run 3 .go, .run 3 .go,
        .run 3 (.answer true)] P ∧
      P.threads = [.done .ok, .done .ok, .done .failed, .done .ok] ∧
      P.shared.slot .order = none ∧ (.order, 1) ∈ P.shared.opened := by
  have hexec : ∃ P, machine.exec Machine.Free tickerOnly
      [.spawn .connect, .run 0 .go, .run 0 .go, .run 0 (.answer true), .spawn (.ensurePlant .order),
        .run 1 .go, .run 1 .go, .run 1 (.answer true), .spawn .resetTicker, .run 2 .go, .run 2 .go,
        .run 2 .go, .run 2 (.answer false), .spawn .connect, .run 3 .go, .run 3 .go,
        .run 3 (.answer true)] = some P ∧
      P.threads = [.done .ok, .done .ok, .done .failed, .done .ok] ∧
      P.shared.slot .order = none ∧ (.order, 1) ∈ P.shared.opened := ⟨_, rfl, rfl, rfl, by decide⟩
  obtain ⟨P, hexec, hrest⟩ := hexec
  exact ⟨P, Machine.run_of_exec start_tickerOnly hexec, hrest⟩

end RithmicNt.Plants.Logins
