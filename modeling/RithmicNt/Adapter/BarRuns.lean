import RithmicNt.Adapter.Bars

/-! Over every run of overlapping calls a bar reaches the registered bar types of its own duration, and
a feed is open while one of its bar types is registered, as long as bar types of one minute and of sixty
minutes keep out of each other's way and an unsubscription that waits has its duration for itself. -/

namespace RithmicNt.Adapter.Bars

open RithmicNt.Lib

section Near

variable {route : String → Option (String × String)} {b b' : BarType}

theorem Ready.seconds_cases (h : Ready route b) :
    b.seconds = 60 ∨ b.seconds = 900 ∨ b.seconds = 3600 ∨ b.seconds = 86400 := by
  obtain ⟨_, _, _, _, -, -, -, hwire⟩ := h.wire
  omega

theorem Near.symm (hb : Ready route b) (hb' : Ready route b') (h : Near route b b') : Near route b' b := by
  obtain ⟨hroute, hseconds⟩ := h
  refine ⟨hroute.symm, ?_⟩
  have hcases := hb'.seconds_cases
  rcases hb.seconds_cases with hc | hc | hc | hc <;> rcases hseconds with hs | hs <;>
    simp [rival, hs, hc] at hcases ⊢

/-- Bar types of one feed are near each other. -/
theorem Near.of_feed (hb : Ready route b) (hb' : Ready route b')
    (h : feedOf route b' = feedOf route b) : Near route b b' := by
  obtain ⟨hroute, hseconds⟩ := (hb.feedOf_eq_iff hb').mp h
  exact ⟨hroute, .inl hseconds⟩

end Near

/-! ### The dictionary of the registered bar types -/

/-- The dictionary holds the registered bar types, each under its keys. -/
structure Filed (route : String → Option (String × String)) (types : Key → Option (Finset BarType))
    (registered : Finset BarType) : Prop where
  ready : ∀ b ∈ registered, Ready route b
  types : ∀ key, types key = entry (registered.filter fun b => key ∈ keysOf route b)

section Filed

variable {route : String → Option (String × String)} {onClose : Bool} {c : Client} {b : BarType}
  {registered : Finset BarType}

theorem Filed.getD_types (h : Filed route c.barTypes registered) (key : Key) :
    (c.barTypes key).getD ∅ = registered.filter fun b => key ∈ keysOf route b := by
  rw [h.types, getD_entry]

theorem Filed.mem_types_iff (h : Filed route c.barTypes registered) {key : Key} :
    b ∈ (c.barTypes key).getD ∅ ↔ b ∈ registered ∧ key ∈ keysOf route b := by
  rw [h.getD_types, Finset.mem_filter]

/-- The dictionary without a bar type is that of the others. -/
theorem Filed.without (h : Filed route c.barTypes registered) (b : BarType) (key : Key) :
    c.without route b key =
      entry ((registered.erase b).filter fun b' => key ∈ keysOf route b') := by
  rw [Client.without, Client.foldl_discard_apply, h.getD_types]
  split
  · rw [Finset.filter_erase]
  · next hkey =>
    rw [h.types, Finset.filter_erase, Finset.erase_eq_of_notMem]
    simp [hkey]

theorem Filed.isSome_without (h : Filed route c.barTypes registered) {key : Key} :
    (c.without route b key).isSome = true ↔
      ∃ b' ∈ registered, b' ≠ b ∧ key ∈ keysOf route b' := by
  rw [h.without, isSome_entry]
  simp only [Finset.mem_filter, Finset.mem_erase]
  constructor
  · rintro ⟨b', ⟨hne, hb'⟩, hkey⟩
    exact ⟨b', hb', hne, hkey⟩
  · rintro ⟨b', hb', hne, hkey⟩
    exact ⟨b', ⟨hne, hb'⟩, hkey⟩

/-- Registering a bar type under its keys. -/
theorem Filed.insert (h : Filed route c.barTypes registered) (hb : Ready route b) :
    Filed route ((keysOf route b).foldl (Client.add b) c.barTypes) (insert b registered) := by
  refine ⟨?_, fun key => ?_⟩
  · intro b' hb'
    obtain rfl | hb' := Finset.mem_insert.mp hb'
    · exact hb
    · exact h.ready b' hb'
  · rw [Client.foldl_add_apply, h.getD_types, Finset.filter_insert]
    split
    · rfl
    · exact h.types key

theorem Filed.erase (h : Filed route c.barTypes registered) :
    Filed route (c.without route b) (registered.erase b) :=
  ⟨fun b' hb' => h.ready b' (Finset.mem_of_mem_erase hb'), h.without b⟩

/-- The keys of a bar type that is alone near itself hold it and nothing else. -/
theorem Filed.filter_of_lone (h : Filed route c.barTypes registered) (hb : Ready route b)
    (hlone : ∀ b' ∈ registered, b' ≠ b → ¬ Near route b b') {key : Key} (hkey : key ∈ keysOf route b) :
    (registered.filter fun b' => key ∈ keysOf route b') = if b ∈ registered then {b} else ∅ := by
  have hmem : ∀ b' ∈ registered, key ∈ keysOf route b' → b' = b := by
    intro b' hb' hkey'
    by_contra hne
    exact hlone b' hb' hne ((hb.shares_key_iff (h.ready b' hb')).mp ⟨key, hkey, hkey'⟩)
  ext b'
  rw [Finset.mem_filter]
  split
  · next hin =>
    rw [Finset.mem_singleton]
    constructor
    · rintro ⟨hb', hkey'⟩
      exact hmem b' hb' hkey'
    · rintro rfl
      exact ⟨hin, hkey⟩
  · next hout =>
    simp only [Finset.notMem_empty, iff_false]
    rintro ⟨hb', hkey'⟩
    rw [hmem b' hb' hkey'] at hb'
    exact hout hb'

/-- Putting back what the keys had, with nothing near the bar type registered in the meantime. -/
theorem Filed.restore (h : Filed route c.barTypes registered) (hb : Ready route b)
    (hlone : ∀ b' ∈ registered, ¬ Near route b b') (had : Bool) :
    Filed route
      (((keysOf route b).map fun key => (key, if had then ({b} : Finset BarType) else ∅)).foldl
        Client.restore c.barTypes)
      (if had then Insert.insert b registered else registered) := by
  have hnot : b ∉ registered := fun hmem => hlone b hmem ⟨rfl, .inl rfl⟩
  refine ⟨?_, fun key => ?_⟩
  · intro b' hb'
    split at hb'
    · obtain rfl | hb' := Finset.mem_insert.mp hb'
      · exact hb
      · exact h.ready b' hb'
    · exact h.ready b' hb'
  · rw [Client.foldl_restore_apply]
    by_cases hkey : key ∈ keysOf route b
    · have hempty := h.filter_of_lone hb (fun b' hb' _ => hlone b' hb') hkey
      rw [if_neg hnot] at hempty
      rw [if_pos hkey]
      split
      · rw [Finset.filter_insert, if_pos hkey, hempty]
        rfl
      · rw [hempty]
    · rw [if_neg hkey, h.types]
      split
      · rw [Finset.filter_insert, if_neg hkey]
      · rfl

/-- While a key of the bar type is still used, another bar type has its feed: the others that share a
key are of the rival duration. -/
theorem Filed.other_of_used {m : Market} (h : Filed route m.client.barTypes m.registered)
    (hb : Ready route b) (hok : LastApart route m b)
    (hused : ∃ key ∈ keysOf route b, (m.client.without route b key).isSome = true)
    (hmem : b ∈ m.registered) :
    ∃ b' ∈ m.registered, b' ≠ b ∧ feedOf route b' = feedOf route b := by
  by_contra hnone
  obtain ⟨key, hkey, hsome⟩ := hused
  obtain ⟨b', hb', hne, hkey'⟩ := h.isSome_without.mp hsome
  obtain ⟨hroute, hseconds⟩ :=
    (hb.shares_key_iff (h.ready b' hb')).mp ⟨key, hkey, hkey'⟩
  have hlast : ∀ b' ∈ m.registered, b' ≠ b → route b'.instrument = route b.instrument →
      b'.seconds ≠ b.seconds := by
    intro b'' hb'' hne'' hroute'' hsame
    exact hnone ⟨b'', hb'', hne'', (hb.feedOf_eq_iff (h.ready b'' hb'')).mpr ⟨hroute'', hsame⟩⟩
  obtain hsame | hrival := hseconds
  · exact hlast b' hb' hne hroute hsame
  · exact hok hmem hlast b' hb' hroute hrival

/-- While no key of the bar type is used, it is alone near itself. -/
theorem Filed.lone_of_unused (h : Filed route c.barTypes registered) (hb : Ready route b)
    (hunused : ∀ key ∈ keysOf route b, ¬ (c.without route b key).isSome = true) :
    ∀ b' ∈ registered, b' ≠ b → ¬ Near route b b' := by
  intro b' hb' hne hnear
  obtain ⟨key, hkey, hkey'⟩ := (hb.shares_key_iff (h.ready b' hb')).mpr hnear
  exact hunused key hkey (h.isSome_without.mpr ⟨b', hb', hne, hkey'⟩)

/-- A bar of a feed goes to the registered bar types of its instrument and its duration. -/
theorem Filed.exact_dispatch {m : Market} (h : Filed route m.client.barTypes m.registered) {feed : Key}
    {close : Option Int} (hfeed : feed.Advertised)
    (hok : feed.rtype = rithmicMinute ∧ feed.period = 1 →
      ∀ b ∈ m.registered, Of route feed b → b.seconds ≠ 3600) :
    Dispatch.Exact route onClose ⟨feed, close, m.registered, m.client.last,
      (m.client.dispatch onClose (feed.echo close)).2⟩ := by
  intro ts hclose b
  simp only at hclose
  subst hclose
  have htypes : m.client.barTypesForEvent (feed.echo (some ts)) = (m.client.barTypes
      ⟨feed.symbol, feed.exchange, feed.rtype, feed.seconds⟩).getD ∅ := rfl
  simp only [Client.dispatch, Key.echo, Finset.mem_filter]
  rw [show (TimeBar.mk _ _ _ _ _) = feed.echo (some ts) from rfl, htypes, h.mem_types_iff, and_assoc]
  constructor
  · rintro ⟨hmem, hkey, hadmits⟩
    have hready := h.ready b hmem
    obtain ⟨hof, hseconds⟩ := (hready.echo_mem_iff hfeed fun hone => hok hone b hmem).mp hkey
    exact ⟨hmem, hof, hseconds, hadmits⟩
  · rintro ⟨hmem, hof, hseconds, hadmits⟩
    have hready := h.ready b hmem
    exact ⟨hmem, (hready.echo_mem_iff hfeed fun hone => hok hone b hmem).mpr ⟨hof, hseconds⟩, hadmits⟩

end Filed

/-! ### Calls in flight -/

section Flights

variable (route : String → Option (String × String)) (onClose : Bool)

/-- What holds while unsubscription `n` waits: it has what its keys had, and its duration for itself. -/
structure Leaving (m : Market) (n : Nat) (b : BarType) (feed : Key)
    (saved : List (Key × Finset BarType)) (a : Option (Option String)) : Prop where
  saved : saved = (keysOf route b).map fun key =>
    (key, if decide (n ∈ m.removed) then ({b} : Finset BarType) else ∅)
  lone : ∀ b' ∈ m.registered, ¬ Near route b b'
  sent : n ∈ m.removed → a ≠ some none → feed ∈ m.feeds

/-- What holds while call `n` waits at `p`. -/
structure Flying (m : Market) (n : Nat) (p : Place) (a : Option (Option String)) : Prop where
  ready : Ready route p.barType
  feed : feedOf route p.barType = some p.feed
  subscribed : ∀ b feed, p = .subscribing b feed → a = some none → feed ∈ m.feeds
  leaving : ∀ b feed saved, p = .unsubscribing b feed saved → Leaving route m n b feed saved a

/-- The venue sends the feed for the sake of the call. -/
def Owes (m : Market) (n : Nat) : Place → Option (Option String) → Prop
  | .subscribing .., a => a = some none
  | .unsubscribing .., a => n ∈ m.removed ∧ a ≠ some none

structure Sound (P : Pool Market Stage) : Prop where
  filed : Filed route P.shared.client.barTypes P.shared.registered
  bars : ∀ d ∈ P.shared.log, d.Exact route onClose
  sent : ∀ b ∈ P.shared.registered, ∃ feed ∈ P.shared.feeds, feedOf route b = some feed
  fresh : ∀ n ∈ P.shared.removed, n < P.threads.length
  flying : ∀ n p a, P.At n (.waiting p a) → Flying route P.shared n p a
  alone : ∀ i j b feed saved p a a', i ≠ j → P.At i (.waiting (.unsubscribing b feed saved) a) →
    P.At j (.waiting p a') → ¬ Near route b p.barType
  wanted : ∀ feed ∈ P.shared.feeds, (∃ b ∈ P.shared.registered, feedOf route b = some feed) ∨
    ∃ n p a, P.At n (.waiting p a) ∧ p.feed = feed ∧ Owes P.shared n p a

variable {route} {onClose} {P : Pool Market Stage} {m : Market} {b : BarType} {p : Place} {n : Nat}
  {a : Option (Option String)} {raised : Option String}

/-- What a call in flight has for itself stays where its feed does and no bar type near it comes in. -/
theorem Flying.kept {m' : Market} (h : Flying route m n p a)
    (hsent : p.feed ∈ m.feeds → p.feed ∈ m'.feeds) (hremoved : n ∈ m'.removed ↔ n ∈ m.removed)
    (hapart : ∀ b feed saved, p = .unsubscribing b feed saved →
      ∀ b' ∈ m'.registered, b' ∉ m.registered → ¬ Near route b b') :
    Flying route m' n p a := by
  obtain ⟨hready, hfeed, hsubscribed, hleaving⟩ := h
  refine ⟨hready, hfeed, ?_, ?_⟩
  · rintro b feed rfl ha
    exact hsent (hsubscribed b feed rfl ha)
  · rintro b feed saved rfl
    obtain ⟨hsaved, hlone, hleft⟩ := hleaving b feed saved rfl
    refine ⟨?_, ?_, ?_⟩
    · rw [hsaved]
      simp [hremoved]
    · intro b' hb'
      by_cases hmem : b' ∈ m.registered
      · exact hlone b' hmem
      · exact hapart b feed saved rfl b' hb' hmem
    · intro hmem ha
      exact hsent (hleft (hremoved.mp hmem) ha)

theorem Sound.exact (h : Sound route onClose P) : Exact route onClose P := by
  refine ⟨h.bars, h.sent, fun feed hfeed => (h.wanted feed hfeed).imp_right ?_⟩
  rintro ⟨n, p, a, hp, heq, -⟩
  exact ⟨n, p, a, hp, heq⟩

theorem at_waiting_add {r : Market × Stage} (hr : ∀ p a, r.2 ≠ .waiting p a) {k : Nat} {q : Place}
    {a' : Option (Option String)} (h : (P.add r).At k (.waiting q a')) : P.At k (.waiting q a') :=
  (Pool.at_add h).resolve_right fun hnew => hr q a' hnew.2.symm

theorem Sound.fresh_add (h : Sound route onClose P) {st : Stage}
    (hremoved : ∀ k, k ∈ m.removed → k ∈ P.shared.removed ∨ k = P.threads.length) :
    ∀ k ∈ m.removed, k < (P.add (m, st)).threads.length := by
  intro k hk
  have hlength : (P.add (m, st)).threads.length = P.threads.length + 1 := by
    simp [Pool.add]
  rw [hlength]
  rcases hremoved k hk with hk | rfl
  · exact Nat.lt_succ_of_lt (h.fresh k hk)
  · exact Nat.lt_succ_self _

/-- A call that ends at once: the others keep what they have, where no bar type is added and no feed
loses its last one. -/
theorem Sound.add_ended (h : Sound route onClose P)
    (hfiled : Filed route m.client.barTypes m.registered)
    (hbars : ∀ d ∈ m.log, d.Exact route onClose)
    (hregistered : m.registered ⊆ P.shared.registered) (hfeeds : m.feeds = P.shared.feeds)
    (hremoved : ∀ k, k ∈ m.removed → k ∈ P.shared.removed ∨ k = P.threads.length)
    (hkept : P.shared.removed ⊆ m.removed)
    (hserved : ∀ feed, (∃ b ∈ P.shared.registered, feedOf route b = some feed) →
      ∃ b ∈ m.registered, feedOf route b = some feed) :
    Sound route onClose (P.add (m, .ended raised)) := by
  have hat : ∀ {k q a'}, (P.add (m, .ended raised)).At k (.waiting q a') → P.At k (.waiting q a') :=
    fun hq => at_waiting_add (by simp) hq
  have hold : ∀ {k q a'}, P.At k (.waiting q a') → (k ∈ m.removed ↔ k ∈ P.shared.removed) := by
    intro k q a' hk
    refine ⟨fun hmem => (hremoved k hmem).resolve_right ?_, fun hmem => hkept hmem⟩
    exact Nat.ne_of_lt hk.lt_length
  refine ⟨hfiled, hbars, ?_, ?_, ?_, ?_, ?_⟩
  · intro b hb
    obtain ⟨feed, hfeed, hserves⟩ := h.sent b (hregistered hb)
    exact ⟨feed, by simpa [Pool.add, hfeeds] using hfeed, hserves⟩
  · exact h.fresh_add hremoved
  · intro k q a' hk
    have hk := hat hk
    refine (h.flying k q a' hk).kept (fun hsent => hfeeds.symm ▸ hsent) (hold hk) ?_
    intro b feed saved _ b' hb' hnew
    exact absurd (hregistered hb') hnew
  · intro i j b feed saved q a' a'' hne hi hj
    exact h.alone i j b feed saved q a' a'' hne (hat hi) (hat hj)
  · intro feed hfeed
    have hfeed : feed ∈ P.shared.feeds := by simpa [Pool.add, hfeeds] using hfeed
    rcases h.wanted feed hfeed with hserves | ⟨k, q, a', hk, heq, howes⟩
    · exact .inl (hserved feed hserves)
    · refine .inr ⟨k, q, a', Pool.at_add_iff.mpr (.inl hk), heq, ?_⟩
      cases q with
      | subscribing => exact howes
      | unsubscribing => exact ⟨hkept howes.1, howes.2⟩

/-- A call that goes to its wait, having taken its bar type out at most. -/
theorem Sound.add_waiting (h : Sound route onClose P)
    (hfiled : Filed route m.client.barTypes m.registered) (hlog : m.log = P.shared.log)
    (hregistered : m.registered ⊆ P.shared.registered) (hfeeds : m.feeds = P.shared.feeds)
    (hremoved : ∀ k, k ∈ m.removed → k ∈ P.shared.removed ∨ k = P.threads.length)
    (hkept : P.shared.removed ⊆ m.removed)
    (hflying : Flying route m P.threads.length p none)
    (hfar : ∀ k b feed saved a', P.At k (.waiting (.unsubscribing b feed saved) a') →
      ¬ Near route b p.barType)
    (halone : ∀ b feed saved, p = .unsubscribing b feed saved → ∀ k q a',
      P.At k (.waiting q a') → ¬ Near route b q.barType)
    (hserved : ∀ feed, (∃ b ∈ P.shared.registered, feedOf route b = some feed) →
      (∃ b ∈ m.registered, feedOf route b = some feed) ∨
        p.feed = feed ∧ Owes m P.threads.length p none) :
    Sound route onClose (P.add (m, .waiting p none)) := by
  have hat : ∀ {k q a'}, (P.add (m, .waiting p none)).At k (.waiting q a') →
      P.At k (.waiting q a') ∨ k = P.threads.length ∧ q = p ∧ a' = none := by
    intro k q a' hk
    rcases Pool.at_add hk with hold | ⟨hnew, heq⟩
    · exact .inl hold
    · cases heq
      exact .inr ⟨hnew, rfl, rfl⟩
  have hold : ∀ {k q a'}, P.At k (.waiting q a') → (k ∈ m.removed ↔ k ∈ P.shared.removed) := by
    intro k q a' hk
    refine ⟨fun hmem => (hremoved k hmem).resolve_right ?_, fun hmem => hkept hmem⟩
    exact Nat.ne_of_lt hk.lt_length
  refine ⟨hfiled, ?_, ?_, ?_, ?_, ?_, ?_⟩
  · intro d hd
    exact h.bars d (hlog ▸ hd)
  · intro b hb
    obtain ⟨feed, hfeed, hserves⟩ := h.sent b (hregistered hb)
    exact ⟨feed, by simpa [Pool.add, hfeeds] using hfeed, hserves⟩
  · exact h.fresh_add hremoved
  · intro k q a' hk
    rcases hat hk with hk | ⟨rfl, rfl, rfl⟩
    · refine (h.flying k q a' hk).kept (fun hsent => hfeeds.symm ▸ hsent) (hold hk) ?_
      intro b feed saved _ b' hb' hnew
      exact absurd (hregistered hb') hnew
    · exact hflying
  · intro i j b feed saved q a' a'' hne hi hj
    rcases hat hi with hi' | ⟨rfl, hp, -⟩
    · rcases hat hj with hj' | ⟨-, rfl, -⟩
      · exact h.alone i j b feed saved q a' a'' hne hi' hj'
      · exact hfar i b feed saved a' hi'
    · rcases hat hj with hj' | ⟨rfl, -, -⟩
      · exact halone b feed saved hp.symm j q a'' hj'
      · exact absurd rfl hne
  · intro feed hfeed
    have hfeed : feed ∈ P.shared.feeds := by simpa [Pool.add, hfeeds] using hfeed
    have hnew : (P.add (m, .waiting p none)).At P.threads.length (.waiting p none) :=
      Pool.at_add_iff.mpr (.inr ⟨rfl, rfl⟩)
    rcases h.wanted feed hfeed with hserves | ⟨k, q, a', hk, heq, howes⟩
    · exact (hserved feed hserves).imp_right fun hnew' => ⟨_, p, none, hnew, hnew'⟩
    · refine .inr ⟨k, q, a', Pool.at_add_iff.mpr (.inl hk), heq, ?_⟩
      cases q with
      | subscribing => exact howes
      | unsubscribing => exact ⟨hkept howes.1, howes.2⟩

/-- The end of a call: it leaves the dictionary in order, and may register its own bar type. -/
theorem Sound.put_ended (h : Sound route onClose P) (hp : P.At n (.waiting p a))
    (hfiled : Filed route m.client.barTypes m.registered) (hlog : m.log = P.shared.log)
    (hfeeds : m.feeds = P.shared.feeds) (hremoved : m.removed = P.shared.removed)
    (hregistered : m.registered = P.shared.registered ∨
      m.registered = insert p.barType P.shared.registered ∧ p.feed ∈ P.shared.feeds)
    (hserved : Owes P.shared n p a → p.barType ∈ m.registered) :
    Sound route onClose (P.put n (m, .ended raised)) := by
  have hfly := h.flying n p a hp
  have hat : ∀ {k q a'}, (P.put n (m, .ended raised)).At k (.waiting q a') →
      k ≠ n ∧ P.At k (.waiting q a') :=
    fun hk => (Pool.at_put hk).resolve_right fun hnew => by cases hnew.2
  have hmem : ∀ {b'}, b' ∈ m.registered →
      b' ∈ P.shared.registered ∨ b' = p.barType ∧ p.feed ∈ P.shared.feeds := by
    intro b' hb'
    rcases hregistered with heq | ⟨heq, hfeed⟩
    · exact .inl (heq ▸ hb')
    · rw [heq] at hb'
      exact (Finset.mem_insert.mp hb').symm.imp_right fun hb' => ⟨hb', hfeed⟩
  have hsub : P.shared.registered ⊆ m.registered := by
    rcases hregistered with heq | ⟨heq, -⟩
    · rw [heq]
    · rw [heq]
      exact Finset.subset_insert _ _
  refine ⟨hfiled, ?_, ?_, ?_, ?_, ?_, ?_⟩
  · intro d hd
    exact h.bars d (hlog ▸ hd)
  · intro b' hb'
    rcases hmem hb' with hb' | ⟨rfl, hfeed⟩
    · obtain ⟨feed, hfeed, hserves⟩ := h.sent b' hb'
      exact ⟨feed, by simpa [Pool.put, hfeeds] using hfeed, hserves⟩
    · exact ⟨p.feed, by simpa [Pool.put, hfeeds] using hfeed, hfly.feed⟩
  · intro k hk
    have hk : k ∈ P.shared.removed := by simpa [Pool.put, hremoved] using hk
    simpa [Pool.put] using h.fresh k hk
  · intro k q a' hk
    obtain ⟨hne, hk⟩ := hat hk
    refine (h.flying k q a' hk).kept (fun hsent => hfeeds.symm ▸ hsent)
      (by simp [Pool.put, hremoved]) ?_
    rintro b feed saved rfl b' hb' hnew
    obtain ⟨rfl, -⟩ := (hmem hb').resolve_left hnew
    exact h.alone k n b feed saved p a' a hne hk hp
  · intro i j b feed saved q a' a'' hne hi hj
    exact h.alone i j b feed saved q a' a'' hne (hat hi).2 (hat hj).2
  · intro feed hfeed
    have hfeed : feed ∈ P.shared.feeds := by simpa [Pool.put, hfeeds] using hfeed
    rcases h.wanted feed hfeed with ⟨b', hb', hserves⟩ | ⟨k, q, a', hk, heq, howes⟩
    · exact .inl ⟨b', hsub hb', hserves⟩
    · by_cases hkn : k = n
      · subst hkn
        cases Option.some.inj (hk.symm.trans hp)
        exact .inl ⟨_, hserved howes, heq ▸ hfly.feed⟩
      · refine .inr ⟨k, q, a', (Pool.at_put_iff hp).mpr (.inl ⟨hkn, hk⟩), heq, ?_⟩
        cases q with
        | subscribing => exact howes
        | unsubscribing => exact ⟨by simpa [Pool.put, hremoved] using howes.1, howes.2⟩

/-- Two calls in flight of one feed are near each other. -/
theorem Sound.near_of_feed (h : Sound route onClose P) {k : Nat} {q : Place}
    {a' : Option (Option String)} (hp : P.At n (.waiting p a)) (hq : P.At k (.waiting q a'))
    (hfeed : q.feed = p.feed) : Near route p.barType q.barType := by
  have hp := h.flying n p a hp
  have hq := h.flying k q a' hq
  exact Near.of_feed hp.ready hq.ready (hq.feed.trans (hfeed ▸ hp.feed.symm))

/-- The feeds of the venue when the session has answered. -/
def Place.answered (p : Place) (session : Option String) (feeds : Finset Key) : Finset Key :=
  if session = none then p.apply feeds else feeds

/-- The request of an unsubscription of `feed` has gone through. -/
def Place.Stops (p : Place) (session : Option String) (feed : Key) : Prop :=
  ∃ b saved, p = .unsubscribing b feed saved ∧ session = none

theorem Place.mem_answered {session : Option String} {feeds : Finset Key} {feed : Key}
    (h : feed ∈ feeds) (hkept : ¬ p.Stops session feed) : feed ∈ p.answered session feeds := by
  unfold Place.answered
  split
  · next hdone =>
    cases p with
    | subscribing => exact Finset.mem_insert_of_mem h
    | unsubscribing b feed' saved =>
      refine Finset.mem_erase.mpr ⟨?_, h⟩
      rintro rfl
      exact hkept ⟨b, saved, rfl, hdone⟩
  · exact h

theorem Place.answered_cases {session : Option String} {feeds : Finset Key} {feed : Key}
    (h : feed ∈ p.answered session feeds) :
    feed ∈ feeds ∧ ¬ p.Stops session feed ∨ ∃ b, p = .subscribing b feed ∧ session = none := by
  unfold Place.answered at h
  split at h
  · next hdone =>
    cases p with
    | subscribing b feed' =>
      rcases Finset.mem_insert.mp h with rfl | h
      · exact .inr ⟨b, rfl, hdone⟩
      · refine .inl ⟨h, ?_⟩
        rintro ⟨_, _, ⟨⟩, -⟩
    | unsubscribing b feed' saved =>
      obtain ⟨hne, h⟩ := Finset.mem_erase.mp h
      refine .inl ⟨h, ?_⟩
      rintro ⟨_, _, ⟨⟩, -⟩
      exact hne rfl
  · next hfailed =>
    refine .inl ⟨h, ?_⟩
    rintro ⟨_, _, -, hdone⟩
    exact hfailed hdone

theorem Flying.answered {session : Option String} (hfly : Flying route P.shared n p none) :
    Flying route { P.shared with feeds := p.answered session P.shared.feeds } n p (some session) := by
  obtain ⟨hready, hfeed, -, hleaving⟩ := hfly
  refine ⟨hready, hfeed, ?_, ?_⟩
  · rintro b feed rfl ha
    cases ha
    exact Finset.mem_insert_self _ _
  · rintro b feed saved rfl
    obtain ⟨hsaved, hlone, hsent⟩ := hleaving b feed saved rfl
    refine ⟨hsaved, hlone, fun hmem ha => Place.mem_answered (hsent hmem (by simp)) ?_⟩
    rintro ⟨_, _, -, hdone⟩
    exact ha (by rw [hdone])

/-- What call `k` knows stays where the answer does not stop its feed. -/
theorem Flying.apart {session : Option String} {k : Nat} {q : Place} {a' : Option (Option String)}
    (hfly : Flying route P.shared k q a') (hkept : ¬ p.Stops session q.feed) :
    Flying route { P.shared with feeds := p.answered session P.shared.feeds } k q a' := by
  refine hfly.kept (fun hsent => Place.mem_answered hsent hkept) Iff.rfl ?_
  intro b feed saved _ b' hb' hnew
  exact absurd hb' hnew

/-- The session answers a request: the feeds change at the venue.  A feed goes only with the request of
an unsubscription, which is alone with it. -/
theorem Sound.put_answered (h : Sound route onClose P) (hp : P.At n (.waiting p none))
    (session : Option String) :
    Sound route onClose (P.put n ({ P.shared with
      feeds := if session = none then p.apply P.shared.feeds else P.shared.feeds },
        .waiting p (some session))) := by
  change Sound route onClose (P.put n ({ P.shared with feeds := p.answered session P.shared.feeds },
    .waiting p (some session)))
  have hfly := h.flying n p none hp
  have hat : ∀ {k q a'}, (P.put n ({ P.shared with feeds := p.answered session P.shared.feeds },
      Stage.waiting p (some session))).At k (.waiting q a') →
      k ≠ n ∧ P.At k (.waiting q a') ∨ k = n ∧ q = p ∧ a' = some session := by
    intro k q a' hk
    rcases Pool.at_put hk with hold | ⟨hsame, heq⟩
    · exact .inl hold
    · cases heq
      exact .inr ⟨hsame, rfl, rfl⟩
  refine ⟨h.filed, h.bars, ?_, ?_, ?_, ?_, ?_⟩
  · intro b hb
    obtain ⟨feed, hfeed, hserves⟩ := h.sent b hb
    refine ⟨feed, Place.mem_answered hfeed ?_, hserves⟩
    rintro ⟨b', saved, rfl, -⟩
    refine (hfly.leaving b' feed saved rfl).lone b hb ?_
    exact Near.of_feed hfly.ready (h.filed.ready b hb) (hserves.trans hfly.feed.symm)
  · intro k hk
    simpa [Pool.put] using h.fresh k hk
  · intro k q a' hk
    rcases hat hk with ⟨hne, hkq⟩ | ⟨rfl, rfl, rfl⟩
    · refine (h.flying k q a' hkq).apart ?_
      rintro ⟨b', saved, rfl, -⟩
      exact h.alone n k b' q.feed saved q none a' (Ne.symm hne) hp hkq (h.near_of_feed hp hkq rfl)
    · exact hfly.answered
  · intro i j b feed saved q a' a'' hne hi hj
    rcases hat hi with ⟨-, hi'⟩ | ⟨rfl, rfl, -⟩
    · rcases hat hj with ⟨-, hj'⟩ | ⟨rfl, rfl, -⟩
      · exact h.alone i j b feed saved q a' a'' hne hi' hj'
      · exact h.alone i j b feed saved q a' none hne hi' hp
    · rcases hat hj with ⟨-, hj'⟩ | ⟨rfl, -, -⟩
      · exact h.alone i j b feed saved q none a'' hne hp hj'
      · exact absurd rfl hne
  · intro feed hfeed
    have hnew : (P.put n ({ P.shared with feeds := p.answered session P.shared.feeds },
        Stage.waiting p (some session))).At n (.waiting p (some session)) :=
      (Pool.at_put_iff hp).mpr (.inr ⟨rfl, rfl⟩)
    rcases Place.answered_cases hfeed with ⟨hfeed, hkept⟩ | ⟨b, rfl, rfl⟩
    · rcases h.wanted feed hfeed with hserves | ⟨k, q, a', hk, heq, howes⟩
      · exact .inl hserves
      · by_cases hkn : k = n
        · subst hkn
          cases Option.some.inj (hk.symm.trans hp)
          refine .inr ⟨k, p, some session, hnew, heq, ?_⟩
          cases p with
          | subscribing => cases howes
          | unsubscribing b' feed' saved =>
            subst heq
            exact ⟨howes.1, fun hdone => hkept ⟨b', saved, rfl, Option.some.inj hdone⟩⟩
        · exact .inr ⟨k, q, a', (Pool.at_put_iff hp).mpr (.inl ⟨hkn, hk⟩), heq, howes⟩
    · exact .inr ⟨n, .subscribing b feed, some none, hnew, rfl, rfl⟩

/-! ### Steps -/

theorem Sound.subscribe (h : Sound route onClose P)
    (hok : Ready route b → ∀ st ∈ P.threads, st.leavesNear route b = false) :
    Sound route onClose (P.add (P.shared, (Client.subscribeBars route b).stage)) := by
  rcases Client.subscribeBars_cases route b with ⟨raised, heq⟩ | ⟨feed, hb, hfeed, heq⟩
  · rw [heq]
    exact h.add_ended h.filed h.bars (Finset.Subset.refl _) rfl (fun k hk => .inl hk)
      (Finset.Subset.refl _) fun feed hserves => hserves
  · rw [heq]
    refine h.add_waiting h.filed rfl (Finset.Subset.refl _) rfl (fun k hk => .inl hk)
      (Finset.Subset.refl _) ⟨hb, hfeed, by simp, by simp⟩ ?_ (by simp) fun feed hserves => .inl hserves
    intro k b' feed' saved a' hk hnear
    have hfar : decide (Near route b b') = false := hok hb _ hk.mem
    have hb' : Ready route b' := (h.flying k _ a' hk).ready
    exact of_decide_eq_false hfar (Near.symm hb' hb hnear)

/-- The begin of an unsubscription that has nothing to take out, or whose keys are still used. -/
theorem Sound.remove_ended (h : Sound route onClose P) (hok : LastApart route P.shared b)
    (hb : Ready route b)
    (hused : ∃ key ∈ keysOf route b, (P.shared.client.without route b key).isSome = true) :
    Sound route onClose (P.add (Market.remove { P.shared with
      client := { P.shared.client with barTypes := P.shared.client.without route b } }
      P.threads.length b, .ended none)) := by
  refine h.add_ended h.filed.erase h.bars (Finset.erase_subset _ _) rfl ?_ ?_ ?_
  · intro k hk
    simp only [Market.remove] at hk
    split at hk
    · exact (Finset.mem_insert.mp hk).symm
    · exact .inl hk
  · simp only [Market.remove]
    split
    · exact Finset.subset_insert _ _
    · exact Finset.Subset.refl _
  · rintro feed ⟨b', hb', hserves⟩
    by_cases heq : b' = b
    · subst heq
      obtain ⟨b'', hb'', hne, hsame⟩ := h.filed.other_of_used hb hok hused hb'
      exact ⟨b'', Finset.mem_erase.mpr ⟨hne, hb''⟩, hsame.trans hserves⟩
    · exact ⟨b', Finset.mem_erase.mpr ⟨heq, hb'⟩, hserves⟩

/-- The begin of an unsubscription whose keys are no longer used. -/
theorem Sound.remove_waiting (h : Sound route onClose P) (hok : Unhurried route P b)
    (hb : Ready route b) {feed : Key} (hfeed : feedOf route b = some feed)
    (hunused : ∀ key ∈ keysOf route b, ¬ (P.shared.client.without route b key).isSome = true) :
    Sound route onClose (P.add (Market.remove { P.shared with
      client := { P.shared.client with barTypes := P.shared.client.without route b } }
      P.threads.length b, .waiting (.unsubscribing b feed
        ((keysOf route b).map fun key => (key, (P.shared.client.barTypes key).getD ∅))) none)) := by
  have hlone := h.filed.lone_of_unused hb hunused
  have hnear := hok hb hlone
  have hnew : P.threads.length ∉ P.shared.removed := fun hmem => Nat.lt_irrefl _ (h.fresh _ hmem)
  have hremoved : ∀ k, k ∈ (Market.remove { P.shared with
      client := { P.shared.client with barTypes := P.shared.client.without route b } }
      P.threads.length b).removed ↔ k ∈ P.shared.removed ∨ k = P.threads.length ∧ b ∈ P.shared.registered := by
    intro k
    simp only [Market.remove]
    split
    · next hmem => simp [hmem, or_comm]
    · next hmem => simp [hmem]
  have hmine := hremoved P.threads.length
  simp only [hnew, true_and, false_or] at hmine
  refine h.add_waiting h.filed.erase rfl (Finset.erase_subset _ _) rfl ?_ ?_ ⟨hb, hfeed, by simp, ?_⟩ ?_
    ?_ ?_
  · exact fun k hk => ((hremoved k).mp hk).imp_right And.left
  · exact fun k hk => (hremoved k).mpr (.inl hk)
  · rintro _ _ _ ⟨⟩
    refine ⟨?_, ?_, ?_⟩
    · refine List.map_congr_left fun key hkey => ?_
      rw [h.filed.getD_types, h.filed.filter_of_lone hb hlone hkey]
      simp [hmine]
    · intro b' hb'
      obtain ⟨hne, hb'⟩ := Finset.mem_erase.mp hb'
      exact hlone b' hb' hne
    · intro hmem _
      obtain ⟨feed', hsent, hserves⟩ := h.sent b (hmine.mp hmem)
      obtain rfl := Option.some.inj (hserves.symm.trans hfeed)
      exact hsent
  · intro k b' feed' saved a' hk hback
    have hb' : Ready route b' := (h.flying k _ a' hk).ready
    have hfar : decide (Near route b b') = false := hnear _ hk.mem
    exact of_decide_eq_false hfar (Near.symm hb' hb hback)
  · rintro _ _ _ ⟨⟩ k q a' hk
    exact of_decide_eq_false (hnear _ hk.mem)
  · rintro feed' ⟨b', hb', hserves⟩
    by_cases heq : b' = b
    · subst heq
      exact .inr ⟨Option.some.inj (hfeed.symm.trans hserves), hmine.mpr hb', by simp⟩
    · exact .inl ⟨b', Finset.mem_erase.mpr ⟨heq, hb'⟩, hserves⟩

theorem Sound.unsubscribe (h : Sound route onClose P) (hlast : LastApart route P.shared b)
    (hok : Unhurried route P b) {r : Market × Stage}
    (hr : P.shared.begin route onClose P.threads.length (.unsubscribe b) = some r) :
    Sound route onClose (P.add r) := by
  rcases Client.unsubscribeBars_cases route P.shared.client b with
    ⟨hnot, raised, heq⟩ | ⟨hb, hused, heq⟩ | ⟨feed, hb, hfeed, hunused, heq⟩
  · have hmem : b ∉ P.shared.registered := fun hmem => hnot (h.filed.ready b hmem)
    simp only [Market.begin, heq] at hr
    have hsame : Sound route onClose (P.add (P.shared, .ended raised)) :=
      h.add_ended h.filed h.bars (Finset.Subset.refl _) rfl (fun k hk => .inl hk)
        (Finset.Subset.refl _) fun feed hserves => hserves
    cases raised with
    | none =>
      cases hr
      simpa [Market.remove, Finset.erase_eq_of_notMem hmem, hmem, Progress.stage] using hsame
    | some failure =>
      cases hr
      exact hsame
  · simp only [Market.begin, heq, Option.some.injEq] at hr
    subst hr
    exact h.remove_ended hlast hb hused
  · simp only [Market.begin, heq, Option.some.injEq] at hr
    subst hr
    exact h.remove_waiting hok hb hfeed hunused

/-- A call goes on after its wait. -/
theorem Sound.resume (h : Sound route onClose P) {session : Option String}
    (hp : P.At n (.waiting p (some session))) :
    Sound route onClose (P.put n ({ P.shared with
      client := (P.shared.client.resume session p).1
      registered := P.shared.settle n session p }, .ended (P.shared.client.resume session p).2)) := by
  obtain ⟨hb, hfeed, hsubscribed, hleaving⟩ := h.flying n p _ hp
  cases p with
  | subscribing b feed =>
    have hb : Ready route b := hb
    have hfeed : feedOf route b = some feed := hfeed
    cases session with
    | some failure => exact h.put_ended hp h.filed rfl rfl rfl (.inl rfl) (by simp [Owes])
    | none =>
      rw [Client.resume_subscribing hb hfeed]
      have hsent := hsubscribed b feed rfl rfl
      refine h.put_ended hp (h.filed.insert hb) rfl rfl rfl (.inr ⟨rfl, hsent⟩) fun _ => ?_
      exact Finset.mem_insert_self _ _
  | unsubscribing b feed saved =>
    have hb : Ready route b := hb
    cases session with
    | none =>
      refine h.put_ended hp h.filed rfl rfl rfl (.inl ?_) (by simp [Owes])
      simp [Market.settle]
    | some failure =>
      obtain ⟨hsaved, hlone, hsent⟩ := hleaving b feed saved rfl
      have hfiled := h.filed.restore hb hlone (decide (n ∈ P.shared.removed))
      have hsettle : P.shared.settle n (some failure) (.unsubscribing b feed saved) =
          if decide (n ∈ P.shared.removed) then insert b P.shared.registered
          else P.shared.registered := by
        simp [Market.settle]
      refine h.put_ended hp ?_ rfl rfl rfl ?_ ?_
      · rw [hsettle]
        simpa [Client.resume, hsaved] using hfiled
      · rw [hsettle]
        by_cases hmem : n ∈ P.shared.removed
        · exact .inr ⟨by simp [hmem, Place.barType], hsent hmem (by simp)⟩
        · exact .inl (by simp [hmem])
      · rintro ⟨hmem, -⟩
        rw [hsettle]
        simp [hmem, Place.barType]

theorem Sound.step {move : Move Call Act} {Q : Pool Market Stage} (h : Sound route onClose P)
    (hok : Apart route P move) (hstep : P.step (code route onClose) move = some Q) :
    Sound route onClose Q := by
  obtain ⟨call, r, rfl, hr, rfl⟩ | ⟨n, act, st, r, rfl, hp, hr, rfl⟩ := Pool.step_cases hstep
  · cases call with
    | subscribe b =>
      cases hr
      exact h.subscribe hok
    | unsubscribe b => exact h.unsubscribe hok.1 hok.2 hr
    | event feed close =>
      simp only [code, Market.begin] at hr
      split at hr
      · next hfeed =>
        cases hr
        have htypes : (P.shared.client.dispatch onClose (feed.echo close)).1.barTypes =
            P.shared.client.barTypes := by
          cases close <;> rfl
        refine h.add_ended ?_ ?_ (Finset.Subset.refl _) rfl (fun k hk => .inl hk)
          (Finset.Subset.refl _) fun feed hserves => hserves
        · rw [htypes]
          exact h.filed
        · intro d hd
          obtain hd | hd := List.mem_append.mp hd
          · exact h.bars d hd
          · rw [List.mem_singleton.mp hd]
            exact h.filed.exact_dispatch hfeed hok
      · cases hr
    | history b ts =>
      cases hr
      exact h.add_ended h.filed h.bars (Finset.Subset.refl _) rfl (fun k hk => .inl hk)
        (Finset.Subset.refl _) fun feed hserves => hserves
  · simp only [code, Market.advance] at hr
    split at hr
    · cases hr
      exact h.put_answered hp _
    · cases hr
      exact h.resume hp
    · cases hr

/-- Over every run of overlapping calls in which the one-minute and the sixty-minute bar types keep
apart, and unsubscriptions that wait have their duration for themselves, every bar goes to the
registered bar types of its instrument and duration; the venue sends the feeds of the registered bar
types, and while no call is in flight no others. -/
theorem exact_of_run {trace : List (Move Call Act)}
    (h : (bars route onClose).Run (Apart route) trace P) : Exact route onClose P := by
  have hsound : Sound route onClose P := by
    refine h.invariant (I := Sound route onClose) ?_ fun P m Q hs hok hstep => hs.step hok hstep
    rintro ⟨m, threads⟩ ⟨rfl, rfl⟩
    refine ⟨⟨by simp, fun key => ?_⟩, by simp, by simp, by simp, ?_, ?_, by simp⟩
    · simp [entry]
    · intro n p a hp
      simp [Pool.At] at hp
    · intro i j b feed saved p a a' _ hi
      simp [Pool.At] at hi
  exact hsound.exact

end Flights

/-! ### Runs -/

/-- One instrument. -/
def oneRoute (instrument : String) : Option (String × String) :=
  if instrument = "ESH6.CME" then some ("ESH6", "CME") else none

def minuteBars (step : Nat) : BarType := { instrument := "ESH6.CME", step, aggregation := .minute }

def minuteFeed (period : Int) : Key := ⟨"ESH6", "CME", rithmicMinute, period⟩

/-- Two subscriptions at a time, a bar, an unsubscription that fails, and one that goes through. -/
def quarterHours : List (Move Call Act) :=
  [.spawn (.subscribe (minuteBars 1)), .spawn (.subscribe (minuteBars 15)), .run 1 (.answer none),
    .run 0 (.answer none), .run 0 .resume, .run 1 .resume, .spawn (.event (minuteFeed 1) (some 60)),
    .spawn (.unsubscribe (minuteBars 15)), .run 3 (.answer (some "timeout")), .run 3 .resume,
    .spawn (.unsubscribe (minuteBars 1)), .run 4 (.answer none), .run 4 .resume]

theorem exact_quarter_hours : ∃ P, (bars oneRoute true).Run (Apart oneRoute) quarterHours P ∧
    P.shared.log.map Dispatch.delivered = [{minuteBars 1}] ∧ P.shared.feeds = {minuteFeed 15} ∧
    Exact oneRoute true P := by
  have hrun : ∃ P, (bars oneRoute true).exec (Apart oneRoute) ⟨{}, []⟩ quarterHours = some P ∧
      P.shared.log.map Dispatch.delivered = [{minuteBars 1}] ∧ P.shared.feeds = {minuteFeed 15} :=
    ⟨_, rfl, by decide, by decide⟩
  obtain ⟨P, hP, hlog, hfeeds⟩ := hrun
  have hrun := Machine.run_of_exec (M := bars oneRoute true) ⟨rfl, rfl⟩ hP
  exact ⟨P, hrun, hlog, hfeeds, exact_of_run hrun⟩

/-- The call that is subscribed goes through while nothing else happens. -/
def calmly (n : Nat) (c : Call) : List (Move Call Act) :=
  [.spawn c, .run n (.answer none), .run n .resume]

/-- The one-minute bar also goes to the sixty-minute bar type, and the one-minute feed stays after its
last bar type is removed. -/
def sharedKey : List (Move Call Act) :=
  calmly 0 (.subscribe (minuteBars 1)) ++ calmly 1 (.subscribe (minuteBars 60)) ++
    [Move.spawn (Call.event (minuteFeed 1) (some 60)), .spawn (.unsubscribe (minuteBars 1))]

/-- A subscription of the last type of a feed comes while that waits to be unsubscribed: the session
subscribes first and unsubscribes then. -/
def overtaken : List (Move Call Act) :=
  calmly 0 (.subscribe (minuteBars 1)) ++
    [Move.spawn (Call.unsubscribe (minuteBars 1)), .spawn (.subscribe (minuteBars 1)),
      .run 2 (Act.answer none), .run 2 .resume, .run 1 (.answer none), .run 1 .resume]

theorem hour_gets_minute :
    (∃ P, (bars oneRoute true).Run Machine.Free sharedKey P ∧
      P.shared.log.map Dispatch.delivered = [{minuteBars 1, minuteBars 60}] ∧
      P.shared.registered = {minuteBars 60} ∧ minuteFeed 1 ∈ P.shared.feeds ∧
      ¬ Exact oneRoute true P) ∧
    ∃ P, (bars oneRoute true).Run Machine.Free overtaken P ∧
      P.shared.registered = {minuteBars 1} ∧ P.shared.feeds = ∅ ∧ ¬ Exact oneRoute true P := by
  have hshared : ∃ P, (bars oneRoute true).exec Machine.Free ⟨{}, []⟩ sharedKey = some P ∧
      P.shared.log.map Dispatch.delivered = [{minuteBars 1, minuteBars 60}] ∧
      P.shared.registered = {minuteBars 60} ∧ minuteFeed 1 ∈ P.shared.feeds ∧
      P.threads.all fun st => st = .ended none := ⟨_, rfl, by decide, by decide, by decide, by decide⟩
  have hovertaken : ∃ P, (bars oneRoute true).exec Machine.Free ⟨{}, []⟩ overtaken = some P ∧
      P.shared.registered = {minuteBars 1} ∧ P.shared.feeds = ∅ := ⟨_, rfl, by decide, by decide⟩
  obtain ⟨P, hP, hlog, hregistered, hfeed, hover⟩ := hshared
  obtain ⟨Q, hQ, hregisteredQ, hfeedsQ⟩ := hovertaken
  refine ⟨⟨P, Machine.run_of_exec (M := bars oneRoute true) ⟨rfl, rfl⟩ hP, hlog, hregistered, hfeed, ?_⟩,
    Q, Machine.run_of_exec (M := bars oneRoute true) ⟨rfl, rfl⟩ hQ, hregisteredQ, hfeedsQ, ?_⟩
  · intro h
    rcases h.ended (minuteFeed 1) hfeed with ⟨b, hb, hserves⟩ | ⟨n, p, a, hp, -⟩
    · rw [hregistered, Finset.mem_singleton] at hb
      subst hb
      revert hserves
      decide
    · have := List.all_eq_true.mp hover _ hp.mem
      simp at this
  · intro h
    obtain ⟨feed, hfeed, -⟩ := h.sent (minuteBars 1) (by simp [hregisteredQ])
    rw [hfeedsQ] at hfeed
    exact absurd hfeed (Finset.notMem_empty _)

end RithmicNt.Adapter.Bars
