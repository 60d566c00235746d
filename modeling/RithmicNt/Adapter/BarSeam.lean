import RithmicNt.Adapter.BarHydration

/-! The seam between a history request and the live bars behind it: every bar once, and none of them
while it forms. -/

namespace RithmicNt.Adapter.BarHydration

open RithmicNt.Lib RithmicNt.Lib.StableSort RithmicNt.Adapter.Bars

variable {β : Type} {route : String → Option (String × String)} {onClose : Bool} {wait : Int}
  {b : BarType} {d : Desk β} {n : Nat} {p : Pending}

/-- The bar of a close and its content. -/
def priced (onClose : Bool) (b : BarType) (c : Int × β) : Bar β := ⟨Client.stamp onClose b c.1, c.2⟩

theorem stamp_lt_stamp {x y : Int} :
    Client.stamp onClose b x < Client.stamp onClose b y ↔ x < y := by
  unfold Client.stamp
  split <;> omega

theorem stamp_le_stamp {x y : Int} :
    Client.stamp onClose b x ≤ Client.stamp onClose b y ↔ x ≤ y := by
  unfold Client.stamp
  split <;> omega

/-- Whatever the stamp, an intraday bar is closed when its close is not after the end. -/
theorem isClosed_priced (hintraday : b.durationNs ≠ 0) {endNs : Int} {c : Int × β} :
    isClosed onClose b endNs (priced onClose b c) = decide (c.1 ≤ endNs) := by
  cases onClose with
  | true => simp [isClosed, hintraday, priced, Client.stamp]
  | false => simp [isClosed, hintraday, priced, Client.stamp]

theorem mapM_rows {rows : List (Row β)}
    (hvalid : ∀ row ∈ rows, validateHistoryIdentity row p.symbol p.exchange p.rtype = .ok ()) :
    (rows.mapM fun row => do
      validateHistoryIdentity row p.symbol p.exchange p.rtype
      return row.bar.map fun (close, content) =>
        (⟨Client.stamp onClose p.barType close, content⟩ : Bar β)) =
      Except.ok (rows.map fun row => row.bar.map (priced onClose p.barType)) := by
  induction rows with
  | nil => rfl
  | cons row rest ih =>
    rw [List.mapM_cons, hvalid row List.mem_cons_self,
      ih fun row' hrow => hvalid row' (List.mem_cons_of_mem _ hrow)]
    rfl

theorem payloadsToBars_eq {rows : List (Row β)}
    (hvalid : ∀ row ∈ rows, validateHistoryIdentity row p.symbol p.exchange p.rtype = .ok ()) :
    payloadsToBars onClose p rows =
      .ok (sortByKey Bar.ts ((rows.filterMap Row.bar).map (priced onClose p.barType))) := by
  have hreduce : (rows.map fun row => row.bar.map (priced onClose p.barType)).reduceOption =
      (rows.filterMap Row.bar).map (priced onClose p.barType) := by
    change (rows.map fun row => row.bar.map (priced onClose p.barType)).filterMap id = _
    rw [List.filterMap_map, List.map_filterMap]
    rfl
  unfold payloadsToBars
  rw [mapM_rows hvalid, ← hreduce]
  rfl

/-- Of rows in order and others that are not closed yet, the former are left, in their order. -/
theorem closedBars_sort {past extra : List (Int × β)} {endNs : Int}
    (hintraday : b.durationNs ≠ 0) (horder : past.Pairwise fun x y => x.1 < y.1)
    (hpast : ∀ c ∈ past, c.1 ≤ endNs) (hextra : ∀ c ∈ extra, endNs < c.1) :
    closedBars onClose (sortByKey Bar.ts ((past ++ extra).map (priced onClose b))) b endNs =
      past.map (priced onClose b) := by
  have hfilter : ((past ++ extra).map (priced onClose b)).filter (isClosed onClose b endNs) =
      past.map (priced onClose b) := by
    rw [List.map_append, List.filter_append, List.filter_eq_self.mpr, List.filter_eq_nil_iff.mpr,
      List.append_nil]
    · intro bar hbar
      obtain ⟨c, hc, rfl⟩ := List.mem_map.mp hbar
      have := hextra c hc
      simp only [isClosed_priced hintraday, decide_eq_true_eq]
      omega
    · intro bar hbar
      obtain ⟨c, hc, rfl⟩ := List.mem_map.mp hbar
      simpa [isClosed_priced hintraday] using hpast c hc
  apply @eq_of_filter_eq _ _ _ Bar.ts
  · exact (pairwise_sortByKey Bar.ts _).filter _
  · refine List.pairwise_map.mpr (horder.imp fun hlt => ?_)
    exact stamp_le_stamp.mpr hlt.le
  · intro k
    rw [← hfilter, closedBars, List.filter_comm, filter_sortByKey, List.filter_comm]

theorem barTypesForEvent_noteBars (c : Client) (bars : List (Bar β)) (e : TimeBar) :
    (noteBars c b bars).barTypesForEvent e = c.barTypesForEvent e := by
  unfold noteBars
  induction bars generalizing c with
  | nil => rfl
  | cons bar rest ih => exact ih _

theorem barTypesForEvent_live (d : Desk β) (e e' : TimeBar) (content : β) :
    (d.live onClose e content).client.barTypesForEvent e' = d.client.barTypesForEvent e' := by
  unfold Desk.live
  cases hclose : e.close with
  | none => rfl
  | some close => simp [Client.dispatch, hclose, Client.barTypesForEvent]

theorem stream_live {e : TimeBar} {c : Int × β} (h : Inv onClose d) (hclose : e.close = some c.1)
    (hoffered : b ∈ d.client.barTypesForEvent e) (hpos : 0 < Client.stamp onClose b c.1) :
    stream onClose b (d.live onClose e c.2).log = stream onClose b d.log ++
      if ∀ bar ∈ stream onClose b d.log, bar.ts < Client.stamp onClose b c.1 then
        [priced onClose b c] else [] := by
  have hmem : b ∈ (d.client.dispatch onClose e).2 ↔
      ∀ bar ∈ stream onClose b d.log, bar.ts < Client.stamp onClose b c.1 := by
    rw [← (h.marked b).admits hpos]
    simp only [Client.dispatch, hclose]
    rw [Finset.mem_filter, and_iff_right hoffered]
    rfl
  simp only [Desk.live, hclose]
  rw [stream_append]
  simp only [Entry.bars, hmem]
  rfl

/-- Of live bars in order those are handed on that are later than all bars so far. -/
theorem exec_lives {lives : List (TimeBar × β)} {closes : List (Int × β)} (h : Inv onClose d)
    (hlives : lives.map (fun l => (l.1.close, l.2)) = closes.map fun c => (some c.1, c.2))
    (hoffered : ∀ l ∈ lives, b ∈ d.client.barTypesForEvent l.1)
    (horder : closes.Pairwise fun x y => x.1 < y.1)
    (hpos : ∀ c ∈ closes, 0 < Client.stamp onClose b c.1) :
    ∃ d', (hydration route onClose wait β).exec Machine.Free d
        (lives.map fun l => .bar l.1 l.2) = some d' ∧
      stream onClose b d'.log = stream onClose b d.log ++
        (closes.filter fun c => ∀ bar ∈ stream onClose b d.log,
          bar.ts < Client.stamp onClose b c.1).map (priced onClose b) := by
  induction closes generalizing lives d with
  | nil =>
    rw [List.map_eq_nil_iff.mp hlives]
    exact ⟨d, rfl, by simp⟩
  | cons c rest ih =>
    cases lives with
    | nil => cases hlives
    | cons l lives =>
      simp only [List.map_cons, List.cons.injEq, Prod.mk.injEq] at hlives
      obtain ⟨⟨hclose, hcontent⟩, hrest⟩ := hlives
      obtain ⟨hfirst, horder⟩ := List.pairwise_cons.mp horder
      have hstream := stream_live h hclose (hoffered l List.mem_cons_self)
        (hpos c List.mem_cons_self)
      rw [← hcontent] at hstream
      obtain ⟨d', hexec, hd'⟩ := ih (@Inv.live _ onClose d l.1 l.2 h) hrest
        (fun l' hl' => by
          rw [barTypesForEvent_live]
          exact hoffered l' (List.mem_cons_of_mem _ hl'))
        horder (fun c' hc' => hpos c' (List.mem_cons_of_mem _ hc'))
      refine ⟨d', by simpa [Machine.exec, hydration, Desk.step] using hexec, ?_⟩
      rw [hd', hstream]
      split
      · next hlater =>
        -- the bar is handed on, and the rest are later than it
        have hsame : (rest.filter fun c' => ∀ bar ∈ stream onClose b d.log ++ [priced onClose b c],
            bar.ts < Client.stamp onClose b c'.1) = rest.filter fun c' =>
              ∀ bar ∈ stream onClose b d.log, bar.ts < Client.stamp onClose b c'.1 := by
          apply List.filter_congr
          intro c' hc'
          have hlt : (priced onClose b c).ts < Client.stamp onClose b c'.1 :=
            stamp_lt_stamp.mpr (hfirst c' hc')
          simp [or_imp, forall_and, hlt]
        rw [hsame, List.filter_cons_of_pos (by simpa using hlater), List.append_assoc]
        rfl
      · next hearlier =>
        rw [List.filter_cons_of_neg (by simpa using hearlier), List.append_nil]

theorem mem_lastBars {limit : Nat} {bars : List (Bar β)} {bar : Bar β}
    (h : bars.getLast? = some bar) : bar ∈ lastBars limit bars := by
  unfold lastBars
  split
  · exact List.mem_of_getLast? h
  · next hlimit =>
    have hne : bars ≠ [] := by
      rintro rfl
      cases h
    have hlength := List.length_pos_iff.mpr hne
    rw [List.getLast?_eq_getElem?] at h
    rw [List.mem_iff_getElem?]
    refine ⟨bars.length - 1 - (bars.length - limit), ?_⟩
    rw [List.getElem?_drop, ← h]
    congr 1
    omega

/-- Two closed minutes, and the two after them. -/
def pastMinutes : List (Int × Nat) := [(60000000000, 1), (120000000000, 2)]

def nextMinutes : List (Int × Nat) := [(180000000000, 3), (240000000000, 4)]

/-- The venue serves the next minute half formed. -/
def servedRows : List (Row Nat) :=
  (pastMinutes ++ [(180000000000, 30)]).map fun c => { bar := some c }

/-- The live bars set in with the last closed minute. -/
def liveMinutes : List (TimeBar × Nat) :=
  (pastMinutes.drop 1 ++ nextMinutes).map fun c => ((minuteFeed 1).echo (some c.1), c.2)

end RithmicNt.Adapter.BarHydration
