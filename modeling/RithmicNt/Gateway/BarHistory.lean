import RithmicNt.Plants.Calendar
import RithmicNt.Plants.History

/-! The time-bar history of a gateway client beside that of a direct session.  Both cut the window into
the same slices; the direct load matches the rows of neighbouring slices by count and sorts by time, the
client sorts by marker and keeps one bar of each. -/

namespace RithmicNt.Gateway.BarHistory

open RithmicNt.Lib.StableSort RithmicNt.Plants.Calendar RithmicNt.Plants.History

/-- `load_time_bars_all`. -/
def loadTimeBarsAll (type : TimeBarType) (period start stop : Int) (load : LoadSlice HistoryBar) :
    Except Error (List HistoryBar) :=
  loadSliced start stop (barSliceSecs type period) load barRows.sortKey barRows.identity

/-- The key that the client sorts by. -/
def markerKey (b : HistoryBar) : Int := b.marker.getD (2 ^ 31 - 1)

/-- `dedup_by` on the markers. -/
def dedupMarkers : List HistoryBar → List HistoryBar
  | [] => []
  | [b] => [b]
  | first :: later :: rest =>
    if later.marker.isSome && later.marker == first.marker then dedupMarkers (first :: rest)
    else first :: dedupMarkers (later :: rest)

/-- `RemoteSession::load_time_bars`: the parent answers each slice as a direct session does. -/
def remoteLoadTimeBars (type : TimeBarType) (period start stop : Int) (load : LoadSlice HistoryBar) :
    Except Error (List HistoryBar) := do
  let period := max period 1
  let slices ← (windowSlices start stop (barSliceSecs type period)).mapM fun (a, b) =>
    loadTimeBarsAll type (max period 1) a b load
  return dedupMarkers (sortByKey markerKey slices.flatten)

/-- A bar that was read from a replay row: it has a marker, and its time is the marker's. -/
def Parsed (b : HistoryBar) : Prop :=
  ∃ marker ssboe, b.marker = some marker ∧ markerToSsboe marker = some ssboe ∧
    b.tsEventNs = venueTsNs ssboe

/-- The bars of the window, slice by slice, each once. -/
def windowBars (type : TimeBarType) (period : Int) (venue : List HistoryBar) (start stop : Int) :
    List HistoryBar :=
  bySlices markerKey (barReplayIndex type) venue (barReplayIndex type start - 1)
    (windowSlices start stop (barSliceSecs type period))

/-- Between two slices no bar past the boundary is taken for one of the slice before it. -/
def Told (type : TimeBarType) (period : Int) (venue : List HistoryBar) (start stop : Int) : Prop :=
  match windowSlices start stop (barSliceSecs type period) with
  | [] => True
  | (a, b) :: rest => Unconfused barDedupKey markerKey (barReplayIndex type) venue
      (barReplayIndex type a - 1) (barReplayIndex type b) rest

section

variable {type : TimeBarType} {period start stop : Int} {venue : List HistoryBar}
  {load : LoadSlice HistoryBar}

/-! ### The direct load -/

theorem loadTimeBarsAll_eq (hserves : Serves markerKey (barReplayIndex type) venue load)
    (htold : Told type period venue start stop) :
    loadTimeBarsAll type period start stop load =
      .ok (sortByKey barRows.sortKey (windowBars type period venue start stop)) := by
  have hstep := barSliceSecs_pos type period
  unfold loadTimeBarsAll loadSliced windowBars
  split
  next hempty =>
    rw [windowSlices, dif_neg (by omega), bySlices]
    simp [sortByKey]
  next hwindow =>
    have hle : start ≤ stop := by omega
    have hchained : Chained (barReplayIndex type) (barReplayIndex type start)
        (slicesFrom stop (barSliceSecs type period) hstep start) :=
      slicesFrom_chained (barReplayIndex_mono type) (barReplayIndex_lt type period) hle
    unfold Told at htold
    rw [windowSlices, dif_pos ⟨hle, hstep⟩] at htold ⊢
    obtain ⟨b, rest, hslices⟩ : ∃ b rest,
        slicesFrom stop (barSliceSecs type period) hstep start = (start, b) :: rest := by
      unfold slicesFrom
      exact ⟨_, _, rfl⟩
    rw [hslices] at hchained htold ⊢
    rw [show barRows.identity = barDedupKey from rfl, gather_slices hserves hchained htold]
    rfl

/-- One slice is one request. -/
theorem loadTimeBarsAll_slice (hserves : Serves markerKey (barReplayIndex type) venue load) {a b : Int}
    (hle : a ≤ b) (hcut : nextCut b (barSliceSecs type period) a = b) :
    loadTimeBarsAll type period a b load = .ok (sortByKey barRows.sortKey
      (windowRows markerKey venue (barReplayIndex type a) (barReplayIndex type b))) := by
  have hslices : windowSlices a b (barSliceSecs type period) = [(a, b)] := by
    rw [windowSlices, dif_pos ⟨hle, barSliceSecs_pos type period⟩]
    unfold slicesFrom
    rw [hcut, if_neg (lt_irrefl b)]
  unfold loadTimeBarsAll loadSliced
  rw [if_neg (by omega), hslices]
  simp only [gather, bind, Except.bind, hserves.retry a b, dropBoundaryRepeats_nil]
  rfl

/-! ### The slices of the client -/

/-- The parent's answer to one slice. -/
def sliceBars (type : TimeBarType) (venue : List HistoryBar) (slice : Int × Int) : List HistoryBar :=
  sortByKey barRows.sortKey
    (windowRows markerKey venue (barReplayIndex type slice.1) (barReplayIndex type slice.2))

theorem mapM_eq_ok {α β ε : Type} {f : α → Except ε β} {g : α → β} {l : List α}
    (h : ∀ x ∈ l, f x = .ok (g x)) : l.mapM f = .ok (l.map g) := by
  induction l with
  | nil => rfl
  | cons x l ih =>
    rw [List.mapM_cons, h x (by simp), ih fun y hy => h y (by simp [hy])]
    rfl

/-- A slice is not cut again. -/
theorem nextCut_of_mem_slicesFrom {step : Int} {hstep : 1 ≤ step} {cur : Int} (hcur : cur ≤ stop)
    {slice : Int × Int} (h : slice ∈ slicesFrom stop step hstep cur) :
    slice.1 ≤ slice.2 ∧ nextCut slice.2 step slice.1 = slice.2 := by
  induction hleft : (stop - cur).toNat using Nat.strong_induction_on generalizing cur with
  | _ left ih =>
    unfold slicesFrom at h
    rcases nextCut_cases stop step cur with hnext | ⟨hnext, hlt⟩
    · rw [hnext, if_neg (lt_irrefl stop)] at h
      cases List.mem_singleton.mp h
      exact ⟨hcur, hnext⟩
    · rw [hnext, if_pos hlt] at h
      rcases List.mem_cons.mp h with rfl | h
      · refine ⟨by dsimp only; omega, ?_⟩
        rw [nextCut, if_neg (by dsimp only; omega)]
      · exact ih _ (by omega) (by omega) h rfl

theorem Parsed.sortKey_eq {x y : HistoryBar} (hx : Parsed x) (hy : Parsed y)
    (h : markerKey x = markerKey y) : barRows.sortKey x = barRows.sortKey y := by
  obtain ⟨marker, ssboe, hmarker, hssboe, hts⟩ := hx
  obtain ⟨marker', ssboe', hmarker', hssboe', hts'⟩ := hy
  have heq : marker = marker' := by simpa [markerKey, hmarker, hmarker'] using h
  subst heq
  obtain rfl := Option.some.inj (hssboe.symm.trans hssboe')
  simp [barRows, hts, hts']

/-- The bars of one marker in a window: all that the venue has, or none. -/
theorem windowRows_filter_marker (venue : List HistoryBar) (lo hi k : Int) :
    (windowRows markerKey venue lo hi).filter (markerKey · = k) =
      if lo ≤ k ∧ k ≤ hi then venue.filter (markerKey · = k) else [] := by
  unfold windowRows
  rw [List.filter_filter]
  split
  next hin =>
    refine List.filter_congr fun x _ => ?_
    by_cases hx : markerKey x = k
    · simp [hx, hin]
    · simp [hx]
  next hout =>
    refine List.filter_eq_nil_iff.mpr fun x _ hx => hout ?_
    simp only [Bool.and_eq_true, decide_eq_true_eq] at hx
    omega

theorem sliceBars_filter_marker (hparsed : ∀ x ∈ venue, Parsed x) (a b k : Int) :
    (sliceBars type venue (a, b)).filter (markerKey · = k) =
      if barReplayIndex type a ≤ k ∧ k ≤ barReplayIndex type b then
        venue.filter (markerKey · = k) else [] := by
  rw [← windowRows_filter_marker]
  unfold sliceBars
  have hvenue : ∀ x ∈ windowRows markerKey venue (barReplayIndex type a) (barReplayIndex type b),
      x ∈ venue := fun x hx => (List.mem_filter.mp hx).1
  by_cases hsome : ∃ y ∈ venue, markerKey y = k
  · obtain ⟨y, hy, hyk⟩ := hsome
    refine filter_sortByKey_of_key (k := barRows.sortKey y) fun x hx hxk => ?_
    have hxk : markerKey x = k := by simpa using hxk
    exact (hparsed x (hvenue x hx)).sortKey_eq (hparsed y hy) (hxk.trans hyk.symm)
  · refine filter_sortByKey_of_key (k := 0) fun x hx hxk => ?_
    exact (hsome ⟨x, hvenue x hx, by simpa using hxk⟩).elim

/-- Of each marker the slices hold the venue's bars, some of them twice. -/
theorem take_sliceBars {step : Int} {hstep : 1 ≤ step} (hparsed : ∀ x ∈ venue, Parsed x) (k : Int)
    {cur : Int} (hcur : cur ≤ stop) :
    (((slicesFrom stop step hstep cur).map (sliceBars type venue)).flatten.filter
        (markerKey · = k)).take 1 =
      if barReplayIndex type cur ≤ k ∧ k ≤ barReplayIndex type stop then
        (venue.filter (markerKey · = k)).take 1 else [] := by
  induction hleft : (stop - cur).toNat using Nat.strong_induction_on generalizing cur with
  | _ left ih =>
    unfold slicesFrom
    rcases nextCut_cases stop step cur with hnext | ⟨hnext, hlt⟩
    · rw [hnext, if_neg (lt_irrefl stop)]
      simp only [List.map_cons, List.map_nil, List.flatten_cons, List.flatten_nil, List.append_nil]
      rw [sliceBars_filter_marker hparsed]
      split <;> rfl
    · have hle := barReplayIndex_mono type (show cur ≤ cur + step by omega)
      have hle' := barReplayIndex_mono type hlt.le
      rw [hnext, if_pos hlt, List.map_cons, List.flatten_cons, List.filter_append,
        sliceBars_filter_marker hparsed]
      have hrest := ih _ (by omega) (show cur + step ≤ stop by omega) rfl
      by_cases hin : barReplayIndex type cur ≤ k ∧ k ≤ barReplayIndex type (cur + step)
      · rw [if_pos hin, if_pos (by omega)]
        cases hvenue : venue.filter (markerKey · = k) with
        | nil =>
          rw [hvenue] at hrest
          rw [List.nil_append, hrest]
          split <;> rfl
        | cons first others => rfl
      · rw [if_neg hin, List.nil_append, hrest]
        by_cases hlater : barReplayIndex type (cur + step) ≤ k ∧ k ≤ barReplayIndex type stop
        · rw [if_pos hlater, if_pos (by omega)]
        · rw [if_neg hlater, if_neg (by omega)]

theorem windowBars_filter_marker (hle : start ≤ stop) (k : Int) :
    (windowBars type period venue start stop).filter (markerKey · = k) =
      if barReplayIndex type start ≤ k ∧ k ≤ barReplayIndex type stop then
        venue.filter (markerKey · = k) else [] := by
  have hstep := barSliceSecs_pos type period
  rw [← windowRows_filter_marker]
  unfold windowBars
  rw [windowSlices, dif_pos ⟨hle, hstep⟩,
    filter_bySlices (barReplayIndex_mono type) ?_ hle (by omega)]
  · congr 1
    refine List.filter_congr fun x _ => decide_eq_decide.mpr ?_
    omega
  · intro x y hx hy
    simp only [decide_eq_true_eq] at hx hy
    exact hx.trans hy.symm

/-! ### The merge of the client -/

theorem dedupMarkers_eq {l : List HistoryBar} (h : ∀ b ∈ l, b.marker.isSome = true) :
    dedupMarkers l = dedupByKey markerKey l := by
  have hkey : ∀ x ∈ l, ∀ y ∈ l, markerKey x = markerKey y → x.marker = y.marker := by
    intro x hx y hy heq
    obtain ⟨m, hm⟩ := Option.isSome_iff_exists.mp (h x hx)
    obtain ⟨m', hm'⟩ := Option.isSome_iff_exists.mp (h y hy)
    rw [markerKey, markerKey, hm, hm', Option.getD_some, Option.getD_some] at heq
    rw [hm, hm', heq]
  fun_induction dedupMarkers l with
  | case1 => rw [dedupByKey]
  | case2 b => rw [dedupByKey]
  | case3 first later rest heq ih =>
    have hsame : later.marker = first.marker := by
      simp only [Bool.and_eq_true, beq_iff_eq] at heq
      exact heq.2
    have hmem : ∀ b ∈ first :: rest, b ∈ first :: later :: rest := by
      intro b hb
      rcases List.mem_cons.mp hb with rfl | hb <;> simp [*]
    rw [dedupByKey, if_pos (by rw [markerKey, markerKey, hsame])]
    exact ih (fun b hb => h b (hmem b hb)) fun x hx y hy => hkey x (hmem x hx) y (hmem y hy)
  | case4 first later rest hne ih =>
    have hne : markerKey later ≠ markerKey first := by
      intro heq
      apply hne
      rw [h later (by simp), hkey later (by simp) first (by simp) heq, beq_self_eq_true]
      rfl
    have hmem : ∀ b ∈ later :: rest, b ∈ first :: later :: rest :=
      fun b hb => List.mem_cons_of_mem _ hb
    rw [dedupByKey, if_neg hne]
    exact congrArg (first :: ·)
      (ih (fun b hb => h b (hmem b hb)) fun x hx y hy => hkey x (hmem x hx) y (hmem y hy))

/-- What the client merges, sorts and clears. -/
def mergedBars (type : TimeBarType) (period : Int) (venue : List HistoryBar) (start stop : Int) :
    List HistoryBar :=
  ((windowSlices start stop (barSliceSecs type period)).map (sliceBars type venue)).flatten

theorem mem_venue_of_mergedBars {x : HistoryBar} (hx : x ∈ mergedBars type period venue start stop) :
    x ∈ venue := by
  simp only [mergedBars, List.mem_flatten, List.mem_map] at hx
  obtain ⟨bars, ⟨slice, -, rfl⟩, hx⟩ := hx
  exact (List.mem_filter.mp ((sortByKey_perm _ _).mem_iff.mp hx)).1

theorem remoteLoadTimeBars_eq (hserves : Serves markerKey (barReplayIndex type) venue load)
    (hparsed : ∀ x ∈ venue, Parsed x) (hperiod : 1 ≤ period) :
    remoteLoadTimeBars type period start stop load = .ok
      (dedupByKey markerKey (sortByKey markerKey (mergedBars type period venue start stop))) := by
  have hslices : (windowSlices start stop (barSliceSecs type period)).mapM
      (fun (a, b) => loadTimeBarsAll type period a b load) =
        .ok ((windowSlices start stop (barSliceSecs type period)).map (sliceBars type venue)) := by
    refine mapM_eq_ok fun slice hslice => ?_
    unfold windowSlices at hslice
    split at hslice
    next hwindow =>
      obtain ⟨hle, hcut⟩ := nextCut_of_mem_slicesFrom hwindow.1 hslice
      exact loadTimeBarsAll_slice hserves hle hcut
    next => exact absurd hslice List.not_mem_nil
  unfold remoteLoadTimeBars
  simp only [max_eq_left hperiod]
  rw [hslices]
  refine congrArg Except.ok (dedupMarkers_eq fun b hb => ?_)
  obtain ⟨marker, ssboe, hmarker, -⟩ :=
    hparsed b (mem_venue_of_mergedBars ((sortByKey_perm _ _).mem_iff.mp hb))
  rw [hmarker]
  rfl

/-- The client keeps the first bar of each marker. -/
theorem filter_remoteBars (hparsed : ∀ x ∈ venue, Parsed x) (k : Int) :
    (dedupByKey markerKey (sortByKey markerKey (mergedBars type period venue start stop))).filter
        (markerKey · = k) =
      ((windowBars type period venue start stop).filter (markerKey · = k)).take 1 := by
  rw [filter_dedupByKey (pairwise_sortByKey ..), filter_sortByKey]
  by_cases hle : start ≤ stop
  · rw [windowBars_filter_marker hle, mergedBars, windowSlices,
      dif_pos ⟨hle, barSliceSecs_pos type period⟩, take_sliceBars hparsed k hle]
    split <;> rfl
  · rw [mergedBars, windowBars, windowSlices, dif_neg (by omega), bySlices]
    rfl

/-- The direct load drops the bars at the boundaries, and no others, exactly where it tells the bars of
neighbouring slices apart. -/
theorem told_iff_cleared (hle : start ≤ stop) : Told type period venue start stop ↔
    match windowSlices start stop (barSliceSecs type period) with
    | [] => True
    | (a, b) :: rest => Cleared barDedupKey markerKey (barReplayIndex type) venue
        (barReplayIndex type a - 1) (barReplayIndex type b) rest := by
  have hstep := barSliceSecs_pos type period
  have hchained : Chained (barReplayIndex type) (barReplayIndex type start)
      (slicesFrom stop (barSliceSecs type period) hstep start) :=
    slicesFrom_chained (barReplayIndex_mono type) (barReplayIndex_lt type period) hle
  unfold Told
  rw [windowSlices, dif_pos ⟨hle, hstep⟩]
  cases hslices : slicesFrom stop (barSliceSecs type period) hstep start with
  | nil => rfl
  | cons slice rest =>
    rw [hslices] at hchained
    obtain ⟨hstart, hlast, -, hrest⟩ := hchained
    exact unconfused_iff_cleared (fun _ => by omega) hrest

/-- A gateway client and a direct session return the same bars where the markers of the window differ and
are in the order of time.  Where the direct load tells the bars of two slices apart they do so only
there. -/
theorem remoteLoadTimeBars_direct (hserves : Serves markerKey (barReplayIndex type) venue load)
    (hparsed : ∀ x ∈ venue, Parsed x) (hperiod : 1 ≤ period) :
    (Told type period venue start stop ∧
        (windowBars type period venue start stop).Pairwise (Agree markerKey barRows.sortKey) →
      remoteLoadTimeBars type period start stop load = loadTimeBarsAll type period start stop load) ∧
    (Told type period venue start stop →
      remoteLoadTimeBars type period start stop load = loadTimeBarsAll type period start stop load →
      (windowBars type period venue start stop).Pairwise (Agree markerKey barRows.sortKey)) := by
  have hiff : sortByKey barRows.sortKey (windowBars type period venue start stop) =
      dedupByKey markerKey (sortByKey markerKey (mergedBars type period venue start stop)) ↔
        (windowBars type period venue start stop).Pairwise (Agree markerKey barRows.sortKey) :=
    sortByKey_eq_iff (pairwise_lt_dedupByKey (pairwise_sortByKey markerKey _))
      (filter_remoteBars hparsed)
  rw [remoteLoadTimeBars_eq hserves hparsed hperiod]
  constructor
  · rintro ⟨htold, hagree⟩
    rw [loadTimeBarsAll_eq hserves htold, hiff.mpr hagree]
  · intro htold heq
    rw [loadTimeBarsAll_eq hserves htold] at heq
    exact hiff.mp (Except.ok.inj heq).symm

end

def barAt (marker : Int) (close : UInt64) (volume : Nat) : HistoryBar :=
  { marker := some marker, openPrice := some 0, highPrice := some 0, lowPrice := some 0
    closePrice := some close, volume := some volume
    tsEventNs := (markerToSsboe marker).bind venueTsNs }

theorem parsed_barAt {marker : Int} (h : (markerToSsboe marker).isSome = true) (close : UInt64)
    (volume : Nat) : Parsed (barAt marker close volume) := by
  obtain ⟨ssboe, hssboe⟩ := Option.isSome_iff_exists.mp h
  refine ⟨marker, ssboe, rfl, hssboe, ?_⟩
  rw [barAt, hssboe]
  rfl

/-- The bars of a window, for ever the same. -/
def exactBars (type : TimeBarType) (venue : List HistoryBar) : LoadSlice HistoryBar := fun a b _ =>
  .ok (windowRows markerKey venue (barReplayIndex type a) (barReplayIndex type b))

theorem serves_exactBars (type : TimeBarType) (venue : List HistoryBar) :
    Serves markerKey (barReplayIndex type) venue (exactBars type venue) :=
  fun _ _ => ⟨[], by simp, by decide, by decide, fun _ => rfl⟩

/-- The second bars of a window of two slices; the second one is at their boundary. -/
def secondBars : List HistoryBar := [barAt 3600 7 1, barAt 7200 7 1, barAt 7230 8 2]

theorem remoteLoadTimeBars_direct_seconds :
    Serves markerKey (barReplayIndex .second) secondBars (exactBars .second secondBars) ∧
    (∀ x ∈ secondBars, Parsed x) ∧ Told .second 1 secondBars 0 7260 ∧
    remoteLoadTimeBars .second 1 0 7260 (exactBars .second secondBars) =
      loadTimeBarsAll .second 1 0 7260 (exactBars .second secondBars) := by
  have hslices : windowSlices 0 7260 (barSliceSecs .second 1) = [(0, 7200), (7200, 7260)] := by
    rw [windowSlices, dif_pos (by decide)]
    unfold slicesFrom
    rw [show nextCut 7260 (barSliceSecs .second 1) 0 = 7200 from rfl, if_pos (by decide)]
    unfold slicesFrom
    rfl
  have hparsed : ∀ x ∈ secondBars, Parsed x := by
    simp only [secondBars, List.forall_mem_cons, List.not_mem_nil, false_imp_iff, implies_true,
      and_true]
    exact ⟨parsed_barAt (by decide) .., parsed_barAt (by decide) .., parsed_barAt (by decide) ..⟩
  have htold : Told .second 1 secondBars 0 7260 := by
    unfold Told
    rw [hslices]
    exact ⟨⟨by decide, by decide⟩, trivial⟩
  refine ⟨serves_exactBars _ _, hparsed, htold,
    (remoteLoadTimeBars_direct (serves_exactBars _ _) hparsed (by decide)).1 ⟨htold, ?_⟩⟩
  rw [windowBars, hslices]
  decide

/-- The session row and the settlement row of one day. -/
def dailyBars : List HistoryBar := [barAt 20260812 7 1, barAt 20260812 8 0]

/-- The direct load returns both rows of a day, the client one. -/
theorem remoteLoadTimeBars_daily :
    Serves markerKey (barReplayIndex .daily) dailyBars (exactBars .daily dailyBars) ∧
    (∀ x ∈ dailyBars, Parsed x) ∧
    remoteLoadTimeBars .daily 1 1786492800 1786579199 (exactBars .daily dailyBars) ≠
      loadTimeBarsAll .daily 1 1786492800 1786579199 (exactBars .daily dailyBars) := by
  have hparsed : ∀ x ∈ dailyBars, Parsed x := by
    simp only [dailyBars, List.forall_mem_cons, List.not_mem_nil, false_imp_iff, implies_true,
      and_true]
    exact ⟨parsed_barAt (by decide) .., parsed_barAt (by decide) ..⟩
  refine ⟨serves_exactBars _ _, hparsed, fun heq => ?_⟩
  rw [remoteLoadTimeBars_eq (serves_exactBars _ _) hparsed (by decide),
    loadTimeBarsAll_slice (serves_exactBars _ _) (by decide) (by decide)] at heq
  have hclient := congrArg List.length
    (@filter_remoteBars .daily 1 1786492800 1786579199 dailyBars hparsed 20260812)
  rw [Except.ok.inj heq, ((sortByKey_perm ..).filter _).length_eq, List.length_take] at hclient
  have hdirect : ((windowRows markerKey dailyBars (barReplayIndex .daily 1786492800)
      (barReplayIndex .daily 1786579199)).filter (markerKey · = 20260812)).length = 2 := by
    decide
  omega

end RithmicNt.Gateway.BarHistory
