import RithmicNt.Adapter.Apply

/-! The recovery of one in-flight order from a drain: `_resolve_inflight_by_tag`, beside the choice of
the freshest row per basket that the bulk paths make from the same drain. -/

namespace RithmicNt.Adapter

open RithmicNt.Lib RithmicNt.Exec

namespace DrainRow

/-- The row carries the tag, and its terms are real. -/
def answers (tag : String) (row : DrainRow) : Bool :=
  row.fields.userTag.getD "" = tag ∧ row.bindable = true

/-- The loop body of `_resolve_inflight_by_tag`. -/
def bestStep (tag : String) (best : Option DrainRow) (row : DrainRow) : Option DrainRow :=
  if row.fields.userTag.getD "" ≠ tag then best
  else if row.bindable = false then best
  else match best with
    | none => some row
    | some current => if row.tsEvent ≥ current.tsEvent then some row else some current

def best (tag : String) (rows : List DrainRow) : Option DrainRow := rows.foldl (bestStep tag) none

end DrainRow

/-- What the recovery ends with: nothing found, what the cache knows by now, or a row of the drain,
with the venue id that was bound from it. -/
inductive Recovery
  | unresolved
  | cached (order : TrackedOrder)
  | drained (row : DrainRow) (venueId : String) (cache : Cache)

/-- `_resolve_inflight_by_tag` once the drain is there, in the cache as it is by then. -/
def Engine.resolveInflightByTag (e : Engine) (react : Reactions) (a : Account) (cache : Cache)
    (clientOrderId : String) (order : TrackedOrder) (events : List OrderNotification) :
    Account × Except Fault Recovery :=
  let order := (cache.order clientOrderId).getD order
  if (cache.venueOrderId clientOrderId).isSome then (a, .ok (.cached order))
  else if order.status.isClosed then (a, .ok (.cached order))
  else match e.iterDrainRows a events with
    | (a, .error fault) => (a, .error fault)
    | (a, .ok rows) =>
      match DrainRow.best clientOrderId (rows.filterMap id) with
      | none => (a, .ok .unresolved)
      | some best =>
        (a, (react.addVenueOrderId cache clientOrderId best.basket).map fun cache =>
          .drained best best.basket cache)

/-! ### The newest row that answers -/

namespace DrainRow

variable {tag : String} {rows : List DrainRow}

/-- Row `i` is the newest of the rows with `p`: on an equal time, the one that arrived last. -/
def Newest (p : DrainRow → Prop) (rows : List DrainRow) (i : Nat) (row : DrainRow) : Prop :=
  rows[i]? = some row ∧ p row ∧
    ∀ j x, rows[j]? = some x → p x → x.tsEvent < row.tsEvent ∨ x.tsEvent = row.tsEvent ∧ j ≤ i

theorem bestStep_eq (best : Option DrainRow) (row : DrainRow) :
    bestStep tag best row = if row.answers tag then
      (match best with
        | none => some row
        | some current => if row.tsEvent ≥ current.tsEvent then some row else some current)
      else best := by
  unfold bestStep answers
  by_cases htag : row.fields.userTag.getD "" = tag
  · cases hbind : row.bindable with
    | false => simp [htag]
    | true => simp [htag]
  · simp [htag]

theorem best_append (row : DrainRow) :
    best tag (rows ++ [row]) = bestStep tag (best tag rows) row := by
  simp [best, List.foldl_append]

/-- A row that does not beat the newest one leaves it the newest. -/
theorem Newest.snoc {p : DrainRow → Prop} {i : Nat} {row : DrainRow} (h : Newest p rows i row)
    (next : DrainRow) (hnext : p next → next.tsEvent < row.tsEvent) :
    Newest p (rows ++ [next]) i row := by
  obtain ⟨hi, hp, hmax⟩ := h
  refine ⟨?_, hp, fun j x hj hx => ?_⟩
  · rw [List.getElem?_append_left (List.getElem?_eq_some_iff.mp hi).1]
    exact hi
  · rcases getElem?_snoc hj with hj | ⟨-, rfl⟩
    · exact hmax j x hj hx
    · exact .inl (hnext hx)

theorem Newest.last {p : DrainRow → Prop} {row : DrainRow} (hp : p row)
    (hmax : ∀ x ∈ rows, p x → x.tsEvent ≤ row.tsEvent) :
    Newest p (rows ++ [row]) rows.length row := by
  refine ⟨by simp, hp, fun j x hj hx => ?_⟩
  rcases getElem?_snoc hj with hj | ⟨rfl, rfl⟩
  · have hle := hmax x (List.mem_of_getElem? hj) hx
    have hlt := (List.getElem?_eq_some_iff.mp hj).1
    omega
  · exact .inr ⟨rfl, le_rfl⟩

/-- The loop ends with the newest row that answers, if there is one. -/
theorem best_spec (tag : String) (rows : List DrainRow) :
    match best tag rows with
    | none => ∀ x ∈ rows, x.answers tag = false
    | some row => ∃ i, Newest (·.answers tag = true) rows i row := by
  induction rows using List.reverseRecOn with
  | nil => simp [best]
  | append_singleton rows next ih =>
    rw [best_append, bestStep_eq]
    by_cases hanswers : next.answers tag = true
    · rw [if_pos hanswers]
      cases hbest : best tag rows with
      | none =>
        rw [hbest] at ih
        refine ⟨rows.length, Newest.last hanswers fun x hx hans => ?_⟩
        rw [ih x hx] at hans
        cases hans
      | some current =>
        rw [hbest] at ih
        obtain ⟨i, hnewest⟩ := ih
        by_cases hge : next.tsEvent ≥ current.tsEvent
        · simp only [if_pos hge]
          refine ⟨rows.length, Newest.last hanswers fun x hx hans => ?_⟩
          obtain ⟨j, hj⟩ := List.mem_iff_getElem?.mp hx
          have := hnewest.2.2 j x hj hans
          omega
        · simp only [if_neg hge]
          exact ⟨i, hnewest.snoc next fun _ => by omega⟩
    · rw [if_neg hanswers]
      cases hbest : best tag rows with
      | none =>
        rw [hbest] at ih
        intro x hx
        rcases List.mem_append.mp hx with hx | hx
        · exact ih x hx
        · rw [List.mem_singleton.mp hx]
          exact Bool.eq_false_iff.mpr hanswers
      | some current =>
        rw [hbest] at ih
        obtain ⟨i, hnewest⟩ := ih
        exact ⟨i, hnewest.snoc next fun hnext => absurd hnext hanswers⟩

theorem Newest.unique {p : DrainRow → Prop} {i j : Nat} {row x : DrainRow}
    (h : Newest p rows i row) (h' : Newest p rows j x) : i = j ∧ row = x := by
  have hle := h.2.2 j x h'.1 h'.2.1
  have hge := h'.2.2 i row h.1 h.2.1
  have hij : i = j := by omega
  subst hij
  exact ⟨rfl, Option.some.inj (h.1.symm.trans h'.1)⟩

/-- The choice of the bulk paths, as the newest row of a basket. -/
theorem freshest_iff_newest {basket : String} {row : DrainRow} :
    Freshest rows basket row ↔ ∃ i, Newest (·.basket = basket) rows i row := by
  have hkey : ∀ (i : Nat) (x : DrainRow), rows[i]? = some x →
      (rows.map key)[i]? = some (x.basket, x.tsEvent) := by
    intro i x hx
    simp [List.getElem?_map, hx, key]
  constructor
  · intro h
    obtain ⟨i, hi, ts, hts, hmax⟩ := index_of_freshest h
    obtain ⟨hbasket, rfl⟩ := Prod.mk.inj (Option.some.inj ((hkey i row hi).symm.trans hts))
    refine ⟨i, hi, hbasket, fun j x hj hx => hmax j x.tsEvent ?_⟩
    rw [hkey j x hj, hx]
  · rintro ⟨i, hi, rfl, hmax⟩
    refine freshest_of_index ⟨row.tsEvent, hkey i row hi, fun j ts hj => ?_⟩ hi
    rw [List.getElem?_map] at hj
    obtain ⟨x, hx, hxkey⟩ := Option.map_eq_some_iff.mp hj
    obtain ⟨hbasket, rfl⟩ := Prod.mk.inj hxkey
    exact hmax j x hx hbasket

/-- No row of the same basket that the recovery passes over, for its tag or its terms, is newer than
the newest row that answers. -/
def Unshadowed (tag : String) (rows : List DrainRow) : Prop :=
  ∀ i row, Newest (·.answers tag = true) rows i row →
    ∀ j x, rows[j]? = some x → x.basket = row.basket → x.answers tag = false →
      x.tsEvent < row.tsEvent ∨ x.tsEvent = row.tsEvent ∧ j < i

theorem freshest_best_iff {row : DrainRow} (h : best tag rows = some row) :
    Freshest rows row.basket row ↔ Unshadowed tag rows := by
  have hspec := best_spec tag rows
  rw [h] at hspec
  obtain ⟨i, hnewest⟩ := hspec
  rw [freshest_iff_newest]
  constructor
  · rintro ⟨k, hk⟩ i' row' hnewest' j x hj hbasket hpassed
    obtain ⟨rfl, rfl⟩ := hnewest.unique hnewest'
    -- The two choices are at the same place: each is as new as the other.
    have hik := hk.2.2 i row hnewest.1 rfl
    have hki := hnewest.2.2 k row hk.1 hnewest.2.1
    have hx := hk.2.2 j x hj hbasket
    have hne : j ≠ i := by
      rintro rfl
      obtain rfl := Option.some.inj (hj.symm.trans hnewest.1)
      rw [hnewest.2.1] at hpassed
      cases hpassed
    omega
  · intro hunshadowed
    refine ⟨i, hnewest.1, rfl, fun j x hj hbasket => ?_⟩
    cases hans : x.answers tag with
    | true => exact hnewest.2.2 j x hj hans
    | false =>
      have := hunshadowed i row hnewest j x hj hbasket hans
      omega

end DrainRow

/-! ### Agreement with the bulk paths -/

section

variable {e : Engine} {react : Reactions} {a a' : Account} {cache cache' : Cache}
  {clientOrderId venueId : String} {order : TrackedOrder} {events : List OrderNotification}
  {row : DrainRow}

/-- The answer of the recovery: a bindable row with the tag of the order, the one that
`latest_drain_rows` keeps for its basket, and the basket is the id that was bound. -/
structure Agrees (e : Engine) (a : Account) (events : List OrderNotification) (tag : String)
    (row : DrainRow) (venueId : String) : Prop where
  bindable : row.bindable = true
  tag : row.fields.userTag.getD "" = tag
  latest : ∃ latest, (e.latestDrainRows a events none).2 = .ok latest ∧
    latest.get? row.basket = some row
  venueId : venueId = row.basket

theorem resolveInflightByTag_drained
    (h : e.resolveInflightByTag react a cache clientOrderId order events =
      (a', .ok (.drained row venueId cache'))) :
    DrainRow.best clientOrderId (drainRows e a events) = some row ∧ venueId = row.basket ∧
      ∃ rows, (e.iterDrainRows a events).2 = .ok rows := by
  unfold Engine.resolveInflightByTag at h
  dsimp only at h
  split at h
  · cases h
  · split at h
    · cases h
    · split at h
      · cases h
      · next a₁ rows hrows =>
        split at h
        · cases h
        · next best hbest =>
          obtain ⟨next, -, hdrained⟩ := map_eq_ok.mp (Prod.mk.inj h).2
          cases hdrained
          refine ⟨?_, rfl, rows, by rw [hrows]⟩
          simpa [drainRows, hrows] using hbest

/-- A drain row that the recovery answers with is the one the bulk paths keep for its basket, exactly
when no row that the recovery passes over shadows it. -/
theorem resolveInflightByTag_agrees_iff
    (h : e.resolveInflightByTag react a cache clientOrderId order events =
      (a', .ok (.drained row venueId cache'))) :
    Agrees e a events clientOrderId row venueId ↔
      DrainRow.Unshadowed clientOrderId (drainRows e a events) := by
  obtain ⟨hbest, hvenue, rows, hrows⟩ := resolveInflightByTag_drained h
  have hlatest : (e.latestDrainRows a events none).2 =
      .ok (DrainRow.latest (drainRows e a events)) := by
    simp [Engine.latestDrainRows, drainRows, hrows, Except.map, Engine.matchesInstrument]
  have hanswers : row.answers clientOrderId = true := by
    have hspec := DrainRow.best_spec clientOrderId (drainRows e a events)
    rw [hbest] at hspec
    obtain ⟨i, hnewest⟩ := hspec
    exact hnewest.2.1
  rw [← DrainRow.freshest_best_iff hbest, ← DrainRow.get?_latest]
  constructor
  · rintro ⟨-, -, ⟨latest, heq, hget⟩, -⟩
    obtain rfl := Except.ok.inj (hlatest.symm.trans heq)
    exact hget
  · intro hget
    obtain ⟨htag, hbindable⟩ : row.fields.userTag.getD "" = clientOrderId ∧ row.bindable = true := by
      simpa [DrainRow.answers] using hanswers
    exact ⟨hbindable, htag, ⟨_, hlatest, hget⟩, hvenue⟩

end

def submittedOrder : TrackedOrder :=
  ⟨.submitted, "MNQZ6-CME.RITHMIC", .buy, .limit, 2, some "21000.25", none, some 2, 3⟩

/-- A cache that holds the in-flight order `T1` and binds what it is given. -/
def inflightCache : Cache where
  order id := if id = "T1" then some submittedOrder else none
  clientOrderId _ := none
  venueOrderId _ := none

def bindingReactions : Reactions where
  onStatus cache _ := cache
  addVenueOrderId cache id venueId :=
    .ok { cache with venueOrderId := fun i => if i = id then some venueId else cache.venueOrderId i }

/-- A row of the order `T1` at the venue. -/
def inflightRow (status : String) (duration : Option Int) (ts : Nat) : OrderNotification :=
  { notifyTypeName := some "STATUS", status := some status, basketId := some "B1"
    userTag := some "T1", accountId := some "ACC", symbol := some "MNQZ6", exchange := some "CME"
    quantity := some 2, transactionType := some 1, priceType := some 1, duration := duration
    price := some samplePrice, tsEventNs := some ts }

/-- The row is open at 5 and canceled at 6, and the recovery answers with the later one. -/
theorem resolveInflightByTag_agrees_canceled : ∃ a' row venueId cache',
    (Engine.accepting 9).resolveInflightByTag bindingReactions {} inflightCache "T1" submittedOrder
      [inflightRow "open" (some 1) 5, inflightRow "cancelled" (some 1) 6] =
        (a', .ok (.drained row venueId cache')) ∧ row.report.status = .canceled ∧
      Agrees (.accepting 9) {} [inflightRow "open" (some 1) 5, inflightRow "cancelled" (some 1) 6]
        "T1" row venueId := by
  have hanswer : ∃ a' row venueId cache',
      (Engine.accepting 9).resolveInflightByTag bindingReactions {} inflightCache "T1" submittedOrder
        [inflightRow "open" (some 1) 5, inflightRow "cancelled" (some 1) 6] =
          (a', .ok (.drained row venueId cache')) ∧ row.report.status = .canceled :=
    ⟨_, _, _, _, rfl, rfl⟩
  have hall : (drainRows (.accepting 9) {}
      [inflightRow "open" (some 1) 5, inflightRow "cancelled" (some 1) 6]).all
        (DrainRow.answers "T1") = true := rfl
  obtain ⟨a', row, venueId, cache', hrow, hstatus⟩ := hanswer
  refine ⟨a', row, venueId, cache', hrow, hstatus, (resolveInflightByTag_agrees_iff hrow).mpr ?_⟩
  intro i newest hnewest j x hj hbasket hpassed
  rw [List.all_eq_true.mp hall x (List.mem_of_getElem? hj)] at hpassed
  cases hpassed

/-- The same drain, but the canceled row carries no duration: the recovery answers `ACCEPTED`, where
the row that the bulk paths keep for the basket says `CANCELED`. -/
theorem resolveInflightByTag_shadowed : ∃ a' row venueId cache' latest newer,
    (Engine.accepting 9).resolveInflightByTag bindingReactions {} inflightCache "T1" submittedOrder
      [inflightRow "open" (some 1) 5, inflightRow "cancelled" none 6] =
        (a', .ok (.drained row venueId cache')) ∧
      ((Engine.accepting 9).latestDrainRows {}
        [inflightRow "open" (some 1) 5, inflightRow "cancelled" none 6] none).2 = .ok latest ∧
      latest.get? row.basket = some newer ∧ row.report.status = .accepted ∧
      newer.report.status = .canceled ∧
      ¬ Agrees (.accepting 9) {} [inflightRow "open" (some 1) 5, inflightRow "cancelled" none 6]
        "T1" row venueId := by
  refine ⟨_, _, _, _, _, _, rfl, rfl, rfl, rfl, rfl, ?_⟩
  rintro ⟨-, -, ⟨latest, heq, hget⟩, -⟩
  obtain rfl := Except.ok.inj heq
  have hts := congrArg (Option.map DrainRow.tsEvent) hget
  revert hts
  decide

end RithmicNt.Adapter
