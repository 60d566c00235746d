import RithmicNt.Adapter.Intake

/-! What becomes of a fill that the order stream delivers: it reaches the engine, the plant latches,
the handler raises, or it is dropped. -/

namespace RithmicNt.Adapter

open RithmicNt.Lib RithmicNt.Exec

/-- The fill of a trade left a trace: the handler raised, the engine has it, or the plant is latched. -/
def Handled.Kept (trade : Option String) (h : Handled) : Prop :=
  h.outcome = .raised ∨ h.emitted.any (Emission.isFillOf trade) = true ∨ h.host.plant.latched = true

/-- The trade that the fields name. -/
def Live.tradeIn (env : Live) (f : OrderFields) : Option String :=
  f.fillTradeId env.engine.reprFloat f.fillIdentityTs

def Live.tradeOf (env : Live) (event : OrderNotification) : Option String :=
  (orderNotificationToFields env.engine.upper event).bind env.tradeIn

section

variable {trade : Option String}

theorem kept_raised (s : Host) (emitted : List Emission) : (Handled.raised s emitted).Kept trade :=
  .inl rfl

theorem kept_returned_nil {s : Host} :
    (Handled.returned s []).Kept trade ↔ s.plant.latched = true := by
  simp [Handled.Kept, Handled.returned]

theorem kept_latch (s : Host) : (Handled.returned s.latch []).Kept trade :=
  kept_returned_nil.mpr rfl

theorem kept_of_isFillOf (s : Host) (emission : Emission) (h : emission.isFillOf trade = true) :
    (Handled.returned s [emission]).Kept trade :=
  .inr (.inl (by simp [Handled.returned, h]))

end

/-- The dedup key of the fill is not in the store. -/
def Host.Unmarked (s : Host) (reprFloat : WirePrice → String) (f : OrderFields) : Prop :=
  ∀ key, f.fillDedupKey reprFloat f.fillIdentityTs = some key → s.fills.contains key = false

theorem fillKeySeen_of_unmarked {s : Host} {key : String} (h : s.fills.contains key = false) :
    s.fillKeySeen key = ({ s with uses := s.uses ++ [Recency.Use.look key false] }, false) := by
  unfold Host.fillKeySeen Lru.has
  rw [h]
  rfl

/-! ### Tracked fills -/

section

variable {env : Live} {s : Host} {f : OrderFields} {id venueId trade : String}
  {order : TrackedOrder}

theorem handleTrackedFill_kept {size : Int} (h : s.Unmarked env.engine.reprFloat f) :
    (env.handleTrackedFill s f id order venueId size trade).Kept (some trade) := by
  unfold Live.handleTrackedFill
  split
  · exact kept_raised _ _
  · next key hkey =>
    rw [fillKeySeen_of_unmarked (h key hkey)]
    simp only [Bool.false_eq_true, if_false]
    split
    · exact kept_latch _
    · exact kept_raised _ _
    · split
      · exact kept_raised _ _
      · exact kept_of_isFillOf _ _ (by simp [Emission.isFillOf])

theorem handleTracked_kept (hkind : f.kind = some .filled) (hsize : f.fillSize ≠ none)
    (h : s.Unmarked env.engine.reprFloat f) : (env.handleTracked s f id order).Kept (env.tradeIn f) := by
  obtain ⟨size, hsize⟩ := Option.ne_none_iff_exists'.mp hsize
  unfold Live.handleTracked
  split
  · exact kept_raised _ _
  · dsimp only
    split
    · exact kept_raised _ _
    · simp only [hkind, Option.bind_some, notificationAction, Live.handleAction, hsize]
      split
      · exact kept_raised _ _
      · next trade htrade =>
        rw [Live.tradeIn, htrade]
        exact handleTrackedFill_kept h

end

/-! ### Untracked fills -/

section

variable {e : Engine} {a : Account} {f : OrderFields}

theorem seed_seed (h : (e.seed a f.accountId).2 = .returned) :
    e.seed (e.seed a f.accountId).1 f.accountId = ((e.seed a f.accountId).1, .returned) := by
  unfold Engine.seed at h ⊢
  split
  · rfl
  · next raw hraw =>
    rw [hraw] at h
    exact Account.seedIfNeeded_again h

/-- No fill report can be built from the row. -/
def Unreportable (e : Engine) (f : OrderFields) : Prop :=
  e.instrumentIdOk f.instrumentId = false ∨ f.fillPrice = none ∨ f.fillSize = none ∨
    f.orderSide = none ∨
    ∃ size price, f.fillSize = some size ∧ f.fillPrice = some price ∧
      e.reportTerms f size price = .error .value

theorem buildFillReport_none_iff {accountId basket : String} {ts : Int} :
    e.buildFillReport accountId basket f ts = .ok none ↔
      f.fillPrice = none ∨ f.fillSize = none ∨ f.orderSide = none ∨
        ∃ size price, f.fillSize = some size ∧ f.fillPrice = some price ∧
          e.reportTerms f size price = .error .value := by
  unfold Engine.buildFillReport
  cases hprice : f.fillPrice with
  | none => simp
  | some price =>
    cases hsize : f.fillSize with
    | none => simp
    | some size =>
      cases hside : f.orderSide with
      | none => simp
      | some side =>
        dsimp only
        cases hterms : e.reportTerms f size price with
        | error fault => cases fault <;> simp [hterms]
        | ok terms =>
          refine iff_of_false ?_ (by simp [hterms])
          dsimp only
          split
          · intro h
            cases h
          · intro h
            simp only [bind_eq_ok] at h
            obtain ⟨_, -, _, -, _, -, h⟩ := h
            cases h

theorem fillReportFromFields_eq {basket accountId : String} {ts : Int}
    (hbasket : Account.truthy f.basketId = some basket)
    (hseed : e.seed a f.accountId = (a, .returned)) (hid : a.id = some accountId) :
    e.fillReportFromFields a f ts = (a, if e.instrumentIdOk f.instrumentId = false then .ok none
      else e.buildFillReport accountId basket f ts) := by
  unfold Engine.fillReportFromFields
  rw [hbasket]
  dsimp only
  split
  · rfl
  · rw [hseed]
    simp [hid]

/-- A fill report is one of the trade that the fields name. -/
theorem tradeId_of_report {ts : Int} {a' : Account} {report : FillReport}
    (h : e.fillReportFromFields a f ts = (a', .ok (some report))) :
    f.fillTradeId e.reprFloat ts = some report.tradeId := by
  have hbuilt : ∃ accountId basket, e.buildFillReport accountId basket f ts = .ok (some report) := by
    unfold Engine.fillReportFromFields at h
    split at h
    · cases h
    · next basket _ =>
      split at h
      · cases h
      · dsimp only at h
        split at h
        · cases h
        · split at h
          · cases h
          · next accountId _ =>
            exact ⟨accountId, basket, congrArg Prod.snd h⟩
  obtain ⟨accountId, basket, hbuilt⟩ := hbuilt
  unfold Engine.buildFillReport at hbuilt
  split at hbuilt
  · split at hbuilt
    · cases hbuilt
    · cases hbuilt
    · split at hbuilt
      · cases hbuilt
      · next trade htrade =>
        simp only [bind_eq_ok] at hbuilt
        obtain ⟨_, -, _, -, _, -, hreport⟩ := hbuilt
        cases hreport
        exact htrade
  · cases hbuilt

theorem fillReportFromFields_none_iff {basket accountId : String} {ts : Int}
    (hbasket : Account.truthy f.basketId = some basket)
    (hseed : e.seed a f.accountId = (a, .returned)) (hid : a.id = some accountId) :
    (e.fillReportFromFields a f ts).2 = .ok none ↔ Unreportable e f := by
  rw [fillReportFromFields_eq hbasket hseed hid]
  unfold Unreportable
  by_cases hinstrument : e.instrumentIdOk f.instrumentId = false
  · simp [hinstrument]
  · simp [hinstrument, buildFillReport_none_iff]

end

section

variable {env : Live} {s : Host} {f : OrderFields}

/-- An untracked fill is dropped where no report can be built from it. -/
theorem publishUntrackedFill_kept_iff {basket accountId : String} (hkind : f.kind = some .filled)
    (h : s.Unmarked env.engine.reprFloat f) (hbasket : Account.truthy f.basketId = some basket)
    (hseed : env.engine.seed s.account f.accountId = (s.account, .returned))
    (hid : s.account.id = some accountId) :
    (env.publishUntrackedFill s f).Kept (env.tradeIn f) ↔ s.plant.latched = true ∨
      ¬ (OrderFields.fitsI64 f.fillIdentityTs = true ∧ Unreportable env.engine f) := by
  unfold Live.publishUntrackedFill
  rw [if_neg (by simp [hkind])]
  split
  · next hkey =>
    refine iff_of_true (kept_raised _ _) (.inr fun hdrop => ?_)
    simp [OrderFields.fillDedupKey, hdrop.1] at hkey
  · next key hkey =>
    have hfits : OrderFields.fitsI64 f.fillIdentityTs = true := by
      by_contra hnot
      simp [OrderFields.fillDedupKey, hnot] at hkey
    have hnone := @fillReportFromFields_none_iff env.engine s.account f basket accountId
      f.fillIdentityTs hbasket hseed hid
    have haccount : (env.engine.fillReportFromFields s.account f f.fillIdentityTs).1 = s.account := by
      rw [fillReportFromFields_eq hbasket hseed hid]
    rw [fillKeySeen_of_unmarked (h key hkey)]
    simp only [Bool.false_eq_true, if_false]
    rcases hreport : env.engine.fillReportFromFields s.account f f.fillIdentityTs with
      ⟨account, fault | (_ | report)⟩
    · rw [hreport] at hnone
      refine iff_of_true (kept_raised _ _) (.inr fun hdrop => ?_)
      cases hnone.mpr hdrop.2
    · rw [hreport] at hnone
      rw [kept_returned_nil]
      simp [hfits, hnone.mp rfl]
    · rw [hreport] at hnone
      refine iff_of_true ?_ (.inr fun hdrop => by cases hnone.mpr hdrop.2)
      dsimp only
      split
      · exact kept_raised _ _
      · refine kept_of_isFillOf _ _ ?_
        simp [Emission.isFillOf, Live.tradeIn, tradeId_of_report hreport]

/-- The status of an untracked order was published, or there is nothing to publish. -/
inductive StatusPasses (env : Live) (a : Account) (book : Lru StatusKey) (f : OrderFields) : Prop
  | unbuilt {id : Option String} :
      (env.engine.drainRowFromFields a f (env.eventTs f)).2 = .ok none →
      env.engine.basketClientId env.cache f = .ok id → StatusPasses env a book f
  | built {row : DrainRow} :
      (env.engine.drainRowFromFields a f (env.eventTs f)).2 = .ok (some row) →
      (book.get row.report.venueOrderId).2 = some row.report.key ∨
        env.engine.sendStatus row.report = true → StatusPasses env a book f

def StatusRefused (env : Live) (a : Account) (book : Lru StatusKey) (f : OrderFields) : Prop :=
  ∃ row, (env.engine.drainRowFromFields a f (env.eventTs f)).2 = .ok (some row) ∧
    (book.get row.report.venueOrderId).2 ≠ some row.report.key ∧
    env.engine.sendStatus row.report = false

/-- An untracked fill that is dropped: the notification has no basket, there is no account, the
status of the order was not published, or no fill report can be built. -/
inductive DropsUntracked (env : Live) (a : Account) (book : Lru StatusKey) (f : OrderFields) : Prop
  | basketMissing : Account.truthy f.basketId = none → DropsUntracked env a book f
  | accountMissing : a.id = none → DropsUntracked env a book f
  | statusRefused : StatusRefused env a book f → DropsUntracked env a book f
  | unreportable : StatusPasses env a book f → OrderFields.fitsI64 f.fillIdentityTs = true →
      Unreportable env.engine f → DropsUntracked env a book f

theorem drainRowFromFields_account {e : Engine} {a : Account} {ts : Int}
    (hseed : e.seed a f.accountId = (a, .returned)) : (e.drainRowFromFields a f ts).1 = a := by
  show (e.orderStatusReportFromFields a f ts).1 = a
  unfold Engine.orderStatusReportFromFields
  rw [hseed]
  dsimp only
  repeat' split
  all_goals rfl

theorem publishUntrackedStatus_frame
    (hseed : env.engine.seed s.account f.accountId = (s.account, .returned)) :
    (env.publishUntrackedStatus s f).1.account = s.account ∧
      (env.publishUntrackedStatus s f).1.plant = s.plant ∧
      (env.publishUntrackedStatus s f).1.fills = s.fills ∧
      ∀ trade, (env.publishUntrackedStatus s f).2.1.any (Emission.isFillOf trade) = false := by
  have haccount := @drainRowFromFields_account f env.engine s.account (env.eventTs f) hseed
  unfold Live.publishUntrackedStatus
  rcases hrow : env.engine.drainRowFromFields s.account f (env.eventTs f) with
    ⟨account, fault | (_ | row)⟩ <;> rw [hrow] at haccount <;> dsimp only at haccount ⊢
  · exact ⟨haccount, rfl, rfl, fun _ => rfl⟩
  · split <;> exact ⟨haccount, rfl, rfl, fun _ => rfl⟩
  · split
    · exact ⟨haccount, rfl, rfl, fun _ => rfl⟩
    · split <;> exact ⟨haccount, rfl, rfl, fun _ => rfl⟩

theorem publishUntrackedStatus_true_iff :
    (env.publishUntrackedStatus s f).2.2 = some true ↔ StatusPasses env s.account s.book f := by
  unfold Live.publishUntrackedStatus
  rcases hrow : env.engine.drainRowFromFields s.account f (env.eventTs f) with
    ⟨account, fault | (_ | row)⟩
  · refine iff_of_false (by simp) ?_
    rintro (⟨hnone, -⟩ | ⟨hbuilt, -⟩)
    · simp [hrow] at hnone
    · simp [hrow] at hbuilt
  · dsimp only
    cases hid : env.engine.basketClientId env.cache f with
    | error fault =>
      refine iff_of_false (by simp) ?_
      rintro (⟨-, hok⟩ | ⟨hbuilt, -⟩)
      · simp [hid] at hok
      · simp [hrow] at hbuilt
    | ok id => exact iff_of_true rfl (.unbuilt (by rw [hrow]) hid)
  · dsimp only
    split
    · next hsame => exact iff_of_true rfl (.built (by rw [hrow]) (.inl hsame))
    · next hnews =>
      split
      · next hrefused =>
        refine iff_of_false (by simp) ?_
        rintro (⟨hnone, -⟩ | ⟨hbuilt, hpass⟩)
        · simp [hrow] at hnone
        · rw [hrow] at hbuilt
          obtain rfl := Option.some.inj (Except.ok.inj hbuilt)
          simp [hnews, hrefused] at hpass
      · next hsent =>
        exact iff_of_true rfl (.built (by rw [hrow]) (.inr (by simpa using hsent)))

theorem publishUntrackedStatus_false_iff :
    (env.publishUntrackedStatus s f).2.2 = some false ↔ StatusRefused env s.account s.book f := by
  unfold Live.publishUntrackedStatus StatusRefused
  rcases hrow : env.engine.drainRowFromFields s.account f (env.eventTs f) with
    ⟨account, fault | (_ | row)⟩
  · simp
  · cases env.engine.basketClientId env.cache f <;> simp
  · dsimp only
    split
    · next hsame => simp [hsame]
    · next hnews =>
      split
      · next hrefused => simp [hnews, hrefused]
      · next hsent => simp [hsent]

/-- An untracked fill leaves a trace exactly when none of the ways to drop it is taken. -/
theorem handleUntrackedNotification_kept_iff (hkind : f.kind = some .filled)
    (h : s.Unmarked env.engine.reprFloat f)
    (hseed : env.engine.seed s.account f.accountId = (s.account, .returned)) :
    (env.handleUntrackedNotification s f).Kept (env.tradeIn f) ↔
      s.plant.latched = true ∨ ¬ DropsUntracked env s.account s.book f := by
  unfold Live.handleUntrackedNotification
  cases hbasket : Account.truthy f.basketId with
  | none =>
    have hdrops : DropsUntracked env s.account s.book f := .basketMissing hbasket
    simp [kept_returned_nil, hdrops]
  | some basket =>
    rw [hseed]
    simp only [reduceCtorEq, if_false]
    split
    · next hid =>
      have hdrops : DropsUntracked env s.account s.book f := .accountMissing hid
      simp [kept_returned_nil, hdrops]
    · next hid =>
      obtain ⟨accountId, hid⟩ := Option.ne_none_iff_exists'.mp hid
      have hdrops : DropsUntracked env s.account s.book f ↔ StatusRefused env s.account s.book f ∨
          StatusPasses env s.account s.book f ∧
            OrderFields.fitsI64 f.fillIdentityTs = true ∧ Unreportable env.engine f := by
        constructor
        · rintro (hnone | hnone | hrefused | ⟨hpasses, hfits, hdrop⟩)
          · simp [hbasket] at hnone
          · simp [hid] at hnone
          · exact .inl hrefused
          · exact .inr ⟨hpasses, hfits, hdrop⟩
        · rintro (hrefused | ⟨hpasses, hfits, hdrop⟩)
          · exact .statusRefused hrefused
          · exact .unreportable hpasses hfits hdrop
      obtain ⟨haccount, hplant, hfills, hsent⟩ := @publishUntrackedStatus_frame env s f hseed
      have htrue := @publishUntrackedStatus_true_iff env s f
      have hfalse := @publishUntrackedStatus_false_iff env s f
      rw [hdrops, ← htrue, ← hfalse]
      rcases hstatus : env.publishUntrackedStatus s f with ⟨s₁, sent, _ | (_ | _)⟩ <;>
        rw [hstatus] at haccount hplant hfills hsent <;> dsimp only at haccount hplant hfills hsent
      · simp [kept_raised]
      · simp [Handled.Kept, Handled.returned, hsent, hplant]
      · have hunmarked : s₁.Unmarked env.engine.reprFloat f := by
          unfold Host.Unmarked
          rw [hfills]
          exact h
        have hfill := publishUntrackedFill_kept_iff hkind hunmarked hbasket
          (by rw [haccount]; exact hseed) (by rw [haccount]; exact hid)
        simp only [Handled.Kept, List.any_append, hsent, Bool.false_or] at hfill ⊢
        rw [hfill, hplant]
        simp

end

/-! ### A fill of the order stream -/

/-- A fill that the intake suppresses with a log line: the plant is not latched, the event can be
read and its account seeded, and its order was resolved but is not in the cache, or it is untracked
and the untracked path drops it. -/
structure SuppressesFill (env : Live) (s : Host) (event : OrderNotification) (f : OrderFields) :
    Prop where
  unlatched : s.plant.latched = false
  read : orderNotificationToFields env.engine.upper event = some f
  seeded : (env.engine.seed s.account f.accountId).2 = .returned
  drops : (∃ id, env.engine.resolveClientOrderId env.cache f = .ok (some id) ∧
      env.cache.order id = none) ∨
    env.engine.resolveClientOrderId env.cache f = .ok none ∧
      DropsUntracked env (env.engine.seed s.account f.accountId).1 s.book f

theorem kind_of_convert {upper : Char → List Char} {event : OrderNotification} {f : OrderFields}
    (h : orderNotificationToFields upper event = some f) : f.kind = event.effectiveKind upper := by
  unfold orderNotificationToFields at h
  simp only [Option.bind_eq_bind, Option.bind_eq_some_iff] at h
  obtain ⟨-, -, symbol, -, id, -, hf⟩ := h
  rw [← Option.some.inj hf]

theorem handleOrderNotification_kept_iff {env : Live} {s : Host} {f : OrderFields}
    (hkind : f.kind = some .filled) (h : s.Unmarked env.engine.reprFloat f)
    (hsize : ∀ id, env.engine.resolveClientOrderId env.cache f = .ok (some id) →
      f.fillSize ≠ none) :
    (env.handleOrderNotification s f).Kept (env.tradeIn f) ↔ s.plant.latched = true ∨
      ¬ ((env.engine.seed s.account f.accountId).2 = .returned ∧
        ((∃ id, env.engine.resolveClientOrderId env.cache f = .ok (some id) ∧
            env.cache.order id = none) ∨
          env.engine.resolveClientOrderId env.cache f = .ok none ∧
            DropsUntracked env (env.engine.seed s.account f.accountId).1 s.book f)) := by
  have hagain := @seed_seed env.engine s.account f
  unfold Live.handleOrderNotification
  rcases hseed : env.engine.seed s.account f.accountId with ⟨account, _ | _⟩
  · rw [hseed] at hagain
    have hunmarked : ({ s with account := account } : Host).Unmarked env.engine.reprFloat f := h
    simp only [reduceCtorEq, if_false, true_and]
    cases hresolve : env.engine.resolveClientOrderId env.cache f with
    | error fault => simp [kept_raised]
    | ok id? =>
      cases id? with
      | none =>
        dsimp only
        rw [handleUntrackedNotification_kept_iff hkind hunmarked (hagain rfl)]
        simp
      | some id =>
        dsimp only
        cases horder : env.cache.order id with
        | none => simp [kept_returned_nil, horder]
        | some order =>
          have hkept := @handleTracked_kept env { s with account := account } f id order hkind
            (hsize id hresolve) hunmarked
          simp [hkept, horder]
  · simp [kept_raised]

/-- A fill of the order stream that is not marked, and that carries its size if it belongs to a
tracked order, reaches the engine, or the plant is latched, or the handler raises, exactly when it is
not one of the fills that the intake suppresses. -/
theorem dispatchOrderEvent_kept_iff (env : Live) (s : Host) (event : OrderNotification)
    (hkind : event.effectiveKind env.engine.upper = some .filled)
    (h : ∀ f, orderNotificationToFields env.engine.upper event = some f →
      s.Unmarked env.engine.reprFloat f)
    (hsize : ∀ f id, orderNotificationToFields env.engine.upper event = some f →
      env.engine.resolveClientOrderId env.cache f = .ok (some id) → f.fillSize ≠ none) :
    (env.dispatchOrderEvent s event).Kept (env.tradeOf event) ↔ ¬ ∃ f, SuppressesFill env s event f := by
  unfold Live.dispatchOrderEvent
  cases hread : orderNotificationToFields env.engine.upper event with
  | none =>
    refine iff_of_true (kept_raised _ _) ?_
    rintro ⟨f, hsuppress⟩
    have := hsuppress.read
    simp [hread] at this
  | some f =>
    have hf : f.kind = some .filled := (kind_of_convert hread).trans hkind
    have htrade : env.tradeOf event = env.tradeIn f := by
      rw [Live.tradeOf, hread]
      rfl
    dsimp only
    rw [htrade, handleOrderNotification_kept_iff hf (h f hread) fun id => hsize f id hread]
    constructor
    · rintro hkept ⟨f', hunlatched, hread', hseeded, hdrops⟩
      obtain rfl := Option.some.inj (hread.symm.trans hread')
      rcases hkept with hlatched | hnot
      · simp [hunlatched] at hlatched
      · exact hnot ⟨hseeded, hdrops⟩
    · intro hnone
      by_cases hlatched : s.plant.latched = true
      · exact .inl hlatched
      · refine .inr fun hdrop => hnone ⟨f, by simpa using hlatched, hread, hdrop.1, hdrop.2⟩

def openCache : Cache where
  order id := if id = "T1" then
      some ⟨.accepted, "MNQZ6-CME.RITHMIC", .buy, .limit, 2, some "21000.25", none, some 2, 3⟩
    else none
  clientOrderId basket := if basket = "B1" then some "T1" else none
  venueOrderId id := if id = "T1" then some "B1" else none

/-- A notification during which every call returns. -/
def Live.accepting (cache : Cache) : Live where
  engine := .accepting 9
  cache := cache
  bindOk _ _ := true
  wirePriceLike _ _ := .ok "21000.25"
  emits _ := true

/-- The state of a client that armed its plant and saw no fill yet. -/
def Host.armed : Host where
  fills := .new 10000
  book := .new 10000
  plant := ⟨.live⟩

def sampleFill : OrderNotification :=
  { notifyTypeName := some "FILL", basketId := some "B1", exchangeOrderId := some "X1"
    userTag := some "T1", accountId := some "ACC", symbol := some "MNQZ6", exchange := some "CME"
    quantity := some 2, totalFillSize := some 1, totalUnfilledSize := some 1, fillSize := some 1
    fillPrice := some samplePrice, transactionType := some 1, priceType := some 1
    duration := some 1, fillId := some "F1", tsEventNs := some 5 }

theorem unmarked_armed {reprFloat : WirePrice → String} {f : OrderFields} :
    Host.armed.Unmarked reprFloat f :=
  fun _ _ => rfl

theorem dispatchOrderEvent_kept_iff_tracked :
    ((Live.accepting openCache).dispatchOrderEvent .armed sampleFill).Kept
        ((Live.accepting openCache).tradeOf sampleFill) ∧
      ¬ ∃ f, SuppressesFill (.accepting openCache) .armed sampleFill f := by
  have hkept : ((Live.accepting openCache).dispatchOrderEvent .armed sampleFill).Kept
      ((Live.accepting openCache).tradeOf sampleFill) :=
    .inr (.inl rfl)
  refine ⟨hkept, (dispatchOrderEvent_kept_iff (.accepting openCache) .armed sampleFill rfl
    (fun _ _ => unmarked_armed) ?_).mp hkept⟩
  intro f id hread _
  obtain ⟨f', hread', hsize⟩ : ∃ f', orderNotificationToFields asciiUpper sampleFill = some f' ∧
      f'.fillSize = some 1 := ⟨_, rfl, rfl⟩
  obtain rfl := Option.some.inj (hread.symm.trans hread')
  simp [hsize]

def emptyCache : Cache where
  order _ := none
  clientOrderId _ := none
  venueOrderId _ := none

def Live.refusing (cache : Cache) : Live :=
  { Live.accepting cache with engine := { Engine.accepting 9 with sendStatus := fun _ => false } }

/-- The fill of an untracked order whose status cannot be published is suppressed. -/
theorem dispatchOrderEvent_suppresses :
    ∃ (env : Live) (s : Host) (event : OrderNotification),
      event.effectiveKind env.engine.upper = some .filled ∧
        (∀ f, orderNotificationToFields env.engine.upper event = some f →
          s.Unmarked env.engine.reprFloat f) ∧
        ¬ (env.dispatchOrderEvent s event).Kept (env.tradeOf event) := by
  refine ⟨.refusing emptyCache, .armed, sampleFill, rfl, fun _ _ => unmarked_armed, ?_⟩
  rintro (hraised | hfill | hlatched)
  · cases hraised
  · cases hfill
  · cases hlatched

end RithmicNt.Adapter
