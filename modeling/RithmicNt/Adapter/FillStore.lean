import RithmicNt.Adapter.IntakeFills

/-! The fill reconciliation, and what it and the intake do to the dedup store: one lookup for each
fill, and a key is added only after a lookup missed it. -/

namespace RithmicNt.Adapter

open RithmicNt.Lib RithmicNt.Exec

/-! ### Fill reconciliation -/

structure FillCommand where
  instrumentId : Option String := none
  venueOrderId : Option String := none
  deriving DecidableEq, Repr

namespace Engine

variable (e : Engine) (cmd : FillCommand)

/-- The time of the status report that precedes a fill: the clock, where the venue sent none. -/
def statusTs (row : DrainRow) : Int := if row.tsEvent = 0 then e.clock else row.tsEvent

/-- The part of the loop body of `generate_fill_reports` after the lookup missed. -/
def reportFill (s : Host) (row : DrainRow) (key : String) :
    Host × Except Fault (Option (String × FillReport)) :=
  match e.fillReportFromFields s.account row.fields row.tsEvent with
  | (account, .error fault) => ({ s with account := account }, .error fault)
  | (account, .ok none) => ({ s with account := account }, .ok none)
  | (account, .ok (some report)) =>
    match e.drainRowFromFields account row.fields (e.statusTs row) with
    | (account, .error fault) => ({ s with account := account }, .error fault)
    | (account, .ok none) => ({ s with account := account }, .ok none)
    | (account, .ok (some status)) =>
      let s := { s with account := account }
      if e.sendStatus status.report = false then (s, .ok none)
      else (s.markFillKey key, .ok (some (key, report)))

/-- The loop body of `generate_fill_reports`, with the key of the report. -/
def reconRow (s : Host) (raw : OrderNotification) :
    Host × Except Fault (Option (String × FillReport)) :=
  match e.interpretRow s.account raw with
  | (account, .error fault) => ({ s with account := account }, .error fault)
  | (account, .ok none) => ({ s with account := account }, .ok none)
  | (account, .ok (some row)) =>
    let s := { s with account := account }
    if row.fields.kind ≠ some .filled ∨
        e.matchesInstrument row.fields cmd.instrumentId cmd.venueOrderId = false then (s, .ok none)
    else match row.fields.fillDedupKey e.reprFloat row.tsEvent with
      | none => (s, .error .value)
      | some key =>
        let (s, seen) := s.fillKeySeen key
        if seen then (s, .ok none) else e.reportFill s row key

/-- `generate_fill_reports`, once the drain has answered. -/
def generateFillReports (s : Host) : List OrderNotification →
    Host × Except Fault (List (String × FillReport))
  | [] => (s, .ok [])
  | raw :: rest =>
    match e.reconRow cmd s raw with
    | (s, .error fault) => (s, .error fault)
    | (s, .ok new) =>
      let (s, reports) := generateFillReports s rest
      (s, reports.map fun reports => new.toList ++ reports)

end Engine

/-- A fill has the same key in a drain as in the order stream. -/
theorem reconKey_eq_liveKey {e : Engine} {a a' : Account} {raw : OrderNotification} {row : DrainRow}
    (h : e.interpretRow a raw = (a', .ok (some row))) :
    orderNotificationToFields e.upper raw = some row.fields ∧
      row.fields.fillDedupKey e.reprFloat row.tsEvent =
        row.fields.fillDedupKey e.reprFloat row.fields.fillIdentityTs := by
  have hinterprets := Engine.interpretRow_some h
  exact ⟨hinterprets.fields, by rw [hinterprets.tsEvent]⟩

/-! ### What a step does to the fill store -/

/-- `StoreStep s keys t`: from `s` to `t` the store is left alone, or looked up, or a key that it
missed is added; `keys` are the keys that were added and not handed over. -/
inductive StoreStep (s : Host) : List String → Host → Prop
  | idle {t : Host} : t.fills = s.fills → t.uses = s.uses → t.handed = s.handed → StoreStep s [] t
  | look {t : Host} (key : String) : t.fills = (s.fills.has key).1 →
      t.uses = s.uses ++ [Recency.Use.look key (s.fills.has key).2] → t.handed = s.handed →
      StoreStep s [] t
  | mark {t : Host} (key : String) : s.fills.contains key = false →
      t.fills = s.fills.insert key () → t.uses = s.uses ++ [Recency.Use.look key false, .mark key] →
      t.handed = s.handed → StoreStep s [key] t
  | deal {t : Host} (key : String) : s.fills.contains key = false →
      t.fills = s.fills.insert key () → t.uses = s.uses ++ [Recency.Use.look key false, .mark key] →
      t.handed = s.handed ++ [key] → StoreStep s [] t

namespace StoreStep

theorem of_store {s s₀ t : Host} {keys : List String} (h : StoreStep s₀ keys t)
    (hfills : s₀.fills = s.fills) (huses : s₀.uses = s.uses) (hhanded : s₀.handed = s.handed) :
    StoreStep s keys t := by
  cases h with
  | idle h₁ h₂ h₃ => exact .idle (h₁.trans hfills) (h₂.trans huses) (h₃.trans hhanded)
  | look key h₁ h₂ h₃ =>
    rw [hfills] at h₁ h₂
    exact .look key h₁ (huses ▸ h₂) (h₃.trans hhanded)
  | mark key hmiss h₁ h₂ h₃ =>
    rw [hfills] at hmiss h₁
    exact .mark key hmiss h₁ (huses ▸ h₂) (h₃.trans hhanded)
  | deal key hmiss h₁ h₂ h₃ =>
    rw [hfills] at hmiss h₁
    exact .deal key hmiss h₁ (huses ▸ h₂) (hhanded ▸ h₃)

theorem refl (s : Host) : StoreStep s [] s := .idle rfl rfl rfl

end StoreStep

theorem fillKeySeen_of_marked {s : Host} {key : String} (h : s.fills.contains key = true) :
    s.fillKeySeen key =
      ({ s with fills := s.fills.touch key, uses := s.uses ++ [Recency.Use.look key true] },
        true) := by
  unfold Host.fillKeySeen Lru.has
  rw [h]
  rfl

theorem storeStep_hit {s t : Host} {key : String} (hseen : s.fills.contains key = true)
    (hfills : t.fills = s.fills.touch key) (huses : t.uses = s.uses ++ [Recency.Use.look key true])
    (hhanded : t.handed = s.handed) : StoreStep s [] t := by
  refine .look key ?_ ?_ hhanded
  · simp [Lru.has, hseen, hfills]
  · simp [Lru.has, hseen, huses]

theorem storeStep_miss {s t : Host} {key : String} (hseen : s.fills.contains key = false)
    (hfills : t.fills = s.fills) (huses : t.uses = s.uses ++ [Recency.Use.look key false])
    (hhanded : t.handed = s.handed) : StoreStep s [] t := by
  refine .look key ?_ ?_ hhanded
  · simp [Lru.has, hseen, hfills]
  · simp [Lru.has, hseen, huses]

section

variable (env : Live) (s : Host) (f : OrderFields)

theorem emit_storeStep (id : String) (event : OrderEvent) (ts : Int) :
    StoreStep s [] (env.emit s id event ts).host := by
  unfold Live.emit
  split <;> exact .refl s

theorem handleTrackedFill_storeStep (id : String) (order : TrackedOrder) (venueId : String)
    (size : Int) (trade : String) :
    StoreStep s [] (env.handleTrackedFill s f id order venueId size trade).host := by
  unfold Live.handleTrackedFill
  split
  · exact .refl s
  · next key _ =>
    cases hseen : s.fills.contains key with
    | true =>
      rw [fillKeySeen_of_marked hseen]
      exact storeStep_hit hseen rfl rfl rfl
    | false =>
      rw [fillKeySeen_of_unmarked hseen]
      simp only [Bool.false_eq_true, if_false]
      split
      · exact storeStep_miss hseen rfl rfl rfl
      · exact storeStep_miss hseen rfl rfl rfl
      · -- The overfill latch does not touch the store.
        split
        · split <;> exact storeStep_miss hseen rfl rfl rfl
        · refine .deal key hseen ?_ ?_ ?_ <;>
            simp only [Handled.returned, Host.markFillKey, Host.hand, Host.latch] <;> split <;> simp

theorem handleTracked_storeStep (id : String) (order : TrackedOrder) :
    StoreStep s [] (env.handleTracked s f id order).host := by
  unfold Live.handleTracked
  split
  · exact .refl s
  · dsimp only
    split
    · exact .refl s
    · split
      · exact .refl s
      · next action reason _ =>
        unfold Live.handleAction
        cases action with
        | accepted =>
          dsimp only
          split
          · exact emit_storeStep ..
          · exact .refl s
        | updated =>
          dsimp only
          split
          · exact .refl s
          · exact emit_storeStep ..
        | triggered =>
          dsimp only
          split
          · exact .refl s
          · exact emit_storeStep ..
        | filled =>
          dsimp only
          split
          · exact .refl s
          · split
            · exact .refl s
            · exact handleTrackedFill_storeStep ..
        | rejected => exact emit_storeStep ..
        | modifyRejected => exact emit_storeStep ..
        | cancelRejected => exact emit_storeStep ..
        | canceled => exact emit_storeStep ..

theorem publishUntrackedFill_storeStep : StoreStep s [] (env.publishUntrackedFill s f).host := by
  unfold Live.publishUntrackedFill
  split
  · exact .refl s
  · split
    · exact .refl s
    · next key _ =>
      cases hseen : s.fills.contains key with
      | true =>
        rw [fillKeySeen_of_marked hseen]
        exact storeStep_hit hseen rfl rfl rfl
      | false =>
        rw [fillKeySeen_of_unmarked hseen]
        simp only [Bool.false_eq_true, if_false]
        split
        · exact storeStep_miss hseen rfl rfl rfl
        · exact storeStep_miss hseen rfl rfl rfl
        · split
          · exact storeStep_miss hseen rfl rfl rfl
          · exact .deal key hseen rfl (by simp [Handled.returned, Host.markFillKey, Host.hand]) rfl

theorem publishUntrackedStatus_store :
    (env.publishUntrackedStatus s f).1.fills = s.fills ∧
      (env.publishUntrackedStatus s f).1.uses = s.uses ∧
      (env.publishUntrackedStatus s f).1.handed = s.handed := by
  unfold Live.publishUntrackedStatus
  dsimp only
  repeat' split
  all_goals exact ⟨rfl, rfl, rfl⟩

theorem handleUntrackedNotification_storeStep :
    StoreStep s [] (env.handleUntrackedNotification s f).host := by
  unfold Live.handleUntrackedNotification
  dsimp only
  split
  · exact .refl s
  · split
    · exact .idle rfl rfl rfl
    · split
      · exact .idle rfl rfl rfl
      · obtain ⟨hfills, huses, hhanded⟩ := publishUntrackedStatus_store env
          { s with account := (env.engine.seed s.account f.accountId).1 } f
        split
        · next hstatus =>
          rw [hstatus] at hfills huses hhanded
          exact .idle hfills huses hhanded
        · next hstatus =>
          rw [hstatus] at hfills huses hhanded
          exact .idle hfills huses hhanded
        · next hstatus =>
          rw [hstatus] at hfills huses hhanded
          exact .of_store (publishUntrackedFill_storeStep env _ f) hfills huses hhanded

/-- A live notification looks the fill store up at most once, and adds a key only with a fill that it
hands over. -/
theorem dispatchOrderEvent_storeStep (event : OrderNotification) :
    StoreStep s [] (env.dispatchOrderEvent s event).host := by
  unfold Live.dispatchOrderEvent
  split
  · exact .refl s
  · next f _ =>
    unfold Live.handleOrderNotification
    dsimp only
    split
    · exact .idle rfl rfl rfl
    · split
      · exact .idle rfl rfl rfl
      · exact .of_store (handleUntrackedNotification_storeStep env _ f) rfl rfl rfl
      · split
        · exact .idle rfl rfl rfl
        · exact .of_store (handleTracked_storeStep env _ f _ _) rfl rfl rfl

end

/-! ### The rows of a fill reconciliation -/

section

variable (e : Engine) (cmd : FillCommand)

/-- The row is a fill that the command asks for. -/
structure AskedFill (s : Host) (raw : OrderNotification) (a : Account) (row : DrainRow) : Prop where
  read : e.interpretRow s.account raw = (a, .ok (some row))
  filled : row.fields.kind = some .filled
  asked : e.matchesInstrument row.fields cmd.instrumentId cmd.venueOrderId = true

/-- Its key is not in the store. -/
structure NewFill (s : Host) (raw : OrderNotification) (a : Account) (row : DrainRow) (key : String) :
    Prop extends AskedFill e cmd s raw a row where
  identity : row.fields.fillDedupKey e.reprFloat row.tsEvent = some key
  unmarked : s.fills.contains key = false

/-- The row is a new fill whose report can be built, and whose order status is published. -/
def Reportable (s : Host) (raw : OrderNotification) (key : String) : Prop :=
  ∃ a row a₁ report a₂ status, NewFill e cmd s raw a row key ∧
    e.fillReportFromFields a row.fields row.tsEvent = (a₁, .ok (some report)) ∧
    e.drainRowFromFields a₁ row.fields (e.statusTs row) = (a₂, .ok (some status)) ∧
    e.sendStatus status.report = true

/-- The row raises: it cannot be interpreted, the time of the fill does not fit the key, or one of the
two reports raises. -/
inductive RowRaises (s : Host) (raw : OrderNotification) : Prop
  | read {a : Account} {fault : Fault} : e.interpretRow s.account raw = (a, .error fault) →
      RowRaises s raw
  | identity {a : Account} {row : DrainRow} : AskedFill e cmd s raw a row →
      row.fields.fillDedupKey e.reprFloat row.tsEvent = none → RowRaises s raw
  | report {a a₁ : Account} {row : DrainRow} {key : String} {fault : Fault} :
      NewFill e cmd s raw a row key →
      e.fillReportFromFields a row.fields row.tsEvent = (a₁, .error fault) → RowRaises s raw
  | status {a a₁ a₂ : Account} {row : DrainRow} {key : String} {report : FillReport}
      {fault : Fault} : NewFill e cmd s raw a row key →
      e.fillReportFromFields a row.fields row.tsEvent = (a₁, .ok (some report)) →
      e.drainRowFromFields a₁ row.fields (e.statusTs row) = (a₂, .error fault) → RowRaises s raw

/-- What a row of the drain can do. -/
inductive ReconCase (s : Host) (raw : OrderNotification) :
    Host × Except Fault (Option (String × FillReport)) → Prop
  | passed {t : Host} : StoreStep s [] t → ReconCase s raw (t, .ok none)
  | raised {t : Host} {fault : Fault} : RowRaises e cmd s raw → StoreStep s [] t →
      ReconCase s raw (t, .error fault)
  | reported {t : Host} {key : String} {report : FillReport} : Reportable e cmd s raw key →
      StoreStep s [key] t → ReconCase s raw (t, .ok (some (key, report)))

theorem reportFill_case {s : Host} {raw : OrderNotification} {a : Account} {row : DrainRow}
    {key : String} (h : NewFill e cmd s raw a row key) :
    ReconCase e cmd s raw
      (e.reportFill { s with account := a, uses := s.uses ++ [Recency.Use.look key false] } row
        key) := by
  unfold Engine.reportFill
  dsimp only
  rcases hreport : e.fillReportFromFields a row.fields row.tsEvent with ⟨a₁, fault | (_ | report)⟩
  · exact .raised (.report h hreport) (storeStep_miss h.unmarked rfl rfl rfl)
  · exact .passed (storeStep_miss h.unmarked rfl rfl rfl)
  · dsimp only
    rcases hstatus : e.drainRowFromFields a₁ row.fields (e.statusTs row) with
      ⟨a₂, fault | (_ | status)⟩
    · exact .raised (.status h hreport hstatus) (storeStep_miss h.unmarked rfl rfl rfl)
    · exact .passed (storeStep_miss h.unmarked rfl rfl rfl)
    · dsimp only
      split
      · exact .passed (storeStep_miss h.unmarked rfl rfl rfl)
      · next hsend =>
        refine .reported ⟨a, row, a₁, report, a₂, status, h, hreport, hstatus, by simpa using hsend⟩ ?_
        exact .mark key h.unmarked rfl (by simp [Host.markFillKey]) rfl

theorem reconRow_case (s : Host) (raw : OrderNotification) :
    ReconCase e cmd s raw (e.reconRow cmd s raw) := by
  unfold Engine.reconRow
  rcases hread : e.interpretRow s.account raw with ⟨a, fault | (_ | row)⟩
  · exact .raised (.read hread) (.idle rfl rfl rfl)
  · exact .passed (.idle rfl rfl rfl)
  · dsimp only
    split
    · exact .passed (.idle rfl rfl rfl)
    · next hwanted =>
      obtain ⟨hfilled, hasked⟩ := not_or.mp hwanted
      have hfill : AskedFill e cmd s raw a row := ⟨hread, not_not.mp hfilled, by simpa using hasked⟩
      split
      · next hkey => exact .raised (.identity hfill hkey) (.idle rfl rfl rfl)
      · next key hkey =>
        cases hseen : ({ s with account := a } : Host).fills.contains key with
        | true =>
          rw [fillKeySeen_of_marked hseen]
          exact .passed (storeStep_hit hseen rfl rfl rfl)
        | false =>
          rw [fillKeySeen_of_unmarked hseen]
          exact reportFill_case e cmd ⟨hfill, hkey, hseen⟩

end

/-! ### Invariants of the store -/

/-- The store is what its uses make of an empty one. -/
structure Logged (cap : Nat) (s : Host) : Prop where
  log : ∃ l, Recency.Log cap s.uses l ∧ s.fills.Orders l
  bound : s.fills.maxSize = cap

/-- A key was handed over, or waits in the list of a call, at most as often as it was added. -/
def Tally (s : Host) (pending : List String) : Prop :=
  ∀ k, s.handed.count k + pending.count k ≤ (Recency.marks s.uses).count k

/-- Every key that was added was handed over, or waits in the list of a call. -/
def Covered (s : Host) (pending : List String) : Prop :=
  ∀ k ∈ Recency.marks s.uses, k ∈ s.handed ∨ k ∈ pending

namespace StoreStep

variable {s t : Host} {keys pending : List String}

theorem logged {cap : Nat} (h : StoreStep s keys t) (hs : Logged cap s) : Logged cap t := by
  obtain ⟨⟨l, hlog, horders⟩, hbound⟩ := hs
  cases h with
  | idle hfills huses _ => exact ⟨⟨l, huses ▸ hlog, hfills ▸ horders⟩, hfills ▸ hbound⟩
  | look key hfills huses _ =>
    obtain ⟨hnext, hhit⟩ := horders.has key
    refine ⟨⟨_, ?_, hfills ▸ hnext⟩, by rw [hfills, Lru.maxSize_has, hbound]⟩
    rw [huses, hhit]
    exact hlog.look key
  | mark key hmiss hfills huses _ =>
    rw [horders.contains_eq] at hmiss
    refine ⟨⟨_, ?_, hfills ▸ horders.insert key ()⟩, by rw [hfills, Lru.maxSize_insert, hbound]⟩
    rw [huses, hbound]
    exact hlog.mark key hmiss
  | deal key hmiss hfills huses _ =>
    rw [horders.contains_eq] at hmiss
    refine ⟨⟨_, ?_, hfills ▸ horders.insert key ()⟩, by rw [hfills, Lru.maxSize_insert, hbound]⟩
    rw [huses, hbound]
    exact hlog.mark key hmiss

theorem tally (h : StoreStep s keys t) (hs : Tally s pending) : Tally t (pending ++ keys) := by
  intro k
  have hk := hs k
  cases h with
  | idle _ huses hhanded => simpa [huses, hhanded] using hk
  | look key _ huses hhanded => simpa [huses, hhanded] using hk
  | mark key _ _ huses hhanded =>
    simp only [huses, hhanded, Recency.marks_append, Recency.marks_look_mark, List.count_append]
    omega
  | deal key _ _ huses hhanded =>
    simp only [huses, hhanded, Recency.marks_append, Recency.marks_look_mark, List.count_append,
      List.append_nil]
    omega

theorem covered (h : StoreStep s keys t) (hs : Covered s pending) : Covered t (pending ++ keys) := by
  intro k hk
  cases h with
  | idle _ huses hhanded =>
    rw [huses] at hk
    simpa [hhanded] using hs k hk
  | look key _ huses hhanded =>
    rw [huses, Recency.marks_append, Recency.marks_look, List.append_nil] at hk
    simpa [hhanded] using hs k hk
  | mark key _ _ huses hhanded =>
    rw [huses, Recency.marks_append, Recency.marks_look_mark] at hk
    rcases List.mem_append.mp hk with hk | hk
    · rcases hs k hk with hk | hk
      · exact .inl (hhanded ▸ hk)
      · exact .inr (List.mem_append_left _ hk)
    · exact .inr (List.mem_append_right _ hk)
  | deal key _ _ huses hhanded =>
    rw [huses, Recency.marks_append, Recency.marks_look_mark] at hk
    rw [hhanded]
    rcases List.mem_append.mp hk with hk | hk
    · rcases hs k hk with hk | hk
      · exact .inl (List.mem_append_left _ hk)
      · exact .inr (List.mem_append_left _ hk)
    · exact .inl (List.mem_append_right _ hk)

end StoreStep

/-- Some steps, and the keys that they added and did not hand over. -/
inductive StoreSteps : Host → List String → Host → Prop
  | refl (s : Host) : StoreSteps s [] s
  | head {s t u : Host} {keys more : List String} : StoreStep s keys t → StoreSteps t more u →
      StoreSteps s (keys ++ more) u

namespace StoreSteps

variable {s t : Host} {keys pending : List String}

theorem logged {cap : Nat} (h : StoreSteps s keys t) (hs : Logged cap s) : Logged cap t := by
  induction h with
  | refl _ => exact hs
  | head hstep _ ih => exact ih (hstep.logged hs)

theorem tally (h : StoreSteps s keys t) (hs : Tally s pending) : Tally t (pending ++ keys) := by
  induction h generalizing pending with
  | refl _ => simpa using hs
  | head hstep _ ih => simpa using ih (hstep.tally hs)

theorem covered (h : StoreSteps s keys t) (hs : Covered s pending) :
    Covered t (pending ++ keys) := by
  induction h generalizing pending with
  | refl _ => simpa using hs
  | head hstep _ ih => simpa using ih (hstep.covered hs)

end StoreSteps

/-! ### A call of the fill reconciliation -/

/-- The loop over `events` from `s` comes to `raw` in the state `met`, after the rows `passed`. -/
inductive ReachesRow (e : Engine) (cmd : FillCommand) : Host → List OrderNotification →
    List (Host × OrderNotification) → Host → OrderNotification → Prop
  | here {s : Host} {raw : OrderNotification} {rest : List OrderNotification} :
      ReachesRow e cmd s (raw :: rest) [] s raw
  | later {s t met : Host} {raw raw' : OrderNotification} {rest : List OrderNotification}
      {new : Option (String × FillReport)} {passed : List (Host × OrderNotification)} :
      e.reconRow cmd s raw = (t, .ok new) → ReachesRow e cmd t rest passed met raw' →
      ReachesRow e cmd s (raw :: rest) ((s, raw) :: passed) met raw'

section

variable {e : Engine} {cmd : FillCommand}

/-- The keys that a call added are the keys of the reports it returns. -/
theorem generateFillReports_steps (s : Host) (events : List OrderNotification) :
    ∃ keys, StoreSteps s keys (e.generateFillReports cmd s events).1 ∧
      ∀ reports, (e.generateFillReports cmd s events).2 = .ok reports →
        keys = reports.map Prod.fst := by
  induction events generalizing s with
  | nil =>
    refine ⟨[], .refl s, fun reports h => ?_⟩
    obtain rfl := Except.ok.inj h
    rfl
  | cons raw rest ih =>
    have hcase := reconRow_case e cmd s raw
    unfold Engine.generateFillReports
    rcases hrow : e.reconRow cmd s raw with ⟨t, fault | new⟩
    · rw [hrow] at hcase
      cases hcase with
      | raised _ hstep => exact ⟨_, .head hstep (.refl t), fun _ h => by cases h⟩
    · rw [hrow] at hcase
      obtain ⟨keys, hsteps, hkeys⟩ := ih t
      dsimp only
      cases hcase with
      | passed hstep =>
        refine ⟨_, .head hstep hsteps, fun reports h => ?_⟩
        obtain ⟨later, hlater, rfl⟩ := map_eq_ok.mp h
        simp [hkeys later hlater]
      | reported _ hstep =>
        refine ⟨_, .head hstep hsteps, fun reports h => ?_⟩
        obtain ⟨later, hlater, rfl⟩ := map_eq_ok.mp h
        simp [hkeys later hlater]

theorem generateFillReports_error {s : Host} {events : List OrderNotification} {fault : Fault}
    (h : (e.generateFillReports cmd s events).2 = .error fault) :
    ∃ passed met raw, ReachesRow e cmd s events passed met raw ∧ RowRaises e cmd met raw := by
  induction events generalizing s fault with
  | nil => cases h
  | cons raw rest ih =>
    have hcase := reconRow_case e cmd s raw
    unfold Engine.generateFillReports at h
    rcases hrow : e.reconRow cmd s raw with ⟨t, fault' | new⟩
    · rw [hrow] at hcase
      cases hcase with
      | raised hraises _ => exact ⟨[], s, raw, .here, hraises⟩
    · rw [hrow] at h
      dsimp only at h
      cases hrest : (e.generateFillReports cmd t rest).2 with
      | ok reports =>
        rw [hrest] at h
        cases h
      | error fault' =>
        obtain ⟨passed, met, raw', hreach, hraises⟩ := ih hrest
        exact ⟨_, met, raw', .later hrow hreach, hraises⟩

theorem generateFillReports_error_steps {s : Host} {events : List OrderNotification} {fault : Fault}
    (h : (e.generateFillReports cmd s events).2 = .error fault)
    (hnone : ∀ passed met raw, ReachesRow e cmd s events passed met raw → RowRaises e cmd met raw →
      ∀ p ∈ passed, ∀ key, ¬ Reportable e cmd p.1 p.2 key) :
    StoreSteps s [] (e.generateFillReports cmd s events).1 := by
  induction events generalizing s fault with
  | nil => cases h
  | cons raw rest ih =>
    have hcase := reconRow_case e cmd s raw
    unfold Engine.generateFillReports at h ⊢
    rcases hrow : e.reconRow cmd s raw with ⟨t, fault' | new⟩
    · rw [hrow] at hcase
      cases hcase with
      | raised _ hstep => exact .head hstep (.refl t)
    · rw [hrow] at h hcase
      dsimp only at h ⊢
      cases hrest : (e.generateFillReports cmd t rest).2 with
      | ok reports =>
        rw [hrest] at h
        cases h
      | error fault' =>
        cases hcase with
        | passed hstep =>
          refine .head hstep (ih hrest fun passed met raw' hreach hraises p hp => ?_)
          exact hnone _ met raw' (.later hrow hreach) hraises p (List.mem_cons_of_mem _ hp)
        | reported hreportable _ =>
          obtain ⟨passed, met, raw', hreach, hraises⟩ := generateFillReports_error hrest
          exact absurd hreportable
            (hnone _ met raw' (.later hrow hreach) hraises _ List.mem_cons_self _)

theorem generateFillReports_idle_steps {s : Host} {events : List OrderNotification}
    (hnone : ∀ passed met raw, ReachesRow e cmd s events passed met raw →
      ∀ key, ¬ Reportable e cmd met raw key) :
    StoreSteps s [] (e.generateFillReports cmd s events).1 := by
  induction events generalizing s with
  | nil => exact .refl s
  | cons raw rest ih =>
    have hcase := reconRow_case e cmd s raw
    unfold Engine.generateFillReports
    rcases hrow : e.reconRow cmd s raw with ⟨t, fault' | new⟩
    · rw [hrow] at hcase
      cases hcase with
      | raised _ hstep => exact .head hstep (.refl t)
    · rw [hrow] at hcase
      cases hcase with
      | passed hstep =>
        exact .head hstep (ih fun passed met raw' hreach =>
          hnone _ met raw' (.later hrow hreach))
      | reported hreportable _ => exact absurd hreportable (hnone _ s raw .here _)

end

end RithmicNt.Adapter
