import Mathlib.Data.Fintype.Basic
import RithmicNt.Adapter.PnlExposure

/-! The position reports of a mass status against the rows of the current stream. -/

namespace RithmicNt.Adapter.Pnl

open RithmicNt.Lib RithmicNt.Exec

section

variable (env : Env)

/-- A row may be about an instrument: it has that id, or it has none and either no symbol or the
instrument's. -/
inductive Concerns (id : String) (d : InstrumentPnl) : Prop
  | same : idOf env d = .ok id → Concerns id d
  | maybe {e : IdentError} : idOf env d = .error e →
      d.mark = anySymbol ∨ d.mark = strip (symbolOf id) → Concerns id d

/-- The instrument's last row on the current stream was readable, or the stream has been live for
the settle window with no unreadable row of the instrument. -/
def Known (s : State) (id : String) : Prop :=
  (∃ before d after, s.returned = before ++ d :: after ∧ Concerns env id d ∧
    (instrumentPnlToFields env d).isSome = true ∧ ∀ x ∈ after, ¬ Concerns env id x) ∨
  (∃ live ∈ s.client.liveSince, live + pnlSettleNs ≤ s.client.clock ∧
    ∀ d ∈ s.returned, Concerns env id d → (instrumentPnlToFields env d).isSome = true)

/-- A row of a loaded instrument whose symbol is not marked. -/
def Client.GetsReport (c : Client) (cache : PositionCache) (fields : Position) : Prop :=
  cache.loaded fields.instrumentId = true ∧
    (strip fields.symbol ≠ "" → strip fields.symbol ∉ c.unreadable)

/-- The client has an account id, or a row that gets a report brings one. -/
def AccountAtHand (c : Client) (cache : PositionCache) (live : Nat) : Prop :=
  c.account.id.isSome = true ∨ ∃ fields ∈ (c.rowsSeenSince live).entries.map (·.2),
    (Account.truthy fields.accountId).isSome = true ∧ c.GetsReport cache fields

/-- A mass status that may add FLAT reports finds, for every loaded instrument of an open position,
its symbol unmarked, and its row on the current stream or the stream settled. -/
def FlatsSettled (c : Client) (cache : PositionCache) : Prop :=
  c.positionsKnown = true → ∀ live ∈ c.liveSince, AccountAtHand c cache live →
    ∀ id ∈ cache.opens, cache.loaded id = true → strip (symbolOf id) ∉ c.unreadable ∧
      (live + pnlSettleNs ≤ c.clock ∨ live ≤ (c.seen.get? id).getD 0)

instance (c : Client) (cache : PositionCache) (live : Nat) :
    Decidable (AccountAtHand c cache live) := by
  unfold AccountAtHand Client.GetsReport
  infer_instance

instance (c : Client) (cache : PositionCache) : Decidable (FlatsSettled c cache) := by
  unfold FlatsSettled
  infer_instance

def Settles (s : State) : Event → Prop
  | .massStatus cache => FlatsSettled s.client cache
  | _ => True

instance (s : State) (event : Event) : Decidable (Settles s event) := by
  unfold Settles
  split <;> infer_instance

def ReadsAndSettles (s : State) (event : Event) : Prop :=
  Reads (OwnBatch env) s event ∧ Settles s event

instance (s : State) (event : Event) : Decidable (ReadsAndSettles env s event) :=
  inferInstanceAs (Decidable (_ ∧ _))

variable {env}

theorem last_or_none {α : Type*} (P : α → Prop) (l : List α) : (∀ x ∈ l, ¬ P x) ∨
    ∃ before d after, l = before ++ d :: after ∧ P d ∧ ∀ x ∈ after, ¬ P x := by
  induction l with
  | nil => exact .inl (by simp)
  | cons a l ih =>
    rcases ih with hnone | ⟨before, d, after, rfl, hd, hafter⟩
    · by_cases ha : P a
      · exact .inr ⟨[], a, l, rfl, ha, hnone⟩
      · exact .inl (by simpa [ha] using hnone)
    · exact .inr ⟨a :: before, d, after, rfl, hd, hafter⟩

theorem InstrumentPnl.mark_ne_empty (d : InstrumentPnl) : d.mark ≠ "" := by
  unfold InstrumentPnl.mark
  dsimp only
  split
  · decide
  · assumption

theorem InstrumentPnl.mark_cases (d : InstrumentPnl) :
    d.mark = anySymbol ∨ d.mark = strip (d.symbol.getD "") := by
  unfold InstrumentPnl.mark
  dsimp only
  split
  · exact .inl rfl
  · exact .inr rfl

theorem Concerns.mark {id : String} {d : InstrumentPnl} (h : Concerns env id d) :
    d.mark = anySymbol ∨ d.mark = strip (symbolOf id) := by
  cases h with
  | same hid =>
    refine d.mark_cases.imp_right fun hmark => ?_
    rw [hmark, symbolOf_instrumentId hid, strip_trim]
  | maybe _ hmark => exact hmark

theorem Recorded.last_readable {c : Client} {log : List InstrumentPnl} (h : Recorded env c log)
    {id : String} (hany : anySymbol ∉ c.unreadable)
    (hsymbol : strip (symbolOf id) ≠ "" → strip (symbolOf id) ∉ c.unreadable) :
    (∀ d ∈ log, ¬ Concerns env id d) ∨ ∃ before d after, log = before ++ d :: after ∧
      Concerns env id d ∧ (instrumentPnlToFields env d).isSome = true ∧
      ∀ x ∈ after, ¬ Concerns env id x := by
  refine (last_or_none (Concerns env id) log).imp_right ?_
  rintro ⟨before, d, after, hlog, hd, hafter⟩
  refine ⟨before, d, after, hlog, hd, ?_, hafter⟩
  by_contra hunreadable
  have hnone : instrumentPnlToFields env d = none := by simpa using hunreadable
  rcases h.marked before d after hlog hnone with hmark | ⟨r, hr, fields, hfields, hid⟩
  · rcases hd.mark with heq | heq
    · exact hany (heq ▸ hmark)
    · exact hsymbol (heq ▸ d.mark_ne_empty) (heq ▸ hmark)
  · -- The row that took the mark away has the same id, so it concerns the instrument too.
    have hsame : fields.instrumentId = id := by
      cases hd with
      | same hd => exact Except.ok.inj (hid.symm.trans hd)
      | maybe hd => cases hid.symm.trans hd
    exact hafter r hr (.same (hsame ▸ (instrumentPnlToFields_spec hfields).1))

theorem exists_concerns_of_lastRow {log : List InstrumentPnl} {id : String}
    (h : (lastRow env log id).isSome = true) : ∃ d ∈ log, Concerns env id d := by
  obtain ⟨fields, hfields⟩ := Option.isSome_iff_exists.mp h
  obtain ⟨hmem, hid⟩ := List.mem_filter.mp (List.mem_of_getLast? hfields)
  obtain ⟨d, hd, hd'⟩ := List.mem_filterMap.mp hmem
  obtain rfl : fields.instrumentId = id := by simpa using hid
  exact ⟨d, hd, .same (instrumentPnlToFields_spec hd').1⟩

theorem Recorded.known_of_seen {s : State} (h : Recorded env s.client s.returned) {id : String}
    {live : Nat} (hlive : live ∈ s.client.liveSince)
    (hseen : live ≤ (s.client.seen.get? id).getD 0) (hany : anySymbol ∉ s.client.unreadable)
    (hsymbol : strip (symbolOf id) ≠ "" → strip (symbolOf id) ∉ s.client.unreadable) :
    Known env s id := by
  have hpositive := (h.live live hlive).1
  rcases h.last_readable hany hsymbol with hnone | hlast
  · cases ht : s.client.seen.get? id with
    | none =>
      simp only [ht, Option.getD_none] at hseen
      omega
    | some t =>
      simp only [ht, Option.getD_some] at hseen
      obtain ⟨d, hd, hconcerns⟩ := exists_concerns_of_lastRow (h.seen live hlive id t ht hseen)
      exact absurd hconcerns (hnone d hd)
  · exact .inl hlast

theorem Recorded.known_of_settled {s : State} (h : Recorded env s.client s.returned) {id : String}
    {live : Nat} (hlive : live ∈ s.client.liveSince)
    (hsettled : live + pnlSettleNs ≤ s.client.clock) (hany : anySymbol ∉ s.client.unreadable)
    (hsymbol : strip (symbolOf id) ≠ "" → strip (symbolOf id) ∉ s.client.unreadable) :
    Known env s id := by
  rcases h.last_readable hany hsymbol with hnone | hlast
  · exact .inr ⟨live, hlive, hsettled, fun d hd hconcerns => absurd hconcerns (hnone d hd)⟩
  · exact .inl hlast

/-! ### Where the reports come from -/

theorem Client.positionReportStep_cases (c : Client) (cache : PositionCache) (loop : ReportLoop)
    (fields : Position) {next : ReportLoop} (h : c.positionReportStep env cache loop fields = next) :
    next.reports = loop.reports ∧ next.accountId = loop.accountId ∨
      c.GetsReport cache fields ∧
        (loop.accountId.isSome = true ∨ (Account.truthy fields.accountId).isSome = true) ∧
        ∀ report ∈ next.reports, report ∈ loop.reports ∨
          report.instrumentId = fields.instrumentId := by
  unfold Client.positionReportStep at h
  dsimp only at h
  split at h
  · exact .inl (h ▸ ⟨rfl, rfl⟩)
  · split at h
    · exact .inl (h ▸ ⟨rfl, rfl⟩)
    · next hmark =>
      split at h
      · exact .inl (h ▸ ⟨rfl, rfl⟩)
      · split at h
        · exact .inl (h ▸ ⟨rfl, rfl⟩)
        · next hloaded =>
          split at h
          · exact .inl (h ▸ ⟨rfl, rfl⟩)
          · next id hid =>
            have hrow : c.GetsReport cache fields :=
              ⟨by simpa using hloaded, fun hne hmem => hmark ⟨hne, hmem⟩⟩
            have haccount : loop.accountId.isSome = true ∨
                (Account.truthy fields.accountId).isSome = true := by
              rcases Option.or_eq_some_iff.mp hid with hsome | ⟨-, hsome⟩
              · exact .inl (by simp [hsome])
              · obtain ⟨raw, hraw, -⟩ := Option.map_eq_some_iff.mp hsome
                exact .inr (by simp [hraw])
            refine .inr ⟨hrow, haccount, fun report hmem => ?_⟩
            split at h
            · exact .inl (by simpa [← h] using hmem)
            · split at h
              · exact .inl (by simpa [← h] using hmem)
              · subst h
                rcases List.mem_append.mp hmem with hmem | hmem
                · exact .inl hmem
                · obtain rfl := List.mem_singleton.mp hmem
                  exact .inr rfl

theorem Client.positionReports_mem {c : Client} {cache : PositionCache} {rows : List Position}
    {loop : ReportLoop} {report : PositionReport}
    (h : report ∈ (rows.foldl (c.positionReportStep env cache) loop).reports) :
    report ∈ loop.reports ∨ ∃ fields ∈ rows, report.instrumentId = fields.instrumentId ∧
      c.GetsReport cache fields := by
  induction rows generalizing loop with
  | nil => exact .inl h
  | cons fields rows ih =>
    rcases ih h with hloop | ⟨fields', hmem, hreport⟩
    · rcases c.positionReportStep_cases cache loop fields rfl with ⟨hsame, -⟩ | ⟨hrow, -, hnew⟩
      · exact .inl (hsame ▸ hloop)
      · exact (hnew report hloop).imp_right fun hid => ⟨fields, by simp, hid, hrow⟩
    · exact .inr ⟨fields', by simp [hmem], hreport⟩

/-- Every report of `generate_position_status_reports` is about a row seen on the current stream
whose symbol is not marked. -/
theorem Client.positionStatusReports_mem {c : Client} {cache : PositionCache}
    {report : PositionReport} (h : report ∈ (c.positionStatusReports env cache).reports) :
    c.positionsKnown = true ∧
    ∃ live ∈ c.liveSince, ∃ id fields, (c.rowsSeenSince live).get? id = some fields ∧
      report.instrumentId = fields.instrumentId ∧ c.GetsReport cache fields := by
  unfold Client.positionStatusReports at h
  dsimp only at h
  split at h
  · next live hknown hlive =>
    rcases Client.positionReports_mem h with hnil | ⟨fields, hmem, hreport⟩
    · cases hnil
    · obtain ⟨⟨id, fields'⟩, hentry, rfl⟩ := List.mem_map.mp hmem
      exact ⟨hknown, live, hlive, id, fields', Dict.mem_entries_iff.mp hentry, hreport⟩
  · cases h

theorem Client.positionReports_accountId {c : Client} {cache : PositionCache} {rows : List Position}
    {loop : ReportLoop}
    (h : (rows.foldl (c.positionReportStep env cache) loop).accountId.isSome = true) :
    loop.accountId.isSome = true ∨ ∃ fields ∈ rows,
      (Account.truthy fields.accountId).isSome = true ∧ c.GetsReport cache fields := by
  induction rows generalizing loop with
  | nil => exact .inl h
  | cons fields rows ih =>
    rcases ih h with hloop | ⟨fields', hmem, hbrings⟩
    · rcases c.positionReportStep_cases cache loop fields rfl with ⟨-, hsame⟩ | ⟨hrow, hid, -⟩
      · exact .inl (hsame ▸ hloop)
      · exact hid.imp_right fun hbrings => ⟨fields, by simp, hbrings, hrow⟩
    · exact .inr ⟨fields', by simp [hmem], hbrings⟩

theorem Client.accountAtHand_of_reports {c : Client} {cache : PositionCache} {live : Nat}
    (hlive : c.liveSince = some live)
    (h : (c.positionStatusReports env cache).accountId.isSome = true) :
    AccountAtHand c cache live := by
  unfold Client.positionStatusReports at h
  dsimp only at h
  split at h
  · next live' _ hlive' =>
    obtain rfl := Option.some.inj (hlive.symm.trans hlive')
    exact Client.positionReports_accountId h
  · exact .inl h

theorem augment_mem {cache : PositionCache} {accountId : Option String}
    {reports all : List PositionReport} {report : PositionReport}
    (h : Client.augmentSoftMassFlatForCacheOpens cache accountId reports = some all)
    (hmem : report ∈ all) : report ∈ reports ∨
      accountId.isSome = true ∧ report.instrumentId ∈ cache.opens ∧
        cache.loaded report.instrumentId = true := by
  unfold Client.augmentSoftMassFlatForCacheOpens at h
  split at h
  · exact .inl (Option.some.inj h ▸ hmem)
  · dsimp only at h
    split at h
    · obtain rfl := Option.some.inj h
      rcases List.mem_append.mp hmem with hmem | hmem
      · exact .inl hmem
      · obtain ⟨id, hid, rfl⟩ := List.mem_map.mp hmem
        obtain ⟨hopen, hrest⟩ := List.mem_filter.mp hid
        simp only [decide_eq_true_eq] at hrest
        exact .inr ⟨rfl, hopen, hrest.2⟩
    · cases h

theorem positionsKnown_iff {c : Client} :
    c.positionsKnown = true ↔ c.liveSince.isSome = true ∧ anySymbol ∉ c.unreadable := by
  simp [Client.positionsKnown]

/-- In a run whose batches are read and take away only their own marks, a mass status whose FLAT
reports would be about settled and unmarked instruments reports only positions that are known. -/
theorem mass_status_positions_known {trace : List Event} {s : State} {cache : PositionCache}
    {reports : List PositionReport} (h : (machine env).Run (ReadsAndSettles env) trace s)
    (hok : ReadsAndSettles env s (.massStatus cache))
    (hreports : (s.client.massStatusPositions env cache).1 = some reports) :
    ∀ report ∈ reports, Known env s report.instrumentId := by
  have hreads := h.mono fun _ _ h => h.1
  have hrecorded := (run_onStream recorded_streamInv hreads).client
  intro report hmem
  have hsource : report ∈ (s.client.positionStatusReports env cache).reports ∨
      s.client.positionsKnown = true ∧
      (s.client.positionStatusReports env cache).accountId.isSome = true ∧
      report.instrumentId ∈ cache.opens ∧ cache.loaded report.instrumentId = true := by
    unfold Client.massStatusPositions at hreports
    dsimp only at hreports
    split at hreports
    · cases hreports
    · split at hreports
      · next hknown => exact (augment_mem hreports hmem).imp_right fun h => ⟨hknown, h⟩
      · exact .inl (Option.some.inj hreports ▸ hmem)
  rcases hsource with hrow | ⟨hknown, haccount, hopen, hloaded⟩
  · obtain ⟨hknown, live, hlive, id, fields, hget, hid, -, hsymbol⟩ :=
      Client.positionStatusReports_mem hrow
    obtain ⟨hposition, hseen⟩ := Dict.get?_filter.mp hget
    obtain ⟨rfl, hkey⟩ := hrecorded.keyed id fields hposition
    rw [hid]
    refine hrecorded.known_of_seen hlive (by simpa using hseen) (positionsKnown_iff.mp hknown).2 ?_
    rw [hkey, strip_trim]
    exact hsymbol
  · obtain ⟨hlive, hany⟩ := positionsKnown_iff.mp hknown
    obtain ⟨live, hlive⟩ := Option.isSome_iff_exists.mp hlive
    have hat : AccountAtHand s.client cache live := Client.accountAtHand_of_reports hlive haccount
    obtain ⟨hsymbol, hsettled | hseen⟩ := hok.2 hknown live hlive hat _ hopen hloaded
    · exact hrecorded.known_of_settled hlive hsettled hany fun _ => hsymbol
    · exact hrecorded.known_of_seen hlive hseen hany fun _ => hsymbol

def oneOpen : PositionCache where
  opens := ["MNQZ6-CME.RITHMIC"]
  loaded _ := true
  reportOk _ := true
  flatOk _ := true

def otherRow : InstrumentPnl :=
  { accountId := some "A1", symbol := some "MESZ6", exchange := some "CME", netQuantity := some 1 }

def settled : List Event :=
  [.push ⟨.instrument otherRow, 0, true, true, 0⟩, .pollStart, .dequeue 0 1, .dispatch 0,
    .advance pnlSettleNs]

/-- The open position is then reported flat. -/
theorem mass_status_positions_known_settled : ∃ s reports,
    (machine openEnv).exec (ReadsAndSettles openEnv) {} settled = some s ∧
      (s.client.massStatusPositions openEnv oneOpen).1 = some reports ∧
      ⟨"MNQZ6-CME.RITHMIC", .flat, 0⟩ ∈ reports ∧
      ∀ report ∈ reports, Known openEnv s report.instrumentId := by
  obtain ⟨s, reports, hs, hok, hreports, hmem⟩ : ∃ s reports,
      (machine openEnv).exec (ReadsAndSettles openEnv) {} settled = some s ∧
      decide (ReadsAndSettles openEnv s (.massStatus oneOpen)) = true ∧
      (s.client.massStatusPositions openEnv oneOpen).1 = some reports ∧
      ⟨"MNQZ6-CME.RITHMIC", .flat, 0⟩ ∈ reports :=
    ⟨_, _, rfl, rfl, rfl, by decide⟩
  exact ⟨s, reports, hs, hreports, hmem,
    mass_status_positions_known (Machine.run_of_exec rfl hs) (of_decide_eq_true hok) hreports⟩

/-- A position row that cannot be read: it has no quantity. -/
def unreadableRow : InstrumentPnl := { symbol := some "MNQZ6", exchange := some "CME" }

/-- After an unreadable row of the open position's contract the mass status reports it flat. -/
theorem mass_status_flat_unknown : ¬ ∀ (env : Env) (trace : List Event) (s : State)
    (cache : PositionCache) (reports : List PositionReport),
    (machine env).Run Machine.Free trace s →
      (s.client.massStatusPositions env cache).1 = some reports →
        ∀ report ∈ reports, Known env s report.instrumentId := by
  intro h
  obtain ⟨s, reports, hs, hreports, hmem, hreturned⟩ : ∃ s reports,
      (machine openEnv).exec Machine.Free {} [.push ⟨.instrument otherRow, 0, true, true, 0⟩,
        .push ⟨.instrument unreadableRow, 0, true, true, 0⟩, .pollStart, .dequeue 0 2,
        .dispatch 0] = some s ∧
      (s.client.massStatusPositions openEnv oneOpen).1 = some reports ∧
      ⟨"MNQZ6-CME.RITHMIC", .flat, 0⟩ ∈ reports ∧
      s.returned = [otherRow] ++ [unreadableRow] :=
    ⟨_, _, rfl, rfl, by decide, rfl⟩
  have hconcerns : Concerns openEnv "MNQZ6-CME.RITHMIC" unreadableRow := .same rfl
  have hunreadable : instrumentPnlToFields openEnv unreadableRow = none := rfl
  rcases h openEnv _ s oneOpen reports (Machine.run_of_exec rfl hs) hreports _ hmem with
    ⟨before, d, after, hsplit, -, hread, hafter⟩ | ⟨live, -, -, hread⟩
  · rcases append_singleton_split (hreturned.symm.trans hsplit) with ⟨-, rfl⟩ | ⟨after', rfl, -⟩
    · simp [hunreadable] at hread
    · exact hafter unreadableRow (by simp) hconcerns
  · have := hread unreadableRow (by simp [hreturned]) hconcerns
    simp [hunreadable] at this

end

end RithmicNt.Adapter.Pnl
