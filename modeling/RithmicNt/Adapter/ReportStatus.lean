import RithmicNt.Adapter.Drain

/-! The status that an order row is reported under, against the quantities of the same report and
against what the row says. -/

namespace RithmicNt.Adapter

open RithmicNt.Lib RithmicNt.Exec

namespace OrderFields

/-- The kind of a refused modify or cancel. -/
def isRefusal (f : OrderFields) : Prop :=
  f.kind = some .modifyRejected ∨ f.kind = some .cancelRejected

section

variable (upper : Char → List Char) (f : OrderFields)

def statusText : String := toUppercase upper (f.status.getD "")

def SaysRejected : Prop := f.kind = some .rejected ∨ hasPart (f.statusText upper) "REJECT" = true

def SaysCanceled : Prop :=
  f.kind = some .canceled ∨ f.statusText upper = "CANCELLED" ∨ f.statusText upper = "CANCELED"

def SaysExpired : Prop := f.kind = some .expired ∨ hasPart (f.statusText upper) "EXPIRED" = true

end

variable {upper : Char → List Char} {f : OrderFields}

/-- What the cascade of `order_status_from_fields` has found out about the row when it returns. -/
def Decided (upper : Char → List Char) (f : OrderFields) : OrderStatus → Prop
  | .filled => f.kind = some .filled ∨
      0 < f.quantity.getD 0 ∧ f.quantity.getD 0 ≤ f.totalFillSize.getD 0
  | .rejected => f.SaysRejected upper ∧ ¬ f.isRefusal
  | .canceled => f.SaysCanceled upper ∧ ¬ f.isRefusal
  | .expired => f.SaysExpired upper ∧ ¬ f.isRefusal
  | .partiallyFilled => 0 < f.totalFillSize.getD 0 ∧ f.totalFillSize.getD 0 < f.quantity.getD 0
  | .accepted | .triggered => True
  | _ => False

theorem orderStatus_decided : Decided upper f (f.orderStatus upper) := by
  unfold orderStatus
  dsimp only
  split
  · next hfilled => exact hfilled
  · split
    · split
      · next hpartly => exact hpartly.2
      · trivial
    · next hrefusal =>
      split
      · next hrejected => exact ⟨hrejected, hrefusal⟩
      · split
        · next hcanceled => exact ⟨hcanceled, hrefusal⟩
        · split
          · next hexpired => exact ⟨hexpired, hrefusal⟩
          · split
            · next hpartly => exact hpartly.2
            · split
              · split <;> trivial
              · trivial

theorem orderStatus_of_filled (h : f.kind = some .filled) : f.orderStatus upper = .filled :=
  if_pos (.inl h)

end OrderFields

/-- The status of a report holds of the report's own quantities and is said by its row. -/
structure Backed (upper : Char → List Char) (f : OrderFields) (report : StatusReport) : Prop where
  filled : report.status = .filled → report.quantity ≤ report.filledQty
  rejected : report.status = .rejected → f.SaysRejected upper ∧ ¬ f.isRefusal
  canceled : report.status = .canceled → f.SaysCanceled upper ∧ ¬ f.isRefusal
  expired : report.status = .expired → f.SaysExpired upper ∧ ¬ f.isRefusal
  partly : report.status = .partiallyFilled →
    0 < report.filledQty ∧ report.filledQty < report.quantity

/-- The quantities of a report are those of its row, where negative and missing ones are zero, and a
report has a positive quantity. -/
structure Measures (f : OrderFields) (report : StatusReport) : Prop where
  quantity : report.quantity = (f.quantity.getD 0).toNat
  filledQty : report.filledQty = (f.totalFillSize.getD 0).toNat
  pos : 0 < report.quantity

namespace Engine

variable {e : Engine} {a a' : Account} {f : OrderFields} {ts : Int} {report : StatusReport}

theorem quantityFromInt_eq_ok {n : Int} {quantity : Nat}
    (h : e.quantityFromInt (max 0 n) = .ok quantity) : quantity = n.toNat := by
  unfold quantityFromInt at h
  split at h
  · have := Except.ok.inj h
    omega
  · cases h

theorem measures_of_build {accountId basket : String}
    (h : e.buildStatusReport accountId basket f ts = .ok (some report)) : Measures f report := by
  unfold buildStatusReport at h
  simp only [bind_eq_ok] at h
  obtain ⟨quantity, hquantity, filled, hfilled, price, -, trigger, -, h⟩ := h
  split at h
  · cases h
  · next hpos =>
    simp only [bind_eq_ok] at h
    obtain ⟨_, -, _, -, _, -, h⟩ := h
    obtain rfl := Option.some.inj (Except.ok.inj h)
    exact ⟨quantityFromInt_eq_ok hquantity, quantityFromInt_eq_ok hfilled, Nat.pos_of_ne_zero hpos⟩

/-- A report that was returned is one that was built. -/
theorem exists_build (h : e.orderStatusReportFromFields a f ts = (a', .ok (some report))) :
    ∃ accountId basket, Account.truthy f.basketId = some basket ∧
      e.buildStatusReport accountId basket f ts = .ok (some report) := by
  unfold orderStatusReportFromFields at h
  split at h
  · cases h
  · next basket hbasket =>
    split at h
    · cases h
    · dsimp only at h
      split at h
      · cases h
      · split at h
        · cases h
        · next accountId haccount =>
          split at h
          · cases h
          · exact ⟨accountId, basket, hbasket, (Prod.mk.inj h).2⟩

/-- A report's status is backed, exactly when its row is not a fill that leaves something unfilled. -/
theorem statusReport_backed_iff
    (h : e.orderStatusReportFromFields a f ts = (a', .ok (some report))) :
    Backed e.upper f report ↔
      (f.kind = some .filled → f.quantity.getD 0 ≤ f.totalFillSize.getD 0) := by
  obtain ⟨accountId, basket, -, hbuild⟩ := exists_build h
  obtain ⟨hquantity, hfilledQty, hpos⟩ := measures_of_build hbuild
  have hstatus : report.status = f.orderStatus e.upper := (reports_of_build hbuild).status
  have hdecided : f.Decided e.upper report.status := by
    rw [hstatus]
    exact OrderFields.orderStatus_decided
  constructor
  · intro hbacked hkind
    have hle := hbacked.filled (hstatus.trans (OrderFields.orderStatus_of_filled hkind))
    omega
  · intro hcover
    refine ⟨fun hs => ?_, fun hs => ?_, fun hs => ?_, fun hs => ?_, fun hs => ?_⟩
    · rw [hs] at hdecided
      rcases hdecided with hkind | ⟨-, hle⟩
      · have := hcover hkind
        omega
      · omega
    · rw [hs] at hdecided
      exact hdecided
    · rw [hs] at hdecided
      exact hdecided
    · rw [hs] at hdecided
      exact hdecided
    · rw [hs] at hdecided
      obtain ⟨hsome, hless⟩ := hdecided
      omega

end Engine

/-- The fields of a fill notification of the exchange: `filled` of two contracts. -/
def fillFields (filled : Int) : OrderFields where
  source := .exchange
  kind := some .filled
  notifyTypeName := some "FILL"
  status := some "open"
  basketId := some "B1"
  exchangeOrderId := none
  userTag := none
  accountId := some "ACC"
  symbol := "MNQZ6"
  instrumentId := "MNQZ6-CME.RITHMIC"
  quantity := some 2
  totalFillSize := some filled
  totalUnfilledSize := some (2 - filled)
  fillSize := some 1
  price := some samplePrice
  triggerPrice := none
  avgFillPrice := none
  fillPrice := some samplePrice
  transactionType := some 1
  priceType := some 1
  duration := some 1
  fillId := some "F1"
  text := none
  reportText := none
  tsEvent := some 5

theorem statusReport_backed_complete : ∃ a' report,
    (Engine.accepting 9).orderStatusReportFromFields {} (fillFields 2) 5 = (a', .ok (some report)) ∧
      report.status = .filled ∧ Backed asciiUpper (fillFields 2) report := by
  have hbuilt : ∃ a' report, (Engine.accepting 9).orderStatusReportFromFields {} (fillFields 2) 5 =
      (a', .ok (some report)) ∧ report.status = .filled := ⟨_, _, rfl, rfl⟩
  obtain ⟨a', report, hreport, hstatus⟩ := hbuilt
  exact ⟨a', report, hreport, hstatus, (Engine.statusReport_backed_iff hreport).mpr (by decide)⟩

/-- One of two contracts is filled, and the report says `FILLED`. -/
theorem statusReport_half_filled : ∃ a' report,
    (Engine.accepting 9).orderStatusReportFromFields {} (fillFields 1) 5 = (a', .ok (some report)) ∧
      report.status = .filled ∧ report.filledQty < report.quantity ∧
      ¬ Backed asciiUpper (fillFields 1) report := by
  refine ⟨_, _, rfl, rfl, by decide, fun hbacked => ?_⟩
  have hle := hbacked.filled rfl
  revert hle
  decide

end RithmicNt.Adapter
