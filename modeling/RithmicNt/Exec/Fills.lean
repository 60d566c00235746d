import RithmicNt.Exec.Text
import RithmicNt.Lib.Segments

/-! The identity of a fill. -/

namespace RithmicNt.Exec

open RithmicNt.Lib

/-- The fields a fill's identity is built from, as text. -/
structure FillParts where
  fillId : Option String
  basketId : String
  exchangeOrderId : String
  fillSize : String
  fillPrice : String
  deriving DecidableEq, Repr

/-- The venue's fill id when present, else a composite of the fill's own fields, so that a fill the
venue never tagged still dedupes. -/
def tradeId (parts : FillParts) (tsEvent : Int) : String :=
  match parts.fillId.filter (· ≠ "") with
  | some id => id
  | none => parts.basketId ++ ":" ++ parts.exchangeOrderId ++ ":" ++ toString tsEvent ++ ":" ++
      parts.fillSize ++ ":" ++ parts.fillPrice

/-- The key of the dedup store, scoped by account and instrument. -/
def dedupKey (accountId instrumentId : String) (parts : FillParts) (tsEvent : Int) : String :=
  accountId ++ "|" ++ instrumentId ++ "|" ++ tradeId parts tsEvent

example : dedupKey "ACC" "MNQZ6-CME.RITHMIC" ⟨some "F-77", "B1", "X9", "2", "21000.25"⟩ 5 =
    "ACC|MNQZ6-CME.RITHMIC|F-77" := by
  decide

/-! ### What a key tells -/

/-- A text without the two separators. -/
def Plain (s : String) : Prop := ':' ∉ s.toList ∧ '|' ∉ s.toList

structure FillParts.Plain (parts : FillParts) : Prop where
  fillId : ∀ id ∈ parts.fillId, Exec.Plain id
  basketId : Exec.Plain parts.basketId
  exchangeOrderId : Exec.Plain parts.exchangeOrderId
  fillSize : Exec.Plain parts.fillSize
  fillPrice : Exec.Plain parts.fillPrice

/-- The fill id that the venue tagged the fill with, when there is one. -/
def FillParts.tag (parts : FillParts) : Option String := parts.fillId.filter (· ≠ "")

/-- Two fills of one venue event: tagged with one fill id, or not tagged and alike in all parts. -/
def SameTrade (p q : FillParts) (t u : Int) : Prop :=
  (∃ id, p.tag = some id ∧ q.tag = some id) ∨
  (p.tag = none ∧ q.tag = none ∧ p.basketId = q.basketId ∧ p.exchangeOrderId = q.exchangeOrderId ∧
    t = u ∧ p.fillSize = q.fillSize ∧ p.fillPrice = q.fillPrice)

theorem tradeId_of_tag {parts : FillParts} {id : String} (h : parts.tag = some id) (t : Int) :
    tradeId parts t = id := by
  unfold tradeId
  rw [show parts.fillId.filter (· ≠ "") = some id from h]

theorem tradeId_of_untagged {parts : FillParts} (h : parts.tag = none) (t : Int) :
    (tradeId parts t).toList = parts.basketId.toList ++ ':' :: (parts.exchangeOrderId.toList ++
      ':' :: ((toString t).toList ++ ':' :: (parts.fillSize.toList ++
        ':' :: parts.fillPrice.toList))) := by
  unfold tradeId
  rw [show parts.fillId.filter (· ≠ "") = none from h]
  simp

theorem notMem_toString {c : Char} (hdigit : c.isDigit = false) (hminus : c ≠ '-') (n : Int) :
    c ∉ (toString n).toList := by
  cases n with
  | ofNat m => exact notMem_repr hdigit m
  | negSucc m =>
    show c ∉ ("-" ++ Nat.repr (m + 1)).toList
    rw [String.toList_append, List.mem_append, not_or]
    exact ⟨by simpa using hminus, notMem_repr hdigit (m + 1)⟩

theorem toString_injective {m n : Int} (h : toString m = toString n) : m = n := by
  have hminus : ∀ k : Nat, '-' ∉ (Nat.repr k).toList := notMem_repr rfl
  have hhead : ∀ k : Nat, '-' ∈ ("-" ++ Nat.repr k).toList := by simp
  cases m with
  | ofNat a =>
    cases n with
    | ofNat b => rw [repr_injective h]
    | negSucc b =>
      have h : Nat.repr a = "-" ++ Nat.repr (b + 1) := h
      exact absurd (h ▸ hhead (b + 1)) (hminus a)
  | negSucc a =>
    cases n with
    | ofNat b =>
      have h : "-" ++ Nat.repr (a + 1) = Nat.repr b := h
      exact absurd (h ▸ hhead (a + 1)) (hminus b)
    | negSucc b =>
      have h : "-" ++ Nat.repr (a + 1) = "-" ++ Nat.repr (b + 1) := h
      have hsame := repr_injective ((String.append_right_inj "-").mp h)
      rw [Nat.succ.inj hsame]

theorem tradeId_eq_iff {p q : FillParts} (hp : p.Plain) (hq : q.Plain) {t u : Int} :
    tradeId p t = tradeId q u ↔ SameTrade p q t u := by
  have htag : ∀ {parts : FillParts} {id : String}, parts.Plain → parts.tag = some id →
      ':' ∉ id.toList := by
    intro parts id hparts hid
    exact (hparts.fillId id (Option.mem_filter_iff.mp hid).1).1
  have hcolon : ∀ {parts : FillParts} (t : Int), parts.tag = none →
      ':' ∈ (tradeId parts t).toList := by
    intro parts t hnone
    rw [tradeId_of_untagged hnone]
    simp
  cases hptag : p.tag with
  | some id =>
    cases hqtag : q.tag with
    | some id' =>
      rw [tradeId_of_tag hptag, tradeId_of_tag hqtag]
      simp [SameTrade, hptag, hqtag, eq_comm]
    | none =>
      refine ⟨fun h => ?_, fun h => ?_⟩
      · rw [tradeId_of_tag hptag] at h
        exact absurd (h ▸ hcolon u hqtag) (htag hp hptag)
      · simp [SameTrade, hptag, hqtag] at h
  | none =>
    cases hqtag : q.tag with
    | some id =>
      refine ⟨fun h => ?_, fun h => ?_⟩
      · rw [tradeId_of_tag hqtag] at h
        exact absurd (h ▸ hcolon t hptag) (htag hq hqtag)
      · simp [SameTrade, hptag, hqtag] at h
    | none =>
      have hcolon : ∀ n : Int, ':' ∉ (toString n).toList := notMem_toString rfl (by decide)
      have htoString : toString t = toString u ↔ t = u := ⟨toString_injective, congrArg toString⟩
      rw [← String.toList_inj, tradeId_of_untagged hptag, tradeId_of_untagged hqtag,
        append_sep_inj hp.basketId.1 hq.basketId.1,
        append_sep_inj hp.exchangeOrderId.1 hq.exchangeOrderId.1,
        append_sep_inj (hcolon t) (hcolon u), append_sep_inj hp.fillSize.1 hq.fillSize.1]
      simp only [SameTrade, hptag, hqtag, String.toList_inj, htoString, reduceCtorEq, false_and,
        exists_false, false_or, true_and]

/-- The keys of two fills are the same exactly where account, instrument and trade are. -/
theorem dedupKey_eq_iff {account instrument account' instrument' : String} {p q : FillParts}
    (haccount : Plain account) (hinstrument : Plain instrument) (haccount' : Plain account')
    (hinstrument' : Plain instrument') (hp : p.Plain) (hq : q.Plain) {t u : Int} :
    dedupKey account instrument p t = dedupKey account' instrument' q u ↔
      account = account' ∧ instrument = instrument' ∧ SameTrade p q t u := by
  have hkey : ∀ (a i : String) (parts : FillParts) (n : Int), (dedupKey a i parts n).toList =
      a.toList ++ '|' :: (i.toList ++ '|' :: (tradeId parts n).toList) := by
    intro a i parts n
    simp [dedupKey]
  rw [← String.toList_inj, hkey, hkey, append_sep_inj haccount.2 haccount'.2,
    append_sep_inj hinstrument.2 hinstrument'.2, String.toList_inj, String.toList_inj,
    String.toList_inj, tradeId_eq_iff hp hq]

end RithmicNt.Exec
