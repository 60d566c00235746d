import Mathlib.Data.Rat.Floor
import RithmicNt.Lib.Results
import RithmicNt.Lib.Rounding
import RithmicNt.Adapter.OrderLists

/-! Brackets over exact prices.  The venue takes the exits of a bracket as counts of ticks from the entry,
so a bracket says what its list says only where the counts give the distances back, with the stop on the
losing side. -/

namespace RithmicNt.Adapter.OrderLists

open RithmicNt.Lib

variable {δ : Type} (r : Runtime ℚ δ)

/-- The runtime with rationals for prices. -/
def Runtime.exact : Runtime ℚ δ :=
  { r with
    positive tick := decide (0 < tick)
    ticksBetween a b tick := if tick = 0 then none else some (roundHalfEven (|a - b| / tick)) }

/-! ### What a bracket must say -/

/-- The prices of a bracket's legs, on the tick of the entry's contract. -/
structure BracketPrices where
  tick : ℚ
  entry : ℚ
  stop : ℚ
  target : ℚ
  deriving DecidableEq, Repr

/-- A stop leg is at its trigger price, or else at its price. -/
def World.bracketPrices (w : World ℚ) (entry stop target : Order ℚ δ) : Option BracketPrices := do
  let instrument ← w.instrument entry.instrumentId
  let entryPrice ← entry.price
  let stopPrice ← stop.triggerPrice <|> stop.price
  let targetPrice ← target.price
  return ⟨instrument.priceIncrement, entryPrice, stopPrice, targetPrice⟩

/-- The stop is where the position loses, the target where it wins. -/
def OnSides (side : OrderSide) (p : BracketPrices) : Prop :=
  match side with
  | .buy => p.stop < p.entry ∧ p.entry < p.target
  | .sell => p.entry < p.stop ∧ p.target < p.entry
  | .noOrderSide => False

/-- The counts of a call are positive and give the distances back, and each exit is on its side. -/
structure Lossless (side : OrderSide) (p : BracketPrices) (call : BracketCall ℚ) : Prop where
  stop : 0 < call.stopTicks ∧ |p.entry - p.stop| = call.stopTicks * p.tick
  target : 0 < call.targetTicks ∧ |p.entry - p.target| = call.targetTicks * p.tick
  sides : OnSides side p

/-- Every bracket that is placed is lossless; a bracket list for which none is placed is denied whole. -/
def LosslessOrDenied (w : World ℚ) (orders : List (Order ℚ δ)) (log : List (Action ℚ δ)) : Prop :=
  (∀ entry stop target call, Action.placeBracketOrder entry stop target call ∈ log →
    ∃ p, w.bracketPrices entry stop target = some p ∧ Lossless entry.side p call) ∧
  (isBracketOrderList orders = true →
    (∀ entry stop target call, Action.placeBracketOrder entry stop target call ∉ log) →
      ∀ o ∈ orders, Withheld log o)

/-! ### What is asked of a bracket -/

/-- The exit is a positive whole number of ticks from the entry. -/
def WholeTicks (tick a b : ℚ) : Prop := ∃ n : Int, 0 < n ∧ |a - b| = n * tick

/-- The route and the terms of the entry have their words for the venue. -/
def Translates (w : World ℚ) (entry : Order ℚ δ) : Prop :=
  ∃ route side priceType duration, w.route entry.instrumentId = .ok route ∧
    nautilusSideToRithmic r entry.side = .ok side ∧
    nautilusOrderTypeToRithmic r entry.orderType = .ok priceType ∧
    nautilusTifToRithmic r entry.timeInForce = .ok duration

/-- A list that passes every check on its legs, with both exits more than half a tick from the entry. -/
structure Passes (c : Client) (w : World ℚ) (orders : List (Order ℚ δ))
    (entry stop target : Order ℚ δ) (p : BracketPrices) : Prop where
  bracket : isBracketOrderList orders = true
  enabled : c.bracketsEnabled = true
  legs : bracketLegs orders = some (entry, stop, target)
  prices : w.bracketPrices entry stop target = some p
  tick : 0 < p.tick
  stopApart : p.tick / 2 < |p.entry - p.stop|
  targetApart : p.tick / 2 < |p.entry - p.target|
  translates : Translates r w entry
  allowed : c.commandRefusal w = none

theorem legTicks_eq_some {tick entry price : ℚ} (htick : 0 < tick) {n : Int} :
    legTicks r.exact tick entry (some price) = .ok (some n) ↔
      tick / 2 < |entry - price| ∧ n = roundHalfEven (|entry - price| / tick) := by
  have hpos : 0 < roundHalfEven (|entry - price| / tick) ↔ tick / 2 < |entry - price| := by
    rw [roundHalfEven_pos_iff, lt_div_iff₀ htick, one_div, inv_mul_eq_div]
  rw [← hpos]
  simp only [legTicks, Runtime.exact, if_neg htick.ne']
  split
  · next hle => simp [hle.not_gt]
  · next hgt => simp [not_le.mp hgt, eq_comm]

variable {r} {c : Client} {w : World ℚ} {worlds : Nat → World ℚ} {orders : List (Order ℚ δ)}
  {entry stop target : Order ℚ δ} {p : BracketPrices} {call : BracketCall ℚ}
  {stopTicks targetTicks : Int}

theorem price_of_legTicks {tick entryPrice : ℚ} {price : Option ℚ} {n : Int}
    (h : legTicks r tick entryPrice price = .ok (some n)) :
    ∃ x, price = some x ∧ legTicks r tick entryPrice (some x) = .ok (some n) := by
  cases price with
  | none => cases h
  | some x => exact ⟨x, rfl, h⟩

/-- Both counts are there only for exits with a price, and each is the count of its leg. -/
theorem bracketTicks_eq_some :
    bracketTicks r.exact w entry stop target = (some stopTicks, some targetTicks) ↔
      ∃ p, w.bracketPrices entry stop target = some p ∧ 0 < p.tick ∧
        legTicks r.exact p.tick p.entry (some p.stop) = .ok (some stopTicks) ∧
        legTicks r.exact p.tick p.entry (some p.target) = .ok (some targetTicks) := by
  constructor
  · intro h
    unfold bracketTicks at h
    split at h
    · cases h
    · next instrument hinstrument =>
      split at h
      · cases h
      · next htick =>
        split at h
        · cases h
        · next entryPrice hentry =>
          split at h
          · next hstop htarget =>
            cases h
            obtain ⟨stopPrice, hstopPrice, hstop⟩ := price_of_legTicks hstop
            obtain ⟨targetPrice, htargetPrice, htarget⟩ := price_of_legTicks htarget
            refine ⟨⟨instrument.priceIncrement, entryPrice, stopPrice, targetPrice⟩, ?_, ?_,
              hstop, htarget⟩
            · simp [World.bracketPrices, hinstrument, hentry, hstopPrice, htargetPrice]
            · simpa [Runtime.exact] using htick
          · cases h
  · rintro ⟨p, hprices, htick, hstop, htarget⟩
    simp only [World.bracketPrices, Option.bind_eq_bind, Option.bind_eq_some_iff, Option.pure_def,
      Option.some.injEq] at hprices
    obtain ⟨instrument, hinstrument, entryPrice, hentry, stopPrice, hstopPrice, targetPrice,
      htargetPrice, rfl⟩ := hprices
    have hpositive : r.exact.positive instrument.priceIncrement = true := decide_eq_true htick
    simp only [bracketTicks, hinstrument, hpositive, hentry, hstopPrice, htargetPrice]
    rw [hstop, htarget]
    rfl

theorem ticks_of_bracketCall (h : w.bracketCall r entry stopTicks targetTicks = .ok call) :
    Translates r w entry ∧ call.stopTicks = stopTicks ∧ call.targetTicks = targetTicks := by
  obtain ⟨⟨symbol, exchange⟩, hroute, h⟩ := bind_eq_ok.mp h
  obtain ⟨side, hside, h⟩ := bind_eq_ok.mp h
  obtain ⟨priceType, htype, h⟩ := bind_eq_ok.mp h
  obtain ⟨duration, htif, h⟩ := bind_eq_ok.mp h
  cases h
  exact ⟨⟨_, side, priceType, duration, hroute, hside, htype, htif⟩, rfl, rfl⟩

theorem Translates.bracketCall (h : Translates r w entry) (stopTicks targetTicks : Int) :
    ∃ call, w.bracketCall r entry stopTicks targetTicks = .ok call := by
  obtain ⟨route, side, priceType, duration, hroute, hside, htype, htif⟩ := h
  simp [World.bracketCall, hroute, hside, htype, htif, bind, Except.bind, pure, Except.pure]

/-- The counts of the call are the rounded distances. -/
structure Counted (p : BracketPrices) (call : BracketCall ℚ) : Prop where
  stop : call.stopTicks = roundHalfEven (|p.entry - p.stop| / p.tick)
  target : call.targetTicks = roundHalfEven (|p.entry - p.target| / p.tick)

theorem mem_submitBracket (hbracket : isBracketOrderList orders = true)
    (h : Action.placeBracketOrder entry stop target call ∈ c.submitBracket r.exact w orders) :
    ∃ p, Passes r c w orders entry stop target p ∧ Counted p call := by
  unfold Client.submitBracket at h
  split at h
  · simp [denyAll] at h
  · next henabled =>
    split at h
    · simp [denyAll] at h
    · next entry' stop' target' hlegs =>
      split at h
      · next stopTicks targetTicks hticks =>
        split at h
        · simp [denyAll] at h
        · next call' hcall =>
          split at h
          · simp [denyAll] at h
          · next hallowed =>
            rcases List.mem_append.mp h with hsubmitted | h
            · simp at hsubmitted
            · rcases List.mem_cons.mp h with hplaced | hends
              · cases hplaced
                obtain ⟨p, hprices, htick, hstop, htarget⟩ := bracketTicks_eq_some.mp hticks
                obtain ⟨hstopApart, hstopTicks⟩ := (legTicks_eq_some r htick).mp hstop
                obtain ⟨htargetApart, htargetTicks⟩ := (legTicks_eq_some r htick).mp htarget
                have hcall' : w.bracketCall r entry stopTicks targetTicks = .ok call := hcall
                obtain ⟨htranslates, rfl, rfl⟩ := ticks_of_bracketCall hcall'
                exact ⟨p, ⟨hbracket, by simpa using henabled, hlegs, hprices, htick, hstopApart,
                  htargetApart, htranslates, hallowed⟩, hstopTicks, htargetTicks⟩
              · cases isSend_of_mem_ends hends
      · simp [denyAll] at h

theorem Passes.mem_submitBracket (h : Passes r c w orders entry stop target p) :
    ∃ call, Action.placeBracketOrder entry stop target call ∈ c.submitBracket r.exact w orders := by
  obtain ⟨stopTicks, hstop⟩ : ∃ n, legTicks r.exact p.tick p.entry (some p.stop) = .ok (some n) :=
    ⟨_, (legTicks_eq_some r h.tick).mpr ⟨h.stopApart, rfl⟩⟩
  obtain ⟨targetTicks, htarget⟩ : ∃ n, legTicks r.exact p.tick p.entry (some p.target) = .ok (some n) :=
    ⟨_, (legTicks_eq_some r h.tick).mpr ⟨h.targetApart, rfl⟩⟩
  have hticks := bracketTicks_eq_some.mpr ⟨p, h.prices, h.tick, hstop, htarget⟩
  obtain ⟨call, hcall⟩ := h.translates.bracketCall stopTicks targetTicks
  refine ⟨call, ?_⟩
  have hcall' : w.bracketCall r.exact entry stopTicks targetTicks = .ok call := hcall
  simp [Client.submitBracket, h.enabled, h.legs, hticks, hcall', h.allowed]

/-- A bracket is placed exactly for the legs that pass, and its counts are the rounded distances. -/
theorem mem_submitOrderList
    (h : Action.placeBracketOrder entry stop target call ∈ c.submitOrderList r.exact worlds orders) :
    ∃ p, Passes r c (worlds 0) orders entry stop target p ∧ Counted p call := by
  unfold Client.submitOrderList at h
  split at h
  · simp [denyAll] at h
  · split at h
    · next hbracket => exact mem_submitBracket hbracket h
    · obtain ⟨i, o, -, hmem⟩ := (mem_apart r.exact c).mp h
      obtain ⟨-, _, hplace⟩ := send_of_mem_submitOrder r.exact c hmem rfl
      cases hplace

theorem Passes.mem_submitOrderList (h : Passes r c (worlds 0) orders entry stop target p) :
    ∃ call, Action.placeBracketOrder entry stop target call ∈
      c.submitOrderList r.exact worlds orders := by
  have htrading : c.enableTrading = true := by
    have hallowed := h.allowed
    unfold Client.commandRefusal at hallowed
    split at hallowed
    · cases hallowed
    · next hon => simpa using hon
  obtain ⟨call, hmem⟩ := h.mem_submitBracket
  refine ⟨call, ?_⟩
  simpa [Client.submitOrderList, htrading, h.bracket] using hmem

/-- A bracket list for which nothing is placed is denied whole. -/
theorem withheld_of_not_placed (hbracket : isBracketOrderList orders = true)
    (hnone : ∀ entry stop target call,
      Action.placeBracketOrder entry stop target call ∉ c.submitOrderList r.exact worlds orders)
    {o : Order ℚ δ} (ho : o ∈ orders) : Withheld (c.submitOrderList r.exact worlds orders) o := by
  unfold Client.submitOrderList at hnone ⊢
  split
  · exact withheld_denyAll ho _
  · next htrading =>
    rw [if_neg htrading, if_pos hbracket] at hnone
    rcases submitBracket_cases r.exact c (worlds 0) orders with
      ⟨reason, hdeny⟩ | ⟨entry, stop, target, call, -, hlog⟩
    · rw [hdeny]
      exact withheld_denyAll ho reason
    · exact absurd (hlog ▸ by simp) (hnone entry stop target call)

/-- The rounded distance gives the distance back exactly where it is a whole number of ticks. -/
theorem roundHalfEven_ticks_iff {tick distance : ℚ} (htick : 0 < tick) :
    (0 < roundHalfEven (distance / tick) ∧ distance = roundHalfEven (distance / tick) * tick) ↔
      ∃ n : Int, 0 < n ∧ distance = n * tick := by
  constructor
  · exact fun h => ⟨_, h⟩
  · rintro ⟨n, hn, rfl⟩
    rw [mul_div_cancel_right₀ _ htick.ne', roundHalfEven_intCast]
    exact ⟨hn, rfl⟩

theorem Counted.lossless_iff {side : OrderSide} (h : Counted p call) (htick : 0 < p.tick) :
    Lossless side p call ↔
      WholeTicks p.tick p.entry p.stop ∧ WholeTicks p.tick p.entry p.target ∧ OnSides side p := by
  have hstop := @roundHalfEven_ticks_iff p.tick |p.entry - p.stop| htick
  have htarget := @roundHalfEven_ticks_iff p.tick |p.entry - p.target| htick
  rw [← h.stop] at hstop
  rw [← h.target] at htarget
  constructor
  · exact fun ⟨hs, ht, hsides⟩ => ⟨hstop.mp hs, htarget.mp ht, hsides⟩
  · exact fun ⟨hs, ht, hsides⟩ => ⟨hstop.mpr hs, htarget.mpr ht, hsides⟩

/-- Brackets are lossless or denied exactly where every list that passes the checks has both exits a whole
number of ticks from the entry, each on its side. -/
theorem submitOrderList_lossless_iff (r : Runtime ℚ δ) (c : Client) (worlds : Nat → World ℚ)
    (orders : List (Order ℚ δ)) :
    LosslessOrDenied (worlds 0) orders (c.submitOrderList r.exact worlds orders) ↔
      ∀ entry stop target p, Passes r c (worlds 0) orders entry stop target p →
        WholeTicks p.tick p.entry p.stop ∧ WholeTicks p.tick p.entry p.target ∧
          OnSides entry.side p := by
  constructor
  · intro hlossless entry stop target p hpasses
    obtain ⟨call, hplaced⟩ := hpasses.mem_submitOrderList
    obtain ⟨q, hq, hcounted⟩ := mem_submitOrderList hplaced
    obtain rfl : q = p := Option.some.inj (hq.prices.symm.trans hpasses.prices)
    obtain ⟨q', hq', hcall⟩ := hlossless.1 entry stop target call hplaced
    obtain rfl : q' = q := Option.some.inj (hq'.symm.trans hpasses.prices)
    exact (hcounted.lossless_iff hpasses.tick).mp hcall
  · intro hwhole
    refine ⟨fun entry stop target call hplaced => ?_, fun hbracket hnone o ho =>
      withheld_of_not_placed hbracket hnone ho⟩
    obtain ⟨p, hpasses, hcounted⟩ := mem_submitOrderList hplaced
    exact ⟨p, hpasses.prices,
      (hcounted.lossless_iff hpasses.tick).mpr (hwhole entry stop target p hpasses)⟩

/-! ### A stop that moves -/

def exactWorld : World ℚ where
  instrument _ := some ⟨1 / 4, some "NQU6", some "CME"⟩
  sessionTradingEnabled := true
  plant := ⟨.live⟩
  outcome := .returned

def exactEntry : Order ℚ Nat where
  clientOrderId := "E"
  instrumentId := "NQU6.CME"
  side := .buy
  orderType := .limit
  timeInForce := .gtc
  quantity := 1
  price := some 21000

def exactStop (trigger : ℚ) : Order ℚ Nat where
  clientOrderId := "SL"
  parentOrderId := some "E"
  instrumentId := "NQU6.CME"
  side := .sell
  orderType := .stopMarket
  timeInForce := .gtc
  quantity := 1
  triggerPrice := some trigger

def exactTarget : Order ℚ Nat where
  clientOrderId := "TP"
  parentOrderId := some "E"
  instrumentId := "NQU6.CME"
  side := .sell
  orderType := .limit
  timeInForce := .gtc
  quantity := 1
  price := some 21020

def exactRuntime : Runtime ℚ Nat where
  positive _ := true
  ticksBetween _ _ _ := none
  intOf offset := offset
  wholeTicks _ := true
  reprSide _ := "NO_ORDER_SIDE"
  reprType _ := "MARKET_TO_LIMIT"
  reprTif _ := "GTD"
  reprOffsetType _ := "None"
  reprOffset offset := toString offset

def exactCall (stopTicks : Int) : BracketCall ℚ where
  symbol := "NQU6"
  exchange := "CME"
  side := "BUY"
  priceType := "LIMIT"
  quantity := 1
  localid := "E"
  price := some 21000
  trigger := none
  duration := "GTC"
  stopTicks := stopTicks
  targetTicks := 80

def exactLog (trigger : ℚ) : List (Action ℚ Nat) :=
  tradingClient.submitOrderList exactRuntime.exact (fun _ => exactWorld)
    [exactEntry, exactStop trigger, exactTarget]

/-- Ticks are a quarter: a stop at 20989.9 is sent as 40 of them, to 20990, and so is a stop above the
entry, at 21010. -/
theorem submitOrderList_moves_stop :
    (Action.placeBracketOrder exactEntry (exactStop (209899 / 10)) exactTarget (exactCall 40) ∈
        exactLog (209899 / 10) ∧
      ¬ LosslessOrDenied exactWorld [exactEntry, exactStop (209899 / 10), exactTarget]
        (exactLog (209899 / 10))) ∧
    (Action.placeBracketOrder exactEntry (exactStop 21010) exactTarget (exactCall 40) ∈
        exactLog 21010 ∧
      ¬ LosslessOrDenied exactWorld [exactEntry, exactStop 21010, exactTarget] (exactLog 21010)) := by
  have hoff : Action.placeBracketOrder exactEntry (exactStop (209899 / 10)) exactTarget (exactCall 40) ∈
      exactLog (209899 / 10) := by decide +kernel
  have hover : Action.placeBracketOrder exactEntry (exactStop 21010) exactTarget (exactCall 40) ∈
      exactLog 21010 := by decide +kernel
  refine ⟨⟨hoff, fun h => ?_⟩, hover, fun h => ?_⟩
  · obtain ⟨p, hp, hlossless⟩ := h.1 _ _ _ _ hoff
    obtain rfl : _ = p := Option.some.inj hp
    have hdistance := hlossless.stop.2
    norm_num [exactCall] at hdistance
  · obtain ⟨p, hp, hlossless⟩ := h.1 _ _ _ _ hover
    obtain rfl : _ = p := Option.some.inj hp
    have hbelow := hlossless.sides.1
    norm_num at hbelow

end RithmicNt.Adapter.OrderLists
