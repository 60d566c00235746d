import RithmicNt.Host.Session

/-! The host's capability gates, and the table that says which of them guards each method of a
session. -/

namespace RithmicNt.Host

/-- Which gate guards a method. -/
inductive Gate
  | none
  | trading
  | cancelAll
  deriving DecidableEq, Repr

inductive Method
  | subscribe
  | subscribeOrderBookSummary
  | subscribeTimeBars
  | subscribePnl
  | subscribeOrderUpdates
  | subscribeBracketUpdates
  | unsubscribe
  | unsubscribeOrderBookSummary
  | unsubscribeTimeBars
  | disconnectPnlPlant
  | disconnectOrderPlant
  | requestPlants
  | ensurePnlPlant
  | ensureOrderPlant
  | openGates
  | getFrontMonth
  | getReferenceData
  | resolvedAccount
  | loadTicks
  | loadTimeBars
  | probeTimeBars
  | loadOrders
  | loadProductRmsInfo
  | loadAccountRmsInfo
  | loadFillHistory
  | loadOrderHistoryDates
  | loadOrderHistory
  | placeOrder
  | placeBracketOrder
  | adjustBracketStop
  | adjustBracketTarget
  | cancelOrder
  | modifyOrder
  | cancelAllOrders
  | connect
  | disconnect
  | pollEvent
  | pollHistoryEvent
  | pollPnlEvent
  | pollOrderEvent
  | nextEvents
  deriving DecidableEq, Repr

/-- The names that `require_gate` is called with, as they stand in its errors. -/
def Method.what : Method → String
  | .ensureOrderPlant => "ensure_order"
  | .getFrontMonth => "get_front_month"
  | .getReferenceData => "get_reference_data"
  | .loadTicks => "load_ticks"
  | .loadTimeBars => "load_time_bars"
  | .probeTimeBars => "probe_time_bars"
  | .loadOrders => "load_orders"
  | .loadProductRmsInfo => "load_product_rms_info"
  | .loadAccountRmsInfo => "load_account_rms_info"
  | .loadFillHistory => "load_fill_history"
  | .loadOrderHistoryDates => "load_order_history_dates"
  | .loadOrderHistory => "load_order_history"
  | .placeOrder => "place_order"
  | .placeBracketOrder => "place_bracket_order"
  | .adjustBracketStop => "adjust_bracket_stop"
  | .adjustBracketTarget => "adjust_bracket_target"
  | .cancelOrder => "cancel_order"
  | .modifyOrder => "modify_order"
  | .cancelAllOrders => "cancel_all_orders"
  | .subscribe => "subscribe"
  | .subscribeOrderBookSummary => "subscribe_order_book_summary"
  | .subscribeTimeBars => "subscribe_time_bars"
  | .subscribePnl => "subscribe_pnl"
  | .subscribeOrderUpdates => "subscribe_order_updates"
  | .subscribeBracketUpdates => "subscribe_bracket_updates"
  | .unsubscribe => "unsubscribe"
  | .unsubscribeOrderBookSummary => "unsubscribe_order_book_summary"
  | .unsubscribeTimeBars => "unsubscribe_time_bars"
  | .disconnectPnlPlant => "disconnect_pnl_plant"
  | .disconnectOrderPlant => "disconnect_order_plant"
  | .requestPlants => "request_plants"
  | .ensurePnlPlant => "ensure_pnl_plant"
  | .openGates => "open_gates"
  | .resolvedAccount => "resolved_account"
  | .connect => "connect"
  | .disconnect => "disconnect"
  | .pollEvent => "poll_event"
  | .pollHistoryEvent => "poll_history_event"
  | .pollPnlEvent => "poll_pnl_event"
  | .pollOrderEvent => "poll_order_event"
  | .nextEvents => "next_events"

structure Rpc where
  method : Method
  gate : Gate

def rpcTable : List Rpc := [
  ⟨.subscribe, .none⟩,
  ⟨.subscribeOrderBookSummary, .none⟩,
  ⟨.subscribeTimeBars, .none⟩,
  ⟨.subscribePnl, .none⟩,
  ⟨.subscribeOrderUpdates, .trading⟩,
  ⟨.subscribeBracketUpdates, .trading⟩,
  ⟨.unsubscribe, .none⟩,
  ⟨.unsubscribeOrderBookSummary, .none⟩,
  ⟨.unsubscribeTimeBars, .none⟩,
  ⟨.disconnectPnlPlant, .none⟩,
  ⟨.disconnectOrderPlant, .none⟩,
  ⟨.requestPlants, .none⟩,
  ⟨.ensurePnlPlant, .none⟩,
  ⟨.ensureOrderPlant, .trading⟩,
  ⟨.openGates, .none⟩,
  ⟨.getFrontMonth, .none⟩,
  ⟨.getReferenceData, .none⟩,
  ⟨.resolvedAccount, .none⟩,
  ⟨.loadTicks, .none⟩,
  ⟨.loadTimeBars, .none⟩,
  ⟨.probeTimeBars, .none⟩,
  ⟨.loadOrders, .trading⟩,
  ⟨.loadProductRmsInfo, .trading⟩,
  ⟨.loadAccountRmsInfo, .trading⟩,
  ⟨.loadFillHistory, .trading⟩,
  ⟨.loadOrderHistoryDates, .trading⟩,
  ⟨.loadOrderHistory, .trading⟩,
  ⟨.placeOrder, .trading⟩,
  ⟨.placeBracketOrder, .trading⟩,
  ⟨.adjustBracketStop, .trading⟩,
  ⟨.adjustBracketTarget, .trading⟩,
  ⟨.cancelOrder, .trading⟩,
  ⟨.modifyOrder, .trading⟩,
  ⟨.cancelAllOrders, .cancelAll⟩,
  ⟨.connect, .none⟩,
  ⟨.disconnect, .none⟩,
  ⟨.pollEvent, .none⟩,
  ⟨.pollHistoryEvent, .none⟩,
  ⟨.pollPnlEvent, .none⟩,
  ⟨.pollOrderEvent, .none⟩,
  ⟨.nextEvents, .none⟩]

/-- Every method has its row, so that the lookup of `require_gate` does not panic. -/
theorem rpcTable_total (m : Method) : (rpcTable.find? fun r => r.method = m).isSome = true := by
  cases m <;> rfl

def Method.gate (m : Method) : Gate :=
  ((rpcTable.find? fun r => r.method = m).map Rpc.gate).getD .none

structure Gates where
  trading : Bool := false
  cancelAll : Bool := false
  deriving DecidableEq, Repr

namespace Gates

def «open» (g : Gates) (trading cancelAll : Bool) : Gates :=
  ⟨g.trading || trading, g.cancelAll || cancelAll⟩

def allows (g : Gates) : Gate → Bool
  | .none => true
  | .trading => g.trading
  | .cancelAll => g.cancelAll

/-- Every gate that is open in `g` is open in `h`. -/
def Within (g h : Gates) : Prop := ∀ gate, g.allows gate = true → h.allows gate = true

theorem Within.refl (g : Gates) : g.Within g := fun _ => id

theorem Within.trans {g h k : Gates} (hgh : g.Within h) (hhk : h.Within k) : g.Within k :=
  fun gate hgate => hhk gate (hgh gate hgate)

theorem within_open (g : Gates) (trading cancelAll : Bool) :
    g.Within (g.open trading cancelAll) := by
  intro gate h
  cases gate with
  | none => rfl
  | trading => simpa [allows, Gates.open] using .inl h
  | cancelAll => simpa [allows, Gates.open] using .inl h

end Gates

def requireGate (g : Gates) (m : Method) : Except Error Unit :=
  match m.gate with
  | .trading =>
    if g.trading then .ok ()
    else .error (.gateway "trading_disabled" (m.what ++ " denied: parent trading disabled"))
  | .cancelAll =>
    if g.cancelAll then .ok ()
    else .error (.gateway "cancel_all_denied" (m.what ++ " denied: parent cancel_all disabled"))
  | .none => .ok ()

theorem requireGate_ok_iff {g : Gates} {m : Method} :
    requireGate g m = .ok () ↔ g.allows m.gate = true := by
  unfold requireGate Gates.allows
  cases m.gate with
  | none => simp
  | trading => by_cases h : g.trading <;> simp [h]
  | cancelAll => by_cases h : g.cancelAll <;> simp [h]

end RithmicNt.Host
