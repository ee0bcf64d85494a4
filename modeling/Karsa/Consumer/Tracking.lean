import Karsa.Consumer.LiveSignal

/-!
# Live loop - Tracking an opened position

Once the router has returned an order, the position it opened has to be in the
position store under its filled quantity, or be closed again.  The handler meets
this exactly when a configuration text was present, the fill price becomes known,
the whole amount was filled, and the store takes the record.

Main results:

- Theorem `onSignalLive_tracked_iff`: when an opened position is tracked.
- Theorem `initialRiskPerUnit_pos`: the recorded risk is positive whatever the
  signal.
-/

namespace Karsa
namespace Live

open Bybit Router

/-! ## The property -/

/-- The router returned `order` for the entry of this signal. -/
def Opened (symbol : Text) (signal : TradeSignal) (order : Execution) (s : SignalState) :
    Prop :=
  .enter (entryRequest symbol signal) (maxLossUsd signal) (.ok (some order)) ∈ s.calls

/-- The store has a record of the filled quantity with a positive risk, or a closing
order was submitted. -/
def Tracked (symbol : Text) (signal : TradeSignal) (order : Execution) (s : SignalState) :
    Prop :=
  (∃ pos ∈ s.store.get symbol signal.direction,
      pos.amount = order.filledQty ∧ 0 < pos.initialRiskPerUnit) ∨
    .close symbol (entrySide signal.direction).opposite ∈ s.calls

instance (symbol : Text) (signal : TradeSignal) (order : Execution) (s : SignalState) :
    Decidable (Opened symbol signal order s) :=
  inferInstanceAs (Decidable (_ ∈ s.calls))

instance (symbol : Text) (signal : TradeSignal) (order : Execution) (s : SignalState) :
    Decidable (Tracked symbol signal order s) :=
  inferInstanceAs (Decidable (_ ∨ _))

/-- The order or the trade history tells a positive price. -/
def PriceKnown (a : SignalAnswers) (order : Execution) : Prop :=
  ∃ reported ∈ reportedPrice order.reply,
    0 < reported ∨ ∃ last ∈ lastTradePrice a, 0 < last

/-! ## Initial risk -/

/-- A position with a positive fill price gets a positive risk. -/
theorem initialRiskPerUnit_pos (signal : TradeSignal) {fillPrice : ℚ}
    (hprice : 0 < fillPrice) : 0 < initialRiskPerUnit signal fillPrice := by
  unfold initialRiskPerUnit
  dsimp only
  split_ifs with hrisk hfallback
  · linarith
  · exact not_le.mp hfallback
  · rw [not_or, not_le] at hrisk
    exact hrisk.1

/-! ## Gates -/

/-- Calls that neither enter nor leave a position. -/
def ExchangeCall.Reads : ExchangeCall → Prop
  | .openOrders _ => True
  | .enter _ _ _ | .close _ _ => False

/-- Only reads were sent. -/
def OnlyReads (s : SignalState) : Prop :=
  ∀ c ∈ s.calls, c.Reads

/-- The entry is still to come: only reads were sent and the store is untouched. -/
structure Waiting (store : PositionStore) (bound : Bool) (s : SignalState) : Prop where
  decimalBound : s.decimalBound = bound
  store_eq : s.store = store
  onlyReads : OnlyReads s

theorem Waiting.start (signal : TradeSignal) (store : PositionStore) :
    Waiting store false (.start signal store) where
  decimalBound := rfl
  store_eq := rfl
  onlyReads := by simp [OnlyReads, SignalState.start]

section Gates

variable (symbol : Text) (signal : TradeSignal) (a : SignalAnswers) (s : SignalState)

theorem asmGate_state : (asmGate a s).state = s := by
  unfold asmGate
  split
  · rfl
  · split_ifs <;> rfl

theorem blocklistGate_state : (blocklistGate a s).state = s := by
  unfold blocklistGate
  split
  · rfl
  · split_ifs <;> rfl

theorem slotGate_state : (slotGate signal a s).state = s := by
  unfold slotGate
  dsimp only
  split_ifs <;> rfl

theorem lossGate_state : (lossGate a s).state = s := by
  unfold lossGate
  split
  · rfl
  · split_ifs <;> rfl

theorem mlGate_state : (mlGate a s).state = s := by
  unfold mlGate
  split
  · rfl
  · split_ifs <;> rfl

theorem riskGate_state : (riskGate a s).state = s := by
  unfold riskGate
  split
  · rfl
  · split
    · rfl
    · split_ifs <;> rfl

end Gates

section Waits

variable {store : PositionStore} {bound : Bool}

/-- The configuration read is what binds `Decimal`. -/
theorem sizingGate_spec (symbol : Text) (signal : TradeSignal) (a : SignalAnswers) :
    Flow.Spec (Waiting store false) (sizingGate symbol signal a)
      (Waiting store a.config.present) OnlyReads := by
  intro s hs
  have hbound : Waiting store true { s with decimalBound := true } :=
    ⟨rfl, hs.store_eq, hs.onlyReads⟩
  unfold sizingGate
  cases a.config with
  | failed => exact hs
  | absent => exact hs
  | malformed => exact hbound
  | decoded config =>
      dsimp only
      split_ifs
      · exact hs.onlyReads
      · exact hbound

theorem analystGate_spec (signal : TradeSignal) (a : SignalAnswers) :
    Flow.Spec (Waiting store bound) (analystGate signal a) (Waiting store bound)
      OnlyReads := by
  intro s hs
  unfold analystGate
  split
  · exact hs
  · exact hs.onlyReads
  · exact hs.onlyReads
  · exact ⟨hs.decimalBound, hs.store_eq, hs.onlyReads⟩

theorem stopRoomGate_spec (symbol : Text) (a : SignalAnswers) :
    Flow.Spec (Waiting store bound) (stopRoomGate symbol a) (Waiting store bound)
      OnlyReads := by
  intro s hs
  have hreads : OnlyReads (s.call (.openOrders symbol)) := by
    intro c hc
    rcases List.mem_append.mp hc with hold | hnew
    · exact hs.onlyReads c hold
    · rw [List.mem_singleton.mp hnew]
      trivial
  have hcall : Waiting store bound (s.call (.openOrders symbol)) :=
    ⟨hs.decimalBound, hs.store_eq, hreads⟩
  unfold stopRoomGate
  split_ifs
  · dsimp only
    split
    · exact hcall
    · split_ifs
      · exact hreads
      · exact hcall
  · exact hs

/-- Every later gate waits for the entry. -/
theorem laterGates_spec (symbol : Text) (signal : TradeSignal) (a : SignalAnswers) :
    Flow.Spec (Waiting store bound) (Flow.blocks (laterGates symbol signal a))
      (Waiting store bound) OnlyReads := by
  have hleft : ∀ s, Waiting store bound s → OnlyReads s := fun _ hs => hs.onlyReads
  apply Flow.Spec.blocks
  simp only [laterGates, List.forall_mem_cons]
  refine ⟨.of_state_eq (slotGate_state signal a) hleft,
    .of_state_eq (lossGate_state a) hleft, .of_state_eq (mlGate_state a) hleft,
    analystGate_spec signal a, .of_state_eq (riskGate_state a) hleft,
    stopRoomGate_spec symbol a, ?_⟩
  simp

/-- The check for a second position lets the signal through only if there is none. -/
theorem duplicateGate_spec (symbol : Text) (a : SignalAnswers) :
    Flow.Spec (Waiting store bound) (duplicateGate symbol a)
      (fun s => Waiting store bound s ∧ store.hasPosition symbol = false) OnlyReads := by
  intro s hs
  unfold duplicateGate
  split_ifs with hreadable hopen
  · exact hs.onlyReads
  · refine ⟨hs, ?_⟩
    rw [← hs.store_eq]
    exact Bool.eq_false_iff.mpr hopen
  · exact hs.onlyReads

/-- A signal that reaches the entry found no position of its symbol. -/
theorem gates_ends (symbol : Text) (signal : TradeSignal) (a : SignalAnswers)
    (store : PositionStore) :
    (gates symbol signal a (.start signal store)).Ends
      (fun s => Waiting store a.config.present s ∧ store.hasPosition symbol = false)
      OnlyReads := by
  have hleft : ∀ bound s, Waiting store bound s → OnlyReads s := fun _ _ hs => hs.onlyReads
  have hasm := Flow.Spec.of_state_eq (asmGate_state a) (hleft false)
  have hblocklist := Flow.Spec.of_state_eq (blocklistGate_state a) (hleft false)
  have hlater : Flow.Spec
      (fun s => Waiting store a.config.present s ∧ store.hasPosition symbol = false)
      (Flow.blocks [Flow.blocks (laterGates symbol signal a)])
      (fun s => Waiting store a.config.present s ∧ store.hasPosition symbol = false)
      OnlyReads := by
    rintro s ⟨hs, hfree⟩
    rw [Flow.blocks_cons, Flow.andThen_blocks_nil]
    exact (laterGates_spec symbol signal a s hs).mono (fun _ h => ⟨h, hfree⟩) fun _ h => h
  exact hasm.seq (hblocklist.seq ((sizingGate_spec symbol signal a).seq
    ((duplicateGate_spec symbol a).seq hlater))) _ (.start signal store)

end Waits

/-! ## Recording the fill -/

section Fill

variable {symbol : Text} {signal : TradeSignal} {a : SignalAnswers} {order : Execution}
  {s : SignalState}

/-- A reported price settles to a positive one exactly when the price is known. -/
theorem priceKnown_iff {reported : ℚ} (hreported : reportedPrice order.reply = some reported) :
    PriceKnown a order ↔ 0 < settledPrice a reported := by
  unfold PriceKnown settledPrice
  rw [hreported]
  simp only [Option.mem_some_iff, exists_eq_left']
  split_ifs with hnonpos
  · cases hlast : lastTradePrice a with
    | none => simp
    | some last => simp [not_lt.mpr hnonpos]
  · simp [not_le.mp hnonpos]

/-- Nothing is sent once the order has been returned. -/
theorem trackFill_calls : (trackFill symbol signal a order s).state.calls = s.calls := by
  unfold trackFill
  split_ifs
  · split
    · rfl
    · split_ifs
      · rfl
      · unfold saveRecord recordTrade
        dsimp only
        split_ifs <;> rfl
  · rfl

/-- The store after the fill has been processed. -/
theorem trackFill_store {reported : ℚ} (hbound : s.decimalBound = true)
    (hreported : reportedPrice order.reply = some reported)
    (hprice : 0 < settledPrice a reported) (hwrite : a.write.applied = true) :
    (trackFill symbol signal a order s).state.store =
      s.store.save symbol signal.direction (settledPrice a reported) signal.amount
        (some signal.atr) (some signal.regime.value) (some signal.regime.value)
        (initialRiskPerUnit signal (settledPrice a reported)) a.now := by
  unfold trackFill
  rw [if_pos hbound, hreported]
  dsimp only
  rw [if_neg (not_le.mpr hprice)]
  unfold saveRecord recordTrade
  dsimp only
  rw [if_pos hwrite]
  split_ifs <;> rfl

/-- Where something of this is missing, the store is left as it was. -/
theorem trackFill_store_of_not
    (hmissing : ¬ (s.decimalBound = true ∧ PriceKnown a order ∧ a.write.applied = true)) :
    (trackFill symbol signal a order s).state.store = s.store := by
  unfold trackFill
  split_ifs with hbound
  · split
    · rfl
    · rename_i reported hreported
      split_ifs with hprice
      · rfl
      · have hknown : PriceKnown a order :=
          (priceKnown_iff hreported).mpr (not_le.mp hprice)
        have hwrite : ¬ a.write.applied = true := fun h => hmissing ⟨hbound, hknown, h⟩
        unfold saveRecord recordTrade
        dsimp only
        rw [if_neg hwrite]
        split_ifs <;> rfl
  · rfl

/-- Without an earlier record, the fill is on record exactly when `Decimal` is bound,
the price is known, the quantity is the signal's and the store takes the record. -/
theorem trackFill_recorded_iff (hfree : s.store.get symbol signal.direction = none) :
    (∃ pos ∈ (trackFill symbol signal a order s).state.store.get symbol signal.direction,
        pos.amount = order.filledQty ∧ 0 < pos.initialRiskPerUnit) ↔
      s.decimalBound = true ∧ PriceKnown a order ∧ signal.amount = order.filledQty ∧
        a.write.applied = true := by
  by_cases hall : s.decimalBound = true ∧ PriceKnown a order ∧ a.write.applied = true
  · rcases hall with ⟨hbound, hknown, hwrite⟩
    rcases id hknown with ⟨reported, hreported, -⟩
    have hprice := (priceKnown_iff hreported).mp hknown
    rw [trackFill_store hbound hreported hprice hwrite]
    simp [PositionRecord.opened, hbound, hknown, hwrite, initialRiskPerUnit_pos signal hprice]
  · rw [trackFill_store_of_not hall, hfree]
    constructor
    · rintro ⟨pos, hpos, -⟩
      cases hpos
    · rintro ⟨hbound, hknown, -, hwrite⟩
      exact (hall ⟨hbound, hknown, hwrite⟩).elim

end Fill

/-! ## The whole handler -/

/-- The entry leaves the recorded calls and its own behind. -/
theorem enter_calls {symbol : Text} {signal : TradeSignal} {a : SignalAnswers}
    {s : SignalState} {c : ExchangeCall} (hc : c ∈ (enter symbol signal a s).state.calls) :
    c ∈ s.calls ∨ c = .enter (entryRequest symbol signal) (maxLossUsd signal) a.execution := by
  have hsent : c ∈ (s.call
      (.enter (entryRequest symbol signal) (maxLossUsd signal) a.execution)).calls →
      c ∈ s.calls ∨
        c = .enter (entryRequest symbol signal) (maxLossUsd signal) a.execution := by
    intro h
    rcases List.mem_append.mp h with hold | hnew
    · exact Or.inl hold
    · exact Or.inr (List.mem_singleton.mp hnew)
  unfold enter at hc
  split_ifs at hc
  · dsimp only at hc
    split at hc
    · exact hsent hc
    · exact hsent hc
    · rw [trackFill_calls] at hc
      exact hsent hc
  · exact Or.inl hc

/-- An opened position is tracked exactly when a configuration text was present, the
fill price became known, the whole amount was filled, and the store took the record. -/
theorem onSignalLive_tracked_iff (symbol : Text) (signal : TradeSignal) (a : SignalAnswers)
    (store : PositionStore) (order : Execution)
    (hopened : Opened symbol signal order (onSignalLive symbol signal a store).state) :
    Tracked symbol signal order (onSignalLive symbol signal a store).state ↔
      a.config.present = true ∧ PriceKnown a order ∧ signal.amount = order.filledQty ∧
        a.write.applied = true := by
  have hgates := gates_ends symbol signal a store
  unfold onSignalLive at hopened ⊢
  cases hflow : gates symbol signal a (.start signal store) with
  | ret s =>
      rw [hflow] at hgates hopened
      exact (hgates _ hopened).elim
  | raise s =>
      rw [hflow] at hgates hopened
      exact (hgates _ hopened).elim
  | next s =>
      rw [hflow] at hgates hopened
      rw [Flow.next_andThen] at hopened ⊢
      rcases hgates with ⟨hs, hfree⟩
      -- The order that the store is asked about is the one this entry returned.
      have hexecution : a.execution = .ok (some order) := by
        rcases enter_calls hopened with hold | hnew
        · exact (hs.onlyReads _ hold).elim
        · simp only [ExchangeCall.enter.injEq, true_and] at hnew
          exact hnew.symm
      have hclose : ∀ side, .close symbol side ∉ (enter symbol signal a s).state.calls := by
        intro side hc
        rcases enter_calls hc with hold | hnew
        · exact (hs.onlyReads _ hold).elim
        · cases hnew
      have hexecutor : a.executor.isSome = true := by
        by_contra hnone
        unfold Opened enter at hopened
        rw [if_neg hnone] at hopened
        exact (hs.onlyReads _ hopened).elim
      have hnone : s.store.get symbol signal.direction = none := by
        rw [hs.store_eq]
        exact PositionStore.get_eq_none hfree signal.direction
      unfold Tracked
      rw [or_iff_left (hclose _), ← hs.decimalBound]
      unfold enter
      rw [if_pos hexecutor, hexecution]
      exact trackFill_recorded_iff hnone

/-! ## Runs of the handler -/

/-- A long signal for one unit at 100 with its stop at 98. -/
def longSignal : TradeSignal where
  direction := "LONG".toList
  regime := .RANGE
  score := 80
  entryPrice := 100
  slPrice := 98
  amount := 1
  atr := 1
  slAtrBuffer := 3 / 2

/-- The order of the signal, filled at 100 in full. -/
def filledOrder : Execution where
  reply :=
    { id := none
      orderId := some "order-1".toList
      status := some .closed
      average := some (.value 100)
      avgPrice := some (.value 100)
      price := some (.value 100)
      cumExecQty := some (.value 1)
      amount := none }
  executedQty := 1

/-- Every gate lets the signal through and the order is filled. -/
def filledAnswers (config : ConfigRead) : SignalAnswers where
  asmState := .ok (some "1".toList)
  blocklist := .ok none
  config := config
  executor := some .empty
  positionsReadable := true
  maxPositions := .absent
  maxHyperSlots := .absent
  consecutiveLosses := .ok false
  mlProbability := .ok (8 / 10)
  analyst := none
  riskManager := some fun _ => .ok true
  openOrders := .ok []
  execution := .ok (some filledOrder)
  lastTrade := none
  write := ⟨true, true, fun _ => rfl⟩
  now := 0
  tradeRecorded := true

/-- Without a configuration the order is sent, filled, and never recorded or closed. -/
theorem onSignalLive_loses_position :
    ¬ (Opened "BTC/USDT".toList longSignal filledOrder
        (onSignalLive "BTC/USDT".toList longSignal (filledAnswers .absent) ∅).state →
      Tracked "BTC/USDT".toList longSignal filledOrder
        (onSignalLive "BTC/USDT".toList longSignal (filledAnswers .absent) ∅).state) := by
  decide +kernel

/-- With one, even an unreadable one, the same order is on record. -/
theorem onSignalLive_tracks_position :
    Tracked "BTC/USDT".toList longSignal filledOrder
      (onSignalLive "BTC/USDT".toList longSignal (filledAnswers .malformed) ∅).state := by
  have hopened : Opened "BTC/USDT".toList longSignal filledOrder
      (onSignalLive "BTC/USDT".toList longSignal (filledAnswers .malformed) ∅).state := by
    decide +kernel
  have hprice : PriceKnown (filledAnswers .malformed) filledOrder :=
    ⟨100, rfl, Or.inl (by norm_num)⟩
  exact (onSignalLive_tracked_iff _ _ _ _ _ hopened).mpr ⟨rfl, hprice, rfl, rfl⟩

end Live
end Karsa
