import Karsa.Execution.Router.Entry

/-!
# Smart order router - The stop behind a fill

`_place_sl_after_fill` attaches a stop to the position, tries once more when that fails, and
then places a conditional order instead.  Whatever fails is logged and swallowed, and the
method returns nothing in every case.

The log of a call lists what reached the exchange, with the requests for a stop as they were
taken.

Main results:

- Theorem `stopRequests_placeSlAfterFill`: the requests for a stop, in order.
- Theorem `exists_protects_iff`: when one of the requests from a given one on protects a fill.
-/

namespace Karsa
namespace Router

open Bybit

/-! ## Calls and answers -/

/-- What reached the exchange: an order of the entry, with its side if the exchange knows the
word for it, cancellations, and requests for a stop, with the price that was sent and whether the
exchange took it. -/
inductive ExchangeStep where
  | order (side : Option OrderSide) (answer : Placement)
  | cancel (orderId : Text)
  | tradingStop (price : ℚ) (taken : Bool)
  | conditional (side : OrderSide) (price : ℚ) (taken : Bool)

/-- Is it a request for a stop? -/
def ExchangeStep.isStop : ExchangeStep → Bool
  | tradingStop _ _ | conditional _ _ _ => true
  | order _ _ | cancel _ => false

/-- The exchange takes a request or not; only one that it takes is answered. -/
structure StopReply where
  taken : Bool
  answered : Bool
  sound : answered = true → taken = true

/-- Answers met by one `_place_sl_after_fill`. -/
structure StopAnswers where
  openOrders : Except Text (List OpenOrder)
  primary : StopReply
  retry : StopReply
  fallback : StopReply

/-- `max_loss_usd` and `price_tick` with the client's tables. -/
structure StopTerms where
  tables : InstrumentTables
  maxLossUsd : ℚ
  priceTick : ℚ

/-- `sl_distance`. -/
def StopTerms.distance (terms : StopTerms) (amount : ℚ) : ℚ :=
  if 0 < amount then terms.maxLossUsd / amount else 0

/-- `sl_price`. -/
def StopTerms.slPrice (terms : StopTerms) (side : OrderSide) (fillPrice amount : ℚ) : ℚ :=
  quantize terms.priceTick
    (match side with
      | .buy => fillPrice - terms.distance amount
      | .sell => fillPrice + terms.distance amount)

/-- The stop price that the client sends. -/
def StopTerms.sentPrice (terms : StopTerms) (symbol : Text) (side : OrderSide)
    (fillPrice amount : ℚ) : ℚ :=
  terms.tables.roundPrice symbol (terms.slPrice side fillPrice amount)

/-- A conditional order, by the words that the router looks for. -/
def isStaleStop (o : OpenOrder) : Bool :=
  o.type = "stop".toList || o.type = "StopOrder".toList || o.type = "Stop".toList ||
    o.stopOrderType ≠ []

/-- From eight stop orders on, all of them are cancelled first. -/
def cleanup (a : StopAnswers) : List ExchangeStep :=
  match a.openOrders with
  | .error _ => []
  | .ok orders =>
      let stops := orders.filter isStaleStop
      if 8 ≤ stops.length then stops.map fun o => .cancel o.id else []

/-- The requests for a stop at the given price. -/
def stopCalls (side : OrderSide) (price : ℚ) (a : StopAnswers) : List ExchangeStep :=
  .tradingStop price a.primary.taken ::
    if a.primary.answered then []
    else
      .tradingStop price a.retry.taken ::
        if a.retry.answered then [] else [.conditional side.opposite price a.fallback.taken]

/-- `_place_sl_after_fill`, with what it returns. -/
def placeSlAfterFill (terms : StopTerms) (symbol : Text) (side : OrderSide)
    (fillPrice amount : ℚ) (a : StopAnswers) : List ExchangeStep × Option Text :=
  if terms.priceTick = 0 then ([], none)
  else (cleanup a ++ stopCalls side (terms.sentPrice symbol side fillPrice amount) a, none)

/-- It returns nothing, whether a stop was taken or not. -/
theorem placeSlAfterFill_result (terms : StopTerms) (symbol : Text) (side : OrderSide)
    (fillPrice amount : ℚ) (a : StopAnswers) :
    (placeSlAfterFill terms symbol side fillPrice amount a).2 = none := by
  unfold placeSlAfterFill
  split <;> rfl

/-- Whatever it sends, none of it is an order of the entry. -/
theorem not_order_mem_placeSlAfterFill {terms : StopTerms} {symbol : Text} {side : OrderSide}
    {fillPrice amount : ℚ} {a : StopAnswers} {orderSide : Option OrderSide} {p : Placement} :
    .order orderSide p ∉ (placeSlAfterFill terms symbol side fillPrice amount a).1 := by
  unfold placeSlAfterFill
  split
  · simp
  · intro hmem
    rcases List.mem_append.mp hmem with hcleanup | hcalls
    · unfold cleanup at hcleanup
      split at hcleanup
      · simp at hcleanup
      · dsimp only at hcleanup
        split at hcleanup
        · simp at hcleanup
        · simp at hcleanup
    · unfold stopCalls at hcalls
      cases hprimary : a.primary.answered with
      | true => simp [hprimary] at hcalls
      | false => cases hretry : a.retry.answered <;> simp [hprimary, hretry] at hcalls

/-! ## Requests for a stop -/

/-- The requests for a stop in a log. -/
def stopRequests (log : List ExchangeStep) : List ExchangeStep :=
  log.filter ExchangeStep.isStop

@[simp] theorem stopRequests_append (log later : List ExchangeStep) :
    stopRequests (log ++ later) = stopRequests log ++ stopRequests later := by
  simp [stopRequests]

/-- Cancellations are no requests. -/
theorem stopRequests_cleanup (a : StopAnswers) : stopRequests (cleanup a) = [] := by
  unfold cleanup
  cases a.openOrders with
  | error message => rfl
  | ok orders =>
      dsimp only
      split
      · apply List.filter_eq_nil_iff.mpr
        intro step hstep
        rcases List.mem_map.mp hstep with ⟨o, -, rfl⟩
        simp [ExchangeStep.isStop]
      · rfl

theorem stopRequests_stopCalls (side : OrderSide) (price : ℚ) (a : StopAnswers) :
    stopRequests (stopCalls side price a) = stopCalls side price a := by
  unfold stopCalls
  cases a.primary.answered <;> cases a.retry.answered <;> rfl

/-- The requests for a stop, in order. -/
theorem stopRequests_placeSlAfterFill (terms : StopTerms) (symbol : Text) (side : OrderSide)
    (fillPrice amount : ℚ) (a : StopAnswers) :
    stopRequests (placeSlAfterFill terms symbol side fillPrice amount a).1 =
      if terms.priceTick = 0 then []
      else stopCalls side (terms.sentPrice symbol side fillPrice amount) a := by
  unfold placeSlAfterFill
  split
  · rfl
  · rw [stopRequests_append, stopRequests_cleanup, List.nil_append, stopRequests_stopCalls]

/-- The stop lies on the losing side of a fill. -/
def OnLosingSide (entry : OrderSide) (fillPrice stopPrice : ℚ) : Prop :=
  match entry with
  | .buy => stopPrice < fillPrice
  | .sell => fillPrice < stopPrice

instance (entry : OrderSide) (fillPrice stopPrice : ℚ) :
    Decidable (OnLosingSide entry fillPrice stopPrice) := by
  unfold OnLosingSide
  cases entry <;> infer_instance

/-- A request that the exchange took limits the loss of this fill; a conditional order has to
close the position, too. -/
def ExchangeStep.Protects (entry : OrderSide) (fillPrice : ℚ) : ExchangeStep → Prop
  | tradingStop price taken => taken = true ∧ OnLosingSide entry fillPrice price
  | conditional side price taken =>
      taken = true ∧ side = entry.opposite ∧ OnLosingSide entry fillPrice price
  | order _ _ | cancel _ => False

instance (entry : OrderSide) (fillPrice : ℚ) :
    DecidablePred (ExchangeStep.Protects entry fillPrice)
  | .tradingStop _ _ => inferInstanceAs (Decidable (_ ∧ _))
  | .conditional _ _ _ => inferInstanceAs (Decidable (_ ∧ _ ∧ _))
  | .order _ _ | .cancel _ => isFalse id

/-- What protects a fill is a request for a stop. -/
theorem ExchangeStep.Protects.isStop {entry : OrderSide} {fillPrice : ℚ} {step : ExchangeStep}
    (h : step.Protects entry fillPrice) : step.isStop = true := by
  cases step with
  | order side answer => exact h.elim
  | cancel orderId => exact h.elim
  | tradingStop price taken => rfl
  | conditional side price taken => rfl

/-- Of the steps that follow some others, the requests decide whether a fill is protected. -/
theorem exists_protects_append (entry : OrderSide) (fillPrice : ℚ)
    (before after : List ExchangeStep) :
    (∃ step ∈ after, step.Protects entry fillPrice) ↔
      ∃ step ∈ (stopRequests (before ++ after)).drop (stopRequests before).length,
        step.Protects entry fillPrice := by
  rw [stopRequests_append, List.drop_left]
  constructor
  · rintro ⟨step, hmem, hprotects⟩
    exact ⟨step, List.mem_filter.mpr ⟨hmem, hprotects.isStop⟩, hprotects⟩
  · rintro ⟨step, hmem, hprotects⟩
    exact ⟨step, (List.mem_filter.mp hmem).1, hprotects⟩

/-- With `before` requests behind it, a stop is still taken: at the first try, the second one, or
as a conditional order that closes the position. -/
def TakenAfter (entry side : OrderSide) (a : StopAnswers) (before : Nat) : Prop :=
  (before = 0 ∧ a.primary.taken = true) ∨
    a.primary.answered = false ∧
      ((before ≤ 1 ∧ a.retry.taken = true) ∨
        a.retry.answered = false ∧ before ≤ 2 ∧ a.fallback.taken = true ∧ side = entry)

instance (entry side : OrderSide) (a : StopAnswers) (before : Nat) :
    Decidable (TakenAfter entry side a before) :=
  inferInstanceAs (Decidable (_ ∨ _ ∧ (_ ∨ _ ∧ _ ∧ _ ∧ _)))

/-- The opposite tells the side. -/
theorem opposite_inj {side entry : OrderSide} : side.opposite = entry.opposite ↔ side = entry := by
  cases side <;> cases entry <;> decide

/-- One of the requests from a given one on protects the fill if it was taken and its price lies
on the losing side. -/
theorem exists_protects_iff (entry side : OrderSide) (fillPrice price : ℚ) (a : StopAnswers)
    (before : Nat) :
    (∃ step ∈ (stopCalls side price a).drop before, step.Protects entry fillPrice) ↔
      OnLosingSide entry fillPrice price ∧ TakenAfter entry side a before := by
  unfold stopCalls TakenAfter
  rcases before with _ | _ | _ | before
  · cases a.primary.answered <;> cases a.retry.answered <;>
      simp [ExchangeStep.Protects, opposite_inj] <;> tauto
  · cases a.primary.answered <;> cases a.retry.answered <;>
      simp [ExchangeStep.Protects, opposite_inj] <;> tauto
  · cases a.primary.answered with
    | true => simp
    | false =>
        cases a.retry.answered with
        | true => simp
        | false =>
            simp [ExchangeStep.Protects, opposite_inj]
            tauto
  · cases a.primary.answered with
    | true => simp
    | false => cases a.retry.answered <;> simp

end Router
end Karsa
