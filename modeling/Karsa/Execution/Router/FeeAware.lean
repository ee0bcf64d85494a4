import Karsa.Execution.Router.EntryStops

/-!
# Smart order router - Entries by expected move

`execute_fee_aware` compares the expected move with the cost of a market order.  A thin edge is
worth one post-only order, which is cancelled after ten seconds; every other entry goes through
`execute`.

After the ten seconds the router looks for a status that the client's dictionary does not have:
`get_order_status` hands Bybit's own entry on, whose key is `orderStatus`.  The order is therefore
cancelled whatever became of it, and nothing is returned.

Main results:

- Theorem `executeFeeAware_stops`: one call asks for the planned stop and no other.
- Theorem `reportedFilled_statusReply`: no looked-up order counts as filled.
-/

namespace Karsa
namespace Router

open Bybit

/-! ## Requests and answers -/

/-- Arguments of `execute_fee_aware`; `entry` holds those that `execute` takes, too. -/
structure FeeRequest where
  entry : EntryRequest
  aiConfidence : ℚ
  atr : ℚ
  estimatedSlippagePct : ℚ
deriving Repr, DecidableEq

/-- Answers met during one call: those of the strict order, and those of `execute`. -/
structure FeeAnswers where
  strict : Placement
  status : Except Text (Option OrderDetails)
  cancel : Except Text Unit
  entry : EntryAnswers

/-! ## The expected move -/

/-- Confidence between zero and one; larger values are percentages. -/
def FeeRequest.confidence (r : FeeRequest) : ℚ :=
  max 0 (min 1 (if 1 < r.aiConfidence then r.aiConfidence / 100 else r.aiConfidence))

/-- An average true range below one is a share of the price. -/
def FeeRequest.atrPriceOffset (r : FeeRequest) : ℚ :=
  if 0 < r.atr ∧ r.atr < 1 then r.atr * r.entry.price else r.atr

/-- `em_price_offset`. -/
def FeeRequest.emPriceOffset (r : FeeRequest) : ℚ :=
  r.confidence * r.atrPriceOffset

/-- `coa_price_offset`. -/
def FeeRequest.coaPriceOffset (r : FeeRequest) : ℚ :=
  (55 / 100000 + r.estimatedSlippagePct) * r.entry.price

/-- `BybitClient.get_maker_fee_rate` answers the same for all symbols. -/
def makerFeeRate : ℚ := 2 / 10000

/-- `thin_edge_mult`. -/
def thinEdgeMult : ℚ :=
  if makerFeeRate < 0 then 1 else 15 / 10

/-- Rule 1. -/
def FeeRequest.thinEdge (r : FeeRequest) : Bool :=
  decide (0 < r.emPriceOffset ∧ r.emPriceOffset < r.coaPriceOffset * thinEdgeMult)

/-! ## The strict order -/

/-- `order.get("status") in ("closed", "Filled")`. -/
def reportedFilled (order : OrderReply) : Bool :=
  order.status = some .closed || order.status = some (.raw "Filled".toList)

/-- `order.get("id") or order.get("orderId")`. -/
def strictOrderId (order : OrderReply) : Option Text :=
  (cancellableId (some order)).or (order.orderId.filter (· ≠ []))

/-- Bybit's own entry as `get_order_status` returns it, or the empty dictionary. -/
def statusReply : Option OrderDetails → OrderReply
  | none => ⟨none, none, none, none, none, none, none, none⟩
  | some d => ⟨none, some d.orderId, none, none, d.avgPrice, d.price, d.cumExecQty, none⟩

/-- No looked-up order counts as filled. -/
theorem reportedFilled_statusReply (details : Option OrderDetails) :
    reportedFilled (statusReply details) = false := by
  cases details <;> rfl

/-- Ask for the stop of a filled order and return it; a price that does not parse is logged. -/
def stopAtFill (r : EntryRequest) (order : OrderReply) (s : RouteState) : Flow RouteState :=
  match fillPrice order r.price with
  | some price => (s.log (.stopRequested price r.amount)).leave (some order)
  | none => s.leave none

/-- Look at the strict order after ten seconds. -/
def awaitStrict (r : EntryRequest) (a : FeeAnswers) (orderId : Text) (s : RouteState) :
    Flow RouteState :=
  match a.status with
  | .error _ => s.leave none
  | .ok details =>
      if reportedFilled (statusReply details) then stopAtFill r (statusReply details) s
      else match a.cancel with
        | .ok () => (s.log (.cancelled orderId)).leave none
        | .error _ => s.leave none

/-- Thin edge: one post-only order, abandoned when it is not filled. -/
def strictPostOnly (r : EntryRequest) (a : FeeAnswers) (s : RouteState) : Flow RouteState :=
  let s := s.log (.placed r.amount (some r.price) a.strict)
  match a.strict.reply with
  | .error message => handleOrderError a.entry message s (s.leave none)
  | .ok order =>
      let s := { s with order := some order }
      if reportedFilled order then stopAtFill r order s
      else match strictOrderId order with
        | none => s.leave none
        | some orderId => awaitStrict r a orderId s

/-- `SmartOrderRouter.execute_fee_aware`.  A high expectancy shortens the delays of `execute`
and changes nothing else. -/
def executeFeeAware (settings : RouterSettings) (r : FeeRequest) (a : FeeAnswers) : RouteState :=
  if r.entry.price ≤ 0 ∨ r.entry.amount ≤ 0 then RouteState.start r.entry
  else if r.thinEdge then (strictPostOnly r.entry a (RouteState.start r.entry)).state
  else execute settings r.entry a.entry

/-! ## The planned stop -/

/-- The strict order asks for a stop if it is reported filled at once and its fill price
parses. -/
def strictStop (r : EntryRequest) (a : FeeAnswers) : Option StopRequest :=
  match a.strict.reply with
  | .ok order =>
      if reportedFilled order then (fillPrice order r.price).map fun price => (price, r.amount)
      else none
  | .error _ => none

/-- The stop that one call asks for. -/
def feeStop (settings : RouterSettings) (r : FeeRequest) (a : FeeAnswers) : Option StopRequest :=
  if r.entry.price ≤ 0 ∨ r.entry.amount ≤ 0 then none
  else if r.thinEdge then strictStop r.entry a
  else entryStop settings r.entry a.entry

/-- A filled order asks for a stop at its fill price. -/
theorem stopAtFill_stops (r : EntryRequest) (order : OrderReply) {s : RouteState}
    (h : s.stops = []) :
    AskedFor ((fillPrice order r.price).map fun price => (price, r.amount))
      (stopAtFill r order s).state := by
  unfold stopAtFill
  cases fillPrice order r.price with
  | none => exact h
  | some price => simp [h]

/-- After ten seconds no stop is asked for. -/
theorem awaitStrict_stops (r : EntryRequest) (a : FeeAnswers) (orderId : Text) (s : RouteState) :
    (awaitStrict r a orderId s).state.stops = s.stops := by
  unfold awaitStrict
  cases a.status with
  | error message => rfl
  | ok details =>
      simp only [reportedFilled_statusReply, Bool.false_eq_true, if_false]
      cases a.cancel with
      | ok done => simp
      | error message => rfl

/-- The strict order asks for the planned stop. -/
theorem strictPostOnly_stops (r : EntryRequest) (a : FeeAnswers) :
    AskedFor (strictStop r a) (strictPostOnly r a (RouteState.start r)).state := by
  unfold strictPostOnly strictStop
  dsimp only
  cases a.strict.reply with
  | error message =>
      exact congrArg (List.filterMap RouterEvent.stop?)
        (handleOrderError_events a.entry message _ rfl)
  | ok order =>
      dsimp only
      cases reportedFilled order with
      | true => exact stopAtFill_stops r order (by rfl)
      | false =>
          cases strictOrderId order with
          | none => rfl
          | some orderId => exact awaitStrict_stops r a orderId _

/-- One call asks for the planned stop and no other. -/
theorem executeFeeAware_stops (settings : RouterSettings) (r : FeeRequest) (a : FeeAnswers) :
    AskedFor (feeStop settings r a) (executeFeeAware settings r a) := by
  unfold executeFeeAware feeStop
  split_ifs
  · rfl
  · exact strictPostOnly_stops r.entry a
  · exact execute_stops settings r.entry a.entry

end Router
end Karsa
