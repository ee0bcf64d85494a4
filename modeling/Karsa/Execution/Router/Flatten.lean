import Karsa.Execution.Bybit.AccountReads

/-!
# Smart order router - Emergency flatten

The kill switch cancels every open order and then market-closes every open
position.  Both loops read the records of the Bybit client by key.  The cancel
loop runs under one `try` and reads the key `orderId` of an order record after
each accepted cancellation; the close loop has a `try` per position and takes
the quantity from the key `amount` of a position record.

Main results:

- Theorem `cancelLoop_length_le_one`: at most one cancellation is attempted.
- Theorem `closeLoop_eq_nil`: no closing order is submitted.
- Theorem `flattenAllPositions_complete_iff`: exact inputs on which the kill
  switch reaches every order and every position.
-/

namespace Karsa
namespace Router

open Bybit

/-- A call the router makes on the client. -/
inductive ClientCall where
  | cancelOrder (orderId symbol : Text)
  | createMarketOrder (symbol : Text) (side : OrderSide) (qty : ℚ) (reduceOnly : Bool)
deriving Repr, DecidableEq

/-- Answers of the client during one flatten; the two reads may raise, and the
`n`-th cancellation or market order may raise. -/
structure FlattenAnswers where
  openOrders : Option (List RawOrder)
  positions : Option (List RawPosition)
  cancelRaises : Nat → Bool
  marketRaises : Nat → Bool

/-- Loop of `cancel_all_positions`.  It stops at a raised cancellation, and at
the log line when the record has no `orderId`. -/
def cancelLoop (raises : Nat → Bool) : Nat → List OpenOrder → List ClientCall
  | _, [] => []
  | n, order :: rest =>
      .cancelOrder order.id order.symbol ::
        if raises n then []
        else match order.get? .orderId with
          | none => []
          | some _ => cancelLoop raises (n + 1) rest

/-- `SmartOrderRouter.cancel_all_positions`. -/
def cancelAllPositions (a : FlattenAnswers) : List ClientCall :=
  match a.openOrders with
  | none => []
  | some list => cancelLoop a.cancelRaises 0 (fetchOpenOrders list)

/-- `Decimal(str(pos.get("amount", "0")))`. -/
def recordedAmount (p : ExchangePosition) : ℚ :=
  match p.get? .amount with
  | some (.number q) => q
  | _ => 0

/-- `"sell" if side == "buy" else "buy"` on the record's side word. -/
def closingSide (p : ExchangePosition) : OrderSide :=
  if p.get? .side = some (.text OrderSide.buy.word) then .sell else .buy

/-- Loop of `flatten_all_positions` over the positions: the calls it makes and
the number of accepted ones.  A raised order does not stop it. -/
def closeLoop (raises : Nat → Bool) : Nat → List ExchangePosition → List ClientCall × Nat
  | _, [] => ([], 0)
  | n, p :: rest =>
      if recordedAmount p ≤ 0 ∨ p.symbol = [] then closeLoop raises n rest
      else
        let tail := closeLoop raises (n + 1) rest
        (.createMarketOrder p.symbol (closingSide p) (recordedAmount p) true :: tail.1,
          if raises n then tail.2 else tail.2 + 1)

/-- What one flatten did: its calls in order and the reported count. -/
structure FlattenResult where
  calls : List ClientCall
  closed : Nat
deriving Repr, DecidableEq

/-- `SmartOrderRouter.flatten_all_positions`. -/
def flattenAllPositions (a : FlattenAnswers) : FlattenResult :=
  let cancels := cancelAllPositions a
  match a.positions with
  | none => { calls := cancels, closed := 0 }
  | some list =>
      let closes := closeLoop a.marketRaises 0 (fetchPositions list)
      { calls := cancels ++ closes.1, closed := closes.2 }

/-! ## What a complete kill switch would do -/

/-- The cancellation due for an open order. -/
def dueCancel (o : RawOrder) : ClientCall :=
  .cancelOrder o.orderId o.symbol

/-- The closing order due for an open position. -/
def dueClose (p : RawPosition) : ClientCall :=
  .createMarketOrder p.symbol p.side.toOrderSide.opposite (Numeral.safeDecimal p.size) true

/-- Every open order has its cancellation and every open position its closing
order among the calls made. -/
def KillComplete (orders : List RawOrder) (positions : List RawPosition)
    (calls : List ClientCall) : Prop :=
  (orders.map dueCancel ++ (positions.filter RawPosition.isOpen).map dueClose).Subperm calls

/-! ## The two loops on the client's records -/

/-- Order records carry no `orderId`, so at most one cancellation is attempted. -/
theorem cancelLoop_length_le_one (raises : Nat → Bool) (n : Nat)
    (orders : List OpenOrder) : (cancelLoop raises n orders).length ≤ 1 := by
  cases orders with
  | nil => simp [cancelLoop]
  | cons order rest => simp [cancelLoop, OpenOrder.get?]

/-- Position records carry no `amount`. -/
theorem recordedAmount_eq_zero (p : ExchangePosition) : recordedAmount p = 0 := rfl

/-- The close loop skips every position. -/
theorem closeLoop_eq_nil (raises : Nat → Bool) (n : Nat)
    (positions : List ExchangePosition) : closeLoop raises n positions = ([], 0) := by
  induction positions with
  | nil => rfl
  | cons p rest ih => simp [closeLoop, recordedAmount_eq_zero, ih]

/-- The calls of a flatten whose two reads succeed. -/
theorem flattenAllPositions_calls (orders : List RawOrder) (positions : List RawPosition)
    (cancelRaises marketRaises : Nat → Bool) :
    (flattenAllPositions ⟨some orders, some positions, cancelRaises, marketRaises⟩).calls =
      cancelLoop cancelRaises 0 (fetchOpenOrders orders) := by
  simp [flattenAllPositions, cancelAllPositions, closeLoop_eq_nil]

/-- The kill switch is complete exactly when there is at most one open order and
no open position, whatever calls fail. -/
theorem flattenAllPositions_complete_iff (orders : List RawOrder)
    (positions : List RawPosition) (cancelRaises marketRaises : Nat → Bool) :
    KillComplete orders positions
        (flattenAllPositions
          ⟨some orders, some positions, cancelRaises, marketRaises⟩).calls ↔
      orders.length ≤ 1 ∧ ∀ p ∈ positions, Numeral.safeDecimal p.size ≤ 0 := by
  rw [flattenAllPositions_calls, KillComplete]
  constructor
  · intro hcomplete
    have hshort := cancelLoop_length_le_one cancelRaises 0 (fetchOpenOrders orders)
    have hlength := hcomplete.length_le
    simp only [List.length_append, List.length_map] at hlength
    refine ⟨by omega, ?_⟩
    intro p hp
    by_contra hopen
    have hmem : p ∈ positions.filter RawPosition.isOpen := by
      simp only [List.mem_filter, RawPosition.isOpen, decide_eq_true_eq]
      exact ⟨hp, not_le.mp hopen⟩
    have hclose : dueClose p ∈ cancelLoop cancelRaises 0 (fetchOpenOrders orders) :=
      hcomplete.subset (List.mem_append_right _ (List.mem_map_of_mem hmem))
    -- the only call a cancel loop can make is a cancellation
    cases orders with
    | nil => simp [fetchOpenOrders, cancelLoop] at hclose
    | cons order rest =>
        simp [fetchOpenOrders, cancelLoop, OpenOrder.get?, dueClose] at hclose
  · rintro ⟨hshort, hflat⟩
    have hnone : positions.filter RawPosition.isOpen = [] := by
      simp only [List.filter_eq_nil_iff, RawPosition.isOpen, decide_eq_true_eq, not_lt]
      exact hflat
    rw [hnone, List.map_nil, List.append_nil]
    rcases orders with _ | ⟨order, _ | ⟨second, rest⟩⟩
    · exact List.nil_subperm
    · simp [fetchOpenOrders, cancelLoop, OpenOrder.get?, dueCancel, RawOrder.toOpenOrder]
    · simp at hshort

/-- One open long position and no order: the kill switch makes no call at all. -/
theorem flattenAllPositions_misses_position :
    ¬ KillComplete []
        [{ symbol := "BTCUSDT".toList, side := .Buy, size := some (.value 1),
           avgPrice := some (.value 100), unrealisedPnl := none, stopLoss := none,
           takeProfit := none, trailingStop := none, liqPrice := none }]
        (flattenAllPositions
          { openOrders := some []
            positions := some
              [{ symbol := "BTCUSDT".toList, side := .Buy, size := some (.value 1),
                 avgPrice := some (.value 100), unrealisedPnl := none, stopLoss := none,
                 takeProfit := none, trailingStop := none, liqPrice := none }]
            cancelRaises := fun _ => false
            marketRaises := fun _ => false }).calls := by
  unfold KillComplete
  decide +kernel

end Router
end Karsa
