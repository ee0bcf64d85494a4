import Karsa.Core.Reconciler.ClosedPnl
import Karsa.Foundations.Dicts

/-!
# Trade reconciler - Matching executions

`_compare_fills` groups the executions that open a position by their order and looks for a
local trade of its symbol and side that was entered within five minutes of it.

Main results:

- Theorem `mem_missingEntries`: the orders that are reported as missing entries.
- Theorem `nodup_orderKeys`: no order is reported twice.
-/

namespace Karsa
namespace Reconciler

open Bybit Trades

/-! ## Executions and orders -/

/-- An execution of `get_executions`; its time is in milliseconds. -/
structure Fill where
  symbol : Text
  side : Text
  orderId : Text
  execQty : Option (Numeral ℚ)
  execPrice : Option (Numeral ℚ)
  closedSize : Option (Numeral ℚ)
  execTime : ℤ
deriving Repr, DecidableEq

/-- Key of a group: unified symbol, side and order. -/
structure OrderKey where
  symbol : Text
  side : Text
  orderId : Text
deriving Repr, DecidableEq

/-- An order with the sums over its executions; its time in seconds is that of the first. -/
structure BybitOrder where
  key : OrderKey
  qty : ℚ
  price : ℚ
  execTime : ℚ
deriving Repr, DecidableEq

/-- The key of an execution. -/
def Fill.key (reverseMap : Text → Option Text) (f : Fill) : OrderKey :=
  ⟨unifiedSymbol reverseMap f.symbol, normalizeTradeSide f.side, f.orderId⟩

/-- `_safe_decimal(f.get("closedSize", "0")) > 0`. -/
def Fill.closes (f : Fill) : Bool :=
  decide (0 < Numeral.safeDecimal f.closedSize)

/-- Quantity, weighted price and time of a group. -/
def orderOf (key : OrderKey) (fills : List Fill) : BybitOrder where
  key := key
  qty := (fills.map fun f => Numeral.safeDecimal f.execQty).sum
  price :=
    let qty := (fills.map fun f => Numeral.safeDecimal f.execQty).sum
    let total :=
      (fills.map fun f => Numeral.safeDecimal f.execPrice * Numeral.safeDecimal f.execQty).sum
    if 0 < qty then total / qty else total
  execTime := (fills.head?.map Fill.execTime).getD 0 / 1000

section Compare

variable (reverseMap : Text → Option Text)

/-- `grouped`: the opening executions by order. -/
def groupedFills (fills : List Fill) : Dict OrderKey (List Fill) :=
  Dict.group ((fills.filter fun f => !f.closes).map fun f => (f.key reverseMap, f))

/-- The opening orders. -/
def orders (fills : List Fill) : List BybitOrder :=
  (groupedFills reverseMap fills).map fun group => orderOf group.1 group.2

/-- The trade has symbol and side of the order and was entered within five minutes of it. -/
def EnteredBy (o : BybitOrder) (t : Trade) : Prop :=
  tradeClass t = (o.key.symbol, o.key.side) ∧ |t.entryTime - o.execTime| < 300

instance (o : BybitOrder) (t : Trade) : Decidable (EnteredBy o t) :=
  inferInstanceAs (Decidable (_ ∧ _))

/-- A tenth of a percent between the prices. -/
def priceMismatch (localPrice bybitPrice : ℚ) : Bool :=
  decide (0 < localPrice ∧ 0 < bybitPrice ∧ 1 / 1000 < |localPrice - bybitPrice| / bybitPrice)

/-- The missing entry of an order. -/
def missingEntry (o : BybitOrder) : Discrepancy where
  symbol := o.key.symbol
  side := o.key.side
  bybitData := .entry o.price o.qty o.execTime o.key.orderId
  localTradeId := none
  severity := .WARNING

/-- Body of the loop over the orders. -/
def compareOrder (trades : List Trade) (o : BybitOrder) : Option Discrepancy :=
  match trades.find? fun t => decide (EnteredBy o t) with
  | some t =>
      if priceMismatch t.entryPrice o.price then
        some ⟨o.key.symbol, o.key.side, .prices o.price t.entryPrice, some t.id, .WARNING⟩
      else none
  | none => some (missingEntry o)

/-- The discrepancies with the orders they come from; orders past the grace period only. -/
def fillReports (trades : List Trade) (grace : ℚ) (fills : List Fill) :
    List (BybitOrder × Discrepancy) :=
  ((orders reverseMap fills).filter fun o => decide (o.execTime ≤ grace)).filterMap fun o =>
    (compareOrder trades o).map fun d => (o, d)

/-- `_compare_fills`. -/
def compareFills (trades : List Trade) (grace : ℚ) (fills : List Fill) : List Discrepancy :=
  (fillReports reverseMap trades grace fills).map Prod.snd

end Compare

/-! ## What is reported -/

section Reported

variable {reverseMap : Text → Option Text} {trades : List Trade} {grace : ℚ} {fills : List Fill}

/-- An order is a missing entry exactly when no trade was entered by it. -/
theorem compareOrder_missing_iff {o : BybitOrder} {d : Discrepancy} :
    compareOrder trades o = some d ∧ d.kind = .missing_entry ↔
      (∀ t ∈ trades, ¬ EnteredBy o t) ∧ d = missingEntry o := by
  unfold compareOrder
  cases hfind : trades.find? fun t => decide (EnteredBy o t) with
  | none =>
      have hnone : ∀ t ∈ trades, ¬ EnteredBy o t := by
        simpa using List.find?_eq_none.mp hfind
      constructor
      · rintro ⟨hd, -⟩
        exact ⟨hnone, (Option.some.inj hd).symm⟩
      · rintro ⟨-, rfl⟩
        exact ⟨rfl, rfl⟩
  | some t =>
      have hentered : EnteredBy o t := by simpa using List.find?_some hfind
      refine iff_of_false ?_ fun h => h.1 t (List.mem_of_find?_eq_some hfind) hentered
      rintro ⟨hd, hkind⟩
      dsimp only at hd
      split_ifs at hd
      obtain rfl := Option.some.inj hd
      cases hkind

/-- The missing entries are the orders past the grace period that entered no local trade. -/
theorem mem_missingEntries {o : BybitOrder} {d : Discrepancy} :
    (o, d) ∈ fillReports reverseMap trades grace fills ∧ d.kind = .missing_entry ↔
      (o ∈ orders reverseMap fills ∧ o.execTime ≤ grace ∧ ∀ t ∈ trades, ¬ EnteredBy o t) ∧
        d = missingEntry o := by
  have hreport : (o, d) ∈ fillReports reverseMap trades grace fills ↔
      (o ∈ orders reverseMap fills ∧ o.execTime ≤ grace) ∧ compareOrder trades o = some d := by
    simp only [fillReports, List.mem_filterMap, List.mem_filter, decide_eq_true_eq,
      Option.map_eq_some_iff, Prod.mk.injEq]
    constructor
    · rintro ⟨o', ho', d', hd', rfl, rfl⟩
      exact ⟨ho', hd'⟩
    · rintro ⟨ho, hd⟩
      exact ⟨o, ho, d, hd, rfl, rfl⟩
  rw [hreport, and_assoc, compareOrder_missing_iff]
  tauto

/-- Every order has its own key. -/
theorem nodup_orderKeys (fills : List Fill) :
    ((orders reverseMap fills).map BybitOrder.key).Nodup := by
  have hkeys : (orders reverseMap fills).map BybitOrder.key =
      (groupedFills reverseMap fills).keys := by
    rw [orders, List.map_map]
    rfl
  rw [hkeys]
  exact Dict.nodup_keys_group _

end Reported
end Reconciler
end Karsa
