import Karsa.Execution.Manager.ExitRules
import Mathlib.Algebra.BigOperators.Group.List.Basic

/-!
# Live loop - Booking the result of a position

A position may be closed in parts: scale-outs and the moon-bag exit subtract what they close
from the recorded amount and book nothing.  When the position has left the exchange,
`_position_exit_loop` books one result for it, either from the topmost closed-PnL record of
the symbol or from an exit price and the amount that is left.

`BybitClient` has none of the methods `fetch_closed_orders` and `fetch_my_trades`, so that
the closed-PnL records are the only source the loop asks.

Main results:

- Theorem `sum_partialFills`: the partial closes and the rest are the opened amount.
- Theorem `booked_eq`: what the loop books.
- Theorem `pnlConserved_iff`: when that is the result of the whole position.
-/

namespace Karsa
namespace RealisedPnl

open Bybit Manager

/-! ## Partial closes -/

/-- A partial close of the manager. -/
inductive PartialClose where
  | scaleOut (pct : ℚ)
  | moonBag
deriving Repr, DecidableEq

/-- The share it closes. -/
def PartialClose.pct : PartialClose → ℚ
  | .scaleOut pct => pct
  | .moonBag => 8 / 10

/-- What the manager's scale-out or moon-bag exit does to the record once the exchange has
accepted it; a quantity that rounds to zero is not sent. -/
def PartialClose.apply (close : PartialClose) (pos : PositionRecord) : PositionRecord :=
  match close with
  | .scaleOut pct => (scaleOutPosition true pct (.ofRecord pos)).pos
  | .moonBag =>
      if 0 < closeQty pos.amount (8 / 10) then
        (moonBagStarted (snapshot pos) (.ofRecord pos)).pos
      else pos

/-- A close in the exchange's closed-PnL record: its price and result. -/
structure ClosedRecord where
  exitPrice : ℚ
  closedPnl : ℚ
  price_pos : 0 < exitPrice

/-- A partial close and how the exchange fills it. -/
structure PartialFill extends ClosedRecord where
  close : PartialClose

/-- A close with its quantity. -/
structure ClosingFill extends ClosedRecord where
  qty : ℚ

/-- The fills of a sequence of partial closes; a quantity that rounds to zero is not sent. -/
def partialFills : PositionRecord → List PartialFill → List ClosingFill
  | _, [] => []
  | pos, f :: rest =>
      let qty := closeQty pos.amount f.close.pct
      if qty ≤ 0 then partialFills pos rest
      else ⟨f.toClosedRecord, qty⟩ :: partialFills (f.close.apply pos) rest

/-- The record after a sequence of partial closes. -/
def afterPartials (pos : PositionRecord) (partials : List PartialFill) : PositionRecord :=
  partials.foldl (fun pos f => f.close.apply pos) pos

/-! ## The exit loop -/

/-- A closed-PnL record as Bybit lists it. -/
structure PnlRecord where
  avgExitPrice : Option (Numeral ℚ)
  avgPrice : Option (Numeral ℚ)
  closedPnl : Option (Numeral ℚ)
deriving Repr, DecidableEq

/-- `exit_price` and `net_pnl` of the loop. -/
structure FoundExit where
  exitPrice : ℚ
  netPnl : Option ℚ
deriving Repr, DecidableEq

/-- One answer of `get_closed_pnl`, `none` when it raised: the topmost record is read. -/
def readClosedPnl (found : FoundExit) : Option (List PnlRecord) → FoundExit
  | none | some [] => found
  | some (r :: _) =>
      match ((r.avgExitPrice.or r.avgPrice).getD (.value 0)).decimal with
      | none => found
      | some exitPrice =>
          match (r.closedPnl.getD (.value 0)).decimal with
          | none => { found with exitPrice := exitPrice }
          | some netPnl => ⟨exitPrice, some netPnl⟩

/-- The attempts, until there is an exit price. -/
def attempts (found : FoundExit) : List (Option (List PnlRecord)) → FoundExit
  | [] => found
  | answer :: rest =>
      let found := readClosedPnl found answer
      if 0 < found.exitPrice then found else attempts found rest

/-- The exit price and the result: stored by the manager, or looked up, and at last the entry
price. -/
def findExit (pos : PositionRecord) (answers : List (Option (List PnlRecord))) : FoundExit :=
  let stored := pos.exitPrice.getD 0
  let found :=
    if stored ≤ 0 then attempts ⟨stored, none⟩ answers else ⟨stored, none⟩
  if found.exitPrice ≤ 0 then { found with exitPrice := pos.entryPrice } else found

/-- `fee_pct`. -/
def feePct : ℚ := 6 / 10000

/-- Gross result of a quantity less the estimated fees of both sides. -/
def localPnl (side : Side) (entryPrice exitPrice amount : ℚ) : ℚ :=
  let gross := match side with
    | .LONG => (exitPrice - entryPrice) * amount
    | .SHORT => (entryPrice - exitPrice) * amount
  gross - (entryPrice * amount * feePct + exitPrice * amount * feePct)

/-- The result passed to `close_trade`. -/
def bookedPnl (pos : PositionRecord) (answers : List (Option (List PnlRecord))) : ℚ :=
  let found := findExit pos answers
  found.netPnl.getD (localPnl pos.side pos.entryPrice found.exitPrice pos.amount)

/-! ## A position from its opening to its end -/

/-- The record as it is listed. -/
def ClosedRecord.raw (r : ClosedRecord) : PnlRecord where
  avgExitPrice := some (.value r.exitPrice)
  avgPrice := none
  closedPnl := some (.value r.closedPnl)

/-- A position, its partial closes, its final close with the exit price the manager may have
stored, and the records of earlier positions in the symbol.  Each attempt raises or gets a
list from which some of the newest records are still missing. -/
structure Lifetime where
  opened : PositionRecord
  partials : List PartialFill
  final : ClosedRecord
  stored : Option ℚ
  older : List ClosedRecord
  first : Option Nat
  second : Option Nat
  third : Option Nat

namespace Lifetime

variable (l : Lifetime)

/-- The record the exit loop finds. -/
def record : PositionRecord :=
  { afterPartials l.opened l.partials with exitPrice := l.stored }

/-- The fills of its partial closes. -/
def fills : List ClosingFill :=
  partialFills l.opened l.partials

/-- The closed-PnL records of the symbol, the newest first. -/
def history : List ClosedRecord :=
  l.final :: ((l.fills.map ClosingFill.toClosedRecord).reverse ++ l.older)

/-- How many records were missing at each attempt. -/
def missing : List (Option Nat) :=
  [l.first, l.second, l.third]

/-- `get_closed_pnl(symbol=symbol, limit=5)` at one attempt. -/
def answer (missing : Option Nat) : Option (List PnlRecord) :=
  missing.map fun count => ((l.history.drop count).take 5).map ClosedRecord.raw

/-- What the exit loop books for the position. -/
def booked : ℚ :=
  bookedPnl l.record (l.missing.map l.answer)

/-- Every close of the position. -/
def closingFills : List ClosingFill :=
  l.fills ++ [⟨l.final, l.record.amount⟩]

/-- The result of one close as the loop computes it. -/
def localResult (f : ClosingFill) : ℚ :=
  localPnl l.record.side l.record.entryPrice f.exitPrice f.qty

/-- The result of all closes: of their records where the loop uses records, else computed
from quantities and prices. -/
def due : ℚ :=
  match (findExit l.record (l.missing.map l.answer)).netPnl with
  | some _ => (l.closingFills.map fun f => f.closedPnl).sum
  | none => (l.closingFills.map l.localResult).sum

/-- The loop books the result of the whole position. -/
def PnlConserved : Prop :=
  l.booked = l.due

/-! ## What the loop reads of the final close -/

/-- The record the loop reads: the topmost one of the first list that has one. -/
def read : Option ClosedRecord :=
  if 0 < l.stored.getD 0 then none
  else l.missing.findSome? fun missing => missing.bind fun count => l.history[count]?

/-- The exit price it knows without a record. -/
def knownPrice : ℚ :=
  if 0 < l.stored.getD 0 then l.stored.getD 0 else l.record.entryPrice

/-- What the loop takes for the result of the final close, less that result: zero for the
record of the close itself, and for its price. -/
def readingError : ℚ :=
  match l.read with
  | some r => r.closedPnl - l.final.closedPnl
  | none =>
      localPnl l.record.side l.record.entryPrice l.knownPrice l.record.amount -
        localPnl l.record.side l.record.entryPrice l.final.exitPrice l.record.amount

/-- The results of the partial closes. -/
def partialPnl : ℚ :=
  match l.read with
  | some _ => (l.fills.map fun f => f.closedPnl).sum
  | none => (l.fills.map l.localResult).sum

end Lifetime

/-! ## Quantities -/

/-- A partial close takes its quantity from the recorded amount. -/
theorem amount_apply (close : PartialClose) {pos : PositionRecord}
    (hqty : 0 < closeQty pos.amount close.pct) :
    (close.apply pos).amount = pos.amount - closeQty pos.amount close.pct := by
  cases close with
  | scaleOut pct =>
      have hsent : ¬ closeQty (ManagerState.ofRecord pos).pos.amount pct ≤ 0 := not_le.mpr hqty
      rw [PartialClose.apply, scaleOutPosition]
      dsimp only
      rw [if_neg hsent]
      rfl
  | moonBag =>
      have hsent : 0 < closeQty pos.amount (8 / 10) := hqty
      rw [PartialClose.apply, if_pos hsent]
      rfl

/-- One that rounds to zero leaves the record. -/
theorem apply_of_nonpos (close : PartialClose) {pos : PositionRecord}
    (hqty : closeQty pos.amount close.pct ≤ 0) : close.apply pos = pos := by
  cases close with
  | scaleOut pct =>
      have hunsent : closeQty (ManagerState.ofRecord pos).pos.amount pct ≤ 0 := hqty
      rw [PartialClose.apply, scaleOutPosition]
      dsimp only
      rw [if_pos hunsent]
      rfl
  | moonBag =>
      have hunsent : ¬ 0 < closeQty pos.amount (8 / 10) := not_lt.mpr hqty
      rw [PartialClose.apply, if_neg hunsent]

/-- The partial closes and what is left add up to the opened amount. -/
theorem sum_partialFills (pos : PositionRecord) (partials : List PartialFill) :
    ((partialFills pos partials).map ClosingFill.qty).sum + (afterPartials pos partials).amount =
      pos.amount := by
  induction partials generalizing pos with
  | nil => simp [partialFills, afterPartials]
  | cons f rest ih =>
      have hrest := ih (f.close.apply pos)
      rw [afterPartials, List.foldl_cons, ← afterPartials, partialFills]
      by_cases hqty : closeQty pos.amount f.close.pct ≤ 0
      · rw [apply_of_nonpos f.close hqty] at hrest ⊢
        rw [if_pos hqty]
        exact hrest
      · rw [amount_apply f.close (not_le.mp hqty)] at hrest
        rw [if_neg hqty, List.map_cons, List.sum_cons]
        linarith

/-! ## What the loop books -/

section Booking

variable (l : Lifetime)

/-- Without an exit price, the attempts end with the first record they get. -/
theorem attempts_answers {found : FoundExit} (hfound : found.exitPrice ≤ 0)
    (missing : List (Option Nat)) :
    attempts found (missing.map l.answer) =
      match missing.findSome? fun missing => missing.bind fun count => l.history[count]? with
      | some r => ⟨r.exitPrice, some r.closedPnl⟩
      | none => found := by
  induction missing with
  | nil => rfl
  | cons m rest ih =>
      rw [List.map_cons, attempts, List.findSome?_cons]
      cases m with
      | none =>
          have hread : readClosedPnl found (l.answer none) = found := rfl
          rw [hread, if_neg (not_lt.mpr hfound), ih]
          rfl
      | some count =>
          have hanswer : l.answer (some count) =
              some (((l.history.drop count).take 5).map ClosedRecord.raw) := rfl
          rw [Option.bind_some, ← List.head?_drop, hanswer]
          cases l.history.drop count with
          | nil =>
              have hread : readClosedPnl found (some []) = found := rfl
              rw [List.take_nil, List.map_nil, hread, if_neg (not_lt.mpr hfound), ih]
              rfl
          | cons r _ =>
              rw [List.take_succ_cons, List.map_cons]
              exact if_pos r.price_pos

/-- With a record the loop takes price and result from it, else it knows only a price. -/
theorem findExit_record :
    findExit l.record (l.missing.map l.answer) =
      match l.read with
      | some r => ⟨r.exitPrice, some r.closedPnl⟩
      | none => ⟨l.knownPrice, none⟩ := by
  have hstored : l.record.exitPrice = l.stored := rfl
  unfold findExit Lifetime.read Lifetime.knownPrice
  dsimp only
  rw [hstored]
  by_cases hknown : 0 < l.stored.getD 0
  · simp only [hknown, not_le.mpr hknown, if_true, if_false]
  · have hunknown := not_lt.mp hknown
    rw [if_pos hunknown, attempts_answers l hunknown, if_neg hknown, if_neg hknown]
    cases l.missing.findSome? fun missing => missing.bind fun count => l.history[count]? with
    | some r =>
        dsimp only
        rw [if_neg (not_le.mpr r.price_pos)]
    | none =>
        dsimp only
        rw [if_pos hunknown]

/-- The loop books the result of the record it reads, or that of the remaining amount. -/
theorem booked_eq :
    l.booked =
      match l.read with
      | some r => r.closedPnl
      | none => localPnl l.record.side l.record.entryPrice l.knownPrice l.record.amount := by
  unfold Lifetime.booked bookedPnl
  rw [findExit_record]
  cases l.read with
  | some r => rfl
  | none => rfl

/-- The whole result is that of the partial closes and of the final one. -/
theorem due_eq :
    l.due =
      match l.read with
      | some _ => l.partialPnl + l.final.closedPnl
      | none =>
          l.partialPnl + localPnl l.record.side l.record.entryPrice l.final.exitPrice
            l.record.amount := by
  unfold Lifetime.due Lifetime.partialPnl Lifetime.closingFills
  rw [findExit_record]
  cases l.read with
  | some r => simp
  | none => simp [Lifetime.localResult]

/-- Read from its own record, the final close is read without error. -/
theorem readingError_own (hread : l.read = some l.final) : l.readingError = 0 := by
  rw [Lifetime.readingError, hread]
  exact sub_self _

end Booking

/-- The loop books the result of the whole position exactly when the partial closes together
make up for the error in what it reads of the final close. -/
theorem pnlConserved_iff (l : Lifetime) : l.PnlConserved ↔ l.partialPnl = l.readingError := by
  unfold Lifetime.PnlConserved Lifetime.readingError
  rw [booked_eq, due_eq]
  cases l.read with
  | some r =>
      dsimp only
      rw [eq_sub_iff_add_eq, eq_comm]
  | none =>
      dsimp only
      rw [eq_sub_iff_add_eq, eq_comm]

/-- A long of 2 at 100: half of it is closed at 110, the rest at 100, and the loop books only
the last close. -/
theorem pnlConserved_scaleOut : ¬ ∀ l : Lifetime, l.PnlConserved := by
  intro h
  have hconserved := h
    { opened := .opened "BTC/USDT".toList .LONG 100 2 none none none 1 0
      partials := [⟨⟨110, 987 / 100, by norm_num⟩, .scaleOut (1 / 2)⟩]
      final := ⟨100, -(12 / 100), by norm_num⟩
      stored := none
      older := []
      first := some 0
      second := none
      third := none }
  unfold Lifetime.PnlConserved at hconserved
  revert hconserved
  decide +kernel

end RealisedPnl
end Karsa
