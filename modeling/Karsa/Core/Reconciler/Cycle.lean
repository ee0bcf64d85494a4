import Karsa.Core.Reconciler.Fills
import Karsa.Foundations.Runs
import Mathlib.Algebra.Order.Round
import Mathlib.Data.NNRat.Defs

/-!
# Trade reconciler - Cycles

Every cycle of `reconcile` reads Bybit's history and the local trades of the lookback window,
compares them, and repairs the first ten missing entries and exits.  A repair is stamped with
the time at which it is made, while the comparisons look five and thirty minutes around the
times of Bybit, so that the next cycle does not recognise it.

Main results:

- Theorem `autoRepair_rows_iff`: when a cycle changes nothing.
- Theorem `repairedEntry_unmatched`, `backfilledExit_unmatched`: repairs that the comparison
  never recognises.
- Theorem `repairs_inserted`: every repair inserts at most one row.
-/

namespace Karsa
namespace Reconciler

open Bybit Trades

/-! ## Reading the history -/

/-- Executions and closed-PnL records of the account, the newest first. -/
structure BybitHistory where
  fills : List Fill
  closed : List ClosedPnl
deriving Repr, DecidableEq

/-- Symbol map of the client and the lookback of the reconciler. -/
structure ReconcilerSettings where
  reverseMap : Text → Option Text
  lookbackHours : ℕ

/-- `PAGE_SIZE`. -/
def pageSize : ℕ := 50

/-- `MAX_PAGES`. -/
def maxPages : ℕ := 3

/-- `MAX_REPAIRS_PER_CYCLE`. -/
def maxRepairsPerCycle : ℕ := 10

/-- `_fetch_bybit_fills` and `_fetch_bybit_closed_pnl`: what lies in the window of each page,
until a page ends before it. -/
def fetchPages {α : Type} (timeMs : α → ℤ) (sinceMs : ℤ) : ℕ → List α → List α
  | 0, _ => []
  | pages + 1, history =>
      let page := history.take pageSize
      match page.getLast? with
      | none => []
      | some oldest =>
          let kept := page.filter fun x => decide (sinceMs ≤ timeMs x)
          if timeMs oldest < sinceMs then kept
          else kept ++ fetchPages timeMs sinceMs pages (history.drop pageSize)

/-- `int(r.get("createdTime", "0"))`. -/
def ClosedPnl.createdTimeMs (r : ClosedPnl) : ℤ :=
  r.createdTime.getD 0

/-! ## Discrepancies to repair -/

/-- What a discrepancy comes from: an order, or a record by its place in the history. -/
inductive RepairSource where
  | order (key : OrderKey)
  | record (index : ℕ)
deriving Repr, DecidableEq

/-- A missing entry or exit. -/
structure RepairItem where
  source : RepairSource
  discrepancy : Discrepancy
deriving Repr, DecidableEq

section Pending

variable (settings : ReconcilerSettings) (history : BybitHistory) (now : ℚ) (table : TradeTable)

/-- Start of the lookback window. -/
def windowStart : ℚ :=
  now - settings.lookbackHours * 3600

/-- The same in milliseconds. -/
def windowStartMs : ℤ :=
  ⌊windowStart settings now * 1000⌋

/-- The missing entries. -/
def entryItems : List RepairItem :=
  ((fillReports settings.reverseMap (table.tradesSince (windowStart settings now)) (now - 300)
      (fetchPages Fill.execTime (windowStartMs settings now) maxPages history.fills)).filter
    fun item => decide (item.2.kind = .missing_entry)).map fun item => ⟨.order item.1.key, item.2⟩

/-- The records of the window with their places in the history. -/
def windowRecords : List (ClosedPnl × ℕ) :=
  fetchPages (fun r => r.1.createdTimeMs) (windowStartMs settings now) maxPages
    history.closed.zipIdx

/-- The missing exits. -/
def exitItems : List RepairItem :=
  let records := windowRecords settings history now
  (((verdicts settings.reverseMap (table.tradesSince (windowStart settings now)) []
      (records.map Prod.fst)).zip (records.map Prod.snd)).filterMap fun item =>
    (report settings.reverseMap item.1.1 item.1.2).map fun d =>
      (⟨.record item.2, d⟩ : RepairItem)).filter fun item =>
        decide (item.discrepancy.kind = .missing_exit)

/-- `repairable`: the missing entries, then the missing exits. -/
def repairable : List RepairItem :=
  entryItems settings history now table ++ exitItems settings history now table

/-- The repairs of one cycle. -/
def dueRepairs : List RepairItem :=
  (repairable settings history now table).take maxRepairsPerCycle

end Pending

/-! ## Repairs -/

/-- One cycle: the time since the last one, whether its reads answer, the time at which
`_auto_repair` starts, and when each write is made and whether it goes through. -/
structure CycleAnswers where
  elapsed : ℚ≥0
  answered : Bool
  repairStart : ℚ
  stamp : Discrepancy → ℚ
  accepts : Discrepancy → Bool

/-- A write to the trade table. -/
inductive Repair where
  | insert (t : Trade)
  | close (id : ℕ) (e : Exit)
deriving Repr, DecidableEq

/-- `"RECONCILED"`. -/
def reconciled : Text := "RECONCILED".toList

section Plan

variable (a : CycleAnswers) (table : TradeTable)

/-- `record_entry`: the entry time is that of the write. -/
def entryRow (d : Discrepancy) (price qty : ℚ) : Trade where
  id := 0
  symbol := d.symbol
  side := d.side
  amount := qty
  entryPrice := price
  exitPrice := none
  pnl := none
  regime := some reconciled
  entryTime := a.stamp d
  exitTime := none
  exitReason := none

/-- `record_full_trade`: entered an hour ago, left now. -/
def backfillRow (d : Discrepancy) (pnl entryPrice exitPrice qty : ℚ) : Trade where
  id := 0
  symbol := d.symbol
  side := d.side
  amount := qty
  entryPrice := entryPrice
  exitPrice := some exitPrice
  pnl := some pnl
  regime := some reconciled
  entryTime := a.repairStart - 3600
  exitTime := some a.repairStart
  exitReason := some "bybit_reconciled".toList

/-- The exit of an open trade. -/
def repairExit (d : Discrepancy) (pnl exitPrice : ℚ) : Exit where
  price := exitPrice
  pnl := pnl
  reason := "bybit_reconciled".toList
  time := a.stamp d
  regime := some reconciled

/-- Is the latest open trade of the symbol of the side of the order? -/
def alreadyOpen (d : Discrepancy) : Bool :=
  (table.openTradeBySymbol d.symbol).any fun t =>
    decide (normalizeTradeSide t.side = normalizeTradeSide d.side)

/-- Body of the loop of `_auto_repair`: the write for a discrepancy. -/
def planRepair (d : Discrepancy) : Option Repair :=
  match d.bybitData with
  | .entry price qty _ _ =>
      if qty ≤ 0 ∨ price ≤ 0 then none
      else if alreadyOpen table d then none
      else some (.insert (entryRow a d price qty))
  | .exit pnl entryPrice exitPrice qty _ =>
      if qty ≤ 0 ∨ exitPrice ≤ 0 then none
      else
        match d.localTradeId with
        | some id =>
            if table.hasOpen id then some (.close id (repairExit a d pnl exitPrice)) else none
        | none =>
            if entryPrice ≤ 0 then none
            else some (.insert (backfillRow a d pnl entryPrice exitPrice qty))
  | .prices .. | .pnls .. => none

end Plan

/-- The table with the sources of the rows inserted in this cycle. -/
structure Repaired where
  table : TradeTable
  inserted : List RepairSource

/-- Repair one discrepancy, as far as the write goes through. -/
def repairItem (a : CycleAnswers) (s : Repaired) (item : RepairItem) : Repaired :=
  if a.accepts item.discrepancy then
    match planRepair a s.table item.discrepancy with
    | none => s
    | some (.insert t) => ⟨s.table.insert t, s.inserted ++ [item.source]⟩
    | some (.close id e) => ⟨s.table.closeTrade id e, s.inserted⟩
  else s

/-- `_auto_repair` on the repairs of a cycle. -/
def autoRepair (a : CycleAnswers) (table : TradeTable) (items : List RepairItem) : Repaired :=
  items.foldl (repairItem a) ⟨table, []⟩

/-! ## Runs -/

/-- Table and clock; `settled` tells that some cycle had no capped or failed repair,
`diverged` that a cycle after it changed the rows, and `produced` lists the sources of the
rows inserted so far. -/
structure ReconcilerState where
  table : TradeTable
  now : ℚ
  settled : Bool
  diverged : Bool
  produced : List RepairSource

/-- Before the first cycle. -/
def ReconcilerState.start (table : TradeTable) (now : ℚ) : ReconcilerState where
  table := table
  now := now
  settled := false
  diverged := false
  produced := []

/-- Does the repair of the discrepancy reach the trade store? -/
def Valid (d : Discrepancy) : Prop :=
  match d.bybitData with
  | .entry price qty _ _ => 0 < qty ∧ 0 < price
  | .exit _ entryPrice exitPrice qty _ =>
      0 < qty ∧ 0 < exitPrice ∧ (d.localTradeId = none → 0 < entryPrice)
  | .prices .. | .pnls .. => False

instance (d : Discrepancy) : Decidable (Valid d) := by
  unfold Valid
  cases d.bybitData <;> infer_instance

section Step

variable (settings : ReconcilerSettings) (history : BybitHistory)

/-- The whole history lies in the lookback window. -/
def inWindow (now : ℚ) : Bool :=
  (history.fills.all fun f => decide (windowStartMs settings now ≤ f.execTime)) &&
    history.closed.all fun r => decide (windowStartMs settings now ≤ r.createdTimeMs)

/-- The cycle makes no capped or failed repair. -/
def clean (a : CycleAnswers) (now : ℚ) (table : TradeTable) : Bool :=
  let items := repairable settings history now table
  decide (items.length ≤ maxRepairsPerCycle) &&
    items.all fun item => decide (Valid item.discrepancy → a.accepts item.discrepancy = true)

/-- `reconcile`. -/
def reconcileCycle (s : ReconcilerState) (a : CycleAnswers) : ReconcilerState :=
  let now := s.now + a.elapsed
  if a.answered then
    let result := autoRepair a s.table (dueRepairs settings history now s.table)
    { table := result.table
      now := now
      settled := s.settled || clean settings history a now s.table
      diverged := s.diverged ||
        (s.settled && inWindow settings history now && decide (result.table.rows ≠ s.table.rows))
      produced := s.produced ++ result.inserted }
  else { s with now := now }

/-! ## When nothing is repaired -/

/-- An order that the latest open trade of its symbol covers, or an exit of a trade that is
not open. -/
def Covered (table : TradeTable) (d : Discrepancy) : Prop :=
  match d.bybitData with
  | .entry .. => alreadyOpen table d = true
  | .exit .. => ∃ id, d.localTradeId = some id ∧ table.hasOpen id = false
  | .prices .. | .pnls .. => True

/-- The discrepancy is left as it is: no quantity or price, covered, or refused by the
store. -/
def Idle (a : CycleAnswers) (table : TradeTable) (d : Discrepancy) : Prop :=
  ¬ Valid d ∨ Covered table d ∨ a.accepts d = false

end Step

section Repairs

variable {a : CycleAnswers}

/-- No write is planned exactly for an invalid or covered discrepancy. -/
theorem planRepair_eq_none_iff {table : TradeTable} {d : Discrepancy} :
    planRepair a table d = none ↔ ¬ Valid d ∨ Covered table d := by
  unfold planRepair Valid Covered
  cases d.bybitData with
  | entry price qty execTime orderId =>
      dsimp only
      by_cases hbad : qty ≤ 0 ∨ price ≤ 0
      · have hinvalid : ¬ (0 < qty ∧ 0 < price) := by
          rintro ⟨hqty, hprice⟩
          exact hbad.elim (not_le.mpr hqty) (not_le.mpr hprice)
        rw [if_pos hbad]
        simp [hinvalid]
      · rw [not_or, not_le, not_le] at hbad
        rw [if_neg (by simpa using hbad)]
        cases alreadyOpen table d <;> simp [hbad]
  | exit pnl entryPrice exitPrice qty updatedTimeMs =>
      dsimp only
      by_cases hbad : qty ≤ 0 ∨ exitPrice ≤ 0
      · have hinvalid : ¬ (0 < qty ∧ 0 < exitPrice ∧ (d.localTradeId = none → 0 < entryPrice)) := by
          rintro ⟨hqty, hprice, -⟩
          exact hbad.elim (not_le.mpr hqty) (not_le.mpr hprice)
        rw [if_pos hbad]
        simp [hinvalid]
      · rw [not_or, not_le, not_le] at hbad
        rw [if_neg (by simpa using hbad)]
        cases d.localTradeId with
        | some id => cases hopen : table.hasOpen id <;> simp [hbad, hopen]
        | none =>
            by_cases hentry : entryPrice ≤ 0
            · simp [hentry]
            · simp [hbad, hentry, not_le.mp hentry]
  | prices bybitPrice localPrice => simp
  | pnls bybitPnl localPnl => simp

/-- A planned write: the row of an entry, that of an exit without a trade, or the exit of a
trade that is open. -/
theorem planRepair_cases {table : TradeTable} {d : Discrepancy} {write : Repair}
    (h : planRepair a table d = some write) :
    (d.kind = .missing_entry ∧ ∃ price qty, write = .insert (entryRow a d price qty)) ∨
      (d.kind = .missing_exit ∧ d.localTradeId = none ∧
        ∃ pnl entryPrice exitPrice qty,
          write = .insert (backfillRow a d pnl entryPrice exitPrice qty)) ∨
      (d.kind = .missing_exit ∧
        ∃ id pnl exitPrice, d.localTradeId = some id ∧ table.hasOpen id = true ∧
          write = .close id (repairExit a d pnl exitPrice)) := by
  unfold planRepair at h
  unfold Discrepancy.kind
  cases hdata : d.bybitData with
  | entry price qty execTime orderId =>
      rw [hdata] at h
      dsimp only at h
      split_ifs at h
      exact Or.inl ⟨rfl, price, qty, (Option.some.inj h).symm⟩
  | exit pnl entryPrice exitPrice qty updatedTimeMs =>
      rw [hdata] at h
      dsimp only at h
      cases hid : d.localTradeId with
      | some id =>
          rw [hid] at h
          dsimp only at h
          split_ifs at h with hbad hopen
          exact Or.inr (Or.inr ⟨rfl, id, pnl, exitPrice, rfl, hopen, (Option.some.inj h).symm⟩)
      | none =>
          rw [hid] at h
          dsimp only at h
          split_ifs at h
          exact Or.inr (Or.inl ⟨rfl, rfl, pnl, entryPrice, exitPrice, qty,
            (Option.some.inj h).symm⟩)
  | prices bybitPrice localPrice =>
      rw [hdata] at h
      cases h
  | pnls bybitPnl localPnl =>
      rw [hdata] at h
      cases h

/-- Only open rows are closed. -/
theorem hasOpen_of_plan {table : TradeTable} {d : Discrepancy} {id : ℕ} {e : Exit}
    (h : planRepair a table d = some (.close id e)) : table.hasOpen id = true := by
  rcases planRepair_cases h with ⟨-, _, _, hw⟩ | ⟨-, -, _, _, _, _, hw⟩ |
    ⟨-, id', _, _, -, hopen, hw⟩
  · cases hw
  · cases hw
  · obtain ⟨rfl, -⟩ := Repair.close.inj hw
    exact hopen

/-- An idle discrepancy changes nothing. -/
theorem repairItem_of_idle {s : Repaired} {item : RepairItem}
    (hidle : Idle a s.table item.discrepancy) : repairItem a s item = s := by
  unfold repairItem
  split_ifs with haccepts
  · have hnone : planRepair a s.table item.discrepancy = none := by
      rw [planRepair_eq_none_iff]
      rcases hidle with h | h | h
      · exact Or.inl h
      · exact Or.inr h
      · rw [haccepts] at h
        cases h
    rw [hnone]
  · rfl

/-! ## A measure of the table -/

/-- Rows and closed rows: repairs add to both and never take from them. -/
def weight (rows : List Trade) : ℕ :=
  rows.length + rows.countP fun t => !t.isOpen

theorem weight_insert (table : TradeTable) (t : Trade) :
    weight table.rows < weight (table.insert t).rows := by
  simp only [weight, TradeTable.insert, List.length_append, List.countP_append,
    List.length_singleton]
  omega

/-- Closing an open row adds one closed row. -/
theorem weight_closeTrade {table : TradeTable} {id : ℕ} (hopen : table.hasOpen id = true)
    (e : Exit) : weight table.rows < weight (table.closeTrade id e).rows := by
  have hcount : ∀ rows : List Trade,
      (rows.map fun t => if t.id = id ∧ t.isOpen = true then t.close e else t).countP
          (fun t => !t.isOpen) =
        rows.countP (fun t => !t.isOpen) +
          rows.countP fun t => decide (t.id = id) && t.isOpen := by
    intro rows
    induction rows with
    | nil => rfl
    | cons t rest ih =>
        rw [List.map_cons, List.countP_cons, List.countP_cons, List.countP_cons, ih]
        by_cases hid : t.id = id
        · cases hclosed : t.isOpen with
          | true =>
              have hexit : (t.close e).isOpen = false := rfl
              simp only [hid, hexit, and_self, if_true, Bool.not_false, Bool.not_true,
                decide_true, Bool.and_self, if_false, Bool.false_eq_true]
              omega
          | false =>
              simp only [hid, hclosed, and_false, if_false, Bool.not_false, if_true,
                decide_true, Bool.and_false, Bool.false_eq_true]
              omega
        · simp only [hid, false_and, if_false, decide_false, Bool.false_and,
            Bool.false_eq_true]
          omega
  have hpos : 0 < table.rows.countP fun t => decide (t.id = id) && t.isOpen := by
    rw [List.countP_pos_iff]
    exact List.any_eq_true.mp hopen
  simp only [weight, TradeTable.closeTrade, List.length_map, hcount]
  omega

/-- A repair adds to the weight, unless it is idle. -/
theorem weight_repairItem {s : Repaired} {item : RepairItem}
    (hactive : ¬ Idle a s.table item.discrepancy) :
    weight s.table.rows < weight (repairItem a s item).table.rows := by
  rw [Idle, not_or, not_or] at hactive
  rcases hactive with ⟨hvalid, hcovered, hrefused⟩
  have haccepts : a.accepts item.discrepancy = true := by simpa using hrefused
  unfold repairItem
  rw [if_pos haccepts]
  cases hplan : planRepair a s.table item.discrepancy with
  | none =>
      rcases planRepair_eq_none_iff.mp hplan with h | h
      · exact absurd h hvalid
      · exact absurd h hcovered
  | some repair =>
      cases repair with
      | insert t => exact weight_insert s.table t
      | close id e => exact weight_closeTrade (hasOpen_of_plan hplan) e

/-- Repairs never take from the weight. -/
theorem weight_le_repairs (items : List RepairItem) (s : Repaired) :
    weight s.table.rows ≤ weight (items.foldl (repairItem a) s).table.rows := by
  induction items generalizing s with
  | nil => exact le_refl _
  | cons item rest ih =>
      rw [List.foldl_cons]
      refine le_trans ?_ (ih _)
      by_cases hidle : Idle a s.table item.discrepancy
      · rw [repairItem_of_idle hidle]
      · exact (weight_repairItem hidle).le

/-- The rows stay as they are exactly when every discrepancy is idle. -/
theorem repairs_rows_iff (items : List RepairItem) (s : Repaired) :
    (items.foldl (repairItem a) s).table.rows = s.table.rows ↔
      ∀ item ∈ items, Idle a s.table item.discrepancy := by
  induction items generalizing s with
  | nil => simp
  | cons item rest ih =>
      rw [List.foldl_cons, List.forall_mem_cons]
      by_cases hidle : Idle a s.table item.discrepancy
      · rw [repairItem_of_idle hidle, ih, and_iff_right hidle]
      · refine iff_of_false (fun hrows => ?_) fun h => hidle h.1
        have hgrows := weight_repairItem hidle
        have hkept := @weight_le_repairs a rest (repairItem a s item)
        rw [hrows] at hkept
        omega

/-- A cycle changes nothing exactly when each of its repairs is idle. -/
theorem autoRepair_rows_iff (table : TradeTable) (items : List RepairItem) :
    (autoRepair a table items).table.rows = table.rows ↔
      ∀ item ∈ items, Idle a table item.discrepancy :=
  repairs_rows_iff items ⟨table, []⟩

/-! ## Repairs that are not recognised -/

/-- The row of a missing entry never matches its order: it is stamped when the grace period
of five minutes is over. -/
theorem repairedEntry_unmatched {o : BybitOrder} {now : ℚ} (hpast : o.execTime ≤ now - 300)
    (hstamp : now ≤ a.stamp (missingEntry o)) (id : ℕ) :
    ¬ EnteredBy o { entryRow a (missingEntry o) o.price o.qty with id := id } := by
  rintro ⟨-, hnear⟩
  have hentry := (abs_lt.mp hnear).2
  dsimp only [entryRow] at hentry
  linarith

/-- The backfilled row of a record older than thirty minutes never books it. -/
theorem backfilledExit_unmatched {r : ClosedPnl} {d : Discrepancy}
    {pnl entryPrice exitPrice qty : ℚ} (hold : r.closedAt + 1800 ≤ a.repairStart) (id : ℕ) :
    exitNear r.closedAt { backfillRow a d pnl entryPrice exitPrice qty with id := id } = false := by
  apply decide_eq_false
  intro hnear
  have hexit := (abs_lt.mp hnear).2
  linarith

/-- Nor does the trade that such a record closes. -/
theorem repairedExit_unmatched {r : ClosedPnl} {d : Discrepancy} {t : Trade} {pnl exitPrice : ℚ}
    (hold : r.closedAt + 1800 ≤ a.stamp d) :
    exitNear r.closedAt (t.close (repairExit a d pnl exitPrice)) = false := by
  apply decide_eq_false
  intro hnear
  have hexit := (abs_lt.mp hnear).2
  dsimp only [repairExit] at hexit
  linarith

/-! ## Which sources get a row -/

/-- An inserted row has the symbol of its discrepancy. -/
theorem symbol_of_plan {table : TradeTable} {d : Discrepancy} {t : Trade}
    (h : planRepair a table d = some (.insert t)) : t.symbol = d.symbol := by
  rcases planRepair_cases h with ⟨-, _, _, hw⟩ | ⟨-, -, _, _, _, _, hw⟩ |
    ⟨-, _, _, _, -, -, hw⟩
  · rw [Repair.insert.inj hw]
    rfl
  · rw [Repair.insert.inj hw]
    rfl
  · cases hw

/-- A repair adds at most the source of its item. -/
theorem repairItem_inserted (s : Repaired) (item : RepairItem) :
    (repairItem a s item).inserted = s.inserted ∨
      (repairItem a s item).inserted = s.inserted ++ [item.source] := by
  unfold repairItem
  split_ifs
  · split
    · exact Or.inl rfl
    · exact Or.inr rfl
    · exact Or.inl rfl
  · exact Or.inl rfl

/-- The repairs of a list add some of its sources, each at most as often as it stands in the
list. -/
theorem repairs_inserted (items : List RepairItem) (s : Repaired) :
    ∃ added, (items.foldl (repairItem a) s).inserted = s.inserted ++ added ∧
      added.Sublist (items.map RepairItem.source) := by
  induction items generalizing s with
  | nil => exact ⟨[], by simp, List.Sublist.refl _⟩
  | cons item rest ih =>
      rcases ih (repairItem a s item) with ⟨added, hadded, hsub⟩
      rw [List.foldl_cons, hadded, List.map_cons]
      rcases @repairItem_inserted a s item with h | h
      · exact ⟨added, by rw [h], hsub.cons _⟩
      · exact ⟨item.source :: added, by rw [h, List.append_assoc]; rfl, hsub.cons_cons _⟩

end Repairs
end Reconciler
end Karsa
