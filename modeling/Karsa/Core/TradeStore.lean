import Karsa.Foundations.Decimal
import Karsa.Foundations.Text
import Mathlib.Data.List.Sort

/-!
# Trade store - The table of trades

`TradeStore` keeps one row per trade in Postgres.  A row is open until its exit columns are
written; `id` is a serial primary key.  Times are in seconds.

Main results:

- Theorem `mem_tradesSince`: which rows a reconciliation reads.
- Theorem `nodup_tradesSince`: it reads every row once.
-/

namespace Karsa
namespace Trades

/-! ## Rows -/

/-- A row of `trades`; an open one has no exit time. -/
structure Trade where
  id : Nat
  symbol : Text
  side : Text
  amount : ℚ
  entryPrice : ℚ
  exitPrice : Option ℚ
  pnl : Option ℚ
  regime : Option Text
  entryTime : ℚ
  exitTime : Option ℚ
  exitReason : Option Text
deriving Repr, DecidableEq

/-- The exit columns of a close. -/
structure Exit where
  price : ℚ
  pnl : ℚ
  reason : Text
  time : ℚ
  regime : Option Text
deriving Repr, DecidableEq

/-- `exit_time IS NULL`. -/
def Trade.isOpen (t : Trade) : Bool :=
  t.exitTime.isNone

/-- Write the exit columns; the regime only where one is given. -/
def Trade.close (e : Exit) (t : Trade) : Trade :=
  { t with
    exitPrice := some e.price
    pnl := some e.pnl
    exitReason := some e.reason
    exitTime := some e.time
    regime := e.regime.orElse fun _ => t.regime }

/-! ## The table -/

/-- The rows in the order of their insertion; ids are positive and never reused. -/
structure TradeTable where
  rows : List Trade
  lastId : Nat
  distinct : (rows.map Trade.id).Nodup
  bounded : ∀ t ∈ rows, 0 < t.id ∧ t.id ≤ lastId

namespace TradeTable

/-- A new table. -/
def empty : TradeTable where
  rows := []
  lastId := 0
  distinct := List.nodup_nil
  bounded := by simp

/-- `INSERT INTO trades`: the row gets the next id. -/
def insert (table : TradeTable) (t : Trade) : TradeTable where
  rows := table.rows ++ [{ t with id := table.lastId + 1 }]
  lastId := table.lastId + 1
  distinct := by
    have hnew : ∀ old ∈ table.rows, ¬ old.id = table.lastId + 1 := by
      intro old hold hid
      have hbound := (table.bounded old hold).2
      omega
    rw [List.map_append]
    simpa [List.nodup_append] using ⟨table.distinct, hnew⟩
  bounded := by
    intro t' ht'
    rcases List.mem_append.mp ht' with hold | hnew
    · have hbound := table.bounded t' hold
      omega
    · rw [List.mem_singleton.mp hnew]
      simp

/-- Is there an open row with the id? -/
def hasOpen (table : TradeTable) (id : Nat) : Bool :=
  table.rows.any fun t => decide (t.id = id) && t.isOpen

/-- `TradeStore.close_trade` with an id; it updates a row exactly where `hasOpen`. -/
def closeTrade (table : TradeTable) (id : Nat) (e : Exit) : TradeTable where
  rows := table.rows.map fun t => if t.id = id ∧ t.isOpen = true then t.close e else t
  lastId := table.lastId
  distinct := by
    have hids : (table.rows.map fun t =>
        if t.id = id ∧ t.isOpen = true then t.close e else t).map Trade.id =
          table.rows.map Trade.id := by
      rw [List.map_map]
      apply List.map_congr_left
      intro t _
      dsimp only [Function.comp]
      split_ifs <;> rfl
    rw [hids]
    exact table.distinct
  bounded := by
    intro t' ht'
    rcases List.mem_map.mp ht' with ⟨t, ht, rfl⟩
    split_ifs
    · exact table.bounded t ht
    · exact table.bounded t ht

/-- `TradeStore.get_trades_since`: open and closed rows, the latest entry first. -/
def tradesSince (table : TradeTable) (since : ℚ) : List Trade :=
  (table.rows.filter fun t => decide (since ≤ t.entryTime)).insertionSort
    fun a b => b.entryTime ≤ a.entryTime

/-- `TradeStore.get_all_open_trades`, the earliest entry first. -/
def openTrades (table : TradeTable) : List Trade :=
  (table.rows.filter Trade.isOpen).insertionSort fun a b => a.entryTime ≤ b.entryTime

/-- `TradeStore.get_open_trade_by_symbol`: the open row with the latest entry. -/
def openTradeBySymbol (table : TradeTable) (symbol : Text) : Option Trade :=
  ((table.rows.filter fun t => decide (t.symbol = symbol) && t.isOpen).insertionSort
    fun a b => b.entryTime ≤ a.entryTime).head?

/-! ## What the reads return -/

variable {table : TradeTable} {t : Trade}

/-- The rows entered since the given time. -/
theorem mem_tradesSince {since : ℚ} :
    t ∈ table.tradesSince since ↔ t ∈ table.rows ∧ since ≤ t.entryTime := by
  simp [tradesSince, List.mem_insertionSort]

/-- The open rows. -/
theorem mem_openTrades : t ∈ table.openTrades ↔ t ∈ table.rows ∧ t.exitTime = none := by
  simp [openTrades, List.mem_insertionSort, Trade.isOpen]

/-- No id is listed twice. -/
theorem nodup_tradesSince (table : TradeTable) (since : ℚ) :
    ((table.tradesSince since).map Trade.id).Nodup := by
  have hperm := List.perm_insertionSort (fun a b : Trade => b.entryTime ≤ a.entryTime)
    (table.rows.filter fun t => decide (since ≤ t.entryTime))
  rw [tradesSince, (hperm.map Trade.id).nodup_iff]
  exact table.distinct.sublist (List.filter_sublist.map Trade.id)

end TradeTable
end Trades
end Karsa
