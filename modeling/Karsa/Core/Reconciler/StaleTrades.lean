import Karsa.Core.TradeStore
import Karsa.Watchdog.SystemWatchdog

/-!
# Trade reconciler - Cleanup of stale trades

At startup `close_stale_open_trades` closes every open trade whose position is not on the
exchange, at breakeven.  Exchange positions are keyed `BTCUSDT:BUY`, trades
`BTC/USDT:LONG`.

Main results:

- Theorem `hasOpen_closeStale`: every open trade is closed.
- Theorem `closesExactlyStale_iff`: when only stale trades are.
-/

namespace Karsa
namespace Reconciler

open Bybit Trades Watchdog

/-! ## The cleanup -/

/-- `side.upper()`. -/
def upper (side : Text) : Text :=
  side.map Char.toUpper

/-- Key of an exchange position. -/
def positionKey (p : ExchangePosition) : Text :=
  watchKey p.symbol (upper p.side.word)

/-- `check_side`. -/
def checkSide (side : Text) : Text :=
  if upper side = "BUY".toList ∨ upper side = "LONG".toList then "LONG".toList
  else if upper side = "SELL".toList ∨ upper side = "SHORT".toList then "SHORT".toList
  else upper side

/-- Key of an open trade. -/
def tradeKey (t : Trade) : Text :=
  watchKey t.symbol (checkSide t.side)

/-- Breakeven exit of a trade. -/
def staleExit (now : ℚ) (t : Trade) : Exit where
  price := t.entryPrice
  pnl := 0
  reason := "stale_cleanup".toList
  time := now
  regime := some "RECONCILED".toList

/-- What the cleanup meets: the positions, `none` where reading them or the trades raised,
and which updates go through. -/
structure CleanupAnswers where
  now : ℚ
  positions : Option (List ExchangePosition)
  written : Nat → Bool

/-- Body of the loop: close a trade whose key is not on the exchange. -/
def closeStaleTrade (a : CleanupAnswers) (keys : List Text) (s : TradeTable × Nat) (t : Trade) :
    TradeTable × Nat :=
  if tradeKey t ∉ keys ∧ a.written t.id = true then
    (s.1.closeTrade t.id (staleExit a.now t), s.2 + 1)
  else s

/-- `close_stale_open_trades`, with the number of trades closed. -/
def closeStaleOpenTrades (a : CleanupAnswers) (table : TradeTable) : TradeTable × Nat :=
  match a.positions with
  | none => (table, 0)
  | some positions =>
      table.openTrades.foldl (closeStaleTrade a (positions.map positionKey)) (table, 0)

/-! ## What it should close -/

section Purpose

variable (tables : InstrumentTables) (positions : List ExchangePosition)

/-- The spellings of a side that trades are stored with. -/
def AcceptedSide (side : Text) : Prop :=
  side = "Buy".toList ∨ side = "Sell".toList ∨ side = "LONG".toList ∨ side = "SHORT".toList

/-- A table whose open trades have an accepted side. -/
structure StoredTrades where
  table : TradeTable
  accepted : ∀ t ∈ table.openTrades, AcceptedSide t.side

/-- The exchange has a position in the trade's instrument and direction. -/
def OnExchange (t : Trade) : Prop :=
  ∃ p ∈ positions, tables.toBybitSymbol t.symbol = p.symbol ∧
    normalizeSide t.side = Side.ofOrderSide p.side

/-- Of the trades whose update goes through, the cleanup closes those without a
position. -/
def ClosesExactlyStale (a : CleanupAnswers) (table : TradeTable) : Prop :=
  ∀ t ∈ table.openTrades, a.written t.id = true →
    ((closeStaleOpenTrades a table).1.hasOpen t.id = false ↔ ¬ OnExchange tables positions t)

end Purpose

/-! ## Keys never meet -/

/-- A position and a trade with an accepted side never share a key. -/
theorem positionKey_ne_tradeKey (p : ExchangePosition) {t : Trade} (hside : AcceptedSide t.side) :
    positionKey p ≠ tradeKey t := by
  intro heq
  have hlast := congrArg List.getLast? heq
  have hcheck : checkSide t.side = "LONG".toList ∨ checkSide t.side = "SHORT".toList := by
    rcases hside with h | h | h | h <;> rw [h] <;> decide
  rcases hcheck with hcheck | hcheck <;> cases hp : p.side <;>
    simp [positionKey, tradeKey, watchKey, upper, OrderSide.word, hcheck, hp,
      List.getLast?_append] at hlast

/-! ## Closing one trade after the other -/

/-- A close takes one id from the open rows. -/
theorem hasOpen_closeTrade (table : TradeTable) (id id' : Nat) (e : Exit) :
    (table.closeTrade id e).hasOpen id' = (table.hasOpen id' && decide (id' ≠ id)) := by
  rw [Bool.eq_iff_iff]
  simp only [TradeTable.hasOpen, TradeTable.closeTrade, List.any_eq_true, List.mem_map,
    Bool.and_eq_true, decide_eq_true_eq]
  constructor
  · rintro ⟨row, ⟨t, ht, rfl⟩, hid, hopen⟩
    split_ifs at hid hopen with hclosed
    · cases hopen
    · exact ⟨⟨t, ht, hid, hopen⟩, fun hsame => hclosed ⟨hid.trans hsame, hopen⟩⟩
  · rintro ⟨⟨t, ht, hid, hopen⟩, hne⟩
    refine ⟨t, ⟨t, ht, if_neg ?_⟩, hid, hopen⟩
    rintro ⟨hsame, -⟩
    exact hne (hid.symm.trans hsame)

/-- After the loop a row is open where it was and no closed trade of the list has its
id. -/
theorem hasOpen_foldl (a : CleanupAnswers) (keys : List Text) (list : List Trade)
    (s : TradeTable × Nat) (id : Nat) :
    (list.foldl (closeStaleTrade a keys) s).1.hasOpen id = true ↔
      s.1.hasOpen id = true ∧
        ∀ t ∈ list, tradeKey t ∉ keys → a.written t.id = true → id ≠ t.id := by
  induction list generalizing s with
  | nil => simp
  | cons t rest ih =>
      rw [List.foldl_cons, ih, List.forall_mem_cons]
      by_cases hcloses : tradeKey t ∉ keys ∧ a.written t.id = true
      · rw [closeStaleTrade, if_pos hcloses, hasOpen_closeTrade, Bool.and_eq_true,
          decide_eq_true_eq]
        constructor
        · rintro ⟨⟨hopen, hne⟩, hrest⟩
          exact ⟨hopen, fun _ _ => hne, hrest⟩
        · rintro ⟨hopen, hne, hrest⟩
          exact ⟨⟨hopen, hne hcloses.1 hcloses.2⟩, hrest⟩
      · rw [closeStaleTrade, if_neg hcloses]
        constructor
        · rintro ⟨hopen, hrest⟩
          exact ⟨hopen, fun hkey hwritten => absurd ⟨hkey, hwritten⟩ hcloses, hrest⟩
        · rintro ⟨hopen, -, hrest⟩
          exact ⟨hopen, hrest⟩

/-- Every open trade whose update goes through is closed. -/
theorem hasOpen_closeStale {a : CleanupAnswers} {positions : List ExchangePosition}
    (hread : a.positions = some positions) (s : StoredTrades) {t : Trade}
    (ht : t ∈ s.table.openTrades) (hwritten : a.written t.id = true) :
    (closeStaleOpenTrades a s.table).1.hasOpen t.id = false := by
  rw [closeStaleOpenTrades, hread]
  dsimp only
  rw [Bool.eq_false_iff]
  intro hopen
  have hall := ((hasOpen_foldl a _ _ _ _).mp hopen).2 t ht
  refine hall (fun hkey => ?_) hwritten rfl
  rcases List.mem_map.mp hkey with ⟨p, -, heq⟩
  exact positionKey_ne_tradeKey p (s.accepted t ht) heq

/-- The cleanup closes exactly the stale trades exactly when it could close no other. -/
theorem closesExactlyStale_iff (tables : InstrumentTables) (list : List RawPosition)
    (now : ℚ) (written : Nat → Bool) (s : StoredTrades) :
    ClosesExactlyStale tables (fetchPositions list)
        ⟨now, some (fetchPositions list), written⟩ s.table ↔
      ∀ t ∈ s.table.openTrades, written t.id = true →
        ¬ OnExchange tables (fetchPositions list) t := by
  constructor
  · intro hexact t ht hwritten
    exact (hexact t ht hwritten).mp (hasOpen_closeStale rfl s ht hwritten)
  · intro hnone t ht hwritten
    exact iff_of_true (hasOpen_closeStale rfl s ht hwritten) (hnone t ht hwritten)

/-- A long of one bitcoin, open in the table and on the exchange, is closed. -/
theorem closesExactlyStale_live_trade :
    ¬ ∀ (tables : InstrumentTables) (list : List RawPosition) (now : ℚ) (written : Nat → Bool)
      (s : StoredTrades),
      ClosesExactlyStale tables (fetchPositions list)
        ⟨now, some (fetchPositions list), written⟩ s.table := by
  intro h
  let live : Trade := ⟨1, "BTC/USDT".toList, "LONG".toList, 1, 100, none, none, none, 0, none,
    none⟩
  let s : StoredTrades :=
    { table := ⟨[live], 1, by decide, by decide⟩
      accepted := by
        intro t ht
        rcases TradeTable.mem_openTrades.mp ht with ⟨hrow, -⟩
        rw [List.mem_singleton.mp hrow]
        exact Or.inr (Or.inr (Or.inl rfl)) }
  have hexact := h .empty
    [{ symbol := "BTCUSDT".toList, side := .Buy, size := some (.value 1),
       avgPrice := some (.value 100), unrealisedPnl := none, stopLoss := none,
       takeProfit := none, trailingStop := none, liqPrice := none }] 0 (fun _ => true) s
  have hopen : live ∈ s.table.openTrades :=
    TradeTable.mem_openTrades.mpr ⟨List.mem_singleton_self live, rfl⟩
  apply (hexact live hopen rfl).mp (hasOpen_closeStale rfl s hopen rfl)
  unfold OnExchange
  decide +kernel

end Reconciler
end Karsa
