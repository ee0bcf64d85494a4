import Karsa.Core.TradeStore
import Karsa.Watchdog.SystemWatchdog

/-!
# Startup - State reconciliation

On boot `StateReconciler` compares the exchange's positions with the store and records
those the store does not have as open trades.  Both lists are indexed by `symbol:side` in
their own words, and the position store itself is never written.

Main results:

- Theorem `diffPositions_orphaned`, `diffPositions_missing`, `diffPositions_updated`: every
  position is orphaned, every record missing and nothing updated.
- Theorem `startupCorrect_iff`: when the difference is right and restarts add nothing.
-/

namespace Karsa
namespace StateReconciler

open Bybit Trades Watchdog

/-! ## The difference -/

/-- What `_diff_positions` returns. -/
structure PositionDiff where
  orphaned : List ExchangePosition
  missing : List Text
  updated : List (Text × OrderSide)
deriving Repr, DecidableEq

/-- `exchange_map`. -/
def exchangeMap (exchange : List ExchangePosition) : Dict Text ExchangePosition :=
  Dict.index (exchange.map fun p => (watchKey p.symbol p.side.word, p))

/-- `internal_map`. -/
def internalMap (internal : List PositionRecord) : Dict Text PositionRecord :=
  Dict.index (internal.map fun r => (watchKey r.symbol r.side.word, r))

/-- `_diff_positions`. -/
def diffPositions (exchange : List ExchangePosition) (internal : List PositionRecord) :
    PositionDiff where
  orphaned := ((exchangeMap exchange).filter fun item =>
    decide (item.1 ∉ (internalMap internal).keys)).map Prod.snd
  missing := ((internalMap internal).filter fun item =>
    decide (item.1 ∉ (exchangeMap exchange).keys)).map fun item => item.2.symbol
  updated := (exchangeMap exchange).filterMap fun item =>
    ((internalMap internal).lookup item.1).bind fun r =>
      if item.2.contracts ≠ r.amount then some (item.2.symbol, item.2.side) else none

/-! ## The reconciliation -/

/-- Where orphans are recorded: is there a trade store, and which inserts go through? -/
structure TradeWriter where
  present : Bool
  accepts : Text → OrderSide → Bool

/-- Does the insert for a position go through? -/
def TradeWriter.writes (w : TradeWriter) (p : ExchangePosition) : Bool :=
  w.present && w.accepts p.symbol p.side

/-- The row of an orphaned position; the table gives it its id. -/
def orphanRow (now : ℚ) (p : ExchangePosition) : Trade where
  id := 0
  symbol := p.symbol
  side := p.side.word
  amount := p.contracts
  entryPrice := p.entryPrice
  exitPrice := none
  pnl := some p.unrealizedPnl
  regime := some "RECONCILED".toList
  entryTime := now
  exitTime := none
  exitReason := none

/-- `_record_orphaned`. -/
def recordOrphaned (w : TradeWriter) (now : ℚ) (table : TradeTable) (p : ExchangePosition) :
    TradeTable :=
  if w.writes p then table.insert (orphanRow now p) else table

/-- `reconcile`, on the trade table; a list that could not be read counts as empty. -/
def reconcile (w : TradeWriter) (exchange : Option (List ExchangePosition))
    (internal : Option (List PositionRecord)) (now : ℚ) (table : TradeTable) : TradeTable :=
  (diffPositions (exchange.getD []) (internal.getD [])).orphaned.foldl (recordOrphaned w now)
    table

/-! ## What it should do -/

section Purpose

variable (t : InstrumentTables) (exchange : List ExchangePosition)
  (internal : List PositionRecord)

/-- Exchange positions without a record are orphaned, records without a position are
missing, and the common ones are updated where the amounts differ. -/
structure CorrectPartition (d : PositionDiff) : Prop where
  orphaned : ∀ p ∈ exchange, (∃ q ∈ d.orphaned, q.symbol = p.symbol ∧ q.side = p.side) ↔
    ∀ r ∈ internal, ¬ SamePosition t r p
  missing : ∀ r ∈ internal, r.symbol ∈ d.missing ↔
    ∃ r' ∈ internal, r'.symbol = r.symbol ∧ ∀ p ∈ exchange, ¬ SamePosition t r' p
  updated : ∀ symbol side, (symbol, side) ∈ d.updated ↔
    ∃ p ∈ exchange, ∃ r ∈ internal, p.symbol = symbol ∧ p.side = side ∧ SamePosition t r p ∧
      p.contracts ≠ r.amount

/-- Store and exchange contain the same positions in the same amounts. -/
structure Agree : Prop where
  recorded : ∀ p ∈ exchange, ∃ r ∈ internal, SamePosition t r p ∧ r.amount = p.contracts
  held : ∀ r ∈ internal, ∃ p ∈ exchange, SamePosition t r p ∧ r.amount = p.contracts

/-- The difference is right, nothing is inserted where store and exchange agree, and a
second start inserts nothing. -/
structure StartupCorrect (w : TradeWriter) (now later : ℚ) (table : TradeTable) : Prop where
  partition : CorrectPartition t exchange internal (diffPositions exchange internal)
  agreed : Agree t exchange internal →
    (reconcile w (some exchange) (some internal) now table).rows = table.rows
  settled : (reconcile w (some exchange) (some internal) later
      (reconcile w (some exchange) (some internal) now table)).rows =
    (reconcile w (some exchange) (some internal) now table).rows

/-- No record stands for a position on the exchange. -/
def NoneShared : Prop :=
  ∀ r ∈ internal, ∀ p ∈ exchange, ¬ SamePosition t r p

end Purpose

/-! ## Nothing is shared between the two maps -/

section Maps

variable {exchange : List ExchangePosition} {internal : List PositionRecord}

theorem exists_of_mem_exchangeMap {item : Text × ExchangePosition}
    (h : item ∈ exchangeMap exchange) :
    item.2 ∈ exchange ∧ item.1 = watchKey item.2.symbol item.2.side.word := by
  rcases List.mem_map.mp (Dict.mem_of_mem_index h) with ⟨p, hp, rfl⟩
  exact ⟨hp, rfl⟩

theorem exists_of_mem_internalMap {item : Text × PositionRecord}
    (h : item ∈ internalMap internal) :
    item.2 ∈ internal ∧ item.1 = watchKey item.2.symbol item.2.side.word := by
  rcases List.mem_map.mp (Dict.mem_of_mem_index h) with ⟨r, hr, rfl⟩
  exact ⟨hr, rfl⟩

/-- A key of one map is not in the other. -/
theorem maps_disjoint {position : Text × ExchangePosition} {record : Text × PositionRecord}
    (hposition : position ∈ exchangeMap exchange) (hrecord : record ∈ internalMap internal) :
    record.1 ≠ position.1 := by
  rw [(exists_of_mem_exchangeMap hposition).2, (exists_of_mem_internalMap hrecord).2]
  exact watchKey_ne _ _ _ _

/-- Every position is orphaned. -/
theorem diffPositions_orphaned (exchange : List ExchangePosition)
    (internal : List PositionRecord) :
    (diffPositions exchange internal).orphaned = (exchangeMap exchange).map Prod.snd := by
  unfold diffPositions
  dsimp only
  congr 1
  apply List.filter_eq_self.mpr
  intro position hposition
  apply decide_eq_true
  intro hkey
  rcases List.mem_map.mp hkey with ⟨record, hrecord, heq⟩
  exact maps_disjoint hposition hrecord heq

/-- Every record is missing. -/
theorem diffPositions_missing (exchange : List ExchangePosition)
    (internal : List PositionRecord) :
    (diffPositions exchange internal).missing =
      (internalMap internal).map fun item => item.2.symbol := by
  unfold diffPositions
  dsimp only
  congr 1
  apply List.filter_eq_self.mpr
  intro record hrecord
  apply decide_eq_true
  intro hkey
  rcases List.mem_map.mp hkey with ⟨position, hposition, heq⟩
  exact maps_disjoint hposition hrecord heq.symm

/-- Nothing is updated. -/
theorem diffPositions_updated (exchange : List ExchangePosition)
    (internal : List PositionRecord) : (diffPositions exchange internal).updated = [] := by
  unfold diffPositions
  dsimp only
  apply List.filterMap_eq_nil_iff.mpr
  intro position hposition
  have hlookup : (internalMap internal).lookup position.1 = none := by
    apply List.lookup_eq_none_iff.mpr
    intro record hrecord
    simpa using (maps_disjoint hposition hrecord).symm
  rw [hlookup, Option.bind_none]

/-- An orphan for every exchange position. -/
theorem exists_orphan {p : ExchangePosition} (hp : p ∈ exchange) :
    ∃ q ∈ (diffPositions exchange internal).orphaned, q.symbol = p.symbol ∧ q.side = p.side := by
  have hitem : (watchKey p.symbol p.side.word, p) ∈
      exchange.map fun p => (watchKey p.symbol p.side.word, p) := List.mem_map_of_mem hp
  rcases Dict.exists_mem_index hitem with ⟨q, hq⟩
  refine ⟨q, ?_, ?_⟩
  · rw [diffPositions_orphaned]
    exact List.mem_map_of_mem hq
  · exact watchKey_orderWord_inj (exists_of_mem_exchangeMap hq).2.symm

/-- Every record's symbol is among the missing ones. -/
theorem symbol_mem_missing {r : PositionRecord} (hr : r ∈ internal) :
    r.symbol ∈ (diffPositions exchange internal).missing := by
  have hitem : (watchKey r.symbol r.side.word, r) ∈
      internal.map fun r => (watchKey r.symbol r.side.word, r) := List.mem_map_of_mem hr
  rcases Dict.exists_mem_index hitem with ⟨found, hfound⟩
  rw [diffPositions_missing]
  refine List.mem_map.mpr ⟨_, hfound, ?_⟩
  exact (watchKey_word_inj (exists_of_mem_internalMap hfound).2.symm).1

/-- Orphans are exchange positions. -/
theorem mem_of_orphaned {p : ExchangePosition}
    (hp : p ∈ (diffPositions exchange internal).orphaned) : p ∈ exchange := by
  rw [diffPositions_orphaned] at hp
  rcases List.mem_map.mp hp with ⟨item, hitem, rfl⟩
  exact (exists_of_mem_exchangeMap hitem).1

end Maps

/-! ## The partition -/

section Partition

variable {t : InstrumentTables} {exchange : List ExchangePosition}
  {internal : List PositionRecord}

/-- The partition is right exactly where nothing is shared. -/
theorem correctPartition_iff :
    CorrectPartition t exchange internal (diffPositions exchange internal) ↔
      NoneShared t exchange internal := by
  constructor
  · intro hcorrect r hr p hp
    exact (hcorrect.orphaned p hp).mp (exists_orphan hp) r hr
  · intro hnone
    constructor
    · intro p hp
      exact iff_of_true (exists_orphan hp) fun r hr => hnone r hr p hp
    · intro r hr
      exact iff_of_true (symbol_mem_missing hr) ⟨r, hr, rfl, hnone r hr⟩
    · intro symbol side
      rw [diffPositions_updated]
      constructor
      · intro hmem
        cases hmem
      · rintro ⟨p, hp, r, hr, -, -, hsame, -⟩
        exact absurd hsame (hnone r hr p hp)

end Partition

/-! ## The rows of a start -/

section Rows

variable {w : TradeWriter} {now : ℚ}

theorem length_recordAll (list : List ExchangePosition) (table : TradeTable) :
    (list.foldl (recordOrphaned w now) table).rows.length =
      table.rows.length + list.countP w.writes := by
  induction list generalizing table with
  | nil => simp
  | cons p rest ih =>
      rw [List.foldl_cons, ih, List.countP_cons, recordOrphaned]
      by_cases hwrites : w.writes p = true
      · simp [hwrites, TradeTable.insert]
        omega
      · simp [hwrites]

/-- Rows stay as they are exactly when no insert goes through. -/
theorem recordAll_rows_iff (list : List ExchangePosition) (table : TradeTable) :
    (list.foldl (recordOrphaned w now) table).rows = table.rows ↔
      ∀ p ∈ list, w.writes p = false := by
  constructor
  · intro hrows p hp
    have hlength := @length_recordAll w now list table
    rw [hrows] at hlength
    have hcount : list.countP w.writes = 0 := by omega
    simpa using List.countP_eq_zero.mp hcount p hp
  · intro hnone
    induction list generalizing table with
    | nil => rfl
    | cons p rest ih =>
        have hp : w.writes p = false := hnone p List.mem_cons_self
        rw [List.foldl_cons, recordOrphaned, hp]
        exact ih table fun q hq => hnone q (List.mem_cons_of_mem p hq)

/-- A start inserts nothing exactly when no position can be recorded. -/
theorem reconcile_rows_iff (exchange : List ExchangePosition) (internal : List PositionRecord)
    (table : TradeTable) :
    (reconcile w (some exchange) (some internal) now table).rows = table.rows ↔
      ∀ p ∈ exchange, w.writes p = false := by
  rw [reconcile, Option.getD_some, Option.getD_some, recordAll_rows_iff]
  constructor
  · intro hnone p hp
    rcases exists_orphan hp with ⟨q, hq, hsymbol, hside⟩
    have hsame : w.writes q = w.writes p := by
      rw [TradeWriter.writes, TradeWriter.writes, hsymbol, hside]
    rw [← hsame]
    exact hnone q hq
  · intro hnone p hp
    exact hnone p (mem_of_orphaned hp)

/-- The start is right exactly when no position is shared and none can be recorded. -/
theorem startupCorrect_iff (t : InstrumentTables) (list : List RawPosition)
    (store : PositionStore) (w : TradeWriter) (now later : ℚ) (table : TradeTable) :
    StartupCorrect t (fetchPositions list) store.listAll w now later table ↔
      NoneShared t (fetchPositions list) store.listAll ∧
        ∀ p ∈ fetchPositions list, w.writes p = false := by
  constructor
  · intro hcorrect
    exact ⟨correctPartition_iff.mp hcorrect.partition,
      (reconcile_rows_iff _ _ _).mp hcorrect.settled⟩
  · rintro ⟨hnone, hwrites⟩
    exact ⟨correctPartition_iff.mpr hnone, fun _ => (reconcile_rows_iff _ _ _).mpr hwrites,
      (reconcile_rows_iff _ _ _).mpr hwrites⟩

end Rows

/-- A long of one bitcoin on both sides is recorded as an orphan. -/
theorem startupCorrect_duplicate :
    ¬ ∀ (t : InstrumentTables) (list : List RawPosition) (store : PositionStore)
      (w : TradeWriter) (now later : ℚ) (table : TradeTable),
      StartupCorrect t (fetchPositions list) store.listAll w now later table := by
  intro h
  have hcorrect := h .empty
    [{ symbol := "BTCUSDT".toList, side := .Buy, size := some (.value 1),
       avgPrice := some (.value 100), unrealisedPnl := none, stopLoss := none,
       takeProfit := none, trailingStop := none, liqPrice := none }]
    (PositionStore.save ∅ "BTC/USDT".toList Side.LONG.word 100 1 none none none 0 0)
    ⟨true, fun _ _ => true⟩ 0 1 .empty
  have hnone := correctPartition_iff.mp hcorrect.partition
  revert hnone
  unfold NoneShared
  decide +kernel

end StateReconciler
end Karsa
