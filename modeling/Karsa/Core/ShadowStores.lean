import Karsa.Core.RecordUpdates
import Karsa.Core.TradeStore
import Karsa.Foundations.Dicts

/-!
# Shadow stores - Two stores beside the live ones

`ShadowPositionStore` and `ShadowTradeStore` extend the live stores.  The position store
replaces `_key`, and with it the key of every method it inherits; the trade store replaces
`record_entry` and `close_trade`.  The other methods of the trade store keep the SQL of their
parent, table names included.

Of the tables the model has the columns that some method reads, and rows fit their columns.
A stored text that `json.loads` does not read is `none`, a decimal zero is printed as `0`,
and keys are scanned in the order of their insertion.

Main results:

- Definition `act`: a method call, its effect on the stored data and its answer.
- Theorem `shadowKey_inj`: one key per symbol and side.
-/

namespace Karsa
namespace ShadowStores

open Trades RecordUpdates

/-! ## Keys -/

/-- The prefix of the position store's keys. -/
def shadowPrefix : Text :=
  "shadow:position:".toList

/-- The prefix of the live store's keys. -/
def livePrefix : Text :=
  "karsa:position:".toList

/-- `ShadowPositionStore._key` of a canonical side. -/
def shadowKey (symbol : Text) (side : Side) : Text :=
  shadowPrefix ++ (symbol ++ ':' :: side.word)

/-- `ShadowPositionStore._key`. -/
def key (symbol side : Text) : Text :=
  shadowKey symbol (normalizeSide side)

/-- Does `scan_iter(match="shadow:position:*")` find the key? -/
def isShadowKey (k : Text) : Bool :=
  shadowPrefix.isPrefixOf k

/-- Is it a key `karsa:position:*`? -/
def isLiveKey (k : Text) : Bool :=
  livePrefix.isPrefixOf k

/-- The key is one that the scan finds. -/
@[simp] theorem isShadowKey_shadowKey (symbol : Text) (side : Side) :
    isShadowKey (shadowKey symbol side) = true :=
  List.isPrefixOf_iff_prefix.mpr (List.prefix_append _ _)

/-- No key is both a shadow key and a live one. -/
theorem isLiveKey_eq_false {k : Text} (h : isShadowKey k = true) : isLiveKey k = false := by
  rcases List.isPrefixOf_iff_prefix.mp h with ⟨rest, rfl⟩
  rfl

/-- Symbol and side can be read off the key. -/
theorem shadowKey_inj {symbol symbol' : Text} {side side' : Side}
    (h : shadowKey symbol side = shadowKey symbol' side') :
    symbol = symbol' ∧ side = side' := by
  have hrest : symbol ++ ':' :: side.word = symbol' ++ ':' :: side'.word :=
    List.append_cancel_left h
  have hlast : ∀ (s : Text) (d : Side), (s ++ ':' :: d.word).getLast? = d.word.getLast? := by
    intro s d
    rw [List.getLast?_append]
    cases d <;> rfl
  -- the two words end in different letters
  have hwords : side.word.getLast? = side'.word.getLast? := by
    rw [← hlast symbol, ← hlast symbol', hrest]
  have hside : side = side' := by
    revert hwords
    cases side <;> cases side' <;> decide
  subst hside
  exact ⟨List.append_cancel_right hrest, rfl⟩

/-! ## Stored data -/

/-- A row of `ai_decisions`. -/
structure Decision where
  symbol : Text
  decisionType : Text
  model : Option Text
  inputHash : Option Text
  outputJson : Option Text
  latencyMs : Option ℤ
deriving Repr, DecidableEq

/-- A row of `signals`, the two dictionaries as dumped. -/
structure SignalRow where
  symbol : Text
  direction : Text
  confidenceScore : ℚ
  alphaMetrics : Text
  riskPassed : Bool
  strategyType : Text
  aiConfidenceScore : Option ℤ
  aiReasoning : Option Text
  macroContext : Option Text
deriving Repr, DecidableEq

/-- Redis and the tables; `aiConfidence` is the column of `trades` by id. -/
structure World where
  redis : Dict Text (Option Fields)
  trades : TradeTable
  aiConfidence : Nat → Option ℤ
  shadowTrades : TradeTable
  aiDecisions : List Decision
  signals : List SignalRow

/-- A world in which nothing is stored. -/
def emptyWorld : World where
  redis := []
  trades := TradeTable.empty
  aiConfidence := fun _ => none
  shadowTrades := TradeTable.empty
  aiDecisions := []
  signals := []

/-! ## Positions -/

/-- The arguments of `save` and the clocks it reads. -/
structure Entry where
  symbol : Text
  side : Text
  entryPrice : ℚ
  amount : ℚ
  slOrderId : Option Text
  atr : Option ℚ
  entryConfidence : Option ℚ
  regime : Option Text
  entryRegime : Option Text
  initialRiskPerUnit : Option ℚ
  riskProfileJson : Option Text
  virtualSl : Option ℚ
  virtualTp : Option ℚ
  entryTime : Text
  enteredAt : Text
  lastCheckAt : Text
deriving Repr, DecidableEq

/-- `str(x) if x is not None else ""`. -/
def orBlank (x : Option ℚ) : FieldValue :=
  match x with
  | some q => .decimal q
  | none => .text []

/-- `if value: data[field] = value`; a decimal text is never empty. -/
def putIf (pos : Fields) (field : String) (value : Option ℚ) : Fields :=
  match value with
  | some q => pos.put field (.decimal q)
  | none => pos

/-- `entry_regime or regime or ""`. -/
def Entry.firstRegime (e : Entry) : Text :=
  match e.entryRegime with
  | some (c :: rest) => c :: rest
  | _ => e.regime.getD []

/-- The dictionary `save` writes. -/
def Entry.record (e : Entry) : Fields :=
  let opened := ((((Fields.put ∅ "symbol" (.text e.symbol)).put
    "side" (.text (normalizeSide e.side).word)).put
    "entry_price" (.decimal e.entryPrice)).put
    "amount" (.decimal e.amount)).put
    "peak_price" (.decimal e.entryPrice)
  let measured := (((((opened.put
    "sl_order_id" (.text (e.slOrderId.getD []))).put
    "atr" (orBlank (e.atr.filter fun a => decide (0 < a)))).put
    "entry_confidence" (orBlank e.entryConfidence)).put
    "regime" (.text (e.regime.getD []))).put
    "checkpoint" (.text "OPEN".toList))
  let dated := (((((measured.put
    "entry_time" (.text e.entryTime)).put
    "entered_at" (.text e.enteredAt)).put
    "last_check_at" (.text e.lastCheckAt)).put
    "entry_regime" (.text e.firstRegime)).put
    "initial_risk_per_unit" (orBlank e.initialRiskPerUnit)).put
    "risk_profile_json" (.text (e.riskProfileJson.getD []))
  let flagged := ((dated.put
    "moved_to_breakeven" (.flag false)).put
    "tp_placed" (.flag false)).put
    "scaled_out" (.flag false)
  let tiered := (((flagged.put
    "tranche_state" (.text "INITIAL".toList)).put
    "moon_bag_amount" (.text [])).put
    "moon_bag_sl" (.text [])).put
    "highest_since_partial" (.text [])
  putIf (putIf tiered "virtual_sl" e.virtualSl) "virtual_tp" e.virtualTp

namespace World

/-- `redis.set(key, json.dumps(pos))`. -/
def setPosition (w : World) (k : Text) (pos : Fields) : World :=
  { w with redis := w.redis.set k (some pos) }

/-- `redis.delete(key)`. -/
def deletePosition (w : World) (k : Text) : World :=
  { w with redis := w.redis.pop k }

/-- `json.loads(redis.get(key))`; nothing where the key is absent or unreadable. -/
def loadPosition (w : World) (k : Text) : Option Fields :=
  (w.redis.get k).join

/-- `save`. -/
def save (w : World) (e : Entry) : World :=
  w.setPosition (key e.symbol e.side) e.record

/-- `get`. -/
def getPosition (w : World) (symbol side : Text) : Option Fields :=
  w.loadPosition (key symbol side)

/-- An update method: read the position, change it, write it back. -/
def patch (w : World) (symbol side : Text) (change : Fields → Option Fields) : World :=
  match (w.getPosition symbol side).bind (guarded change) with
  | none => w
  | some pos => w.setPosition (key symbol side) pos

/-- Does `update_peak` raise on the stored peak? -/
def peakUnreadable (w : World) (symbol side : Text) : Bool :=
  match w.getPosition symbol side with
  | none => false
  | some pos => decide (pos ≠ ∅) && match pos.read "peak_price" with
      | none => false
      | some peak => peak.decimal?.isNone

/-- `has_position`; an empty side word counts as none. -/
def hasPosition (w : World) (symbol : Text) (side : Option Text) : Bool :=
  match side.filter (· ≠ []) with
  | some word => (w.getPosition symbol (normalizeSide word).word).isSome
  | none =>
      (w.getPosition symbol Side.LONG.word).isSome ||
        (w.getPosition symbol Side.SHORT.word).isSome

/-- The keys a scan finds. -/
def scan (w : World) : List Text :=
  w.redis.keys.filter isShadowKey

/-- `list_all`. -/
def listAll (w : World) : List Fields :=
  w.scan.filterMap w.loadPosition

/-- Does `get_missing_fields` count the value as missing? -/
def missing : Option FieldValue → Bool
  | none | some .null => true
  | some (.text t) => t.strip = [] || t.strip = "0".toList || t.strip = "None".toList
  | some (.decimal q) => decide (q = 0)
  | some (.flag _) => false

/-- `get_missing_fields`. -/
def getMissingFields (w : World) (symbol side : Text) (required : List Text) : List Text :=
  match (w.getPosition symbol side).filter (· ≠ ∅) with
  | none => required
  | some pos => required.filter fun field => missing (pos.lookup field)

end World

/-! ## Trades -/

/-- The arguments of `record_entry` that some method reads, and its clock. -/
structure TradeEntry where
  symbol : Text
  side : Text
  amount : ℚ
  entryPrice : ℚ
  regime : Option Text
  now : ℚ
deriving Repr, DecidableEq

/-- The row of an entry. -/
def TradeEntry.row (e : TradeEntry) : Trade where
  id := 0
  symbol := e.symbol
  side := e.side
  amount := e.amount
  entryPrice := e.entryPrice
  exitPrice := none
  pnl := none
  regime := e.regime
  entryTime := e.now
  exitTime := none
  exitReason := none

/-- The arguments of `record_full_trade`. -/
structure FullTrade where
  symbol : Text
  side : Text
  amount : ℚ
  entryPrice : ℚ
  exitPrice : ℚ
  pnl : ℚ
  regime : Text
  entryTime : ℚ
  exitTime : ℚ
  exitReason : Text
deriving Repr, DecidableEq

/-- The row of a complete trade. -/
def FullTrade.row (f : FullTrade) : Trade where
  id := 0
  symbol := f.symbol
  side := f.side
  amount := f.amount
  entryPrice := f.entryPrice
  exitPrice := some f.exitPrice
  pnl := some f.pnl
  regime := some f.regime
  entryTime := f.entryTime
  exitTime := some f.exitTime
  exitReason := some f.exitReason

/-- The columns `get_recent_trades` returns. -/
structure RecentTrade where
  symbol : Text
  side : Text
  amount : ℚ
  entryPrice : ℚ
  exitPrice : Option ℚ
  pnl : Option ℚ
  regime : Option Text
  entryTime : ℚ
  exitTime : Option ℚ
  exitReason : Option Text
deriving Repr, DecidableEq

/-- The columns of a page of the history. -/
structure HistoryTrade extends RecentTrade where
  aiConfidence : Option ℤ
deriving Repr, DecidableEq

/-- The columns of an open trade. -/
structure OpenTrade where
  id : Nat
  symbol : Text
  side : Text
  amount : ℚ
  entryPrice : ℚ
  regime : Option Text
  entryTime : ℚ
deriving Repr, DecidableEq

/-- `SELECT symbol, side, ..., exit_reason`. -/
def recentRow (t : Trade) : RecentTrade :=
  ⟨t.symbol, t.side, t.amount, t.entryPrice, t.exitPrice, t.pnl, t.regime, t.entryTime,
    t.exitTime, t.exitReason⟩

/-- `SELECT id, symbol, side, ..., entry_time`. -/
def openRow (t : Trade) : OpenTrade :=
  ⟨t.id, t.symbol, t.side, t.amount, t.entryPrice, t.regime, t.entryTime⟩

/-- The closed rows, the latest exit first. -/
def closedTrades (table : TradeTable) : List Trade :=
  (table.rows.filter fun t => !t.isOpen).insertionSort
    fun a b => b.exitTime.getD 0 ≤ a.exitTime.getD 0

/-- A number that `LIMIT` and `OFFSET` accept. -/
def isRowCount (n : ℤ) : Bool :=
  decide (0 ≤ n) && decide (n ≤ 9223372036854775807)

/-- `LIMIT :limit OFFSET :offset`; `none` where the statement raises. -/
def window {α : Type} (limit offset : ℤ) (rows : List α) : Option (List α) :=
  if isRowCount limit && isRowCount offset then
    some ((rows.drop offset.toNat).take limit.toNat)
  else none

/-- The columns an orphan gets. -/
def closedAsOrphan (now : ℚ) (t : Trade) : Trade :=
  { t with
    exitPrice := some t.entryPrice
    pnl := some 0
    exitReason := some "orphan_cleanup".toList
    exitTime := some now }

/-- `UPDATE shadow_trades SET ... exit_reason='orphan_cleanup' WHERE id=:id`. -/
def closeOrphan (table : TradeTable) (id : Nat) (now : ℚ) : TradeTable where
  rows := table.rows.map fun t => if t.id = id then closedAsOrphan now t else t
  lastId := table.lastId
  distinct := by
    have hids :
        (table.rows.map fun t => if t.id = id then closedAsOrphan now t else t).map Trade.id =
          table.rows.map Trade.id := by
      rw [List.map_map]
      apply List.map_congr_left
      intro t _
      dsimp only [Function.comp]
      split_ifs <;> rfl
    rw [hids]
    exact table.distinct
  bounded := by
    intro t' ht'
    rcases List.mem_map.mp ht' with ⟨t, ht, rfl⟩
    split_ifs <;> exact table.bounded t ht

/-- The symbol and the side that `close_orphans` reads off a position. -/
def activePair (pos : Fields) : FieldValue × FieldValue :=
  ((pos.lookup "symbol".toList).getD (.text []), (pos.lookup "side".toList).getD (.text []))

/-- `(symbol, side) in active`. -/
def isActive (active : List (FieldValue × FieldValue)) (t : Trade) : Bool :=
  active.contains (.text t.symbol, .text t.side)

/-- The open rows without an active position. -/
def orphans (table : TradeTable) (active : List (FieldValue × FieldValue)) : List Trade :=
  (table.rows.filter Trade.isOpen).filter fun t => !isActive active t

namespace World

/-- `ShadowTradeStore.record_entry`. -/
def recordEntry (w : World) (e : TradeEntry) : World :=
  { w with shadowTrades := w.shadowTrades.insert e.row }

/-- The row `close_trade` updates: the given one, or the latest open one of the symbol. -/
def closeTarget (w : World) (symbol : Text) (tradeId : Option Nat) : Option Nat :=
  match tradeId with
  | some id => if w.shadowTrades.hasOpen id then some id else none
  | none => (w.shadowTrades.openTradeBySymbol symbol).map Trade.id

/-- `ShadowTradeStore.close_trade`; an empty regime is not written. -/
def closeTrade (w : World) (symbol : Text) (tradeId : Option Nat) (e : Exit) : World :=
  match w.closeTarget symbol tradeId with
  | none => w
  | some id =>
      let written := { e with regime := e.regime.filter (· ≠ []) }
      { w with shadowTrades := w.shadowTrades.closeTrade id written }

/-- `TradeStore.record_full_trade`, inherited. -/
def recordFullTrade (w : World) (f : FullTrade) : World :=
  { w with
    trades := w.trades.insert f.row
    aiConfidence := Function.update w.aiConfidence (w.trades.lastId + 1) none }

/-- The open trades that `close_orphans` finds without a position. -/
def orphaned (w : World) : List Trade :=
  orphans w.shadowTrades (w.listAll.map activePair)

/-- `close_orphans`: one update per orphan. -/
def closeOrphans (w : World) (now : ℚ) : World :=
  { w with
    shadowTrades := w.orphaned.foldl (fun table t => closeOrphan table t.id now) w.shadowTrades }

end World

/-! ## Method calls -/

/-- What a method returns or raises. -/
inductive Answer where
  | done
  | position (pos : Option Fields)
  | flag (b : Bool)
  | number (n : Nat)
  | positions (found : List Fields)
  | names (fields : List Text)
  | history (page : List HistoryTrade) (total wins losses : Nat) (netPnl : ℚ)
  | since (rows : List Trade)
  | recent (rows : List RecentTrade)
  | openTrades (rows : List OpenTrade)
  | openTrade (row : Option OpenTrade)
  | raised

/-- The methods of both stores, inherited ones included. -/
inductive Call where
  | save (e : Entry)
  | get (symbol side : Text)
  | updatePeak (symbol side : Text) (price : ℚ) (now : Text)
  | updateSl (symbol side slOrderId : Text) (newSlPrice : Option ℚ) (now : Text)
  | updateCheckpoint (symbol side checkpoint now : Text)
  | remove (symbol side : Text)
  | hasPosition (symbol : Text) (side : Option Text)
  | listAll
  | cleanupStale (exchangeSymbols : List Text)
  | updateFields (symbol side : Text) (updates : Fields) (now : Text)
  | getMissingFields (symbol side : Text) (required : List Text)
  | closeOrphans (now : ℚ)
  | recordEntry (e : TradeEntry)
  | closeTrade (symbol : Text) (tradeId : Option Nat) (e : Exit)
  | recordFullTrade (f : FullTrade)
  | getHistory (page perPage : ℤ)
  | getTradesSince (since : ℚ)
  | getRecentTrades (limit : ℤ)
  | getAllOpenTrades
  | getOpenTradeBySymbol (symbol : Text)
  | recordDecision (d : Decision)
  | recordSignal (s : SignalRow)

/-- `get_history`: a page of the closed trades and the figures over all of them. -/
def getHistory (w : World) (page perPage : ℤ) : Answer :=
  let closed := closedTrades w.trades
  let pnls := closed.filterMap Trade.pnl
  match window perPage ((page - 1) * perPage) closed with
  | none => .raised
  | some rows => .history (rows.map fun t => ⟨recentRow t, w.aiConfidence t.id⟩) closed.length
      (pnls.countP fun pnl => decide (0 < pnl)) (pnls.countP fun pnl => decide (pnl ≤ 0)) pnls.sum

/-- `get_recent_trades`; an exception is answered with no trades. -/
def getRecentTrades (w : World) (limit : ℤ) : List RecentTrade :=
  ((window limit 0 (closedTrades w.trades)).getD []).map recentRow

/-- A call: the stored data behind it and its answer. -/
def act (w : World) : Call → World × Answer
  | .save e => (w.save e, .done)
  | .get symbol side => (w, .position (w.getPosition symbol side))
  | .updatePeak symbol side price now =>
      if w.peakUnreadable symbol side then (w, .raised)
      else (w.patch symbol side (updatePeak (normalizeSide side) price now), .done)
  | .updateSl symbol side slOrderId newSlPrice now =>
      (w.patch symbol side (updateSl slOrderId newSlPrice now), .done)
  | .updateCheckpoint symbol side checkpoint now =>
      (w.patch symbol side (updateCheckpoint checkpoint now), .done)
  | .remove symbol side => (w.deletePosition (key symbol side), .done)
  | .hasPosition symbol side => (w, .flag (w.hasPosition symbol side))
  | .listAll => (w, .positions w.listAll)
  | .cleanupStale _ => (w, .number 0)
  | .updateFields symbol side updates now =>
      (w.patch symbol side (updateFields updates now), .done)
  | .getMissingFields symbol side required =>
      (w, .names (w.getMissingFields symbol side required))
  | .closeOrphans now => (w.closeOrphans now, .number w.orphaned.length)
  | .recordEntry e => (w.recordEntry e, .number (w.shadowTrades.lastId + 1))
  | .closeTrade symbol tradeId e =>
      (w.closeTrade symbol tradeId e, .number (w.closeTarget symbol tradeId).toList.length)
  | .recordFullTrade f => (w.recordFullTrade f, .number (w.trades.lastId + 1))
  | .getHistory page perPage => (w, getHistory w page perPage)
  | .getTradesSince since => (w, .since (w.trades.tradesSince since))
  | .getRecentTrades limit => (w, .recent (getRecentTrades w limit))
  | .getAllOpenTrades => (w, .openTrades (w.trades.openTrades.map openRow))
  | .getOpenTradeBySymbol symbol =>
      (w, .openTrade ((w.trades.openTradeBySymbol symbol).map openRow))
  | .recordDecision d => ({ w with aiDecisions := w.aiDecisions ++ [d] }, .done)
  | .recordSignal s => ({ w with signals := w.signals ++ [s] }, .done)

end ShadowStores
end Karsa
