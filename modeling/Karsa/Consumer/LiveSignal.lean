import Karsa.Core.PositionStore
import Karsa.Execution.Router.Entry
import Karsa.Foundations.ControlFlow

/-!
# Live loop - Handling one trade signal

`_on_signal_live` takes a signal through a row of gates, sends the entry to the
order router, and records the position under its fill price.  Each gate lets the
signal pass, drops it, or lets an exception escape.

The handler imports `Decimal` inside the branch that reads a configuration.
Python therefore treats the name as a local variable of the whole handler, and
whether it is bound is part of the state.  Logging, metrics and the comparison
with shadow positions are left out.

Main results:

- Definition `onSignalLive`: the handler as a list of blocks.
-/

namespace Karsa
namespace Live

open Bybit Router

/-! ## Signals -/

/-- `MarketRegime`. -/
inductive MarketRegime where
  | TREND_BULL
  | TREND_BEAR
  | HYPER_BULL
  | HYPER_BEAR
  | RANGE
  | CHOP
  | SNIPER
deriving Repr, DecidableEq

/-- The value of the enumeration member. -/
def MarketRegime.value : MarketRegime → Text
  | .TREND_BULL => "TREND_BULL".toList
  | .TREND_BEAR => "TREND_BEAR".toList
  | .HYPER_BULL => "HYPER_BULL".toList
  | .HYPER_BEAR => "HYPER_BEAR".toList
  | .RANGE => "RANGE".toList
  | .CHOP => "CHOP".toList
  | .SNIPER => "SNIPER".toList

/-- `word.startswith("HYPER")`. -/
def isHyper (word : Text) : Bool :=
  "HYPER".toList.isPrefixOf word

/-- Fields of a `TradeSignal` that the handler reads; `slAtrBuffer` belongs to its
risk profile. -/
structure TradeSignal where
  direction : Text
  regime : MarketRegime
  score : ℚ
  entryPrice : ℚ
  slPrice : ℚ
  amount : ℚ
  atr : ℚ
  slAtrBuffer : ℚ

/-! ## Answers -/

/-- The decoded `karsa:auto:config`; `none` where a `.get` raises because the value
is no dictionary. -/
structure AutoConfig where
  regimeOverrides : Option (MarketRegime → Option Text)
  regimeSizing : Option (MarketRegime → Option (Numeral ℚ))

/-- Answer to the read of `karsa:auto:config`. -/
inductive ConfigRead where
  | failed
  | absent
  | malformed
  | decoded (config : AutoConfig)

/-- Does Redis hold a non-empty text under the key? -/
def ConfigRead.present : ConfigRead → Bool
  | .failed | .absent => false
  | .malformed | .decoded _ => true

/-- A numeric setting: unreadable, missing or empty, or a number. -/
inductive SettingRead where
  | failed
  | absent
  | value (n : ℤ)

/-- `int(raw or default)`; `none` when it raises. -/
def SettingRead.orDefault (default : ℤ) : SettingRead → Option ℤ
  | .failed => none
  | .absent => some default
  | .value n => some n

/-- The analyst's verdict on a signal. -/
structure AnalystResult where
  direction : Text
  aiConfidence : ℤ

/-- An order returned by `execute`, with the quantity the exchange executed. -/
structure Execution where
  reply : OrderReply
  executedQty : ℚ
deriving Repr, DecidableEq

/-- The quantity filled: what the router reports, else what was executed. -/
def Execution.filledQty (e : Execution) : ℚ :=
  (e.reply.amount.bind Numeral.decimal).getD e.executedQty

/-- A Redis write takes effect or not; only one that does is answered. -/
structure StoreWrite where
  applied : Bool
  answered : Bool
  sound : answered = true → applied = true

/-- Services of the handler and their answers.  `none` stands for a missing
executor, analyst, risk manager, or client method `fetch_my_trades`. -/
structure SignalAnswers where
  asmState : Except Text (Option Text)
  blocklist : Except Text (Option Text)
  config : ConfigRead
  executor : Option InstrumentTables
  positionsReadable : Bool
  maxPositions : SettingRead
  maxHyperSlots : SettingRead
  consecutiveLosses : Except Text Bool
  mlProbability : Except Text ℚ
  analyst : Option (Except Text (Option AnalystResult))
  riskManager : Option (ℚ → Except Text Bool)
  openOrders : Except Text (List OpenOrder)
  execution : Except Text (Option Execution)
  lastTrade : Option (Except Text (Option (Numeral ℚ)))
  write : StoreWrite
  now : ℚ
  tradeRecorded : Bool

/-! ## State of one call -/

/-- Calls that reach the exchange through the executor. -/
inductive ExchangeCall where
  | openOrders (symbol : Text)
  | enter (request : EntryRequest) (maxLossUsd : ℚ) (answer : Except Text (Option Execution))
  | close (symbol : Text) (side : OrderSide)
deriving DecidableEq

/-- Is the local name `Decimal` bound, the signal's score, the stored positions and
the calls made so far. -/
structure SignalState where
  decimalBound : Bool
  score : ℚ
  store : PositionStore
  calls : List ExchangeCall

/-- State on entry. -/
def SignalState.start (signal : TradeSignal) (store : PositionStore) : SignalState where
  decimalBound := false
  score := signal.score
  store := store
  calls := []

/-- Append one call. -/
def SignalState.call (s : SignalState) (c : ExchangeCall) : SignalState :=
  { s with calls := s.calls ++ [c] }

/-! ## Gates -/

/-- Fail-closed: the state key must read `"1"`. -/
def asmGate (a : SignalAnswers) (s : SignalState) : Flow SignalState :=
  match a.asmState with
  | .error _ => .ret s
  | .ok raw => if Text.strip (raw.getD []) = "1".toList then .next s else .ret s

/-- Fail-open: a readable, non-empty entry drops the signal. -/
def blocklistGate (a : SignalAnswers) (s : SignalState) : Flow SignalState :=
  match a.blocklist with
  | .error _ => .next s
  | .ok reason => if reason.getD [] = [] then .next s else .ret s

/-- The instrument's minimum as the handler looks it up. -/
def minOrderQty (symbol : Text) (a : SignalAnswers) : ℚ :=
  (a.executor.bind fun tables => tables.minQty symbol).getD 0

/-- Does the configuration drop the signal?  Everything that raises on the way is
swallowed and lets it pass. -/
def AutoConfig.drops (config : AutoConfig) (signal : TradeSignal) (least : ℚ) : Bool :=
  match config.regimeOverrides with
  | none => false
  | some overrides =>
      if overrides signal.regime = some "DISABLE".toList ∧ signal.regime ≠ .SNIPER then true
      else
        match config.regimeSizing.bind fun sizing =>
            ((sizing signal.regime).getD (.value 1)).decimal with
        | none => false
        | some multiplier => decide (multiplier = 0 ∨ signal.amount * multiplier < least)

/-- Regime overrides and sizing.  The imports run as soon as a text is present.  The
final assignment to the frozen signal raises and is swallowed, so that the size is
never adjusted. -/
def sizingGate (symbol : Text) (signal : TradeSignal) (a : SignalAnswers)
    (s : SignalState) : Flow SignalState :=
  match a.config with
  | .failed | .absent => .next s
  | .malformed => .next { s with decimalBound := true }
  | .decoded config =>
      let s := { s with decimalBound := true }
      if config.drops signal (minOrderQty symbol a) then .ret s else .next s

/-- No second position of the symbol, whichever its side. -/
def duplicateGate (symbol : Text) (a : SignalAnswers) (s : SignalState) :
    Flow SignalState :=
  if a.positionsReadable then
    if s.store.hasPosition symbol then .ret s else .next s
  else .raise s

/-- Limits on open positions; one unreadable setting resets both. -/
def slotLimits (a : SignalAnswers) : ℤ × ℤ :=
  match a.maxPositions.orDefault 5, a.maxHyperSlots.orDefault 2 with
  | some maxPos, some maxHyper => (maxPos, maxHyper)
  | _, _ => (5, 2)

/-- Slots: hyper regimes compete among themselves, the others with every position. -/
def slotGate (signal : TradeSignal) (a : SignalAnswers) (s : SignalState) :
    Flow SignalState :=
  let positions := s.store.listAll
  let hyperOpen := positions.countP fun p => isHyper (p.regime.getD [])
  let limits := slotLimits a
  if isHyper signal.regime.value then
    if limits.2 ≤ hyperOpen then .ret s else .next s
  else if limits.1 ≤ positions.length then .ret s
  else .next s

/-- Consecutive losses in the signal's regime. -/
def lossGate (a : SignalAnswers) (s : SignalState) : Flow SignalState :=
  match a.consecutiveLosses with
  | .error _ => .raise s
  | .ok blocked => if blocked then .ret s else .next s

/-- Prefilter: at least 55 percent. -/
def mlGate (a : SignalAnswers) (s : SignalState) : Flow SignalState :=
  match a.mlProbability with
  | .error _ => .raise s
  | .ok probability => if probability < 55 / 100 then .ret s else .next s

/-- The score after the analyst's verdict. -/
def adjustedScore (signal : TradeSignal) (verdict : AnalystResult) (score : ℚ) : ℚ :=
  if verdict.direction ≠ signal.direction ∨ verdict.direction = "FLAT".toList then
    if verdict.direction = signal.direction then score + 10
    else if verdict.direction = "FLAT".toList then
      score - (max 2 (verdict.aiConfidence.tdiv 10) : ℤ)
    else score - (verdict.aiConfidence.tdiv 4 : ℤ)
  else score

/-- Analyst: an absent verdict drops the signal, a contrary one lowers its score. -/
def analystGate (signal : TradeSignal) (a : SignalAnswers) (s : SignalState) :
    Flow SignalState :=
  match a.analyst with
  | none => .next s
  | some (.error _) => .raise s
  | some (.ok none) => .ret s
  | some (.ok (some verdict)) =>
      .next { s with score := adjustedScore signal verdict s.score }

/-- Portfolio risk: mandatory. -/
def riskGate (a : SignalAnswers) (s : SignalState) : Flow SignalState :=
  match a.riskManager with
  | none => .ret s
  | some check =>
      match check s.score with
      | .error _ => .raise s
      | .ok approved => if approved then .next s else .ret s

/-- Is the open order a stop order? -/
def isStopOrder (o : OpenOrder) : Bool :=
  o.type = "stop".toList || o.type = "stoporder".toList || o.stopOrderType ≠ []

/-- Room for one more stop order; a failed read does not block the entry. -/
def stopRoomGate (symbol : Text) (a : SignalAnswers) (s : SignalState) : Flow SignalState :=
  if a.executor.isSome then
    let s := s.call (.openOrders symbol)
    match a.openOrders with
    | .error _ => .next s
    | .ok orders => if 9 ≤ orders.countP isStopOrder then .ret s else .next s
  else .next s

/-! ## Entry and record -/

/-- Arguments of `executor.execute`. -/
def entryRequest (symbol : Text) (signal : TradeSignal) : EntryRequest where
  symbol := symbol
  side := entrySide signal.direction
  amount := signal.amount
  price := signal.entryPrice

/-- The loss cap that goes with them. -/
def maxLossUsd (signal : TradeSignal) : ℚ :=
  |signal.entryPrice - signal.slPrice| * signal.amount

/-- `Decimal(str(result.get("average", result.get("avgPrice", result.get("price",
0)))))`; `none` when the text raises. -/
def reportedPrice (order : OrderReply) : Option ℚ :=
  (((order.average.or order.avgPrice).or order.price).getD (.value 0)).decimal

/-- The price of the last trade, where the client has the method and it answers. -/
def lastTradePrice (a : SignalAnswers) : Option ℚ :=
  match a.lastTrade with
  | some (.ok trade) => trade.bind Numeral.decimal
  | some (.error _) | none => none

/-- A reported price that is not positive is replaced by that of the last trade. -/
def settledPrice (a : SignalAnswers) (reported : ℚ) : ℚ :=
  if reported ≤ 0 then (lastTradePrice a).getD reported else reported

/-- `initial_risk_per_unit` with its two fallbacks. -/
def initialRiskPerUnit (signal : TradeSignal) (fillPrice : ℚ) : ℚ :=
  let risk := |fillPrice - signal.slPrice|
  if risk ≤ 0 ∨ risk < signal.atr * (1 / 10) then
    let fallback := signal.atr * signal.slAtrBuffer
    if fallback ≤ 0 then fillPrice * (1 / 100) else fallback
  else risk

/-- Write the position record. -/
def saveRecord (symbol : Text) (signal : TradeSignal) (a : SignalAnswers) (fillPrice : ℚ)
    (s : SignalState) : Flow SignalState :=
  let saved := s.store.save symbol signal.direction fillPrice signal.amount (some signal.atr)
    (some signal.regime.value) (some signal.regime.value)
    (initialRiskPerUnit signal fillPrice) a.now
  let s := { s with store := if a.write.applied then saved else s.store }
  if a.write.answered then .next s else .raise s

/-- Write the trade to the database, when there is one. -/
def recordTrade (a : SignalAnswers) (s : SignalState) : Flow SignalState :=
  if a.tradeRecorded then .next s else .raise s

/-- Find the fill price of a returned order and record the position; an order whose
price stays unknown is left alone. -/
def trackFill (symbol : Text) (signal : TradeSignal) (a : SignalAnswers)
    (order : Execution) (s : SignalState) : Flow SignalState :=
  if s.decimalBound then
    match reportedPrice order.reply with
    | none => .raise s
    | some reported =>
        if settledPrice a reported ≤ 0 then .ret s
        else
          (saveRecord symbol signal a (settledPrice a reported) s).andThen (recordTrade a)
  else .raise s

/-- Send the entry and track what it returns. -/
def enter (symbol : Text) (signal : TradeSignal) (a : SignalAnswers) (s : SignalState) :
    Flow SignalState :=
  if a.executor.isSome then
    let s := s.call (.enter (entryRequest symbol signal) (maxLossUsd signal) a.execution)
    match a.execution with
    | .error _ => .raise s
    | .ok none => .ret s
    | .ok (some order) => trackFill symbol signal a order s
  else .raise s

/-- The gates that follow the check for a second position. -/
def laterGates (symbol : Text) (signal : TradeSignal) (a : SignalAnswers) :
    List (SignalState → Flow SignalState) :=
  [slotGate signal a, lossGate a, mlGate a, analystGate signal a, riskGate a,
    stopRoomGate symbol a]

/-- Everything that stands before the entry. -/
def gates (symbol : Text) (signal : TradeSignal) (a : SignalAnswers) :
    SignalState → Flow SignalState :=
  Flow.blocks
    [asmGate a, blocklistGate a, sizingGate symbol signal a, duplicateGate symbol a,
      Flow.blocks (laterGates symbol signal a)]

/-- `_on_signal_live`. -/
def onSignalLive (symbol : Text) (signal : TradeSignal) (a : SignalAnswers)
    (store : PositionStore) : Flow SignalState :=
  (gates symbol signal a (.start signal store)).andThen (enter symbol signal a)

end Live
end Karsa
