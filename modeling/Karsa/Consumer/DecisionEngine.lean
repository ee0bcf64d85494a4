import Karsa.Alpha.SectorFilter
import Karsa.Consumer.SignalBuilder
import Karsa.Foundations.ControlFlow
import Karsa.Foundations.Selection

/-!
# Decision engine - Evaluating a symbol

`DecisionEngine.evaluate` passes the candles of a symbol through a row of gates and then tries
the directions of its regime one after the other.  Each direction is rejected by a filter,
scored below its gate, or built into a signal; the signal with the highest expected value is
returned.

Services answer: what they answer is part of the call.  Between the directions other tasks may
update the returns of the sectors.  The signals built are kept beside the local variables.

Main results:

- Definition `directionScore`, `effectiveGate`: the score of a direction and what it must reach.
- Definition `evaluateDirection`, `evaluate`: one direction, and a whole call.
-/

namespace Karsa
namespace Decision

open Live (MarketRegime)
open MarketFeed (Candle)
open Risk

/-! ## Calls -/

/-- The HMM record in Redis: its signal, confidence and state probabilities. -/
structure HmmRead where
  signal : Text
  confidence : ℚ
  highVol : ℚ
  lowVol : ℚ
deriving Repr, DecidableEq

/-- What the multi-timeframe filter answers: a contradicting trend, a block by the momentum of
the anchors, and their penalty. -/
structure MultiTf where
  blocked : Bool
  momentumBlocked : Bool
  anchorPenalty : ℚ
deriving Repr, DecidableEq

/-- What the evaluation of a direction meets; `none` is a service that is missing, silent or
fails.  `confidence` and `volFactor` are those of the router, behind the calibration. -/
structure DirectionAnswers where
  multiTf : Option MultiTf
  confidence : ℚ
  volFactor : ℚ
  symbolMult : Option ℚ
  elo : Option ℚ
  correlation : Option (ℚ × ℤ)
  carryBonus : Option ℚ
  termSignal : Option Text
  liquidationBonus : Option ℚ
  crossAssetBonus : Option ℚ
  unlockPenalty : Option ℚ
  hmm : Option HmmRead
  hour : ℕ
  dynamicThreshold : Option ℚ
  sizing : SizingAnswers
  sectorUpdates : List (Dict Text ℚ)

/-- Candles with positive prices. -/
structure PriceSeries where
  candles : List Candle
  positive : ∀ c ∈ candles, 0 < c.opening ∧ 0 < c.high ∧ 0 < c.low ∧ 0 < c.close

/-- A call of `evaluate`: its arguments, the answers of the gates, the regime the analyzer
reports and the one kept for the symbol, its recent trades, and the answers by direction. -/
structure Call where
  symbol : Text
  series : PriceSeries
  fundingRate : Option ℚ
  ranking : Text
  volFloor : Option (ℚ × ℚ)
  blockHour : ℕ
  book : Option (ℚ × ℚ)
  analyzerRegime : MarketRegime
  previousRegime : Option MarketRegime
  transitions : ℕ
  recentTrades : Option (List MemoryTrade)
  answers : Side → DirectionAnswers

/-- The candles of a call. -/
def Call.candles (x : Call) : List Candle :=
  x.series.candles

/-- The candle `back` places from the end, from one on. -/
def candleBack (candles : List Candle) (back : ℕ) : Option Candle :=
  if back ≤ candles.length then candles[candles.length - back]? else none

/-- The relative move of the close over the last `back` candles, if there are as many. -/
def moveOver (candles : List Candle) (back : ℕ) : Option ℚ :=
  match candleBack candles 1, candleBack candles back with
  | some now, some past =>
      if 0 < past.close then some ((now.close - past.close) / past.close) else none
  | _, _ => none

/-! ## Gates before the directions -/

/-- Bitcoin and Ether. -/
def isAnchor (symbol : Text) : Bool :=
  symbol = "BTC/USDT".toList || symbol = "ETH/USDT".toList

/-- `vol_floor_penalty`. -/
def volFloorPenalty : Option (ℚ × ℚ) → ℚ
  | some (threshold, current) =>
      if 0 < threshold ∧ 0 < current ∧ current < threshold then 1 / 2 else 1
  | none => 1

/-- The session in which altcoins are not entered. -/
def sessionBlocked (block : Option SessionBlock) (symbol : Text) (hour : ℕ) : Bool :=
  match block with
  | some b =>
      decide (b.startHour ≤ hour ∧ hour < b.endHour) && (!b.allowBtcEth || !isAnchor symbol)
  | none => false

/-- Spread of more than half a percent. -/
def spreadBalloon : Option (ℚ × ℚ) → Bool
  | some (bid, ask) => decide (0 < bid ∧ 0 < ask ∧ 5 / 1000 < (ask - bid) / bid)
  | none => false

/-- The regime with hysteresis: a new one must be read twice. -/
def settledRegime (x : Call) : MarketRegime :=
  match x.previousRegime with
  | some previous =>
      if x.analyzerRegime ≠ previous ∧ x.transitions + 1 < 2 then previous else x.analyzerRegime
  | none => x.analyzerRegime

/-- `_determine_directions`. -/
def determineDirections : MarketRegime → List Side
  | .TREND_BULL | .HYPER_BULL => [.LONG]
  | .TREND_BEAR | .HYPER_BEAR => [.SHORT]
  | _ => [.LONG, .SHORT]

/-! ## Filters of a direction -/

/-- Extreme funding against the direction. -/
def fundingBlocked (fundingRate : Option ℚ) : Side → Bool
  | .LONG => fundingRate.any fun r => decide (5 / 10000 < r)
  | .SHORT => fundingRate.any fun r => decide (r < -(5 / 10000))

/-- `momentum_exemption`, looked at where there is a multi-timeframe filter. -/
def momentumExempt (x : Call) (direction : Side) : Bool :=
  (x.answers direction).multiTf.isSome && (moveOver x.candles 24).any fun move : ℚ =>
    match direction with
    | .LONG => decide (8 / 100 < move)
    | .SHORT => decide (move < -(8 / 100))

/-- Are the anchors looked at? -/
def anchored (x : Call) (direction : Side) : Bool :=
  !isAnchor x.symbol && !momentumExempt x direction

/-- The multi-timeframe filter blocks the direction. -/
def multiTfBlocked (x : Call) (direction : Side) : Bool :=
  (x.answers direction).multiTf.any fun tf =>
    tf.blocked || (anchored x direction && tf.momentumBlocked)

/-- `macro_penalty`. -/
def anchorPenalty (x : Call) (direction : Side) : ℚ :=
  match (x.answers direction).multiTf with
  | some tf => if anchored x direction then tf.anchorPenalty else 1
  | none => 1

/-- `elo_factor`. -/
def eloFactor (elo : Option ℚ) : ℚ :=
  max (85 / 100) (min (115 / 100) (1 + (elo.getD 1500 - 1500) / 2000))

/-- `corr_penalty`. -/
def correlationPenalty : Option (ℚ × ℤ) → ℚ
  | some (maxCorr, count) =>
      if 2 ≤ count ∧ 80 / 100 < maxCorr then 1 / 2
      else if count = 1 ∧ 80 / 100 < maxCorr then 3 / 4
      else 1
  | none => 1

/-- A bonus or penalty that counts where it is positive. -/
def ifPositive (bonus : Option ℚ) : ℚ :=
  max 0 (bonus.getD 0)

/-- Twenty-five points for a squeeze in the direction. -/
def termBonus (signal : Option Text) : Side → ℚ
  | .LONG => if signal = some "SQUEEZE_IMMINENT_LONG".toList then 25 else 0
  | .SHORT => if signal = some "SQUEEZE_IMMINENT_SHORT".toList then 25 else 0

namespace DecisionEngine

variable (e : DecisionEngine) (x : Call)

/-- The points the HMM prediction adds. -/
def hmmBonus (hmm : Option HmmRead) (direction : Side) : ℚ :=
  match hmm with
  | none => 0
  | some h =>
      let predicted :=
        if h.signal = "HMM_BREAKOUT_IMMINENT".toList ∧ direction = .LONG then
          e.hmmBreakoutBonus * h.confidence
        else if h.signal = "HMM_CHOP_IMMINENT".toList then -(e.hmmChopPenalty * h.confidence)
        else 0
      let confident :=
        if 6 / 10 < h.confidence then
          if 7 / 10 < h.highVol ∧ direction = .SHORT then 10 * h.highVol
          else if 7 / 10 < h.lowVol ∧ direction = .LONG then 8 * h.lowVol
          else 0
        else 0
      predicted + confident

/-- The score of a direction, up to the factor of its sector. -/
def directionScore (direction : Side) : ℚ :=
  let a := x.answers direction
  let score := a.confidence * volFloorPenalty x.volFloor * a.symbolMult.getD 1 *
    eloFactor a.elo * correlationPenalty a.correlation
  let score := if momentumExempt x direction then max score e.gate else score
  let carry := match direction with
    | .LONG => ifPositive a.carryBonus
    | .SHORT => 0
  score * anchorPenalty x direction + carry + termBonus a.termSignal direction +
    ifPositive a.liquidationBonus + ifPositive a.crossAssetBonus - ifPositive a.unlockPenalty +
    e.hmmBonus a.hmm direction

/-- `_get_dynamic_gate_threshold`. -/
def dynamicGate (threshold : Option ℚ) : ℚ :=
  match threshold with
  | some t => max 50 (min 90 t)
  | none => e.gate

/-- The symbol is up by 15 percent in 48 candles and between 5 and 10 percent below its high. -/
def dipBuy (candles : List Candle) : Bool :=
  (moveOver candles 48).any fun move =>
    let highs := (candles.drop (candles.length - 48)).map Candle.high
    let high := highs.foldl max (highs.headD 0)
    let dip := (high - lastClose candles) / high
    decide (15 / 100 < move ∧ 5 / 100 ≤ dip ∧ dip ≤ 10 / 100)

/-- `effective_gate`. -/
def effectiveGate (direction : Side) : ℚ :=
  let a := x.answers direction
  let volFactor := if momentumExempt x direction then 1 else a.volFactor
  let gate := e.dynamicGate a.dynamicThreshold * volFactor
  if dipBuy x.candles then gate * (90 / 100) else gate

/-- `check_consecutive_losses`. -/
def consecutiveLosses (recentTrades : Option (List MemoryTrade)) : Bool :=
  let losses := (recentTrades.getD []).takeWhile fun t => decide (t.pnlPct < 0)
  let breakevens := losses.filter fun t =>
    decide ("breakeven".toList <:+: t.exitReason ∨ "stagnation".toList <:+: t.exitReason)
  decide (3 ≤ losses.length ∨ 4 ≤ breakevens.length)

end DecisionEngine

/-! ## One direction -/

/-- The local variables the directions share, and the signals built so far. -/
structure Locals where
  score : Option ℚ
  best : Option TradeSignal
  sectorReturns : Dict Text ℚ
  built : List TradeSignal
deriving Repr, DecidableEq

/-- The signal of higher expected value, the earlier one of two equal ones. -/
def better : Option TradeSignal → TradeSignal → Option TradeSignal :=
  keepBest TradeSignal.expectedValue

namespace DecisionEngine

variable (e : DecisionEngine) (x : Call) (regime : MarketRegime)

/-- The filter of the sectors lets the direction through. -/
def approved (returns : Dict Text ℚ) (direction : Side) : Bool :=
  Sectors.approved e.getSector returns x.symbol direction

/-- `sector_score`. -/
def sectorScore (returns : Dict Text ℚ) (direction : Side) : ℚ :=
  Sectors.getSectorScore e.getSector returns x.symbol direction

/-- The sector returns when the next direction is tried: other tasks ran if the evaluation
of this one waited. -/
def returnsBehind (returns : Dict Text ℚ) (direction : Side) : Dict Text ℚ :=
  if !e.approved x returns direction || fundingBlocked x.fundingRate direction then returns
  else (x.answers direction).sectorUpdates.foldl
    (fun _ update => Sectors.updateSectorReturns e.getSector update) returns

/-- The final score of a direction. -/
def finalScore (returns : Dict Text ℚ) (direction : Side) : ℚ :=
  e.directionScore x direction * e.sectorScore x returns direction

/-- The signal of a direction. -/
def signalOf (returns : Dict Text ℚ) (direction : Side) : Option TradeSignal :=
  e.buildSignal x.symbol direction regime (e.finalScore x returns direction) x.candles
    (sessionMult (x.answers direction).hour) (x.answers direction).sizing

/-- The body of the loop over the directions.  The log of a sector score other than one reads
the variable `score`, and what the builder returns gets an attribute set; either raises where
there is no value. -/
def evaluateDirection (direction : Side) (s : Locals) : Flow Locals :=
  let behind := e.returnsBehind x s.sectorReturns direction
  if !e.approved x s.sectorReturns direction then .next s
  else if e.sectorScore x s.sectorReturns direction ≠ 1 ∧ s.score = none then .raise s
  else if fundingBlocked x.fundingRate direction then .next s
  else if multiTfBlocked x direction then .next { s with sectorReturns := behind }
  else
    let score := e.finalScore x s.sectorReturns direction
    let t := { s with score := some score, sectorReturns := behind }
    if e.effectiveGate x direction ≤ score then
      if consecutiveLosses x.recentTrades then .ret t
      else match e.signalOf x regime s.sectorReturns direction with
        | none => .raise t
        | some signal =>
            .next { t with best := better t.best signal, built := t.built ++ [signal] }
    else .next t

/-! ## A whole call -/

end DecisionEngine

/-- How a call ends. -/
inductive Outcome where
  | returned (signal : Option TradeSignal)
  | raised
deriving Repr, DecidableEq

/-- A call's end and the signals it built. -/
structure Evaluation where
  outcome : Outcome
  built : List TradeSignal
deriving Repr, DecidableEq

/-- What the loop leaves to the call. -/
def Evaluation.ofFlow : Flow Locals → Evaluation
  | .next s => ⟨.returned s.best, s.built⟩
  | .ret s => ⟨.returned none, s.built⟩
  | .raise s => ⟨.raised, s.built⟩

namespace DecisionEngine

variable (e : DecisionEngine) (x : Call)

/-- A gate before the directions rejects the call. -/
def rejectedEarly : Bool :=
  decide (x.candles.length < 50) || decide (x.ranking = "REJECT".toList) ||
    sessionBlocked e.sessionBlock x.symbol x.blockHour || spreadBalloon x.book

/-- The local variables before the first direction: the sector returns have been updated with
the return of the symbol over the last four candles. -/
def startLocals : Locals where
  score := none
  best := none
  sectorReturns :=
    match moveOver x.candles 4 with
    | some r => Sectors.updateSectorReturns e.getSector [(x.symbol, r)]
    | none => []
  built := []

/-- The directions of the call, one after the other. -/
def evaluateDirections : Flow Locals :=
  Flow.blocks ((determineDirections (settledRegime x)).map
    (e.evaluateDirection x (settledRegime x))) (e.startLocals x)

/-- `evaluate`. -/
def evaluate : Evaluation :=
  if e.rejectedEarly x then ⟨.returned none, []⟩ else .ofFlow (e.evaluateDirections x)

end DecisionEngine
end Decision
end Karsa
