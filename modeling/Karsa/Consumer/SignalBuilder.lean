import Karsa.Data.TrueRange
import Karsa.Foundations.PythonNumbers
import Karsa.Risk.DynamicRiskGate
import Karsa.Risk.KellySizer

/-!
# Decision engine - Building a signal

`DecisionEngine._build_signal` turns a direction that passed the gates into a signal: an entry
price with slippage, a stop and a target at multiples of the average true range, an amount
that risks a share of the wallet at the stop, and an expected value.

Main results:

- Definition `signalAmount`, `buildSignal`: the amount and the signal.
- Theorem `abs_entry_sub_sl`: the distance to the stop.
- Theorem `buildSignal_eq_none_iff`: where no signal is built.
- Theorem `expectedValue_eq_zero`: the expected value of every signal is zero.
-/

namespace Karsa
namespace Decision

open Live (MarketRegime)
open MarketFeed (Candle)
open Shadow (RiskProfile)
open Risk

/-! ## Signals and settings -/

/-- `TradeSignal`, as far as it is read. -/
structure TradeSignal where
  symbol : Text
  direction : Side
  regime : MarketRegime
  score : ℚ
  riskProfile : RiskProfile
  entryPrice : ℚ
  slPrice : ℚ
  tpPrice : Option ℚ
  amount : ℚ
  entryFeeRate : ℚ
  atr : ℚ
  timestampMs : ℤ
  candles : List Candle
  sessionMult : ℚ
  expectedValue : ℚ
deriving Repr, DecidableEq

/-- The hours in which altcoins are not entered, and whether Bitcoin and Ether are. -/
structure SessionBlock where
  startHour : ℕ
  endHour : ℕ
  allowBtcEth : Bool
deriving Repr, DecidableEq

/-- `DecisionEngine`, with its wallet balance and the settings it reads. -/
structure DecisionEngine where
  riskGate : DynamicRiskGate
  gate : ℚ
  baseSize : ℚ
  slippage : ℚ
  takerFee : ℚ
  makerFee : ℚ
  walletBalance : ℚ
  sizing : SizingSettings
  sessionBlock : Option SessionBlock
  hmmBreakoutBonus : ℚ
  hmmChopPenalty : ℚ
  getSector : Text → Text
  slippage_nonneg : 0 ≤ slippage
  slippage_lt_one : slippage < 1

/-- What the sizing of a signal reads: the recent trades, for the Kelly stage and for the win
rates; the stored peak, if Redis is there; the forecast and the historical volatility; the
conviction; the macro multiplier. -/
structure SizingAnswers where
  recent : Option (List MemoryTrade)
  rates : Option (List MemoryTrade)
  peak : Option (Option ℚ)
  forecastedVol : Option ℚ
  historicalVol : Option ℚ
  conviction : Option ℚ
  macroMultiplier : Option ℚ
deriving Repr, DecidableEq

/-- `session_mult` of an hour. -/
def sessionMult (hour : ℕ) : ℚ :=
  if hour < 7 then 7 / 10
  else if hour < 12 then 1
  else if hour < 16 then 12 / 10
  else if hour < 21 then 1
  else 8 / 10

/-- `CONVICTION_FLOOR`. -/
def convictionFloor : ℚ := 35 / 100

/-! ## Expected value -/

/-- `p_win`. -/
def winProbability (score : ℚ) : ℚ :=
  min (score / 100) (95 / 100)

/-- The expected value of a signal; zero where the computation raises. -/
def expectedValue (score entryPrice slPrice : ℚ) (tpPrice : Option ℚ) (atr : ℚ) : ℚ :=
  let pWin := winProbability score
  let pLoss := 1 - pWin
  let riskDist := if slPrice ≠ 0 then |entryPrice - slPrice| else atr
  let rewardDist := match tpPrice with
    | some tp => |tp - entryPrice|
    | none => atr * 2
  -- The distances are floats, and the entry price is a `Decimal`.
  let share (dist : ℚ) : Option PyNumber :=
    if 0 < entryPrice then (PyNumber.float dist).div (.decimal entryPrice) else some (.float 0)
  let ev := (share rewardDist).bind fun avgWin => (share riskDist).map fun avgLoss =>
    pWin * avgWin.value - pLoss * avgLoss.value
  ev.getD 0

namespace DecisionEngine

variable (e : DecisionEngine)

/-! ## Prices -/

/-- `entry_price`. -/
def entryPrice (close : ℚ) : Side → ℚ
  | .LONG => close * (1 + e.slippage)
  | .SHORT => close * (1 - e.slippage)

/-- `sl_price`. -/
def slPrice (entryPrice : ℚ) (direction : Side) (atr slBuffer : ℚ) : ℚ :=
  match direction with
  | .LONG => entryPrice - atr * slBuffer
  | .SHORT => entryPrice + atr * slBuffer

/-- `tp_price`.  The features have no `liquidity_walls`, so no wall moves the target. -/
def tpPrice (entryPrice : ℚ) (direction : Side) (atr : ℚ) (profile : RiskProfile) : Option ℚ :=
  if profile.takeProfitType = "TRAILING".toList then none
  else match direction with
    | .LONG => some (entryPrice + atr * profile.trailAtrMult)
    | .SHORT => some (entryPrice - atr * profile.trailAtrMult)

/-! ## Amount -/

/-- `scaled_risk_pct` behind the stages of the sizer. -/
def stagedRiskPct (score : ℚ) (a : SizingAnswers) : RiskPct :=
  let stats := tradeStats (a.recent.getD [])
  let pct := calculateRiskPct stats score
  let pct := match a.peak with
    | none => pct
    | some stored => drawdownAdaptive e.sizing pct (stored.getD 0) e.walletBalance
  let pct := applyUncertaintyAdjustment e.sizing pct stats.wins stats.losses
    (winRates 0 0 (a.rates.getD []))
  applyVolatilityTargeting e.sizing pct a.forecastedVol a.historicalVol

/-- `amount`; `none` where the conviction is below its floor. -/
def signalAmount (profile : RiskProfile) (entryPrice riskDistance score sessionMult : ℚ)
    (a : SizingAnswers) : Option ℚ :=
  if riskDistance ≤ 0 then some e.baseSize
  else if 0 < e.walletBalance then
    let conviction := a.conviction.getD 1
    if conviction < convictionFloor then none
    else
      let scaled := (e.stagedRiskPct score a).value * conviction * a.macroMultiplier.getD 1
      let amount :=
        e.walletBalance * scaled * profile.sizeMultiplier * sessionMult / riskDistance
      let maxNotional := e.walletBalance * (40 / 100)
      some (if 0 < entryPrice then min amount (maxNotional / entryPrice) else amount)
  else some (e.baseSize * 100 * profile.sizeMultiplier * sessionMult / riskDistance)

/-- The last close of an array; `evaluate` passes none that is empty. -/
def lastClose (candles : List Candle) : ℚ :=
  (candles.getLast?.map Candle.close).getD 0

/-- `_build_signal`. -/
def buildSignal (symbol : Text) (direction : Side) (regime : MarketRegime) (score : ℚ)
    (candles : List Candle) (sessionMult : ℚ) (a : SizingAnswers) : Option TradeSignal :=
  let profile := e.riskGate.getProfile regime
  let entry := e.entryPrice (lastClose candles) direction
  let atr := TrueRange.decisionAtr TrueRange.atrPeriod candles
  let sl := slPrice entry direction atr profile.slAtrBuffer
  let tp := tpPrice entry direction atr profile
  (e.signalAmount profile entry |entry - sl| score sessionMult a).map fun amount =>
    { symbol := symbol
      direction := direction
      regime := regime
      score := score
      riskProfile := profile
      entryPrice := entry
      slPrice := sl
      tpPrice := tp
      amount := amount
      entryFeeRate := if profile.usePostOnly then e.makerFee else e.takerFee
      atr := atr
      timestampMs := (candles.getLast?.map Candle.ts).getD 0
      candles := candles
      sessionMult := sessionMult
      expectedValue := expectedValue score entry sl tp atr }

/-! ## What is built -/

/-- The distance to the stop. -/
theorem abs_entry_sub_sl (entry : ℚ) (direction : Side) (atr slBuffer : ℚ) :
    |entry - slPrice entry direction atr slBuffer| = |atr * slBuffer| := by
  cases direction with
  | LONG => rw [slPrice, sub_sub_cancel]
  | SHORT => rw [slPrice, sub_add_cancel_left, abs_neg]

/-- The stop distance of a regime on an array. -/
def stopDistance (regime : MarketRegime) (candles : List Candle) : ℚ :=
  |TrueRange.decisionAtr TrueRange.atrPeriod candles *
    (e.riskGate.getProfile regime).slAtrBuffer|

/-- The conviction floor rejects a signal of a funded engine. -/
def BelowFloor (regime : MarketRegime) (candles : List Candle) (a : SizingAnswers) : Prop :=
  0 < e.stopDistance regime candles ∧ 0 < e.walletBalance ∧
    a.conviction.getD 1 < convictionFloor

instance (regime : MarketRegime) (candles : List Candle) (a : SizingAnswers) :
    Decidable (e.BelowFloor regime candles a) :=
  inferInstanceAs (Decidable (_ ∧ _ ∧ _))

variable {e} {symbol : Text} {direction : Side} {regime : MarketRegime} {score : ℚ}
  {candles : List Candle} {session : ℚ} {a : SizingAnswers}

/-- No signal is built exactly below the floor. -/
theorem buildSignal_eq_none_iff :
    e.buildSignal symbol direction regime score candles session a = none ↔
      e.BelowFloor regime candles a := by
  unfold buildSignal
  dsimp only
  rw [Option.map_eq_none_iff, abs_entry_sub_sl]
  unfold BelowFloor stopDistance signalAmount
  dsimp only
  split_ifs with hzero hwallet hfloor
  · exact iff_of_false (by simp) fun h => absurd h.1 hzero.not_gt
  · exact iff_of_true rfl ⟨not_le.1 hzero, hwallet, hfloor⟩
  · exact iff_of_false (by simp) fun h => hfloor h.2.2
  · exact iff_of_false (by simp) fun h => hwallet h.2.1

/-- The entry price of an array of positive prices is positive. -/
theorem entryPrice_pos {close : ℚ} (hclose : 0 < close) (direction : Side) :
    0 < e.entryPrice close direction := by
  have hnonneg := e.slippage_nonneg
  have hlt := e.slippage_lt_one
  cases direction with
  | LONG => exact mul_pos hclose (by linarith)
  | SHORT => exact mul_pos hclose (by linarith)

end DecisionEngine

/-- A float distance is divided by a `Decimal` price: the expected value is always zero. -/
theorem expectedValue_eq_zero (score entryPrice slPrice : ℚ) (tpPrice : Option ℚ) (atr : ℚ) :
    expectedValue score entryPrice slPrice tpPrice atr = 0 := by
  unfold expectedValue
  dsimp only
  by_cases hentry : 0 < entryPrice
  · rw [if_pos hentry, PyNumber.div_float_decimal]
    rfl
  · simp [if_neg hentry, PyNumber.value]

end Decision
end Karsa
