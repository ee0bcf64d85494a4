import Karsa.Foundations.Decimal
import Karsa.Foundations.Text
import Mathlib.Algebra.Order.Field.Rat
import Mathlib.Data.Rat.Floor

/-!
# Risk - Fractional Kelly sizing

The share of the wallet that a trade may lose is computed in stages: a quarter of the Kelly
fraction of past trades, then factors for the drawdown, for the uncertainty of the estimate
and for the forecast of volatility.  Every stage rounds to four digits and forces its result
between half a percent and two percent; a `RiskPct` is such a share.

Main results:

- Definition `calculateRiskPct`: the first stage.
- Definition `drawdownAdaptive`, `applyUncertaintyAdjustment`, `applyVolatilityTargeting`:
  the stages behind it.
- Theorem `RiskPct.scaled_le`: what is left of a share after factors of at most one.
-/

namespace Karsa
namespace Risk

/-- `MIN_RISK_PCT`. -/
def minRiskPct : ℚ := 5 / 1000

/-- `MAX_RISK_PCT`. -/
def maxRiskPct : ℚ := 20 / 1000

/-- A share of the wallet between the floor and the ceiling. -/
structure RiskPct where
  value : ℚ
  floor : minRiskPct ≤ value
  ceiling : value ≤ maxRiskPct

namespace RiskPct

/-- `max(MIN_RISK_PCT, min(MAX_RISK_PCT, x))`. -/
def bound (x : ℚ) : RiskPct where
  value := max minRiskPct (min maxRiskPct x)
  floor := le_max_left _ _
  ceiling := max_le (by norm_num [minRiskPct, maxRiskPct]) (min_le_left _ _)

/-- A share times a factor, to four digits. -/
def scale (pct : RiskPct) (factor : ℚ) : RiskPct :=
  bound (quantize (1 / 10000) (pct.value * factor))

theorem pos (pct : RiskPct) : 0 < pct.value :=
  lt_of_lt_of_le (by norm_num [minRiskPct]) pct.floor

/-- Factors between zero and one keep a share below its ceiling. -/
theorem scaled_le (pct : RiskPct) {factor : ℚ} (hnonneg : 0 ≤ factor) (hone : factor ≤ 1) :
    0 ≤ pct.value * factor ∧ pct.value * factor ≤ maxRiskPct := by
  refine ⟨mul_nonneg pct.pos.le hnonneg, ?_⟩
  calc
    pct.value * factor ≤ pct.value * 1 := mul_le_mul_of_nonneg_left hone pct.pos.le
    _ = pct.value := mul_one _
    _ ≤ maxRiskPct := pct.ceiling

end RiskPct

/-! ## Past trades -/

/-- A trade of the memory, as far as it is read. -/
structure MemoryTrade where
  pnlPct : ℚ
  exitReason : Text
deriving Repr, DecidableEq

/-- What the sizer is told about past trades. -/
structure TradeStats where
  wins : ℕ
  losses : ℕ
  avgWin : ℚ
  avgLoss : ℚ
deriving Repr, DecidableEq

/-- `sum(xs) / len(xs) if xs else 0.0`. -/
def average (xs : List ℚ) : ℚ :=
  if xs = [] then 0 else xs.sum / xs.length

/-- Wins and losses of the recent trades. -/
def tradeStats (recent : List MemoryTrade) : TradeStats :=
  let wins := (recent.map MemoryTrade.pnlPct).filter fun pnl => 0 < pnl
  let losses := ((recent.map MemoryTrade.pnlPct).filter fun pnl => pnl < 0).map fun pnl => |pnl|
  ⟨wins.length, losses.length, average wins, average losses⟩

/-- The win rate after each of the trades, `n` of which went before with `wins` wins. -/
def winRates (wins n : ℕ) : List MemoryTrade → List ℚ
  | [] => []
  | t :: rest =>
      let wins := if 0 < t.pnlPct then wins + 1 else wins
      (wins / (n + 1 : ℕ) : ℚ) :: winRates wins (n + 1) rest

/-- `statistics.variance`. -/
def sampleVariance (xs : List ℚ) : ℚ :=
  let mean := xs.sum / xs.length
  (xs.map fun x => (x - mean) ^ 2).sum / (xs.length - 1)

/-! ## Stages -/

/-- The settings the stages read. -/
structure SizingSettings where
  ddSevereThreshold : ℚ
  ddModerateThreshold : ℚ
  ddNearPeakThreshold : ℚ
  ddSevereMult : ℚ
  ddModerateMult : ℚ
  ddNearPeakMult : ℚ
  uncertaintyFactor : ℚ
  minTradesForConfidence : ℕ
  varianceThreshold : ℚ
  garchHighVolThreshold : ℚ
  garchLowVolThreshold : ℚ
  garchHighVolMultiplier : ℚ
  garchLowVolMultiplier : ℚ

/-- Their defaults. -/
def SizingSettings.default : SizingSettings where
  ddSevereThreshold := 10 / 100
  ddModerateThreshold := 5 / 100
  ddNearPeakThreshold := 2 / 100
  ddSevereMult := 25 / 100
  ddModerateMult := 50 / 100
  ddNearPeakMult := 125 / 100
  uncertaintyFactor := 50 / 100
  minTradesForConfidence := 30
  varianceThreshold := 15 / 100
  garchHighVolThreshold := 15 / 10
  garchLowVolThreshold := 7 / 10
  garchHighVolMultiplier := 5 / 10
  garchLowVolMultiplier := 12 / 10

/-- `KELLY_FRACTION`. -/
def kellyFraction : ℚ := 25 / 100

/-- `MIN_TRADES`. -/
def minTrades : ℕ := 15

/-- Share by the score alone, for few trades. -/
def fallbackRiskPct (score : ℚ) : RiskPct :=
  if 90 ≤ score then ⟨15 / 1000, by norm_num [minRiskPct], by norm_num [maxRiskPct]⟩
  else if 80 ≤ score then ⟨10 / 1000, by norm_num [minRiskPct], by norm_num [maxRiskPct]⟩
  else ⟨5 / 1000, by norm_num [minRiskPct], by norm_num [maxRiskPct]⟩

/-- `KellySizer.calculate_risk_pct`. -/
def calculateRiskPct (stats : TradeStats) (fallbackScore : ℚ) : RiskPct :=
  let total := stats.wins + stats.losses
  if total < minTrades ∨ stats.avgLoss ≤ 0 ∨ stats.avgWin ≤ 0 then fallbackRiskPct fallbackScore
  else
    let winRate : ℚ := stats.wins / total
    let lossRate := 1 - winRate
    let payoffRatio := stats.avgWin / stats.avgLoss
    let fullKelly := winRate - lossRate / payoffRatio
    if fullKelly ≤ 0 then ⟨minRiskPct, le_rfl, by norm_num [minRiskPct, maxRiskPct]⟩
    else .bound (quantize (1 / 10000) (fullKelly * kellyFraction))

variable (s : SizingSettings)

/-- The factor of a drawdown. -/
def drawdownMultiplier (drawdown : ℚ) : ℚ :=
  if s.ddSevereThreshold < drawdown then s.ddSevereMult
  else if s.ddModerateThreshold < drawdown then s.ddModerateMult
  else if drawdown < s.ddNearPeakThreshold then s.ddNearPeakMult
  else 1

/-- The drawdown stage of `_build_signal`: the stored peak is raised to the equity first. -/
def drawdownAdaptive (pct : RiskPct) (storedPeak equity : ℚ) : RiskPct :=
  let peak := if storedPeak < equity then equity else storedPeak
  if 0 < peak ∧ 0 < equity then pct.scale (drawdownMultiplier s ((peak - equity) / peak))
  else pct

/-- `KellySizer.apply_uncertainty_adjustment`. -/
def applyUncertaintyAdjustment (pct : RiskPct) (wins losses : ℕ) (winRateHistory : List ℚ) :
    RiskPct :=
  let total := wins + losses
  if total < s.minTradesForConfidence then
    let sampleConfidence : ℚ := total / s.minTradesForConfidence
    pct.scale (1 / 2 + sampleConfidence * (1 / 2))
  else if 10 ≤ winRateHistory.length ∧
      s.varianceThreshold <
        sampleVariance (winRateHistory.drop (winRateHistory.length - 20)) then
    pct.scale s.uncertaintyFactor
  else pct

/-- `GARCHVolatilityForecaster.get_volatility_multiplier`, for a positive historical one. -/
def volatilityMultiplier (forecasted historical : ℚ) : ℚ :=
  let ratio := forecasted / historical
  if s.garchHighVolThreshold < ratio then s.garchHighVolMultiplier
  else if ratio < s.garchLowVolThreshold then s.garchLowVolMultiplier
  else 1

/-- `KellySizer.apply_volatility_targeting`. -/
def applyVolatilityTargeting (pct : RiskPct) (forecasted historical : Option ℚ) : RiskPct :=
  match forecasted, historical with
  | some f, some h =>
      if h ≤ 0 then pct
      else
        let multiplier := volatilityMultiplier s f h
        if multiplier = 1 then pct else pct.scale multiplier
  | _, _ => pct

end Risk
end Karsa
