import Karsa.Foundations.Decimal
import Karsa.Foundations.Text
import Mathlib.Algebra.BigOperators.Group.List.Basic
import Mathlib.Data.Rat.Floor
import Mathlib.Data.Rat.Sqrt
import Mathlib.Tactic.FieldSimp

/-!
# Backtests - Walk-forward assessment

`optimize` trains on one part of a window and tests on the rest; from the results of the
windows it scores how well the training carries over, and recommends by the score.  The main
part of the score is the ratio of the average results.

Main results:

- Theorem `overfitComponent_mono`: a better test result never lowers the ratio's part.
- Theorem `robust_lossmaking_iff`: which losing strategies are called robust.
- Theorem `robustMeansProfit_iff`: when the recommendation can be relied on.
-/

namespace Karsa
namespace WalkForward

variable {K : Type*} [Field K] [LinearOrder K] [FloorRing K]

/-! ## Aggregation -/

/-- What a window contributes; the win rate is in percent. -/
structure WindowResult (K : Type*) where
  trainPnl : K
  testPnl : K
  testWinRate : K
  testTrades : ℕ
deriving Repr, DecidableEq

/-- The aggregated results. -/
structure WalkForwardResult (K : Type*) where
  oosPnl : K
  oosTrades : ℕ
  oosWinRate : K
  sharpe : K
  maxDrawdown : K
  avgTrainPnl : K
  avgTestPnl : K
  overfitScore : K
  robustnessScore : K
  recommendation : Text

/-- `WalkForwardResult(symbol=symbol)`. -/
def WalkForwardResult.initial : WalkForwardResult K :=
  ⟨0, 0, 0, 0, 0, 0, 0, 0, 0, []⟩

/-- The recommendation of a score of 70 or more. -/
def robust : Text :=
  "ROBUST — strategy generalizes well to unseen data".toList

/-- The recommendation of a score from 40 to 70. -/
def moderate : Text :=
  "MODERATE — some overfitting detected, use with caution".toList

/-- The recommendation of a lower score. -/
def fragile : Text :=
  "FRAGILE — significant overfitting, do not deploy".toList

/-- `sum(values) / len(values)`. -/
def mean (values : List K) : K :=
  values.sum / values.length

/-- `int(value)` of a float. -/
def toInt (value : K) : ℤ :=
  if 0 ≤ value then ⌊value⌋ else ⌈value⌉

/-- Wins of the test parts, from their rates. -/
def totalWins (windows : List (WindowResult K)) : ℤ :=
  (windows.map fun w => toInt (w.testWinRate / 100 * (w.testTrades : K))).sum

/-- Trades of the test parts. -/
def totalTrades (windows : List (WindowResult K)) : ℕ :=
  (windows.map WindowResult.testTrades).sum

/-- Share of wins in percent. -/
def winRate (windows : List (WindowResult K)) : K :=
  if 0 < totalTrades windows then
    (totalWins windows : K) / (totalTrades windows : K) * 100
  else 0

/-- `math.sqrt`, of which only this much is used. -/
structure Root (K : Type*) [Field K] [LinearOrder K] where
  sqrt : K → K
  sqrt_zero : sqrt 0 = 0
  sqrt_nonneg : ∀ x, 0 ≤ sqrt x

/-- Standard deviation. -/
def deviation (R : Root K) (values : List K) : K :=
  R.sqrt ((values.map fun p => (p - mean values) ^ 2).sum / values.length)

/-- The Sharpe approximation. -/
def sharpeRatio (R : Root K) (pnls : List K) : K :=
  if 1 < pnls.length then
    if 0 < deviation R pnls then mean pnls / deviation R pnls else 0
  else 0

/-- Locals of the drawdown loop. -/
structure DrawdownLoop (K : Type*) where
  cumulative : K
  peak : K
  maxDd : K

/-- Body of the drawdown loop. -/
def DrawdownLoop.observe (s : DrawdownLoop K) (pnl : K) : DrawdownLoop K :=
  let cumulative := s.cumulative + pnl
  let peak := if s.peak < cumulative then cumulative else s.peak
  let dd := peak - cumulative
  ⟨cumulative, peak, if s.maxDd < dd then dd else s.maxDd⟩

/-- `max(0, min(100, value))`. -/
def component (value : K) : K :=
  max 0 (min 100 value)

/-- `round(of_score * 0.7 + wr_score * 0.2 + sharpe_score * 0.1, 1)`. -/
def robustness (ofScore wrScore sharpeScore : K) : K :=
  quantize (1 / 10) (ofScore * 0.7 + wrScore * 0.2 + sharpeScore * 0.1)

/-- What is recommended by a score. -/
def recommend (score : K) : Text :=
  if 70 ≤ score then robust
  else if 40 ≤ score then moderate
  else fragile

/-- What `optimize` makes of the results of its windows. -/
def aggregate (R : Root K) (windows : List (WindowResult K)) : WalkForwardResult K :=
  if windows = [] then WalkForwardResult.initial
  else
    let avgTrain := mean (windows.map WindowResult.trainPnl)
    let avgTest := mean (windows.map WindowResult.testPnl)
    let pnls := windows.map WindowResult.testPnl
    let overfitScore := if avgTrain ≠ 0 then avgTest / avgTrain else 0
    let sharpe := sharpeRatio R pnls
    let ofScore := component (overfitScore * 100)
    let wrScore := component (winRate windows)
    let sharpeScore := component ((sharpe + 1) * 50)
    let score := robustness ofScore wrScore sharpeScore
    { oosPnl := pnls.sum
      oosTrades := totalTrades windows
      oosWinRate := winRate windows
      sharpe := sharpe
      maxDrawdown := (pnls.foldl DrawdownLoop.observe ⟨0, 0, 0⟩).maxDd
      avgTrainPnl := avgTrain
      avgTestPnl := avgTest
      overfitScore := overfitScore
      robustnessScore := score
      recommendation := recommend score }

/-- `of_score`. -/
def overfitComponent (result : WalkForwardResult K) : K :=
  component (result.overfitScore * 100)

/-! ## Parts of the score -/

section Parts

omit [FloorRing K] in
/-- A greater value has no smaller component. -/
theorem component_mono {x y : K} (h : x ≤ y) : component x ≤ component y :=
  max_le_max le_rfl (min_le_min le_rfl h)

variable [IsStrictOrderedRing K] {R : Root K} {windows : List (WindowResult K)}

omit [FloorRing K] in
/-- A component is at most 100. -/
theorem component_le (value : K) : component value ≤ 100 :=
  max_le (by norm_num) (min_le_left 100 value)

omit [FloorRing K] [IsStrictOrderedRing K] in
/-- A value that is not positive counts nothing. -/
theorem component_of_nonpos {value : K} (h : value ≤ 0) : component value = 0 :=
  max_eq_left ((min_le_right 100 value).trans h)

/-- A rounded score of 70 is reached from 69.95 on. -/
theorem robustness_ge_iff (ofScore wrScore sharpeScore : K) :
    70 ≤ robustness ofScore wrScore sharpeScore ↔
      1399 / 20 ≤ ofScore * (7 / 10) + wrScore * (2 / 10) + sharpeScore * (1 / 10) := by
  have heven := le_roundHalfEven_iff_of_even (n := 700) (by decide)
    ((ofScore * (7 / 10) + wrScore * (2 / 10) + sharpeScore * (1 / 10)) / (1 / 10))
  have hscaled : ∀ z : ℤ, (70 : K) ≤ (z : K) * (1 / 10) ↔ 700 ≤ z := by
    intro z
    rw [← Int.cast_le (R := K)]
    push_cast
    constructor <;> intro h <;> linarith
  have hweights : ofScore * 0.7 + wrScore * 0.2 + sharpeScore * 0.1 =
      ofScore * (7 / 10) + wrScore * (2 / 10) + sharpeScore * (1 / 10) := by norm_num
  rw [robustness, hweights, quantize, hscaled, heven, le_div_iff₀ (by norm_num)]
  norm_num

omit [FloorRing K] [IsStrictOrderedRing K] in
/-- The recommendation is that of robust strategies from a score of 70 on. -/
theorem recommend_eq_robust_iff (score : K) : recommend score = robust ↔ 70 ≤ score := by
  unfold recommend
  split_ifs with hrobust hmoderate
  · exact iff_of_true rfl hrobust
  · exact iff_of_false (by decide) hrobust
  · exact iff_of_false (by decide) hrobust

omit [IsStrictOrderedRing K] in
/-- The ratio of the averages is the ratio of the totals. -/
theorem aggregate_overfitScore (hne : windows ≠ []) :
    (aggregate R windows).overfitScore =
      (windows.map WindowResult.testPnl).sum / (windows.map WindowResult.trainPnl).sum := by
  have hlength : ((windows.length : ℕ) : K) ≠ 0 := by
    have hpos := List.length_pos_iff.mpr hne
    exact_mod_cast hpos.ne'
  have hscore : (aggregate R windows).overfitScore =
      if mean (windows.map WindowResult.trainPnl) ≠ 0 then
        mean (windows.map WindowResult.testPnl) / mean (windows.map WindowResult.trainPnl)
      else 0 := by
    rw [aggregate, if_neg hne]
  rw [hscore, mean, mean, List.length_map, List.length_map]
  split_ifs with htrain
  · exact div_div_div_cancel_right₀ hlength _ _
  · have hzero : (windows.map WindowResult.trainPnl).sum = 0 := by
      rw [not_not, div_eq_zero_iff] at htrain
      exact htrain.resolve_right hlength
    rw [hzero, div_zero]

omit [FloorRing K] [IsStrictOrderedRing K] in
/-- The ratio is that of mean and deviation also where the code does not divide. -/
theorem sharpeRatio_eq (pnls : List K) : sharpeRatio R pnls = mean pnls / deviation R pnls := by
  have hzero : ¬ 0 < deviation R pnls → mean pnls / deviation R pnls = 0 := by
    intro hnot
    rw [le_antisymm (not_lt.mp hnot) (R.sqrt_nonneg _), div_zero]
  unfold sharpeRatio
  split_ifs with hlength hpos
  · rfl
  · exact (hzero hpos).symm
  · refine (hzero ?_).symm
    match pnls, hlength with
    | [], _ => simp [deviation, R.sqrt_zero]
    | [p], _ => simp [deviation, mean, R.sqrt_zero]
    | _ :: _ :: _, hlength => exact absurd (by simp) hlength

end Parts

/-! ## Losing strategies that are called robust -/

section Purpose

variable (R : Root K) (windows : List (WindowResult K))

/-- A strategy that is called robust makes money on unseen data, and a better test result of a
window never lowers the part of the score that compares test and training. -/
structure RobustMeansProfit : Prop where
  profitable : (aggregate R windows).recommendation = robust →
    0 < (aggregate R windows).oosPnl
  monotone : ∀ before w after x, windows = before ++ w :: after → w.testPnl ≤ x →
    0 < (aggregate R windows).avgTrainPnl →
      overfitComponent (aggregate R windows) ≤
        overfitComponent (aggregate R (before ++ { w with testPnl := x } :: after))

/-- Training and test both lose; the ratio of the losses, the share of wins and the mean loss
in deviations add up to 69.95 points. -/
structure LosesAlike : Prop where
  train : (windows.map WindowResult.trainPnl).sum < 0
  test : (windows.map WindowResult.testPnl).sum ≤ 0
  points : 1399 / 20 ≤
    70 * min 1 ((windows.map WindowResult.testPnl).sum /
        (windows.map WindowResult.trainPnl).sum) +
      component (winRate windows) / 5 +
      5 * max 0 (1 + mean (windows.map WindowResult.testPnl) /
        deviation R (windows.map WindowResult.testPnl))

end Purpose

section Losing

variable [IsStrictOrderedRing K] {R : Root K} {windows : List (WindowResult K)}

/-- Which losing strategies are called robust. -/
theorem robust_lossmaking_iff (hne : windows ≠ [])
    (hloss : (windows.map WindowResult.testPnl).sum ≤ 0) :
    (aggregate R windows).recommendation = robust ↔ LosesAlike R windows := by
  have hscore : (aggregate R windows).recommendation = robust ↔
      1399 / 20 ≤ overfitComponent (aggregate R windows) * (7 / 10) +
        component (winRate windows) * (2 / 10) +
        component ((sharpeRatio R (windows.map WindowResult.testPnl) + 1) * 50) * (1 / 10) := by
    rw [← robustness_ge_iff, ← recommend_eq_robust_iff]
    simp only [aggregate, if_neg hne, overfitComponent]
  rw [hscore, overfitComponent, aggregate_overfitScore hne, sharpeRatio_eq]
  have hmean : mean (windows.map WindowResult.testPnl) /
      deviation R (windows.map WindowResult.testPnl) ≤ 0 :=
    div_nonpos_of_nonpos_of_nonneg
      (div_nonpos_of_nonpos_of_nonneg hloss (Nat.cast_nonneg _)) (R.sqrt_nonneg _)
  generalize htrain : (windows.map WindowResult.trainPnl).sum = train
  generalize htest : (windows.map WindowResult.testPnl).sum = test at hloss
  generalize hsharpe : mean (windows.map WindowResult.testPnl) /
    deviation R (windows.map WindowResult.testPnl) = sharpe at hmean
  have hwins := component_le (winRate windows)
  rcases lt_or_ge train 0 with hneg | hpos
  · have hratio : 0 ≤ test / train := div_nonneg_of_nonpos hloss hneg.le
    have hof : component (test / train * 100) = 100 * min 1 (test / train) := by
      rw [component, max_eq_right (le_min (by norm_num) (by positivity)),
        mul_min_of_nonneg _ _ (by norm_num), mul_one, mul_comm]
    have hsh : component ((sharpe + 1) * 50) = 50 * max 0 (1 + sharpe) := by
      rw [component, min_eq_right (by linarith), mul_max_of_nonneg _ _ (by norm_num), mul_zero]
      ring_nf
    rw [hof, hsh]
    constructor
    · intro h
      refine ⟨by rwa [htrain], by rwa [htest], ?_⟩
      rw [htrain, htest, hsharpe]
      linarith
    · intro h
      have hpoints := h.points
      rw [htrain, htest, hsharpe] at hpoints
      linarith
  · have hof : component (test / train * 100) = 0 := by
      apply component_of_nonpos
      have hratio : test / train ≤ 0 := div_nonpos_of_nonpos_of_nonneg hloss hpos
      linarith
    have hsh := component_le ((sharpe + 1) * 50)
    refine iff_of_false (fun h => ?_) fun h => ?_
    · rw [hof] at h
      linarith
    · have htrainNeg := h.train
      rw [htrain] at htrainNeg
      exact htrainNeg.not_ge hpos

/-- A better test result of a window never lowers the overfit component. -/
theorem overfitComponent_mono {before after : List (WindowResult K)} {w : WindowResult K} {x : K}
    (hx : w.testPnl ≤ x)
    (htrain : 0 < (aggregate R (before ++ w :: after)).avgTrainPnl) :
    overfitComponent (aggregate R (before ++ w :: after)) ≤
      overfitComponent (aggregate R (before ++ { w with testPnl := x } :: after)) := by
  have hne : before ++ w :: after ≠ [] := by simp
  have hne' : before ++ { w with testPnl := x } :: after ≠ [] := by simp
  have hsum : 0 < ((before ++ w :: after).map WindowResult.trainPnl).sum := by
    rw [aggregate, if_neg hne] at htrain
    exact (div_pos_iff_of_pos_right (by simp; positivity)).mp htrain
  rw [overfitComponent, overfitComponent, aggregate_overfitScore hne,
    aggregate_overfitScore hne']
  apply component_mono
  have hsame : ((before ++ { w with testPnl := x } :: after).map WindowResult.trainPnl).sum =
      ((before ++ w :: after).map WindowResult.trainPnl).sum := by simp
  have hmore : ((before ++ w :: after).map WindowResult.testPnl).sum ≤
      ((before ++ { w with testPnl := x } :: after).map WindowResult.testPnl).sum := by
    simpa using hx
  rw [hsame]
  gcongr

/-- The recommendation can be relied on unless training and test lose alike. -/
theorem robustMeansProfit_iff (R : Root K) (windows : List (WindowResult K)) :
    RobustMeansProfit R windows ↔ ¬ LosesAlike R windows := by
  constructor
  · intro h hloses
    have hne : windows ≠ [] := by
      rintro rfl
      exact lt_irrefl 0 hloses.train
    have hprofit := h.profitable ((robust_lossmaking_iff hne hloses.test).mpr hloses)
    rw [aggregate, if_neg hne] at hprofit
    exact hprofit.not_ge hloses.test
  · intro h
    refine ⟨fun hrobust => ?_, ?_⟩
    · have hne : windows ≠ [] := by
        rintro rfl
        have hempty : ([] : Text) = robust := hrobust
        exact absurd hempty (by decide)
      by_contra hnot
      have hloss : (windows.map WindowResult.testPnl).sum ≤ 0 := by
        rw [aggregate, if_neg hne] at hnot
        exact not_lt.mp hnot
      exact h ((robust_lossmaking_iff hne hloss).mp hrobust)
    · rintro before w after x rfl hx htrain
      exact overfitComponent_mono hx htrain

end Losing

/-- Square roots of squares. -/
def rationalRoot : Root ℚ where
  sqrt := Rat.sqrt
  sqrt_zero := by decide +kernel
  sqrt_nonneg := Rat.sqrt_nonneg

/-- Five windows that gain twenty each time are called robust, and can be relied on. -/
theorem robustMeansProfit_five_gains :
    (aggregate rationalRoot
        (List.replicate 5 (⟨20, 20, 60, 10⟩ : WindowResult ℚ))).recommendation = robust ∧
      RobustMeansProfit rationalRoot (List.replicate 5 (⟨20, 20, 60, 10⟩ : WindowResult ℚ)) :=
  ⟨by decide +kernel,
    (robustMeansProfit_iff rationalRoot _).mpr fun h => absurd h.train (by decide +kernel)⟩

/-- Five windows that lose twenty in training and thirty on unseen data are called robust. -/
theorem robust_of_five_losses :
    ¬ RobustMeansProfit rationalRoot
      (List.replicate 5 (⟨-20, -30, 40, 10⟩ : WindowResult ℚ)) := by
  intro h
  exact absurd (h.profitable (by decide +kernel)) (by decide +kernel)

end WalkForward
end Karsa
