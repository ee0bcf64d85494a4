import Karsa.Analytics.Performance
import Karsa.Foundations.Decimal
import Karsa.Foundations.Percentiles
import Mathlib.Algebra.BigOperators.Group.List.Basic
import Mathlib.Algebra.Order.BigOperators.Group.List
import Mathlib.Data.Rat.Floor
import Mathlib.Tactic.Linarith
import Mathlib.Tactic.NormNum

/-!
# Backtest - Monte Carlo resampling

`monte_carlo_resample` draws samples of the trades, and reports percentiles of their final
results, Sharpe ratios and drawdowns and how many of them end with a loss.  An edge is called
stable if fewer than a tenth do.

Main results:

- Theorem `curve_eq`: the drawdown of a sample is the performance report's.
- Theorem `pnl_percentile_neg_iff`: which percentiles of the final results are losses.
- Theorem `resample_ordered`: the figures of a result are in order.
- Theorem `edge_profits`: what a recommendation of an edge says about the samples.
-/

namespace Karsa
namespace MonteCarlo

open Percentiles

/-- `MonteCarloResult`; a profit factor of `none` is infinite. -/
structure MonteCarloResult where
  iterations : ℕ
  tradeCount : ℕ
  meanPnl : ℚ
  medianPnl : ℚ
  pnl5th : ℚ
  pnl95th : ℚ
  pnlStd : ℚ
  meanSharpe : ℚ
  sharpe5th : ℚ
  sharpe95th : ℚ
  meanMaxDd : ℚ
  maxDd95th : ℚ
  probabilityOfRuin : ℚ
  edgeIsStable : Bool
  profitFactor : Option ℚ
  expectancyPerTrade : ℚ
deriving Repr, DecidableEq

/-! ## One sample -/

/-- Locals of the loop over a sample. -/
structure Curve where
  cumulative : ℚ
  peak : ℚ
  maxDd : ℚ
deriving Repr, DecidableEq

/-- Body of the loop. -/
def Curve.observe (s : Curve) (pnl : ℚ) : Curve :=
  let cumulative := s.cumulative + pnl
  let peak := if s.peak < cumulative then cumulative else s.peak
  let dd := peak - cumulative
  ⟨cumulative, peak, if s.maxDd < dd then dd else s.maxDd⟩

/-- The curve of a sample. -/
def curve (sample : List ℚ) : Curve :=
  sample.foldl Curve.observe ⟨0, 0, 0⟩

/-- `cumulative` of a sample. -/
def finalPnl (sample : List ℚ) : ℚ :=
  (curve sample).cumulative

/-- `max_dd` of a sample. -/
def maxDrawdown (sample : List ℚ) : ℚ :=
  (curve sample).maxDd

section Resample

/- `math.sqrt`, and the choices of the generator: which trade is drawn in which place of which
sample. -/
variable (sqrt : ℚ → ℚ) (choice : ℕ → ℕ → ℕ)

/-- The mean of some values. -/
def mean (xs : List ℚ) (n : ℕ) : ℚ :=
  xs.sum / n

/-- The root of the mean square deviation of some values. -/
def deviation (xs : List ℚ) (n : ℕ) : ℚ :=
  sqrt ((xs.map fun x => (x - mean xs n) ^ 2).sum / n)

/-- `sharpe` of a sample. -/
def sharpe (sample : List ℚ) (nTrades : ℕ) : ℚ :=
  let stdR := if 1 < nTrades then deviation sqrt sample nTrades else 1
  if 0 < stdR then mean sample nTrades / stdR * sqrt 365 else 0

/-- A sample. -/
def sampleOf (tradePnls : List ℚ) (i : ℕ) : List ℚ :=
  (List.range tradePnls.length).map fun j =>
    tradePnls.getD (choice i j % tradePnls.length) 0

/-- The samples. -/
def samples (tradePnls : List ℚ) (nIterations : ℕ) : List (List ℚ) :=
  (List.range nIterations).map (sampleOf choice tradePnls)

/-- `ruin_count`. -/
def ruinCount (samples : List (List ℚ)) : ℕ :=
  below 0 (samples.map finalPnl)

/-- `profit_factor`. -/
def profitFactor (tradePnls : List ℚ) : Option ℚ :=
  let grossProfit := (tradePnls.filter fun p => decide (0 < p)).sum
  let grossLoss := ((tradePnls.filter fun p => decide (p < 0)).map fun p => |p|).sum
  if 0 < grossLoss then some (grossProfit / grossLoss) else none

/-- `round(x, 3)`. -/
def round3 (x : ℚ) : ℚ :=
  quantize (1 / 10 ^ 3) x

/-- `round(x, 4)`. -/
def round4 (x : ℚ) : ℚ :=
  quantize (1 / 10 ^ 4) x

/-- `monte_carlo_resample`, `none` for the division by zero iterations. -/
def monteCarloResample (tradePnls : List ℚ) (nIterations : ℕ) : Option MonteCarloResult :=
  if tradePnls = [] then some ⟨0, 0, 0, 0, 0, 0, 0, 0, 0, 0, 0, 0, 0, false, some 0, 0⟩
  else if nIterations = 0 then none
  else
    let nTrades := tradePnls.length
    let samples := samples choice tradePnls nIterations
    let finalPnls := sorted (samples.map finalPnl)
    let sharpes := sorted (samples.map fun sample => sharpe sqrt sample nTrades)
    let maxDds := sorted (samples.map maxDrawdown)
    let ruin : ℚ := ruinCount samples / nIterations
    some
      { iterations := nIterations
        tradeCount := nTrades
        meanPnl := round4 (mean finalPnls nIterations)
        medianPnl := round4 (percentile finalPnls (1 / 2 : ℚ))
        pnl5th := round4 (percentile finalPnls (5 / 100 : ℚ))
        pnl95th := round4 (percentile finalPnls (95 / 100 : ℚ))
        pnlStd := round4 (deviation sqrt finalPnls nIterations)
        meanSharpe := round3 (mean sharpes nIterations)
        sharpe5th := round3 (percentile sharpes (5 / 100 : ℚ))
        sharpe95th := round3 (percentile sharpes (95 / 100 : ℚ))
        meanMaxDd := round4 (mean maxDds nIterations)
        maxDd95th := round4 (percentile maxDds (95 / 100 : ℚ))
        probabilityOfRuin := round4 ruin
        edgeIsStable := decide (ruin < 10 / 100)
        profitFactor := (profitFactor tradePnls).map round3
        expectancyPerTrade := quantize (1 / 10 ^ 6) (tradePnls.sum / nTrades) }

end Resample

/-- The recommendations. -/
inductive Recommendation where
  | INSUFFICIENT_DATA
  | STRONG_EDGE
  | WEAK_EDGE
  | NO_EDGE
  | MARGINAL_EDGE
deriving Repr, DecidableEq

/-- `_recommendation`, without the text behind its name. -/
def recommendation (result : MonteCarloResult) : Recommendation :=
  if result.tradeCount < 30 then .INSUFFICIENT_DATA
  else if result.edgeIsStable && decide (1 < result.meanSharpe) then .STRONG_EDGE
  else if result.edgeIsStable && decide (0 < result.meanSharpe) then .WEAK_EDGE
  else if 3 / 10 < result.probabilityOfRuin then .NO_EDGE
  else .MARGINAL_EDGE

/-! ## The curve of a sample -/

/-- A curve has the figures of the performance report's loop. -/
def Curve.Like (s : Curve) (d : Performance.DrawdownLoop) : Prop :=
  s.cumulative = d.equity ∧ s.peak = d.peak ∧ s.maxDd = d.maxDd

/-- Both loops take in a result alike. -/
theorem Curve.Like.observe {s : Curve} {d : Performance.DrawdownLoop} (h : s.Like d) (pnl : ℚ) :
    (s.observe pnl).Like (d.observe pnl) := by
  rcases h with ⟨hcumulative, hpeak, hmaxDd⟩
  have hmax : (if s.peak < s.cumulative + pnl then s.cumulative + pnl else s.peak) =
      max d.peak (d.equity + pnl) := by
    rw [hcumulative, hpeak]
    split_ifs with hlt
    · exact (max_eq_right hlt.le).symm
    · exact (max_eq_left (not_lt.mp hlt)).symm
  rw [Curve.observe, Performance.DrawdownLoop.observe]
  rw [hmax, hcumulative, hmaxDd]
  split_ifs <;> exact ⟨rfl, rfl, rfl⟩

/-- The two loops on a sample. -/
theorem curve_like (sample : List ℚ) :
    (curve sample).Like (Performance.computeDrawdown sample) := by
  have hfold : ∀ (xs : List ℚ) (s : Curve) (d : Performance.DrawdownLoop), s.Like d →
      (xs.foldl Curve.observe s).Like (xs.foldl Performance.DrawdownLoop.observe d) := by
    intro xs
    induction xs with
    | nil => exact fun s d h => h
    | cons pnl rest ih => exact fun s d h => ih _ _ (h.observe pnl)
  exact hfold sample _ _ ⟨rfl, rfl, rfl⟩

/-- Both loops find the same drawdown. -/
theorem maxDd_eq (sample : List ℚ) :
    maxDrawdown sample = (Performance.computeDrawdown sample).maxDd :=
  (curve_like sample).2.2

/-- The drawdown of a sample is the largest fall between two of its sums. -/
theorem isGreatest_maxDrawdown (sample : List ℚ) :
    IsGreatest {d | ∃ i j, i ≤ j ∧ j ≤ sample.length ∧
      d = (sample.take i).sum - (sample.take j).sum} (maxDrawdown sample) := by
  rw [maxDd_eq, Performance.computeDrawdown_eq]
  exact isGreatest_fall (Performance.equityAt sample) sample.length

/-- The final result is the sum of the sample. -/
theorem finalPnl_eq (sample : List ℚ) : finalPnl sample = sample.sum := by
  have hequity : finalPnl sample = (Performance.computeDrawdown sample).equity :=
    (curve_like sample).1
  rw [hequity, Performance.computeDrawdown_eq]
  exact congrArg List.sum List.take_length

/-- The final result is the sum of the sample, and the drawdown is the performance report's: the
largest fall between two of its sums. -/
theorem curve_eq (sample : List ℚ) :
    finalPnl sample = sample.sum ∧
      maxDrawdown sample = (Performance.computeDrawdown sample).maxDd ∧
      IsGreatest {d | ∃ i j, i ≤ j ∧ j ≤ sample.length ∧
        d = (sample.take i).sum - (sample.take j).sum} (maxDrawdown sample) :=
  ⟨finalPnl_eq sample, maxDd_eq sample, isGreatest_maxDrawdown sample⟩

/-- No drawdown is negative, nor less than the loss of the sample. -/
theorem maxDrawdown_ge (sample : List ℚ) :
    0 ≤ maxDrawdown sample ∧ -finalPnl sample ≤ maxDrawdown sample := by
  have hgreatest := (isGreatest_maxDrawdown sample).2
  constructor
  · exact hgreatest ⟨0, 0, le_rfl, Nat.zero_le _, by simp⟩
  · refine hgreatest ⟨0, sample.length, Nat.zero_le _, le_rfl, ?_⟩
    rw [finalPnl_eq, List.take_length, List.take_zero, List.sum_nil, zero_sub]

/-! ## The figures of a result -/

section Results

variable {sqrt : ℚ → ℚ} {choice : ℕ → ℕ → ℕ} {tradePnls : List ℚ} {nIterations : ℕ}

/-- The number of samples. -/
@[simp] theorem length_samples :
    (samples choice tradePnls nIterations).length = nIterations := by
  rw [samples, List.length_map, List.length_range]

/-- The sorted figures of the samples are not empty. -/
theorem sorted_samples_ne_nil (hiterations : nIterations ≠ 0) (figure : List ℚ → ℚ) :
    sorted ((samples choice tradePnls nIterations).map figure) ≠ [] := by
  intro hnil
  have hlength := congrArg List.length hnil
  rw [length_sorted, List.length_map, length_samples, List.length_nil] at hlength
  exact hiterations hlength

/-- A percentile of the final results is a loss if more samples than its rank end with a loss. -/
theorem pnl_percentile_neg_iff (hiterations : nIterations ≠ 0) (p : ℚ) :
    percentile (sorted ((samples choice tradePnls nIterations).map finalPnl)) p < 0 ↔
      rank nIterations p < ruinCount (samples choice tradePnls nIterations) := by
  rw [percentile_lt_iff (pairwise_sorted _) (sorted_samples_ne_nil hiterations finalPnl),
    length_sorted, List.length_map, length_samples, below_sorted, ruinCount]

/-- Rounding keeps the order. -/
theorem round4_mono {x y : ℚ} (h : x ≤ y) : round4 x ≤ round4 y :=
  quantize_mono (by norm_num) h

/-- Rounding is the same on both sides of zero. -/
theorem round4_neg (x : ℚ) : round4 (-x) = -round4 x := by
  have hround := roundHalfEven_intCast_sub (n := 0) rfl (x / (1 / 10 ^ 4))
  rw [Int.cast_zero, zero_sub, zero_sub] at hround
  rw [round4, round4, quantize, quantize, neg_div, hround, Int.cast_neg, neg_mul]

/-- Of the ranks of the two tails, at most one value lies in neither. -/
theorem rank_tails (n : ℕ) : n ≤ rank n (95 / 100 : ℚ) + rank n (5 / 100 : ℚ) + 1 := by
  have hhigh := Int.lt_floor_add_one ((n : ℚ) * (95 / 100))
  have hlow := Int.lt_floor_add_one ((n : ℚ) * (5 / 100))
  have hsum : (n : ℤ) < ⌊(n : ℚ) * (95 / 100)⌋ + ⌊(n : ℚ) * (5 / 100)⌋ + 2 := by
    have hcast : (n : ℚ) < ⌊(n : ℚ) * (95 / 100)⌋ + ⌊(n : ℚ) * (5 / 100)⌋ + 2 := by linarith
    exact_mod_cast hcast
  have hhigh0 : 0 ≤ ⌊(n : ℚ) * (95 / 100)⌋ := Int.floor_nonneg.mpr (by positivity)
  have hlow0 : 0 ≤ ⌊(n : ℚ) * (5 / 100)⌋ := Int.floor_nonneg.mpr (by positivity)
  rw [rank, rank]
  omega

/-- The drawdown at the ninety-fifth percentile is at least the loss at the fifth. -/
theorem neg_percentile_le (hiterations : nIterations ≠ 0) :
    -percentile (sorted ((samples choice tradePnls nIterations).map finalPnl)) (5 / 100 : ℚ) ≤
      percentile (sorted ((samples choice tradePnls nIterations).map maxDrawdown))
        (95 / 100 : ℚ) := by
  by_contra hlt
  rw [not_le] at hlt
  have hfinal : sorted ((samples choice tradePnls nIterations).map finalPnl) ≠ [] :=
    sorted_samples_ne_nil hiterations finalPnl
  have hhigh := (percentile_lt_iff (pairwise_sorted _)
    (sorted_samples_ne_nil hiterations maxDrawdown) _).mp hlt
  have hlow := rank_lt_atMost (pairwise_sorted _) hfinal (5 / 100 : ℚ)
  generalize percentile (sorted ((samples choice tradePnls nIterations).map finalPnl))
    (5 / 100 : ℚ) = c at hhigh hlow
  rw [length_sorted, List.length_map, length_samples, below_sorted, below, List.countP_map]
    at hhigh
  rw [length_sorted, List.length_map, length_samples, (sorted_perm _).countP_eq,
    List.countP_map] at hlow
  -- a sample whose drawdown is less than a loss ends above it
  have habove : (samples choice tradePnls nIterations).countP
        ((fun x => decide (x < -c)) ∘ maxDrawdown) ≤
      (samples choice tradePnls nIterations).countP
        fun sample => decide (¬ ((fun x => decide (x ≤ c)) ∘ finalPnl) sample = true) := by
    refine List.countP_mono_left fun sample _ hsample => ?_
    have hdrawdown := (maxDrawdown_ge sample).2
    have hsmall : maxDrawdown sample < -c := of_decide_eq_true hsample
    have hgain : ¬ finalPnl sample ≤ c := not_le.mpr (by linarith)
    simpa using hgain
  have hall := List.length_eq_countP_add_countP (l := samples choice tradePnls nIterations)
    (p := (fun x => decide (x ≤ c)) ∘ finalPnl)
  rw [length_samples] at hall
  have htails := rank_tails nIterations
  omega

/-- What the report says of the samples is in order: the percentiles rise, the drawdowns are not
negative and the one at the ninety-fifth percentile is at least the loss at the fifth, and the
probability of ruin is a probability. -/
structure Ordered (r : MonteCarloResult) : Prop where
  pnl : r.pnl5th ≤ r.medianPnl ∧ r.medianPnl ≤ r.pnl95th
  sharpe : r.sharpe5th ≤ r.sharpe95th
  drawdown : 0 ≤ r.maxDd95th ∧ -r.pnl5th ≤ r.maxDd95th
  ruin : 0 ≤ r.probabilityOfRuin ∧ r.probabilityOfRuin ≤ 1

/-- A multiple of the last place is a rounded figure. -/
theorem round4_eq_self {x : ℚ} (n : ℤ) (hx : n * (1 / 10 ^ 4) = x) : round4 x = x := by
  rw [← hx]
  exact quantize_mul_step (by norm_num) n

theorem round4_zero : round4 0 = 0 :=
  round4_eq_self 0 (by norm_num)

theorem round4_one : round4 1 = 1 :=
  round4_eq_self 10000 (by norm_num)

/-- The share of samples that end with a loss. -/
theorem ruin_mem (hiterations : nIterations ≠ 0) :
    0 ≤ (ruinCount (samples choice tradePnls nIterations) : ℚ) / nIterations ∧
      (ruinCount (samples choice tradePnls nIterations) : ℚ) / nIterations ≤ 1 := by
  have hle : ruinCount (samples choice tradePnls nIterations) ≤ nIterations := by
    have hlength := below_le_length 0 ((samples choice tradePnls nIterations).map finalPnl)
    rwa [List.length_map, length_samples] at hlength
  refine ⟨by positivity, div_le_one_of_le₀ ?_ (Nat.cast_nonneg _)⟩
  exact_mod_cast hle

/-- No percentile of the drawdowns is negative. -/
theorem drawdown_percentile_nonneg (hiterations : nIterations ≠ 0) (p : ℚ) :
    0 ≤ percentile (sorted ((samples choice tradePnls nIterations).map maxDrawdown)) p := by
  rw [← not_lt, percentile_lt_iff (pairwise_sorted _)
    (sorted_samples_ne_nil hiterations maxDrawdown), below_sorted, below,
    List.countP_eq_zero.mpr]
  · exact Nat.not_lt_zero _
  · intro d hd
    rcases List.mem_map.mp hd with ⟨sample, -, rfl⟩
    rw [decide_eq_true_eq, not_lt]
    exact (maxDrawdown_ge sample).1

/-- The figures of every result are in order. -/
theorem resample_ordered {r : MonteCarloResult}
    (h : monteCarloResample sqrt choice tradePnls nIterations = some r) : Ordered r := by
  rw [monteCarloResample] at h
  split_ifs at h with hnil hzero
  · rw [← Option.some.inj h]
    exact ⟨by norm_num, by norm_num, by norm_num, by norm_num⟩
  · have hpnl : sorted ((samples choice tradePnls nIterations).map finalPnl) ≠ [] :=
      sorted_samples_ne_nil hzero finalPnl
    have hruin : 0 ≤ (ruinCount (samples choice tradePnls nIterations) : ℚ) / nIterations ∧
        (ruinCount (samples choice tradePnls nIterations) : ℚ) / nIterations ≤ 1 := ruin_mem hzero
    rw [← Option.some.inj h]
    refine ⟨⟨round4_mono ?_, round4_mono ?_⟩, quantize_mono (by norm_num) ?_, ⟨?_, ?_⟩, ?_, ?_⟩
    · exact percentile_mono (pairwise_sorted _) hpnl (by norm_num)
    · exact percentile_mono (pairwise_sorted _) hpnl (by norm_num)
    · exact percentile_mono (pairwise_sorted _) (sorted_samples_ne_nil hzero _) (by norm_num)
    · rw [← round4_zero]
      exact round4_mono (drawdown_percentile_nonneg hzero _)
    · rw [← round4_neg]
      exact round4_mono (neg_percentile_le hzero)
    · rw [← round4_zero]
      exact round4_mono hruin.1
    · rw [← round4_one]
      exact round4_mono hruin.2

/-- Thirty trades that win three or lose one in turn. -/
def mixed : List ℚ :=
  (List.range 30).map fun i => if i % 2 = 0 then 3 else -1

/-- Every sample wins once more than the one before it, the first a given number of times. -/
def rising (wins i j : ℕ) : ℕ :=
  if j < i + wins then 0 else 1

/-- A root to ten digits behind the point. -/
def rootTo10 (x : ℚ) : ℚ :=
  Nat.sqrt ⌊x * 10 ^ 20⌋.toNat / 10 ^ 10

/-- Twenty samples, of which the first wins nothing and eight end with a loss. -/
theorem resample_ordered_mixed :
    ∃ r, monteCarloResample rootTo10 (rising 0) mixed 20 = some r ∧
      r.pnl5th = -26 ∧ r.medianPnl = 10 ∧ r.pnl95th = 46 ∧ r.sharpe5th < 0 ∧ 0 < r.sharpe95th ∧
      r.maxDd95th = 30 ∧ r.probabilityOfRuin = 2 / 5 ∧ Ordered r := by
  have hpnls : sorted ((samples (rising 0) mixed 20).map finalPnl) =
      (List.range 20).map fun i => 4 * (i : ℚ) - 30 :=
    sorted_eq (by decide +kernel) (by decide +kernel)
  have hsharpes : sorted ((samples (rising 0) mixed 20).map
        fun sample => sharpe rootTo10 sample mixed.length) =
      ([1, 2, 3, 4, 5, 6, 7, 0, 8, 9, 10, 11, 12, 13, 14, 15, 16, 17, 18, 19].map
        (sampleOf (rising 0) mixed)).map fun sample => sharpe rootTo10 sample mixed.length :=
    sorted_eq (((by decide : List.Perm (List.range 20) _).map _).map _) (by decide +kernel)
  have hdrawdowns : sorted ((samples (rising 0) mixed 20).map maxDrawdown) =
      (List.range 20).map fun i => (i : ℚ) + 11 :=
    sorted_eq (by decide +kernel) (by decide +kernel)
  have hsome : (monteCarloResample rootTo10 (rising 0) mixed 20).isSome = true := rfl
  rcases Option.isSome_iff_exists.mp hsome with ⟨r, hr⟩
  have hordered := resample_ordered hr
  refine ⟨r, hr, ?_⟩
  rw [monteCarloResample, if_neg (by decide), if_neg (by decide)] at hr
  dsimp only at hr
  rw [hpnls, hsharpes, hdrawdowns] at hr
  rw [← Option.some.inj hr] at hordered ⊢
  refine ⟨?_, ?_, ?_, ?_, ?_, ?_, ?_, hordered⟩
  all_goals decide +kernel

/-! ## Recommendations -/

/-- Below a tenth of the samples there is room for fewer losses than a tenth. -/
theorem ruin_le_rank {n ruin : ℕ} (hn : n ≠ 0) (hruin : (ruin : ℚ) / n < 10 / 100) {p : ℚ}
    (hp : 1 / 10 ≤ p) : ruin ≤ rank n p := by
  have hpos : (0 : ℚ) < n := by exact_mod_cast Nat.pos_of_ne_zero hn
  rw [div_lt_iff₀ hpos] at hruin
  have hfloor : (ruin : ℤ) ≤ ⌊(n : ℚ) * p⌋ := by
    rw [Int.le_floor, Int.cast_natCast]
    have hmul := mul_le_mul_of_nonneg_left hp hpos.le
    linarith
  have hlast : ruin < n := by
    have hcast : (ruin : ℚ) < n := by linarith
    exact_mod_cast hcast
  rw [rank]
  omega

/-- Where the recommendation is an edge there are at least thirty trades, fewer than a tenth of
the samples end with a loss, and so neither the tenth percentile of the final results nor any
above it is a loss. -/
theorem edge_profits {r : MonteCarloResult}
    (h : monteCarloResample sqrt choice tradePnls nIterations = some r)
    (hedge : recommendation r = .STRONG_EDGE ∨ recommendation r = .WEAK_EDGE) :
    30 ≤ tradePnls.length ∧ r.probabilityOfRuin ≤ 1 / 10 ∧ 0 ≤ r.medianPnl ∧
      10 * ruinCount (samples choice tradePnls nIterations) < nIterations ∧
      ∀ p : ℚ, 1 / 10 ≤ p →
        0 ≤ percentile (sorted ((samples choice tradePnls nIterations).map finalPnl)) p := by
  have hstable : 30 ≤ r.tradeCount ∧ r.edgeIsStable = true := by
    rw [recommendation] at hedge
    split_ifs at hedge with hfew hstrong hweak hruin
    · simp at hedge
    · exact ⟨not_lt.mp hfew, ((Bool.and_eq_true _ _).mp hstrong).1⟩
    · exact ⟨not_lt.mp hfew, ((Bool.and_eq_true _ _).mp hweak).1⟩
    · simp at hedge
    · simp at hedge
  rw [monteCarloResample] at h
  split_ifs at h with hnil hzero
  · rw [← Option.some.inj h] at hstable
    exact absurd hstable.1 (by norm_num)
  · rw [← Option.some.inj h] at hstable ⊢
    have hruin : (ruinCount (samples choice tradePnls nIterations) : ℚ) / nIterations <
        10 / 100 := of_decide_eq_true hstable.2
    have hprofit : ∀ p : ℚ, 1 / 10 ≤ p →
        0 ≤ percentile (sorted ((samples choice tradePnls nIterations).map finalPnl)) p := by
      intro p hp
      rw [← not_lt, pnl_percentile_neg_iff hzero, not_lt]
      exact ruin_le_rank hzero hruin hp
    have hpos : (0 : ℚ) < nIterations := by exact_mod_cast Nat.pos_of_ne_zero hzero
    refine ⟨hstable.1, ?_, ?_, ?_, hprofit⟩
    · have htenth : round4 (1 / 10) = 1 / 10 := round4_eq_self 1000 (by norm_num)
      rw [← htenth]
      exact round4_mono (by linarith)
    · rw [← round4_zero]
      exact round4_mono (hprofit (1 / 2) (by norm_num))
    · rw [div_lt_iff₀ hpos] at hruin
      have hcast : 10 * (ruinCount (samples choice tradePnls nIterations) : ℚ) < nIterations := by
        linarith
      exact_mod_cast hcast

end Results

/-- Twenty samples, of which the first wins seven times and ends with the only loss. -/
theorem edge_profits_mixed :
    ruinCount (samples (rising 7) mixed 20) = 1 ∧
      ∃ r, monteCarloResample rootTo10 (rising 7) mixed 20 = some r ∧
        recommendation r = .STRONG_EDGE ∧ 30 ≤ mixed.length ∧ r.probabilityOfRuin ≤ 1 / 10 ∧
        0 ≤ r.medianPnl ∧ 10 * ruinCount (samples (rising 7) mixed 20) < 20 ∧
        ∀ p : ℚ, 1 / 10 ≤ p →
          0 ≤ percentile (sorted ((samples (rising 7) mixed 20).map finalPnl)) p := by
  have hsharpes : sorted ((samples (rising 7) mixed 20).map
        fun sample => sharpe rootTo10 sample mixed.length) =
      (samples (rising 7) mixed 20).map fun sample => sharpe rootTo10 sample mixed.length :=
    sorted_eq (List.Perm.refl _) (by decide +kernel)
  have hsome : (monteCarloResample rootTo10 (rising 7) mixed 20).isSome = true := rfl
  rcases Option.isSome_iff_exists.mp hsome with ⟨r, hr⟩
  have hstrong : recommendation r = .STRONG_EDGE := by
    rw [monteCarloResample, if_neg (by decide), if_neg (by decide)] at hr
    dsimp only at hr
    rw [hsharpes] at hr
    rw [← Option.some.inj hr]
    decide +kernel
  exact ⟨by decide +kernel, r, hr, hstrong, edge_profits hr (Or.inl hstrong)⟩

end MonteCarlo
end Karsa
