import Karsa.Risk.KellySizer

/-!
# Risk - The sizing pipeline

The share of the wallet that a trade may lose passes from the Kelly stage through the drawdown
and the uncertainty stage.  Each stage rounds to four digits and bounds what it returns, and each
keeps the order of what it is given.  A drawdown is only looked at for a positive peak and equity,
and a payoff ratio only for positive averages.

Main results:

- Definition `applyDrawdownAdaptive`, `sizedRiskPct`: the drawdown stage of the sizer and the
  pipeline.
- Theorem `drawdownAdaptive_eq`: the drawdown stage that `_build_signal` has of its own.
- Theorem `sizingLaw`: the pipeline is bounded and monotone.
-/

namespace Karsa
namespace Risk

/-! ## The pipeline -/

/-- `KellySizer.apply_drawdown_adaptive`. -/
def applyDrawdownAdaptive (s : SizingSettings) (pct : RiskPct) (currentEquity equityPeak : ℚ) :
    RiskPct :=
  if equityPeak ≤ 0 ∨ currentEquity ≤ 0 then pct
  else
    let drawdown := (equityPeak - currentEquity) / equityPeak
    if s.ddSevereThreshold < drawdown then pct.scale s.ddSevereMult
    else if s.ddModerateThreshold < drawdown then pct.scale s.ddModerateMult
    else if drawdown < s.ddNearPeakThreshold then pct.scale s.ddNearPeakMult
    else pct

/-- The three stages of the sizer. -/
def sizedRiskPct (s : SizingSettings) (stats : TradeStats) (fallbackScore currentEquity
    equityPeak : ℚ) (winRateHistory : List ℚ) : RiskPct :=
  applyUncertaintyAdjustment s
    (applyDrawdownAdaptive s (calculateRiskPct stats fallbackScore) currentEquity equityPeak)
    stats.wins stats.losses winRateHistory

/-- `KellySizer()`, with the settings its uncertainty stage reads. -/
def kellySizer (uncertaintyFactor : ℚ) (minTradesForConfidence : ℕ) (varianceThreshold : ℚ) :
    SizingSettings :=
  { SizingSettings.default with
    uncertaintyFactor := uncertaintyFactor
    minTradesForConfidence := minTradesForConfidence
    varianceThreshold := varianceThreshold }

/-! ## Order of shares -/

namespace RiskPct

theorem ext_value {pct pct' : RiskPct} (h : pct.value = pct'.value) : pct = pct' := by
  cases pct
  cases pct'
  cases h
  rfl

/-- Bounding keeps the order. -/
theorem bound_mono {x y : ℚ} (h : x ≤ y) : (bound x).value ≤ (bound y).value :=
  max_le_max le_rfl (min_le_min le_rfl h)

/-- So does rounding before it. -/
theorem bound_quantize_mono {x y : ℚ} (h : x ≤ y) :
    (bound (quantize (1 / 10000) x)).value ≤ (bound (quantize (1 / 10000) y)).value :=
  bound_mono (quantize_mono (by norm_num) h)

/-- A greater factor gives a greater share. -/
theorem scale_mono_factor (pct : RiskPct) {factor factor' : ℚ} (h : factor ≤ factor') :
    (pct.scale factor).value ≤ (pct.scale factor').value :=
  bound_quantize_mono (mul_le_mul_of_nonneg_left h pct.pos.le)

/-- A negative factor leaves the floor. -/
theorem scale_of_neg (pct : RiskPct) {factor : ℚ} (h : factor < 0) :
    (pct.scale factor).value = minRiskPct := by
  have hzero : quantize (1 / 10000) (0 : ℚ) = 0 := by
    have hmul := quantize_mul_step (show (1 / 10000 : ℚ) ≠ 0 by norm_num) 0
    rwa [Int.cast_zero, zero_mul] at hmul
  have hbelow : quantize (1 / 10000) (pct.value * factor) ≤ 0 := by
    rw [← hzero]
    exact quantize_mono (by norm_num) (mul_neg_of_pos_of_neg pct.pos h).le
  apply max_eq_left
  calc
    min maxRiskPct (quantize (1 / 10000) (pct.value * factor)) ≤ 0 :=
      (min_le_right _ _).trans hbelow
    _ ≤ minRiskPct := by norm_num [minRiskPct]

/-- A greater share stays the greater one under every factor. -/
theorem scale_mono {pct pct' : RiskPct} (h : pct.value ≤ pct'.value) (factor : ℚ) :
    (pct.scale factor).value ≤ (pct'.scale factor).value := by
  rcases lt_or_ge factor 0 with hneg | hnonneg
  · rw [scale_of_neg pct hneg, scale_of_neg pct' hneg]
  · exact bound_quantize_mono (mul_le_mul_of_nonneg_right h hnonneg)

/-- Rounding does not make up for half of a share. -/
theorem scale_half_le (pct : RiskPct) : (pct.scale (50 / 100)).value ≤ pct.value := by
  have hstep : (0 : ℚ) < 1 / 10000 := by norm_num
  have hround := (abs_le.mp (abs_quantize_sub_le hstep (pct.value * (50 / 100)))).2
  have hfloor := pct.floor
  rw [minRiskPct] at hfloor
  refine max_le pct.floor ((min_le_right _ _).trans ?_)
  linarith

/-- Nor does it take a quarter more away. -/
theorem le_scale_near_peak (pct : RiskPct) : pct.value ≤ (pct.scale (125 / 100)).value := by
  have hstep : (0 : ℚ) < 1 / 10000 := by norm_num
  have hround := (abs_le.mp (abs_quantize_sub_le hstep (pct.value * (125 / 100)))).1
  have hfloor := pct.floor
  rw [minRiskPct] at hfloor
  refine le_max_of_le_right (le_min pct.ceiling ?_)
  linarith

end RiskPct

/-! ## The Kelly stage -/

theorem minRiskPct_le_maxRiskPct : minRiskPct ≤ maxRiskPct := by
  norm_num [minRiskPct, maxRiskPct]

/-- Share of a full Kelly fraction. -/
def kellyShare (fullKelly : ℚ) : RiskPct :=
  if fullKelly ≤ 0 then ⟨minRiskPct, le_rfl, minRiskPct_le_maxRiskPct⟩
  else .bound (quantize (1 / 10000) (fullKelly * kellyFraction))

/-- `full_kelly` of a win rate and a payoff ratio. -/
def fullKelly (winRate payoffRatio : ℚ) : ℚ :=
  winRate - (1 - winRate) / payoffRatio

/-- With enough trades and positive averages the stage returns the share of their Kelly
fraction. -/
theorem calculateRiskPct_eq {stats : TradeStats} (htotal : minTrades ≤ stats.wins + stats.losses)
    (hwin : 0 < stats.avgWin) (hloss : 0 < stats.avgLoss) (score : ℚ) :
    calculateRiskPct stats score =
      kellyShare (fullKelly (stats.wins / (stats.wins + stats.losses : ℕ))
        (stats.avgWin / stats.avgLoss)) := by
  have hkelly : ¬ (stats.wins + stats.losses < minTrades ∨ stats.avgLoss ≤ 0 ∨
      stats.avgWin ≤ 0) := by
    rintro (hfew | hloss' | hwin')
    · omega
    · exact hloss'.not_gt hloss
    · exact hwin'.not_gt hwin
  unfold calculateRiskPct
  dsimp only
  rw [if_neg hkelly]
  rfl

theorem kellyShare_mono {k k' : ℚ} (h : k ≤ k') : (kellyShare k).value ≤ (kellyShare k').value := by
  unfold kellyShare
  by_cases hneg : k ≤ 0
  · rw [if_pos hneg]
    exact RiskPct.floor _
  · rw [if_neg hneg, if_neg fun hneg' => hneg (h.trans hneg')]
    exact RiskPct.bound_quantize_mono (mul_le_mul_of_nonneg_right h (by norm_num [kellyFraction]))

/-- More wins raise the Kelly fraction. -/
theorem fullKelly_mono_winRate {w w' r : ℚ} (hr : 0 < r) (h : w ≤ w') :
    fullKelly w r ≤ fullKelly w' r := by
  have hloss : (1 - w') / r ≤ (1 - w) / r := div_le_div_of_nonneg_right (by linarith) hr.le
  unfold fullKelly
  linarith

/-- So does a better payoff. -/
theorem fullKelly_mono_payoff {w r r' : ℚ} (hw : w ≤ 1) (hr : 0 < r) (h : r ≤ r') :
    fullKelly w r ≤ fullKelly w r' := by
  have hloss : (1 - w) / r' ≤ (1 - w) / r := div_le_div_of_nonneg_left (by linarith) hr h
  unfold fullKelly
  linarith

/-! ## The drawdown stage -/

/-- The drawdown stage of the default bands by the drawdown. -/
def bandedRiskPct (pct : RiskPct) (drawdown : ℚ) : RiskPct :=
  if 10 / 100 < drawdown then pct.scale (25 / 100)
  else if 5 / 100 < drawdown then pct.scale (50 / 100)
  else if drawdown < 2 / 100 then pct.scale (125 / 100)
  else pct

/-- A deeper drawdown gives no greater share. -/
theorem bandedRiskPct_anti (pct : RiskPct) {drawdown drawdown' : ℚ} (h : drawdown ≤ drawdown') :
    (bandedRiskPct pct drawdown').value ≤ (bandedRiskPct pct drawdown).value := by
  have hsevere : (pct.scale (25 / 100)).value ≤ (pct.scale (50 / 100)).value :=
    pct.scale_mono_factor (by norm_num)
  have hmoderate := pct.scale_half_le
  have hnear := pct.le_scale_near_peak
  unfold bandedRiskPct
  split_ifs <;> first | exact le_rfl | linarith

/-- The stage with the default bands. -/
theorem applyDrawdownAdaptive_eq (u : ℚ) (n : ℕ) (v : ℚ) (pct : RiskPct) {equity peak : ℚ}
    (hequity : 0 < equity) (hpeak : 0 < peak) :
    applyDrawdownAdaptive (kellySizer u n v) pct equity peak =
      bandedRiskPct pct ((peak - equity) / peak) := by
  have hlooked : ¬ (peak ≤ 0 ∨ equity ≤ 0) := by
    rintro (hp | he)
    · exact hp.not_gt hpeak
    · exact he.not_gt hequity
  unfold applyDrawdownAdaptive
  rw [if_neg hlooked]
  rfl

/-- A share of four digits. -/
def FourDigits (pct : RiskPct) : Prop :=
  ∃ n : ℤ, pct.value = (n : ℚ) * (1 / 10000)

/-- Rounding leaves it. -/
theorem FourDigits.scale_one {pct : RiskPct} (h : FourDigits pct) : pct.scale 1 = pct := by
  rcases h with ⟨n, hn⟩
  have hround : quantize (1 / 10000) pct.value = pct.value := by
    rw [hn]
    exact quantize_mul_step (by norm_num) n
  apply RiskPct.ext_value
  unfold RiskPct.scale RiskPct.bound
  dsimp only
  rw [mul_one, hround, min_eq_right pct.ceiling, max_eq_right pct.floor]

/-- The first stage returns one. -/
theorem calculateRiskPct_fourDigits (stats : TradeStats) (score : ℚ) :
    FourDigits (calculateRiskPct stats score) := by
  have hfallback : FourDigits (fallbackRiskPct score) := by
    unfold fallbackRiskPct FourDigits
    split_ifs
    · exact ⟨150, by norm_num⟩
    · exact ⟨100, by norm_num⟩
    · exact ⟨50, by norm_num⟩
  unfold calculateRiskPct
  dsimp only
  split_ifs
  · exact hfallback
  · exact ⟨50, by norm_num [minRiskPct]⟩
  · unfold RiskPct.bound FourDigits
    dsimp only
    rcases max_choice minRiskPct (min maxRiskPct (quantize (1 / 10000)
      (((stats.wins : ℚ) / (stats.wins + stats.losses : ℕ) -
        (1 - (stats.wins : ℚ) / (stats.wins + stats.losses : ℕ)) /
          (stats.avgWin / stats.avgLoss)) * kellyFraction))) with hmax | hmax
    · exact ⟨50, by rw [hmax]; norm_num [minRiskPct]⟩
    · rw [hmax]
      rcases min_choice maxRiskPct (quantize (1 / 10000)
        (((stats.wins : ℚ) / (stats.wins + stats.losses : ℕ) -
          (1 - (stats.wins : ℚ) / (stats.wins + stats.losses : ℕ)) /
            (stats.avgWin / stats.avgLoss)) * kellyFraction)) with hmin | hmin
      · exact ⟨200, by rw [hmin]; norm_num [maxRiskPct]⟩
      · rw [hmin]
        exact ⟨_, rfl⟩

/-- The drawdown stage that `_build_signal` writes out is that of the sizer, at the raised
peak. -/
theorem drawdownAdaptive_eq (s : SizingSettings) (stats : TradeStats) (score : ℚ)
    (storedPeak equity : ℚ) :
    drawdownAdaptive s (calculateRiskPct stats score) storedPeak equity =
      applyDrawdownAdaptive s (calculateRiskPct stats score) equity
        (if storedPeak < equity then equity else storedPeak) := by
  unfold drawdownAdaptive applyDrawdownAdaptive
  dsimp only
  generalize (if storedPeak < equity then equity else storedPeak) = peak
  by_cases hlooked : 0 < peak ∧ 0 < equity
  · have hskip : ¬ (peak ≤ 0 ∨ equity ≤ 0) := by
      rintro (hp | he)
      · exact hp.not_gt hlooked.1
      · exact he.not_gt hlooked.2
    rw [if_pos hlooked, if_neg hskip]
    unfold drawdownMultiplier
    split_ifs
    · rfl
    · rfl
    · rfl
    · exact (calculateRiskPct_fourDigits stats score).scale_one
  · rw [if_neg hlooked, if_pos]
    rw [not_and_or, not_lt, not_lt] at hlooked
    exact hlooked

/-! ## The uncertainty stage -/

/-- The uncertainty stage keeps the order, as it looks at the trades alone. -/
theorem applyUncertaintyAdjustment_mono (s : SizingSettings) {pct pct' : RiskPct}
    (h : pct.value ≤ pct'.value) (wins losses : ℕ) (history : List ℚ) :
    (applyUncertaintyAdjustment s pct wins losses history).value ≤
      (applyUncertaintyAdjustment s pct' wins losses history).value := by
  unfold applyUncertaintyAdjustment
  dsimp only
  split_ifs
  · exact RiskPct.scale_mono h _
  · exact RiskPct.scale_mono h _
  · exact h

/-! ## The law of the pipeline -/

/-- The pipeline stays within its bounds.  It does not grow with the drawdown, where there is
one; its first stage does not shrink with the wins among a fixed number of trades, nor with the
payoff ratio of positive averages. -/
structure SizingLaw (s : SizingSettings) : Prop where
  bounded : ∀ stats score equity peak history,
    minRiskPct ≤ (sizedRiskPct s stats score equity peak history).value ∧
      (sizedRiskPct s stats score equity peak history).value ≤ maxRiskPct
  drawdown : ∀ stats score history equity peak equity' peak', 0 < equity → 0 < peak →
    0 < equity' → 0 < peak' → (peak - equity) / peak ≤ (peak' - equity') / peak' →
      (sizedRiskPct s stats score equity' peak' history).value ≤
        (sizedRiskPct s stats score equity peak history).value
  wins : ∀ total wins wins' avgWin avgLoss score, minTrades ≤ total → wins ≤ wins' →
    wins' ≤ total →
      (calculateRiskPct ⟨wins, total - wins, avgWin, avgLoss⟩ score).value ≤
        (calculateRiskPct ⟨wins', total - wins', avgWin, avgLoss⟩ score).value
  payoff : ∀ wins losses avgWin avgLoss avgWin' avgLoss' score, minTrades ≤ wins + losses →
    0 < avgWin → 0 < avgLoss → 0 < avgWin' → 0 < avgLoss' →
      avgWin / avgLoss ≤ avgWin' / avgLoss' →
        (calculateRiskPct ⟨wins, losses, avgWin, avgLoss⟩ score).value ≤
          (calculateRiskPct ⟨wins, losses, avgWin', avgLoss'⟩ score).value

/-- More wins among the same number of trades do not lower the share. -/
theorem calculateRiskPct_mono_wins {total wins wins' : ℕ} {avgWin avgLoss score : ℚ}
    (htotal : minTrades ≤ total) (h : wins ≤ wins') (hwins : wins' ≤ total) :
    (calculateRiskPct ⟨wins, total - wins, avgWin, avgLoss⟩ score).value ≤
      (calculateRiskPct ⟨wins', total - wins', avgWin, avgLoss⟩ score).value := by
  have hsum : wins + (total - wins) = total := by omega
  have hsum' : wins' + (total - wins') = total := by omega
  by_cases hfallback : avgLoss ≤ 0 ∨ avgWin ≤ 0
  · unfold calculateRiskPct
    dsimp only
    rw [if_pos (Or.inr hfallback), if_pos (Or.inr hfallback)]
  · rw [not_or, not_le, not_le] at hfallback
    rcases hfallback with ⟨hloss, hwin⟩
    have hrate : (wins : ℚ) / (total : ℕ) ≤ (wins' : ℚ) / (total : ℕ) :=
      div_le_div_of_nonneg_right (Nat.cast_le.mpr h) (Nat.cast_nonneg total)
    rw [calculateRiskPct_eq (by dsimp only; omega) hwin hloss,
      calculateRiskPct_eq (by dsimp only; omega) hwin hloss]
    dsimp only
    rw [hsum, hsum']
    exact kellyShare_mono (fullKelly_mono_winRate (div_pos hwin hloss) hrate)

/-- Nor does a better payoff. -/
theorem calculateRiskPct_mono_payoff {wins losses : ℕ} {avgWin avgLoss avgWin' avgLoss' score : ℚ}
    (htotal : minTrades ≤ wins + losses) (hwin : 0 < avgWin) (hloss : 0 < avgLoss)
    (hwin' : 0 < avgWin') (hloss' : 0 < avgLoss')
    (h : avgWin / avgLoss ≤ avgWin' / avgLoss') :
    (calculateRiskPct ⟨wins, losses, avgWin, avgLoss⟩ score).value ≤
      (calculateRiskPct ⟨wins, losses, avgWin', avgLoss'⟩ score).value := by
  have hrate : (wins : ℚ) / (wins + losses : ℕ) ≤ 1 := by
    apply div_le_one_of_le₀
    · exact Nat.cast_le.mpr (Nat.le_add_right wins losses)
    · exact Nat.cast_nonneg _
  rw [calculateRiskPct_eq htotal hwin hloss, calculateRiskPct_eq htotal hwin' hloss']
  exact kellyShare_mono (fullKelly_mono_payoff hrate (div_pos hwin hloss) h)

/-- The pipeline of `KellySizer()` has this law, whatever its uncertainty stage is set to. -/
theorem sizingLaw (uncertaintyFactor : ℚ) (minTradesForConfidence : ℕ) (varianceThreshold : ℚ) :
    SizingLaw (kellySizer uncertaintyFactor minTradesForConfidence varianceThreshold) where
  bounded stats score equity peak history := ⟨RiskPct.floor _, RiskPct.ceiling _⟩
  drawdown stats score history equity peak equity' peak' hequity hpeak hequity' hpeak' h := by
    apply applyUncertaintyAdjustment_mono
    rw [applyDrawdownAdaptive_eq _ _ _ _ hequity hpeak,
      applyDrawdownAdaptive_eq _ _ _ _ hequity' hpeak']
    exact bandedRiskPct_anti _ h
  wins total wins wins' avgWin avgLoss score htotal h hwins :=
    calculateRiskPct_mono_wins htotal h hwins
  payoff wins losses avgWin avgLoss avgWin' avgLoss' score htotal hwin hloss hwin' hloss' h :=
    calculateRiskPct_mono_payoff htotal hwin hloss hwin' hloss' h

/-- Without any equity the drawdown is complete, and the share is not reduced. -/
theorem sizedRiskPct_without_equity :
    ((100 - 50) / 100 : ℚ) ≤ (100 - 0) / 100 ∧
      (sizedRiskPct (kellySizer (50 / 100) 30 (15 / 100)) ⟨29, 1, 3, 1⟩ 90 50 100 []).value <
        (sizedRiskPct (kellySizer (50 / 100) 30 (15 / 100)) ⟨29, 1, 3, 1⟩ 90 0 100 []).value := by
  decide +kernel

end Risk
end Karsa
