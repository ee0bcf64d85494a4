import Karsa.Core.PositionRecord
import Karsa.Foundations.Saturation
import Mathlib.Algebra.BigOperators.Ring.List

/-!
# Signal generator - Direction and composite

`SignalGenerator.generate` scores the skew, the lead-lag, the funding rate and the change of the
open interest of a symbol between minus one and one.  The direction is that of the skew, or in
mean reversion against it; the confidence is the size of the weighted sum of all four scores,
whichever way that sum points.

Main results:

- Theorem `generate_mirror`: the opposite market gives the opposite signal.
- Theorem `composite_pos_of_confident`: what confidence leaves no doubt about the composite.
- Theorem `soundSignals`: what an emitted signal says.
-/

namespace Karsa

/-- The direction of the opposite market. -/
def Side.mirror : Side → Side
  | LONG => SHORT
  | SHORT => LONG

/-- The sign of a direction. -/
def Side.sign : Side → ℚ
  | LONG => 1
  | SHORT => -1

@[simp] theorem Side.sign_mirror (side : Side) : side.mirror.sign = -side.sign := by
  cases side <;> simp [mirror, sign]

namespace Signals

/-! ## Inputs and tables -/

/-- The regime that is asked about; `other` holds the names without an entry in the tables, and
`none` for no regime. -/
inductive SignalRegime where
  | TREND_BULL
  | TREND_BEAR
  | MEAN_REVERSION
  | CHOP
  | other (name : Option Text)
deriving DecidableEq

/-- `regime or "UNKNOWN"`. -/
def SignalRegime.label : SignalRegime → Text
  | .TREND_BULL => "TREND_BULL".toList
  | .TREND_BEAR => "TREND_BEAR".toList
  | .MEAN_REVERSION => "MEAN_REVERSION".toList
  | .CHOP => "CHOP".toList
  | .other none | .other (some []) => "UNKNOWN".toList
  | .other (some name) => name

/-- Weights of the four scores. -/
structure Weights where
  skew : ℚ
  leadLag : ℚ
  funding : ℚ
  oi : ℚ

/-- `REGIME_WEIGHTS` with `DEFAULT_WEIGHTS`. -/
def regimeWeights : SignalRegime → Weights
  | .TREND_BULL => ⟨4 / 10, 3 / 10, 5 / 100, 25 / 100⟩
  | .TREND_BEAR => ⟨4 / 10, 3 / 10, 5 / 100, 25 / 100⟩
  | .MEAN_REVERSION => ⟨3 / 10, 2 / 10, 4 / 10, 1 / 10⟩
  | .CHOP => ⟨2 / 10, 1 / 10, 5 / 10, 2 / 10⟩
  | .other _ => ⟨4 / 10, 3 / 10, 2 / 10, 1 / 10⟩

/-- `REGIME_MULTIPLIERS`, one elsewhere. -/
def regimeMultiplier : SignalRegime → ℚ
  | .TREND_BULL => 12 / 10
  | .TREND_BEAR => 12 / 10
  | .MEAN_REVERSION => 8 / 10
  | .CHOP => 5 / 10
  | .other _ => 1

/-- Arguments of `generate`. -/
structure SignalInputs where
  symbol : Text
  globalVwap : Option ℚ
  aggregateSkew : ℚ
  regime : SignalRegime
  leadLagDelta : Option ℚ
  fundingRate : Option ℚ
  oiChange : Option ℚ
  strategyScore : Option ℚ

/-- The `metrics` of a signal. -/
structure SignalMetrics where
  globalVwap : ℚ
  aggregateSkew : ℚ
  regime : Text
  regimeMult : ℚ
  sSkew : ℚ
  sLeadLag : ℚ
  sFunding : ℚ
  sOi : ℚ
  rawScore : ℚ
  strategyScore : Option ℚ

/-- `TradingSignal`. -/
structure TradingSignal where
  symbol : Text
  direction : Side
  confidence : ℚ
  size : ℚ
  metrics : SignalMetrics

/-- `SignalGenerator`. -/
structure SignalGenerator where
  minConfidence : ℚ
  positionSize : ℚ

/-- The generator without arguments. -/
def SignalGenerator.default : SignalGenerator :=
  ⟨6 / 10, 1 / 1000⟩

/-! ## The generator -/

namespace SignalInputs

variable (i : SignalInputs)

/-- `s_skew`. -/
def sSkew : ℚ :=
  saturate (i.aggregateSkew / (8 / 10))

/-- `s_lead_lag`. -/
def sLeadLag : ℚ :=
  i.leadLagDelta.elim 0 fun delta => saturate (delta / (5 / 1000))

/-- `s_funding`: against the rate. -/
def sFunding : ℚ :=
  i.fundingRate.elim 0 fun rate => saturate (-rate / (3 / 10000))

/-- `s_oi`. -/
def sOi : ℚ :=
  i.oiChange.elim 0 (signBeyond (1 / 1000))

/-- The direction of the skew, `none` where it is `"FLAT"`; nothing at all where the lead-lag
contradicts it strongly. -/
def skewDirection : Option (Option Side) :=
  if 0 < i.sSkew then
    if i.sLeadLag < -(5 / 10) then none else some (some .LONG)
  else if i.sSkew < 0 then
    if 5 / 10 < i.sLeadLag then none else some (some .SHORT)
  else some none

/-- In mean reversion the direction is against the skew, and only if the funding says so. -/
def directionFrom (ofSkew : Option Side) : Option Side :=
  if i.regime = .MEAN_REVERSION then
    if i.sSkew < -(3 / 10) ∧ 2 / 10 < i.sFunding then some .LONG
    else if 3 / 10 < i.sSkew ∧ i.sFunding < -(2 / 10) then some .SHORT
    else none
  else ofSkew

/-- The weighted scores. -/
def terms : List ℚ :=
  let w := regimeWeights i.regime
  [w.skew * i.sSkew, w.leadLag * i.sLeadLag, w.funding * i.sFunding, w.oi * i.sOi]

/-- `raw_score` of the composite, with the penalty for a lead-lag that contradicts the skew. -/
def composite : ℚ :=
  let rawScore := i.terms.sum
  if 0 < i.sSkew ∧ i.sLeadLag < -(3 / 10) then rawScore * (7 / 10)
  else if i.sSkew < 0 ∧ 3 / 10 < i.sLeadLag then rawScore * (7 / 10)
  else rawScore

end SignalInputs

/-- A positive strategy score is blended in. -/
def blend (strategyScore : Option ℚ) (confidence : ℚ) : ℚ :=
  match strategyScore with
  | some score =>
      if 0 < score then min (6 / 10 * confidence + 4 / 10 * min (score / 100) 1) 1
      else confidence
  | none => confidence

/-- `raw_score`, `confidence` and `regime_mult`. -/
structure Scoring where
  rawScore : ℚ
  confidence : ℚ
  regimeMult : ℚ

namespace SignalInputs

variable (i : SignalInputs)

/-- The scoring outside the short-circuit. -/
def compositeScoring : Scoring where
  rawScore := i.composite
  confidence := blend i.strategyScore (min (|i.composite| * regimeMultiplier i.regime) 1)
  regimeMult := regimeMultiplier i.regime

/-- The confidence calculation; under `CHOP` a strategy score alone decides. -/
def scoring : Scoring :=
  match i.regime, i.strategyScore with
  | .CHOP, some score => ⟨score / 100, min (score / 100) 1, 1⟩
  | _, _ => i.compositeScoring

end SignalInputs

/-- `generate`. -/
def SignalGenerator.generate (g : SignalGenerator) (i : SignalInputs) : Option TradingSignal :=
  match i.globalVwap, i.skewDirection with
  | some globalVwap, some ofSkew =>
      match i.directionFrom ofSkew with
      | some direction =>
          if i.scoring.confidence < g.minConfidence then none
          else some
            { symbol := i.symbol
              direction := direction
              confidence := i.scoring.confidence
              size := g.positionSize
              metrics :=
                { globalVwap := globalVwap
                  aggregateSkew := i.aggregateSkew
                  regime := i.regime.label
                  regimeMult := i.scoring.regimeMult
                  sSkew := i.sSkew
                  sLeadLag := i.sLeadLag
                  sFunding := i.sFunding
                  sOi := i.sOi
                  rawScore := i.scoring.rawScore
                  strategyScore := i.strategyScore } }
      | none => none
  | _, _ => none

/-! ## The opposite market -/

/-- Trends are exchanged. -/
def SignalRegime.mirror : SignalRegime → SignalRegime
  | .TREND_BULL => .TREND_BEAR
  | .TREND_BEAR => .TREND_BULL
  | regime => regime

/-- Skew, lead-lag, funding rate and change of the open interest negated. -/
def SignalInputs.mirror (i : SignalInputs) : SignalInputs :=
  { i with
    aggregateSkew := -i.aggregateSkew
    regime := i.regime.mirror
    leadLagDelta := i.leadLagDelta.map (-·)
    fundingRate := i.fundingRate.map (-·)
    oiChange := i.oiChange.map (-·) }

section Mirror

variable (i : SignalInputs)

@[simp] theorem regimeWeights_mirror (regime : SignalRegime) :
    regimeWeights regime.mirror = regimeWeights regime := by
  cases regime <;> rfl

@[simp] theorem regimeMultiplier_mirror (regime : SignalRegime) :
    regimeMultiplier regime.mirror = regimeMultiplier regime := by
  cases regime <;> rfl

@[simp] theorem mirror_eq_meanReversion (regime : SignalRegime) :
    regime.mirror = .MEAN_REVERSION ↔ regime = .MEAN_REVERSION := by
  cases regime <;> simp [SignalRegime.mirror]

@[simp] theorem sSkew_mirror : i.mirror.sSkew = -i.sSkew := by
  simp [SignalInputs.sSkew, SignalInputs.mirror, neg_div]

@[simp] theorem sLeadLag_mirror : i.mirror.sLeadLag = -i.sLeadLag := by
  cases h : i.leadLagDelta <;> simp [SignalInputs.sLeadLag, SignalInputs.mirror, h, neg_div]

@[simp] theorem sFunding_mirror : i.mirror.sFunding = -i.sFunding := by
  cases h : i.fundingRate <;> simp [SignalInputs.sFunding, SignalInputs.mirror, h, neg_div]

@[simp] theorem sOi_mirror : i.mirror.sOi = -i.sOi := by
  cases h : i.oiChange with
  | none => simp [SignalInputs.sOi, SignalInputs.mirror, h]
  | some change =>
      simpa [SignalInputs.sOi, SignalInputs.mirror, h] using signBeyond_neg (by norm_num) change

/-- The weighted scores are negated. -/
@[simp] theorem terms_mirror : i.mirror.terms = i.terms.map (-·) := by
  have hregime : i.mirror.regime = i.regime.mirror := rfl
  simp [SignalInputs.terms, hregime]

/-- A lead-lag that contradicts the skew. -/
def SignalInputs.Contradicted : Prop :=
  (0 < i.sSkew ∧ i.sLeadLag < -(3 / 10)) ∨ (i.sSkew < 0 ∧ 3 / 10 < i.sLeadLag)

/-- The lead-lag contradicts the skew in the opposite market, too. -/
theorem contradicted_mirror : i.mirror.Contradicted ↔ i.Contradicted := by
  unfold SignalInputs.Contradicted
  rw [sSkew_mirror, sLeadLag_mirror, neg_pos, neg_lt_zero, neg_lt_neg_iff, lt_neg]
  exact or_comm

/-- The composite without a contradiction. -/
theorem composite_of_not_contradicted (h : ¬ i.Contradicted) : i.composite = i.terms.sum := by
  rcases not_or.mp h with ⟨hlong, hshort⟩
  unfold SignalInputs.composite
  rw [if_neg hlong, if_neg hshort]

/-- The composite with a contradiction. -/
theorem composite_of_contradicted (h : i.Contradicted) :
    i.composite = i.terms.sum * (7 / 10) := by
  unfold SignalInputs.composite
  rcases h with hlong | hshort
  · rw [if_pos hlong]
  · rw [if_neg fun hlong => hlong.1.not_gt hshort.1, if_pos hshort]

/-- The composite is negated. -/
@[simp] theorem composite_mirror : i.mirror.composite = -i.composite := by
  have hsum : i.mirror.terms.sum = -i.terms.sum := by
    rw [terms_mirror]
    exact (List.sum_neg i.terms).symm
  by_cases h : i.Contradicted
  · rw [composite_of_contradicted _ ((contradicted_mirror i).mpr h),
      composite_of_contradicted _ h, hsum, neg_mul]
  · rw [composite_of_not_contradicted _ (mt (contradicted_mirror i).mp h),
      composite_of_not_contradicted _ h, hsum]

/-- The confidence is the same. -/
@[simp] theorem confidence_mirror : i.mirror.scoring.confidence = i.scoring.confidence := by
  have hcomposite : i.mirror.compositeScoring.confidence = i.compositeScoring.confidence := by
    have hregime : i.mirror.regime = i.regime.mirror := rfl
    have hscore : i.mirror.strategyScore = i.strategyScore := rfl
    simp [SignalInputs.compositeScoring, hregime, hscore]
  cases hregime : i.regime <;> cases hscore : i.strategyScore <;>
    simp_all [SignalInputs.scoring, SignalInputs.mirror, SignalRegime.mirror]

/-- The direction of the skew is the opposite one. -/
theorem skewDirection_mirror :
    i.mirror.skewDirection = i.skewDirection.map (Option.map Side.mirror) := by
  unfold SignalInputs.skewDirection
  rw [sSkew_mirror, sLeadLag_mirror]
  rcases lt_trichotomy i.sSkew 0 with hneg | hzero | hpos
  · rw [if_pos (neg_pos.mpr hneg), if_neg hneg.not_gt, if_pos hneg]
    by_cases hkill : 5 / 10 < i.sLeadLag
    · rw [if_pos hkill, if_pos (neg_lt_neg hkill)]
      rfl
    · rw [if_neg hkill, if_neg (mt neg_lt_neg_iff.mp hkill)]
      rfl
  · simp [hzero]
  · rw [if_neg (by linarith), if_pos (neg_lt_zero.mpr hpos), if_pos hpos]
    by_cases hkill : i.sLeadLag < -(5 / 10)
    · rw [if_pos hkill, if_pos (lt_neg.mpr hkill)]
      rfl
    · rw [if_neg hkill, if_neg (mt lt_neg.mp hkill)]
      rfl

/-- So is the direction that is made of it. -/
theorem directionFrom_mirror (ofSkew : Option Side) :
    i.mirror.directionFrom (ofSkew.map Side.mirror) =
      (i.directionFrom ofSkew).map Side.mirror := by
  unfold SignalInputs.directionFrom
  have hregime : i.mirror.regime = .MEAN_REVERSION ↔ i.regime = .MEAN_REVERSION :=
    mirror_eq_meanReversion i.regime
  by_cases hrange : i.regime = .MEAN_REVERSION
  · rw [if_pos (hregime.mpr hrange), if_pos hrange, sSkew_mirror, sFunding_mirror]
    have hlong : (-i.sSkew < -(3 / 10) ∧ 2 / 10 < -i.sFunding) ↔
        (3 / 10 < i.sSkew ∧ i.sFunding < -(2 / 10)) := by
      rw [neg_lt_neg_iff, lt_neg]
    have hshort : (3 / 10 < -i.sSkew ∧ -i.sFunding < -(2 / 10)) ↔
        (i.sSkew < -(3 / 10) ∧ 2 / 10 < i.sFunding) := by
      rw [lt_neg, neg_lt_neg_iff]
    simp only [hlong, hshort]
    by_cases hlow : i.sSkew < -(3 / 10) ∧ 2 / 10 < i.sFunding
    · have hhigh : ¬ (3 / 10 < i.sSkew ∧ i.sFunding < -(2 / 10)) := by
        intro h
        linarith [h.1, hlow.1]
      rw [if_neg hhigh, if_pos hlow, if_pos hlow]
      rfl
    · rw [if_neg hlow, if_neg hlow]
      split_ifs <;> rfl
  · rw [if_neg (mt hregime.mp hrange), if_neg hrange]

/-- What the opposite market is said about: direction and confidence. -/
def TradingSignal.verdict (s : TradingSignal) : Side × ℚ :=
  (s.direction, s.confidence)

/-- The opposite market gives the opposite direction with the same confidence. -/
theorem verdict_mirror (g : SignalGenerator) :
    (g.generate i.mirror).map TradingSignal.verdict =
      (g.generate i).map fun s => (s.direction.mirror, s.confidence) := by
  unfold SignalGenerator.generate
  have hvwap : i.mirror.globalVwap = i.globalVwap := rfl
  rw [hvwap, skewDirection_mirror]
  cases i.globalVwap with
  | none => rfl
  | some vwap =>
      cases i.skewDirection with
      | none => rfl
      | some ofSkew =>
          simp only [Option.map_some, directionFrom_mirror, confidence_mirror]
          cases i.directionFrom ofSkew with
          | none => rfl
          | some direction =>
              simp only [Option.map_some]
              split_ifs <;> rfl

end Mirror

/-! ## What a signal says -/

section Signal

variable {g : SignalGenerator} {i : SignalInputs} {s : TradingSignal}

/-- A signal has a direction and a confidence that is high enough. -/
theorem of_generate (h : g.generate i = some s) :
    ∃ ofSkew, i.skewDirection = some ofSkew ∧ i.directionFrom ofSkew = some s.direction ∧
      s.confidence = i.scoring.confidence ∧ s.metrics.rawScore = i.scoring.rawScore ∧
      g.minConfidence ≤ s.confidence := by
  unfold SignalGenerator.generate at h
  cases hvwap : i.globalVwap with
  | none => simp [hvwap] at h
  | some vwap =>
      cases hskew : i.skewDirection with
      | none => simp [hvwap, hskew] at h
      | some ofSkew =>
          cases hdirection : i.directionFrom ofSkew with
          | none => simp [hvwap, hskew, hdirection] at h
          | some direction =>
              by_cases hlow : i.scoring.confidence < g.minConfidence
              · simp [hvwap, hskew, hdirection, hlow] at h
              · simp only [hvwap, hskew, hdirection, if_neg hlow, Option.some.injEq] at h
                subst h
                exact ⟨ofSkew, rfl, hdirection, rfl, rfl, not_lt.mp hlow⟩

/-- Blending keeps a confidence at most one. -/
theorem blend_le_one {confidence : ℚ} (strategyScore : Option ℚ) (h : confidence ≤ 1) :
    blend strategyScore confidence ≤ 1 := by
  cases strategyScore with
  | none => exact h
  | some score =>
      unfold blend
      dsimp only
      split_ifs
      · exact min_le_right ..
      · exact h

/-- Blending tells confidences apart below one. -/
theorem blend_lt_blend {low high : ℚ} (strategyScore : Option ℚ) (hlt : low < high)
    (hhigh : high < 1) : blend strategyScore low < blend strategyScore high := by
  cases strategyScore with
  | none => exact hlt
  | some score =>
      unfold blend
      dsimp only
      have hnormalized : min (score / 100) 1 ≤ 1 := min_le_right ..
      generalize min (score / 100) 1 = normalized at hnormalized ⊢
      split_ifs
      · rw [min_eq_left (by linarith), min_eq_left (by linarith)]
        linarith
      · exact hlt

/-- Outside the short-circuit the composite is scored. -/
theorem scoring_eq (h : i.regime = .CHOP → i.strategyScore = none) :
    i.scoring = i.compositeScoring := by
  unfold SignalInputs.scoring
  cases hregime : i.regime
  case CHOP => rw [h hregime]
  all_goals rfl

/-- The confidence is at most one. -/
theorem confidence_le_one (i : SignalInputs) (h : i.regime = .CHOP → i.strategyScore = none) :
    i.scoring.confidence ≤ 1 := by
  rw [scoring_eq h]
  exact blend_le_one _ (min_le_right ..)

/-- What the skew's direction says. -/
theorem of_skewDirection {direction : Side} (h : i.skewDirection = some (some direction)) :
    0 < direction.sign * i.sSkew ∧ -(5 / 10) ≤ direction.sign * i.sLeadLag := by
  unfold SignalInputs.skewDirection at h
  split_ifs at h with hpos hkill hneg hkill
  · rcases Option.some.inj (Option.some.inj h) with rfl
    simp only [Side.sign, one_mul]
    exact ⟨hpos, not_lt.mp hkill⟩
  · rcases Option.some.inj (Option.some.inj h) with rfl
    simp only [Side.sign, neg_one_mul]
    exact ⟨neg_pos.mpr hneg, neg_le_neg (not_lt.mp hkill)⟩
  · exact absurd (Option.some.inj h) (by simp)

/-- What the direction says in mean reversion. -/
theorem of_directionFrom {ofSkew : Option Side} {direction : Side}
    (hregime : i.regime = .MEAN_REVERSION) (h : i.directionFrom ofSkew = some direction) :
    direction.sign * i.sSkew < -(3 / 10) ∧ 2 / 10 < direction.sign * i.sFunding := by
  unfold SignalInputs.directionFrom at h
  rw [if_pos hregime] at h
  split_ifs at h with hlow hhigh
  · rcases Option.some.inj h with rfl
    simp only [Side.sign, one_mul]
    exact hlow
  · rcases Option.some.inj h with rfl
    simp only [Side.sign, neg_one_mul]
    exact ⟨neg_lt_neg hhigh.1, lt_neg.mpr hhigh.2⟩

/-- Elsewhere it is the skew's. -/
theorem directionFrom_eq (hregime : i.regime ≠ .MEAN_REVERSION) (ofSkew : Option Side) :
    i.directionFrom ofSkew = ofSkew :=
  if_neg hregime

theorem neg_one_le_sLeadLag (i : SignalInputs) : -1 ≤ i.sLeadLag := by
  unfold SignalInputs.sLeadLag
  cases i.leadLagDelta with
  | none => norm_num
  | some delta => exact neg_one_le_saturate _

theorem neg_one_le_sFunding (i : SignalInputs) : -1 ≤ i.sFunding := by
  unfold SignalInputs.sFunding
  cases i.fundingRate with
  | none => norm_num
  | some rate => exact neg_one_le_saturate _

theorem neg_one_le_sOi (i : SignalInputs) : -1 ≤ i.sOi := by
  unfold SignalInputs.sOi
  cases i.oiChange with
  | none => norm_num
  | some change => exact (abs_le.mp (abs_signBeyond_le_one ..)).1

/-- The scores of a market whose direction is `LONG` keep the composite above a bound. -/
theorem composite_gt_of_long {ofSkew : Option Side} (hskew : i.skewDirection = some ofSkew)
    (hdirection : i.directionFrom ofSkew = some .LONG) :
    -(468 / 1000) < i.composite * regimeMultiplier i.regime := by
  have hskewLow : -1 ≤ i.sSkew := neg_one_le_saturate _
  have hleadLow := neg_one_le_sLeadLag i
  have hfundingLow := neg_one_le_sFunding i
  have hoiLow := neg_one_le_sOi i
  have hsum : i.terms.sum = (regimeWeights i.regime).skew * i.sSkew +
      (regimeWeights i.regime).leadLag * i.sLeadLag +
      (regimeWeights i.regime).funding * i.sFunding + (regimeWeights i.regime).oi * i.sOi := by
    simp [SignalInputs.terms, add_assoc]
  by_cases hrange : i.regime = .MEAN_REVERSION
  · rcases of_directionFrom hrange hdirection with ⟨hlow, hhigh⟩
    simp only [Side.sign, one_mul] at hlow hhigh
    by_cases h : i.Contradicted
    · rw [composite_of_contradicted _ h, hsum, hrange]
      simp only [regimeWeights, regimeMultiplier]
      linarith
    · rw [composite_of_not_contradicted _ h, hsum, hrange]
      simp only [regimeWeights, regimeMultiplier]
      linarith
  · rw [directionFrom_eq hrange] at hdirection
    rw [hdirection] at hskew
    rcases of_skewDirection hskew with ⟨hpos, hlow⟩
    simp only [Side.sign, one_mul] at hpos hlow
    by_cases h : i.Contradicted
    · rw [composite_of_contradicted _ h, hsum]
      cases hregime : i.regime <;> simp only [regimeWeights, regimeMultiplier] <;> linarith
    · rw [composite_of_not_contradicted _ h, hsum]
      have hmild : -(3 / 10) ≤ i.sLeadLag := not_lt.mp fun hlt => h (Or.inl ⟨hpos, hlt⟩)
      cases hregime : i.regime <;> simp only [regimeWeights, regimeMultiplier] <;> linarith

/-- The same for both directions. -/
theorem composite_gt {ofSkew : Option Side} {direction : Side}
    (hskew : i.skewDirection = some ofSkew) (hdirection : i.directionFrom ofSkew = some direction) :
    -(468 / 1000) < direction.sign * i.composite * regimeMultiplier i.regime := by
  cases direction with
  | LONG => simpa [Side.sign] using composite_gt_of_long hskew hdirection
  | SHORT =>
      have hskew' : i.mirror.skewDirection = some (ofSkew.map Side.mirror) := by
        rw [skewDirection_mirror, hskew]
        rfl
      have hdirection' : i.mirror.directionFrom (ofSkew.map Side.mirror) = some .LONG := by
        rw [directionFrom_mirror, hdirection]
        rfl
      have hbound := composite_gt_of_long hskew' hdirection'
      have hregime : i.mirror.regime = i.regime.mirror := rfl
      rw [composite_mirror, hregime, regimeMultiplier_mirror] at hbound
      simpa [Side.sign] using hbound

/-- The penalty keeps the sign of the sum. -/
theorem composite_pos_iff (side : Side) :
    0 < side.sign * i.composite ↔ 0 < side.sign * i.terms.sum := by
  by_cases h : i.Contradicted
  · rw [composite_of_contradicted _ h, ← mul_assoc]
    exact mul_pos_iff_of_pos_right (by norm_num)
  · rw [composite_of_not_contradicted _ h]

/-- A confidence that no opposing composite can have. -/
theorem composite_pos_of_confident (hgenerate : g.generate i = some s)
    (hchop : i.regime = .CHOP → i.strategyScore = none)
    (hmin : blend i.strategyScore (468 / 1000) ≤ g.minConfidence) :
    0 < s.direction.sign * i.composite := by
  rcases of_generate hgenerate with ⟨ofSkew, hskew, hdirection, hconfidence, -, hgate⟩
  have hbound := composite_gt hskew hdirection
  by_contra hopposed
  have habs : |i.composite| = -(s.direction.sign * i.composite) := by
    cases hside : s.direction with
    | LONG =>
        rw [hside] at hopposed
        simp only [Side.sign, one_mul] at hopposed ⊢
        exact abs_of_nonpos (not_lt.mp hopposed)
    | SHORT =>
        rw [hside] at hopposed
        simp only [Side.sign, neg_one_mul, neg_neg] at hopposed ⊢
        exact abs_of_nonneg (by linarith)
  have hsize : min (|i.composite| * regimeMultiplier i.regime) 1 < 468 / 1000 := by
    refine min_lt_of_left_lt ?_
    rw [habs, neg_mul]
    linarith
  have hblend := blend_lt_blend i.strategyScore hsize (by norm_num)
  rw [hconfidence, scoring_eq hchop] at hgate
  exact absurd (hgate.trans_lt hblend) hmin.not_gt

/-- The weighted scores that speak for a direction. -/
def SignalInputs.evidenceFor (i : SignalInputs) (side : Side) : ℚ :=
  evidence (i.terms.map (side.sign * ·))

/-- The sum has the sign of a direction when the scores for it outweigh those against it. -/
theorem sum_terms_pos_iff (side : Side) :
    0 < side.sign * i.terms.sum ↔ i.evidenceFor side.mirror < i.evidenceFor side := by
  have hsum : side.sign * i.terms.sum = (i.terms.map (side.sign * ·)).sum := by
    simpa using (List.sum_map_mul_left i.terms id side.sign).symm
  rw [hsum, sum_pos_iff]
  simp [SignalInputs.evidenceFor, Function.comp_def]

/-- The skew's score has the sign of the skew. -/
theorem sSkew_pos_iff (side : Side) :
    0 < side.sign * i.sSkew ↔ 0 < side.sign * i.aggregateSkew := by
  unfold SignalInputs.sSkew
  cases side with
  | LONG =>
      simp only [Side.sign, one_mul, saturate_pos_iff]
      exact div_pos_iff_of_pos_right (by norm_num)
  | SHORT =>
      simp only [Side.sign, neg_one_mul]
      rw [← saturate_neg, saturate_pos_iff, ← neg_div]
      exact div_pos_iff_of_pos_right (by norm_num)

/-- What an emitted signal says. -/
structure SoundSignal (g : SignalGenerator) (i : SignalInputs) (s : TradingSignal) : Prop where
  minConfidence_le : g.minConfidence ≤ s.confidence
  confidence_le : s.confidence ≤ 1
  follows_skew : i.regime ≠ .MEAN_REVERSION → 0 < s.direction.sign * i.aggregateSkew
  against_skew : i.regime = .MEAN_REVERSION → s.direction.sign * i.aggregateSkew < 0
  rawScore_pos_iff : 0 < s.direction.sign * s.metrics.rawScore ↔
    i.evidenceFor s.direction.mirror < i.evidenceFor s.direction
  rawScore_pos : blend i.strategyScore (468 / 1000) ≤ g.minConfidence →
    0 < s.direction.sign * s.metrics.rawScore

/-- Every emitted signal is sound, and the opposite market gives the opposite one. -/
theorem soundSignals (g : SignalGenerator) (i : SignalInputs)
    (hchop : i.regime = .CHOP → i.strategyScore = none) :
    (∀ s, g.generate i = some s → SoundSignal g i s) ∧
      (g.generate i.mirror).map TradingSignal.verdict =
        (g.generate i).map fun s => (s.direction.mirror, s.confidence) := by
  refine ⟨fun s hgenerate => ?_, verdict_mirror i g⟩
  rcases of_generate hgenerate with ⟨ofSkew, hskew, hdirection, hconfidence, hraw, hgate⟩
  have hcomposite : s.metrics.rawScore = i.composite := by
    rw [hraw, scoring_eq hchop]
    rfl
  refine ⟨hgate, ?_, fun hregime => ?_, fun hregime => ?_, ?_, fun hmin => ?_⟩
  · rw [hconfidence]
    exact confidence_le_one i hchop
  · rw [directionFrom_eq hregime] at hdirection
    rw [hdirection] at hskew
    exact (sSkew_pos_iff _).mp (of_skewDirection hskew).1
  · have hagainst := (of_directionFrom hregime hdirection).1
    have hmirror := (sSkew_pos_iff (i := i) s.direction.mirror).mp (by
      rw [Side.sign_mirror, neg_mul]
      linarith)
    rw [Side.sign_mirror, neg_mul] at hmirror
    linarith
  · rw [hcomposite, composite_pos_iff, sum_terms_pos_iff]
  · rw [hcomposite]
    exact composite_pos_of_confident hgenerate hchop hmin

/-- A market in which everything points up. -/
def risingMarket : SignalInputs :=
  ⟨"BTC/USDT".toList, some 64000, 5 / 10, .TREND_BULL, some (3 / 1000), some (-5 / 10000),
    some 100, none⟩

/-- It gets a sound signal. -/
theorem soundSignals_rising :
    ((SignalGenerator.default.generate risingMarket).map TradingSignal.verdict =
      some (.LONG, 876 / 1000)) ∧
      ∀ s, SignalGenerator.default.generate risingMarket = some s →
        SoundSignal .default risingMarket s :=
  ⟨by decide +kernel, (soundSignals .default risingMarket (by decide)).1⟩

/-- A slightly positive skew, while funding and open interest point down, with a perfect
strategy score. -/
def opposedMarket : SignalInputs :=
  ⟨"BTC/USDT".toList, some 64000, 8 / 100, .TREND_BULL, some (-15 / 10000), some (3 / 10000),
    some (-1), some 100⟩

/-- A long signal from a negative composite. -/
theorem long_from_negative_composite :
    ¬ ∀ s, SignalGenerator.default.generate opposedMarket = some s →
      0 < s.direction.sign * s.metrics.rawScore := by
  have hsome : (SignalGenerator.default.generate opposedMarket).map
      (fun s => (s.direction, s.metrics.rawScore)) = some (.LONG, -35 / 100) := by
    decide +kernel
  rcases Option.map_eq_some_iff.mp hsome with ⟨s, hgenerate, hs⟩
  intro hagrees
  have hpositive := hagrees s hgenerate
  rw [(Prod.mk.inj hs).1, (Prod.mk.inj hs).2] at hpositive
  norm_num [Side.sign] at hpositive

end Signal

end Signals
end Karsa
