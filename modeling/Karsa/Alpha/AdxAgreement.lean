import Karsa.Data.TrueRange
import Mathlib.Algebra.BigOperators.Ring.List

/-!
# Regimes - Average directional index

`RegimeClassifier`, `RegimeEngine` and the fallback of `MarketAnalyzer` each compute an average
directional index of fourteen bars, with numbers taken as exact.  The first two smooth true ranges
and directional movements alike, and differ in what they do with a bar without direction and with
fewer than fourteen values.  The third is a mean of ranges: the third array that it hands to
`np.maximum` is the place for the result, and no directional movement enters.

Main results:

- Theorems `calculateAdx_eq`, `engineAdx_eq`: the first two as averages of directional indices.
- Theorems `calculateAdx_mem`, `engineAdx_mem`, `calculateAdx_scale`, `engineAdx_scale`: bounds and
  scale invariance of the first two.
- Theorem `engineAdx_eq_calculateAdx`: where the first two agree.
- Theorem `adx_agree_iff`: where all three agree.
-/

namespace Karsa
namespace Adx

open MarketFeed
open TrueRange (trueRange)

/-! ## Movements -/

/-- True range and directional movements of a bar, or sums of them. -/
structure Movement where
  tr : ℚ
  plus : ℚ
  minus : ℚ
deriving DecidableEq

/-- The movement of a bar behind another. -/
def movement (previous c : Candle) : Movement :=
  let up := c.high - previous.high
  let down := previous.low - c.low
  { tr := trueRange c.high c.low previous.close
    plus := if up > down ∧ up > 0 then up else 0
    minus := if down > up ∧ down > 0 then down else 0 }

/-- Neighbouring bars. -/
def neighbours (candles : List Candle) : List (Candle × Candle) :=
  candles.zip candles.tail

/-- The movements of all bars behind the first. -/
def movements (candles : List Candle) : List Movement :=
  (neighbours candles).map fun p => movement p.1 p.2

/-- The sums of movements. -/
def Movement.total (ms : List Movement) : Movement where
  tr := (ms.map Movement.tr).sum
  plus := (ms.map Movement.plus).sum
  minus := (ms.map Movement.minus).sum

/-- Take one more movement into the sums. -/
def Movement.accumulate (period : ℕ) (sums m : Movement) : Movement where
  tr := sums.tr - sums.tr / period + m.tr
  plus := sums.plus - sums.plus / period + m.plus
  minus := sums.minus - sums.minus / period + m.minus

/-- The loop that collects `dx_values`; no value is appended where `dx` is `none`. -/
def dxLoop (dx : Movement → Option ℚ) (period : ℕ) : Movement → List Movement → List ℚ
  | _, [] => []
  | sums, m :: rest =>
      let sums := sums.accumulate period m
      (dx sums).toList ++ dxLoop dx period sums rest

/-! ## The implementations -/

/-- The value that `RegimeClassifier._calculate_adx` appends. -/
def classifierDx (sums : Movement) : Option ℚ :=
  if sums.tr = 0 then none
  else
    let plusDi := 100 * sums.plus / sums.tr
    let minusDi := 100 * sums.minus / sums.tr
    let diSum := plusDi + minusDi
    if diSum = 0 then some 0 else some (100 * |plusDi - minusDi| / diSum)

/-- The value that `RegimeEngine._adx` appends. -/
def engineDx (sums : Movement) : Option ℚ :=
  if sums.tr = 0 then none
  else
    let plusDi := sums.plus / sums.tr * 100
    let minusDi := sums.minus / sums.tr * 100
    let diSum := plusDi + minusDi
    if diSum = 0 then none else some (|plusDi - minusDi| / diSum * 100)

/-- The entry of the classifier's arrays for the first bar. -/
def firstEntry (candles : List Candle) : List Movement :=
  (candles.head?.map fun c => ⟨c.high - c.low, 0, 0⟩).toList

/-- `RegimeClassifier._calculate_adx`. -/
def calculateAdx (period : ℕ+) (candles : List Candle) : ℚ :=
  if candles.length < period + 1 then 0
  else
    let entries := firstEntry candles ++ movements candles
    let dxValues := dxLoop classifierDx period (Movement.total ((entries.drop 1).take period))
      (entries.drop (period + 1))
    if dxValues.length < period then 0
    else
      (dxValues.drop period).foldl (fun adx dx => (adx * (period - 1) + dx) / period)
        ((dxValues.take period).sum / period)

/-- `RegimeEngine._adx`. -/
def engineAdx (period : ℕ+) (candles : List Candle) : ℚ :=
  if candles.length < period + 1 then 0
  else
    let entries := movements candles
    if entries.length < period then 0
    else
      let dxValues := dxLoop engineDx period (Movement.total (entries.take period))
        (entries.drop period)
      if dxValues = [] then 0
      else
        (dxValues.drop period).foldl (fun adx dx => (adx * (period - 1) + dx) / period)
          ((dxValues.take period).sum / period)

/-- `np.mean`. -/
def mean (xs : List ℚ) : ℚ :=
  xs.sum / xs.length

/-- The larger of a bar's own range and of the way from the close before it to its high. -/
def manualRange (previous c : Candle) : ℚ :=
  max (c.high - c.low) |c.high - previous.close|

/-- `MarketAnalyzer._manual_adx`. -/
def manualAdx (candles : List Candle) : ℚ :=
  if candles.length < 15 then 0
  else
    let tr := (neighbours candles).map fun p => manualRange p.1 p.2
    mean (tr.drop (tr.length - 14))

/-- The default of `period`. -/
def adxPeriod : ℕ+ := ⟨14, Nat.succ_pos 13⟩

/-- The places that compute the index. -/
inductive Implementation where
  | classifier
  | engine
  | fallback

/-- What they return. -/
def Implementation.adx : Implementation → List Candle → ℚ
  | .classifier => calculateAdx adxPeriod
  | .engine => engineAdx adxPeriod
  | .fallback => manualAdx

/-! ## Series of candles -/

/-- Candles whose high is no less than their low, with positive prices. -/
structure Series where
  candles : List Candle
  ordered : ∀ c ∈ candles, c.low ≤ c.high
  low_pos : ∀ c ∈ candles, 0 < c.low
  close_pos : ∀ c ∈ candles, 0 < c.close

/-- A candle with all prices multiplied. -/
def scaleCandle (factor : ℚ) (c : Candle) : Candle :=
  { c with
    opening := factor * c.opening
    high := factor * c.high
    low := factor * c.low
    close := factor * c.close }

/-- The series with all prices multiplied. -/
def Series.scale (factor : ℚ) (hfactor : 0 < factor) (s : Series) : Series where
  candles := s.candles.map (scaleCandle factor)
  ordered := by
    rw [List.forall_mem_map]
    exact fun c hc => mul_le_mul_of_nonneg_left (s.ordered c hc) hfactor.le
  low_pos := by
    rw [List.forall_mem_map]
    exact fun c hc => mul_pos hfactor (s.low_pos c hc)
  close_pos := by
    rw [List.forall_mem_map]
    exact fun c hc => mul_pos hfactor (s.close_pos c hc)

/-- The implementations agree on a series: they return one value, which is `wilderAdx` where the
series has as many bars as that needs; it is a percentage, the same for multiplied prices, and
zero exactly for too few bars. -/
structure Agree (bars : ℕ) (wilderAdx : List Candle → ℚ) (s : Series) : Prop where
  same : ∀ i j : Implementation, i.adx s.candles = j.adx s.candles
  index : bars ≤ s.candles.length → ∀ i : Implementation, i.adx s.candles = wilderAdx s.candles
  percentage : ∀ i : Implementation, 0 ≤ i.adx s.candles ∧ i.adx s.candles ≤ 100
  scaled : ∀ (i : Implementation) (factor : ℚ) (hfactor : 0 < factor),
    i.adx (s.scale factor hfactor).candles = i.adx s.candles
  zero : ∀ i : Implementation, i.adx s.candles = 0 ↔ s.candles.length < bars

/-- The signed directional movement of a bar. -/
def Movement.signed (m : Movement) : ℚ :=
  m.plus - m.minus

/-- Fewer than fifteen bars; or the last fourteen bars stand at the close before them, and at
each bar from the sixteenth on the signed movements up to it, smoothed, are zero, or there was
no range up to it. -/
def Motionless (candles : List Candle) : Prop :=
  candles.length < 15 ∨
    (∀ m ∈ (movements candles).drop ((movements candles).length - 14), m.tr = 0) ∧
      ∀ n, 14 < n → n ≤ (movements candles).length →
        (∀ m ∈ (movements candles).take n, m.tr = 0) ∨
          wilderSum 14 (((movements candles).take n).map Movement.signed) = 0

/-! ## Directional indices of a series -/

section Indices

variable {period : ℕ} {ms : List Movement} {sums : Movement} {x : ℚ}

/-- The smoothed sums of movements. -/
def Movement.smoothed (period : ℕ) (ms : List Movement) : Movement where
  tr := wilderSum period (ms.map Movement.tr)
  plus := wilderSum period (ms.map Movement.plus)
  minus := wilderSum period (ms.map Movement.minus)

/-- The values that a loop collects from the first sums on. -/
def dxValues (dx : Movement → Option ℚ) (period : ℕ) (ms : List Movement) : List ℚ :=
  dxLoop dx period (Movement.total (ms.take period)) (ms.drop period)

/-- Sums are taken field by field. -/
theorem foldl_accumulate (sums : Movement) (ms : List Movement) :
    ms.foldl (Movement.accumulate period) sums =
      ⟨(ms.map Movement.tr).foldl (accumulate period) sums.tr,
        (ms.map Movement.plus).foldl (accumulate period) sums.plus,
        (ms.map Movement.minus).foldl (accumulate period) sums.minus⟩ := by
  induction ms generalizing sums with
  | nil => rfl
  | cons m ms ih =>
      rw [List.foldl_cons, ih]
      rfl

/-- The loop ends with the smoothed sums. -/
theorem foldl_accumulate_total (period : ℕ) (ms : List Movement) :
    (ms.drop period).foldl (Movement.accumulate period) (Movement.total (ms.take period)) =
      Movement.smoothed period ms := by
  rw [foldl_accumulate]
  simp only [Movement.total, List.map_take, List.map_drop]
  rfl

/-- The values of a loop come from the sums it passes through. -/
theorem dxLoop_eq_filterMap (dx : Movement → Option ℚ) (period : ℕ) (sums : Movement)
    (ms : List Movement) :
    dxLoop dx period sums ms = (List.range ms.length).filterMap fun n =>
      dx ((ms.take (n + 1)).foldl (Movement.accumulate period) sums) := by
  induction ms generalizing sums with
  | nil => rfl
  | cons m ms ih =>
      rw [dxLoop, ih, List.length_cons, List.range_succ_eq_map, List.filterMap_cons,
        List.filterMap_map]
      simp only [List.take_succ_cons, List.take_zero, List.foldl_cons, List.foldl_nil]
      cases dx (sums.accumulate period m) <;> rfl

/-- There is a value for each prefix of more than one period. -/
theorem dxValues_eq_filterMap (dx : Movement → Option ℚ) (period : ℕ) (ms : List Movement) :
    dxValues dx period ms = (List.range (ms.length - period)).filterMap fun n =>
      dx (Movement.smoothed period (ms.take (period + (n + 1)))) := by
  rw [dxValues, dxLoop_eq_filterMap, List.length_drop]
  refine congrArg (List.filterMap · _) (funext fun n => congrArg dx ?_)
  rw [← foldl_accumulate_total, List.take_take, min_eq_left (by omega), List.drop_take,
    Nat.add_sub_cancel_left]

/-- Where a value comes from. -/
theorem mem_dxValues {dx : Movement → Option ℚ} :
    x ∈ dxValues dx period ms ↔
      ∃ n, period < n ∧ n ≤ ms.length ∧ dx (Movement.smoothed period (ms.take n)) = some x := by
  rw [dxValues_eq_filterMap, List.mem_filterMap]
  constructor
  · rintro ⟨n, hn, hdx⟩
    rw [List.mem_range] at hn
    exact ⟨period + (n + 1), by omega, by omega, hdx⟩
  · rintro ⟨n, hlt, hle, hdx⟩
    refine ⟨n - period - 1, List.mem_range.mpr (by omega), ?_⟩
    rwa [show period + (n - period - 1 + 1) = n by omega]

/-- No field is negative. -/
structure Movement.Nonneg (m : Movement) : Prop where
  tr : 0 ≤ m.tr
  plus : 0 ≤ m.plus
  minus : 0 ≤ m.minus

/-- Ranges and directional movements are not negative. -/
theorem movement_nonneg (previous c : Candle) : (movement previous c).Nonneg where
  tr := (abs_nonneg _).trans ((le_max_left _ _).trans (le_max_right _ _))
  plus := by
    simp only [movement]
    split_ifs with h
    · exact h.2.le
    · exact le_rfl
  minus := by
    simp only [movement]
    split_ifs with h
    · exact h.2.le
    · exact le_rfl

/-- All movements of a series are such. -/
theorem movements_nonneg (candles : List Candle) : ∀ m ∈ movements candles, m.Nonneg := by
  intro m hm
  rcases List.mem_map.mp hm with ⟨p, -, rfl⟩
  exact movement_nonneg p.1 p.2

/-- Nor are the smoothed sums negative. -/
theorem smoothed_nonneg (hperiod : 1 < period) (hms : ∀ m ∈ ms, m.Nonneg) :
    (Movement.smoothed period ms).Nonneg where
  tr := (wilderSum_nonneg hperiod (List.forall_mem_map.mpr fun m hm => (hms m hm).tr)).1
  plus := (wilderSum_nonneg hperiod (List.forall_mem_map.mpr fun m hm => (hms m hm).plus)).1
  minus := (wilderSum_nonneg hperiod (List.forall_mem_map.mpr fun m hm => (hms m hm).minus)).1

/-- A sum vanishes only if nothing came in. -/
theorem smoothed_eq_zero_iff (hperiod : 1 < period) (hms : ∀ m ∈ ms, m.Nonneg) :
    ((Movement.smoothed period ms).tr = 0 ↔ ∀ m ∈ ms, m.tr = 0) ∧
      ((Movement.smoothed period ms).plus = 0 ↔ ∀ m ∈ ms, m.plus = 0) ∧
      ((Movement.smoothed period ms).minus = 0 ↔ ∀ m ∈ ms, m.minus = 0) := by
  have hfield : ∀ f : Movement → ℚ, (∀ m ∈ ms, 0 ≤ f m) →
      (wilderSum period (ms.map f) = 0 ↔ ∀ m ∈ ms, f m = 0) := by
    intro f hf
    rw [(wilderSum_nonneg hperiod (List.forall_mem_map.mpr hf)).2, List.forall_mem_map]
  exact ⟨hfield _ fun m hm => (hms m hm).tr, hfield _ fun m hm => (hms m hm).plus,
    hfield _ fun m hm => (hms m hm).minus⟩

/-- The classifier's value is a percentage. -/
theorem classifierDx_mem (hsums : sums.Nonneg) (h : classifierDx sums = some x) :
    0 ≤ x ∧ x ≤ 100 := by
  unfold classifierDx at h
  dsimp only at h
  split_ifs at h with htr hdi
  · rw [Option.some_inj] at h
    rw [← h]
    norm_num
  · rw [Option.some_inj] at h
    have hplus : 0 ≤ 100 * sums.plus / sums.tr :=
      div_nonneg (mul_nonneg (by norm_num) hsums.plus) hsums.tr
    have hminus : 0 ≤ 100 * sums.minus / sums.tr :=
      div_nonneg (mul_nonneg (by norm_num) hsums.minus) hsums.tr
    have hpos : 0 < 100 * sums.plus / sums.tr + 100 * sums.minus / sums.tr :=
      lt_of_le_of_ne (add_nonneg hplus hminus) (Ne.symm hdi)
    have habs := abs_sub_le_of_nonneg_of_le hplus (le_add_of_nonneg_right hminus) hminus
      (le_add_of_nonneg_left hplus)
    rw [← h]
    refine ⟨div_nonneg (mul_nonneg (by norm_num) (abs_nonneg _)) hpos.le, ?_⟩
    rw [div_le_iff₀ hpos]
    exact mul_le_mul_of_nonneg_left habs (by norm_num)

/-- The engine leaves out the zeros of bars without direction, and agrees on the others. -/
theorem engineDx_eq (sums : Movement) :
    engineDx sums = if sums.plus + sums.minus = 0 then none else classifierDx sums := by
  have hsum : sums.plus / sums.tr * 100 + sums.minus / sums.tr * 100 =
      100 * sums.plus / sums.tr + 100 * sums.minus / sums.tr := by
    ring
  have hdiff : sums.plus / sums.tr * 100 - sums.minus / sums.tr * 100 =
      100 * sums.plus / sums.tr - 100 * sums.minus / sums.tr := by
    ring
  unfold engineDx classifierDx
  dsimp only
  rw [hsum, hdiff]
  by_cases htr : sums.tr = 0
  · simp [htr]
  · have hzero : 100 * sums.plus / sums.tr + 100 * sums.minus / sums.tr = 0 ↔
        sums.plus + sums.minus = 0 := by
      rw [← add_div, ← mul_add, div_eq_zero_iff, or_iff_left htr, mul_eq_zero,
        or_iff_right (by norm_num)]
    rw [if_neg htr, if_neg htr]
    by_cases hdi : sums.plus + sums.minus = 0
    · rw [if_pos (hzero.mpr hdi), if_pos hdi]
    · rw [if_neg (mt hzero.mp hdi), if_neg (mt hzero.mp hdi), if_neg hdi]
      congr 1
      ring

/-- What the classifier appends is zero, or the engine appends it too. -/
theorem classifierDx_cases (h : classifierDx sums = some x) : x = 0 ∨ engineDx sums = some x := by
  rw [engineDx_eq]
  by_cases hdi : sums.plus + sums.minus = 0
  · have hzero : 100 * sums.plus / sums.tr + 100 * sums.minus / sums.tr = 0 := by
      rw [← add_div, ← mul_add, hdi, mul_zero, zero_div]
    unfold classifierDx at h
    dsimp only at h
    rw [hzero, if_pos rfl] at h
    split_ifs at h
    exact Or.inl (Option.some_inj.mp h).symm
  · rw [if_neg hdi]
    exact Or.inr h

/-- The engine's value vanishes exactly if both directions are equal. -/
theorem engineDx_eq_zero_iff (hsums : sums.Nonneg) :
    (∀ x, engineDx sums = some x → x = 0) ↔ sums.tr = 0 ∨ sums.plus = sums.minus := by
  rw [engineDx_eq]
  by_cases hdi : sums.plus + sums.minus = 0
  · have hboth := (add_eq_zero_iff_of_nonneg hsums.plus hsums.minus).mp hdi
    rw [if_pos hdi]
    exact iff_of_true (fun x h => by cases h) (Or.inr (hboth.1.trans hboth.2.symm))
  · rw [if_neg hdi]
    unfold classifierDx
    dsimp only
    by_cases htr : sums.tr = 0
    · rw [if_pos htr]
      exact iff_of_true (fun x h => by cases h) (Or.inl htr)
    · have hzero : 100 * sums.plus / sums.tr + 100 * sums.minus / sums.tr ≠ 0 := by
        rw [← add_div, ← mul_add]
        exact div_ne_zero (mul_ne_zero (by norm_num) hdi) htr
      have hdiff : 100 * sums.plus / sums.tr - 100 * sums.minus / sums.tr =
          100 / sums.tr * (sums.plus - sums.minus) := by
        ring
      rw [if_neg htr, if_neg hzero, or_iff_right htr]
      simp only [Option.some_inj, forall_eq']
      rw [div_eq_zero_iff, or_iff_left hzero, mul_eq_zero, or_iff_right (by norm_num), abs_eq_zero,
        hdiff, mul_eq_zero, or_iff_right (div_ne_zero (by norm_num) htr), sub_eq_zero]

end Indices

/-! ## The classifier and the engine -/

section Averages

variable {period : ℕ+} {candles : List Candle}

/-- One movement for each bar behind the first. -/
@[simp] theorem length_movements (candles : List Candle) :
    (movements candles).length = candles.length - 1 := by
  simp [movements, neighbours]

/-- The classifier averages its directional indices, from one period of them on. -/
theorem calculateAdx_eq (period : ℕ+) (candles : List Candle) :
    calculateAdx period candles =
      wilder period (dxValues classifierDx period (movements candles)) := by
  have hpos := period.pos
  unfold calculateAdx
  split_ifs with hshort
  · have hnil : (movements candles).drop period = [] := by
      rw [List.drop_eq_nil_iff, length_movements]
      omega
    rw [dxValues, hnil, dxLoop, wilder_of_lt hpos]
  · cases candles with
    | nil => exact absurd (by simp) hshort
    | cons first rest => rfl

/-- The engine averages what it has of them over a whole period. -/
theorem engineAdx_eq (period : ℕ+) (candles : List Candle) :
    engineAdx period candles =
      wilderMean period (dxValues engineDx period (movements candles)) := by
  have hmean : wilderMean period ([] : List ℚ) = 0 := by simp [wilderMean]
  unfold engineAdx
  split_ifs with hshort
  · have hnil : (movements candles).drop period = [] := by
      rw [List.drop_eq_nil_iff, length_movements]
      omega
    rw [dxValues, hnil, dxLoop, hmean]
  · dsimp only
    rw [if_neg (by rw [length_movements]; omega)]
    split_ifs with hnone
    · rw [dxValues, hnone, hmean]
    · rfl

/-- Every directional index is a percentage. -/
theorem dxValues_mem (hperiod : 1 < (period : ℕ)) {x : ℚ} :
    x ∈ dxValues classifierDx period (movements candles) ∨
      x ∈ dxValues engineDx period (movements candles) → 0 ≤ x ∧ x ≤ 100 := by
  have hsmoothed : ∀ n, (Movement.smoothed period ((movements candles).take n)).Nonneg := fun n =>
    smoothed_nonneg hperiod fun m hm => movements_nonneg candles m (List.mem_of_mem_take hm)
  rintro (h | h)
  · rcases mem_dxValues.mp h with ⟨n, -, -, hdx⟩
    exact classifierDx_mem (hsmoothed n) hdx
  · rcases mem_dxValues.mp h with ⟨n, -, -, hdx⟩
    rw [engineDx_eq] at hdx
    split_ifs at hdx
    exact classifierDx_mem (hsmoothed n) hdx

/-- So is the engine's index. -/
theorem engineAdx_mem (hperiod : 1 < (period : ℕ)) :
    0 ≤ engineAdx period candles ∧ engineAdx period candles ≤ 100 := by
  rw [engineAdx_eq]
  exact wilderMean_mem period.pos (by norm_num) fun x hx => dxValues_mem hperiod (Or.inr hx)

/-- And the classifier's. -/
theorem calculateAdx_mem (hperiod : 1 < (period : ℕ)) :
    0 ≤ calculateAdx period candles ∧ calculateAdx period candles ≤ 100 := by
  rw [calculateAdx_eq]
  by_cases hfew : (dxValues classifierDx period (movements candles)).length < period
  · rw [wilder_of_lt hfew]
    norm_num
  · rw [wilder_eq_wilderMean (not_lt.mp hfew)]
    exact wilderMean_mem period.pos (by norm_num) fun x hx => dxValues_mem hperiod (Or.inl hx)

/-- The engine's index is zero exactly if at each bar both directions are equal so far, or there
was no range. -/
theorem engineAdx_eq_zero_iff (hperiod : 1 < (period : ℕ)) :
    engineAdx period candles = 0 ↔
      ∀ n, (period : ℕ) < n → n ≤ (movements candles).length →
        (∀ m ∈ (movements candles).take n, m.tr = 0) ∨
          wilderSum period (((movements candles).take n).map Movement.signed) = 0 := by
  have hms : ∀ n, ∀ m ∈ (movements candles).take n, m.Nonneg := fun n m hm =>
    movements_nonneg candles m (List.mem_of_mem_take hm)
  have hpoint : ∀ n,
      (∀ x, engineDx (Movement.smoothed period ((movements candles).take n)) = some x → x = 0) ↔
        (∀ m ∈ (movements candles).take n, m.tr = 0) ∨
          wilderSum period (((movements candles).take n).map Movement.signed) = 0 := by
    intro n
    have hsigned := @wilderSum_map_sub ℚ _ period _ Movement.plus Movement.minus
      ((movements candles).take n)
    rw [engineDx_eq_zero_iff (smoothed_nonneg hperiod (hms n)),
      (smoothed_eq_zero_iff hperiod (hms n)).1, ← sub_eq_zero, Movement.smoothed, ← hsigned]
    rfl
  rw [engineAdx_eq, wilderMean_eq_zero_iff hperiod fun x hx => (dxValues_mem hperiod (Or.inr hx)).1]
  constructor
  · intro h n hlt hle
    exact (hpoint n).mp fun x hx => h x (mem_dxValues.mpr ⟨n, hlt, hle, hx⟩)
  · intro h x hx
    rcases mem_dxValues.mp hx with ⟨n, hlt, hle, hdx⟩
    exact (hpoint n).mpr (h n hlt hle) x hdx

/-- Then the classifier's index is zero as well. -/
theorem calculateAdx_eq_zero (hperiod : 1 < (period : ℕ)) (h : engineAdx period candles = 0) :
    calculateAdx period candles = 0 := by
  rw [engineAdx_eq, wilderMean_eq_zero_iff hperiod
    fun x hx => (dxValues_mem hperiod (Or.inr hx)).1] at h
  rw [calculateAdx_eq]
  by_cases hfew : (dxValues classifierDx period (movements candles)).length < period
  · exact wilder_of_lt hfew
  · rw [wilder_eq_wilderMean (not_lt.mp hfew), wilderMean_eq_zero_iff hperiod
      fun x hx => (dxValues_mem hperiod (Or.inl hx)).1]
    intro x hx
    rcases mem_dxValues.mp hx with ⟨n, hlt, hle, hdx⟩
    rcases classifierDx_cases hdx with hzero | hengine
    · exact hzero
    · exact h x (mem_dxValues.mpr ⟨n, hlt, hle, hengine⟩)

/-! ## Scale invariance -/

/-- A movement with all fields multiplied. -/
def Movement.scale (factor : ℚ) (m : Movement) : Movement :=
  ⟨factor * m.tr, factor * m.plus, factor * m.minus⟩

/-- Movements are multiplied with the prices. -/
theorem movement_scale {factor : ℚ} (hfactor : 0 < factor) (previous c : Candle) :
    movement (scaleCandle factor previous) (scaleCandle factor c) =
      (movement previous c).scale factor := by
  have habs : ∀ a : ℚ, |factor * a| = factor * |a| := by
    intro a
    rw [abs_mul, abs_of_pos hfactor]
  have hmax : ∀ a b : ℚ, max (factor * a) (factor * b) = factor * max a b := fun a b =>
    (mul_max_of_nonneg a b hfactor.le).symm
  have hchoice : ∀ a b : ℚ, (if factor * a > factor * b ∧ factor * a > 0 then factor * a else 0) =
      factor * if a > b ∧ a > 0 then a else 0 := by
    intro a b
    simp only [gt_iff_lt, mul_lt_mul_iff_right₀ hfactor, mul_pos_iff_of_pos_left hfactor, mul_ite,
      mul_zero]
  simp only [movement, scaleCandle, trueRange, Movement.scale, ← mul_sub, habs, hmax, hchoice]

/-- Neighbours of a series of multiplied prices. -/
theorem neighbours_map (f : Candle → Candle) (candles : List Candle) :
    neighbours (candles.map f) = (neighbours candles).map fun p => (f p.1, f p.2) := by
  rw [neighbours, ← List.map_tail, List.zip_map]
  rfl

/-- The movements of a series of multiplied prices. -/
theorem movements_scale {factor : ℚ} (hfactor : 0 < factor) (candles : List Candle) :
    movements (candles.map (scaleCandle factor)) =
      (movements candles).map (Movement.scale factor) := by
  simp only [movements, neighbours_map, List.map_map]
  exact List.map_congr_left fun p _ => movement_scale hfactor p.1 p.2

/-- A loop whose value has no unit returns the same for multiplied movements. -/
theorem dxLoop_scale {dx : Movement → Option ℚ} {factor : ℚ}
    (hdx : ∀ sums, dx (Movement.scale factor sums) = dx sums) (period : ℕ) (sums : Movement)
    (ms : List Movement) :
    dxLoop dx period (sums.scale factor) (ms.map (Movement.scale factor)) =
      dxLoop dx period sums ms := by
  induction ms generalizing sums with
  | nil => rfl
  | cons m ms ih =>
      have hnext : (sums.scale factor).accumulate period (m.scale factor) =
          (sums.accumulate period m).scale factor := by
        simp only [Movement.accumulate, Movement.scale, Movement.mk.injEq]
        refine ⟨?_, ?_, ?_⟩ <;> ring
      rw [List.map_cons, dxLoop, dxLoop, hnext, hdx, ih]

/-- The directional indices do not change with the unit of the prices. -/
theorem dxValues_scale {dx : Movement → Option ℚ} {factor : ℚ}
    (hdx : ∀ sums, dx (Movement.scale factor sums) = dx sums) (period : ℕ) (ms : List Movement) :
    dxValues dx period (ms.map (Movement.scale factor)) = dxValues dx period ms := by
  have htotal : ∀ front : List Movement,
      Movement.total (front.map (Movement.scale factor)) =
        (Movement.total front).scale factor := by
    intro front
    simp only [Movement.total, Movement.scale, List.map_map, Function.comp_def,
      List.sum_map_mul_left]
  rw [dxValues, ← List.map_take, ← List.map_drop, htotal, dxLoop_scale hdx, dxValues]

/-- Nor does the classifier's value. -/
theorem classifierDx_scale {factor : ℚ} (hfactor : factor ≠ 0) (sums : Movement) :
    classifierDx (sums.scale factor) = classifierDx sums := by
  have hratio : ∀ y : ℚ, 100 * (factor * y) / (factor * sums.tr) = 100 * y / sums.tr := by
    intro y
    rw [mul_left_comm, mul_div_mul_left _ _ hfactor]
  simp only [classifierDx, Movement.scale, mul_eq_zero, hfactor, false_or, hratio]

/-- Nor the engine's. -/
theorem engineDx_scale {factor : ℚ} (hfactor : factor ≠ 0) (sums : Movement) :
    engineDx (sums.scale factor) = engineDx sums := by
  have hzero : (sums.scale factor).plus + (sums.scale factor).minus = 0 ↔
      sums.plus + sums.minus = 0 := by
    rw [Movement.scale, ← mul_add, mul_eq_zero, or_iff_right hfactor]
  simp only [engineDx_eq, hzero, classifierDx_scale hfactor]

/-- The classifier's index does not change with the unit of the prices. -/
theorem calculateAdx_scale {factor : ℚ} (hfactor : 0 < factor) (candles : List Candle) :
    calculateAdx period (candles.map (scaleCandle factor)) = calculateAdx period candles := by
  rw [calculateAdx_eq, calculateAdx_eq, movements_scale hfactor,
    dxValues_scale (classifierDx_scale hfactor.ne')]

/-- Nor does the engine's. -/
theorem engineAdx_scale {factor : ℚ} (hfactor : 0 < factor) (candles : List Candle) :
    engineAdx period (candles.map (scaleCandle factor)) = engineAdx period candles := by
  rw [engineAdx_eq, engineAdx_eq, movements_scale hfactor,
    dxValues_scale (engineDx_scale hfactor.ne')]

/-! ## Where the classifier and the engine agree -/

/-- A series of more than two periods whose prices move, and in a direction, by its first bar
behind a period has the same index for the classifier and for the engine. -/
theorem engineAdx_eq_calculateAdx (hperiod : 1 < (period : ℕ))
    (hlong : 2 * (period : ℕ) < candles.length)
    (hrange : ∃ m ∈ (movements candles).take (period + 1), m.tr ≠ 0)
    (hdirection : ∃ m ∈ (movements candles).take (period + 1), m.plus ≠ 0 ∨ m.minus ≠ 0) :
    engineAdx period candles = calculateAdx period candles := by
  have hvalue : ∀ n, ∃ y,
      classifierDx (Movement.smoothed period ((movements candles).take (period + (n + 1)))) =
        some y ∧
      engineDx (Movement.smoothed period ((movements candles).take (period + (n + 1)))) =
        some y := by
    intro n
    have hsub := List.take_subset_take_left (movements candles)
      (show (period : ℕ) + 1 ≤ period + (n + 1) by omega)
    have hms : ∀ m ∈ (movements candles).take (period + (n + 1)), m.Nonneg := fun m hm =>
      movements_nonneg candles m (List.mem_of_mem_take hm)
    have hsums := smoothed_nonneg hperiod hms
    have htr : (Movement.smoothed period ((movements candles).take (period + (n + 1)))).tr ≠ 0 := by
      rcases hrange with ⟨m, hm, hne⟩
      exact mt (fun h => (smoothed_eq_zero_iff hperiod hms).1.mp h m (hsub hm)) hne
    have hdi : (Movement.smoothed period ((movements candles).take (period + (n + 1)))).plus +
        (Movement.smoothed period ((movements candles).take (period + (n + 1)))).minus ≠ 0 := by
      intro h
      rw [add_eq_zero_iff_of_nonneg hsums.plus hsums.minus] at h
      rcases hdirection with ⟨m, hm, hplus | hminus⟩
      · exact hplus ((smoothed_eq_zero_iff hperiod hms).2.1.mp h.1 m (hsub hm))
      · exact hminus ((smoothed_eq_zero_iff hperiod hms).2.2.mp h.2 m (hsub hm))
    rw [engineDx_eq, if_neg hdi]
    unfold classifierDx
    dsimp only
    rw [if_neg htr]
    split_ifs
    · exact ⟨_, rfl, rfl⟩
    · exact ⟨_, rfl, rfl⟩
  choose y hclassifier hengine using hvalue
  have hvalues : dxValues engineDx period (movements candles) =
      dxValues classifierDx period (movements candles) := by
    simp only [dxValues_eq_filterMap, hclassifier, hengine]
  have hlength : (dxValues classifierDx period (movements candles)).length =
      candles.length - 1 - period := by
    simp only [dxValues_eq_filterMap, hclassifier]
    rw [show (fun n => some (y n)) = some ∘ y from rfl, List.filterMap_eq_map, List.length_map,
      List.length_range, length_movements]
  rw [engineAdx_eq, calculateAdx_eq, wilder_eq_wilderMean (by omega), hvalues]

end Averages

/-! ## The fallback -/

/-- The fallback's range is not negative. -/
theorem manualRange_nonneg (previous c : Candle) : 0 ≤ manualRange previous c :=
  (abs_nonneg _).trans (le_max_right _ _)

/-- The fallback's range vanishes exactly where the true range does. -/
theorem manualRange_eq_zero_iff {previous c : Candle} (hc : c.low ≤ c.high) :
    manualRange previous c = 0 ↔ (movement previous c).tr = 0 := by
  have hown : 0 ≤ c.high - c.low := sub_nonneg.mpr hc
  have hmax : ∀ a b : ℚ, 0 ≤ a → 0 ≤ b → (max a b = 0 ↔ a = 0 ∧ b = 0) := by
    intro a b ha hb
    constructor
    · intro h
      exact ⟨le_antisymm (h ▸ le_max_left a b) ha, le_antisymm (h ▸ le_max_right a b) hb⟩
    · rintro ⟨rfl, rfl⟩
      exact max_self 0
  rw [manualRange, movement, trueRange, hmax _ _ hown (abs_nonneg _),
    hmax _ _ hown ((abs_nonneg _).trans (le_max_left _ _)), hmax _ _ (abs_nonneg _) (abs_nonneg _)]
  constructor
  · rintro ⟨hrange, hhigh⟩
    refine ⟨hrange, hhigh, ?_⟩
    rwa [← sub_eq_zero.mp hrange]
  · rintro ⟨hrange, hhigh, -⟩
    exact ⟨hrange, hhigh⟩

/-- The fallback returns zero for fewer than fifteen bars, or where the last fourteen have no
range. -/
theorem manualAdx_eq_zero_iff (s : Series) :
    manualAdx s.candles = 0 ↔ s.candles.length < 15 ∨
      ∀ m ∈ (movements s.candles).drop ((movements s.candles).length - 14), m.tr = 0 := by
  have hordered : ∀ p ∈ neighbours s.candles, p.2.low ≤ p.2.high := fun p hp =>
    s.ordered p.2 (List.mem_of_mem_tail (List.of_mem_zip hp).2)
  have hpoint : ∀ k, (∀ x ∈ ((neighbours s.candles).map fun p => manualRange p.1 p.2).drop k,
      x = 0) ↔ ∀ m ∈ (movements s.candles).drop k, m.tr = 0 := by
    intro k
    rw [movements, ← List.map_drop, ← List.map_drop, List.forall_mem_map, List.forall_mem_map]
    exact forall₂_congr fun p hp =>
      manualRange_eq_zero_iff (hordered p (List.mem_of_mem_drop hp))
  have hlength : ((neighbours s.candles).map fun p => manualRange p.1 p.2).length =
      (movements s.candles).length := by
    rw [movements, List.length_map, List.length_map]
  have hmovements := length_movements s.candles
  unfold manualAdx
  by_cases hshort : s.candles.length < 15
  · rw [if_pos hshort]
    exact iff_of_true rfl (Or.inl hshort)
  · rw [if_neg hshort, or_iff_right hshort, ← hpoint]
    dsimp only
    rw [mean, div_eq_zero_iff, sum_eq_zero_iff_of_nonneg, hlength, or_iff_left]
    · rw [Nat.cast_eq_zero, List.length_drop, hlength]
      omega
    · intro x hx
      rcases List.mem_map.mp (List.mem_of_mem_drop hx) with ⟨p, -, rfl⟩
      exact manualRange_nonneg p.1 p.2

/-- The fallback's value grows with the prices. -/
theorem manualAdx_scale {factor : ℚ} (hfactor : 0 < factor) (candles : List Candle) :
    manualAdx (candles.map (scaleCandle factor)) = factor * manualAdx candles := by
  have hrange : ∀ p : Candle × Candle,
      manualRange (scaleCandle factor p.1) (scaleCandle factor p.2) =
        factor * manualRange p.1 p.2 := by
    intro p
    rw [manualRange, manualRange, mul_max_of_nonneg _ _ hfactor.le, ← abs_of_pos hfactor,
      ← abs_mul, abs_of_pos hfactor, mul_sub, mul_sub]
    rfl
  unfold manualAdx
  rw [List.length_map]
  split_ifs with hshort
  · rw [mul_zero]
  · simp only [neighbours_map, List.map_map, Function.comp_def, hrange, List.length_map, mean,
      ← List.map_drop, List.sum_map_mul_left, mul_div_assoc]

/-! ## Agreement -/

section Agreement

variable {s : Series}

/-- All implementations return zero exactly for a motionless series. -/
theorem adx_eq_zero_iff (s : Series) :
    (∀ i : Implementation, i.adx s.candles = 0) ↔ Motionless s.candles := by
  have hperiod : 1 < (adxPeriod : ℕ) := by decide
  have hmanual := manualAdx_eq_zero_iff s
  have hengine := @engineAdx_eq_zero_iff adxPeriod s.candles hperiod
  have hshort : s.candles.length < 15 → engineAdx adxPeriod s.candles = 0 := fun h => if_pos h
  constructor
  · intro h
    rcases hmanual.mp (h .fallback) with hfew | hstill
    · exact Or.inl hfew
    · exact Or.inr ⟨hstill, hengine.mp (h .engine)⟩
  · intro h
    have hboth : manualAdx s.candles = 0 ∧ engineAdx adxPeriod s.candles = 0 := by
      rcases h with hfew | ⟨hstill, hbalanced⟩
      · exact ⟨hmanual.mpr (Or.inl hfew), hshort hfew⟩
      · exact ⟨hmanual.mpr (Or.inr hstill), hengine.mpr hbalanced⟩
    intro i
    cases i with
    | classifier => exact calculateAdx_eq_zero hperiod hboth.2
    | engine => exact hboth.2
    | fallback => exact hboth.1

/-- Whatever number of bars the index needs, and whatever it is from there on: the implementations
agree exactly on motionless series of too few bars. -/
theorem adx_agree_iff (bars : ℕ) (wilderAdx : List Candle → ℚ) (s : Series) :
    Agree bars wilderAdx s ↔ s.candles.length < bars ∧ Motionless s.candles := by
  constructor
  · intro h
    have htwice := h.scaled .fallback 2 two_pos
    rw [Implementation.adx, Series.scale, manualAdx_scale two_pos] at htwice
    have hzero : Implementation.fallback.adx s.candles = 0 := by
      rw [Implementation.adx]
      linarith
    refine ⟨(h.zero .fallback).mp hzero, (adx_eq_zero_iff s).mp fun i => ?_⟩
    rw [h.same i .fallback, hzero]
  · rintro ⟨hfew, hstill⟩
    have hzero := (adx_eq_zero_iff s).mpr hstill
    refine ⟨fun i j => by rw [hzero, hzero], fun hbars => absurd hfew (by omega), fun i => ?_,
      fun i factor hfactor => ?_, fun i => iff_of_true (hzero i) hfew⟩
    · rw [hzero]
      norm_num
    · cases i with
      | classifier => exact calculateAdx_scale hfactor s.candles
      | engine => exact engineAdx_scale hfactor s.candles
      | fallback =>
          have hmanual : manualAdx s.candles = 0 := hzero .fallback
          rw [Implementation.adx, Series.scale, manualAdx_scale hfactor, hmanual, mul_zero]

end Agreement

/-- The bar at a place of a market that rises by one in each bar. -/
def risingBar (n : ℕ) : Candle where
  ts := n
  opening := 100 + n
  high := 101 + n
  low := 99 + n
  close := 100 + n
  volume := 1

/-- A market that rises by one in each bar. -/
def rising (length : ℕ) : Series where
  candles := (List.range length).map risingBar
  ordered := by
    rw [List.forall_mem_map]
    intro n _
    simp only [risingBar]
    linarith
  low_pos := by
    rw [List.forall_mem_map]
    intro n _
    simp only [risingBar]
    positivity
  close_pos := by
    rw [List.forall_mem_map]
    intro n _
    simp only [risingBar]
    positivity

/-- In sixteen bars of a rise the classifier has too few values, the engine shows a fourteenth of
a full trend, and the fallback the range of a bar. -/
theorem rising_sixteen :
    calculateAdx adxPeriod (rising 16).candles = 0 ∧
      engineAdx adxPeriod (rising 16).candles = 50 / 7 ∧ manualAdx (rising 16).candles = 2 := by
  decide +kernel

/-- In thirty bars the others show a full trend, and the fallback still the range of a bar. -/
theorem rising_thirty :
    calculateAdx adxPeriod (rising 30).candles = 100 ∧
      engineAdx adxPeriod (rising 30).candles = 100 ∧ manualAdx (rising 30).candles = 2 := by
  decide +kernel

/-- The implementations do not agree on a rise, with bars enough for an index or without. -/
theorem adx_differ :
    (∀ bars wilderAdx, ¬ Agree bars wilderAdx (rising 16)) ∧
      ∀ bars wilderAdx, ¬ Agree bars wilderAdx (rising 30) := by
  constructor
  · intro bars wilderAdx h
    have hsame : calculateAdx adxPeriod (rising 16).candles = manualAdx (rising 16).candles :=
      h.same .classifier .fallback
    rw [rising_sixteen.1, rising_sixteen.2.2] at hsame
    norm_num at hsame
  · intro bars wilderAdx h
    have hsame : calculateAdx adxPeriod (rising 30).candles = manualAdx (rising 30).candles :=
      h.same .classifier .fallback
    rw [rising_thirty.1, rising_thirty.2.2] at hsame
    norm_num at hsame

end Adx
end Karsa
