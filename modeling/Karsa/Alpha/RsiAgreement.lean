import Karsa.Foundations.Decimal
import Karsa.Foundations.Smoothing
import Mathlib.Algebra.Order.Group.MinMax
import Mathlib.Data.List.GetD
import Mathlib.Data.PNat.Basic
import Mathlib.Data.Rat.Floor
import Mathlib.Tactic.Linarith
import Mathlib.Tactic.NormNum

/-!
# Indicators - Relative strength index

`ta_tools`, the strategy router and the exhaustion check of `ActivePositionManager` each compute
a relative strength index of fourteen changes, with numbers taken as exact.  The first two are
Wilder's index, the first one rounded to four digits.  The third takes the fourteenth change into
its averages a second time, and has no index of a hundred: without a loss it returns zero.

Main results:

- Theorems `calculateRsi_eq`, `routerRsi_eq`: the first two as Wilder's index.
- Theorem `rsi_mirror`: the index of a mirrored series.
- Theorem `exhaustionRsi_eq_iff`: where the third is Wilder's index.
- Theorem `rsi_agree_iff`: where all three agree and have a mirror law.
-/

namespace Karsa
namespace Rsi

/-! ## Changes -/

/-- The changes between neighbouring closes. -/
def deltas (closes : List ℚ) : List ℚ :=
  (closes.zip closes.tail).map fun p => p.2 - p.1

/-- `max(d, 0)`. -/
def gain (d : ℚ) : ℚ :=
  max d 0

/-- `abs(min(d, 0))`. -/
def loss (d : ℚ) : ℚ :=
  |min d 0|

/-! ## The implementations -/

/-- The loop that takes the values behind the first period into an average. -/
def smoothFrom (period : ℕ) (average : ℚ) (values : List ℚ) : ℚ :=
  values.foldl (fun average x => (average * (period - 1) + x) / period) average

/-- `ta_tools.calculate_rsi`. -/
def calculateRsi (period : ℕ+) (closes : List ℚ) : Option ℚ :=
  if closes.length < period + 1 then none
  else
    let gains := (deltas closes).map gain
    let losses := (deltas closes).map loss
    let avgGain := smoothFrom period ((gains.take period).sum / period) (gains.drop period)
    let avgLoss := smoothFrom period ((losses.take period).sum / period) (losses.drop period)
    if avgLoss = 0 then some 100
    else
      let rs := avgGain / avgLoss
      some (quantize (1 / 10 ^ 4) (100 - 100 / (1 + rs)))

/-- `StrategyRouter._calculate_rsi`. -/
def routerRsi (period : ℕ+) (closes : List ℚ) : ℚ :=
  if closes.length < period + 1 then 50
  else
    let gains := (deltas closes).map fun d => if 0 < d then d else 0
    let losses := (deltas closes).map fun d => if d < 0 then -d else 0
    let avgGain := smoothFrom period ((gains.take period).sum / period) (gains.drop period)
    let avgLoss := smoothFrom period ((losses.take period).sum / period) (losses.drop period)
    if avgLoss = 0 then 100
    else
      let rs := avgGain / avgLoss
      100 - 100 / (1 + rs)

/-- One pass of the loop of the exhaustion check. -/
def exhaustionStep (averages : ℚ × ℚ) (delta : ℚ) : ℚ × ℚ :=
  let upval := if 0 < delta then delta else 0
  let downval := if delta < 0 then -delta else 0
  ((averages.1 * 13 + upval) / 14, (averages.2 * 13 + downval) / 14)

/-- The averages at the end of the loop over `range(14, len(closes))`, which reads the change
before each index. -/
def exhaustionAverages (closes : List ℚ) : ℚ × ℚ :=
  let seed := (deltas closes).take 14
  let up := (seed.filter fun d => decide (0 ≤ d)).sum / 14
  let down := -(seed.filter fun d => decide (d < 0)).sum / 14
  ((deltas closes).drop 13).foldl exhaustionStep (up, down)

/-- The index of two averages in the exhaustion check. -/
def exhaustionIndex (averages : ℚ × ℚ) : ℚ :=
  let rs := if averages.2 ≠ 0 then averages.1 / averages.2 else 0
  100 - 100 / (1 + rs)

/-- `current_rsi` of `_check_momentum_exhaustion`. -/
def exhaustionRsi (closes : List ℚ) : ℚ :=
  exhaustionIndex (exhaustionAverages closes)

theorem rsiPeriod_pos : 0 < 14 := Nat.succ_pos 13

/-- The default of `period`. -/
def rsiPeriod : ℕ+ :=
  ⟨14, rsiPeriod_pos⟩

/-! ## Wilder's index -/

/-- The share of the gains in all movement, in percent, and a hundred where there is no loss. -/
def wilderRsi (closes : List ℚ) : ℚ :=
  let avgGain := wilder 14 ((deltas closes).map gain)
  let avgLoss := wilder 14 ((deltas closes).map loss)
  if avgLoss = 0 then 100 else 100 * avgGain / (avgGain + avgLoss)

/-- Closes enough for an index. -/
structure PriceSeries where
  closes : List ℚ
  long : 15 ≤ closes.length
  positive : ∀ c ∈ closes, 0 < c

/-- All closes are the same. -/
def Constant (closes : List ℚ) : Prop :=
  ∀ c ∈ closes, ∀ d ∈ closes, c = d

/-- The closes mirrored at a price. -/
def mirror (m : ℚ) (closes : List ℚ) : List ℚ :=
  closes.map fun c => 2 * m - c

/-- The implementations return Wilder's index, which is a percentage, and a mirrored series has
the rest to a hundred. -/
structure Agree (closes : List ℚ) : Prop where
  taTools : calculateRsi rsiPeriod closes = some (quantize (1 / 10 ^ 4) (wilderRsi closes))
  router : routerRsi rsiPeriod closes = wilderRsi closes
  exhaustion : exhaustionRsi closes = wilderRsi closes
  taTools_mem : ∀ x, calculateRsi rsiPeriod closes = some x → 0 ≤ x ∧ x ≤ 100
  router_mem : 0 ≤ routerRsi rsiPeriod closes ∧ routerRsi rsiPeriod closes ≤ 100
  exhaustion_mem : 0 ≤ exhaustionRsi closes ∧ exhaustionRsi closes ≤ 100
  taTools_mirror : ¬ Constant closes → ∀ m,
    calculateRsi rsiPeriod (mirror m closes) =
      (calculateRsi rsiPeriod closes).map fun x => 100 - x
  router_mirror : ¬ Constant closes → ∀ m,
    routerRsi rsiPeriod (mirror m closes) = 100 - routerRsi rsiPeriod closes
  exhaustion_mirror : ¬ Constant closes → ∀ m,
    exhaustionRsi (mirror m closes) = 100 - exhaustionRsi closes

/-- Taking in the fourteenth change once more leaves the ratio of the averages as it is. -/
def Unmoved (closes : List ℚ) : Prop :=
  let gains := (deltas closes).map gain
  let losses := (deltas closes).map loss
  wilder 14 gains * (losses.getD 13 0 - (losses.take 14).sum / 14) =
    wilder 14 losses * (gains.getD 13 0 - (gains.take 14).sum / 14)

/-! ## Averages of gains and losses -/

/-- Gains are not negative. -/
theorem gain_nonneg (d : ℚ) : 0 ≤ gain d :=
  le_max_right d 0

/-- Nor are losses. -/
theorem loss_nonneg (d : ℚ) : 0 ≤ loss d :=
  abs_nonneg _

/-- A loss is the gain of the opposite change. -/
theorem loss_eq (d : ℚ) : loss d = gain (-d) := by
  rw [loss, gain, abs_of_nonpos (min_le_right d 0), ← max_neg_neg, neg_zero]

/-- There is no gain in a change that is not positive. -/
theorem gain_eq_zero_iff (d : ℚ) : gain d = 0 ↔ ¬ 0 < d := by
  rw [gain, max_eq_right_iff, not_lt]

/-- There is no loss in a change that is not negative. -/
theorem loss_eq_zero_iff (d : ℚ) : loss d = 0 ↔ ¬ d < 0 := by
  rw [loss_eq, gain_eq_zero_iff, Left.neg_pos_iff]

/-- The gain as a branch. -/
theorem ite_gain (d : ℚ) : (if 0 < d then d else 0) = gain d := by
  split_ifs with h
  · exact (max_eq_left h.le).symm
  · exact (max_eq_right (not_lt.mp h)).symm

/-- The loss as a branch. -/
theorem ite_loss (d : ℚ) : (if d < 0 then -d else 0) = loss d := by
  rw [loss_eq, ← ite_gain]
  simp only [Left.neg_pos_iff]

section Averages

variable {closes : List ℚ}

/-- One change for each close behind the first. -/
@[simp] theorem length_deltas (closes : List ℚ) : (deltas closes).length = closes.length - 1 := by
  simp [deltas]

/-- An average of gains or losses vanishes only if all of them do. -/
theorem wilder_eq_zero_iff (hlong : 15 ≤ closes.length) {part : ℚ → ℚ} (hpart : ∀ d, 0 ≤ part d) :
    wilder 14 ((deltas closes).map part) = 0 ↔ ∀ d ∈ deltas closes, part d = 0 := by
  rw [wilder_eq_wilderMean (by simp; omega),
    wilderMean_eq_zero_iff (by norm_num) (List.forall_mem_map.mpr fun d _ => hpart d),
    List.forall_mem_map]

/-- The average loss vanishes only if there is none. -/
theorem avgLoss_eq_zero_iff (hlong : 15 ≤ closes.length) :
    wilder 14 ((deltas closes).map loss) = 0 ↔ ¬ ∃ d ∈ deltas closes, d < 0 := by
  rw [wilder_eq_zero_iff hlong loss_nonneg]
  simp only [loss_eq_zero_iff, not_exists, not_and]

/-- The average gain vanishes only if there is none. -/
theorem avgGain_eq_zero_iff (hlong : 15 ≤ closes.length) :
    wilder 14 ((deltas closes).map gain) = 0 ↔ ¬ ∃ d ∈ deltas closes, 0 < d := by
  rw [wilder_eq_zero_iff hlong gain_nonneg]
  simp only [gain_eq_zero_iff, not_exists, not_and]

/-- Averages are not negative. -/
theorem avg_nonneg {part : ℚ → ℚ} (hpart : ∀ d, 0 ≤ part d) :
    0 ≤ wilder 14 ((deltas closes).map part) :=
  wilder_nonneg (by norm_num) (List.forall_mem_map.mpr fun d _ => hpart d)

/-- The index of the relative strength is the share of the gains. -/
theorem index_eq_share {up down : ℚ} (hup : 0 ≤ up) (hdown : 0 < down) :
    100 - 100 / (1 + up / down) = 100 * up / (up + down) := by
  have hsum : up + down ≠ 0 := (add_pos_of_nonneg_of_pos hup hdown).ne'
  have hratio : 1 + up / down = (up + down) / down := by
    rw [add_div, div_self hdown.ne', add_comm]
  rw [hratio, div_div_eq_mul_div, eq_div_iff hsum, sub_mul, div_mul_cancel₀ _ hsum]
  ring

/-- A share is a percentage. -/
theorem share_mem {up down : ℚ} (hup : 0 ≤ up) (hdown : 0 ≤ down) :
    0 ≤ 100 * up / (up + down) ∧ 100 * up / (up + down) ≤ 100 := by
  refine ⟨div_nonneg (by linarith) (add_nonneg hup hdown), ?_⟩
  exact div_le_of_le_mul₀ (add_nonneg hup hdown) (by norm_num) (by linarith)

/-- Wilder's index is a percentage. -/
theorem wilderRsi_mem : 0 ≤ wilderRsi closes ∧ wilderRsi closes ≤ 100 := by
  unfold wilderRsi
  dsimp only
  split_ifs
  · norm_num
  · exact share_mem (avg_nonneg gain_nonneg) (avg_nonneg loss_nonneg)

/-! ## The two that agree -/

/-- The loop over the values behind a period computes Wilder's average. -/
theorem smoothFrom_eq_wilder (hlong : 15 ≤ closes.length) (part : ℚ → ℚ) :
    smoothFrom (rsiPeriod : ℕ) ((((deltas closes).map part).take rsiPeriod).sum / (rsiPeriod : ℕ))
        (((deltas closes).map part).drop rsiPeriod) = wilder 14 ((deltas closes).map part) := by
  rw [wilder_eq_wilderMean (by simp; omega)]
  rfl

/-- `ta_tools` rounds Wilder's index. -/
theorem calculateRsi_eq (hlong : 15 ≤ closes.length) :
    calculateRsi rsiPeriod closes = some (quantize (1 / 10 ^ 4) (wilderRsi closes)) := by
  have hhundred : quantize (1 / 10 ^ 4) (100 : ℚ) = 100 := by decide +kernel
  have hup : 0 ≤ wilder 14 ((deltas closes).map gain) := avg_nonneg gain_nonneg
  have hdown : 0 ≤ wilder 14 ((deltas closes).map loss) := avg_nonneg loss_nonneg
  unfold calculateRsi wilderRsi
  dsimp only
  rw [if_neg (by simp [rsiPeriod]; omega), smoothFrom_eq_wilder hlong gain,
    smoothFrom_eq_wilder hlong loss]
  split_ifs with hzero
  · rw [hhundred]
  · rw [index_eq_share hup (lt_of_le_of_ne hdown (Ne.symm hzero))]

/-- The router returns Wilder's index. -/
theorem routerRsi_eq (hlong : 15 ≤ closes.length) :
    routerRsi rsiPeriod closes = wilderRsi closes := by
  have hup : 0 ≤ wilder 14 ((deltas closes).map gain) := avg_nonneg gain_nonneg
  have hdown : 0 ≤ wilder 14 ((deltas closes).map loss) := avg_nonneg loss_nonneg
  unfold routerRsi wilderRsi
  simp only [ite_gain, ite_loss]
  rw [if_neg (by simp [rsiPeriod]; omega), smoothFrom_eq_wilder hlong gain,
    smoothFrom_eq_wilder hlong loss]
  split_ifs with hzero
  · rfl
  · rw [index_eq_share hup (lt_of_le_of_ne hdown (Ne.symm hzero))]

/-! ## The exhaustion check -/

/-- Its sums of rising and falling changes are sums of gains and losses. -/
theorem sum_filter_eq (seed : List ℚ) :
    (seed.filter fun d => decide (0 ≤ d)).sum = (seed.map gain).sum ∧
      -(seed.filter fun d => decide (d < 0)).sum = (seed.map loss).sum := by
  induction seed with
  | nil => simp
  | cons d rest ih =>
      rw [List.map_cons, List.map_cons, List.sum_cons, List.sum_cons, ← ih.1, ← ih.2, ← ite_gain,
        ← ite_loss]
      rcases lt_trichotomy d 0 with hneg | rfl | hpos
      · rw [List.filter_cons_of_neg (by simpa using hneg),
          List.filter_cons_of_pos (by simpa using hneg), if_neg hneg.not_gt, if_pos hneg,
          List.sum_cons]
        constructor <;> ring
      · simp
      · rw [List.filter_cons_of_pos (by simpa using hpos.le),
          List.filter_cons_of_neg (by simpa using hpos.le), if_pos hpos, if_neg hpos.not_gt,
          List.sum_cons]
        constructor <;> ring

/-- Its loop averages gains and losses apart. -/
theorem foldl_exhaustionStep (averages : ℚ × ℚ) (changes : List ℚ) :
    changes.foldl exhaustionStep averages =
      ((changes.map gain).foldl (smooth 14) averages.1,
        (changes.map loss).foldl (smooth 14) averages.2) := by
  induction changes generalizing averages with
  | nil => rfl
  | cons d rest ih =>
      have hstep : exhaustionStep averages d =
          (smooth 14 averages.1 (gain d), smooth 14 averages.2 (loss d)) := by
        simp only [exhaustionStep, smooth, ite_gain, ite_loss]
        norm_num
      rw [List.foldl_cons, ih, hstep]
      rfl

/-- An average into which the fourteenth value is taken twice. -/
def twiceTaken (values : List ℚ) : ℚ :=
  (values.drop 13).foldl (smooth 14) ((values.take 14).sum / 14)

/-- The averages of the exhaustion check. -/
theorem exhaustionAverages_eq (closes : List ℚ) :
    exhaustionAverages closes =
      (twiceTaken ((deltas closes).map gain), twiceTaken ((deltas closes).map loss)) := by
  have hsum := sum_filter_eq ((deltas closes).take 14)
  unfold exhaustionAverages
  dsimp only
  rw [foldl_exhaustionStep, hsum.1, hsum.2]
  simp only [twiceTaken, List.map_take, List.map_drop]

/-- The value taken twice moves the average by what is left of its weight. -/
theorem twiceTaken_eq {values : List ℚ} (hlong : 14 ≤ values.length) :
    twiceTaken values = wilder 14 values +
      (13 / 14) ^ (values.length - 14) * ((values.getD 13 0 - (values.take 14).sum / 14) / 14) := by
  have hsplit : values.drop 13 = values.getD 13 0 :: values.drop 14 := by
    rw [List.drop_eq_getElem_cons (by omega), List.getD_eq_getElem _ _ (by omega)]
  have hfirst : smooth 14 ((values.take 14).sum / 14) (values.getD 13 0) =
      (values.take 14).sum / 14 + (values.getD 13 0 - (values.take 14).sum / 14) / 14 := by
    rw [smooth]
    push_cast
    ring
  rw [twiceTaken, hsplit, List.foldl_cons, hfirst, foldl_smooth_add, wilder_eq_wilderMean hlong,
    wilderMean, List.length_drop]
  norm_num

/-- It vanishes where Wilder's average does. -/
theorem twiceTaken_eq_zero_iff {values : List ℚ} (hvalues : ∀ x ∈ values, 0 ≤ x) :
    0 ≤ twiceTaken values ∧ (twiceTaken values = 0 ↔ ∀ x ∈ values, x = 0) := by
  have hfront : ∀ x ∈ values.take 14, 0 ≤ x := fun x hx => hvalues x (List.mem_of_mem_take hx)
  have hrest : ∀ x ∈ values.drop 13, 0 ≤ x := fun x hx => hvalues x (List.mem_of_mem_drop hx)
  have hmean : 0 ≤ (values.take 14).sum / 14 := div_nonneg (List.sum_nonneg hfront) (by norm_num)
  refine ⟨foldl_smooth_nonneg (by norm_num) hmean hrest, ?_⟩
  rw [twiceTaken, foldl_smooth_eq_zero_iff (by norm_num) hmean hrest, div_eq_zero_iff,
    or_iff_left (by norm_num), sum_eq_zero_iff_of_nonneg hfront]
  constructor
  · rintro ⟨htake, hdrop⟩ x hx
    rw [← List.take_append_drop 14 values, List.mem_append] at hx
    rcases hx with hx | hx
    · exact htake x hx
    · exact hdrop x (List.drop_subset_drop_left _ (by norm_num) hx)
  · intro h
    exact ⟨fun x hx => h x (List.mem_of_mem_take hx), fun x hx => h x (List.mem_of_mem_drop hx)⟩

/-- The averages of the exhaustion check are not negative. -/
theorem twiceTaken_nonneg (closes : List ℚ) {part : ℚ → ℚ} (hpart : ∀ d, 0 ≤ part d) :
    0 ≤ twiceTaken ((deltas closes).map part) :=
  (twiceTaken_eq_zero_iff (List.forall_mem_map.mpr fun d _ => hpart d)).1

/-- They vanish only if all gains or losses do. -/
theorem twiceTaken_part_eq_zero_iff (closes : List ℚ) {part : ℚ → ℚ} (hpart : ∀ d, 0 ≤ part d) :
    twiceTaken ((deltas closes).map part) = 0 ↔ ∀ d ∈ deltas closes, part d = 0 := by
  rw [(twiceTaken_eq_zero_iff (List.forall_mem_map.mpr fun d _ => hpart d)).2,
    List.forall_mem_map]

/-- Shares of averages that were moved a little are equal if the moves are in proportion. -/
theorem share_eq_iff {up down up' down' : ℚ} (hsum : up + down ≠ 0) (hsum' : up' + down' ≠ 0) :
    100 * up' / (up' + down') = 100 * up / (up + down) ↔
      up * (down' - down) = down * (up' - up) := by
  rw [div_eq_div_iff hsum' hsum]
  constructor <;> intro h <;> linarith

/-- The exhaustion check has Wilder's index exactly where there is a loss and the fourteenth
change does not move the ratio of the averages. -/
theorem exhaustionRsi_eq_iff (hlong : 15 ≤ closes.length) :
    exhaustionRsi closes = wilderRsi closes ↔ (∃ d ∈ deltas closes, d < 0) ∧ Unmoved closes := by
  have hup : 0 ≤ wilder 14 ((deltas closes).map gain) := avg_nonneg gain_nonneg
  have hdown : 0 ≤ wilder 14 ((deltas closes).map loss) := avg_nonneg loss_nonneg
  have hup' := twiceTaken_nonneg closes gain_nonneg
  have hdown' := twiceTaken_nonneg closes loss_nonneg
  have hsame : twiceTaken ((deltas closes).map loss) = 0 ↔
      wilder 14 ((deltas closes).map loss) = 0 := by
    rw [twiceTaken_part_eq_zero_iff closes loss_nonneg, wilder_eq_zero_iff hlong loss_nonneg]
  unfold exhaustionRsi wilderRsi
  rw [exhaustionAverages_eq]
  dsimp only
  by_cases hloss : wilder 14 ((deltas closes).map loss) = 0
  · have hnone := (avgLoss_eq_zero_iff hlong).mp hloss
    rw [if_pos hloss, exhaustionIndex]
    dsimp only
    rw [if_neg (not_not.mpr (hsame.mpr hloss))]
    exact iff_of_false (by norm_num) (fun h => hnone h.1)
  · have hsome : ∃ d ∈ deltas closes, d < 0 := not_not.mp (mt (avgLoss_eq_zero_iff hlong).mpr hloss)
    have hpos : 0 < wilder 14 ((deltas closes).map loss) := lt_of_le_of_ne hdown (Ne.symm hloss)
    have hpos' : 0 < twiceTaken ((deltas closes).map loss) :=
      lt_of_le_of_ne hdown' (Ne.symm (mt hsame.mp hloss))
    have hweight : (0 : ℚ) < (13 / 14) ^ ((deltas closes).length - 14) := by positivity
    rw [if_neg hloss, exhaustionIndex]
    dsimp only
    rw [if_pos hpos'.ne', index_eq_share hup' hpos',
      share_eq_iff (add_pos_of_nonneg_of_pos hup hpos).ne'
        (add_pos_of_nonneg_of_pos hup' hpos').ne', and_iff_right hsome, Unmoved,
      twiceTaken_eq (by simp; omega), twiceTaken_eq (by simp; omega), List.length_map,
      List.length_map, add_sub_cancel_left, add_sub_cancel_left]
    have hcancel : ∀ average change : ℚ,
        average * ((13 / 14) ^ ((deltas closes).length - 14) * (change / 14)) =
          (13 / 14) ^ ((deltas closes).length - 14) / 14 * (average * change) := by
      intro average change
      ring
    rw [hcancel, hcancel, mul_right_inj' (div_pos hweight (by norm_num)).ne']

/-! ## Mirrored series -/

/-- The changes of a mirrored series. -/
theorem deltas_mirror (m : ℚ) (closes : List ℚ) :
    deltas (mirror m closes) = (deltas closes).map fun d => -d := by
  have hpoint : ∀ p : ℚ × ℚ, 2 * m - p.2 - (2 * m - p.1) = -(p.2 - p.1) := fun p => by ring
  simp only [deltas, mirror, ← List.map_tail, List.zip_map, List.map_map]
  exact List.map_congr_left fun p _ => hpoint p

/-- Gains and losses change places. -/
theorem gains_mirror (m : ℚ) (closes : List ℚ) :
    (deltas (mirror m closes)).map gain = (deltas closes).map loss := by
  rw [deltas_mirror, List.map_map]
  exact List.map_congr_left fun d _ => (loss_eq d).symm

/-- And the other way round. -/
theorem losses_mirror (m : ℚ) (closes : List ℚ) :
    (deltas (mirror m closes)).map loss = (deltas closes).map gain := by
  rw [deltas_mirror, List.map_map]
  refine List.map_congr_left fun d _ => ?_
  rw [Function.comp_apply, loss_eq, neg_neg]

/-- A series is constant if nothing changes. -/
theorem constant_iff (closes : List ℚ) : Constant closes ↔ ∀ d ∈ deltas closes, d = 0 := by
  induction closes with
  | nil => simp [Constant, deltas]
  | cons first rest ih =>
      cases rest with
      | nil => simp [Constant, deltas]
      | cons second rest =>
          have hdeltas : deltas (first :: second :: rest) =
              (second - first) :: deltas (second :: rest) := rfl
          rw [hdeltas, List.forall_mem_cons, ← ih, sub_eq_zero]
          constructor
          · intro h
            exact ⟨h second (by simp) first (by simp), fun c hc d hd =>
              h c (List.mem_cons_of_mem _ hc) d (List.mem_cons_of_mem _ hd)⟩
          · rintro ⟨rfl, hrest⟩ c hc d hd
            exact hrest c (by simpa using hc) d (by simpa using hd)

/-- Wilder's index of a mirrored series is the rest to a hundred. -/
theorem rsi_mirror (hlong : 15 ≤ closes.length) (hmoves : ¬ Constant closes) (m : ℚ) :
    wilderRsi (mirror m closes) = 100 - wilderRsi closes := by
  have hboth : ¬ (wilder 14 ((deltas closes).map gain) = 0 ∧
      wilder 14 ((deltas closes).map loss) = 0) := by
    rw [avgGain_eq_zero_iff hlong, avgLoss_eq_zero_iff hlong]
    rintro ⟨hgain, hloss⟩
    refine hmoves ((constant_iff closes).mpr fun d hd => ?_)
    exact le_antisymm (not_lt.mp fun h => hgain ⟨d, hd, h⟩) (not_lt.mp fun h => hloss ⟨d, hd, h⟩)
  unfold wilderRsi
  rw [gains_mirror, losses_mirror]
  dsimp only
  by_cases hgain : wilder 14 ((deltas closes).map gain) = 0
  · have hloss : wilder 14 ((deltas closes).map loss) ≠ 0 := fun h => hboth ⟨hgain, h⟩
    rw [if_pos hgain, if_neg hloss, hgain]
    simp
  · by_cases hloss : wilder 14 ((deltas closes).map loss) = 0
    · rw [if_neg hgain, if_pos hloss, hloss]
      simp
    · have hsum : wilder 14 ((deltas closes).map gain) + wilder 14 ((deltas closes).map loss) ≠ 0 :=
        (add_pos_of_nonneg_of_pos (avg_nonneg gain_nonneg)
          (lt_of_le_of_ne (avg_nonneg loss_nonneg) (Ne.symm hloss))).ne'
      rw [if_neg hgain, if_neg hloss, add_comm (wilder 14 ((deltas closes).map loss)),
        eq_sub_iff_add_eq, ← add_div, ← mul_add, div_eq_iff hsum, add_comm]

/-- The index of the exhaustion check is the share of the gains, or zero without a loss. -/
theorem exhaustionIndex_eq {up down : ℚ} (hup : 0 ≤ up) (hdown : 0 ≤ down) :
    exhaustionIndex (up, down) = if down = 0 then 0 else 100 * up / (up + down) := by
  unfold exhaustionIndex
  dsimp only
  by_cases hzero : down = 0
  · rw [if_neg (not_not.mpr hzero), if_pos hzero]
    norm_num
  · rw [if_pos hzero, if_neg hzero, index_eq_share hup (lt_of_le_of_ne hdown (Ne.symm hzero))]

/-- It is a percentage. -/
theorem exhaustionRsi_mem (closes : List ℚ) :
    0 ≤ exhaustionRsi closes ∧ exhaustionRsi closes ≤ 100 := by
  have hup := twiceTaken_nonneg closes gain_nonneg
  have hdown := twiceTaken_nonneg closes loss_nonneg
  rw [exhaustionRsi, exhaustionAverages_eq, exhaustionIndex_eq hup hdown]
  split_ifs
  · norm_num
  · exact share_mem hup hdown

/-- Where prices fell and rose, the exhaustion check has the mirror law, and only there. -/
theorem exhaustion_mirror_iff (hmoves : ¬ Constant closes) (m : ℚ) :
    exhaustionRsi (mirror m closes) = 100 - exhaustionRsi closes ↔
      (∃ d ∈ deltas closes, 0 < d) ∧ ∃ d ∈ deltas closes, d < 0 := by
  have hup := twiceTaken_nonneg closes gain_nonneg
  have hdown := twiceTaken_nonneg closes loss_nonneg
  have hgain : twiceTaken ((deltas closes).map gain) = 0 ↔ ¬ ∃ d ∈ deltas closes, 0 < d := by
    rw [twiceTaken_part_eq_zero_iff closes gain_nonneg]
    simp only [gain_eq_zero_iff, not_exists, not_and]
  have hloss : twiceTaken ((deltas closes).map loss) = 0 ↔ ¬ ∃ d ∈ deltas closes, d < 0 := by
    rw [twiceTaken_part_eq_zero_iff closes loss_nonneg]
    simp only [loss_eq_zero_iff, not_exists, not_and]
  rw [exhaustionRsi, exhaustionRsi, exhaustionAverages_eq, exhaustionAverages_eq, gains_mirror,
    losses_mirror, exhaustionIndex_eq hdown hup, exhaustionIndex_eq hup hdown]
  by_cases hrose : ∃ d ∈ deltas closes, 0 < d
  · by_cases hfell : ∃ d ∈ deltas closes, d < 0
    · have hup' := mt hgain.mp (not_not.mpr hrose)
      have hdown' := mt hloss.mp (not_not.mpr hfell)
      have hsum := (add_pos_of_nonneg_of_pos hup (lt_of_le_of_ne hdown (Ne.symm hdown'))).ne'
      rw [if_neg hup', if_neg hdown', add_comm (twiceTaken ((deltas closes).map loss)),
        eq_sub_iff_add_eq, ← add_div, ← mul_add, div_eq_iff hsum]
      exact iff_of_true (by ring) ⟨hrose, hfell⟩
    · rw [if_neg (mt hgain.mp (not_not.mpr hrose)), if_pos (hloss.mpr hfell), hloss.mpr hfell]
      exact iff_of_false (by norm_num) (fun h => hfell h.2)
  · have hfell : ∃ d ∈ deltas closes, d < 0 := by
      by_contra hfell
      refine hmoves ((constant_iff closes).mpr fun d hd => ?_)
      exact le_antisymm (not_lt.mp fun h => hrose ⟨d, hd, h⟩) (not_lt.mp fun h => hfell ⟨d, hd, h⟩)
    rw [if_pos (hgain.mpr hrose), if_neg (mt hloss.mp (not_not.mpr hfell)), hgain.mpr hrose]
    exact iff_of_false (by norm_num) (fun h => hrose h.1)

/-! ## Four digits -/

/-- Rounding to four digits keeps a percentage one. -/
theorem quantize_mem {x : ℚ} (hx : 0 ≤ x ∧ x ≤ 100) :
    0 ≤ quantize (1 / 10 ^ 4) x ∧ quantize (1 / 10 ^ 4) x ≤ 100 := by
  have hlow : 0 ≤ roundHalfEven (x / (1 / 10 ^ 4)) :=
    le_roundHalfEven (by push_cast; exact div_nonneg hx.1 (by norm_num))
  have hhigh : roundHalfEven (x / (1 / 10 ^ 4)) ≤ 1000000 :=
    roundHalfEven_le (by push_cast; rw [div_le_iff₀ (by norm_num)]; linarith [hx.2])
  have hlow' : (0 : ℚ) ≤ roundHalfEven (x / (1 / 10 ^ 4)) := by exact_mod_cast hlow
  have hhigh' : (roundHalfEven (x / (1 / 10 ^ 4)) : ℚ) ≤ 1000000 := by exact_mod_cast hhigh
  rw [quantize]
  constructor <;> linarith

/-- A hundred is an even number of the fourth digit's units, so rounding the rest to a hundred
gives the rest of the rounding. -/
theorem quantize_rest (x : ℚ) :
    quantize (1 / 10 ^ 4) (100 - x) = 100 - quantize (1 / 10 ^ 4) x := by
  have hunits : (100 - x) / (1 / 10 ^ 4) = ((1000000 : ℤ) : ℚ) - x / (1 / 10 ^ 4) := by
    push_cast
    ring
  rw [quantize, quantize, hunits, roundHalfEven_intCast_sub (by decide)]
  push_cast
  ring

end Averages

/-! ## Agreement -/

/-- The three implementations are Wilder's index and have its bounds and its mirror law exactly
for the series with a gain, a loss and a fourteenth change that does not move the ratio of the
averages when it is taken in once more. -/
theorem rsi_agree_iff (s : PriceSeries) :
    Agree s.closes ↔ (∃ d ∈ deltas s.closes, 0 < d) ∧ (∃ d ∈ deltas s.closes, d < 0) ∧
      Unmoved s.closes := by
  have hequal := exhaustionRsi_eq_iff s.long
  constructor
  · intro h
    have hfell := hequal.mp h.exhaustion
    have hmoves : ¬ Constant s.closes := by
      intro hconstant
      rcases hfell.1 with ⟨d, hd, hneg⟩
      exact hneg.ne ((constant_iff s.closes).mp hconstant d hd)
    exact ⟨((exhaustion_mirror_iff hmoves 0).mp (h.exhaustion_mirror hmoves 0)).1, hfell⟩
  · rintro ⟨hrose, hfell, hratio⟩
    have hlong : ∀ m, 15 ≤ (mirror m s.closes).length := fun m => by
      rw [mirror, List.length_map]
      exact s.long
    refine ⟨calculateRsi_eq s.long, routerRsi_eq s.long, hequal.mpr ⟨hfell, hratio⟩, ?_, ?_,
      exhaustionRsi_mem s.closes, fun hmoves m => ?_, fun hmoves m => ?_, fun hmoves m =>
        (exhaustion_mirror_iff hmoves m).mpr ⟨hrose, hfell⟩⟩
    · intro x hx
      rw [calculateRsi_eq s.long, Option.some_inj] at hx
      rw [← hx]
      exact quantize_mem wilderRsi_mem
    · rw [routerRsi_eq s.long]
      exact wilderRsi_mem
    · rw [calculateRsi_eq (hlong m), calculateRsi_eq s.long, rsi_mirror s.long hmoves,
        quantize_rest, Option.map_some]
    · rw [routerRsi_eq (hlong m), routerRsi_eq s.long, rsi_mirror s.long hmoves]

/-- Fifteen rising closes. -/
def rising : PriceSeries where
  closes := (List.range 15).map fun n : ℕ => 100 + (n : ℚ)
  long := by decide +kernel
  positive := by
    intro c hc
    rcases List.mem_map.mp hc with ⟨n, -, rfl⟩
    exact add_pos_of_pos_of_nonneg (by norm_num) (Nat.cast_nonneg n)

/-- On a pure rise the exhaustion check returns zero, where the others return a hundred. -/
theorem rising_disagree : ¬ Agree rising.closes := by
  intro h
  have hzero : exhaustionRsi rising.closes = 0 := by decide +kernel
  have hhundred : wilderRsi rising.closes = 100 := by decide +kernel
  have hequal := h.exhaustion
  rw [hzero, hhundred] at hequal
  exact absurd hequal (by norm_num)

end Rsi
end Karsa
