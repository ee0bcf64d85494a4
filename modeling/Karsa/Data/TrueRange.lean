import Karsa.Consumer.CandleBuffer
import Karsa.Foundations.Decimal
import Karsa.Foundations.Smoothing
import Mathlib.Data.PNat.Basic
import Mathlib.Data.Rat.Floor

/-!
# Market data - Average true range

Four places compute the average true range of a candle array, each with its own loop: the
decision engine on rolled arrays, the backtest engine once as a number and once as an array,
and the universe scanner on lists of prices.  They index the true ranges differently and
agree on Wilder's average of the true ranges of neighbouring candles.

Main results:

- Theorem `backtestAtrArray_getElem?`: an entry of the array is the average up to its candle.
- Theorem `atr_agree`: the four implementations agree.
-/

namespace Karsa
namespace TrueRange

open MarketFeed

variable (period : ℕ+) (candles : List Candle)

/-- True range of a candle behind a close. -/
def trueRange (high low previousClose : ℚ) : ℚ :=
  max (high - low) (max |high - previousClose| |low - previousClose|)

/-- The default of `period`. -/
def atrPeriod : ℕ+ := 14

/-! ## The implementations -/

/-- `np.roll(closes, 1)` with its first entry set to the first close. -/
def prevCloses (closes : List ℚ) : List ℚ :=
  (closes.getLast?.toList ++ closes.dropLast).set 0 (closes.headD 0)

/-- `DecisionEngine._calculate_atr`. -/
def decisionAtr : ℚ :=
  let highs := candles.map Candle.high
  let lows := candles.map Candle.low
  let closes := candles.map Candle.close
  if highs.length < period + 1 then 0
  else
    let tr := (List.zipWith (fun (hl : ℚ × ℚ) previous => trueRange hl.1 hl.2 previous)
      (highs.zip lows) (prevCloses closes)).drop 1
    (tr.drop period).foldl (fun atr x => (atr * (period - 1) + x) / period)
      ((tr.take period).sum / period)

/-- The true ranges of the loop over `range(1, n)`. -/
def loopRanges : List Candle → List ℚ
  | previous :: c :: rest => trueRange c.high c.low previous.close :: loopRanges (c :: rest)
  | [_] | [] => []

/-- `BacktestEngine._calculate_atr`, rounded to eight digits. -/
def backtestAtr : ℚ :=
  if candles.length < period + 1 then 0
  else
    let trs := loopRanges candles
    if trs.length < period then 0
    else
      quantize (1 / 10 ^ 8)
        ((trs.drop period).foldl (fun atr tr => (atr * (period - 1) + tr) / period)
          ((trs.take period).sum / period))

/-- `BacktestEngine._calculate_atr_array`: zeros up to the seed, then each entry from the one
before it. -/
def backtestAtrArray : List ℚ :=
  if candles.length < period + 1 then List.replicate candles.length 0
  else
    let tr := 0 :: loopRanges candles
    List.replicate period (0 : ℚ) ++
      (tr.drop (period + 1)).scanl (fun (atr x : ℚ) => (atr * (period - 1) + x) / period)
        (((tr.drop 1).take period).sum / period)

/-- `compute_atr` of the universe scanner. -/
def computeAtr (highs lows closes : List ℚ) : ℚ :=
  if closes.length < period + 1 then 0
  else
    let previous := closes.headD 0 :: closes.dropLast
    let trValues := List.zipWith (fun (hl : ℚ × ℚ) previous => trueRange hl.1 hl.2 previous)
      (highs.zip lows) previous
    (trValues.drop (period + 1)).foldl (fun atr x => (atr * (period - 1) + x) / period)
      (((trValues.drop 1).take period).sum / period)

/-! ## Their common value -/

/-- Wilder's average of the true ranges. -/
def wilderAtr : ℚ :=
  wilder period (loopRanges candles)

/-- One true range for each pair of neighbours. -/
@[simp] theorem length_loopRanges (candles : List Candle) :
    (loopRanges candles).length = candles.length - 1 := by
  induction candles with
  | nil => rfl
  | cons first rest ih =>
      cases rest with
      | nil => rfl
      | cons second rest => simpa [loopRanges] using ih

/-- The true ranges of a prefix are a prefix of the true ranges. -/
theorem loopRanges_take (candles : List Candle) (n : ℕ) :
    loopRanges (candles.take (n + 1)) = (loopRanges candles).take n := by
  induction candles generalizing n with
  | nil => simp [loopRanges]
  | cons first rest ih =>
      cases rest with
      | nil => simp [loopRanges]
      | cons second rest =>
          cases n with
          | zero => simp [loopRanges]
          | succ n =>
              have hrest := ih n
              simp only [List.take_succ_cons, loopRanges] at hrest ⊢
              rw [hrest]

/-- Behind the first candle the true ranges over previous closes are those of the loop. -/
theorem zipWith_trueRange (candles : List Candle) (previous : ℚ) :
    List.zipWith (fun (hl : ℚ × ℚ) previous => trueRange hl.1 hl.2 previous)
        ((candles.map Candle.high).zip (candles.map Candle.low))
        (previous :: (candles.map Candle.close).dropLast) =
      match candles with
      | [] => []
      | c :: _ => trueRange c.high c.low previous :: loopRanges candles := by
  induction candles generalizing previous with
  | nil => rfl
  | cons first rest ih =>
      cases rest with
      | nil => rfl
      | cons second rest =>
          have hrest := ih first.close
          simp only [List.map_cons, List.zip_cons_cons, List.dropLast_cons_cons,
            List.zipWith_cons_cons, loopRanges] at hrest ⊢
          rw [hrest]

/-- Rolling the closes puts the first close before all but the last. -/
theorem prevCloses_eq {closes : List ℚ} (h : closes ≠ []) :
    prevCloses closes = closes.headD 0 :: closes.dropLast := by
  rw [prevCloses, List.getLast?_eq_some_getLast h]
  rfl

/-- The decision engine computes Wilder's average. -/
theorem decisionAtr_eq : decisionAtr period candles = wilderAtr period candles := by
  unfold decisionAtr wilderAtr
  dsimp only
  rw [List.length_map]
  split_ifs with hshort
  · rw [wilder_of_lt]
    have hpos := period.pos
    rw [length_loopRanges]
    omega
  · have hne : candles.map Candle.close ≠ [] := by
      intro hnil
      rw [List.map_eq_nil_iff] at hnil
      subst hnil
      simp at hshort
    rw [prevCloses_eq hne, zipWith_trueRange]
    cases candles with
    | nil => simp at hshort
    | cons first rest =>
        rw [wilder, if_neg (by rw [length_loopRanges]; omega)]
        rfl

/-- True ranges are not negative. -/
theorem loopRanges_nonneg : ∀ x ∈ loopRanges candles, 0 ≤ x := by
  induction candles with
  | nil => simp [loopRanges]
  | cons first rest ih =>
      cases rest with
      | nil => simp [loopRanges]
      | cons second rest =>
          intro x hx
          rcases List.mem_cons.1 hx with rfl | hx
          · exact (abs_nonneg _).trans ((le_max_left _ _).trans (le_max_right _ _))
          · exact ih x hx

/-- Nor is their average. -/
theorem decisionAtr_nonneg : 0 ≤ decisionAtr period candles := by
  rw [decisionAtr_eq]
  exact wilder_nonneg period.pos (loopRanges_nonneg candles)

/-- So does the scanner, on the columns of the array. -/
theorem computeAtr_eq :
    computeAtr period (candles.map Candle.high) (candles.map Candle.low)
      (candles.map Candle.close) = wilderAtr period candles := by
  unfold computeAtr wilderAtr
  dsimp only
  rw [List.length_map]
  split_ifs with hshort
  · rw [wilder_of_lt]
    have hpos := period.pos
    rw [length_loopRanges]
    omega
  · rw [zipWith_trueRange]
    cases candles with
    | nil => simp at hshort
    | cons first rest =>
        rw [wilder, if_neg (by rw [length_loopRanges]; omega)]
        rfl

/-- The backtest engine rounds it. -/
theorem backtestAtr_eq :
    backtestAtr period candles = quantize (1 / 10 ^ 8) (wilderAtr period candles) := by
  have hzero : quantize (1 / 10 ^ 8) (0 : ℚ) = 0 := by
    have hmul := quantize_mul_step (show (1 / 10 ^ 8 : ℚ) ≠ 0 by norm_num) 0
    rwa [Int.cast_zero, zero_mul] at hmul
  have hpos := period.pos
  unfold backtestAtr wilderAtr
  dsimp only
  by_cases hshort : candles.length < period + 1
  · rw [if_pos hshort, wilder_of_lt (by rw [length_loopRanges]; omega), hzero]
  · have hlong : ¬ (loopRanges candles).length < period := by
      rw [length_loopRanges]
      omega
    rw [if_neg hshort, if_neg hlong, wilder, if_neg hlong]
    rfl

/-- An entry of the array is the average up to its candle, zero before the seed. -/
theorem backtestAtrArray_getElem? {i : ℕ} (hi : i < candles.length) :
    (backtestAtrArray period candles)[i]? = some (wilderAtr period (candles.take (i + 1))) := by
  have hpos := period.pos
  unfold backtestAtrArray wilderAtr
  rw [loopRanges_take]
  split_ifs with hshort
  · rw [wilder_of_lt]
    · rw [List.getElem?_replicate, if_pos hi]
    · rw [List.length_take, length_loopRanges]
      omega
  · by_cases hseed : i < period
    · rw [List.getElem?_append_left (by simpa using hseed), List.getElem?_replicate,
        if_pos hseed, wilder_of_lt]
      rw [List.length_take, length_loopRanges]
      omega
    · rw [List.getElem?_append_right (by simpa using hseed), List.length_replicate]
      have hlong : (period : ℕ) + (i - period) ≤ (loopRanges candles).length := by
        rw [length_loopRanges]
        omega
      have htable := wilderTable_getElem? hlong
      rw [Nat.add_sub_cancel' (by omega)] at htable
      exact htable

/-- The array has an entry for each candle. -/
@[simp] theorem length_backtestAtrArray :
    (backtestAtrArray period candles).length = candles.length := by
  unfold backtestAtrArray
  split_ifs with hshort
  · rw [List.length_replicate]
  · have htable : (wilderTable period (loopRanges candles)).length =
        (loopRanges candles).length - period + 1 := length_wilderTable
    rw [length_loopRanges] at htable
    rw [List.length_append, List.length_replicate]
    change period + (wilderTable period (loopRanges candles)).length = candles.length
    omega

/-! ## Agreement -/

/-- With enough candles all implementations return Wilder's average, the entries of the array
are those of the prefixes, and with fewer all return zero. -/
theorem atr_agree :
    (period + 1 ≤ candles.length →
      decisionAtr period candles = wilderAtr period candles ∧
      backtestAtr period candles = quantize (1 / 10 ^ 8) (wilderAtr period candles) ∧
      (backtestAtrArray period candles).getLast? = some (wilderAtr period candles) ∧
      computeAtr period (candles.map Candle.high) (candles.map Candle.low)
        (candles.map Candle.close) = wilderAtr period candles ∧
      ∀ i : ℕ, period ≤ i → i < candles.length →
        (backtestAtrArray period candles)[i]? =
          some (decisionAtr period (candles.take (i + 1)))) ∧
    (candles.length < period + 1 →
      decisionAtr period candles = 0 ∧ backtestAtr period candles = 0 ∧
      backtestAtrArray period candles = List.replicate candles.length 0 ∧
      computeAtr period (candles.map Candle.high) (candles.map Candle.low)
        (candles.map Candle.close) = 0) := by
  refine ⟨fun hlong => ⟨decisionAtr_eq period candles, backtestAtr_eq period candles, ?_,
    computeAtr_eq period candles, ?_⟩, fun hshort => ⟨?_, ?_, ?_, ?_⟩⟩
  · rw [List.getLast?_eq_getElem?, length_backtestAtrArray,
      backtestAtrArray_getElem? period candles (by omega)]
    rw [List.take_of_length_le (by omega)]
  · intro i _ hi
    rw [backtestAtrArray_getElem? period candles hi, decisionAtr_eq]
  · simp [decisionAtr, hshort]
  · simp [backtestAtr, hshort]
  · simp [backtestAtrArray, hshort]
  · simp [computeAtr, hshort]

end TrueRange
end Karsa
