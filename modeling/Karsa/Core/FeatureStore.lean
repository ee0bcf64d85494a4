import Karsa.Alpha.AdxAgreement
import Karsa.Alpha.RsiAgreement
import Karsa.Data.TrueRange
import Karsa.Foundations.Memo
import Karsa.Foundations.NumberTexts

/-!
# Core - Feature store

A `FeatureStore` computes the indicators of one market snapshot, each when it is first asked for,
and keeps them under keys such as `atr_14`.  The decision engine and the backtest engine read all
their indicators from one.

Main results:

- Theorem `answers_eq`: the answers do not depend on what was asked before.
- Theorem `get_atr`: its average true range is the decision engine's.
- Theorem `atrPercentile_eq`: the percentile is a share of the last averages.
-/

namespace Karsa
namespace FeatureStore

open MarketFeed

/-- What the store reads of a `MarketSnapshot`. -/
structure MarketSnapshot where
  candles : List Candle
  bestBid : Option ℚ
  bestAsk : Option ℚ
deriving Repr, DecidableEq

/-- A getter with its period. -/
inductive Feature where
  | ema (period : ℕ+)
  | sma (period : ℕ+)
  | atr (period : ℕ+)
  | atrPercentile (period : ℕ+)
  | rsi (period : ℕ+)
  | adx (period : ℕ+)
  | hurst
  | spreadPct
deriving Repr, DecidableEq

/-- `str(period)`. -/
def periodText (period : ℕ+) : Text :=
  digitsText (natDigits period)

/-- `key`. -/
def Feature.key : Feature → Text
  | .ema period => 'e' :: 'm' :: 'a' :: '_' :: periodText period
  | .sma period => 's' :: 'm' :: 'a' :: '_' :: periodText period
  | .atr period => 'a' :: 't' :: 'r' :: '_' :: periodText period
  | .atrPercentile period =>
      'a' :: 't' :: 'r' :: '_' :: 'p' :: 'c' :: 't' :: '_' :: periodText period
  | .rsi period => 'r' :: 's' :: 'i' :: '_' :: periodText period
  | .adx period => 'a' :: 'd' :: 'x' :: '_' :: periodText period
  | .hurst => ['h', 'u', 'r', 's', 't']
  | .spreadPct => ['s', 'p', 'r', 'e', 'a', 'd', '_', 'p', 'c', 't']

/-! ## Indicators -/

/-- `calculate_ema`, rounded to eight digits. -/
def calculateEma (period : ℕ+) (closes : List ℚ) : Option ℚ :=
  match closes with
  | [] => none
  | first :: rest =>
      if closes.length < period then none
      else
        let k : ℚ := 2 / (period + 1)
        some (quantize (1 / 10 ^ 8)
          (rest.foldl (fun ema price => price * k + ema * (1 - k)) first))

/-- The average true range of `get_atr`. -/
def atrLoop (period : ℕ+) (candles : List Candle) : ℚ :=
  let highs := candles.map Candle.high
  let lows := candles.map Candle.low
  let closes := candles.map Candle.close
  let tr := List.zipWith (fun (hl : ℚ × ℚ) previous => TrueRange.trueRange hl.1 hl.2 previous)
    ((highs.drop 1).zip (lows.drop 1)) closes.dropLast
  (tr.drop period).foldl (fun atr x => (atr * (period - 1) + x) / period)
    ((tr.take period).sum / period)

/-- `atr_values` of `RegimeClassifier._calculate_atr_percentile`. -/
def atrValues (period : ℕ+) (candles : List Candle) : List ℚ :=
  let tr := (candles.head?.map fun c => c.high - c.low).toList ++ TrueRange.loopRanges candles
  List.replicate period (0 : ℚ) ++
    (tr.drop (period + 1)).scanl (fun (atr x : ℚ) => (atr * (period - 1) + x) / period)
      (((tr.drop 1).take period).sum / period)

/-- `lookback` of the percentile. -/
def lookback (period : ℕ+) (candles : List Candle) : ℕ :=
  min 100 (candles.length - period)

/-- `RegimeClassifier._calculate_atr_percentile`: how many of the last hundred values are below
the current one. -/
def calculateAtrPercentile (period : ℕ+) (candles : List Candle) : ℚ :=
  if candles.length < period + 1 then 50
  else
    let values := atrValues period candles
    let currentAtr := values.getLast?.getD 0
    let history := values.drop (values.length - lookback period candles)
    (history.filter fun atr => decide (atr < currentAtr)).length / history.length * 100

section Store

/- `RegimeClassifier._calculate_hurst` takes logarithms and fits a line. -/
variable (calculateHurst : List ℚ → ℚ) (snapshot : MarketSnapshot)

/-- What a getter computes. -/
def compute : Feature → Option ℚ
  | .ema period =>
      let closes := snapshot.candles.map Candle.close
      if closes.length < period then none
      else (calculateEma period closes).filter fun ema => decide (ema ≠ 0)
  | .sma period =>
      let closes := snapshot.candles.map Candle.close
      if closes.length < period then none
      else some ((closes.drop (closes.length - period)).sum / period)
  | .atr period =>
      if snapshot.candles.length < period + 1 then none
      else some (atrLoop period snapshot.candles)
  | .atrPercentile period => some (calculateAtrPercentile period snapshot.candles)
  | .rsi period =>
      let closes := snapshot.candles.map Candle.close
      if closes.length < period + 1 then none else some (Rsi.routerRsi period closes)
  | .adx period => some (Adx.calculateAdx period snapshot.candles)
  | .hurst => some (calculateHurst (snapshot.candles.map Candle.close))
  | .spreadPct =>
      match snapshot.bestBid, snapshot.bestAsk with
      | some bid, some ask =>
          if bid ≠ 0 ∧ ask ≠ 0 ∧ 0 < bid then some ((ask - bid) / bid * 100) else none
      | _, _ => none

/-- A store and its `_cache`. -/
abbrev Store : Type :=
  Memo Text (Option ℚ)

/-- A getter: computed if the key is not in the cache, then read from it. -/
def get (store : Store) (feature : Feature) : Option ℚ × Store :=
  store.query feature.key (compute calculateHurst snapshot feature)

/-- One getter after the other, on a store of the snapshot. -/
def getAll : Store → List Feature → List (Option ℚ) × Store
  | store, [] => ([], store)
  | store, feature :: rest =>
      let answer := get calculateHurst snapshot store feature
      let answers := getAll answer.2 rest
      (answer.1 :: answers.1, answers.2)

end Store

/-! ## Keys -/

/-- Different periods are written differently. -/
theorem periodText_injective : Function.Injective periodText :=
  digitsText_natDigits_injective.comp PNat.coe_injective

/-- A period begins with a digit. -/
theorem periodText_head (period : ℕ+) {c : Char} {rest : Text} (h : periodText period = c :: rest) :
    (asciiDigit c).isSome = true := by
  rw [periodText] at h
  cases hdigits : natDigits period with
  | nil => exact absurd hdigits (natDigits_ne_nil period)
  | cons d digits =>
      rw [hdigits, digitsText_cons] at h
      rw [← (List.cons.inj h).1, asciiDigit_digitChar]
      · rfl
      · exact natDigits_lt (hdigits ▸ List.mem_cons_self)

/-- No period is written `pct_` and another period. -/
theorem periodText_ne_pct (period : ℕ+) (rest : Text) : periodText period ≠ 'p' :: rest := by
  intro h
  have hdigit := periodText_head period h
  revert hdigit
  decide

/-- Different getters keep their values under different keys. -/
theorem key_injective : Function.Injective Feature.key := by
  intro a b h
  cases a <;> cases b <;>
    simp only [Feature.key, List.cons.injEq, Char.reduceEq, true_and, false_and, and_false,
      reduceCtorEq] at h
  all_goals first
    | rfl
    | exact congrArg _ (periodText_injective h)
    | exact absurd h (periodText_ne_pct _ _)
    | exact absurd h.symm (periodText_ne_pct _ _)

/-! ## Answers -/

section Answers

variable (calculateHurst : List ℚ → ℚ) (snapshot : MarketSnapshot)

/-- The getters are requests to a memo table. -/
theorem getAll_eq (store : Store) (features : List Feature) :
    getAll calculateHurst snapshot store features =
      Memo.queryAll Feature.key (compute calculateHurst snapshot) store features := by
  induction features generalizing store with
  | nil => rfl
  | cons feature rest ih =>
      rw [getAll, Memo.queryAll, ih]
      rfl

/-- Whatever is asked of a store, in any order and however often, each getter answers as on a
fresh store, and each value is computed once. -/
theorem answers_eq (features : List Feature) :
    let asked := getAll calculateHurst snapshot Memo.empty features
    asked.1 = features.map (compute calculateHurst snapshot) ∧
      asked.2.computed.Nodup ∧
      ∀ key, key ∈ asked.2.computed ↔ key ∈ features.map Feature.key := by
  have hsound := Memo.sound_empty Feature.key (compute calculateHurst snapshot)
  dsimp only
  rw [getAll_eq]
  refine ⟨Memo.queryAll_eq key_injective hsound features,
    (Memo.sound_queryAll key_injective hsound features).nodup, fun key => ?_⟩
  rw [Memo.mem_computed_iff key_injective hsound]
  exact or_iff_right List.not_mem_nil

end Answers

/-! ## Average true range -/

variable {period : ℕ+} {candles : List Candle}

/-- The loop of the store computes Wilder's average. -/
theorem atrLoop_eq (h : period + 1 ≤ candles.length) :
    atrLoop period candles = TrueRange.wilderAtr period candles := by
  cases candles with
  | nil => simp at h
  | cons first rest =>
      have hranges : List.zipWith
          (fun (hl : ℚ × ℚ) previous => TrueRange.trueRange hl.1 hl.2 previous)
          ((rest.map Candle.high).zip (rest.map Candle.low))
          ((first :: rest).map Candle.close).dropLast = TrueRange.loopRanges (first :: rest) := by
        cases rest with
        | nil => rfl
        | cons second rest =>
            have hrest := TrueRange.zipWith_trueRange (second :: rest) first.close
            simp only [List.map_cons, List.dropLast_cons_cons] at hrest ⊢
            rw [hrest, TrueRange.loopRanges]
      rw [List.length_cons] at h
      have hlong : ¬ (TrueRange.loopRanges (first :: rest)).length < period := by
        rw [TrueRange.length_loopRanges, List.length_cons]
        omega
      rw [TrueRange.wilderAtr, wilder, if_neg hlong, ← hranges]
      rfl

/-- Wherever it answers, `get_atr` gives the average true range of the decision engine. -/
theorem get_atr (calculateHurst : List ℚ → ℚ) (snapshot : MarketSnapshot) (period : ℕ+) :
    compute calculateHurst snapshot (.atr period) =
      if snapshot.candles.length < period + 1 then none
      else some (TrueRange.decisionAtr period snapshot.candles) := by
  rw [compute]
  split_ifs with hshort
  · rfl
  · rw [atrLoop_eq (Nat.not_lt.mp hshort), TrueRange.decisionAtr_eq]

/-! ## Percentile of the average true range -/

/-- The array of averages: zeros up to the seed, then Wilder's table. -/
theorem atrValues_eq (h : period + 1 ≤ candles.length) :
    atrValues period candles =
      List.replicate period 0 ++ wilderTable period (TrueRange.loopRanges candles) := by
  cases candles with
  | nil => simp at h
  | cons first rest => rfl

/-- The candles up to one of them. -/
def upTo (period : ℕ+) (candles : List Candle) (i : ℕ) : List Candle :=
  candles.take (candles.length - lookback period candles + i + 1)

/-- The averages looked at are those of the candles up to each of the last ones. -/
theorem history_eq (h : period + 1 ≤ candles.length) :
    (atrValues period candles).drop
        ((atrValues period candles).length - lookback period candles) =
      (List.range (lookback period candles)).map fun i =>
        TrueRange.decisionAtr period (upTo period candles i) := by
  have hlookback : lookback period candles ≤ candles.length - period := min_le_right _ _
  have hlength : (wilderTable period (TrueRange.loopRanges candles)).length =
      candles.length - period := by
    rw [length_wilderTable, TrueRange.length_loopRanges]
    omega
  rw [atrValues_eq h, List.length_append, List.length_replicate, hlength]
  apply List.ext_getElem?
  intro i
  rw [List.getElem?_drop, List.getElem?_map, List.getElem?_append_right (by
    rw [List.length_replicate]
    omega), List.length_replicate]
  by_cases hi : i < lookback period candles
  · rw [List.getElem?_range hi, Option.map_some, wilderTable_getElem? (by
      rw [TrueRange.length_loopRanges]
      omega), TrueRange.decisionAtr_eq, TrueRange.wilderAtr, upTo, TrueRange.loopRanges_take]
    congr 3
    omega
  · rw [List.getElem?_eq_none (by rw [hlength]; omega),
      List.getElem?_eq_none (by rw [List.length_range]; omega), Option.map_none]

/-- The last of them is the current one. -/
theorem currentAtr_eq (h : period + 1 ≤ candles.length) :
    (atrValues period candles).getLast?.getD 0 = TrueRange.decisionAtr period candles := by
  rw [atrValues_eq h, List.getLast?_eq_getElem?, List.length_append, List.length_replicate,
    length_wilderTable, TrueRange.length_loopRanges, List.getElem?_append_right (by
      rw [List.length_replicate]
      omega), List.length_replicate, wilderTable_getElem? (by
      rw [TrueRange.length_loopRanges]
      omega), Option.getD_some, TrueRange.decisionAtr_eq, TrueRange.wilderAtr,
    List.take_of_length_le (by rw [TrueRange.length_loopRanges]; omega)]

/-- From a period and one candle on, the percentile is the share of the last averages, at most a
hundred, that are below the current one.  The current one is among them, so it never gets to a
hundred. -/
theorem atrPercentile_eq (h : period + 1 ≤ candles.length) :
    let below := (List.range (lookback period candles)).countP fun i =>
      decide (TrueRange.decisionAtr period (upTo period candles i) <
        TrueRange.decisionAtr period candles)
    calculateAtrPercentile period candles = below / lookback period candles * 100 ∧
      below < lookback period candles := by
  dsimp only
  have hpos : 0 < lookback period candles := lt_min (by norm_num) (by omega)
  constructor
  · rw [calculateAtrPercentile, if_neg (Nat.not_lt.mpr h)]
    dsimp only
    rw [currentAtr_eq h, history_eq h, ← List.countP_eq_length_filter, List.countP_map,
      List.length_map, List.length_range]
    rfl
  · -- the last of the averages is the current one
    have hlast : upTo period candles (lookback period candles - 1) = candles := by
      have hlookback : lookback period candles ≤ candles.length - period := min_le_right _ _
      exact List.take_of_length_le (by omega)
    refine lt_of_le_of_ne (List.countP_le_length.trans_eq List.length_range) fun hall => ?_
    have hbelow := (List.countP_eq_length.mp (hall.trans List.length_range.symm))
      (lookback period candles - 1) (List.mem_range.mpr (Nat.sub_lt hpos Nat.one_pos))
    rw [hlast] at hbelow
    exact lt_irrefl _ (of_decide_eq_true hbelow)

/-- Five candles whose ranges widen. -/
def widening : List Candle :=
  [⟨0, 1, 1, 1, 1, 1⟩, ⟨1, 1, 2, 1, 1, 1⟩, ⟨2, 1, 3, 1, 1, 1⟩, ⟨3, 1, 4, 1, 1, 1⟩,
    ⟨4, 1, 5, 1, 1, 1⟩]

/-- Two of their last three averages are below the current one. -/
theorem atrPercentile_eq_widening : calculateAtrPercentile 2 widening = 200 / 3 := by
  rw [(atrPercentile_eq (by decide)).1]
  decide +kernel

end FeatureStore
end Karsa
