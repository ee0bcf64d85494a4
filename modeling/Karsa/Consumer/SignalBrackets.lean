import Karsa.Consumer.Rejections

/-!
# Decision engine - Brackets of a signal

A signal is built with a stop and a target at multiples of the average true range, which is zero
on flat candles and may exceed the price on wild ones.  The stop and the target are not compared
with the entry price; a stop at the entry price gets the base size.

Main results:

- Theorem `decisionAtr_pos_iff`: where the average true range is not zero.
- Theorem `flat_signal`: what is built where it is.
- Theorem `bracketed_iff`: which signals have their prices in order.
-/

namespace Karsa
namespace Decision

open Live (MarketRegime)
open MarketFeed (Candle)
open Risk

/-! ## Liquidity walls -/

/-- The liquidity walls among the features, above and below the price. -/
structure LiquidityWalls where
  above : Option ℚ
  below : Option ℚ
deriving Repr, DecidableEq

/-- The target moved in front of a wall that stands between it and the entry price. -/
def frontRun (entryPrice : ℚ) (direction : Side) (walls : LiquidityWalls) (tpPrice : ℚ) : ℚ :=
  match direction with
  | .LONG =>
      match walls.above with
      | none => tpPrice
      | some wall =>
          let wallDec := wall * (998 / 1000)
          if entryPrice < wallDec ∧ wallDec < tpPrice then wallDec else tpPrice
  | .SHORT =>
      match walls.below with
      | none => tpPrice
      | some wall =>
          let wallDec := wall * (1002 / 1000)
          if tpPrice < wallDec ∧ wallDec < entryPrice then wallDec else tpPrice

namespace DecisionEngine

variable (e : DecisionEngine)

/-- `_build_signal` with liquidity walls among its features; they move the target. -/
def buildSignalAt (walls : LiquidityWalls) (symbol : Text) (direction : Side)
    (regime : MarketRegime) (score : ℚ) (candles : List Candle) (sessionMult : ℚ)
    (a : SizingAnswers) : Option TradeSignal :=
  (e.buildSignal symbol direction regime score candles sessionMult a).map fun s =>
    let tp := s.tpPrice.map (frontRun s.entryPrice direction walls)
    { s with
      tpPrice := tp
      expectedValue := expectedValue score s.entryPrice s.slPrice tp s.atr }

/-- Without walls it is the signal that `evaluate` gets. -/
theorem buildSignalAt_no_walls (symbol : Text) (direction : Side) (regime : MarketRegime)
    (score : ℚ) (candles : List Candle) (sessionMult : ℚ) (a : SizingAnswers) :
    e.buildSignalAt ⟨none, none⟩ symbol direction regime score candles sessionMult a =
      e.buildSignal symbol direction regime score candles sessionMult a := by
  have hsame : frontRun (e.entryPrice (lastClose candles) direction) direction ⟨none, none⟩ =
      id := by
    funext tp
    cases direction <;> rfl
  unfold buildSignalAt buildSignal
  dsimp only
  rw [Option.map_map]
  congr 1
  funext amount
  simp only [Function.comp_apply, hsame, Option.map_id, id_eq]

end DecisionEngine

/-- A target in front of a wall is above the entry price of a long where the target was. -/
theorem lt_frontRun_long {entry target : ℚ} {walls : LiquidityWalls} :
    entry < frontRun entry .LONG walls target ↔ entry < target := by
  unfold frontRun
  cases walls.above with
  | none => exact Iff.rfl
  | some wall =>
      dsimp only
      split_ifs with hbetween
      · exact iff_of_true hbetween.1 (hbetween.1.trans hbetween.2)
      · exact Iff.rfl

/-- A positive wall stands between the target of a short and its entry price. -/
def WallBetween (entry target : ℚ) (walls : LiquidityWalls) : Prop :=
  ∃ wall, walls.below = some wall ∧ target < wall * (1002 / 1000) ∧ 0 < wall * (1002 / 1000) ∧
    wall * (1002 / 1000) < entry

/-- For a short such a wall can also save a target that is not positive. -/
theorem frontRun_short_mem {entry target : ℚ} {walls : LiquidityWalls} :
    (0 < frontRun entry .SHORT walls target ∧ frontRun entry .SHORT walls target < entry) ↔
      target < entry ∧ (0 < target ∨ WallBetween entry target walls) := by
  unfold frontRun WallBetween
  cases hwall : walls.below with
  | none =>
      have hnone : ¬ ∃ wall, (none : Option ℚ) = some wall ∧ target < wall * (1002 / 1000) ∧
          0 < wall * (1002 / 1000) ∧ wall * (1002 / 1000) < entry := by
        rintro ⟨wall, ⟨⟩, -⟩
      dsimp only
      rw [or_iff_left hnone, and_comm]
  | some wall =>
      dsimp only
      split_ifs with hbetween
      · constructor
        · rintro ⟨hpos, -⟩
          exact ⟨hbetween.1.trans hbetween.2, Or.inr ⟨wall, rfl, hbetween.1, hpos, hbetween.2⟩⟩
        · rintro ⟨-, htarget | ⟨wall', hsome, -, hpos, -⟩⟩
          · exact ⟨htarget.trans hbetween.1, hbetween.2⟩
          · obtain rfl := Option.some.inj hsome
            exact ⟨hpos, hbetween.2⟩
      · constructor
        · rintro ⟨hpos, hbelow⟩
          exact ⟨hbelow, Or.inl hpos⟩
        · rintro ⟨hbelow, hpos | ⟨wall', hsome, htarget, -, hentry⟩⟩
          · exact ⟨hpos, hbelow⟩
          · obtain rfl := Option.some.inj hsome
            exact absurd ⟨htarget, hentry⟩ hbetween

/-! ## Brackets -/

/-- Stop, entry price and target are positive and in the order of the direction, none equal. -/
def Bracketed (s : TradeSignal) : Prop :=
  match s.direction with
  | .LONG => 0 < s.slPrice ∧ s.slPrice < s.entryPrice ∧
      ∀ tp, s.tpPrice = some tp → s.entryPrice < tp
  | .SHORT => 0 < s.entryPrice ∧ s.entryPrice < s.slPrice ∧
      ∀ tp, s.tpPrice = some tp → 0 < tp ∧ tp < s.entryPrice

namespace DecisionEngine

variable (e : DecisionEngine)

/-- The offset of the target. -/
def targetOffset (regime : MarketRegime) (candles : List Candle) : ℚ :=
  TrueRange.decisionAtr TrueRange.atrPeriod candles * (e.riskGate.getProfile regime).trailAtrMult

/-- The offset of the stop. -/
def stopOffset (regime : MarketRegime) (candles : List Candle) : ℚ :=
  TrueRange.decisionAtr TrueRange.atrPeriod candles * (e.riskGate.getProfile regime).slAtrBuffer

/-- The regime has a target. -/
def HasTarget (regime : MarketRegime) : Prop :=
  (e.riskGate.getProfile regime).takeProfitType ≠ "TRAILING".toList

/-- Both offsets are positive; the one below the entry price is smaller than that, or for a short
a wall stands before the target. -/
def OffsetsFit (walls : LiquidityWalls) (direction : Side) (regime : MarketRegime)
    (candles : List Candle) : Prop :=
  let entry := e.entryPrice (lastClose candles) direction
  0 < e.stopOffset regime candles ∧ (e.HasTarget regime → 0 < e.targetOffset regime candles) ∧
    match direction with
    | .LONG => e.stopOffset regime candles < entry
    | .SHORT => e.HasTarget regime → e.targetOffset regime candles < entry ∨
        WallBetween entry (entry - e.targetOffset regime candles) walls

variable {e} {walls : LiquidityWalls} {symbol : Text} {direction : Side} {regime : MarketRegime}
  {score : ℚ} {candles : List Candle} {session : ℚ} {a : SizingAnswers} {s : TradeSignal}

/-- The prices of a signal. -/
theorem buildSignalAt_prices
    (h : e.buildSignalAt walls symbol direction regime score candles session a = some s) :
    s.direction = direction ∧ s.entryPrice = e.entryPrice (lastClose candles) direction ∧
      s.slPrice = slPrice (e.entryPrice (lastClose candles) direction) direction
        (TrueRange.decisionAtr TrueRange.atrPeriod candles)
        (e.riskGate.getProfile regime).slAtrBuffer ∧
      s.tpPrice = (tpPrice (e.entryPrice (lastClose candles) direction) direction
        (TrueRange.decisionAtr TrueRange.atrPeriod candles) (e.riskGate.getProfile regime)).map
          (frontRun (e.entryPrice (lastClose candles) direction) direction walls) := by
  unfold buildSignalAt buildSignal at h
  dsimp only at h
  rw [Option.map_map, Option.map_eq_some_iff] at h
  rcases h with ⟨amount, -, rfl⟩
  exact ⟨rfl, rfl, rfl, rfl⟩

/-- A target is there where the profile does not trail. -/
theorem forall_tpPrice {entry atr : ℚ} {P : ℚ → Prop} {profile : Shadow.RiskProfile} :
    (∀ tp, tpPrice entry direction atr profile = some tp → P tp) ↔
      (profile.takeProfitType ≠ "TRAILING".toList → P (match direction with
        | .LONG => entry + atr * profile.trailAtrMult
        | .SHORT => entry - atr * profile.trailAtrMult)) := by
  unfold tpPrice
  split_ifs with htrailing
  · exact iff_of_true (by rintro tp ⟨⟩) fun hnot => absurd htrailing hnot
  · cases direction with
    | LONG =>
        simp only [Option.some.injEq, forall_eq']
        exact ⟨fun hp _ => hp, fun hp => hp htrailing⟩
    | SHORT =>
        simp only [Option.some.injEq, forall_eq']
        exact ⟨fun hp _ => hp, fun hp => hp htrailing⟩

/-- What is asked of a moved target is asked of the target before the move. -/
theorem forall_map_target {target : Option ℚ} {f : ℚ → ℚ} {P : ℚ → Prop} :
    (∀ tp, target.map f = some tp → P tp) ↔ ∀ tp, target = some tp → P (f tp) := by
  cases target <;> simp

/-- The last close of a series of positive prices is positive. -/
theorem lastClose_pos_of_series {series : PriceSeries} (hcandles : series.candles ≠ []) :
    0 < lastClose series.candles := by
  have hlast := List.getLast?_eq_some_getLast hcandles
  rw [lastClose, hlast]
  exact (series.positive _ (List.getLast_mem hcandles)).2.2.2

/-- On positive prices a signal has its prices in order exactly where its offsets fit. -/
theorem bracketed_iff {series : PriceSeries} (hcandles : series.candles ≠ [])
    (h : e.buildSignalAt walls symbol direction regime score series.candles session a = some s) :
    Bracketed s ↔ e.OffsetsFit walls direction regime series.candles := by
  rcases buildSignalAt_prices h with ⟨hdirection, hentry, hsl, htp⟩
  have hpos : 0 < e.entryPrice (lastClose series.candles) direction :=
    entryPrice_pos (lastClose_pos_of_series hcandles) direction
  unfold Bracketed OffsetsFit
  rw [hdirection, hentry, hsl, htp]
  dsimp only
  rw [forall_map_target, forall_map_target]
  generalize e.entryPrice (lastClose series.candles) direction = entry at hpos ⊢
  cases direction with
  | LONG =>
      have htarget : (∀ tp, tpPrice entry .LONG
          (TrueRange.decisionAtr TrueRange.atrPeriod series.candles)
          (e.riskGate.getProfile regime) = some tp → entry < frontRun entry .LONG walls tp) ↔
          (e.HasTarget regime → 0 < e.targetOffset regime series.candles) := by
        simp only [lt_frontRun_long]
        rw [forall_tpPrice]
        exact imp_congr_right fun _ => lt_add_iff_pos_right _
      dsimp only
      rw [htarget, slPrice, sub_pos, sub_lt_self_iff]
      unfold stopOffset
      tauto
  | SHORT =>
      have htarget : (∀ tp, tpPrice entry .SHORT
          (TrueRange.decisionAtr TrueRange.atrPeriod series.candles)
          (e.riskGate.getProfile regime) = some tp →
            0 < frontRun entry .SHORT walls tp ∧ frontRun entry .SHORT walls tp < entry) ↔
          (e.HasTarget regime → 0 < e.targetOffset regime series.candles ∧
            (e.targetOffset regime series.candles < entry ∨
              WallBetween entry (entry - e.targetOffset regime series.candles) walls)) := by
        simp only [frontRun_short_mem]
        rw [forall_tpPrice]
        refine imp_congr_right fun _ => ?_
        dsimp only
        rw [sub_lt_self_iff, sub_pos]
        rfl
      dsimp only
      rw [htarget, slPrice, lt_add_iff_pos_right]
      unfold stopOffset
      tauto

/-! ## Flat candles -/

/-- The average true range is positive where there are enough candles and one of them ranges
beyond the close before it. -/
theorem decisionAtr_pos_iff (candles : List Candle) :
    0 < TrueRange.decisionAtr TrueRange.atrPeriod candles ↔
      15 ≤ candles.length ∧ ∃ x ∈ TrueRange.loopRanges candles, x ≠ 0 := by
  have hnonneg := TrueRange.decisionAtr_nonneg TrueRange.atrPeriod candles
  have hranges := TrueRange.loopRanges_nonneg candles
  have hperiod : ((TrueRange.atrPeriod : ℕ+) : ℕ) = 14 := rfl
  rw [TrueRange.decisionAtr_eq, TrueRange.wilderAtr, hperiod] at hnonneg ⊢
  by_cases hshort : candles.length < 15
  · have hlength : (TrueRange.loopRanges candles).length < 14 := by
      rw [TrueRange.length_loopRanges]
      omega
    rw [wilder_of_lt hlength]
    exact iff_of_false (lt_irrefl 0) fun h => absurd h.1 (by omega)
  · have hlength : 14 ≤ (TrueRange.loopRanges candles).length := by
      rw [TrueRange.length_loopRanges]
      omega
    have hzero : wilderMean 14 (TrueRange.loopRanges candles) = 0 ↔
        ∀ x ∈ TrueRange.loopRanges candles, x = 0 := wilderMean_eq_zero_iff (by omega) hranges
    rw [← wilder_eq_wilderMean hlength] at hzero
    rw [hnonneg.lt_iff_ne', ne_eq, hzero]
    push Not
    exact (and_iff_right (by omega)).symm

/-- Where it is zero, stop and target are at the entry price, and the amount is the base size. -/
theorem flat_signal (e : DecisionEngine) (symbol : Text) (direction : Side)
    (regime : MarketRegime) (score session : ℚ) (a : SizingAnswers) {candles : List Candle}
    (hflat : TrueRange.decisionAtr TrueRange.atrPeriod candles = 0) :
    ∃ s, e.buildSignal symbol direction regime score candles session a = some s ∧
      s.slPrice = s.entryPrice ∧ (∀ tp, s.tpPrice = some tp → tp = s.entryPrice) ∧
        s.amount = e.baseSize := by
  have hsl : slPrice (e.entryPrice (lastClose candles) direction) direction 0
      (e.riskGate.getProfile regime).slAtrBuffer = e.entryPrice (lastClose candles) direction := by
    unfold slPrice
    cases direction <;> simp
  unfold buildSignal
  dsimp only
  rw [hflat, hsl, sub_self, abs_zero, signalAmount, if_pos le_rfl, Option.map_some]
  refine ⟨_, rfl, rfl, ?_, rfl⟩
  dsimp only
  rw [forall_tpPrice]
  intro _
  cases direction <;> simp

end DecisionEngine

/-! ## A wide day and a flat one -/

/-- On candles that range over a tenth of the price a long in a range has its prices in order. -/
theorem wideSeries_bracketed :
    ∃ s, fundedEngine.buildSignalAt ⟨none, none⟩ "SOL/USDT".toList .LONG .RANGE 90
        DecisionEngine.wideSeries.candles 1 goodAnswers = some s ∧ Bracketed s := by
  have hsome : (fundedEngine.buildSignalAt ⟨none, none⟩ "SOL/USDT".toList .LONG .RANGE 90
      DecisionEngine.wideSeries.candles 1 goodAnswers).isSome = true := by decide +kernel
  rcases Option.isSome_iff_exists.mp hsome with ⟨s, hs⟩
  have hcandles : DecisionEngine.wideSeries.candles ≠ [] := by decide
  refine ⟨s, hs, (DecisionEngine.bracketed_iff hcandles hs).mpr ⟨?_, fun _ => ?_, ?_⟩⟩
  · decide +kernel
  · decide +kernel
  · decide +kernel

/-- Hourly candles at one hundred. -/
def flatSeries : PriceSeries where
  candles := (List.range 50).map fun i => ⟨3600000 * i, 100, 100, 100, 100, 1⟩
  positive := by decide +kernel

/-- On them its stop is at its entry price. -/
theorem flatSeries_not_bracketed :
    ∃ s, fundedEngine.buildSignalAt ⟨none, none⟩ "SOL/USDT".toList .LONG .RANGE 90
        flatSeries.candles 1 goodAnswers = some s ∧ ¬ Bracketed s := by
  have hflat : TrueRange.decisionAtr TrueRange.atrPeriod flatSeries.candles = 0 := by
    decide +kernel
  rcases fundedEngine.flat_signal "SOL/USDT".toList .LONG .RANGE 90 1 goodAnswers hflat with
    ⟨s, hs, hsl, -, -⟩
  rw [← DecisionEngine.buildSignalAt_no_walls] at hs
  have hdirection := (DecisionEngine.buildSignalAt_prices hs).1
  refine ⟨s, hs, fun h => ?_⟩
  unfold Bracketed at h
  rw [hdirection] at h
  exact h.2.1.ne hsl

end Decision
end Karsa
