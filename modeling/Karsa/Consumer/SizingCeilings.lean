import Karsa.Consumer.SignalBuilder

/-!
# Decision engine - Ceilings of a signal

A trade should risk at most two percent of the wallet at its stop, and should tie up at most
forty percent.  The stages of the sizer keep the risk share below its ceiling; size and
session factors are multiplied afterwards, and only the notional is capped again.  A signal
without a stop distance gets the base size, which no ceiling looks at.

Main results:

- Theorem `riskShare_le`: what the stages, the conviction and the macro multiplier leave.
- Theorem `sizeFactor_cases`: the factors that enlarge the share.
- Theorem `buildSignal_within_iff`: the signals within both ceilings.
-/

namespace Karsa
namespace Decision

open Live (MarketRegime)
open MarketFeed (Candle)
open Risk

/-- The share of the equity that a position may tie up. -/
def maxNotionalShare : ℚ := 40 / 100

/-- The signal risks and ties up no more than it may. -/
def WithinCeilings (wallet : ℚ) (s : TradeSignal) : Prop :=
  s.amount * |s.entryPrice - s.slPrice| ≤ maxRiskPct * wallet ∧
    s.amount * s.entryPrice ≤ maxNotionalShare * wallet

instance (wallet : ℚ) (s : TradeSignal) : Decidable (WithinCeilings wallet s) :=
  inferInstanceAs (Decidable (_ ∧ _))

/-! ## Factors of the share -/

/-- The signals whose size and session factors enlarge the share: those of a trend, between
noon and four. -/
def Enlarged (regime : MarketRegime) (hour : ℕ) : Prop :=
  (regime = .TREND_BULL ∨ regime = .TREND_BEAR) ∧ 12 ≤ hour ∧ hour < 16

instance (regime : MarketRegime) (hour : ℕ) : Decidable (Enlarged regime hour) :=
  inferInstanceAs (Decidable (_ ∧ _ ∧ _))

/-- Session factors are positive. -/
theorem sessionMult_pos (hour : ℕ) : 0 < sessionMult hour := by
  unfold sessionMult
  split_ifs <;> norm_num

/-- Between noon and four the session factor is above one, otherwise not. -/
theorem sessionMult_cases (hour : ℕ) :
    (12 ≤ hour ∧ hour < 16 ∧ sessionMult hour = 12 / 10) ∨
      (¬ (12 ≤ hour ∧ hour < 16) ∧ sessionMult hour ≤ 1) := by
  unfold sessionMult
  split_ifs with h7 h12 h16 h21
  · exact Or.inr ⟨by omega, by norm_num⟩
  · exact Or.inr ⟨by omega, le_rfl⟩
  · exact Or.inl ⟨by omega, h16, rfl⟩
  · exact Or.inr ⟨by omega, le_rfl⟩
  · exact Or.inr ⟨by omega, by norm_num⟩

/-- The profiles of trends have full size, the others at most seven tenths. -/
theorem presetProfile_size_cases (regime : MarketRegime) :
    ((regime = .TREND_BULL ∨ regime = .TREND_BEAR) ∧ (presetProfile regime).sizeMultiplier = 1) ∨
      (¬ (regime = .TREND_BULL ∨ regime = .TREND_BEAR) ∧
        (presetProfile regime).sizeMultiplier ≤ 7 / 10) := by
  cases regime <;> decide +kernel

/-- Both factors together. -/
def sizeFactor (gate : DynamicRiskGate) (regime : MarketRegime) (hour : ℕ) : ℚ :=
  (gate.getProfile regime).sizeMultiplier * sessionMult hour

theorem sizeFactor_pos (gate : DynamicRiskGate) (regime : MarketRegime) (hour : ℕ) :
    0 < sizeFactor gate regime hour :=
  mul_pos (gate.getProfile_size_le_one regime).1 (sessionMult_pos hour)

/-- They enlarge the share by a fifth, or not at all. -/
theorem sizeFactor_cases (gate : DynamicRiskGate) (regime : MarketRegime) (hour : ℕ) :
    (Enlarged regime hour ∧ sizeFactor gate regime hour = 12 / 10) ∨
      (¬ Enlarged regime hour ∧ sizeFactor gate regime hour ≤ 1) := by
  have hsize := gate.getProfile_size_le_one regime
  have hsession := sessionMult_pos hour
  have hpreset : (gate.getProfile regime).sizeMultiplier =
      (presetProfile regime).sizeMultiplier := rfl
  unfold sizeFactor
  rcases presetProfile_size_cases regime with ⟨htrend, hone⟩ | ⟨hother, hsmall⟩
  · rw [hpreset, hone, one_mul]
    rcases sessionMult_cases hour with ⟨hnoon, hfour, hmult⟩ | ⟨houtside, hmult⟩
    · exact Or.inl ⟨⟨htrend, hnoon, hfour⟩, hmult⟩
    · exact Or.inr ⟨fun h => houtside h.2, hmult⟩
  · refine Or.inr ⟨fun h => hother h.1, ?_⟩
    rw [← hpreset] at hsmall
    rcases sessionMult_cases hour with ⟨_, _, hmult⟩ | ⟨_, hmult⟩
    · rw [hmult]
      linarith
    · exact mul_le_one₀ hsize.2 hsession.le hmult

/-! ## Amounts -/

/-- Cap an amount where the price is positive. -/
def capped (wallet entry amount : ℚ) : ℚ :=
  if 0 < entry then min amount (wallet * (40 / 100) / entry) else amount

/-- A capped amount ties up no more than it may. -/
theorem capped_notional_le {wallet amount : ℚ} (hwallet : 0 < wallet) (hamount : 0 ≤ amount)
    (entry : ℚ) :
    capped wallet entry amount * entry ≤ maxNotionalShare * wallet := by
  unfold capped maxNotionalShare
  split_ifs with hentry
  · calc
      min amount (wallet * (40 / 100) / entry) * entry
          ≤ wallet * (40 / 100) / entry * entry :=
        mul_le_mul_of_nonneg_right (min_le_right _ _) hentry.le
      _ = 40 / 100 * wallet := by
        rw [div_mul_cancel₀ _ hentry.ne', mul_comm]
  · have hle := mul_nonpos_of_nonneg_of_nonpos hamount (not_lt.1 hentry)
    have hpos : 0 < 40 / 100 * wallet := by positivity
    linarith

/-- It risks no more than it may if the share and the factor are small enough, or the stop is
near: forty percent at a distance of a twentieth are two percent. -/
theorem capped_risk_le_iff {wallet distance : ℚ} (hwallet : 0 < wallet)
    (hdistance : 0 < distance) (entry share factor : ℚ) :
    capped wallet entry (wallet * share * factor / distance) * distance ≤ maxRiskPct * wallet ↔
      share * factor ≤ maxRiskPct ∨ 20 * distance ≤ entry := by
  have hamount : wallet * share * factor / distance * distance = share * factor * wallet := by
    rw [div_mul_cancel₀ _ hdistance.ne']
    ring
  have hrisk : wallet * share * factor / distance * distance ≤ maxRiskPct * wallet ↔
      share * factor ≤ maxRiskPct := by
    rw [hamount]
    exact mul_le_mul_iff_of_pos_right hwallet
  unfold capped
  split_ifs with hentry
  · have hcap : wallet * (40 / 100) / entry * distance ≤ maxRiskPct * wallet ↔
        20 * distance ≤ entry := by
      rw [div_mul_eq_mul_div, div_le_iff₀ hentry, maxRiskPct]
      constructor
      · intro h
        have hmul : wallet * (20 * distance) ≤ wallet * entry := by linarith
        exact le_of_mul_le_mul_left hmul hwallet
      · intro h
        have hmul := mul_le_mul_of_nonneg_left h hwallet.le
        linarith
    rw [min_mul_of_nonneg _ _ hdistance.le, min_le_iff, hrisk, hcap]
  · have hfar : ¬ 20 * distance ≤ entry := by
      intro h
      have hentry' := not_lt.1 hentry
      linarith
    rw [hrisk, or_iff_left hfar]

/-! ## Signals -/

/-- The share of the wallet that the stages, the conviction and the macro multiplier leave. -/
def riskShare (e : DecisionEngine) (score : ℚ) (a : SizingAnswers) : ℚ :=
  (e.stagedRiskPct score a).value * a.conviction.getD 1 * a.macroMultiplier.getD 1

/-- It stays below the ceiling for a conviction and a macro multiplier of at most one. -/
theorem riskShare_le (e : DecisionEngine) (score : ℚ) {a : SizingAnswers}
    (hconviction : 0 ≤ a.conviction.getD 1 ∧ a.conviction.getD 1 ≤ 1)
    (hscale : 0 ≤ a.macroMultiplier.getD 1 ∧ a.macroMultiplier.getD 1 ≤ 1) :
    0 ≤ riskShare e score a ∧ riskShare e score a ≤ maxRiskPct := by
  unfold riskShare
  rw [mul_assoc]
  exact (e.stagedRiskPct score a).scaled_le (mul_nonneg hconviction.1 hscale.1)
    (mul_le_one₀ hconviction.2 hscale.1 hscale.2)

/-- Above the floor a funded engine caps the share of its wallet that the stop may cost. -/
theorem signalAmount_eq_capped {e : DecisionEngine} {a : SizingAnswers} {distance : ℚ}
    (hdistance : 0 < distance) (hwallet : 0 < e.walletBalance)
    (hfloor : ¬ a.conviction.getD 1 < convictionFloor) (regime : MarketRegime) (entry score : ℚ)
    (hour : ℕ) :
    e.signalAmount (e.riskGate.getProfile regime) entry distance score (sessionMult hour) a =
      some (capped e.walletBalance entry
        (e.walletBalance * riskShare e score a * sizeFactor e.riskGate regime hour /
          distance)) := by
  have hamount : e.walletBalance * ((e.stagedRiskPct score a).value * a.conviction.getD 1 *
        a.macroMultiplier.getD 1) * (e.riskGate.getProfile regime).sizeMultiplier *
        sessionMult hour / distance =
      e.walletBalance * riskShare e score a * sizeFactor e.riskGate regime hour / distance := by
    unfold riskShare sizeFactor
    ring
  unfold DecisionEngine.signalAmount capped
  dsimp only
  rw [if_neg hdistance.not_ge, if_pos hwallet, if_neg hfloor, hamount]

/-- What keeps a signal within its ceilings.  Without a stop distance the base size must cost
little enough.  Otherwise the signal is not enlarged, or a fifth more than its share is still
small enough, or its stop is near. -/
def CeilingsKept (e : DecisionEngine) (direction : Side) (regime : MarketRegime) (score : ℚ)
    (candles : List Candle) (hour : ℕ) (a : SizingAnswers) : Prop :=
  let entry := e.entryPrice (DecisionEngine.lastClose candles) direction
  if e.stopDistance regime candles ≤ 0 then
    e.baseSize * entry ≤ maxNotionalShare * e.walletBalance
  else
    e.BelowFloor regime candles a ∨ ¬ Enlarged regime hour ∨
      riskShare e score a * (12 / 10) ≤ maxRiskPct ∨
      20 * e.stopDistance regime candles ≤ entry

/-- Both ceilings in terms of the amount. -/
theorem forall_signal_iff (e : DecisionEngine) (symbol : Text) (direction : Side)
    (regime : MarketRegime) (score : ℚ) (candles : List Candle) (session : ℚ)
    (a : SizingAnswers) :
    (∀ s, e.buildSignal symbol direction regime score candles session a = some s →
        WithinCeilings e.walletBalance s) ↔
      ∀ amount, e.signalAmount (e.riskGate.getProfile regime)
          (e.entryPrice (DecisionEngine.lastClose candles) direction)
          (e.stopDistance regime candles) score session a = some amount →
        amount * e.stopDistance regime candles ≤ maxRiskPct * e.walletBalance ∧
          amount * e.entryPrice (DecisionEngine.lastClose candles) direction ≤
            maxNotionalShare * e.walletBalance := by
  unfold DecisionEngine.buildSignal WithinCeilings DecisionEngine.stopDistance
  dsimp only
  rw [DecisionEngine.abs_entry_sub_sl]
  constructor
  · intro h amount hamount
    have hs := h _ (Option.map_eq_some_iff.2 ⟨amount, hamount, rfl⟩)
    rwa [DecisionEngine.abs_entry_sub_sl] at hs
  · intro h s hs
    rcases Option.map_eq_some_iff.1 hs with ⟨amount, hamount, rfl⟩
    rw [DecisionEngine.abs_entry_sub_sl]
    exact h amount hamount

/-- A signal of a funded engine is within both ceilings exactly where one of these holds. -/
theorem buildSignal_within_iff (e : DecisionEngine) (symbol : Text) (direction : Side)
    (regime : MarketRegime) (score : ℚ) (candles : List Candle) (hour : ℕ) (a : SizingAnswers)
    (hwallet : 0 < e.walletBalance)
    (hconviction : 0 ≤ a.conviction.getD 1 ∧ a.conviction.getD 1 ≤ 1)
    (hscale : 0 ≤ a.macroMultiplier.getD 1 ∧ a.macroMultiplier.getD 1 ≤ 1) :
    (∀ s, e.buildSignal symbol direction regime score candles (sessionMult hour) a = some s →
        WithinCeilings e.walletBalance s) ↔
      CeilingsKept e direction regime score candles hour a := by
  rw [forall_signal_iff]
  unfold CeilingsKept DecisionEngine.BelowFloor
  dsimp only
  by_cases hzero : e.stopDistance regime candles ≤ 0
  · have hdistance : e.stopDistance regime candles = 0 := le_antisymm hzero (abs_nonneg _)
    rw [if_pos hzero, DecisionEngine.signalAmount, if_pos hzero, hdistance]
    simp only [Option.some_inj, forall_eq', mul_zero]
    exact and_iff_right (mul_nonneg (by norm_num [maxRiskPct]) hwallet.le)
  · have hpos := not_le.1 hzero
    rw [if_neg hzero]
    by_cases hfloor : a.conviction.getD 1 < convictionFloor
    · simp [DecisionEngine.signalAmount, hzero, hfloor, hpos, hwallet]
    · rw [signalAmount_eq_capped hpos hwallet hfloor, or_iff_right fun h => hfloor h.2.2]
      have hshare := riskShare_le e score hconviction hscale
      have hfactor := sizeFactor_pos e.riskGate regime hour
      have hnonneg : 0 ≤ e.walletBalance * riskShare e score a *
          sizeFactor e.riskGate regime hour / e.stopDistance regime candles :=
        div_nonneg (mul_nonneg (mul_nonneg hwallet.le hshare.1) hfactor.le) hpos.le
      have hnotional := capped_notional_le hwallet hnonneg
        (e.entryPrice (DecisionEngine.lastClose candles) direction)
      have hrisk := capped_risk_le_iff hwallet hpos
        (e.entryPrice (DecisionEngine.lastClose candles) direction) (riskShare e score a)
        (sizeFactor e.riskGate regime hour)
      simp only [Option.some_inj, forall_eq']
      refine (and_iff_left hnotional).trans (hrisk.trans ?_)
      rcases sizeFactor_cases e.riskGate regime hour with ⟨henlarged, hfifth⟩ | ⟨hnot, hone⟩
      · rw [hfifth, or_iff_right (not_not.2 henlarged)]
      · refine iff_of_true (Or.inl ?_) (Or.inl hnot)
        calc
          riskShare e score a * sizeFactor e.riskGate regime hour ≤ riskShare e score a * 1 :=
            mul_le_mul_of_nonneg_left hone hshare.1
          _ ≤ maxRiskPct := by rw [mul_one]; exact hshare.2

/-! ## A trend at one in the afternoon -/

/-- An engine with a wallet of one thousand. -/
def fundedEngine : DecisionEngine where
  riskGate := .default
  gate := 75
  baseSize := 1 / 1000
  slippage := 5 / 10000
  takerFee := 55 / 100000
  makerFee := 2 / 10000
  walletBalance := 1000
  sizing := .default
  sessionBlock := none
  hmmBreakoutBonus := 15
  hmmChopPenalty := 10
  getSector := fun _ => "UNKNOWN".toList
  slippage_nonneg := by norm_num
  slippage_lt_one := by norm_num

/-- Hourly candles that range over a tenth of the price. -/
def wideCandles (n : ℕ) : List Candle :=
  (List.range n).map fun i => ⟨3600000 * i, 100, 105, 95, 100, 1⟩

/-- Twenty-nine wins and a loss. -/
def goodHistory : List MemoryTrade :=
  ⟨-1, []⟩ :: List.replicate 29 ⟨3, []⟩

/-- Answers to the sizing after these trades, at full conviction. -/
def goodAnswers : SizingAnswers :=
  ⟨some goodHistory, some goodHistory, some none, none, none, some 1, some 1⟩

theorem buildSignal_within_london :
    0 < fundedEngine.walletBalance ∧
      ∃ s, fundedEngine.buildSignal "SOL/USDT".toList .LONG .TREND_BULL 90 (wideCandles 20)
          (sessionMult 8) goodAnswers = some s ∧
        WithinCeilings fundedEngine.walletBalance s := by
  have hwallet : 0 < fundedEngine.walletBalance := by decide +kernel
  have hkept : CeilingsKept fundedEngine .LONG .TREND_BULL 90 (wideCandles 20) 8 goodAnswers := by
    unfold CeilingsKept
    rw [if_neg (by decide +kernel)]
    exact Or.inr (Or.inl (by decide))
  have hwithin := (buildSignal_within_iff fundedEngine "SOL/USDT".toList .LONG .TREND_BULL 90
    (wideCandles 20) 8 goodAnswers hwallet (by decide +kernel) (by decide +kernel)).2 hkept
  cases hs : fundedEngine.buildSignal "SOL/USDT".toList .LONG .TREND_BULL 90 (wideCandles 20)
      (sessionMult 8) goodAnswers with
  | none => exact absurd hs (by decide +kernel)
  | some s => exact ⟨hwallet, s, rfl, hwithin s hs⟩

/-- After good trades the trend signal risks twenty-four of one thousand. -/
theorem buildSignal_exceeds_ceiling :
    0 < fundedEngine.walletBalance ∧ goodAnswers.conviction = some 1 ∧
      goodAnswers.macroMultiplier = some 1 ∧
      ∃ s, fundedEngine.buildSignal "SOL/USDT".toList .LONG .TREND_BULL 90 (wideCandles 20)
          (sessionMult 13) goodAnswers = some s ∧
        s.amount * |s.entryPrice - s.slPrice| = 24 ∧
        ¬ WithinCeilings fundedEngine.walletBalance s := by
  refine ⟨by decide +kernel, rfl, rfl, ?_⟩
  cases hs : fundedEngine.buildSignal "SOL/USDT".toList .LONG .TREND_BULL 90 (wideCandles 20)
      (sessionMult 13) goodAnswers with
  | none => exact absurd hs (by decide +kernel)
  | some s =>
      have hall : ∀ t ∈ fundedEngine.buildSignal "SOL/USDT".toList .LONG .TREND_BULL 90
          (wideCandles 20) (sessionMult 13) goodAnswers,
          t.amount * |t.entryPrice - t.slPrice| = 24 ∧
            ¬ WithinCeilings fundedEngine.walletBalance t := by
        decide +kernel
      exact ⟨s, rfl, hall s hs⟩

end Decision
end Karsa
