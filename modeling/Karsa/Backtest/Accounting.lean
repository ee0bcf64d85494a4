import Karsa.Backtest.Engine
import Karsa.Execution.Shadow.Monitor
import Karsa.Foundations.Accrual
import Mathlib.Algebra.BigOperators.Ring.Finset
import Mathlib.Algebra.Order.BigOperators.Group.Finset

/-!
# Backtests - Accounting of a trade

The engine and the shadow monitor book the same trade from its entry, its exit, its fees and
its funding.  Both charge funding when an interval has passed.  The engine charges its own
rate to either side; the monitor charges the rate of the day to a long and credits it to a
short.

Main results:

- Theorem `simulateTrade_accounting`: the report of a simulated trade in terms of the bars
  whose funding was looked at.
- Theorem `engineFunding_eq`, `shadowFunding_eq`: the funding of both after some bars.
- Theorem `pnlNet_eq_netPnl_iff`: the trades that both book alike.
-/

namespace Karsa
namespace Backtest
namespace BacktestEngine

open MarketFeed (Candle)
open Risk (DynamicRiskGate)
open Shadow (ShadowRecord ShadowSettings CheckAnswers MonitorState)

/-! ## Funding of the engine -/

variable (e : BacktestEngine) (t : Trade)

/-- The locals after funding was looked at for `m` bars. -/
def fundedBars (entryIdx : ℕ) : ℕ → Holding
  | 0 => startHolding t entryIdx
  | m + 1 => e.chargeFunding t (entryIdx + m + 1) (fundedBars entryIdx m)

/-- The funding of a trade after `m` bars. -/
def engineFunding (entryIdx m : ℕ) : ℚ :=
  (e.fundedBars t entryIdx m).accumulatedFunding

/-- Two holdings agree on funding. -/
def SameFunding (h h' : Holding) : Prop :=
  h.accumulatedFunding = h'.accumulatedFunding ∧ h.lastFundingBar = h'.lastFundingBar

variable {e t}

/-- Charging funding depends on the funding alone. -/
theorem SameFunding.charge {h h' : Holding} (hsame : SameFunding h h') (j : ℕ) :
    SameFunding (e.chargeFunding t j h) (e.chargeFunding t j h') := by
  rcases hsame with ⟨htotal, hlast⟩
  unfold chargeFunding
  rw [hlast, htotal]
  split_ifs
  · exact ⟨rfl, rfl⟩
  · exact ⟨htotal, hlast⟩

/-- Observing a candle leaves the funding alone. -/
theorem SameFunding.observe {h h' : Holding} (hsame : SameFunding h h') (direction : Side)
    (candle : Candle) : SameFunding (BacktestEngine.observe direction candle h) h' := by
  cases direction <;> exact hsame

/-- A bar that closes the trade has looked at the funding, or the stop or target came first;
one that holds it has. -/
theorem simulateBar_funding {entryIdx bars : ℕ} {h : Holding}
    (hsame : SameFunding h (e.fundedBars t entryIdx bars)) (candle : Candle) :
    match e.simulateBar t h (entryIdx + bars + 1) candle with
    | .close _ _ h' => SameFunding h' (e.fundedBars t entryIdx bars) ∨
        SameFunding h' (e.fundedBars t entryIdx (bars + 1))
    | .hold h' => SameFunding h' (e.fundedBars t entryIdx (bars + 1)) := by
  have hseen := hsame.observe t.direction candle
  have hcharged : SameFunding
      (e.chargeFunding t (entryIdx + bars + 1) (observe t.direction candle h))
      (e.fundedBars t entryIdx (bars + 1)) := hseen.charge _
  rw [simulateBar]
  dsimp only
  cases hsl : slHit t (observe t.direction candle h) with
  | true => exact Or.inl hseen
  | false =>
      rw [if_neg Bool.false_ne_true]
      cases t.tpPrice.filter (tpHit t candle) with
      | some target => exact Or.inl hseen
      | none =>
          dsimp only
          split_ifs
          · exact Or.inr hcharged
          · exact hcharged

/-- The report is the one of the trade, with the funding of its bars: of all of them, or of
all but the last one, whose stop or target was hit first. -/
def Accounted (e : BacktestEngine) (t : Trade) (entryIdx : ℕ) (report : BacktestReport) :
    Prop :=
  ∃ price reason exitTs m,
    report = e.buildReport t price reason exitTs report.barsHeld
        (e.engineFunding t entryIdx m) ∧
      (m = report.barsHeld ∨ m + 1 = report.barsHeld)

/-- So is every report of a simulation. -/
theorem simulateBars_accounted {entryIdx bars j : ℕ} {h : Holding}
    (hsame : SameFunding h (e.fundedBars t entryIdx bars)) (hbars : h.barsHeld = bars)
    (hj : entryIdx + bars + 1 = j) {rest : List Candle} (hrest : rest = [] → bars = 0) :
    Accounted e t entryIdx (e.simulateBars t h j rest) := by
  induction rest generalizing h bars j with
  | nil =>
      have hzero := hrest rfl
      subst hzero
      refine ⟨0, .endOfData, t.entryTime, 0, ?_, Or.inl rfl⟩
      rw [simulateBars, hsame.1]
      rfl
  | cons candle rest ih =>
      subst hj
      have hcount := e.simulateBar_barsHeld t h (entryIdx + bars + 1) candle
      have hfunding := simulateBar_funding hsame candle
      rw [simulateBars]
      cases hbar : e.simulateBar t h (entryIdx + bars + 1) candle with
      | close price reason h' =>
          rw [hbar] at hcount hfunding
          have hheld : h'.barsHeld = bars + 1 := by
            rw [← hbars]
            exact hcount
          dsimp only at hfunding ⊢
          rcases hfunding with hbefore | hafter
          · refine ⟨price, reason, candle.ts, bars, ?_, Or.inr hheld.symm⟩
            rw [hbefore.1]
            rfl
          · refine ⟨price, reason, candle.ts, bars + 1, ?_, Or.inl hheld.symm⟩
            rw [hafter.1]
            rfl
      | hold h' =>
          rw [hbar] at hcount hfunding
          have hheld : h'.barsHeld = bars + 1 := by
            rw [← hbars]
            exact hcount
          dsimp only at hfunding ⊢
          split_ifs with hlast
          · refine ⟨candle.close, .endOfData, candle.ts, bars + 1, ?_, Or.inl hheld.symm⟩
            rw [hfunding.1]
            rfl
          · exact ih hfunding hheld rfl fun hnil => absurd hnil hlast

/-- The report of a simulated trade is booked with the funding of its bars. -/
theorem simulateTrade_accounting (e : BacktestEngine) (t : Trade) (entryIdx : ℕ)
    (rest : List Candle) : Accounted e t entryIdx (e.simulateTrade t entryIdx rest) :=
  simulateBars_accounted ⟨rfl, rfl⟩ rfl rfl fun _ => rfl

/-- The engine charges its rate at every end of an interval, if it is positive. -/
theorem engineFunding_eq {n : ℕ} (hn : 0 < n) (hinterval : e.fundingInterval = n)
    (entryIdx m : ℕ) :
    e.engineFunding t entryIdx m =
      (m / n : ℕ) * (t.entryPrice * t.amount * max e.fundingRate 0) := by
  rcases lt_or_ge 0 e.fundingRate with hpos | hnonpos
  · have haccrued : ∀ m, (e.fundedBars t entryIdx m).accumulatedFunding =
        (accrued n (fun _ => t.entryPrice * t.amount * |e.fundingRate|) m).total ∧
        (e.fundedBars t entryIdx m).lastFundingBar = entryIdx +
          (accrued n (fun _ => t.entryPrice * t.amount * |e.fundingRate|) m).last := by
      intro m
      induction m with
      | zero => exact ⟨rfl, rfl⟩
      | succ m ih =>
          rcases ih with ⟨htotal, hlast⟩
          rw [fundedBars, chargeFunding, accrued, Accrual.tick, hinterval, hlast, htotal]
          by_cases hdue : n ≤ m + 1 -
              (accrued n (fun _ => t.entryPrice * t.amount * |e.fundingRate|) m).last
          · rw [if_pos hdue, if_pos ⟨by push_cast; omega, hpos⟩]
            exact ⟨rfl, Nat.add_assoc _ _ _⟩
          · rw [if_neg hdue, if_neg (by push_cast; omega)]
            exact ⟨htotal, hlast⟩
    rw [engineFunding, (haccrued m).1, accrued_eq hn, Finset.sum_const, Finset.card_range,
      nsmul_eq_mul, max_eq_left hpos.le, abs_of_pos hpos]
  · have hzero : ∀ m, e.fundedBars t entryIdx m = startHolding t entryIdx := by
      intro m
      induction m with
      | zero => rfl
      | succ m ih => rw [fundedBars, ih, chargeFunding, if_neg (by simp [hnonpos])]
    rw [engineFunding, hzero, max_eq_right hnonpos, mul_zero, mul_zero]
    rfl

/-! ## Funding of the monitor -/

/-- A check at a time and a funding rate. -/
def fundingAnswers (clock rate : ℚ) : CheckAnswers where
  mid := none
  pendingClock := clock
  fillClock := clock
  currentRegime := []
  exitClock := clock
  staleClock := clock
  fundingClock := clock
  fundingRate := rate

@[simp] theorem fundingAnswers_clock (clock rate : ℚ) :
    (fundingAnswers clock rate).fundingClock = clock := rfl

/-- The shadow record of a trade that was filled at a time. -/
def shadowRecord (t : Trade) (filledAt : ℚ) : ShadowRecord :=
  { Shadow.save t.symbol t.direction t.entryPrice t.amount none t.profile.regime
      (some t.profile.toJson) (some t.slPrice) t.tpPrice filledAt with
    lastFundingTs := some filledAt
    feeType := some (if t.profile.usePostOnly then "maker".toList else "taker".toList) }

/-- Shadow settings with the fees of the engine. -/
def shadowSettings (e : BacktestEngine) : ShadowSettings where
  slippagePct := e.slippagePct
  takerFeePct := e.takerFee
  makerFeePct := e.makerFee

/-- The time of a bar, where `n` bars last eight hours. -/
def barTime (filledAt : ℚ) (n i : ℕ) : ℚ :=
  filledAt + i * (8 * 3600 / n)

/-- The monitor after it looked at the funding of `m` bars. -/
def fundedChecks (record : ShadowRecord) (filledAt : ℚ) (n : ℕ) (history : ℕ → ℚ) :
    ℕ → MonitorState
  | 0 => .ofRecord record
  | m + 1 => Shadow.applyFundingIfDue
      (fundingAnswers (barTime filledAt n (m + 1)) (history (m + 1)))
      (fundedChecks record filledAt n history m)

/-- What the monitor charges at a rate: nothing where it is not positive, and to a short the
negative of what it charges to a long. -/
def shadowFee (side : Side) (notional rate : ℚ) : ℚ :=
  match side with
  | .LONG => notional * max rate 0
  | .SHORT => -(notional * max rate 0)

/-- Nothing is charged at a rate that is not positive. -/
theorem shadowFee_of_nonpos {rate : ℚ} (h : rate ≤ 0) (side : Side) (notional : ℚ) :
    shadowFee side notional rate = 0 := by
  unfold shadowFee
  rw [max_eq_right h]
  cases side <;> simp

/-- The record after one look at the funding. -/
theorem applyFundingIfDue_pos {s : MonitorState} {last : ℚ}
    (hlast : s.pos.lastFundingTs = some last) (a : CheckAnswers) :
    (Shadow.applyFundingIfDue a s).pos =
      if a.fundingClock - last < 8 * 3600 then s.pos
      else
        { s.pos with
          totalFundingFees := s.pos.totalFundingFees +
            shadowFee s.pos.side (s.pos.entryPrice * s.pos.amount) a.fundingRate
          lastFundingTs := some a.fundingClock } := by
  rw [Shadow.applyFundingIfDue, hlast]
  dsimp only
  by_cases hdue : a.fundingClock - last < 8 * 3600
  · rw [if_pos hdue, if_pos hdue]
  · rw [if_neg hdue, if_neg hdue]
    by_cases hrate : a.fundingRate ≤ 0
    · rw [if_pos hrate, shadowFee_of_nonpos hrate, add_zero]
      rfl
    · rw [if_neg hrate]
      unfold shadowFee
      rw [max_eq_left (not_le.1 hrate).le]
      cases hside : s.pos.side with
      | LONG => simp [MonitorState.edit, MonitorState.persist, hside]
      | SHORT => simp [MonitorState.edit, MonitorState.persist, hside]

/-- The interval is over as soon as `n` bars have passed. -/
theorem barTime_sub_lt {n : ℕ} (hn : 0 < n) (filledAt : ℚ) (i last : ℕ) :
    barTime filledAt n i - barTime filledAt n last < 8 * 3600 ↔ ¬ n ≤ i - last := by
  have hn' : (0 : ℚ) < n := Nat.cast_pos.2 hn
  have hdist : barTime filledAt n i - barTime filledAt n last =
      ((i : ℚ) - last) * (8 * 3600) / n := by
    unfold barTime
    ring
  rw [hdist, div_lt_iff₀ hn', mul_comm (8 * 3600 : ℚ), mul_lt_mul_iff_left₀ (by norm_num),
    sub_lt_iff_lt_add, ← Nat.cast_add, Nat.cast_lt]
  omega

section

variable (t) (n : ℕ) (history : ℕ → ℚ)

/-- The charges of the monitor, by the bar at which they fall due. -/
def shadowAccrual (m : ℕ) : Accrual ℚ :=
  accrued n (fun i => shadowFee t.direction (t.entryPrice * t.amount) (history i)) m

end

/-- The record after the funding of `m` bars. -/
theorem fundedChecks_pos {n : ℕ} (hn : 0 < n) (filledAt : ℚ) (history : ℕ → ℚ) (m : ℕ) :
    (fundedChecks (shadowRecord t filledAt) filledAt n history m).pos =
      { shadowRecord t filledAt with
        totalFundingFees := (shadowAccrual t n history m).total
        lastFundingTs := some (barTime filledAt n (shadowAccrual t n history m).last) } := by
  induction m with
  | zero =>
      have hstart : barTime filledAt n 0 = filledAt := by simp [barTime]
      rw [show shadowAccrual t n history 0 = ⟨0, 0⟩ from rfl, hstart]
      rfl
  | succ m ih =>
      have hlast : (fundedChecks (shadowRecord t filledAt) filledAt n history m).pos.lastFundingTs =
          some (barTime filledAt n (shadowAccrual t n history m).last) := by
        rw [ih]
      have hstep : shadowAccrual t n history (m + 1) = (shadowAccrual t n history m).tick n
          (fun i => shadowFee t.direction (t.entryPrice * t.amount) (history i)) (m + 1) := rfl
      rw [fundedChecks, applyFundingIfDue_pos hlast, hstep, Accrual.tick, ih,
        fundingAnswers_clock]
      by_cases hdue : n ≤ m + 1 - (shadowAccrual t n history m).last
      · rw [if_neg (mt (barTime_sub_lt hn filledAt _ _).1 (not_not.2 hdue)), if_pos hdue]
        rfl
      · rw [if_pos ((barTime_sub_lt hn filledAt _ _).2 hdue), if_neg hdue]

/-- The monitor charges the rates at the ends of the intervals. -/
theorem shadowFunding_eq {n : ℕ} (hn : 0 < n) (filledAt : ℚ) (history : ℕ → ℚ) (m : ℕ) :
    (fundedChecks (shadowRecord t filledAt) filledAt n history m).pos.totalFundingFees =
      ∑ k ∈ Finset.range (m / n),
        shadowFee t.direction (t.entryPrice * t.amount) (history (n * (k + 1))) := by
  rw [fundedChecks_pos hn, shadowAccrual, accrued_eq hn]

/-! ## Both accounts -/

/-- The charges of the engine's own rate add up to those of the rates of the days: for a
long, to their sum; for a short, only if there are none on either side. -/
def FundingAgrees (direction : Side) (rate : ℚ) (intervals n : ℕ) (history : ℕ → ℚ) : Prop :=
  match direction with
  | .LONG => intervals * max rate 0 =
      ∑ k ∈ Finset.range intervals, max (history (n * (k + 1))) 0
  | .SHORT => (intervals = 0 ∨ rate ≤ 0) ∧ ∀ k < intervals, history (n * (k + 1)) ≤ 0

/-- Charges and credits cancel where there are none. -/
theorem short_agrees_iff (rate : ℚ) (intervals n : ℕ) (history : ℕ → ℚ) :
    intervals * max rate 0 = -∑ k ∈ Finset.range intervals, max (history (n * (k + 1))) 0 ↔
      (intervals = 0 ∨ rate ≤ 0) ∧ ∀ k < intervals, history (n * (k + 1)) ≤ 0 := by
  have hcharged : (0 : ℚ) ≤ intervals * max rate 0 :=
    mul_nonneg (Nat.cast_nonneg _) (le_max_right _ _)
  have hterms : ∀ k ∈ Finset.range intervals, (0 : ℚ) ≤ max (history (n * (k + 1))) 0 :=
    fun _ _ => le_max_right _ _
  have hcredited := Finset.sum_nonneg hterms
  rw [eq_neg_iff_add_eq_zero, add_eq_zero_iff_of_nonneg hcharged hcredited,
    Finset.sum_eq_zero_iff_of_nonneg hterms, mul_eq_zero, Nat.cast_eq_zero, max_eq_right_iff]
  simp

/-- Both fundings are the same where there is nothing to charge or the charges agree. -/
theorem engineFunding_eq_shadowFunding_iff {n : ℕ} (hn : 0 < n)
    (hinterval : e.fundingInterval = n) (entryIdx m : ℕ) (filledAt : ℚ) (history : ℕ → ℚ) :
    e.engineFunding t entryIdx m =
        (fundedChecks (shadowRecord t filledAt) filledAt n history m).pos.totalFundingFees ↔
      t.entryPrice * t.amount = 0 ∨
        FundingAgrees t.direction e.fundingRate (m / n) n history := by
  have hengine : e.engineFunding t entryIdx m =
      t.entryPrice * t.amount * ((m / n : ℕ) * max e.fundingRate 0) := by
    rw [engineFunding_eq hn hinterval]
    ring
  rw [hengine, shadowFunding_eq hn]
  cases hdirection : t.direction with
  | LONG =>
      simp only [shadowFee]
      rw [← Finset.mul_sum, mul_eq_mul_left_iff, or_comm]
      rfl
  | SHORT =>
      simp only [shadowFee]
      rw [Finset.sum_neg_distrib, ← Finset.mul_sum, ← mul_neg, mul_eq_mul_left_iff, or_comm,
        short_agrees_iff]
      rfl

/-- The monitor finds the order type in the record. -/
theorem shadowRecord_entryFeeRate (e : BacktestEngine) (t : Trade) :
    Shadow.entryFeeRate (shadowSettings e) (shadowRecord t 0) = e.entryFeeRate t.profile := by
  unfold Shadow.entryFeeRate BacktestEngine.entryFeeRate
  cases hpost : t.profile.usePostOnly with
  | true => simp [shadowRecord, shadowSettings, hpost]
  | false => simp [shadowRecord, shadowSettings, hpost]

/-- The engine and the monitor book the same net profit for a trade, with equal fee rates and
the same intervals, exactly where its notional is zero or the charges agree. -/
theorem pnlNet_eq_netPnl_iff (e : BacktestEngine) (t : Trade) (n : ℕ+)
    (hfee : t.entryFeeRate = e.entryFeeRate t.profile) (hinterval : e.fundingInterval = n)
    (entryIdx m : ℕ) (exitPrice : ℚ) (reason : ExitReason) (exitTs : ℤ) (barsHeld : ℕ)
    (filledAt : ℚ) (history : ℕ → ℚ) :
    (e.buildReport t exitPrice reason exitTs barsHeld (e.engineFunding t entryIdx m)).pnlNet =
        Shadow.netPnl (shadowSettings e)
          (fundedChecks (shadowRecord t filledAt) filledAt n history m).pos exitPrice ↔
      t.entryPrice * t.amount = 0 ∨
        FundingAgrees t.direction e.fundingRate (m / n) n history := by
  rw [← engineFunding_eq_shadowFunding_iff n.pos hinterval entryIdx m filledAt history]
  have hpos := fundedChecks_pos (t := t) n.pos filledAt history m
  have hrate : Shadow.entryFeeRate (shadowSettings e)
      (fundedChecks (shadowRecord t filledAt) filledAt n history m).pos = t.entryFeeRate := by
    rw [hfee, hpos]
    exact shadowRecord_entryFeeRate e t
  unfold Shadow.netPnl
  rw [hrate, hpos]
  exact sub_right_inj

/-! ## A short trade of eight bars -/

/-- A backtest that charges a tenth of a percent every eight bars. -/
def fundedEngine : BacktestEngine where
  classify := fun _ => .RANGE
  evaluateSignal := fun _ _ _ => (100, 1)
  riskGate := .default
  baseSize := 1 / 1000
  slippagePct := 5 / 10000
  takerFee := 55 / 100000
  makerFee := 2 / 10000
  fundingRate := 1 / 1000
  fundingInterval := 8
  gate := 65
  enableLiveGates := false
  sectorFilter := none

/-- One unit at a price of one hundred. -/
def unitTrade (direction : Side) : Trade where
  symbol := "SOL/USDT".toList
  direction := direction
  regime := .TREND_BULL
  score := 70
  entryPrice := 100
  slPrice := 90
  tpPrice := none
  amount := 1
  profile := DynamicRiskGate.default.getProfile .TREND_BULL
  entryFeeRate := 55 / 100000
  entryTime := 0

/-- A long is charged the same on both sides if the rates are the same. -/
theorem pnlNet_eq_netPnl_long :
    (fundedEngine.buildReport (unitTrade .LONG) 110 .timeExit 28800000 8
        (fundedEngine.engineFunding (unitTrade .LONG) 50 8)).pnlNet =
      Shadow.netPnl (shadowSettings fundedEngine)
        (fundedChecks (shadowRecord (unitTrade .LONG) 0) 0 (8 : ℕ+) (fun _ => 1 / 1000) 8).pos
        110 :=
  (pnlNet_eq_netPnl_iff fundedEngine (unitTrade .LONG) 8 (by decide +kernel) rfl 50 8 110
    .timeExit 28800000 8 0 fun _ => 1 / 1000).2 (Or.inr (by
      change (8 / 8 : ℕ) * max (1 / 1000 : ℚ) 0 = _
      simp))

/-- A short is charged by the engine and credited by the monitor. -/
theorem pnlNet_ne_netPnl_short :
    (unitTrade .SHORT).entryFeeRate = fundedEngine.entryFeeRate (unitTrade .SHORT).profile ∧
      fundedEngine.fundingInterval = 8 ∧
      (fundedEngine.buildReport (unitTrade .SHORT) 90 .timeExit 28800000 8
          (fundedEngine.engineFunding (unitTrade .SHORT) 50 8)).pnlNet ≠
        Shadow.netPnl (shadowSettings fundedEngine)
          (fundedChecks (shadowRecord (unitTrade .SHORT) 0) 0 8 (fun _ => 1 / 1000) 8).pos
          90 := by
  decide +kernel

end BacktestEngine
end Backtest
end Karsa
