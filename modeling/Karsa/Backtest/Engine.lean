import Karsa.Data.TrueRange
import Karsa.Foundations.Loops
import Karsa.Risk.DynamicRiskGate
import Mathlib.Data.List.TakeWhile

/-!
# Backtests - Replay of a candle array

`BacktestEngine.run` replays a candle array from its fiftieth bar on.  Each pass of its loop
classifies the candles up to the current bar, tries the directions of the regime in turn and
simulates the first one whose score reaches the gate.  The next pass starts behind the
simulated trade, or one bar further where none was taken.

The classifier and the router are arbitrary functions of the snapshot they are given.  Each
report is kept with the bar it was decided at.

Main results:

- Definition `simulateTrade`: a trade from its entry to its exit.
- Definition `pass`, `Returns`: one pass of the loop, and what `run` returns.
- Theorem `tryDirections_eq`: what the directions of one pass add to the reports.
- Theorem `pass_eq`: one pass in these terms.
-/

namespace Karsa
namespace Backtest

open Live (MarketRegime)
open MarketFeed (Candle)
open Shadow (RiskProfile)
open Risk (DynamicRiskGate)

/-! ## Configuration and reports -/

/-- `MarketSnapshot`, as far as `run` fills it. -/
structure MarketSnapshot where
  symbol : Text
  timestampMs : ℤ
  candles : List Candle
  globalPrices : Option (Dict Text ℚ)
  orderbookDelta : Option ℚ
  fundingRate : Option ℚ
  oiChange : Option ℚ

/-- `BacktestEngine`.  The router answers with the score and the volatility factor. -/
structure BacktestEngine where
  classify : MarketSnapshot → MarketRegime
  evaluateSignal : MarketSnapshot → MarketRegime → Side → ℚ × ℚ
  riskGate : DynamicRiskGate
  baseSize : ℚ
  slippagePct : ℚ
  takerFee : ℚ
  makerFee : ℚ
  fundingRate : ℚ
  fundingInterval : ℤ
  gate : ℚ
  enableLiveGates : Bool
  sectorFilter : Option (Text → Side → Bool)

/-- The arguments of `run` beside the candles. -/
structure Job where
  symbol : Text
  globalPrices : Option (Dict Text ℚ)
  orderbookDelta : Option ℚ
  fundingRate : Option ℚ
  oiChange : Option ℚ

/-- Why a simulated trade ended. -/
inductive ExitReason where
  | slHit
  | tpHit
  | timeExit
  | endOfData
deriving Repr, DecidableEq

/-- `BacktestReport`; times are timestamps in milliseconds. -/
structure BacktestReport where
  symbol : Text
  direction : Side
  regime : MarketRegime
  score : ℚ
  entryPrice : ℚ
  exitPrice : Option ℚ
  exitReason : Option ExitReason
  slPrice : Option ℚ
  tpPrice : Option ℚ
  amount : ℚ
  sizeMultiplier : ℚ
  pnlGross : ℚ
  pnlNet : ℚ
  totalFees : ℚ
  totalFunding : ℚ
  barsHeld : ℕ
  entryTime : Option ℤ
  exitTime : Option ℤ
  riskProfile : RiskProfile
  tradeTaken : Bool
deriving Repr, DecidableEq

/-- A report and the bar at which it was decided. -/
structure Decision where
  bar : ℕ
  report : BacktestReport
deriving Repr, DecidableEq

namespace BacktestEngine

variable (e : BacktestEngine)

/-! ## One trade -/

/-- `_compute_entry_price`. -/
def computeEntryPrice (candle : Candle) : Side → ℚ
  | .LONG => candle.close * (1 + e.slippagePct)
  | .SHORT => candle.close * (1 - e.slippagePct)

/-- `_compute_sl_price`. -/
def computeSlPrice (entryPrice : ℚ) (direction : Side) (atr slBuffer : ℚ) : ℚ :=
  match direction with
  | .LONG => entryPrice - atr * slBuffer
  | .SHORT => entryPrice + atr * slBuffer

/-- `_compute_tp_price`. -/
def computeTpPrice (entryPrice : ℚ) (direction : Side) (atr trailMult : ℚ) (tpType : Text) :
    Option ℚ :=
  if tpType = "TRAILING".toList then none
  else match direction with
    | .LONG => some (entryPrice + atr * trailMult)
    | .SHORT => some (entryPrice - atr * trailMult)

end BacktestEngine

/-- What a simulation fixes at the entry. -/
structure Trade where
  symbol : Text
  direction : Side
  regime : MarketRegime
  score : ℚ
  entryPrice : ℚ
  slPrice : ℚ
  tpPrice : Option ℚ
  amount : ℚ
  profile : RiskProfile
  entryFeeRate : ℚ
  entryTime : ℤ
deriving Repr, DecidableEq

/-- What a simulation updates at each bar. -/
structure Holding where
  worstPrice : ℚ
  peakPrice : ℚ
  accumulatedFunding : ℚ
  lastFundingBar : ℕ
  barsHeld : ℕ
deriving Repr, DecidableEq

namespace BacktestEngine

variable (e : BacktestEngine)

/-- The fee rate of the entry, by the order type of the profile. -/
def entryFeeRate (profile : RiskProfile) : ℚ :=
  if profile.usePostOnly then e.makerFee else e.takerFee

/-- The trade that is entered at a candle. -/
def openTrade (symbol : Text) (direction : Side) (regime : MarketRegime) (score : ℚ)
    (entryCandle : Candle) (atr : ℚ) : Trade :=
  let profile := e.riskGate.getProfile regime
  let entryPrice := e.computeEntryPrice entryCandle direction
  let slPrice := computeSlPrice entryPrice direction atr profile.slAtrBuffer
  let riskDistance := |entryPrice - slPrice|
  { symbol := symbol
    direction := direction
    regime := regime
    score := score
    entryPrice := entryPrice
    slPrice := slPrice
    tpPrice := computeTpPrice entryPrice direction atr profile.trailAtrMult
      profile.takeProfitType
    amount := if riskDistance ≤ 0 then e.baseSize
      else e.baseSize * 100 * profile.sizeMultiplier / riskDistance
    profile := profile
    entryFeeRate := e.entryFeeRate profile
    entryTime := entryCandle.ts }

/-- `_build_report`. -/
def buildReport (t : Trade) (exitPrice : ℚ) (exitReason : ExitReason) (exitTs : ℤ)
    (barsHeld : ℕ) (accumulatedFunding : ℚ) : BacktestReport :=
  let pnlGross := match t.direction with
    | .LONG => (exitPrice - t.entryPrice) * t.amount
    | .SHORT => (t.entryPrice - exitPrice) * t.amount
  let entryFee := t.entryPrice * t.amount * t.entryFeeRate
  let exitFee := exitPrice * t.amount * e.takerFee
  let totalFees := entryFee + exitFee
  { symbol := t.symbol
    direction := t.direction
    regime := t.regime
    score := t.score
    entryPrice := t.entryPrice
    exitPrice := some exitPrice
    exitReason := some exitReason
    slPrice := some t.slPrice
    tpPrice := none
    amount := t.amount
    sizeMultiplier := t.profile.sizeMultiplier
    pnlGross := pnlGross
    pnlNet := pnlGross - totalFees - accumulatedFunding
    totalFees := totalFees
    totalFunding := accumulatedFunding
    barsHeld := barsHeld
    entryTime := some t.entryTime
    exitTime := some exitTs
    riskProfile := t.profile
    tradeTaken := true }

/-- The locals of the loop before its first bar. -/
def startHolding (t : Trade) (entryIdx : ℕ) : Holding where
  worstPrice := t.entryPrice
  peakPrice := t.entryPrice
  accumulatedFunding := 0
  lastFundingBar := entryIdx
  barsHeld := 0

/-- Count a bar and note its worst price and its peak. -/
def observe (direction : Side) (candle : Candle) (h : Holding) : Holding :=
  match direction with
  | .LONG =>
      { h with
        barsHeld := h.barsHeld + 1
        worstPrice := min h.worstPrice candle.low
        peakPrice := max h.peakPrice candle.high }
  | .SHORT =>
      { h with
        barsHeld := h.barsHeld + 1
        worstPrice := max h.worstPrice candle.high
        peakPrice := min h.peakPrice candle.low }

/-- `sl_hit`. -/
def slHit (t : Trade) (h : Holding) : Bool :=
  match t.direction with
  | .LONG => decide (h.worstPrice ≤ t.slPrice)
  | .SHORT => decide (t.slPrice ≤ h.worstPrice)

/-- `tp_hit` at a target. -/
def tpHit (t : Trade) (candle : Candle) (target : ℚ) : Bool :=
  match t.direction with
  | .LONG => decide (target ≤ candle.high)
  | .SHORT => decide (candle.low ≤ target)

/-- Charge funding when its interval is over, for either direction. -/
def chargeFunding (t : Trade) (j : ℕ) (h : Holding) : Holding :=
  if e.fundingInterval ≤ (j : ℤ) - h.lastFundingBar ∧ 0 < e.fundingRate then
    { h with
      accumulatedFunding :=
        h.accumulatedFunding + t.entryPrice * t.amount * |e.fundingRate|
      lastFundingBar := j }
  else h

/-- Has the trade been held for the hours of its profile? -/
def heldOut (t : Trade) (h : Holding) : Bool :=
  let maxHoldBars := t.profile.maxHoldTimeMins / 60
  decide (0 < maxHoldBars ∧ maxHoldBars ≤ (h.barsHeld : ℤ))

/-- How a bar leaves a trade: closed at a price, or held. -/
inductive BarOutcome where
  | close (price : ℚ) (reason : ExitReason) (h : Holding)
  | hold (h : Holding)
deriving Repr, DecidableEq

/-- One bar, apart from the end of the data. -/
def simulateBar (t : Trade) (h : Holding) (j : ℕ) (candle : Candle) : BarOutcome :=
  let h := observe t.direction candle h
  if slHit t h then .close t.slPrice .slHit h
  else match t.tpPrice.filter (tpHit t candle) with
    | some target => .close target .tpHit h
    | none =>
        let h := e.chargeFunding t j h
        if heldOut t h then .close candle.close .timeExit h else .hold h

/-- The holding a bar leaves. -/
def BarOutcome.holding : BarOutcome → Holding
  | .close _ _ h | .hold h => h

/-- The loop over the bars behind the entry; the last one closes what is still held. -/
def simulateBars (t : Trade) : Holding → ℕ → List Candle → BacktestReport
  | h, _, [] => e.buildReport t 0 .endOfData t.entryTime 0 h.accumulatedFunding
  | h, j, candle :: rest =>
      match e.simulateBar t h j candle with
      | .close price reason h =>
          e.buildReport t price reason candle.ts h.barsHeld h.accumulatedFunding
      | .hold h =>
          if rest = [] then
            e.buildReport t candle.close .endOfData candle.ts h.barsHeld h.accumulatedFunding
          else simulateBars t h (j + 1) rest

/-- `_simulate_trade`, on the entry candle and those behind it. -/
def simulateTrade (t : Trade) (entryIdx : ℕ) (rest : List Candle) : BacktestReport :=
  e.simulateBars t (startHolding t entryIdx) (entryIdx + 1) rest

/-! ## The replay -/

/-- `_determine_directions`. -/
def determineDirections : MarketRegime → List Side
  | .TREND_BULL => [.LONG]
  | .TREND_BEAR => [.SHORT]
  | _ => [.LONG, .SHORT]

/-- The hour of a timestamp. -/
def hour (ts : ℤ) : ℤ :=
  ts / 3600000 % 24

/-- A live gate skips the direction. -/
def skips (symbol : Text) (ts : ℤ) (direction : Side) : Bool :=
  e.enableLiveGates &&
    (decide (0 ≤ hour ts ∧ hour ts < 7 ∧
        symbol ∉ ["BTC/USDT".toList, "ETH/USDT".toList]) ||
      match e.sectorFilter with
      | some approved => !approved symbol direction
      | none => false)

/-- `effective_gate`. -/
def effectiveGate (job : Job) (regime : MarketRegime) (volFactor : ℚ) : ℚ :=
  let hasMicrostructure :=
    job.orderbookDelta.isSome || job.fundingRate.isSome || job.oiChange.isSome
  let gate := e.gate * volFactor
  if !hasMicrostructure && (regime = .TREND_BULL || regime = .TREND_BEAR) then gate - 20
  else gate

/-- The report of a direction whose score stays below the gate. -/
def rejectedReport (symbol : Text) (direction : Side) (regime : MarketRegime) (score : ℚ) :
    BacktestReport where
  symbol := symbol
  direction := direction
  regime := regime
  score := score
  entryPrice := 0
  exitPrice := none
  exitReason := none
  slPrice := none
  tpPrice := none
  amount := 0
  sizeMultiplier := 0
  pnlGross := 0
  pnlNet := 0
  totalFees := 0
  totalFunding := 0
  barsHeld := 0
  entryTime := none
  exitTime := none
  riskProfile := e.riskGate.getProfile regime
  tradeTaken := false

/-- The snapshot of a bar. -/
def snapshot (job : Job) (context : List Candle) (ts : ℤ) : MarketSnapshot where
  symbol := job.symbol
  timestampMs := ts
  candles := context
  globalPrices := job.globalPrices
  orderbookDelta := job.orderbookDelta
  fundingRate := job.fundingRate
  oiChange := job.oiChange

end BacktestEngine

/-- State of the loop: the current bar and the reports so far. -/
structure Replay where
  idx : ℕ
  decisions : List Decision
deriving Repr, DecidableEq

/-- What a pass has computed before it tries the directions. -/
structure BarView where
  snapshot : MarketSnapshot
  regime : MarketRegime
  entryCandle : Candle
  rest : List Candle
  atr : ℚ

namespace BacktestEngine

variable (e : BacktestEngine) (job : Job)

/-- The directions of a bar one after the other, up to the first trade. -/
def tryDirections (v : BarView) : List Side → Replay → Replay
  | [], s => s
  | direction :: rest, s =>
      if e.skips job.symbol v.entryCandle.ts direction then tryDirections v rest s
      else
        let (score, volFactor) := e.evaluateSignal v.snapshot v.regime direction
        if e.effectiveGate job v.regime volFactor ≤ score then
          let trade := e.openTrade job.symbol direction v.regime score v.entryCandle v.atr
          let report := e.simulateTrade trade s.idx v.rest
          ⟨s.idx + max report.barsHeld 1 + 1, s.decisions ++ [⟨s.idx, report⟩]⟩
        else
          tryDirections v rest
            ⟨s.idx, s.decisions ++
              [⟨s.idx, e.rejectedReport job.symbol direction v.regime score⟩]⟩

/-- What a pass computes at a bar of the array. -/
def viewAt (candles : List Candle) (idx : ℕ) : Option BarView :=
  (candles[idx]?).map fun entryCandle =>
    let view := snapshot job (candles.take (idx + 1)) entryCandle.ts
    { snapshot := view
      regime := e.classify view
      entryCandle := entryCandle
      rest := candles.drop (idx + 1)
      atr := quantize (1 / 10 ^ 8)
        ((TrueRange.backtestAtrArray TrueRange.atrPeriod candles).getD idx 0) }

/-- `any(r.trade_taken for r in reports[-count:])`, for a positive count. -/
def takenLately (count : ℕ) (decisions : List Decision) : Bool :=
  (decisions.drop (decisions.length - count)).any fun d => d.report.tradeTaken

/-- One pass of the loop of `run`. -/
def pass (candles : List Candle) (s : Replay) : Replay :=
  match e.viewAt job candles s.idx with
  | none => s
  | some view =>
      let directions := determineDirections view.regime
      let s := e.tryDirections job view directions s
      let tradeTaken := directions ≠ [] && takenLately directions.length s.decisions
      if tradeTaken then s else ⟨s.idx + 1, s.decisions⟩

/-- `idx < len(arr)`. -/
def Inside (candles : List Candle) (s : Replay) : Prop :=
  s.idx < candles.length

instance (candles : List Candle) : DecidablePred (Inside candles) :=
  fun s => inferInstanceAs (Decidable (s.idx < candles.length))

/-- State before the first pass. -/
def start : Replay := ⟨50, []⟩

/-- State after at most `n` passes. -/
def replay (candles : List Candle) (n : ℕ) : Replay :=
  passes (Inside candles) (e.pass job candles) n start

/-- `run` returns these reports. -/
def Returns (candles : List Candle) (decisions : List Decision) : Prop :=
  if candles.length < 50 then decisions = []
  else ∃ n, ¬ Inside candles (e.replay job candles n) ∧
    decisions = (e.replay job candles n).decisions

/-! ## What a pass does -/

/-- The direction passes the live gates and its score reaches the gate. -/
def enters (v : BarView) (direction : Side) : Bool :=
  !e.skips job.symbol v.entryCandle.ts direction &&
    decide (e.effectiveGate job v.regime (e.evaluateSignal v.snapshot v.regime direction).2 ≤
      (e.evaluateSignal v.snapshot v.regime direction).1)

/-- The decision to enter. -/
def entered (v : BarView) (idx : ℕ) (direction : Side) : Decision :=
  ⟨idx, e.simulateTrade (e.openTrade job.symbol direction v.regime
    (e.evaluateSignal v.snapshot v.regime direction).1 v.entryCandle v.atr) idx v.rest⟩

/-- The directions rejected before the first one that enters. -/
def rejections (v : BarView) (idx : ℕ) (directions : List Side) : List Decision :=
  ((directions.takeWhile fun d => !e.enters job v d).filter fun d =>
      !e.skips job.symbol v.entryCandle.ts d).map fun d =>
    ⟨idx, e.rejectedReport job.symbol d v.regime (e.evaluateSignal v.snapshot v.regime d).1⟩

/-- Where the loop goes on behind a trade. -/
def behind (d : Decision) : ℕ :=
  d.bar + max d.report.barsHeld 1 + 1

/-- The directions of a bar add the rejected ones and the one that enters. -/
theorem tryDirections_eq (v : BarView) (directions : List Side) (s : Replay) :
    e.tryDirections job v directions s =
      match directions.find? (e.enters job v) with
      | none => ⟨s.idx, s.decisions ++ e.rejections job v s.idx directions⟩
      | some direction =>
          ⟨behind (e.entered job v s.idx direction),
            s.decisions ++ e.rejections job v s.idx directions ++
              [e.entered job v s.idx direction]⟩ := by
  induction directions generalizing s with
  | nil => simp [tryDirections, rejections]
  | cons direction rest ih =>
      rw [tryDirections]
      by_cases hskip : e.skips job.symbol v.entryCandle.ts direction = true
      · have hout : e.enters job v direction = false := by simp [enters, hskip]
        rw [if_pos hskip, ih, List.find?_cons_of_neg (by simp [hout])]
        simp [rejections, hout, hskip]
      · rw [if_neg hskip]
        rw [Bool.not_eq_true] at hskip
        by_cases hgate : e.effectiveGate job v.regime
            (e.evaluateSignal v.snapshot v.regime direction).2 ≤
              (e.evaluateSignal v.snapshot v.regime direction).1
        · have hin : e.enters job v direction = true := by simp [enters, hskip, hgate]
          rw [List.find?_cons_of_pos hin]
          simp [rejections, hin, hgate, entered, behind]
        · have hout : e.enters job v direction = false := by simp [enters, hskip, hgate]
          rw [List.find?_cons_of_neg (by simp [hout])]
          simp only [hgate, if_false, ih]
          cases rest.find? (e.enters job v) <;> simp [rejections, hout, hskip]

/-- Rejected directions take no trade. -/
theorem not_taken_of_mem_rejections {v : BarView} {idx : ℕ} {directions : List Side}
    {d : Decision} (hd : d ∈ e.rejections job v idx directions) :
    d.bar = idx ∧ d.report.tradeTaken = false := by
  rw [rejections, List.mem_map] at hd
  rcases hd with ⟨direction, _, rfl⟩
  exact ⟨rfl, rfl⟩

/-! ## What a simulation does -/

/-- Charging funding counts no bar. -/
@[simp] theorem chargeFunding_barsHeld (t : Trade) (j : ℕ) (h : Holding) :
    (e.chargeFunding t j h).barsHeld = h.barsHeld := by
  unfold chargeFunding
  split_ifs <;> rfl

/-- Observing a candle counts one. -/
@[simp] theorem observe_barsHeld (direction : Side) (candle : Candle) (h : Holding) :
    (observe direction candle h).barsHeld = h.barsHeld + 1 := by
  cases direction <;> rfl

/-- A bar counts itself. -/
theorem simulateBar_barsHeld (t : Trade) (h : Holding) (j : ℕ) (candle : Candle) :
    (e.simulateBar t h j candle).holding.barsHeld = h.barsHeld + 1 := by
  rw [simulateBar]
  dsimp only
  cases hsl : slHit t (observe t.direction candle h) with
  | true => exact observe_barsHeld _ _ _
  | false =>
      rw [if_neg Bool.false_ne_true]
      cases t.tpPrice.filter (tpHit t candle) with
      | some target => exact observe_barsHeld _ _ _
      | none =>
          dsimp only
          split_ifs <;>
            exact (e.chargeFunding_barsHeld _ _ _).trans (observe_barsHeld _ _ _)

/-- Simulated trades are taken. -/
theorem simulateBars_taken (t : Trade) (h : Holding) (j : ℕ) (rest : List Candle) :
    (e.simulateBars t h j rest).tradeTaken = true := by
  induction rest generalizing h j with
  | nil => rfl
  | cons candle rest ih =>
      rw [simulateBars]
      cases e.simulateBar t h j candle with
      | close price reason h' => rfl
      | hold h' =>
          dsimp only
          split_ifs
          · rfl
          · exact ih h' (j + 1)

@[simp] theorem entered_taken (v : BarView) (idx : ℕ) (direction : Side) :
    (e.entered job v idx direction).report.tradeTaken = true :=
  e.simulateBars_taken _ _ _ _

/-- How many directions of a bar the live gates skip. -/
def gatedCount (v : BarView) : ℕ :=
  (determineDirections v.regime).countP (e.skips job.symbol v.entryCandle.ts)

/-- There is always a direction to try. -/
theorem determineDirections_ne_nil (regime : MarketRegime) : determineDirections regime ≠ [] := by
  cases regime <;> decide

/-- There are at most two. -/
theorem length_determineDirections_le (regime : MarketRegime) :
    (determineDirections regime).length ≤ 2 := by
  cases regime <;> decide

/-- Where no direction enters, each one is gated or rejected. -/
theorem length_rejections_add {v : BarView} {directions : List Side}
    (hnone : directions.find? (e.enters job v) = none) (idx : ℕ) :
    (e.rejections job v idx directions).length +
      directions.countP (e.skips job.symbol v.entryCandle.ts) = directions.length := by
  have hall : ∀ d ∈ directions, (!e.enters job v d) = true := by
    intro d hd
    have hout := List.find?_eq_none.1 hnone d hd
    simpa using hout
  have htried : directions.takeWhile (fun d => !e.enters job v d) = directions :=
    List.takeWhile_eq_self_iff.2 hall
  rw [rejections, List.length_map, htried, ← List.countP_eq_length_filter, Nat.add_comm]
  have hsplit := List.length_eq_countP_add_countP
    (l := directions) (e.skips job.symbol v.entryCandle.ts)
  simpa using hsplit.symm

@[simp] theorem takenLately_zero (decisions : List Decision) :
    takenLately 0 decisions = false := by
  simp [takenLately]

/-- Behind a trade the reports of the pass show it. -/
theorem takenLately_concat {count : ℕ} (hcount : 0 < count) {d : Decision}
    (hd : d.report.tradeTaken = true) (decisions : List Decision) :
    takenLately count (decisions ++ [d]) = true := by
  have hmem : d ∈ (decisions ++ [d]).drop ((decisions ++ [d]).length - count) := by
    rw [List.length_append, List.length_singleton, List.drop_append_of_le_length (by omega)]
    exact List.mem_append_right _ (List.mem_singleton_self d)
  exact List.any_eq_true.2 ⟨d, hmem, hd⟩

/-- Behind rejections alone, the last reports reach back to those of earlier passes. -/
theorem takenLately_append {count gated : ℕ} {decisions rejected : List Decision}
    (hrejected : ∀ d ∈ rejected, d.report.tradeTaken = false)
    (hlength : rejected.length + gated = count) :
    takenLately count (decisions ++ rejected) = takenLately gated decisions := by
  have hstart : (decisions ++ rejected).length - count = decisions.length - gated := by
    rw [List.length_append]
    omega
  have hnone : (rejected.any fun d => d.report.tradeTaken) = false := by
    rw [List.any_eq_false]
    intro d hd
    simp [hrejected d hd]
  rw [takenLately, hstart, List.drop_append_of_le_length (by omega), List.any_append, hnone,
    Bool.or_false]
  rfl

/-- A bar of the array has a view. -/
theorem viewAt_of_inside {candles : List Candle} {s : Replay} (h : Inside candles s) :
    ∃ v, e.viewAt job candles s.idx = some v := by
  rw [viewAt, List.getElem?_eq_getElem h]
  exact ⟨_, rfl⟩

/-- A pass enters a trade and goes on behind it, or it adds the rejected directions and goes
one bar further, unless the reports it looks at show an earlier trade. -/
theorem pass_eq {candles : List Candle} {s : Replay} {v : BarView}
    (hview : e.viewAt job candles s.idx = some v) :
    e.pass job candles s =
      match (determineDirections v.regime).find? (e.enters job v) with
      | some direction =>
          ⟨behind (e.entered job v s.idx direction),
            s.decisions ++ e.rejections job v s.idx (determineDirections v.regime) ++
              [e.entered job v s.idx direction]⟩
      | none =>
          ⟨if takenLately (e.gatedCount job v) s.decisions then s.idx else s.idx + 1,
            s.decisions ++ e.rejections job v s.idx (determineDirections v.regime)⟩ := by
  have hdirections := determineDirections_ne_nil v.regime
  rw [pass, hview]
  dsimp only
  rw [tryDirections_eq]
  cases hfind : (determineDirections v.regime).find? (e.enters job v) with
  | some direction =>
      dsimp only
      rw [takenLately_concat (List.length_pos_of_ne_nil hdirections)
        (e.entered_taken job v s.idx direction)]
      simp [hdirections]
  | none =>
      dsimp only
      rw [takenLately_append (fun d hd => (e.not_taken_of_mem_rejections job hd).2)
        (e.length_rejections_add job hfind s.idx)]
      rw [decide_eq_true hdirections, Bool.true_and, ← gatedCount]
      cases takenLately (e.gatedCount job v) s.decisions <;> rfl

end BacktestEngine
end Backtest
end Karsa
