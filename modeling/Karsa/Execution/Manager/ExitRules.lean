import Karsa.Execution.Manager.ForceClose
import Karsa.Execution.Manager.StopRules

/-!
# Active position manager - Partial closes and exits

Scale-outs and the moon-bag exit reduce the position and subtract what they asked
for from the recorded amount.  The trailing-limit, time and regime exits end in a
force close, after which the cycle returns.

Main results:

- Definition `scaleOutPosition`, `moonBagExit`: the partial closes.
- Theorem `moonBagExit_outcome`: the five ways the moon-bag exit can end.
- Definition `trailingLimit`, `manageTimeExit`, `checkRegimeShift`: the exits.
-/

namespace Karsa
namespace Manager

open Bybit

/-! ## Partial closes -/

/-- Where the cycle or the reallocation reduces a position. -/
inductive ReduceSite where
  | scaleOut
  | trendFirst
  | trendSecond
  | moonBag
  | moonBagRest
  | proactive
deriving Repr, DecidableEq

/-- `(amount * pct).quantize(Decimal("0.001"))`. -/
def closeQty (amount pct : ℚ) : ℚ :=
  quantize (1 / 1000) (amount * pct)

/-- `_scale_out_position`: an accepted reduction is subtracted as requested. -/
def scaleOutPosition (accepted : Bool) (pct : ℚ) (s : ManagerState) : ManagerState :=
  let qty := closeQty s.pos.amount pct
  if qty ≤ 0 then s
  else
    let s := s.sendReduce s.pos.symbol qty accepted
    if accepted then
      s.edit fun pos => { pos with scaledOut := true, amount := pos.amount - qty }
    else s

/-- A scale-out followed by its tier. -/
def scaleOutTo (tier : Nat) (accepted : Bool) (pct : ℚ) (s : ManagerState) : ManagerState :=
  (scaleOutPosition accepted pct s).edit ({ · with scaleTier := tier })

/-- Is the SNIPER scale-out due? -/
def sniperScaleDue (snap : Snapshot) : Bool :=
  snap.entryRegime = "SNIPER".toList && snap.scaleTier < 1 && 3 / 2 ≤ snap.rMult

/-- Does the regime's name contain `TREND`? -/
def Snapshot.isTrend (snap : Snapshot) : Bool :=
  Text.contains snap.entryRegime "TREND".toList

/-- Is the scale-out of the other non-trend regimes due? -/
def nonTrendScaleDue (snap : Snapshot) : Bool :=
  snap.entryRegime ≠ "SNIPER".toList && !snap.isTrend && snap.scaleTier < 1 &&
    snap.beLockR ≤ snap.rMult

/-- Half of the position is closed and the stop locked, in SNIPER and in the
regimes that are neither SNIPER nor trend. -/
def scaleOutAndLock (reduced : Bool) (b : BreakevenAnswers) (snap : Snapshot)
    (s : ManagerState) : ManagerState :=
  if sniperScaleDue snap || nonTrendScaleDue snap then
    lockBreakeven b snap (scaleOutTo 1 reduced (1 / 2) s)
  else s

/-- `get_kline` as the retry loop hands it on: the unwrapped result, without the
keys `retCode` and `result` of the reply. -/
structure KlineResult where
  closes : List ℚ

/-- `raw.get("retCode") == 0`, read from the unwrapped result. -/
def KlineResult.retCodeIsZero (_ : KlineResult) : Bool := false

/-- `_check_momentum_exhaustion`; `rsiExtreme` stands for the comparison of the
last RSI value with 80 or 20. -/
def checkMomentumExhaustion (reply : Option KlineResult) (rsiExtreme : Bool) : Bool :=
  match reply with
  | none => false
  | some result => result.retCodeIsZero && 14 ≤ result.closes.length && rsiExtreme

/-- Momentum exhaustion of a SNIPER position: the force close is called with one
argument too many, which raises. -/
def sniperExhaustion (reply : Option KlineResult) (rsiExtreme : Bool) (snap : Snapshot)
    (s : ManagerState) : Flow ManagerState :=
  if snap.entryRegime = "SNIPER".toList ∧ 1 / 5 < snap.rMult ∧
      checkMomentumExhaustion reply rsiExtreme then .raise s
  else .next s

/-- Has the order flow turned against the position? -/
def cvdExhausted (snap : Snapshot) (slope : Option ℚ) : Bool :=
  match slope with
  | none => false
  | some slope => match snap.side with
      | .LONG => decide (slope < -(3 / 10))
      | .SHORT => decide (3 / 10 < slope)

/-- The chain of the order-flow lock and the two trend scale-outs. -/
def cvdOrTrendTiers (reduce : ReduceSite → Bool) (cvd tier : BreakevenAnswers)
    (slope : Option ℚ) (snap : Snapshot) (s : ManagerState) : ManagerState :=
  if 8 / 10 ≤ snap.rMult ∧ s.movedToBe = false then
    if cvdExhausted snap slope then lockBreakeven cvd snap s else s
  else if snap.scaleTier < 1 ∧ 3 / 2 ≤ snap.rMult then
    lockBreakeven tier snap (scaleOutTo 1 (reduce .trendFirst) (33 / 100) s)
  else if snap.scaleTier < 2 ∧ 3 ≤ snap.rMult then
    scaleOutTo 2 (reduce .trendSecond) (33 / 100) s
  else s

/-- Is the moon-bag exit due? -/
def moonBagDue (snap : Snapshot) (pos : PositionRecord) : Bool :=
  snap.trancheState = .INITIAL && 2 ≤ snap.rMult && 0 < pos.amount &&
    0 < closeQty pos.amount (8 / 10)

/-- Moon-bag exit: 80 percent is closed and the rest gets a breakeven stop, both
under the symbol without its slash.  When the stop fails, the rest is closed and
the cycle returns; when that fails too, the cycle goes on with the new tranche. -/
def moonBagExit (reduce : ReduceSite → Bool) (stopAccepted : Bool) (snap : Snapshot)
    (s : ManagerState) : Flow ManagerState :=
  if moonBagDue snap s.pos then
    let symbol := snap.symbol.without '/'
    let qty := closeQty s.pos.amount (8 / 10)
    let rest := s.pos.amount - qty
    let s := s.sendReduce symbol qty (reduce .moonBag)
    if reduce .moonBag then
      let s := s.edit ({ · with trancheState := .MOON_BAG_ACTIVE, amount := rest })
      let s := amendAndTrack symbol stopAccepted (breakevenStop snap.entryPrice) s
      if stopAccepted then .next s
      else
        let s := s.sendReduce symbol rest (reduce .moonBagRest)
        if reduce .moonBagRest then .ret (s.edit ({ · with amount := 0 })) else .next s
    else .next s
  else .next s

/-- The moon bag after its 80 percent were closed, before its stop is sent. -/
def moonBagStarted (snap : Snapshot) (s : ManagerState) : ManagerState :=
  (s.sendReduce (snap.symbol.without '/') (closeQty s.pos.amount (8 / 10)) true).edit
    ({ · with
      trancheState := .MOON_BAG_ACTIVE
      amount := s.pos.amount - closeQty s.pos.amount (8 / 10) })

/-- The ways a moon-bag exit can end. -/
inductive MoonBagOutcome (reduce : ReduceSite → Bool) (stopAccepted : Bool) (snap : Snapshot)
    (s : ManagerState) (flow : Flow ManagerState) : Prop
  | idle (hdue : moonBagDue snap s.pos = false) (hflow : flow = .next s)
  | refused (hdue : moonBagDue snap s.pos = true) (hreduce : reduce .moonBag = false)
      (hflow : flow = .next (s.sendReduce (snap.symbol.without '/')
        (closeQty s.pos.amount (8 / 10)) false))
  | started (hdue : moonBagDue snap s.pos = true) (hreduce : reduce .moonBag = true)
      (hstop : stopAccepted = true)
      (hflow : flow = .next (amendAndTrack (snap.symbol.without '/') true
        (breakevenStop snap.entryPrice) (moonBagStarted snap s)))
  | unprotected (rest : ℚ) (hdue : moonBagDue snap s.pos = true)
      (hreduce : reduce .moonBag = true) (hstop : stopAccepted = false)
      (hrest : reduce .moonBagRest = false)
      (hflow : flow = .next ((amendAndTrack (snap.symbol.without '/') false
        (breakevenStop snap.entryPrice) (moonBagStarted snap s)).sendReduce
          (snap.symbol.without '/') rest false))
  | closed (rest : ℚ) (hdue : moonBagDue snap s.pos = true)
      (hreduce : reduce .moonBag = true) (hstop : stopAccepted = false)
      (hrest : reduce .moonBagRest = true)
      (hflow : flow = .ret (((amendAndTrack (snap.symbol.without '/') false
        (breakevenStop snap.entryPrice) (moonBagStarted snap s)).sendReduce
          (snap.symbol.without '/') rest true).edit ({ · with amount := 0 })))

theorem moonBagExit_outcome (reduce : ReduceSite → Bool) (stopAccepted : Bool)
    (snap : Snapshot) (s : ManagerState) :
    MoonBagOutcome reduce stopAccepted snap s (moonBagExit reduce stopAccepted snap s) := by
  unfold moonBagExit
  cases hdue : moonBagDue snap s.pos with
  | false => exact .idle hdue rfl
  | true =>
      cases hreduce : reduce .moonBag with
      | false => exact .refused hdue hreduce rfl
      | true =>
          cases stopAccepted with
          | true => exact .started hdue hreduce rfl rfl
          | false =>
              cases hrest : reduce .moonBagRest with
              | false => exact .unprotected _ hdue hreduce rfl hrest rfl
              | true => exact .closed _ hdue hreduce rfl hrest rfl

/-! ## Trailing-limit exit -/

/-- Answers to one pass of the trailing-limit rule. -/
structure LimitAnswers where
  clock : ℚ
  cancelled : Bool
  order : Except Text OrderReply

/-- `TRAILING_LIMIT_OFFSET_PCT`. -/
def trailingLimitOffset : ℚ := 5 / 10000

/-- The limit price: the live price less the offset, never moved back. -/
def nextLimitPrice (snap : Snapshot) (current : ℚ) : ℚ :=
  match snap.side with
  | .LONG =>
      let ideal := snap.livePrice * (1 - trailingLimitOffset)
      if current ≤ 0 ∨ current < ideal then ideal else current
  | .SHORT =>
      let ideal := snap.livePrice * (1 + trailingLimitOffset)
      if current ≤ 0 ∨ ideal < current then ideal else current

/-- Is the old limit order worth replacing? -/
def repriceLimit (pos : PositionRecord) (price : ℚ) : Bool :=
  0 < pos.trailingLimitPrice &&
    trailingLimitOffset < |price - pos.trailingLimitPrice| / pos.trailingLimitPrice

/-- Activation at 1.5R. -/
def activateLimit (clock : ℚ) (snap : Snapshot) (s : ManagerState) : ManagerState :=
  if s.pos.trailingLimitState = .INACTIVE ∧ 3 / 2 ≤ snap.rMult then
    s.edit ({ · with trailingLimitState := .TRAILING_LIMIT_ACTIVE,
                     trailingLimitPlacedAt := some clock })
  else s

/-- Place a reduce-only limit order at the price. -/
def placeLimitExit (a : LimitAnswers) (price : ℚ) (s : ManagerState) : ManagerState :=
  if 0 < s.pos.amount ∧ 0 < price then
    match a.order with
    | .ok order =>
        (s.emit (.limitSent s.pos.amount price true)).edit
          ({ · with trailingLimitOrderId := order.orderId.getD (order.id.getD []),
                    trailingLimitPrice := price, trailingLimitPlacedAt := some a.clock })
    | .error _ => s.emit (.limitSent s.pos.amount price false)
  else s

/-- Send a cancellation of the resting limit order; its failure is ignored. -/
def cancelLimit (a : LimitAnswers) (s : ManagerState) : ManagerState :=
  s.emit (.cancelSent s.pos.trailingLimitOrderId a.cancelled)

/-- Trailing-limit exit: sixty seconds after the last placement the position is
force closed and the cycle returns. -/
def trailingLimit (a : LimitAnswers) (close : CloseAnswers) (snap : Snapshot)
    (s : ManagerState) : Flow ManagerState :=
  let s := activateLimit a.clock snap s
  if s.pos.trailingLimitState = .TRAILING_LIMIT_ACTIVE then
    if 60 < a.clock - s.pos.trailingLimitPlacedAt.getD a.clock then
      let s := if s.pos.trailingLimitOrderId = [] then s else cancelLimit a s
      let s := forceClosePosition close "trailing_limit_timeout_60s".toList s
      .ret (s.edit ({ · with trailingLimitState := .FILLED }))
    else
      let price := nextLimitPrice snap s.pos.trailingLimitPrice
      if s.pos.trailingLimitOrderId = [] then .next (placeLimitExit a price s)
      else if repriceLimit s.pos price then .next (placeLimitExit a price (cancelLimit a s))
      else .next s
  else .next s

/-! ## Time exit -/

/-- The exit that the holding time calls for, if any, and the updated memory of
the best R-multiple.  The reason's numeric suffix is left out. -/
def timeExitReason (clock : ℚ) (snap : Snapshot) (entryTime : ℚ) (pos : PositionRecord) :
    Option Text × PositionRecord :=
  let held := (clock - entryTime) / 60
  let hardLimit : Option Text := if snap.maxHoldMins < held then some "time_exit".toList else none
  if snap.rMult < 0 then
    if 3 ≤ held then (some "asymmetric_losing_exit".toList, pos) else (hardLimit, pos)
  else if snap.rMult = 0 then
    if 15 ≤ held then (some "asymmetric_be_exit".toList, pos) else (hardLimit, pos)
  else
    let quickMins : ℚ := if snap.startsHyper then 3 else 5
    let quickR : ℚ := if snap.startsHyper then 1 else 3
    if held ≤ quickMins ∧ quickR ≤ snap.rMult then (some "quick_profit_exit".toList, pos)
    else
      let peak := pos.peakRMultiple.getD snap.rMult
      if peak < snap.rMult then
        (hardLimit, { pos with peakRMultiple := some snap.rMult, peakRTs := clock })
      else if 10 ≤ (clock - pos.peakRTs) / 60 ∧ snap.rMult < peak * (8 / 10) then
        (some "momentum_decay_exit".toList, pos)
      else (hardLimit, pos)

/-- `_manage_time_exit`, called for records with an entry time. -/
def manageTimeExit (clock : ℚ) (close : CloseAnswers) (snap : Snapshot) (s : ManagerState) :
    Flow ManagerState :=
  match snap.entryTime with
  | none => .next s
  | some entryTime =>
      let (reason, pos) := timeExitReason clock snap entryTime s.pos
      let s := { s with pos := pos }
      match reason with
      | none => .next s
      | some reason => .ret (forceClosePosition close reason s)

/-! ## Regime exit -/

/-- `REGIME_FAMILY.get(regime, regime)`. -/
def regimeFamily (regime : Text) : Text :=
  if regime = "RANGE_LOW_VOL".toList ∨ regime = "RANGE_HIGH_VOL".toList then "RANGE".toList
  else if regime = "TREND_BULL".toList ∨ regime = "TREND_BEAR".toList then "TREND".toList
  else if regime = "HYPER_BULL".toList ∨ regime = "HYPER_BEAR".toList then "HYPER".toList
  else regime

/-- `_check_regime_shift`: five consecutive checks of another family force a
close; a failed read changes nothing. -/
def checkRegimeShift (current : Except Text Text) (close : CloseAnswers) (snap : Snapshot)
    (s : ManagerState) : Flow ManagerState :=
  if snap.entryRegime = "UNKNOWN".toList then .next s
  else match current with
    | .error _ => .next s
    | .ok current =>
        if regimeFamily snap.entryRegime = regimeFamily current ∨ current = snap.entryRegime then
          .next { s with shiftCount := 0 }
        else if 5 ≤ s.shiftCount + 1 then
          let reason :=
            "regime_shift_".toList ++ snap.entryRegime ++ "_to_".toList ++ current
          .ret { forceClosePosition close reason { s with shiftCount := s.shiftCount + 1 } with
            shiftCount := 0 }
        else .next { s with shiftCount := s.shiftCount + 1 }

end Manager
end Karsa
