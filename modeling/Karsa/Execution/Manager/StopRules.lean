import Karsa.Execution.Manager.State

/-!
# Active position manager - Rules that move the stop

Seven rules of the management cycle send a new stop.  The wick guard, the
breakeven lock and the moon-bag exit send theirs without looking at the current
one; the others compare with the local copy `sl_price`, which the breakeven lock
does not update.

Main results:

- Definition `wickGuard`, `moveStopToBreakeven`: the rules without a comparison.
- Definition `halfBreakeven`, `profitProtect`, `manageTrendTrailingStop`,
  `moonTrailing`: the rules that compare with the local copy.
-/

namespace Karsa
namespace Manager

/-- Is the new stop strictly more protective than the current one? -/
def tighter (side : Side) (new current : ℚ) : Bool :=
  match side with
  | .LONG => decide (current < new)
  | .SHORT => decide (new < current)

/-- Send a stop; when it is accepted, record it and update the local copy. -/
def amendAndTrack (symbol : Text) (accepted : Bool) (stop : ℚ) (s : ManagerState) :
    ManagerState :=
  let s := s.amendStop symbol accepted stop
  if accepted then { s with slPrice := stop } else s

/-! ## Wick guard -/

/-- Threshold of one tick against the position. -/
def Snapshot.wickLimit (snap : Snapshot) : ℚ :=
  if snap.startsHyper then 15 / 1000 else 3 / 100

/-- `last_tick_price`, or the live price of a record that has none. -/
def lastTick (pos : PositionRecord) : ℚ :=
  (pos.lastTickPrice.or pos.livePrice).getD 0

/-- Did the price jump against the position since the last cycle? -/
def wickFires (snap : Snapshot) (pos : PositionRecord) : Bool :=
  let last := lastTick pos
  let delta := (snap.livePrice - last) / last
  0 < last && 0 < snap.livePrice && match snap.side with
    | .LONG => decide (delta ≤ -snap.wickLimit)
    | .SHORT => decide (snap.wickLimit ≤ delta)

/-- The stop the wick guard sends, 1.5 percent from the live price. -/
def tightStop (snap : Snapshot) : ℚ :=
  match snap.side with
  | .LONG => snap.livePrice * (985 / 1000)
  | .SHORT => snap.livePrice * (1015 / 1000)

/-- Was the guard active less than ten seconds ago? -/
def wickDebounced (clock : ℚ) (pos : PositionRecord) : Bool :=
  decide (clock - pos.lastWickGuardTs < 10)

/-- Flash-crash guard: it writes the record back and ends the cycle. -/
def wickGuard (snap : Snapshot) (clock : ℚ) (accepted : Bool) (s : ManagerState) :
    Flow ManagerState :=
  let tick : PositionRecord → PositionRecord :=
    ({ · with lastTickPrice := some snap.livePrice })
  if wickFires snap s.pos then
    if wickDebounced clock s.pos then .ret (s.edit tick).persist
    else
      let s := s.edit ({ · with lastWickGuardTs := clock })
      .ret ((amendAndTrack snap.symbol accepted (tightStop snap) s).edit tick).persist
  else .next (s.edit tick)

/-! ## Breakeven lock -/

/-- Answers to the two amendments of one breakeven lock. -/
structure BreakevenAnswers where
  first : Bool
  retry : Bool
deriving Repr, DecidableEq

/-- Does the exchange accept one of them? -/
def BreakevenAnswers.accepted (b : BreakevenAnswers) : Bool :=
  b.first || b.retry

/-- Amend the stop, once more when the first request fails. -/
def sendWithRetry (b : BreakevenAnswers) (stop : ℚ) (s : ManagerState) : ManagerState :=
  let s := s.sendStop s.pos.symbol b.first stop
  if b.first then s else s.sendStop s.pos.symbol b.retry stop

/-- `_move_stop_to_breakeven`: only an accepted stop is recorded and persisted. -/
def moveStopToBreakeven (b : BreakevenAnswers) (entryPrice : ℚ) (s : ManagerState) :
    ManagerState :=
  let stop := breakevenStop entryPrice
  let s := sendWithRetry b stop s
  if b.accepted then
    ((s.edit fun pos =>
      { pos.recordStop stop with movedToBreakeven := true }).persist).updateSl stop
  else s

/-- The caller's side of a lock: the local flag is set whatever happened. -/
def lockBreakeven (b : BreakevenAnswers) (snap : Snapshot) (s : ManagerState) : ManagerState :=
  if s.movedToBe then s
  else { moveStopToBreakeven b snap.entryPrice s with movedToBe := true }

/-- `be_triggered`; `none` for a blank average true range. -/
def breakevenTriggered (snap : Snapshot) (pos : PositionRecord) : Option Bool :=
  pos.strictAtr.map fun atr =>
    if 0 < atr then decide (atr * (3 / 2) ≤ |snap.livePrice - snap.entryPrice|)
    else decide (snap.beLockR ≤ snap.rMult)

/-- Late lock: the flag is set in the record even when both amendments fail. -/
def breakevenTrigger (b : BreakevenAnswers) (snap : Snapshot) (s : ManagerState) :
    Flow ManagerState :=
  match breakevenTriggered snap s.pos with
  | none => .raise s
  | some triggered =>
      if !s.movedToBe && triggered then
        .next ((lockBreakeven b snap s).edit ({ · with movedToBreakeven := true }))
      else .next s

/-! ## Rules that compare with the local copy -/

/-- Half a risk unit behind the entry. -/
def halfBreakevenStop (snap : Snapshot) : ℚ :=
  match snap.side with
  | .LONG => snap.entryPrice + snap.initialRisk * -(1 / 2)
  | .SHORT => snap.entryPrice - snap.initialRisk * -(1 / 2)

/-- Half-breakeven. -/
def halfBreakeven (snap : Snapshot) (accepted : Bool) (s : ManagerState) : ManagerState :=
  if !s.movedToBe && !s.pos.movedToHalfBe && snap.halfBeR ≤ snap.rMult &&
      tighter snap.side (halfBreakevenStop snap) s.slPrice then
    let s := amendAndTrack snap.symbol accepted (halfBreakevenStop snap) s
    if accepted then s.edit ({ · with movedToHalfBe := true }) else s
  else s

/-- `"HYPER" in entry_regime`. -/
def Snapshot.isHyper (snap : Snapshot) : Bool :=
  Text.contains snap.entryRegime "HYPER".toList

/-- `trail_r`: the multiple of risk that profit-protect locks in. -/
def trailR (isHyper : Bool) (peakR : ℚ) : ℚ :=
  if isHyper then max (peakR - 2 / 10) (3 / 10)
  else if 5 / 2 ≤ peakR then max (peakR - 3 / 10) (1 / 2)
  else max (peakR - 1 / 2) (1 / 2)

/-- `peak_r_mult`. -/
def peakR (snap : Snapshot) (s : ManagerState) : ℚ :=
  calculateRMultiple snap.side snap.entryPrice s.peakPrice snap.initialRisk

/-- The stop profit-protect proposes. -/
def profitProtectStop (snap : Snapshot) (s : ManagerState) : ℚ :=
  match snap.side with
  | .LONG => snap.entryPrice + snap.initialRisk * trailR snap.isHyper (peakR snap s)
  | .SHORT => snap.entryPrice - snap.initialRisk * trailR snap.isHyper (peakR snap s)

/-- `activation_threshold`. -/
def Snapshot.activationR (snap : Snapshot) : ℚ :=
  if snap.isHyper then 1 / 2 else 3 / 2

/-- Profit-protect trailing; small improvements are not sent. -/
def profitProtect (snap : Snapshot) (accepted : Bool) (s : ManagerState) : ManagerState :=
  let currentR := calculateRMultiple snap.side snap.entryPrice s.slPrice snap.initialRisk
  if 0 < snap.initialRisk ∧ snap.activationR ≤ peakR snap s ∧
      tighter snap.side (profitProtectStop snap s) s.slPrice ∧
      15 / 100 ≤ trailR snap.isHyper (peakR snap s) - currentR then
    amendAndTrack snap.symbol accepted (profitProtectStop snap s) s
  else s

/-- The stop the trend trailing proposes, 2.5 average true ranges behind the peak. -/
def trendStop (snap : Snapshot) (pos : PositionRecord) (atr : ℚ) : ℚ :=
  let peak := pos.peakPrice.getD snap.livePrice
  match snap.side with
  | .LONG => peak - atr * (5 / 2)
  | .SHORT => peak + atr * (5 / 2)

/-- `_manage_trend_trailing_stop`, called in trend regimes. -/
def manageTrendTrailingStop (snap : Snapshot) (accepted : Bool) (s : ManagerState) :
    Flow ManagerState :=
  if Text.contains snap.entryRegime "TREND".toList ∧ 3 / 2 ≤ snap.rMult then
    match s.pos.strictAtr with
    | none => .raise s
    | some atr =>
        if 0 < atr ∧ tighter snap.side (trendStop snap s.pos atr) s.slPrice then
          .next (s.amendStop s.pos.symbol accepted (trendStop snap s.pos atr))
        else .next s
  else .next s

/-- Highest price since the partial close, updated by the live price. -/
def highestSincePartial (snap : Snapshot) (pos : PositionRecord) : ℚ :=
  if pos.highestSincePartial < snap.livePrice then snap.livePrice else pos.highestSincePartial

/-- The stop the moon-bag trailing proposes, five average true ranges away. -/
def moonTrailingStop (snap : Snapshot) (pos : PositionRecord) (atr : ℚ) : ℚ :=
  match snap.side with
  | .LONG => highestSincePartial snap pos - atr * 5
  | .SHORT => highestSincePartial snap pos + atr * 5

/-- Moon-bag trailing: the local copy moves even when the amendment fails. -/
def moonTrailing (snap : Snapshot) (accepted : Bool) (s : ManagerState) : Flow ManagerState :=
  if snap.trancheState = .MOON_BAG_ACTIVE then
    match s.pos.strictAtr with
    | none => .raise s
    | some atr =>
        if 0 < atr then
          let stop := moonTrailingStop snap s.pos atr
          let highest := highestSincePartial snap s.pos
          let s := s.edit ({ · with highestSincePartial := highest })
          if tighter snap.side stop s.slPrice then
            .next ({ s with slPrice := stop }.amendStop snap.symbol accepted stop)
          else .next s
        else .next s
  else .next s

/-- Sending a stop leaves the record in memory alone. -/
@[simp] theorem sendWithRetry_pos (b : BreakevenAnswers) (stop : ℚ) (s : ManagerState) :
    (sendWithRetry b stop s).pos = s.pos := by
  unfold sendWithRetry
  cases b.first <;> rfl

end Manager
end Karsa
