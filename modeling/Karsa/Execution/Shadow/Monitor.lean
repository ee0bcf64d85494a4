import Karsa.Execution.Shadow.Records
import Karsa.Foundations.ControlFlow
import Karsa.Foundations.Runs
import Mathlib.Data.List.TakeWhile

/-!
# Shadow trading - Checks of the monitor

`ShadowAPM.run` reads every shadow position anew every two seconds and checks it.  A pending
limit order waits for its fill; an open position passes a fixed sequence of rules, each of
which may close it.  The rules work on the dictionary that was read, on a local copy of its
stop, and on the Redis key, which they overwrite with the whole dictionary.

Main results:

- Definition `manageOpenPosition`, `checkPendingFill`, `manageShadowPosition`: one check.
- Theorem `ruleOutcome`, `ruleEffect`: the ways a rule can leave the state, and what they have
  in common.
- Theorem `check_of_priceAt`: when a check runs its rules.
- Theorem `EntryKept.rule`: no rule touches what the entry wrote.
- Theorem `EntryKept.check`, `EntryKept.run`: nor does a check of an open position, or a run
  of them.
- Theorem `Viewed.rule`: the parts of the record that it spares.
-/

namespace Karsa
namespace Shadow

/-! ## State -/

/-- Why a position was closed; the numbers in the texts are left out. -/
inductive ExitReason where
  | regimeShift (entry current : Text)
  | timeExit
  | quickProfit
  | stagnation
  | staleUnderwater
  | wickGuard
  | staleCleanup
  | slHit
  | tpHit
deriving Repr, DecidableEq

/-- A close as it is recorded. -/
structure ShadowClose where
  exitPrice : ℚ
  reason : ExitReason
  netPnl : ℚ
deriving Repr, DecidableEq

/-- What one check meets: the mid price, if there is one, the regime and funding rate Redis
holds, and the clock at each place that reads it. -/
structure CheckAnswers where
  mid : Option ℚ
  pendingClock : ℚ
  fillClock : ℚ
  currentRegime : Text
  exitClock : ℚ
  staleClock : ℚ
  fundingClock : ℚ
  fundingRate : ℚ
deriving Repr, DecidableEq

/-- State of the monitor for one position: the dictionary in memory, the Redis key, the
local stop, the symbol's count of shifted regimes, and the close of this check. -/
structure MonitorState where
  pos : ShadowRecord
  stored : Option ShadowRecord
  virtualSl : ℚ
  shiftCount : Nat
  closed : Option ShadowClose
deriving Repr, DecidableEq

namespace MonitorState

/-- Change the dictionary in memory. -/
def edit (s : MonitorState) (f : ShadowRecord → ShadowRecord) : MonitorState :=
  { s with pos := f s.pos }

/-- `redis.set(key, dumps(pos))`. -/
def persist (s : MonitorState) : MonitorState :=
  { s with stored := some s.pos }

/-- Move the stop of the dictionary and the local one. -/
def moveStop (s : MonitorState) (stop : ℚ) : MonitorState :=
  { s with pos := { s.pos with virtualSl := some stop }, virtualSl := stop }

end MonitorState

/-! ## Closing -/

/-- The fee rate the close charges for the entry. -/
def entryFeeRate (settings : ShadowSettings) (pos : ShadowRecord) : ℚ :=
  if pos.feeType = some "maker".toList then settings.makerFeePct else settings.takerFeePct

/-- Profit or loss of a close, net of fees and funding. -/
def netPnl (settings : ShadowSettings) (pos : ShadowRecord) (exitPrice : ℚ) : ℚ :=
  let pnl := match pos.side with
    | .LONG => (exitPrice - pos.entryPrice) * pos.amount
    | .SHORT => (pos.entryPrice - exitPrice) * pos.amount
  let entryFee := pos.entryPrice * pos.amount * entryFeeRate settings pos
  let exitFee := exitPrice * pos.amount * settings.takerFeePct
  pnl - (entryFee + exitFee) - pos.totalFundingFees

/-- `_close_shadow_position`; a failed update of the trade table is ignored. -/
def closeShadowPosition (settings : ShadowSettings) (exitPrice : ℚ) (reason : ExitReason)
    (s : MonitorState) : MonitorState :=
  { s with stored := none, closed := some ⟨exitPrice, reason, netPnl settings s.pos exitPrice⟩ }

/-! ## Locals of a check -/

/-- Has the price reached the stop? -/
def crossed (side : Side) (price stop : ℚ) : Bool :=
  match side with
  | .LONG => decide (price ≤ stop)
  | .SHORT => decide (stop ≤ price)

/-- `worst`: the worst price so far, the current one included. -/
def worstOf (pos : ShadowRecord) (mid : ℚ) : ℚ :=
  let worst := pos.worstPriceSeen.getD mid
  match pos.side with
  | .LONG => if mid < worst then mid else worst
  | .SHORT => if worst < mid then mid else worst

/-- `initial_risk`: the share of the entry price the profile names, else zero. -/
def initialRisk (pos : ShadowRecord) : ℚ :=
  match pos.riskProfile with
  | none => 0
  | some profile =>
      match ((profile.get "sl_pct".toList).getD (.decimal 0)).toDecimal with
      | none => 0
      | some pct => pos.entryPrice * pct

/-- `_calculate_r_multiple`. -/
def calculateRMultiple (side : Side) (entryPrice livePrice initialRisk : ℚ) : ℚ :=
  if initialRisk ≤ 0 then 0
  else match side with
    | .LONG => (livePrice - entryPrice) / initialRisk
    | .SHORT => (entryPrice - livePrice) / initialRisk

/-- `r_multiple` of a position at a price. -/
def rMultiple (pos : ShadowRecord) (mid : ℚ) : ℚ :=
  calculateRMultiple pos.side pos.entryPrice mid (initialRisk pos)

/-- Local variables that the check computes once. -/
structure CheckLocals where
  mid : ℚ
  worst : ℚ
  peak : ℚ
  initialRisk : ℚ
  rMult : ℚ
deriving Repr, DecidableEq

/-- Their values for the dictionary that was read. -/
def locals (pos : ShadowRecord) (mid : ℚ) : CheckLocals where
  mid := mid
  worst := worstOf pos mid
  peak := pos.peakPrice.getD mid
  initialRisk := initialRisk pos
  rMult := rMultiple pos mid

/-- `str(entry_regime).startswith("HYPER")`. -/
def ShadowRecord.isHyper (pos : ShadowRecord) : Bool :=
  decide ("HYPER".toList <+: pos.regime)

/-- `PositionStore.update_peak`, on the stored record. -/
def updatePeak (price : ℚ) (record : ShadowRecord) : ShadowRecord :=
  let updated := match record.peakPrice, record.side with
    | none, _ => true
    | some peak, .LONG => decide (peak < price)
    | some peak, .SHORT => decide (price < peak)
  if updated then { record with peakPrice := some price } else record

/-- Note the worst price in memory and the peak under the key. -/
def observe (mid : ℚ) (s : MonitorState) : MonitorState :=
  { s with
    pos := { s.pos with worstPriceSeen := some (worstOf s.pos mid) }
    stored := s.stored.map (updatePeak mid) }

/-! ## Rules that close -/

/-- Kill switch: five checks in a row in another regime. -/
def regimeKillSwitch (settings : ShadowSettings) (a : CheckAnswers) (loc : CheckLocals)
    (s : MonitorState) : Flow MonitorState :=
  if a.currentRegime ≠ [] ∧ s.pos.regime ≠ [] ∧ a.currentRegime ≠ s.pos.regime then
    if 5 ≤ s.shiftCount + 1 then
      .ret { closeShadowPosition settings loc.mid (.regimeShift s.pos.regime a.currentRegime) s
        with shiftCount := 0 }
    else .next { s with shiftCount := s.shiftCount + 1 }
  else .next { s with shiftCount := 0 }

/-- The exit of `_manage_time_exit` that is due, if any. -/
def timeExitReason (clock : ℚ) (loc : CheckLocals) (pos : ShadowRecord)
    (entryTime maxMinutes : ℚ) : Option ExitReason :=
  let held := (clock - entryTime) / 60
  let quickProfitMins : ℚ := if pos.isHyper then 3 else 5
  let quickProfitR : ℚ := if pos.isHyper then 1 else 2
  let stagMins : ℚ := if pos.isHyper then 5 else 10
  let stagR : ℚ := if pos.isHyper then 1 / 2 else 1 / 5
  if 0 < maxMinutes ∧ maxMinutes < held then some .timeExit
  else if held ≤ quickProfitMins ∧ quickProfitR ≤ loc.rMult then some .quickProfit
  else if stagMins ≤ held ∧ loc.rMult < stagR then some .stagnation
  else if 15 ≤ held ∧ crossed pos.side loc.mid pos.entryPrice then some .staleUnderwater
  else none

/-- Time exit, skipped when the profile or its limit cannot be read. -/
def manageTimeExit (settings : ShadowSettings) (clock : ℚ) (loc : CheckLocals)
    (s : MonitorState) : Flow MonitorState :=
  match s.pos.riskProfile, s.pos.enteredAt with
  | some profile, some entryTime =>
      match ((profile.get "max_hold_time_mins".toList).getD (.number 0)).minutes with
      | none => .next s
      | some maxMinutes =>
          match timeExitReason clock loc s.pos entryTime maxMinutes with
          | none => .next s
          | some reason => .ret (closeShadowPosition settings loc.mid reason s)
  | _, _ => .next s

/-- Has the price jumped against the position since the last check? -/
def wickFires (loc : CheckLocals) (pos : ShadowRecord) : Bool :=
  let last := pos.lastTickPrice.getD loc.worst
  let delta := (loc.mid - last) / last
  let limit : ℚ := if pos.isHyper then 15 / 1000 else 3 / 100
  0 < last && 0 < loc.mid && match pos.side with
    | .LONG => decide (delta ≤ -limit)
    | .SHORT => decide (limit ≤ delta)

/-- Flash-crash guard: such a jump closes the position. -/
def wickGuard (settings : ShadowSettings) (loc : CheckLocals) (s : MonitorState) :
    Flow MonitorState :=
  if wickFires loc s.pos then
    .ret (closeShadowPosition settings loc.mid .wickGuard s)
  else .next (s.edit ({ · with lastTickPrice := some loc.mid }))

/-- A position without a stop is closed after four hours. -/
def staleCleanup (settings : ShadowSettings) (clock : ℚ) (loc : CheckLocals)
    (s : MonitorState) : Flow MonitorState :=
  match s.pos.enteredAt with
  | none => .next s
  | some entered =>
      if s.virtualSl ≤ 0 ∧ 240 ≤ (clock - entered) / 60 then
        .ret (closeShadowPosition settings loc.mid .staleCleanup s)
      else .next s

/-- The stop is hit when the worst price has reached it. -/
def slHit (settings : ShadowSettings) (loc : CheckLocals) (s : MonitorState) :
    Flow MonitorState :=
  if 0 < s.virtualSl ∧ crossed s.pos.side loc.worst s.virtualSl then
    .ret (closeShadowPosition settings s.virtualSl .slHit s)
  else .next s

/-- Has the price reached the target? -/
def reachedTarget (side : Side) (price target : ℚ) : Bool :=
  match side with
  | .LONG => decide (target ≤ price)
  | .SHORT => decide (price ≤ target)

/-- The target is hit when the mid price has reached it. -/
def tpHit (settings : ShadowSettings) (loc : CheckLocals) (s : MonitorState) :
    Flow MonitorState :=
  let tp := s.pos.virtualTp.getD 0
  if 0 < tp ∧ reachedTarget s.pos.side loc.mid tp then
    .ret (closeShadowPosition settings tp .tpHit s)
  else .next s

/-! ## Rules that move the stop -/

/-- Is the new stop tighter?  A short's missing stop gives way to any. -/
def tightens (side : Side) (new current : ℚ) : Bool :=
  match side with
  | .LONG => decide (current < new)
  | .SHORT => decide (new < current ∨ current = 0)

/-- `APM_BREAKEVEN_FEE_PCT` on the winning side of the entry. -/
def breakevenStop (pos : ShadowRecord) : ℚ :=
  match pos.side with
  | .LONG => pos.entryPrice + pos.entryPrice * (25 / 10000)
  | .SHORT => pos.entryPrice - pos.entryPrice * (25 / 10000)

/-- Is the breakeven lock due? -/
def breakevenDue (loc : CheckLocals) (pos : ShadowRecord) : Bool :=
  !pos.movedToBreakeven && decide ((if pos.isHyper then 3 / 10 else 1 / 4 : ℚ) ≤ loc.rMult)

/-- Breakeven lock: the stop is set without a comparison. -/
def breakevenLock (loc : CheckLocals) (s : MonitorState) : MonitorState :=
  if breakevenDue loc s.pos then
    (s.moveStop (breakevenStop s.pos)).edit ({ · with movedToBreakeven := true })
  else s

/-- `trail_r`. -/
def trailR (isHyper : Bool) (rMult : ℚ) : ℚ :=
  let stepR : ℚ := if isHyper then 1 / 10 else 1 / 5
  let stepActivateR : ℚ := if isHyper then 1 / 2 else 6 / 5
  ⌊rMult / stepR⌋ * stepR - (stepActivateR - stepR)

/-- The stop the step trailing proposes. -/
def stepStop (loc : CheckLocals) (pos : ShadowRecord) : ℚ :=
  match pos.side with
  | .LONG => pos.entryPrice + loc.initialRisk * trailR pos.isHyper loc.rMult
  | .SHORT => pos.entryPrice - loc.initialRisk * trailR pos.isHyper loc.rMult

/-- Is the step trailing active? -/
def stepDue (loc : CheckLocals) (pos : ShadowRecord) : Bool :=
  pos.movedToBreakeven && decide (0 < loc.initialRisk) &&
    decide ((if pos.isHyper then 1 / 2 else 6 / 5 : ℚ) ≤ loc.rMult) &&
      decide (0 < trailR pos.isHyper loc.rMult)

/-- Step trailing. -/
def stepTrailing (loc : CheckLocals) (s : MonitorState) : MonitorState :=
  if stepDue loc s.pos && tightens s.pos.side (stepStop loc s.pos) s.virtualSl then
    s.moveStop (stepStop loc s.pos)
  else s

/-- The stop the trend trailing proposes, 2.5 average true ranges behind the peak. -/
def trendStop (loc : CheckLocals) (pos : ShadowRecord) (atr : ℚ) : ℚ :=
  match pos.side with
  | .LONG => loc.peak - atr * (5 / 2)
  | .SHORT => loc.peak + atr * (5 / 2)

/-- Is the trend trailing active? -/
def trendDue (loc : CheckLocals) (pos : ShadowRecord) : Bool :=
  (pos.regime = "TREND_BULL".toList || pos.regime = "TREND_BEAR".toList) &&
    decide (3 / 2 ≤ loc.rMult)

/-- Trend trailing; a blank average true range raises. -/
def trendTrailing (loc : CheckLocals) (s : MonitorState) : Flow MonitorState :=
  if trendDue loc s.pos then
    match (s.pos.atr.getD (.value 0)).decimal with
    | none => .raise s
    | some atr =>
        if 0 < atr ∧ tightens s.pos.side (trendStop loc s.pos atr) s.virtualSl then
          .next (s.moveStop (trendStop loc s.pos atr))
        else .next s
  else .next s

/-- The stop at which five dollars are lost. -/
def cappedStop (pos : ShadowRecord) : ℚ :=
  match pos.side with
  | .LONG => pos.entryPrice - 5 / pos.amount
  | .SHORT => pos.entryPrice + 5 / pos.amount

/-- Would the stop lose more than that? -/
def capDue (pos : ShadowRecord) (virtualSl : ℚ) : Bool :=
  decide (0 < pos.amount) && decide (0 < virtualSl) && decide ((match pos.side with
    | .LONG => (virtualSl - pos.entryPrice) * pos.amount
    | .SHORT => (pos.entryPrice - virtualSl) * pos.amount) < -5)

/-- Loss cap: the dictionary gets the capped stop, the local copy does not. -/
def lossCap (s : MonitorState) : MonitorState :=
  if capDue s.pos s.virtualSl then
    (s.edit ({ · with virtualSl := some (cappedStop s.pos) })).persist
  else s

/-! ## Funding -/

/-- `_apply_funding_if_due`; with a non-positive rate only the memory notes the time. -/
def applyFundingIfDue (a : CheckAnswers) (s : MonitorState) : MonitorState :=
  match s.pos.lastFundingTs with
  | none => s
  | some last =>
      if a.fundingClock - last < 8 * 3600 then s
      else if a.fundingRate ≤ 0 then
        s.edit ({ · with lastFundingTs := some a.fundingClock })
      else
        let notional := s.pos.entryPrice * s.pos.amount
        let fee := match s.pos.side with
          | .LONG => notional * a.fundingRate
          | .SHORT => notional * a.fundingRate * -1
        (s.edit fun pos =>
          { pos with
            totalFundingFees := pos.totalFundingFees + fee
            lastFundingTs := some a.fundingClock }).persist

/-! ## One check -/

/-- The rules of one check of an open position. -/
inductive CheckRule where
  | regimeKillSwitch
  | timeExit
  | wickGuard
  | breakevenLock
  | stepTrailing
  | trendTrailing
  | persist
  | lossCap
  | staleCleanup
  | funding
  | slHit
  | tpHit
deriving Repr, DecidableEq

/-- What a rule does. -/
def CheckRule.block (settings : ShadowSettings) (a : CheckAnswers) (loc : CheckLocals) :
    CheckRule → MonitorState → Flow MonitorState
  | regimeKillSwitch, s => Shadow.regimeKillSwitch settings a loc s
  | timeExit, s => manageTimeExit settings a.exitClock loc s
  | wickGuard, s => Shadow.wickGuard settings loc s
  | breakevenLock, s => .next (Shadow.breakevenLock loc s)
  | stepTrailing, s => .next (Shadow.stepTrailing loc s)
  | trendTrailing, s => Shadow.trendTrailing loc s
  | persist, s => .next s.persist
  | lossCap, s => .next (Shadow.lossCap s)
  | staleCleanup, s => Shadow.staleCleanup settings a.staleClock loc s
  | funding, s => .next (applyFundingIfDue a s)
  | slHit, s => Shadow.slHit settings loc s
  | tpHit, s => Shadow.tpHit settings loc s

/-- The order in which the rules run. -/
def checkOrder : List CheckRule :=
  [.regimeKillSwitch, .timeExit, .wickGuard, .breakevenLock, .stepTrailing, .trendTrailing,
    .persist, .lossCap, .staleCleanup, .funding, .slHit, .tpHit]

/-- The rules of a check at a mid price, one after the other. -/
def runChecks (settings : ShadowSettings) (a : CheckAnswers) (mid : ℚ) (s : MonitorState) :
    MonitorState :=
  (Flow.blocks (checkOrder.map (CheckRule.block settings a (locals s.pos mid)))
    (observe mid s)).state

/-- `_manage_open_position`; without a price nothing is checked. -/
def manageOpenPosition (settings : ShadowSettings) (a : CheckAnswers) (s : MonitorState) :
    MonitorState :=
  if s.pos.symbol = [] ∨ s.pos.entryPrice ≤ 0 then s
  else match a.mid with
    | none => s
    | some mid => runChecks settings a mid s

/-- Has a pending order waited longer than `SHADOW_PENDING_TTL_SECS`? -/
def pendingExpired (clock : ℚ) (pos : ShadowRecord) : Bool :=
  match pos.pendingSince with
  | none => false
  | some since => decide (600 < clock - since)

/-- `_check_pending_fill`. -/
def checkPendingFill (a : CheckAnswers) (s : MonitorState) : MonitorState :=
  if s.pos.symbol = [] ∨ s.pos.entryPrice ≤ 0 then s
  else if pendingExpired a.pendingClock s.pos then { s with stored := none }
  else match a.mid with
    | none => s
    | some mid =>
        if crossed s.pos.side mid s.pos.entryPrice then
          (s.edit fun pos =>
            { pos with
              status := some "OPEN".toList
              worstPriceSeen := some pos.entryPrice
              lastFundingTs := some a.fillClock }).persist
        else s

/-- `_manage_shadow_position`. -/
def manageShadowPosition (settings : ShadowSettings) (a : CheckAnswers) (s : MonitorState) :
    MonitorState :=
  let status := s.pos.status.getD "OPEN".toList
  if status = "PENDING_VIRTUAL_FILL".toList then checkPendingFill a s
  else if status = "OPEN".toList then manageOpenPosition settings a s
  else s

/-- State in which a check of the stored record starts. -/
def startCheck (record : ShadowRecord) (s : MonitorState) : MonitorState :=
  { s with pos := record, virtualSl := record.virtualSl.getD 0, closed := none }

/-- One pass of the monitoring loop over the key. -/
def check (settings : ShadowSettings) (s : MonitorState) (a : CheckAnswers) : MonitorState :=
  match s.stored with
  | none => { s with closed := none }
  | some record => manageShadowPosition settings a (startCheck record s)

/-- State of the monitor for a record just saved. -/
def MonitorState.ofRecord (record : ShadowRecord) : MonitorState where
  pos := record
  stored := some record
  virtualSl := record.virtualSl.getD 0
  shiftCount := 0
  closed := none

/-! ## What a rule does -/

/-- The stop a rule moves the position to when it is due. -/
def proposedStop (loc : CheckLocals) : CheckRule → MonitorState → Option ℚ
  | .breakevenLock, s => if breakevenDue loc s.pos then some (breakevenStop s.pos) else none
  | .stepTrailing, s =>
      if stepDue loc s.pos && tightens s.pos.side (stepStop loc s.pos) s.virtualSl then
        some (stepStop loc s.pos)
      else none
  | .trendTrailing, s =>
      if trendDue loc s.pos then
        (s.pos.atr.getD (.value 0)).decimal.bind fun atr =>
          if 0 < atr ∧ tightens s.pos.side (trendStop loc s.pos atr) s.virtualSl then
            some (trendStop loc s.pos atr)
          else none
      else none
  | .lossCap, s => if capDue s.pos s.virtualSl then some (cappedStop s.pos) else none
  | _, _ => none

/-- The fields no check of an open position changes; the others are blanked. -/
def ShadowRecord.entryPart (record : ShadowRecord) : ShadowRecord :=
  { record with
    peakPrice := none
    movedToBreakeven := false
    virtualSl := none
    worstPriceSeen := none
    lastTickPrice := none
    lastFundingTs := none
    totalFundingFees := 0 }

/-- Book-keeping: entry, worst price, stops, key and close stay as they are. -/
structure Bookkept (s s' : MonitorState) : Prop where
  entry : s'.pos.entryPart = s.pos.entryPart
  worst : s'.pos.worstPriceSeen = s.pos.worstPriceSeen
  stop : s'.pos.virtualSl = s.pos.virtualSl
  localStop : s'.virtualSl = s.virtualSl
  stored : s'.stored = s.stored
  closed : s'.closed = s.closed

/-- Nothing is changed. -/
theorem Bookkept.refl (s : MonitorState) : Bookkept s s :=
  ⟨rfl, rfl, rfl, rfl, rfl, rfl⟩

/-- What a rule leaves: some book-keeping, written back or not; a stop moved to the one
proposed, in both copies or in the dictionary only; or a close, a stop hit being the only one
at the stop. -/
inductive RuleEffect (settings : ShadowSettings) (loc : CheckLocals) (r : CheckRule)
    (s : MonitorState) : MonitorState → Prop where
  | kept {s' : MonitorState} (hbook : Bookkept s s') : RuleEffect settings loc r s s'
  | written {s' : MonitorState} (hbook : Bookkept s s') : RuleEffect settings loc r s s'.persist
  | moved {stop : ℚ} {s' : MonitorState} (hstop : proposedStop loc r s = some stop)
      (hbook : Bookkept (s.moveStop stop) s') : RuleEffect settings loc r s s'
  | capped {stop : ℚ} (hstop : proposedStop loc r s = some stop) :
      RuleEffect settings loc r s (s.edit ({ · with virtualSl := some stop })).persist
  | closed {exitPrice : ℚ} {reason : ExitReason} {s' : MonitorState} (hreason : reason ≠ .slHit)
      (hbook : Bookkept (closeShadowPosition settings exitPrice reason s) s') :
      RuleEffect settings loc r s s'
  | hit (hstop : 0 < s.virtualSl) (hcrossed : crossed s.pos.side loc.worst s.virtualSl = true) :
      RuleEffect settings loc r s (closeShadowPosition settings s.virtualSl .slHit s)

/-- A time exit is no stop hit. -/
theorem timeExitReason_ne_slHit {clock : ℚ} {loc : CheckLocals} {pos : ShadowRecord}
    {entryTime maxMinutes : ℚ} {reason : ExitReason}
    (h : timeExitReason clock loc pos entryTime maxMinutes = some reason) : reason ≠ .slHit := by
  rintro rfl
  unfold timeExitReason at h
  dsimp only at h
  split_ifs at h <;> cases h

/-- Every way a rule can leave the state. -/
inductive RuleOutcome (settings : ShadowSettings) (loc : CheckLocals) (s : MonitorState) :
    CheckRule → MonitorState → Prop where
  | same {r : CheckRule} : RuleOutcome settings loc s r s
  | shifted (count : Nat) :
      RuleOutcome settings loc s .regimeKillSwitch { s with shiftCount := count }
  | killed (exitPrice : ℚ) (reason : ExitReason) (hreason : reason ≠ .slHit) :
      RuleOutcome settings loc s .regimeKillSwitch
        { closeShadowPosition settings exitPrice reason s with shiftCount := 0 }
  | closed {r : CheckRule} (exitPrice : ℚ) (reason : ExitReason) (hreason : reason ≠ .slHit) :
      RuleOutcome settings loc s r (closeShadowPosition settings exitPrice reason s)
  | ticked (tick : ℚ) :
      RuleOutcome settings loc s .wickGuard (s.edit ({ · with lastTickPrice := some tick }))
  | locked (stop : ℚ) (hstop : proposedStop loc .breakevenLock s = some stop) :
      RuleOutcome settings loc s .breakevenLock
        ((s.moveStop stop).edit ({ · with movedToBreakeven := true }))
  | trailed {r : CheckRule} (hr : r = .stepTrailing ∨ r = .trendTrailing) (stop : ℚ)
      (hstop : proposedStop loc r s = some stop) : RuleOutcome settings loc s r (s.moveStop stop)
  | persisted : RuleOutcome settings loc s .persist s.persist
  | capped (stop : ℚ) (hstop : proposedStop loc .lossCap s = some stop) :
      RuleOutcome settings loc s .lossCap (s.edit ({ · with virtualSl := some stop })).persist
  | clocked (clock : ℚ) :
      RuleOutcome settings loc s .funding (s.edit ({ · with lastFundingTs := some clock }))
  | charged (clock fees : ℚ) :
      RuleOutcome settings loc s .funding (s.edit fun pos =>
        { pos with totalFundingFees := fees, lastFundingTs := some clock }).persist
  | hit (hstop : 0 < s.virtualSl) (hcrossed : crossed s.pos.side loc.worst s.virtualSl = true) :
      RuleOutcome settings loc s .slHit (closeShadowPosition settings s.virtualSl .slHit s)

/-- Every rule leaves the state in one of these. -/
theorem ruleOutcome (settings : ShadowSettings) (a : CheckAnswers) (loc : CheckLocals)
    (r : CheckRule) (s : MonitorState) :
    RuleOutcome settings loc s r (r.block settings a loc s).state := by
  cases r with
  | regimeKillSwitch =>
      simp only [CheckRule.block, regimeKillSwitch]
      split_ifs
      · exact .killed _ _ (by simp)
      · exact .shifted _
      · exact .shifted 0
  | timeExit =>
      simp only [CheckRule.block, manageTimeExit]
      split
      · split
        · exact .same
        · split
          · exact .same
          · next reason hreason => exact .closed _ _ (timeExitReason_ne_slHit hreason)
      · exact .same
  | wickGuard =>
      simp only [CheckRule.block, wickGuard]
      split_ifs
      · exact .closed _ _ (by simp)
      · exact .ticked _
  | breakevenLock =>
      simp only [CheckRule.block, breakevenLock, Flow.state_next]
      split_ifs with hdue
      · exact .locked _ (if_pos hdue)
      · exact .same
  | stepTrailing =>
      simp only [CheckRule.block, stepTrailing, Flow.state_next]
      split_ifs with hdue
      · exact .trailed (.inl rfl) _ (if_pos hdue)
      · exact .same
  | trendTrailing =>
      simp only [CheckRule.block, trendTrailing]
      split_ifs with hdue
      · cases hatr : (s.pos.atr.getD (.value 0)).decimal with
        | none => exact .same
        | some atr =>
            dsimp only
            split_ifs with htight
            · refine .trailed (.inr rfl) _ ?_
              rw [proposedStop, if_pos hdue, hatr, Option.bind_some, if_pos htight]
            · exact .same
      · exact .same
  | persist => exact .persisted
  | lossCap =>
      simp only [CheckRule.block, lossCap, Flow.state_next]
      split_ifs with hdue
      · exact .capped _ (if_pos hdue)
      · exact .same
  | staleCleanup =>
      simp only [CheckRule.block, staleCleanup]
      split
      · exact .same
      · split_ifs
        · exact .closed _ _ (by simp)
        · exact .same
  | funding =>
      simp only [CheckRule.block, applyFundingIfDue, Flow.state_next]
      split
      · exact .same
      · split_ifs
        · exact .same
        · exact .clocked _
        · exact .charged _ _
  | slHit =>
      simp only [CheckRule.block, slHit]
      split_ifs with hhit
      · exact .hit hhit.1 hhit.2
      · exact .same
  | tpHit =>
      simp only [CheckRule.block, tpHit]
      split_ifs
      · exact .closed _ _ (by simp)
      · exact .same

/-- Every rule does one of these. -/
theorem ruleEffect (settings : ShadowSettings) (a : CheckAnswers) (loc : CheckLocals)
    (r : CheckRule) (s : MonitorState) :
    RuleEffect settings loc r s (r.block settings a loc s).state := by
  have houtcome := ruleOutcome settings a loc r s
  generalize (r.block settings a loc s).state = s' at houtcome ⊢
  cases houtcome with
  | same => exact .kept (.refl s)
  | shifted count => exact .kept ⟨rfl, rfl, rfl, rfl, rfl, rfl⟩
  | killed exitPrice reason hreason => exact .closed hreason ⟨rfl, rfl, rfl, rfl, rfl, rfl⟩
  | closed exitPrice reason hreason => exact .closed hreason (.refl _)
  | ticked tick => exact .kept ⟨rfl, rfl, rfl, rfl, rfl, rfl⟩
  | locked stop hstop => exact .moved hstop ⟨rfl, rfl, rfl, rfl, rfl, rfl⟩
  | trailed hr stop hstop => exact .moved hstop (.refl _)
  | persisted => exact .written (.refl s)
  | capped stop hstop => exact .capped hstop
  | clocked clock => exact .kept ⟨rfl, rfl, rfl, rfl, rfl, rfl⟩
  | charged clock fees =>
      have hbook : Bookkept s (s.edit fun pos =>
          { pos with totalFundingFees := fees, lastFundingTs := some clock }) :=
        ⟨rfl, rfl, rfl, rfl, rfl, rfl⟩
      exact .written hbook
  | hit hstop hcrossed => exact .hit hstop hcrossed

/-! ## When a check runs the rules -/

/-- The price at which a check of the record runs its rules, if it does. -/
def priceAt (a : CheckAnswers) (record : ShadowRecord) : Option ℚ :=
  if record.status.getD "OPEN".toList = "OPEN".toList ∧ record.symbol ≠ [] ∧
      0 < record.entryPrice then a.mid
  else none

theorem mid_of_priceAt {a : CheckAnswers} {record : ShadowRecord} {mid : ℚ}
    (h : priceAt a record = some mid) : a.mid = some mid := by
  unfold priceAt at h
  split_ifs at h
  exact h

section Prices

variable {settings : ShadowSettings} {a : CheckAnswers} {s : MonitorState}
  {record : ShadowRecord}

/-- At a price, a check of an open position runs its rules. -/
theorem check_of_priceAt (hstored : s.stored = some record) {mid : ℚ}
    (hprice : priceAt a record = some mid) :
    check settings s a = runChecks settings a mid (startCheck record s) := by
  unfold priceAt at hprice
  split_ifs at hprice with hcond
  rcases hcond with ⟨hstatus, hsymbol, hentry⟩
  have hpos : (startCheck record s).pos = record := rfl
  have hpending : "OPEN".toList ≠ "PENDING_VIRTUAL_FILL".toList := by decide
  unfold check
  rw [hstored]
  dsimp only
  unfold manageShadowPosition
  rw [hpos, hstatus]
  dsimp only
  rw [if_neg hpending, if_pos rfl, manageOpenPosition, hpos, hprice,
    if_neg (fun h => h.elim hsymbol hentry.not_ge)]

/-- Without one, a check of a position that is not pending reads it and stops. -/
theorem check_of_priceAt_eq_none (hstored : s.stored = some record)
    (hstatus : record.status.getD "OPEN".toList ≠ "PENDING_VIRTUAL_FILL".toList)
    (hprice : priceAt a record = none) : check settings s a = startCheck record s := by
  have hpos : (startCheck record s).pos = record := rfl
  unfold check
  rw [hstored]
  dsimp only
  unfold manageShadowPosition
  rw [hpos]
  dsimp only
  rw [if_neg hstatus]
  by_cases hopen : record.status.getD "OPEN".toList = "OPEN".toList
  · rw [if_pos hopen, manageOpenPosition, hpos]
    by_cases hskip : record.symbol = [] ∨ record.entryPrice ≤ 0
    · rw [if_pos hskip]
    · rw [not_or, not_le] at hskip
      rw [priceAt, if_pos ⟨hopen, hskip⟩] at hprice
      rw [hprice]
      split_ifs <;> rfl
  · rw [if_neg hopen]

/-- Nothing is closed without one. -/
theorem check_closed_of_priceAt_eq_none (hstored : s.stored = some record)
    (hprice : priceAt a record = none) : (check settings s a).closed = none := by
  by_cases hstatus : record.status.getD "OPEN".toList = "PENDING_VIRTUAL_FILL".toList
  · have hpos : (startCheck record s).pos = record := rfl
    unfold check
    rw [hstored]
    dsimp only
    unfold manageShadowPosition
    rw [hpos, hstatus]
    dsimp only
    rw [if_pos rfl]
    unfold checkPendingFill
    cases a.mid <;> dsimp only <;> split_ifs <;> rfl
  · rw [check_of_priceAt_eq_none hstored hstatus hprice]
    rfl

end Prices

/-! ## What the entry wrote -/

/-- The records in memory and under the key have this entry. -/
structure EntryKept (entry : ShadowRecord) (s : MonitorState) : Prop where
  pos : s.pos.entryPart = entry
  stored : ∀ record, s.stored = some record → record.entryPart = entry

namespace EntryKept

variable {entry : ShadowRecord} {s s' : MonitorState}

theorem of_eq (h : EntryKept entry s) (hpos : s'.pos.entryPart = s.pos.entryPart)
    (hstored : s'.stored = s.stored) : EntryKept entry s' where
  pos := hpos.trans h.pos
  stored record hrecord := h.stored record (hstored.symm.trans hrecord)

theorem persist (h : EntryKept entry s) : EntryKept entry s.persist where
  pos := h.pos
  stored record hrecord := by
    obtain rfl := Option.some.inj hrecord
    exact h.pos

theorem closeShadowPosition (h : EntryKept entry s) (settings : ShadowSettings) (exitPrice : ℚ)
    (reason : ExitReason) : EntryKept entry (closeShadowPosition settings exitPrice reason s) where
  pos := h.pos
  stored record hrecord := by cases hrecord

theorem observe (h : EntryKept entry s) (mid : ℚ) : EntryKept entry (observe mid s) where
  pos := h.pos
  stored record hrecord := by
    rcases Option.map_eq_some_iff.mp hrecord with ⟨old, hold, rfl⟩
    have hpeak : (updatePeak mid old).entryPart = old.entryPart := by
      unfold updatePeak
      dsimp only
      split_ifs <;> rfl
    exact hpeak.trans (h.stored old hold)

/-- No rule touches what the entry wrote. -/
theorem rule (h : EntryKept entry s) (settings : ShadowSettings) (a : CheckAnswers)
    (loc : CheckLocals) (r : CheckRule) : EntryKept entry (r.block settings a loc s).state := by
  have heffect := ruleEffect settings a loc r s
  generalize (r.block settings a loc s).state = s' at heffect ⊢
  cases heffect with
  | kept hbook => exact h.of_eq hbook.entry hbook.stored
  | written hbook => exact (h.of_eq hbook.entry hbook.stored).persist
  | moved hstop hbook => exact h.of_eq hbook.entry hbook.stored
  | capped hstop =>
      apply EntryKept.persist
      exact h.of_eq rfl rfl
  | closed hreason hbook =>
      exact (h.closeShadowPosition settings _ _).of_eq hbook.entry hbook.stored
  | hit hstop hcrossed => exact h.closeShadowPosition settings _ _

/-- Nor do the rules of a check together. -/
theorem runChecks (h : EntryKept entry s) (settings : ShadowSettings) (a : CheckAnswers)
    (mid : ℚ) : EntryKept entry (runChecks settings a mid s) := by
  have hspec : Flow.Spec (EntryKept entry)
      (Flow.blocks (checkOrder.map (CheckRule.block settings a (locals s.pos mid))))
      (EntryKept entry) (EntryKept entry) :=
    Flow.Spec.blocks_of_state fun r _ _ hs => hs.rule settings a _ r
  exact (hspec _ (h.observe mid)).state fun _ hs => hs

/-- The record of an open position is not dispatched as a pending order. -/
theorem not_pending (h : EntryKept entry s)
    (hopen : entry.status ≠ some "PENDING_VIRTUAL_FILL".toList) {record : ShadowRecord}
    (hstored : s.stored = some record) :
    record.status.getD "OPEN".toList ≠ "PENDING_VIRTUAL_FILL".toList := by
  have hstatus : record.status ≠ some "PENDING_VIRTUAL_FILL".toList := by
    have hsame : record.entryPart.status = entry.status :=
      congrArg ShadowRecord.status (h.stored record hstored)
    rw [← hsame] at hopen
    exact hopen
  cases hvalue : record.status with
  | none => decide
  | some status =>
      intro hpending
      exact hstatus (by rw [hvalue, ← hpending]; rfl)

/-- A check of an open position does nothing, or runs the rules. -/
theorem check_cases (h : EntryKept entry s)
    (hopen : entry.status ≠ some "PENDING_VIRTUAL_FILL".toList) {record : ShadowRecord}
    (hstored : s.stored = some record) (settings : ShadowSettings) (a : CheckAnswers) :
    check settings s a = startCheck record s ∨
      ∃ mid, a.mid = some mid ∧
        check settings s a = Shadow.runChecks settings a mid (startCheck record s) := by
  cases hprice : priceAt a record with
  | none =>
      have hstatus := h.not_pending hopen hstored
      exact Or.inl (check_of_priceAt_eq_none hstored hstatus hprice)
  | some mid => exact Or.inr ⟨mid, mid_of_priceAt hprice, check_of_priceAt hstored hprice⟩

/-- A whole check of an open position keeps the entry. -/
theorem check (h : EntryKept entry s)
    (hopen : entry.status ≠ some "PENDING_VIRTUAL_FILL".toList) (settings : ShadowSettings)
    (a : CheckAnswers) : EntryKept entry (check settings s a) := by
  cases hstored : s.stored with
  | none =>
      unfold Shadow.check
      rw [hstored]
      exact ⟨h.pos, by rintro record ⟨⟩⟩
  | some record =>
      have hstart : EntryKept entry (startCheck record s) := ⟨h.stored record hstored, h.stored⟩
      rcases h.check_cases hopen hstored settings a with hsame | ⟨mid, -, hrules⟩
      · rw [hsame]
        exact hstart
      · rw [hrules]
        exact hstart.runChecks settings a mid

/-- Nor does any run of checks change the entry. -/
theorem run (h : EntryKept entry s)
    (hopen : entry.status ≠ some "PENDING_VIRTUAL_FILL".toList) (settings : ShadowSettings)
    (checks : List CheckAnswers) : EntryKept entry (run (Shadow.check settings) s checks) := by
  induction checks generalizing s with
  | nil => exact h
  | cons a rest ih => exact ih (h.check hopen settings a)

end EntryKept

/-- A saved record is its own entry. -/
theorem EntryKept.ofRecord (record : ShadowRecord) :
    EntryKept record.entryPart (.ofRecord record) where
  pos := rfl
  stored other hother := by
    obtain rfl := Option.some.inj hother
    rfl

/-! ## Parts of the record that the rules leave alone -/

/-- A rule leaves a part of the record alone. -/
def CheckRule.Spares {α : Type*} (part : ShadowRecord → α) : CheckRule → Prop
  | .wickGuard => ∀ record tick, part { record with lastTickPrice := tick } = part record
  | .breakevenLock => ∀ record stop,
      part { record with virtualSl := stop, movedToBreakeven := true } = part record
  | .stepTrailing | .trendTrailing | .lossCap => ∀ record stop,
      part { record with virtualSl := stop } = part record
  | .funding => ∀ record clock fees,
      part { record with lastFundingTs := clock, totalFundingFees := fees } = part record
  | _ => True

/-- The rules that write the dictionary back. -/
def CheckRule.writers : List CheckRule :=
  [.persist, .lossCap, .funding]

/-- What is known of a part of the dictionary and of the record under the key. -/
structure Viewed {α : Type*} (part : ShadowRecord → α) (P Q : α → Prop) (s : MonitorState) :
    Prop where
  pos : P (part s.pos)
  stored : ∀ record, s.stored = some record → Q (part record)

namespace Viewed

variable {α : Type*} {part : ShadowRecord → α} {P Q : α → Prop} {s : MonitorState}

theorem closeShadowPosition (h : Viewed part P Q s) (settings : ShadowSettings) (exitPrice : ℚ)
    (reason : ExitReason) : Viewed part P Q (closeShadowPosition settings exitPrice reason s) where
  pos := h.pos
  stored record hrecord := by cases hrecord

theorem persist (h : Viewed part P Q s) (himp : ∀ v, P v → Q v) : Viewed part P Q s.persist where
  pos := h.pos
  stored record hrecord := by
    obtain rfl := Option.some.inj hrecord
    exact himp _ h.pos

theorem edit (h : Viewed part P Q s) {f : ShadowRecord → ShadowRecord}
    (hf : part (f s.pos) = part s.pos) : Viewed part P Q (s.edit f) where
  pos := by
    rw [MonitorState.edit, hf]
    exact h.pos
  stored := h.stored

/-- A rule that spares the part leaves it as it is, and may write the record back. -/
theorem rule (h : Viewed part P Q s) (settings : ShadowSettings) (a : CheckAnswers)
    (loc : CheckLocals) {r : CheckRule} (hpart : r.Spares part)
    (himp : r ∈ CheckRule.writers → ∀ v, P v → Q v) :
    Viewed part P Q (r.block settings a loc s).state := by
  have houtcome := ruleOutcome settings a loc r s
  generalize (r.block settings a loc s).state = s' at houtcome ⊢
  cases houtcome with
  | same => exact h
  | shifted count => exact ⟨h.pos, h.stored⟩
  | killed exitPrice reason hreason =>
      have hclosed := h.closeShadowPosition settings exitPrice reason
      exact ⟨hclosed.pos, hclosed.stored⟩
  | closed exitPrice reason hreason => exact h.closeShadowPosition settings exitPrice reason
  | ticked tick => exact h.edit (hpart s.pos (some tick))
  | locked stop hstop => exact ⟨hpart s.pos (some stop) ▸ h.pos, h.stored⟩
  | trailed hr stop hstop =>
      rcases hr with rfl | rfl
      · exact ⟨hpart s.pos (some stop) ▸ h.pos, h.stored⟩
      · exact ⟨hpart s.pos (some stop) ▸ h.pos, h.stored⟩
  | persisted => exact h.persist (himp (by decide))
  | capped stop hstop => exact (h.edit (hpart s.pos (some stop))).persist (himp (by decide))
  | clocked clock => exact h.edit (hpart s.pos (some clock) s.pos.totalFundingFees)
  | charged clock fees => exact (h.edit (hpart s.pos (some clock) fees)).persist (himp (by decide))
  | hit hstop hcrossed => exact h.closeShadowPosition settings _ _

/-- So do several of them in a row. -/
theorem blocks (settings : ShadowSettings) (a : CheckAnswers) (loc : CheckLocals)
    {rules : List CheckRule} (hpart : ∀ r ∈ rules, r.Spares part)
    (himp : ∀ r ∈ rules, r ∈ CheckRule.writers → ∀ v, P v → Q v) :
    Flow.Spec (Viewed part P Q) (Flow.blocks (rules.map (CheckRule.block settings a loc)))
      (Viewed part P Q) (Viewed part P Q) :=
  Flow.Spec.blocks_of_state fun r hr _ hs => hs.rule settings a loc (hpart r hr) (himp r hr)

end Viewed

/-! ## Stages of the rules -/

section Stages

variable {settings : ShadowSettings} {a : CheckAnswers} {s : MonitorState}
  {record : ShadowRecord}

/-- The state in which the rules of a check at a price come to one of them. -/
def comesTo (settings : ShadowSettings) (a : CheckAnswers) (mid : ℚ) (rule : CheckRule)
    (s : MonitorState) : Option MonitorState :=
  (Flow.blocks ((checkOrder.takeWhile (· ≠ rule)).map
    (CheckRule.block settings a (locals s.pos mid))) (observe mid s)).next?

/-- A rule before it is another one. -/
theorem ne_of_before {r rule : CheckRule} (hr : r ∈ checkOrder.takeWhile (· ≠ rule)) :
    r ≠ rule := by
  have hne := List.mem_takeWhile_imp hr
  exact of_decide_eq_true hne

/-- The rules before one of them, and then the others. -/
theorem runChecks_split (rule : CheckRule) (mid : ℚ) :
    runChecks settings a mid s =
      ((Flow.blocks ((checkOrder.takeWhile (· ≠ rule)).map
        (CheckRule.block settings a (locals s.pos mid))) (observe mid s)).andThen
          (Flow.blocks ((checkOrder.dropWhile (· ≠ rule)).map
            (CheckRule.block settings a (locals s.pos mid))))).state := by
  rw [runChecks, ← Flow.blocks_append, ← List.map_append, List.takeWhile_append_dropWhile]

/-- A check that comes to a rule goes on with that rule and the later ones. -/
theorem runChecks_of_comesTo {mid : ℚ} {rule : CheckRule} {s' : MonitorState}
    (h : comesTo settings a mid rule s = some s') :
    runChecks settings a mid s = (Flow.blocks ((checkOrder.dropWhile (· ≠ rule)).map
      (CheckRule.block settings a (locals s.pos mid))) s').state := by
  unfold comesTo at h
  rw [runChecks_split rule]
  generalize Flow.blocks ((checkOrder.takeWhile (· ≠ rule)).map
    (CheckRule.block settings a (locals s.pos mid))) (observe mid s) = flow at h ⊢
  cases flow with
  | next s'' =>
      obtain rfl := Option.some.inj h
      rfl
  | ret s'' => cases h
  | raise s'' => cases h

/-- One that does not ends with the rules before it. -/
theorem runChecks_of_comesTo_eq_none {mid : ℚ} {rule : CheckRule}
    (h : comesTo settings a mid rule s = none) :
    runChecks settings a mid s = (Flow.blocks ((checkOrder.takeWhile (· ≠ rule)).map
      (CheckRule.block settings a (locals s.pos mid))) (observe mid s)).state := by
  unfold comesTo at h
  rw [runChecks_split rule]
  generalize Flow.blocks ((checkOrder.takeWhile (· ≠ rule)).map
    (CheckRule.block settings a (locals s.pos mid))) (observe mid s) = flow at h ⊢
  cases flow with
  | next s'' => cases h
  | ret s'' => rfl
  | raise s'' => rfl

/-- The rules up to then leave what the entry wrote. -/
theorem comesTo_entry {entry : ShadowRecord} (h : EntryKept entry s) {mid : ℚ} {rule : CheckRule}
    {s' : MonitorState} (hcomes : comesTo settings a mid rule s = some s') :
    EntryKept entry s' := by
  have hspec : Flow.Spec (EntryKept entry)
      (Flow.blocks ((checkOrder.takeWhile (· ≠ rule)).map
        (CheckRule.block settings a (locals s.pos mid)))) (EntryKept entry) (EntryKept entry) :=
    Flow.Spec.blocks_of_state fun r _ _ hs => hs.rule settings a _ r
  exact (hspec _ (h.observe mid)).of_next? hcomes

/-- And the parts of the record that they spare. -/
theorem Viewed.comesTo {α : Type*} {part : ShadowRecord → α} {P Q : α → Prop} {mid : ℚ}
    (h : Viewed part P Q (observe mid s)) {rule : CheckRule}
    (hpart : ∀ r ∈ checkOrder.takeWhile (· ≠ rule), r.Spares part)
    (himp : ∀ r ∈ checkOrder.takeWhile (· ≠ rule), r ∈ CheckRule.writers → ∀ v, P v → Q v)
    {s' : MonitorState} (hcomes : Shadow.comesTo settings a mid rule s = some s') :
    Viewed part P Q s' :=
  (Viewed.blocks settings a _ hpart himp _ h).of_next? hcomes

/-- A check that starts from the stored record starts from its entry. -/
theorem startCheck_entry (hstored : s.stored = some record) :
    EntryKept record.entryPart (startCheck record s) := by
  refine ⟨rfl, fun other hother => ?_⟩
  obtain rfl := Option.some.inj (hstored.symm.trans hother)
  rfl

end Stages

/-! ## Quiet checks -/

/-- A check at a price, a minute after the entry. -/
def checkAt (mid : ℚ) : CheckAnswers where
  mid := some mid
  pendingClock := 60
  fillClock := 60
  currentRegime := []
  exitClock := 60
  staleClock := 60
  fundingClock := 60
  fundingRate := 0

end Shadow
end Karsa
