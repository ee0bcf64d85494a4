import Karsa.Execution.Manager.ExitRules
import Karsa.Execution.Manager.Reconcile
import Karsa.Foundations.Runs

/-!
# Active position manager - One management cycle

`_manage_single_position` runs for each record every two seconds: a retry gate,
the reconcile step, two guards, and then a fixed sequence of rules.  Each rule is
a block that may end the cycle; the last block writes the record back.

Main results:

- Theorem `manageSinglePosition_cases`: a cycle is skipped, ends right after the
  reconcile step, or runs the sequence of rules.
-/

namespace Karsa
namespace Manager

open Bybit

/-- Rules that amend the stop with one request. -/
inductive AmendSite where
  | wickGuard
  | moonTrailing
  | halfBreakeven
  | profitProtect
  | trendTrailing
deriving Repr, DecidableEq

/-- Places that lock breakeven. -/
inductive LockSite where
  | scaleOut
  | cvd
  | trendTier
  | trigger
deriving Repr, DecidableEq

/-- Exits that force-close the position. -/
inductive CloseSite where
  | limitTimeout
  | timeExit
  | regimeShift
deriving Repr, DecidableEq

/-- Answers met during one cycle, named by the place that asks for them. -/
structure CycleAnswers where
  retryClock : ℚ
  reconcile : ReconcileAnswers
  wickClock : ℚ
  amend : AmendSite → Bool
  lock : LockSite → BreakevenAnswers
  reduce : ReduceSite → Bool
  takeProfit : Bool
  klines : Option KlineResult
  rsiExtreme : Bool
  cvdSlope : Option ℚ
  moonStop : Bool
  limit : LimitAnswers
  exitClock : ℚ
  currentRegime : Except Text Text
  close : CloseSite → CloseAnswers

/-- Remember the best price so far. -/
def trackPeak (snap : Snapshot) (s : ManagerState) : Flow ManagerState :=
  let peak := s.pos.peakPrice.getD snap.entryPrice
  let better := match snap.side with
    | .LONG => decide (peak < snap.livePrice)
    | .SHORT => decide (snap.livePrice < peak)
  if better then
    .next { s.edit ({ · with peakPrice := some snap.livePrice }) with peakPrice := snap.livePrice }
  else .next { s with peakPrice := peak }

/-- Take-profit price of the RANGE and CHOP regimes. -/
def takeProfitPrice (snap : Snapshot) : ℚ :=
  let mult : ℚ := if Text.contains snap.entryRegime "CHOP".toList then 2 else 3 / 2
  match snap.side with
  | .LONG => snap.entryPrice + snap.initialRisk * mult
  | .SHORT => snap.entryPrice - snap.initialRisk * mult

/-- `_ensure_take_profit`, once per record. -/
def ensureTakeProfit (accepted : Bool) (snap : Snapshot) (s : ManagerState) :
    Flow ManagerState :=
  if !s.pos.tpPlaced ∧
      (snap.entryRegime = "RANGE".toList ∨ snap.entryRegime = "CHOP".toList) then
    let s := s.emit (.takeProfitSent (takeProfitPrice snap) accepted)
    if accepted then .next (s.edit ({ · with tpPlaced := true })) else .next s
  else .next s

/-- The rules of one cycle. -/
inductive CycleRule where
  | wickGuard
  | trackPeak
  | ensureTakeProfit
  | scaleOutAndLock
  | sniperExhaustion
  | cvdOrTrendTiers
  | moonBagExit
  | moonTrailing
  | trailingLimit
  | breakevenTrigger
  | halfBreakeven
  | profitProtect
  | trendTrailing
  | timeExit
  | regimeShift
  | persist
deriving Repr, DecidableEq

/-- What a rule does. -/
def CycleRule.block (a : CycleAnswers) (snap : Snapshot) :
    CycleRule → ManagerState → Flow ManagerState
  | wickGuard, s => Manager.wickGuard snap a.wickClock (a.amend .wickGuard) s
  | trackPeak, s => Manager.trackPeak snap s
  | ensureTakeProfit, s => Manager.ensureTakeProfit a.takeProfit snap s
  | scaleOutAndLock, s =>
      .next (Manager.scaleOutAndLock (a.reduce .scaleOut) (a.lock .scaleOut) snap s)
  | sniperExhaustion, s => Manager.sniperExhaustion a.klines a.rsiExtreme snap s
  | cvdOrTrendTiers, s =>
      .next (Manager.cvdOrTrendTiers a.reduce (a.lock .cvd) (a.lock .trendTier) a.cvdSlope snap s)
  | moonBagExit, s => Manager.moonBagExit a.reduce a.moonStop snap s
  | moonTrailing, s => Manager.moonTrailing snap (a.amend .moonTrailing) s
  | trailingLimit, s => Manager.trailingLimit a.limit (a.close .limitTimeout) snap s
  | breakevenTrigger, s => Manager.breakevenTrigger (a.lock .trigger) snap s
  | halfBreakeven, s => .next (Manager.halfBreakeven snap (a.amend .halfBreakeven) s)
  | profitProtect, s => .next (Manager.profitProtect snap (a.amend .profitProtect) s)
  | trendTrailing, s => manageTrendTrailingStop snap (a.amend .trendTrailing) s
  | timeExit, s => manageTimeExit a.exitClock (a.close .timeExit) snap s
  | regimeShift, s => checkRegimeShift a.currentRegime (a.close .regimeShift) snap s
  | persist, s => .next s.persist

/-- The order in which the rules run. -/
def cycleOrder : List CycleRule :=
  [.wickGuard, .trackPeak, .ensureTakeProfit, .scaleOutAndLock, .sniperExhaustion,
    .cvdOrTrendTiers, .moonBagExit, .moonTrailing, .trailingLimit, .breakevenTrigger,
    .halfBreakeven, .profitProtect, .trendTrailing, .timeExit, .regimeShift, .persist]

/-- The rules of one cycle, one after the other. -/
def runRules (a : CycleAnswers) (snap : Snapshot) (s : ManagerState) : Flow ManagerState :=
  Flow.blocks (cycleOrder.map (CycleRule.block a snap)) s

/-! ## What a rule is about to do -/

/-- Does the rule lock breakeven, or start the moon bag, in this state? -/
def locksBreakeven (a : CycleAnswers) (snap : Snapshot) : CycleRule → ManagerState → Prop
  | .scaleOutAndLock, s =>
      (sniperScaleDue snap || nonTrendScaleDue snap) = true ∧ s.movedToBe = false
  | .cvdOrTrendTiers, s =>
      8 / 10 ≤ snap.rMult ∧ s.movedToBe = false ∧ cvdExhausted snap a.cvdSlope = true
  | .breakevenTrigger, s =>
      s.movedToBe = false ∧ breakevenTriggered snap s.pos = some true
  | .moonBagExit, s => moonBagDue snap s.pos = true ∧ a.reduce .moonBag = true
  | _, _ => False

/-- Does the exchange accept the stop that locks the position under the rule? -/
def lockAccepted (a : CycleAnswers) : CycleRule → Bool
  | .scaleOutAndLock => (a.lock .scaleOut).accepted
  | .cvdOrTrendTiers => (a.lock .cvd).accepted
  | .breakevenTrigger => (a.lock .trigger).accepted
  | .moonBagExit => a.moonStop
  | _ => false

/-- Does the exchange accept the stop of a rule that sends one request? -/
def amendAccepted (a : CycleAnswers) : CycleRule → Bool
  | .wickGuard => a.amend .wickGuard
  | .moonTrailing => a.amend .moonTrailing
  | .halfBreakeven => a.amend .halfBreakeven
  | .profitProtect => a.amend .profitProtect
  | .trendTrailing => a.amend .trendTrailing
  | _ => false

/-- The symbol under which the rule sends a stop. -/
def sendSymbol (snap : Snapshot) : CycleRule → ManagerState → Text
  | .moonBagExit, _ => snap.symbol.without '/'
  | .wickGuard, _ | .moonTrailing, _ | .halfBreakeven, _ | .profitProtect, _ => snap.symbol
  | _, s => s.pos.symbol

/-- The stop that a comparing rule proposes when it is due. -/
def proposedStop (snap : Snapshot) : CycleRule → ManagerState → Option ℚ
  | .moonTrailing, s =>
      if snap.trancheState = .MOON_BAG_ACTIVE then
        (s.pos.strictAtr.filter (0 < ·)).map (moonTrailingStop snap s.pos)
      else none
  | .halfBreakeven, s =>
      if !s.movedToBe && !s.pos.movedToHalfBe && snap.halfBeR ≤ snap.rMult then
        some (halfBreakevenStop snap)
      else none
  | .profitProtect, s =>
      if snap.activationR ≤ peakR snap s then some (profitProtectStop snap s) else none
  | .trendTrailing, s =>
      if snap.isTrend ∧ 3 / 2 ≤ snap.rMult then
        (s.pos.strictAtr.filter (0 < ·)).map (trendStop snap s.pos)
      else none
  | _, _ => none

/-! ## What the stop rules do -/

section StopRuleCases

variable (snap : Snapshot) (accepted : Bool) (s : ManagerState)

/-- The late lock does nothing, or locks and marks the record. -/
theorem breakevenTrigger_cases (a : CycleAnswers) :
    (¬ locksBreakeven a snap .breakevenTrigger s ∧
        (breakevenTrigger (a.lock .trigger) snap s).state = s) ∨
      (locksBreakeven a snap .breakevenTrigger s ∧
        breakevenTrigger (a.lock .trigger) snap s =
          .next ((lockBreakeven (a.lock .trigger) snap s).edit
            ({ · with movedToBreakeven := true }))) := by
  unfold breakevenTrigger locksBreakeven
  cases htriggered : breakevenTriggered snap s.pos with
  | none =>
      refine Or.inl ⟨?_, rfl⟩
      rintro ⟨-, hdue⟩
      rw [htriggered] at hdue
      cases hdue
  | some triggered =>
      dsimp only
      rw [htriggered]
      split_ifs with hlock
      · simp only [Bool.and_eq_true, Bool.not_eq_true'] at hlock
        exact Or.inr ⟨⟨hlock.1, by rw [hlock.2]⟩, rfl⟩
      · refine Or.inl ⟨?_, rfl⟩
        rintro ⟨hopen, hdue⟩
        simp [hopen, Option.some.inj hdue] at hlock

/-- Half-breakeven does nothing, or amends a position that is not locked. -/
theorem halfBreakeven_cases :
    halfBreakeven snap accepted s = s ∨
      ∃ stop moved, proposedStop snap .halfBreakeven s = some stop ∧ s.movedToBe = false ∧
        tighter snap.side stop s.slPrice = true ∧
          halfBreakeven snap accepted s =
            (amendAndTrack snap.symbol accepted stop s).edit
              ({ · with movedToHalfBe := moved }) := by
  unfold halfBreakeven
  dsimp only
  by_cases hdue : (!s.movedToBe && !s.pos.movedToHalfBe && snap.halfBeR ≤ snap.rMult &&
      tighter snap.side (halfBreakevenStop snap) s.slPrice) = true
  · rw [if_pos hdue]
    rw [Bool.and_eq_true] at hdue
    have hproposed : proposedStop snap .halfBreakeven s = some (halfBreakevenStop snap) :=
      if_pos hdue.1
    have hopen : s.movedToBe = false := by
      simp only [Bool.and_eq_true, Bool.not_eq_true'] at hdue
      exact hdue.1.1.1
    cases accepted with
    | true => exact Or.inr ⟨_, _, hproposed, hopen, hdue.2, rfl⟩
    | false =>
        -- a refused amendment leaves the record's own mark
        exact Or.inr ⟨_, s.pos.movedToHalfBe, hproposed, hopen, hdue.2, rfl⟩
  · exact Or.inl (if_neg hdue)

/-- Profit-protect does nothing, or amends with the stop it proposes. -/
theorem profitProtect_cases :
    profitProtect snap accepted s = s ∨
      (0 < snap.initialRisk ∧
        proposedStop snap .profitProtect s = some (profitProtectStop snap s) ∧
          tighter snap.side (profitProtectStop snap s) s.slPrice = true ∧
            profitProtect snap accepted s =
              amendAndTrack snap.symbol accepted (profitProtectStop snap s) s) := by
  unfold profitProtect
  dsimp only
  split_ifs with hdue
  · exact Or.inr ⟨hdue.1, if_pos hdue.2.1, hdue.2.2.1, rfl⟩
  · exact Or.inl rfl

/-- The trend trailing does nothing, or amends with the stop it proposes. -/
theorem manageTrendTrailingStop_cases :
    (manageTrendTrailingStop snap accepted s).state = s ∨
      ∃ stop, proposedStop snap .trendTrailing s = some stop ∧
        tighter snap.side stop s.slPrice = true ∧
          (manageTrendTrailingStop snap accepted s).state =
            s.amendStop s.pos.symbol accepted stop := by
  unfold manageTrendTrailingStop
  split_ifs with hdue
  · cases hatr : s.pos.strictAtr with
    | none => exact Or.inl rfl
    | some atr =>
        dsimp only
        split_ifs with htight
        · have hproposed : proposedStop snap .trendTrailing s =
              some (trendStop snap s.pos atr) := by
            have htrend : snap.isTrend = true ∧ 3 / 2 ≤ snap.rMult := hdue
            simp [proposedStop, htrend, hatr, Option.filter, htight.1]
          exact Or.inr ⟨_, hproposed, htight.2, rfl⟩
        · exact Or.inl rfl
  · exact Or.inl rfl

/-- The moon-bag trailing notes the highest price, and may move the local copy to the
stop it proposes and amend. -/
theorem moonTrailing_cases :
    ∃ highest, (moonTrailing snap accepted s).state =
        s.edit ({ · with highestSincePartial := highest }) ∨
      ∃ stop, snap.trancheState = .MOON_BAG_ACTIVE ∧
        proposedStop snap .moonTrailing s = some stop ∧
          tighter snap.side stop s.slPrice = true ∧
            (moonTrailing snap accepted s).state =
              { s.edit ({ · with highestSincePartial := highest }) with
                slPrice := stop }.amendStop snap.symbol accepted stop := by
  unfold moonTrailing
  by_cases htranche : snap.trancheState = .MOON_BAG_ACTIVE
  · rw [if_pos htranche]
    cases hatr : s.pos.strictAtr with
    | none => exact ⟨s.pos.highestSincePartial, Or.inl rfl⟩
    | some atr =>
        dsimp only
        split_ifs with hpos htight
        · have hproposed : proposedStop snap .moonTrailing s =
              some (moonTrailingStop snap s.pos atr) := by
            simpa [proposedStop, htranche, hatr, Option.filter] using hpos
          exact ⟨_, Or.inr ⟨_, htranche, hproposed, htight, rfl⟩⟩
        · exact ⟨_, Or.inl rfl⟩
        · exact ⟨s.pos.highestSincePartial, Or.inl rfl⟩
  · rw [if_neg htranche]
    exact ⟨s.pos.highestSincePartial, Or.inl rfl⟩

end StopRuleCases

/-! ## The whole cycle -/

/-- Is the record in its cooldown after a failed force close? -/
def inCooldown (a : CycleAnswers) (pos : PositionRecord) : Bool :=
  pos.forceCloseRetryAt ≠ 0 && a.retryClock < pos.forceCloseRetryAt

/-- The local variables, read from the reconciled record. -/
def readLocals (s : ManagerState) : ManagerState :=
  { s with slPrice := s.pos.currentSl, movedToBe := s.pos.movedToBreakeven }

/-- State in which the rules of a cycle start. -/
def rulesStart (a : CycleAnswers) (s : ManagerState) : ManagerState :=
  readLocals (reconcilePosition a.reconcile s)

/-- `_manage_single_position`. -/
def manageSinglePosition (a : CycleAnswers) (s : ManagerState) : ManagerState :=
  if inCooldown a s.pos then s
  else
    let s := rulesStart a s
    if s.pos.entryPrice ≤ 0 then s
    else if s.pos.initialRiskPerUnit ≤ 0 then s
    else (runRules a (snapshot s.pos) s).state

/-- Does the cycle get as far as its rules? -/
def reachesRules (a : CycleAnswers) (s : ManagerState) : Bool :=
  !inCooldown a s.pos && decide (0 < (rulesStart a s).pos.entryPrice) &&
    decide (0 < (rulesStart a s).pos.initialRiskPerUnit)

/-- A cycle is skipped, ends after the reconcile step, or runs its rules. -/
theorem manageSinglePosition_cases (a : CycleAnswers) (s : ManagerState) :
    (inCooldown a s.pos = true ∧ manageSinglePosition a s = s) ∨
    (inCooldown a s.pos = false ∧ reachesRules a s = false ∧
      manageSinglePosition a s = rulesStart a s) ∨
    (reachesRules a s = true ∧ manageSinglePosition a s =
      (runRules a (snapshot (rulesStart a s).pos) (rulesStart a s)).state) := by
  unfold manageSinglePosition reachesRules
  cases hcooldown : inCooldown a s.pos with
  | true => simp
  | false =>
      by_cases hentry : (rulesStart a s).pos.entryPrice ≤ 0
      · simp [hentry, not_lt.mpr hentry]
      · by_cases hrisk : (rulesStart a s).pos.initialRiskPerUnit ≤ 0
        · simp [hentry, hrisk, not_lt.mpr hrisk]
        · simp [hentry, hrisk, not_le.mp hentry, not_le.mp hrisk]

/-! ## Runs of cycles -/

/-- What one cycle meets: the live price, when one was found, and the answers. -/
structure CycleInput where
  live : Option ℚ
  answers : CycleAnswers

/-- State in which the monitoring loop starts a cycle for the stored record. -/
def startCycle (live : Option ℚ) (record : PositionRecord) (s : ManagerState) : ManagerState :=
  { s with pos := { record with livePrice := live.or record.livePrice } }

/-- One cycle of the monitoring loop: the record is read from the store anew. -/
def manage (s : ManagerState) (input : CycleInput) : ManagerState :=
  match s.stored with
  | none => s
  | some record => manageSinglePosition input.answers (startCycle input.live record s)

/-! ## A cooperative exchange -/

/-- The exchange holds one unit of `BTCUSDT`, entered at 100, with the given stop. -/
def holdingReport (side : ExchangeSide) (stop : ℚ) : ReconcileAnswers where
  positions := some (fetchPositions
    [{ sampleRemaining 1 with side := side, stopLoss := some (.value stop) }])
  purgeClock := 0
  computedAtr := 0
  stop := .ok ()
  stopRetry := .ok ()
  takeProfit := .ok ()

/-- Every request of the cycle is accepted, a minute or less after the entry. -/
def acceptingAnswers (report : ReconcileAnswers) : CycleAnswers where
  retryClock := 60
  reconcile := report
  wickClock := 60
  amend := fun _ => true
  lock := fun _ => ⟨true, true⟩
  reduce := fun _ => true
  takeProfit := true
  klines := none
  rsiExtreme := false
  cvdSlope := none
  moonStop := true
  limit := ⟨60, true, .ok ⟨none, some "limit-1".toList, none, none, none, none, none, none⟩⟩
  exitClock := 60
  currentRegime := .ok "RANGE".toList
  close := fun _ => acceptedClose 0

/-- A client that knows the tick of one instrument. -/
def dogeTables : InstrumentTables :=
  { InstrumentTables.empty with
    priceTicks := fun symbol => if symbol = "DOGE/USDT".toList then some (1 / 100000) else none }

/-- A trend position entered at 0.1234, with its first stop at 0.1214. -/
def dogePosition : PositionRecord :=
  { PositionRecord.opened "DOGE/USDT".toList .LONG (1234 / 10000) 1000 (some (2 / 1000)) none
      (some "TREND_BULL".toList) (2 / 1000) 0 with
    currentSl := 1214 / 10000 }

/-- The exchange's report of it. -/
def dogeReport : ReconcileAnswers :=
  { holdingReport .Buy (1214 / 10000) with
    positions := some (fetchPositions
      [{ sampleRemaining 1000 with
        symbol := "DOGEUSDT".toList
        avgPrice := some (.value (1234 / 10000))
        stopLoss := some (.value (1214 / 10000)) }]) }

end Manager
end Karsa
