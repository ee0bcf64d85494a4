import Karsa.Execution.Manager.Removal

/-!
# Active position manager - Long and short positions as mirror images

A short position on a reflected price path should be managed as the reflection of the long
one: the stops the breakeven, half-breakeven, profit-protect, moon-bag and trend-trailing
rules send are reflected at the entry, and the quantities they close are the same.  The
rules are followed here by themselves, in the order and with the locals of the cycle.

Reflection is the map `x ↦ c - x` on every price those rules read or write, with `c` twice
the entry price.  It commutes with each rule that locks nothing.  The breakeven lock and the
moon-bag exit put the stop above the entry for both sides.

Main results:

- Theorem `stopRules_symmetry`: the rules of one cycle.
- Theorem `manageStops_symmetry`: one cycle of the monitoring loop.
- Theorem `stops_mirrored_iff`: the runs of the two sides are images of each other exactly
  while nothing is locked.
-/

namespace Karsa

/-- The other side. -/
def Side.opposite : Side → Side
  | LONG => SHORT
  | SHORT => LONG

/-- A record of the other side with the prices of the stop rules reflected. -/
def PositionRecord.reflected (c : ℚ) (pos : PositionRecord) : PositionRecord :=
  { pos with
    side := pos.side.opposite
    entryPrice := c - pos.entryPrice
    currentSl := c - pos.currentSl
    livePrice := pos.livePrice.map (c - ·)
    peakPrice := pos.peakPrice.map (c - ·) }

namespace Manager

/-! ## The stop rules by themselves -/

/-- Peak tracking and the rules that send stops or partial closes, in the order of the
cycle, before the record is written back. -/
def stopRules : List CycleRule :=
  [.trackPeak, .scaleOutAndLock, .cvdOrTrendTiers, .moonBagExit, .moonTrailing,
    .breakevenTrigger, .halfBreakeven, .profitProtect, .trendTrailing, .persist]

/-- The stop rules of one cycle, behind its guards. -/
def runStopRules (a : CycleAnswers) (s : ManagerState) : ManagerState :=
  if s.pos.entryPrice ≤ 0 then s
  else if s.pos.initialRiskPerUnit ≤ 0 then s
  else (Flow.blocks (stopRules.map (CycleRule.block a (snapshot s.pos))) s).state

/-- One cycle of the monitoring loop, cut down to the stop rules. -/
def manageStops (s : ManagerState) (input : CycleInput) : ManagerState :=
  match s.stored with
  | none => s
  | some record =>
      runStopRules input.answers (readLocals (startCycle input.live record s))

/-! ## Stops and partial closes -/

/-- A stop sent to the exchange, or a partial close. -/
inductive StopOutput where
  | stop (price : ℚ) (accepted : Bool)
  | close (qty : ℚ) (accepted : Bool)
deriving Repr, DecidableEq

/-- The output an event stands for. -/
def ApmEvent.output? : ApmEvent → Option StopOutput
  | .stopSent change accepted => some (.stop change.new accepted)
  | .reduceSent _ qty accepted => some (.close qty accepted)
  | .stopRead _ | .takeProfitSent _ _ | .limitSent _ _ _ | .cancelSent _ _
  | .marketSent _ _ _ | .written _ | .removed => none

/-- Every stop and partial close so far, in order. -/
def ManagerState.outputs (s : ManagerState) : List StopOutput :=
  s.log.filterMap ApmEvent.output?

/-! ## Reflection -/

section Reflection

variable (c : ℚ)

/-- A stop is reflected, a quantity stays. -/
def StopOutput.reflected : StopOutput → StopOutput
  | .stop price accepted => .stop (c - price) accepted
  | .close qty accepted => .close qty accepted

/-- The reflected event. -/
def ApmEvent.reflected : ApmEvent → ApmEvent
  | .stopSent change accepted =>
      .stopSent ⟨change.symbol, change.side.opposite, c - change.old, c - change.new⟩ accepted
  | .stopRead change =>
      .stopRead ⟨change.symbol, change.side.opposite, c - change.old, c - change.new⟩
  | .takeProfitSent price accepted => .takeProfitSent (c - price) accepted
  | .reduceSent symbol qty accepted => .reduceSent symbol qty accepted
  | .limitSent qty price accepted => .limitSent qty (c - price) accepted
  | .cancelSent orderId accepted => .cancelSent orderId accepted
  | .marketSent side qty accepted => .marketSent side.opposite qty accepted
  | .written record => .written (record.reflected c)
  | .removed => .removed

/-- The manager on the other side of the market. -/
def ManagerState.reflected (s : ManagerState) : ManagerState :=
  { s with
    pos := s.pos.reflected c
    stored := s.stored.map (·.reflected c)
    slPrice := c - s.slPrice
    peakPrice := c - s.peakPrice
    log := s.log.map (·.reflected c) }

/-- The locals of a cycle for the reflected record. -/
def Snapshot.reflected (snap : Snapshot) : Snapshot :=
  { snap with
    side := snap.side.opposite
    entryPrice := c - snap.entryPrice
    livePrice := c - snap.livePrice }

/-- The same answers, with the order flow the other way round. -/
def CycleAnswers.reflected (a : CycleAnswers) : CycleAnswers :=
  { a with cvdSlope := a.cvdSlope.map (-·) }

/-- What the manager of the other side meets. -/
def CycleInput.reflected (input : CycleInput) : CycleInput :=
  ⟨input.live.map (c - ·), input.answers.reflected⟩

end Reflection

section Images

variable (c : ℚ) (s : ManagerState)

/-- The outputs of a reflected state. -/
theorem outputs_reflected :
    (s.reflected c).outputs = s.outputs.map (StopOutput.reflected c) := by
  have hevent : ∀ e : ApmEvent,
      (e.reflected c).output? = e.output?.map (StopOutput.reflected c) := by
    intro e
    cases e <;> rfl
  simp only [ManagerState.outputs, ManagerState.reflected, List.filterMap_map,
    List.map_filterMap]
  congr 1
  funext e
  exact hevent e

/-- Events are reflected one by one. -/
theorem reflected_emit (e : ApmEvent) :
    (s.emit e).reflected c = (s.reflected c).emit (e.reflected c) := by
  simp [ManagerState.emit, ManagerState.reflected]

/-- A change of the record that commutes with the reflection. -/
theorem reflected_edit {f : PositionRecord → PositionRecord}
    (hedit : (f s.pos).reflected c = f (s.pos.reflected c)) :
    (s.edit f).reflected c = (s.reflected c).edit f := by
  simp [ManagerState.edit, ManagerState.reflected, hedit]

theorem reflected_persist : s.persist.reflected c = (s.reflected c).persist := by
  simp [ManagerState.persist, ManagerState.reflected, ApmEvent.reflected]

theorem reflected_sendReduce (symbol : Text) (qty : ℚ) (accepted : Bool) :
    (s.sendReduce symbol qty accepted).reflected c =
      (s.reflected c).sendReduce symbol qty accepted :=
  reflected_emit c s _

/-- An amendment is reflected by the amendment to the reflected stop. -/
theorem reflected_amendStop (symbol : Text) (accepted : Bool) (stop : ℚ) :
    (s.amendStop symbol accepted stop).reflected c =
      (s.reflected c).amendStop symbol accepted (c - stop) := by
  have hsent : (s.sendStop symbol accepted stop).reflected c =
      (s.reflected c).sendStop symbol accepted (c - stop) := reflected_emit c s _
  cases accepted with
  | true =>
      simp only [ManagerState.amendStop, if_true]
      rw [← hsent]
      rfl
  | false => simpa [ManagerState.amendStop] using hsent

theorem reflected_amendAndTrack (symbol : Text) (accepted : Bool) (stop : ℚ) :
    (amendAndTrack symbol accepted stop s).reflected c =
      amendAndTrack symbol accepted (c - stop) (s.reflected c) := by
  have hsent := reflected_amendStop c s symbol accepted stop
  cases accepted with
  | true =>
      simp only [amendAndTrack, if_true]
      rw [← hsent]
      rfl
  | false => simpa [amendAndTrack] using hsent

/-- A partial close closes the same quantity. -/
theorem reflected_scaleOutTo (tier : Nat) (accepted : Bool) (pct : ℚ) :
    (scaleOutTo tier accepted pct s).reflected c =
      scaleOutTo tier accepted pct (s.reflected c) := by
  have hscaled : (scaleOutPosition accepted pct s).reflected c =
      scaleOutPosition accepted pct (s.reflected c) := by
    unfold scaleOutPosition
    dsimp only
    have hqty : closeQty (s.reflected c).pos.amount pct = closeQty s.pos.amount pct := rfl
    rw [hqty]
    split_ifs
    · rfl
    · refine (reflected_edit c _ ?_).trans ?_
      · rfl
      · rw [reflected_sendReduce]
        rfl
    · rw [reflected_sendReduce]
      rfl
  unfold scaleOutTo
  refine (reflected_edit c _ ?_).trans ?_
  · rfl
  · rw [hscaled]

end Images

/-! ## Readings -/

section Readings

variable (c : ℚ) (snap : Snapshot) (s : ManagerState)

/-- The R-multiple of a reflected price. -/
theorem calculateRMultiple_reflected (side : Side) (entryPrice price risk : ℚ) :
    calculateRMultiple side.opposite (c - entryPrice) (c - price) risk =
      calculateRMultiple side entryPrice price risk := by
  cases side <;> simp [calculateRMultiple, Side.opposite]

/-- The locals of a reflected record. -/
theorem snapshot_reflected (pos : PositionRecord) :
    snapshot (pos.reflected c) = (snapshot pos).reflected c := by
  have hlive : (pos.livePrice.map (c - ·)).getD (c - pos.entryPrice) =
      c - pos.livePrice.getD pos.entryPrice := by
    cases pos.livePrice <;> rfl
  simp only [snapshot, Snapshot.reflected, PositionRecord.reflected, hlive,
    calculateRMultiple_reflected]

/-- What is tighter for one side is tighter for the other in reflection. -/
theorem tighter_reflected (side : Side) (new current : ℚ) :
    tighter side.opposite (c - new) (c - current) = tighter side new current := by
  cases side <;> simp [tighter, Side.opposite]

/-- Order flow against one side is order flow against the other the other way round. -/
theorem cvdExhausted_reflected (slope : Option ℚ) :
    cvdExhausted (snap.reflected c) (slope.map (-·)) = cvdExhausted snap slope := by
  cases slope with
  | none => rfl
  | some slope =>
      cases hside : snap.side with
      | LONG =>
          simp only [cvdExhausted, Snapshot.reflected, hside, Side.opposite, Option.map_some]
          exact decide_eq_decide.mpr lt_neg
      | SHORT =>
          simp only [cvdExhausted, Snapshot.reflected, hside, Side.opposite, Option.map_some]
          exact decide_eq_decide.mpr neg_lt_neg_iff

/-- The distance from the entry is the same on both sides. -/
theorem breakevenTriggered_reflected (pos : PositionRecord) :
    breakevenTriggered (snap.reflected c) (pos.reflected c) = breakevenTriggered snap pos := by
  have hmove : |c - snap.livePrice - (c - snap.entryPrice)| =
      |snap.livePrice - snap.entryPrice| := by
    rw [sub_sub_sub_cancel_left, abs_sub_comm]
  unfold breakevenTriggered
  simp only [Snapshot.reflected, hmove]
  rfl

theorem peakR_reflected : peakR (snap.reflected c) (s.reflected c) = peakR snap s :=
  calculateRMultiple_reflected c snap.side snap.entryPrice s.peakPrice snap.initialRisk

theorem halfBreakevenStop_reflected :
    halfBreakevenStop (snap.reflected c) = c - halfBreakevenStop snap := by
  cases hside : snap.side <;>
    simp only [halfBreakevenStop, Snapshot.reflected, hside, Side.opposite] <;> ring

theorem profitProtectStop_reflected :
    profitProtectStop (snap.reflected c) (s.reflected c) = c - profitProtectStop snap s := by
  unfold profitProtectStop
  rw [peakR_reflected]
  cases hside : snap.side <;>
    simp only [Snapshot.reflected, Snapshot.isHyper, hside, Side.opposite] <;> ring

theorem trendStop_reflected (pos : PositionRecord) (atr : ℚ) :
    trendStop (snap.reflected c) (pos.reflected c) atr = c - trendStop snap pos atr := by
  have hpeak : (pos.peakPrice.map (c - ·)).getD (c - snap.livePrice) =
      c - pos.peakPrice.getD snap.livePrice := by
    cases pos.peakPrice <;> rfl
  cases hside : snap.side <;>
    simp only [trendStop, Snapshot.reflected, PositionRecord.reflected, hside, Side.opposite,
      hpeak] <;> ring

end Readings

/-! ## Rules that lock nothing -/

/-- A locked position is not locked again. -/
theorem lockBreakeven_of_locked (b : BreakevenAnswers) (snap : Snapshot) {s : ManagerState}
    (h : s.movedToBe = true) : lockBreakeven b snap s = s :=
  if_pos h

/-- Before the moon bag there is nothing to trail. -/
theorem moonTrailing_before {snap : Snapshot} (accepted : Bool)
    (htranche : snap.trancheState = .INITIAL) (s : ManagerState) :
    moonTrailing snap accepted s = .next s := by
  unfold moonTrailing
  rw [htranche]
  rfl

section Rules

variable (c : ℚ) (snap : Snapshot) (s : ManagerState)

/-- The best price of one side is the worst of the other. -/
theorem trackPeak_reflected :
    trackPeak (snap.reflected c) (s.reflected c) = (trackPeak snap s).map (.reflected c) := by
  have hunfold : ∀ (snap : Snapshot) (s : ManagerState), trackPeak snap s =
      if tighter snap.side snap.livePrice (s.pos.peakPrice.getD snap.entryPrice) then
        .next { s.edit ({ · with peakPrice := some snap.livePrice }) with
          peakPrice := snap.livePrice }
      else .next { s with peakPrice := s.pos.peakPrice.getD snap.entryPrice } := by
    intro snap s
    unfold trackPeak tighter
    cases snap.side <;> rfl
  have hpeak : (s.reflected c).pos.peakPrice.getD (snap.reflected c).entryPrice =
      c - s.pos.peakPrice.getD snap.entryPrice := by
    simp only [ManagerState.reflected, PositionRecord.reflected, Snapshot.reflected]
    cases s.pos.peakPrice <;> rfl
  have hbetter : tighter (snap.reflected c).side (snap.reflected c).livePrice
      (c - s.pos.peakPrice.getD snap.entryPrice) =
        tighter snap.side snap.livePrice (s.pos.peakPrice.getD snap.entryPrice) :=
    tighter_reflected c snap.side _ _
  rw [hunfold, hunfold, hpeak, hbetter]
  split_ifs
  · rfl
  · rfl

/-- A locked position is scaled out without another lock. -/
theorem scaleOutAndLock_reflected (reduced : Bool) (b : BreakevenAnswers)
    (hlocked : (sniperScaleDue snap || nonTrendScaleDue snap) = true → s.movedToBe = true) :
    scaleOutAndLock reduced b (snap.reflected c) (s.reflected c) =
      (scaleOutAndLock reduced b snap s).reflected c := by
  have hdue : (sniperScaleDue (snap.reflected c) || nonTrendScaleDue (snap.reflected c)) =
      (sniperScaleDue snap || nonTrendScaleDue snap) := rfl
  unfold scaleOutAndLock
  rw [hdue]
  split_ifs with h
  · have hscaled := (scaleOutTo_neutral 1 reduced (1 / 2) s).movedToBe.trans (hlocked h)
    have hscaled' := reflected_scaleOutTo c s 1 reduced (1 / 2)
    rw [← hscaled', lockBreakeven_of_locked _ _ hscaled, lockBreakeven_of_locked]
    exact hscaled
  · rfl

/-- Tiers of a position whose order flow locks nothing. -/
theorem cvdOrTrendTiers_reflected (a : CycleAnswers)
    (hopen : ¬ locksBreakeven a snap .cvdOrTrendTiers s) :
    cvdOrTrendTiers a.reduce (a.lock .cvd) (a.lock .trendTier) (a.cvdSlope.map (-·))
        (snap.reflected c) (s.reflected c) =
      (cvdOrTrendTiers a.reduce (a.lock .cvd) (a.lock .trendTier) a.cvdSlope snap s).reflected
        c := by
  have hmult : (snap.reflected c).rMult = snap.rMult := rfl
  have htier : (snap.reflected c).scaleTier = snap.scaleTier := rfl
  have hmoved : (s.reflected c).movedToBe = s.movedToBe := rfl
  unfold cvdOrTrendTiers
  rw [cvdExhausted_reflected, hmult, htier, hmoved]
  split_ifs with hcvd hslope hfirst hsecond
  · exact absurd ⟨hcvd.1, hcvd.2, hslope⟩ hopen
  · rfl
  · -- at 1.5R the lock of the first tier finds breakeven already locked
    have hlocked : s.movedToBe = true := by
      by_contra h
      exact hcvd ⟨by linarith [hfirst.2], by simpa using h⟩
    have hscaled := (scaleOutTo_neutral 1 (a.reduce .trendFirst) (33 / 100) s).movedToBe.trans
      hlocked
    rw [← reflected_scaleOutTo, lockBreakeven_of_locked _ _ hscaled, lockBreakeven_of_locked]
    exact hscaled
  · rw [reflected_scaleOutTo]
  · rfl

/-- A moon-bag exit that is not due, or refused. -/
theorem moonBagExit_reflected (reduce : ReduceSite → Bool) (stopAccepted : Bool)
    (hidle : ¬ (moonBagDue snap s.pos = true ∧ reduce .moonBag = true)) :
    moonBagExit reduce stopAccepted (snap.reflected c) (s.reflected c) =
      (moonBagExit reduce stopAccepted snap s).map (.reflected c) := by
  have hdue : moonBagDue (snap.reflected c) (s.reflected c).pos = moonBagDue snap s.pos := rfl
  unfold moonBagExit
  rw [hdue]
  by_cases h : moonBagDue snap s.pos = true
  · have hrefused : reduce .moonBag = false := by
      by_contra hreduce
      exact hidle ⟨h, by simpa using hreduce⟩
    have hsent := reflected_sendReduce c s (snap.symbol.without '/')
      (closeQty s.pos.amount (8 / 10)) false
    rw [if_pos h, if_pos h]
    dsimp only
    rw [hrefused, if_neg Bool.false_ne_true, if_neg Bool.false_ne_true, Flow.map, hsent]
    rfl
  · rw [if_neg h, if_neg h]
    rfl

/-- A late lock that is not due. -/
theorem breakevenTrigger_reflected (b : BreakevenAnswers)
    (hidle : ¬ (s.movedToBe = false ∧ breakevenTriggered snap s.pos = some true)) :
    breakevenTrigger b (snap.reflected c) (s.reflected c) =
      (breakevenTrigger b snap s).map (.reflected c) := by
  have htriggered : breakevenTriggered (snap.reflected c) (s.reflected c).pos =
      breakevenTriggered snap s.pos := breakevenTriggered_reflected c snap s.pos
  have hmoved : (s.reflected c).movedToBe = s.movedToBe := rfl
  unfold breakevenTrigger
  rw [htriggered, hmoved]
  cases h : breakevenTriggered snap s.pos with
  | none => rfl
  | some triggered =>
      have hquiet : ¬ (!s.movedToBe && triggered) = true := by
        intro hlock
        rw [Bool.and_eq_true, Bool.not_eq_true'] at hlock
        exact hidle ⟨hlock.1, by rw [h, hlock.2]⟩
      dsimp only
      rw [if_neg hquiet, if_neg hquiet]
      rfl

/-- Half-breakeven. -/
theorem halfBreakeven_reflected (accepted : Bool) :
    halfBreakeven (snap.reflected c) accepted (s.reflected c) =
      (halfBreakeven snap accepted s).reflected c := by
  have htight : tighter (snap.reflected c).side (c - halfBreakevenStop snap)
      (s.reflected c).slPrice = tighter snap.side (halfBreakevenStop snap) s.slPrice :=
    tighter_reflected c snap.side _ _
  have hrest : (!(s.reflected c).movedToBe && !(s.reflected c).pos.movedToHalfBe &&
      decide ((snap.reflected c).halfBeR ≤ (snap.reflected c).rMult)) =
        (!s.movedToBe && !s.pos.movedToHalfBe && decide (snap.halfBeR ≤ snap.rMult)) := rfl
  unfold halfBreakeven
  rw [halfBreakevenStop_reflected, htight, hrest, ← reflected_amendAndTrack]
  split_ifs
  · rfl
  · rfl
  · rfl

/-- Profit-protect. -/
theorem profitProtect_reflected (accepted : Bool) :
    profitProtect (snap.reflected c) accepted (s.reflected c) =
      (profitProtect snap accepted s).reflected c := by
  have htight : tighter (snap.reflected c).side (c - profitProtectStop snap s)
      (s.reflected c).slPrice = tighter snap.side (profitProtectStop snap s) s.slPrice :=
    tighter_reflected c snap.side _ _
  have hcurrent : calculateRMultiple (snap.reflected c).side (snap.reflected c).entryPrice
      (s.reflected c).slPrice (snap.reflected c).initialRisk =
        calculateRMultiple snap.side snap.entryPrice s.slPrice snap.initialRisk :=
    calculateRMultiple_reflected c snap.side _ _ _
  have hrisk : (snap.reflected c).initialRisk = snap.initialRisk := rfl
  have hactivation : (snap.reflected c).activationR = snap.activationR := rfl
  have hhyper : (snap.reflected c).isHyper = snap.isHyper := rfl
  unfold profitProtect
  dsimp only
  rw [profitProtectStop_reflected, htight, hcurrent, hrisk, hactivation, hhyper,
    peakR_reflected, ← reflected_amendAndTrack]
  split_ifs
  · rfl
  · rfl

/-- The trend trailing. -/
theorem manageTrendTrailingStop_reflected (accepted : Bool) :
    manageTrendTrailingStop (snap.reflected c) accepted (s.reflected c) =
      (manageTrendTrailingStop snap accepted s).map (.reflected c) := by
  have hatr : (s.reflected c).pos.strictAtr = s.pos.strictAtr := rfl
  have hactive : (Text.contains (snap.reflected c).entryRegime "TREND".toList ∧
      3 / 2 ≤ (snap.reflected c).rMult) =
        (Text.contains snap.entryRegime "TREND".toList ∧ 3 / 2 ≤ snap.rMult) := rfl
  unfold manageTrendTrailingStop
  rw [hatr]
  simp only [hactive]
  split_ifs with htrend
  · cases s.pos.strictAtr with
    | none => rfl
    | some atr =>
        have hstop : trendStop (snap.reflected c) (s.reflected c).pos atr =
            c - trendStop snap s.pos atr := trendStop_reflected c snap s.pos atr
        have htight : tighter (snap.reflected c).side (c - trendStop snap s.pos atr)
            (s.reflected c).slPrice = tighter snap.side (trendStop snap s.pos atr) s.slPrice :=
          tighter_reflected c snap.side _ _
        dsimp only
        rw [hstop, htight, ← reflected_amendStop]
        split_ifs
        · rfl
        · rfl
  · rfl

end Rules

/-! ## Rules that lock -/

/-- An event adds its output, if it stands for one. -/
theorem outputs_emit (s : ManagerState) (e : ApmEvent) :
    (s.emit e).outputs = s.outputs ++ e.output?.toList := by
  rw [ManagerState.outputs, ManagerState.emit, List.filterMap_append]
  cases h : e.output? <;> simp [ManagerState.outputs, h]

theorem outputs_persist (s : ManagerState) : s.persist.outputs = s.outputs := by
  simp [ManagerState.outputs, ManagerState.persist, ApmEvent.output?]

theorem outputs_updateSl (s : ManagerState) (stop : ℚ) :
    (s.updateSl stop).outputs = s.outputs := by
  unfold ManagerState.updateSl
  cases s.stored <;> simp [ManagerState.outputs, ApmEvent.output?]

/-- A lock of an open position sends the breakeven stop next. -/
theorem lockBreakeven_outputs (b : BreakevenAnswers) (snap : Snapshot) {s : ManagerState}
    (hopen : s.movedToBe = false) :
    ∃ rest, (lockBreakeven b snap s).outputs =
      s.outputs ++ .stop (breakevenStop snap.entryPrice) b.first :: rest := by
  have hsent : ∀ (symbol : Text) (accepted : Bool) (stop : ℚ) (s : ManagerState),
      (s.sendStop symbol accepted stop).outputs = s.outputs ++ [.stop stop accepted] :=
    fun symbol accepted stop s => outputs_emit s _
  have hretry : ∀ stop, ∃ rest, (sendWithRetry b stop s).outputs =
      s.outputs ++ .stop stop b.first :: rest := by
    intro stop
    unfold sendWithRetry
    dsimp only
    split_ifs with hfirst
    · exact ⟨[], hsent _ _ _ _⟩
    · exact ⟨[.stop stop b.retry], by rw [hsent, hsent, List.append_assoc]; rfl⟩
  have hmoved : (moveStopToBreakeven b snap.entryPrice s).outputs =
      (sendWithRetry b (breakevenStop snap.entryPrice) s).outputs := by
    unfold moveStopToBreakeven
    dsimp only
    split_ifs
    · rw [outputs_updateSl, outputs_persist]
      rfl
    · rfl
  rcases hretry (breakevenStop snap.entryPrice) with ⟨rest, hrest⟩
  refine ⟨rest, ?_⟩
  rw [← hrest, ← hmoved, lockBreakeven, if_neg (by rw [hopen]; exact Bool.false_ne_true)]
  rfl

/-- An exit that is due and taken sends the breakeven stop behind its partial close. -/
theorem moonBagExit_outputs {reduce : ReduceSite → Bool} (stopAccepted : Bool)
    {snap : Snapshot} {s : ManagerState} (hdue : moonBagDue snap s.pos = true)
    (hreduce : reduce .moonBag = true) :
    ∃ rest, (moonBagExit reduce stopAccepted snap s).state.outputs =
      (moonBagStarted snap s).outputs ++
        .stop (breakevenStop snap.entryPrice) stopAccepted :: rest := by
  have hamended : ∀ (symbol : Text) (accepted : Bool) (stop : ℚ) (s : ManagerState),
      (amendAndTrack symbol accepted stop s).outputs = s.outputs ++ [.stop stop accepted] := by
    intro symbol accepted stop s
    cases accepted <;> exact outputs_emit s _
  have hreduced : ∀ (symbol : Text) (qty : ℚ) (accepted : Bool) (s : ManagerState),
      (s.sendReduce symbol qty accepted).outputs = s.outputs ++ [.close qty accepted] :=
    fun symbol qty accepted s => outputs_emit s _
  cases moonBagExit_outcome reduce stopAccepted snap s with
  | idle hidle _ => rw [hdue] at hidle; cases hidle
  | refused _ hrefused _ => rw [hreduce] at hrefused; cases hrefused
  | started _ _ hstop hflow =>
      rw [hflow, hstop, Flow.state_next, hamended]
      exact ⟨[], rfl⟩
  | unprotected rest _ _ hstop _ hflow =>
      rw [hflow, hstop, Flow.state_next, hreduced, hamended, List.append_assoc]
      exact ⟨_, rfl⟩
  | closed rest _ _ hstop _ hflow =>
      have hedited : ∀ (f : PositionRecord → PositionRecord) (s : ManagerState),
          (s.edit f).outputs = s.outputs := fun _ _ => rfl
      rw [hflow, hstop, Flow.state_ret, hedited, hreduced, hamended, List.append_assoc]
      exact ⟨_, rfl⟩

section Locks

variable {e : ℚ} {snap : Snapshot} {s : ManagerState}

/-- The breakeven stop lies above a positive entry, so it is not its own reflection. -/
theorem breakevenStop_parts (he : 0 < e) (accepted accepted' : Bool) :
    StopOutput.stop (breakevenStop (2 * e - e)) accepted' ≠
      StopOutput.reflected (2 * e) (.stop (breakevenStop e) accepted) := by
  intro h
  have hprice : breakevenStop (2 * e - e) = 2 * e - breakevenStop e := (StopOutput.stop.inj h).1
  unfold breakevenStop at hprice
  linarith

/-- A lock parts the outputs of the two sides. -/
theorem lockBreakeven_parted (b : BreakevenAnswers) (he : 0 < e) (hentry : snap.entryPrice = e)
    (hopen : s.movedToBe = false) :
    Parted (StopOutput.reflected (2 * e)) (lockBreakeven b snap s).outputs
      (lockBreakeven b (snap.reflected (2 * e)) (s.reflected (2 * e))).outputs := by
  have hopen' : (s.reflected (2 * e)).movedToBe = false := hopen
  rcases lockBreakeven_outputs b snap hopen with ⟨rest, hrest⟩
  rcases lockBreakeven_outputs b (snap.reflected (2 * e)) hopen' with ⟨rest', hrest'⟩
  have hentry' : (snap.reflected (2 * e)).entryPrice = 2 * e - e := by rw [← hentry]; rfl
  rw [hrest, hrest', hentry, hentry', outputs_reflected]
  exact Parted.behind (breakevenStop_parts he _ _) _ _ _

/-- So does a moon-bag exit. -/
theorem moonBagExit_parted {reduce : ReduceSite → Bool} (stopAccepted : Bool) (he : 0 < e)
    (hentry : snap.entryPrice = e) (hdue : moonBagDue snap s.pos = true)
    (hreduce : reduce .moonBag = true) :
    Parted (StopOutput.reflected (2 * e)) (moonBagExit reduce stopAccepted snap s).state.outputs
      (moonBagExit reduce stopAccepted (snap.reflected (2 * e))
        (s.reflected (2 * e))).state.outputs := by
  have hdue' : moonBagDue (snap.reflected (2 * e)) (s.reflected (2 * e)).pos = true := hdue
  have hstarted : moonBagStarted (snap.reflected (2 * e)) (s.reflected (2 * e)) =
      (moonBagStarted snap s).reflected (2 * e) := by
    unfold moonBagStarted
    have hsent := reflected_sendReduce (2 * e) s (snap.symbol.without '/')
      (closeQty s.pos.amount (8 / 10)) true
    refine Eq.symm ((reflected_edit (2 * e) _ ?_).trans ?_)
    · rfl
    · rw [hsent]
      rfl
  rcases moonBagExit_outputs stopAccepted hdue hreduce with ⟨rest, hrest⟩
  rcases moonBagExit_outputs stopAccepted hdue' hreduce with ⟨rest', hrest'⟩
  have hentry' : (snap.reflected (2 * e)).entryPrice = 2 * e - e := by rw [← hentry]; rfl
  rw [hrest, hrest', hentry, hentry', hstarted, outputs_reflected]
  exact Parted.behind (breakevenStop_parts he _ _) _ _ _

end Locks

/-! ## One cycle -/

/-- The positions in memory and in the store were entered at the price, and have no moon
bag yet. -/
structure EnteredAt (e : ℚ) (s : ManagerState) : Prop where
  entryPrice : s.pos.entryPrice = e
  trancheState : s.pos.trancheState = .INITIAL
  stored : ∀ record, s.stored = some record →
    record.entryPrice = e ∧ record.trancheState = .INITIAL

namespace EnteredAt

variable {e : ℚ} {s s' : ManagerState}

theorem of_neutral (h : EnteredAt e s) (hneutral : Neutral s s') : EnteredAt e s' where
  entryPrice := hneutral.entryPrice.trans h.entryPrice
  trancheState := hneutral.trancheState.trans h.trancheState
  stored record hrecord := by
    rcases hneutral.stored record hrecord with hold | hview
    · exact h.stored record hold
    · have hentry := congrArg StopView.entryPrice hview
      have htranche := congrArg StopView.trancheState hview
      exact ⟨hentry.trans h.entryPrice, htranche.trans h.trancheState⟩

/-- Only the stop of the record in memory changes. -/
theorem of_eq (h : EnteredAt e s) (hentry : s'.pos.entryPrice = s.pos.entryPrice)
    (htranche : s'.pos.trancheState = s.pos.trancheState) (hstored : s'.stored = s.stored) :
    EnteredAt e s' where
  entryPrice := hentry.trans h.entryPrice
  trancheState := htranche.trans h.trancheState
  stored record hrecord := h.stored record (hstored.symm.trans hrecord)

theorem amendStop (h : EnteredAt e s) {symbol : Text} (accepted : Bool) (stop : ℚ) :
    EnteredAt e (s.amendStop symbol accepted stop) := by
  cases accepted <;> exact h.of_eq rfl rfl rfl

theorem amendAndTrack (h : EnteredAt e s) {symbol : Text} (accepted : Bool) (stop : ℚ) :
    EnteredAt e (amendAndTrack symbol accepted stop s) := by
  cases accepted <;> exact h.of_eq rfl rfl rfl

/-- The entry is its own reflection. -/
theorem reflected_entryPrice (h : EnteredAt e s) :
    (s.reflected (2 * e)).pos.entryPrice = s.pos.entryPrice := by
  have hself : 2 * e - s.pos.entryPrice = s.pos.entryPrice := by
    rw [h.entryPrice]
    ring
  exact hself

end EnteredAt

section Cycle

variable {e : ℚ} (a : CycleAnswers) (snap : Snapshot)

/-- A rule that locks nothing keeps the entry and the tranche. -/
theorem stopRule_enteredAt {rule : CycleRule} (hrule : rule ∈ stopRules) {s : ManagerState}
    (h : EnteredAt e s) (hopen : ¬ locksBreakeven a snap rule s)
    (htranche : snap.trancheState = .INITIAL) :
    EnteredAt e (rule.block a snap s).state := by
  cases rule with
  | trackPeak => exact h.of_neutral (trackPeak_neutral snap s)
  | scaleOutAndLock =>
      simp only [CycleRule.block, scaleOutAndLock, Flow.state_next]
      split_ifs with hdue
      · have hscaled := scaleOutTo_neutral 1 (a.reduce .scaleOut) (1 / 2) s
        have hlocked : s.movedToBe = true := by
          by_contra hmoved
          exact hopen ⟨hdue, by simpa using hmoved⟩
        rw [lockBreakeven_of_locked _ _ (hscaled.movedToBe.trans hlocked)]
        exact h.of_neutral hscaled
      · exact h
  | cvdOrTrendTiers =>
      simp only [CycleRule.block, Flow.state_next]
      rcases cvdOrTrendTiers_cases a snap s with ⟨hlocks, -⟩ | ⟨-, hsame | ⟨tier, site, hscaled⟩⟩
      · exact absurd hlocks hopen
      · rw [hsame]
        exact h
      · rw [hscaled]
        exact h.of_neutral (scaleOutTo_neutral _ _ _ s)
  | moonBagExit =>
      simp only [CycleRule.block]
      cases moonBagExit_outcome a.reduce a.moonStop snap s with
      | idle _ hflow => rw [hflow]; exact h
      | refused _ _ hflow => rw [hflow]; exact h.of_eq rfl rfl rfl
      | started hdue hreduce _ _ => exact absurd ⟨hdue, hreduce⟩ hopen
      | unprotected _ hdue hreduce _ _ _ => exact absurd ⟨hdue, hreduce⟩ hopen
      | closed _ hdue hreduce _ _ _ => exact absurd ⟨hdue, hreduce⟩ hopen
  | moonTrailing =>
      simp only [CycleRule.block, moonTrailing_before _ htranche]
      exact h
  | breakevenTrigger =>
      simp only [CycleRule.block]
      rcases breakevenTrigger_cases snap s a with ⟨-, hsame⟩ | ⟨hlocks, -⟩
      · rw [hsame]
        exact h
      · exact absurd hlocks hopen
  | halfBreakeven =>
      simp only [CycleRule.block, Flow.state_next]
      rcases halfBreakeven_cases snap (a.amend .halfBreakeven) s with
        hsame | ⟨stop, moved, -, -, -, hamended⟩
      · rw [hsame]
        exact h
      · rw [hamended]
        exact (h.amendAndTrack _ stop).of_eq rfl rfl rfl
  | profitProtect =>
      simp only [CycleRule.block, Flow.state_next]
      rcases profitProtect_cases snap (a.amend .profitProtect) s with hsame | ⟨-, -, -, hamended⟩
      · rw [hsame]
        exact h
      · rw [hamended]
        exact h.amendAndTrack _ _
  | trendTrailing =>
      simp only [CycleRule.block]
      rcases manageTrendTrailingStop_cases snap (a.amend .trendTrailing) s with
        hsame | ⟨stop, -, -, hamended⟩
      · rw [hsame]
        exact h
      · rw [hamended]
        exact h.amendStop _ stop
  | persist => exact h.of_neutral (Neutral.persist s)
  | _ => exact absurd hrule (by decide)

/-- A rule that locks nothing commutes with the reflection. -/
theorem stopRule_reflected (c : ℚ) {rule : CycleRule} (hrule : rule ∈ stopRules)
    (s : ManagerState) (hopen : ¬ locksBreakeven a snap rule s)
    (htranche : snap.trancheState = .INITIAL) :
    rule.block a.reflected (snap.reflected c) (s.reflected c) =
      (rule.block a snap s).map (.reflected c) := by
  cases rule with
  | trackPeak => exact trackPeak_reflected c snap s
  | scaleOutAndLock =>
      refine congrArg Flow.next (scaleOutAndLock_reflected c snap s _ _ ?_)
      intro hdue
      by_contra hmoved
      exact hopen ⟨hdue, by simpa using hmoved⟩
  | cvdOrTrendTiers => exact congrArg Flow.next (cvdOrTrendTiers_reflected c snap s a hopen)
  | moonBagExit => exact moonBagExit_reflected c snap s a.reduce a.moonStop hopen
  | moonTrailing =>
      have htranche' : (snap.reflected c).trancheState = .INITIAL := htranche
      simp only [CycleRule.block, moonTrailing_before _ htranche, moonTrailing_before _ htranche']
      rfl
  | breakevenTrigger => exact breakevenTrigger_reflected c snap s _ hopen
  | halfBreakeven => exact congrArg Flow.next (halfBreakeven_reflected c snap s _)
  | profitProtect => exact congrArg Flow.next (profitProtect_reflected c snap s _)
  | trendTrailing => exact manageTrendTrailingStop_reflected c snap s _
  | persist => exact congrArg Flow.next (reflected_persist c s).symm
  | _ => exact absurd hrule (by decide)

/-- A rule that locks parts the outputs. -/
theorem stopRule_parted (he : 0 < e) (hentry : snap.entryPrice = e) {rule : CycleRule}
    (s : ManagerState) (hlocks : locksBreakeven a snap rule s) :
    Parted (StopOutput.reflected (2 * e)) (rule.block a snap s).state.outputs
      (rule.block a.reflected (snap.reflected (2 * e)) (s.reflected (2 * e))).state.outputs := by
  cases rule with
  | scaleOutAndLock =>
      have hdue : (sniperScaleDue (snap.reflected (2 * e)) ||
          nonTrendScaleDue (snap.reflected (2 * e))) = true := hlocks.1
      simp only [CycleRule.block, scaleOutAndLock, Flow.state_next, if_pos hlocks.1, if_pos hdue]
      rw [← reflected_scaleOutTo]
      have hscaled := scaleOutTo_neutral 1 (a.reduce .scaleOut) (1 / 2) s
      exact lockBreakeven_parted _ he hentry (hscaled.movedToBe.trans hlocks.2)
  | cvdOrTrendTiers =>
      have hlocks' : locksBreakeven a.reflected (snap.reflected (2 * e)) .cvdOrTrendTiers
          (s.reflected (2 * e)) :=
        ⟨hlocks.1, hlocks.2.1, (cvdExhausted_reflected _ _ _).trans hlocks.2.2⟩
      simp only [CycleRule.block, Flow.state_next]
      rcases cvdOrTrendTiers_cases a snap s with ⟨-, hlock⟩ | ⟨hopen, -⟩
      · rcases cvdOrTrendTiers_cases a.reflected (snap.reflected (2 * e)) (s.reflected (2 * e))
          with ⟨-, hlock'⟩ | ⟨hopen', -⟩
        · rw [hlock, hlock']
          exact lockBreakeven_parted _ he hentry hlocks.2.1
        · exact absurd hlocks' hopen'
      · exact absurd hlocks hopen
  | moonBagExit => exact moonBagExit_parted a.moonStop he hentry hlocks.1 hlocks.2
  | breakevenTrigger =>
      have hlocks' : locksBreakeven a.reflected (snap.reflected (2 * e)) .breakevenTrigger
          (s.reflected (2 * e)) :=
        ⟨hlocks.1, (breakevenTriggered_reflected _ _ _).trans hlocks.2⟩
      simp only [CycleRule.block]
      rcases breakevenTrigger_cases snap s a with ⟨hopen, -⟩ | ⟨-, hlock⟩
      · exact absurd hlocks hopen
      · rcases breakevenTrigger_cases (snap.reflected (2 * e)) (s.reflected (2 * e)) a.reflected
          with ⟨hopen', -⟩ | ⟨-, hlock'⟩
        · exact absurd hlocks' hopen'
        · have hlock'' : breakevenTrigger (a.reflected.lock .trigger) (snap.reflected (2 * e))
              (s.reflected (2 * e)) = _ := hlock'
          rw [hlock, hlock'']
          exact lockBreakeven_parted _ he hentry hlocks.1
  | _ => exact hlocks.elim

/-- The stop rules of the two sides. -/
theorem stopRules_symmetry (he : 0 < e) (hentry : snap.entryPrice = e)
    (htranche : snap.trancheState = .INITIAL) :
    BlockSymmetry (ManagerState.reflected (2 * e)) (StopOutput.reflected (2 * e))
      ManagerState.outputs (EnteredAt e) (CycleRule.block a snap)
      (CycleRule.block a.reflected (snap.reflected (2 * e)))
      (fun rule s => ¬ locksBreakeven a snap rule s) stopRules := by
  have hgrows : ∀ (a : CycleAnswers) (snap : Snapshot), ∀ rule ∈ stopRules,
      ∀ s : ManagerState, s.outputs <+: (CycleRule.block a snap rule s).state.outputs :=
    fun a snap rule _ s => (rule.log_grows a snap s).filterMap _
  refine ⟨?_, ?_, ?_, hgrows a snap, hgrows _ _⟩
  · intro rule hrule s h hopen
    exact stopRule_reflected a snap (2 * e) hrule s hopen htranche
  · intro rule hrule s h hopen
    exact stopRule_enteredAt a snap hrule h hopen htranche
  · intro rule hrule s h hlocks
    rw [not_not] at hlocks
    exact stopRule_parted a snap he hentry s hlocks

end Cycle

/-! ## Runs -/

/-- The stored position was entered at the price, and has no moon bag yet. -/
def StoredAt (e : ℚ) (s : ManagerState) : Prop :=
  ∀ record, s.stored = some record → record.entryPrice = e ∧ record.trancheState = .INITIAL

/-- No rule that the cycle reaches locks breakeven or closes for a moon bag. -/
def LocksNothing (s : ManagerState) (input : CycleInput) : Prop :=
  ∀ record, s.stored = some record →
    let start := readLocals (startCycle input.live record s)
    0 < start.pos.entryPrice → 0 < start.pos.initialRiskPerUnit →
      Flow.Met (CycleRule.block input.answers (snapshot start.pos))
        (fun rule s => ¬ locksBreakeven input.answers (snapshot start.pos) rule s) stopRules start

section Runs

variable {e : ℚ}

/-- A cycle starts from the reflected record and price. -/
theorem reflected_start (c : ℚ) (live : Option ℚ) (record : PositionRecord) (s : ManagerState) :
    readLocals (startCycle (live.map (c - ·)) (record.reflected c) (s.reflected c)) =
      (readLocals (startCycle live record s)).reflected c := by
  have hlive : (live.map (c - ·)).or (record.livePrice.map (c - ·)) =
      (live.or record.livePrice).map (c - ·) := by
    cases live <;> rfl
  simp only [readLocals, startCycle, ManagerState.reflected, PositionRecord.reflected, hlive]

/-- The state a cycle starts from. -/
theorem StoredAt.start {s : ManagerState} (h : StoredAt e s) {record : PositionRecord}
    (hrecord : s.stored = some record) (live : Option ℚ) :
    EnteredAt e (readLocals (startCycle live record s)) where
  entryPrice := (h record hrecord).1
  trancheState := (h record hrecord).2
  stored := h

/-- A cycle of the stop rules only adds to the outputs. -/
theorem manageStops_outputs (s : ManagerState) (input : CycleInput) :
    s.outputs <+: (manageStops s input).outputs := by
  unfold manageStops
  cases hstored : s.stored with
  | none => exact List.prefix_refl _
  | some record =>
      dsimp only
      unfold runStopRules
      split_ifs
      · exact List.prefix_refl _
      · exact List.prefix_refl _
      · have hgrows : ∀ rule ∈ stopRules, ∀ s' : ManagerState, s'.outputs <+:
            (CycleRule.block input.answers (snapshot (readLocals
              (startCycle input.live record s)).pos) rule s').state.outputs :=
          fun rule _ s' => (rule.log_grows _ _ s').filterMap _
        exact Flow.trace_blocks hgrows (readLocals (startCycle input.live record s))

/-- The guarded rules on the two sides, where nothing is locked. -/
theorem runStopRules_image (a : CycleAnswers) {s : ManagerState} (h : EnteredAt e s)
    (hmet : 0 < s.pos.entryPrice → 0 < s.pos.initialRiskPerUnit →
      Flow.Met (CycleRule.block a (snapshot s.pos))
        (fun rule s' => ¬ locksBreakeven a (snapshot s.pos) rule s') stopRules s) :
    runStopRules a.reflected (s.reflected (2 * e)) = (runStopRules a s).reflected (2 * e) ∧
      StoredAt e (runStopRules a s) := by
  have hrisk : (s.reflected (2 * e)).pos.initialRiskPerUnit = s.pos.initialRiskPerUnit := rfl
  unfold runStopRules
  rw [h.reflected_entryPrice, hrisk]
  split_ifs with hno hnorisk
  · exact ⟨rfl, h.stored⟩
  · exact ⟨rfl, h.stored⟩
  · have hpos : 0 < e := h.entryPrice ▸ not_le.mp hno
    have hsymmetry := stopRules_symmetry a (snapshot s.pos) hpos h.entryPrice h.trancheState
    have hmet := hmet (not_le.mp hno) (not_le.mp hnorisk)
    have hsnapshot : snapshot (s.reflected (2 * e)).pos = (snapshot s.pos).reflected (2 * e) :=
      snapshot_reflected (2 * e) s.pos
    have himage := hsymmetry.blocks_image h hmet
    refine ⟨?_, ?_⟩
    · rw [hsnapshot, himage, Flow.state_map]
    · exact (hsymmetry.blocks_kept h hmet).stored

/-- Where something is locked, the outputs part. -/
theorem runStopRules_parted (a : CycleAnswers) {s : ManagerState} (h : EnteredAt e s)
    (hpos : 0 < s.pos.entryPrice) (hrisk : 0 < s.pos.initialRiskPerUnit)
    (hmet : ¬ Flow.Met (CycleRule.block a (snapshot s.pos))
      (fun rule s' => ¬ locksBreakeven a (snapshot s.pos) rule s') stopRules s) :
    Parted (StopOutput.reflected (2 * e)) (runStopRules a s).outputs
      (runStopRules a.reflected (s.reflected (2 * e))).outputs := by
  have hrisk' : (s.reflected (2 * e)).pos.initialRiskPerUnit = s.pos.initialRiskPerUnit := rfl
  have hsnapshot : snapshot (s.reflected (2 * e)).pos = (snapshot s.pos).reflected (2 * e) :=
    snapshot_reflected (2 * e) s.pos
  have hsymmetry := stopRules_symmetry a (snapshot s.pos) (h.entryPrice ▸ hpos) h.entryPrice
    h.trancheState
  unfold runStopRules
  rw [h.reflected_entryPrice, hrisk', if_neg (not_le.mpr hpos), if_neg (not_le.mpr hpos),
    if_neg (not_le.mpr hrisk), if_neg (not_le.mpr hrisk), hsnapshot]
  exact hsymmetry.blocks_parted h hmet

/-- One cycle of the monitoring loop on the two sides. -/
theorem manageStops_symmetry (e : ℚ) :
    RunSymmetry (ManagerState.reflected (2 * e)) (CycleInput.reflected (2 * e))
      (StopOutput.reflected (2 * e)) ManagerState.outputs (StoredAt e) manageStops
      LocksNothing := by
  have hstep : ∀ (s : ManagerState) (input : CycleInput) (record : PositionRecord),
      s.stored = some record →
        manageStops s input =
          runStopRules input.answers (readLocals (startCycle input.live record s)) ∧
        manageStops (s.reflected (2 * e)) (input.reflected (2 * e)) =
          runStopRules input.answers.reflected
            ((readLocals (startCycle input.live record s)).reflected (2 * e)) := by
    intro s input record hrecord
    have hrecord' : (s.reflected (2 * e)).stored = some (record.reflected (2 * e)) := by
      simp only [ManagerState.reflected, hrecord, Option.map_some]
    unfold manageStops
    rw [hrecord, hrecord', ← reflected_start]
    exact ⟨rfl, rfl⟩
  refine ⟨?_, ?_, ?_, manageStops_outputs, outputs_reflected (2 * e)⟩
  · intro s input hinv hlocks
    cases hrecord : s.stored with
    | none => simp [manageStops, ManagerState.reflected, hrecord]
    | some record =>
        rw [(hstep s input record hrecord).1, (hstep s input record hrecord).2]
        exact (runStopRules_image _ (hinv.start hrecord _) (hlocks record hrecord)).1
  · intro s input hinv hlocks
    cases hrecord : s.stored with
    | none => simpa [manageStops, hrecord] using hinv
    | some record =>
        rw [(hstep s input record hrecord).1]
        exact (runStopRules_image _ (hinv.start hrecord _) (hlocks record hrecord)).2
  · intro s input hinv hlocks
    simp only [LocksNothing, not_forall] at hlocks
    rcases hlocks with ⟨record, hrecord, hpos, hrisk, hmet⟩
    rw [(hstep s input record hrecord).1, (hstep s input record hrecord).2]
    exact runStopRules_parted _ (hinv.start hrecord _) hpos hrisk hmet

end Runs

/-! ## Long and short -/

/-- The record of a new position, with its first stop. -/
def openedWithStop (symbol : Text) (side : Side) (entryPrice amount : ℚ) (atr : Option ℚ)
    (regime entryRegime : Option Text) (initialRisk now stop : ℚ) : PositionRecord :=
  (PositionRecord.opened symbol side entryPrice amount atr regime entryRegime initialRisk
    now).recordStop stop

/-- From mirrored first stops, a short position on the reflected path gets the reflected
stops and the same partial closes exactly while the long one locks nothing. -/
theorem stops_mirrored_iff (symbol : Text) (entryPrice amount : ℚ) (atr : Option ℚ)
    (regime entryRegime : Option Text) (initialRisk now stop : ℚ) (path : List CycleInput) :
    (run manageStops
        (.ofRecord (openedWithStop symbol .SHORT entryPrice amount atr regime entryRegime
          initialRisk now (2 * entryPrice - stop)))
        (path.map (.reflected (2 * entryPrice)))).outputs =
      (run manageStops
        (.ofRecord (openedWithStop symbol .LONG entryPrice amount atr regime entryRegime
          initialRisk now stop)) path).outputs.map (.reflected (2 * entryPrice)) ↔
    Admits manageStops LocksNothing
      (.ofRecord (openedWithStop symbol .LONG entryPrice amount atr regime entryRegime
        initialRisk now stop)) path := by
  have hself : 2 * entryPrice - entryPrice = entryPrice := by ring
  have hshort : ManagerState.ofRecord (openedWithStop symbol .SHORT entryPrice amount atr regime
      entryRegime initialRisk now (2 * entryPrice - stop)) =
        (ManagerState.ofRecord (openedWithStop symbol .LONG entryPrice amount atr regime
          entryRegime initialRisk now stop)).reflected (2 * entryPrice) := by
    simp [ManagerState.ofRecord, ManagerState.reflected, openedWithStop, PositionRecord.opened,
      PositionRecord.recordStop, PositionRecord.reflected, Side.opposite, hself]
  rw [hshort]
  apply (manageStops_symmetry entryPrice).trace_iff
  rintro record hrecord
  obtain rfl := Option.some.inj hrecord
  exact ⟨rfl, rfl⟩

/-- At one unit of risk in profit, the stops of both sides go to 100.25. -/
theorem stops_not_mirrored :
    ¬ (run manageStops
        (.ofRecord (openedWithStop "BTC/USDT".toList .SHORT 100 1 (some 1)
          (some "TREND_BULL".toList) none 2 0 (2 * 100 - 98)))
        ([⟨some 102, acceptingAnswers (holdingReport .Buy 98)⟩].map
          (.reflected (2 * 100)))).outputs =
      (run manageStops
        (.ofRecord (openedWithStop "BTC/USDT".toList .LONG 100 1 (some 1)
          (some "TREND_BULL".toList) none 2 0 98))
        [⟨some 102, acceptingAnswers (holdingReport .Buy 98)⟩]).outputs.map
          (.reflected (2 * 100)) := by
  decide +kernel

end Manager
end Karsa
