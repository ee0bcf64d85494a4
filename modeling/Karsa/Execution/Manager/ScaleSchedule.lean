import Karsa.Execution.Manager.BreakevenLock
import Karsa.Execution.Manager.Carried
import Karsa.Execution.Manager.Ledger
import Karsa.Execution.Manager.Removal

/-!
# Active position manager - The scale-out schedule

A position is meant to be scaled out on a schedule of its regime: twice by a third in a trend
regime, once by half in the others, each time at an R-multiple of its own and the first time
together with a breakeven stop.  In the cycle the trend tiers are the last branches of the
order-flow check and are open to every regime, so that they wait for a breakeven lock in a trend
regime and follow on the first scale-out in the others.

Main results:

- Theorem `tiers_outcome`: what the tiers of one cycle do under the condition.
- Theorem `later_settled`: a tier in memory reaches the store when nothing raises.
- Theorem `schedule_kept`: a run whose cycles all meet the condition is on schedule.
-/

namespace Karsa
namespace Manager

open Bybit

/-! ## The schedule -/

/-- R-multiples at which a position is to be scaled out. -/
def Snapshot.tierLevels (snap : Snapshot) : List ℚ :=
  if snap.isTrend then [3 / 2, 3]
  else if snap.entryRegime = "SNIPER".toList then [3 / 2]
  else [snap.beLockR]

/-- The share that each scale-out closes. -/
def Snapshot.tierShare (snap : Snapshot) : ℚ :=
  if snap.isTrend then 33 / 100 else 1 / 2

/-- Is a scale-out due after the given number of them? -/
def Snapshot.tierDue (snap : Snapshot) (taken : ℕ) : Bool :=
  snap.tierLevels[taken]?.any fun level => decide (level ≤ snap.rMult)

/-- What the second state's log adds to the first one's. -/
def ManagerState.sentSince (s s' : ManagerState) : List ApmEvent :=
  s'.log.drop s.log.length

/-- The rules that come before the moon bag. -/
def scaleOutRules : List CycleRule :=
  cycleOrder.takeWhile (· ≠ .moonBagExit)

/-- The reductions that a cycle has carried out when the moon bag's turn comes. -/
def scaleOuts (a : CycleAnswers) (snap : Snapshot) (s : ManagerState) : List ApmEvent :=
  (s.sentSince (Flow.blocks (scaleOutRules.map (CycleRule.block a snap)) s).state).filter
    ApmEvent.reduces

/-- The order of a scale-out. -/
def scaleOutOrder (snap : Snapshot) (pos : PositionRecord) : ApmEvent :=
  .reduceSent pos.symbol (closeQty pos.amount snap.tierShare) true

/-- The exchange accepted a request that handed the stop to the client. -/
def StopAccepted (log : List ApmEvent) (stop : ℚ) : Prop :=
  ∃ change, .stopSent change true ∈ log ∧ change.new = stop

/-- The rules of one cycle are on schedule: a scale-out is carried out exactly when one is due,
and the first one is followed by a breakeven stop. -/
structure RulesOnSchedule (a : CycleAnswers) (snap : Snapshot) (taken : ℕ) (s : ManagerState) :
    Prop where
  scaled : scaleOuts a snap s = if snap.tierDue taken then [scaleOutOrder snap s.pos] else []
  locked : snap.tierDue taken = true → taken = 0 → ∃ before after,
    s.sentSince (runRules a snap s).state = before ++ scaleOutOrder snap s.pos :: after ∧
      StopAccepted after (breakevenStop snap.entryPrice)

/-! ## Runs of cycles -/

/-- The manager, and how many scale-outs it has carried out. -/
structure ScheduleState where
  manager : ManagerState
  taken : ℕ

/-- The scale-outs of the next cycle. -/
def cycleScaleOuts (s : ManagerState) (c : CycleInput) : List ApmEvent :=
  match s.stored with
  | none => []
  | some record =>
      let start := startCycle c.live record s
      if reachesRules c.answers start then
        let s := rulesStart c.answers start
        scaleOuts c.answers (snapshot s.pos) s
      else []

/-- One cycle. -/
def scheduleStep (s : ScheduleState) (c : CycleInput) : ScheduleState where
  manager := manage s.manager c
  taken := s.taken + (cycleScaleOuts s.manager c).length

/-- The property holds of the rules of the next cycle, if it gets as far. -/
def NextRules (property : Snapshot → ManagerState → Prop) (s : ManagerState) (c : CycleInput) :
    Prop :=
  ∀ record, s.stored = some record →
    let start := startCycle c.live record s
    reachesRules c.answers start = true →
      property (snapshot (rulesStart c.answers start).pos) (rulesStart c.answers start)

/-- The next cycle is on schedule. -/
def OnSchedule (s : ScheduleState) (c : CycleInput) : Prop :=
  NextRules (fun snap => RulesOnSchedule c.answers snap s.taken) s.manager c

/-- The exchange accepts the orders that the schedule is about. -/
structure OrdersAccepted (a : CycleAnswers) : Prop where
  reduce : ∀ site, a.reduce site = true
  lock : ∀ site, (a.lock site).accepted = true
  moonStop : a.moonStop = true

/-- Condition on the state in which the rules of a cycle start.  A scale-out that is due does not
meet the wick guard and is not rounded away.  In a trend regime the position is already locked,
its average true range is readable, and the first scale-out is followed by the moon bag with its
stop.  In the others the position is not locked yet and stays below the first trend tier, and
below the second one afterwards. -/
structure RulesKeepSchedule (snap : Snapshot) (s : ManagerState) : Prop where
  due : snap.tierDue snap.scaleTier = true →
    wickFires snap s.pos = false ∧ 0 < closeQty s.pos.amount snap.tierShare
  trend : snap.isTrend = true → snap.tierDue snap.scaleTier = true →
    s.movedToBe = true ∧ s.pos.strictAtr ≠ none
  trendFirst : snap.isTrend = true → snap.tierDue snap.scaleTier = true → snap.scaleTier = 0 →
    moonBagDue snap
      { s.pos with amount := s.pos.amount - closeQty s.pos.amount snap.tierShare } = true
  other : snap.isTrend = false → snap.tierDue snap.scaleTier = true →
    s.movedToBe = false ∧ snap.rMult < 3 / 2
  later : snap.isTrend = false → wickFires snap s.pos = false → snap.scaleTier = 1 →
    snap.rMult < 3

instance (snap : Snapshot) (s : ManagerState) : Decidable (RulesKeepSchedule snap s) :=
  decidable_of_iff
    ((snap.tierDue snap.scaleTier = true →
        wickFires snap s.pos = false ∧ 0 < closeQty s.pos.amount snap.tierShare) ∧
      (snap.isTrend = true → snap.tierDue snap.scaleTier = true →
        s.movedToBe = true ∧ s.pos.strictAtr ≠ none) ∧
      (snap.isTrend = true → snap.tierDue snap.scaleTier = true → snap.scaleTier = 0 →
        moonBagDue snap
          { s.pos with amount := s.pos.amount - closeQty s.pos.amount snap.tierShare } = true) ∧
      (snap.isTrend = false → snap.tierDue snap.scaleTier = true →
        s.movedToBe = false ∧ snap.rMult < 3 / 2) ∧
      (snap.isTrend = false → wickFires snap s.pos = false → snap.scaleTier = 1 →
        snap.rMult < 3))
    ⟨fun ⟨due, trend, trendFirst, other, later⟩ => ⟨due, trend, trendFirst, other, later⟩,
      fun h => ⟨h.due, h.trend, h.trendFirst, h.other, h.later⟩⟩

/-- The condition for the next cycle. -/
def KeepsSchedule (s : ScheduleState) (c : CycleInput) : Prop :=
  NextRules RulesKeepSchedule s.manager c

instance (s : ScheduleState) : DecidablePred (KeepsSchedule s) := fun c =>
  match h : s.manager.stored with
  | none => isTrue fun record hrecord => by rw [h] at hrecord; cases hrecord
  | some record =>
      let start := startCycle c.live record s.manager
      decidable_of_iff
        (reachesRules c.answers start = true →
          RulesKeepSchedule (snapshot (rulesStart c.answers start).pos)
            (rulesStart c.answers start))
        ⟨fun hkeeps record' hrecord => by rw [h] at hrecord; cases hrecord; exact hkeeps,
          fun hkeeps => hkeeps record h⟩

/-! ## The tiers of one cycle -/

section Tiers

variable {a : CycleAnswers} {snap : Snapshot} {s : ManagerState}

/-- The exhaustion check never fires. -/
theorem sniperExhaustion_next (reply : Option KlineResult) (rsiExtreme : Bool) (snap : Snapshot)
    (s : ManagerState) : sniperExhaustion reply rsiExtreme snap s = .next s := by
  have hquiet : checkMomentumExhaustion reply rsiExtreme = false := by
    cases reply <;> rfl
  rw [sniperExhaustion, hquiet]
  simp

/-- Nothing that the tiers depend on changes. -/
structure BeforeTiers (s s' : ManagerState) : Prop where
  ledger : SameLedger s s'
  movedToBe : s'.movedToBe = s.movedToBe
  stored : s'.stored = s.stored
  view : s'.pos.baseView = s.pos.baseView

theorem BeforeTiers.of_log {s s' : ManagerState} (hpos : s'.pos.baseView = s.pos.baseView)
    (hledger : ledgerView s'.pos = ledgerView s.pos) (hmoved : s'.movedToBe = s.movedToBe)
    (hstored : s'.stored = s.stored)
    (hlog : Appended (fun e => ApmEvent.reduces e = false) s.log s'.log) : BeforeTiers s s' :=
  ⟨⟨hledger, hlog⟩, hmoved, hstored, hpos⟩

theorem BeforeTiers.trans {s s' s'' : ManagerState} (h : BeforeTiers s s')
    (h' : BeforeTiers s' s'') : BeforeTiers s s'' where
  ledger := h.ledger.trans h'.ledger
  movedToBe := h'.movedToBe.trans h.movedToBe
  stored := h'.stored.trans h.stored
  view := h'.view.trans h.view

/-- Without a wick the cycle comes to its tiers with the same position. -/
theorem front_next (a : CycleAnswers) (hwick : wickFires snap s.pos = false) :
    ∃ s', Flow.blocks ([.wickGuard, .trackPeak, .ensureTakeProfit].map (CycleRule.block a snap)) s =
      .next s' ∧ BeforeTiers s s' := by
  have hguard : ∃ s', CycleRule.wickGuard.block a snap s = .next s' ∧ BeforeTiers s s' := by
    refine ⟨s.edit ({ · with lastTickPrice := some snap.livePrice }), ?_,
      .of_log rfl rfl rfl rfl (Appended.refl _ _)⟩
    unfold CycleRule.block wickGuard
    dsimp only
    rw [hwick]
    rfl
  have hpeak : ∀ s : ManagerState,
      ∃ s', CycleRule.trackPeak.block a snap s = .next s' ∧ BeforeTiers s s' := by
    intro s
    unfold CycleRule.block trackPeak
    dsimp only
    split_ifs
    · exact ⟨_, rfl, .of_log rfl rfl rfl rfl (Appended.refl _ _)⟩
    · exact ⟨_, rfl, .of_log rfl rfl rfl rfl (Appended.refl _ _)⟩
  have hprofit : ∀ s : ManagerState,
      ∃ s', CycleRule.ensureTakeProfit.block a snap s = .next s' ∧ BeforeTiers s s' := by
    intro s
    unfold CycleRule.block ensureTakeProfit
    dsimp only
    split_ifs
    · exact ⟨_, rfl, .of_log rfl rfl rfl rfl (Appended.single rfl)⟩
    · exact ⟨_, rfl, .of_log rfl rfl rfl rfl (Appended.single rfl)⟩
    · exact ⟨_, rfl, .of_log rfl rfl rfl rfl (Appended.refl _ _)⟩
  rcases hguard with ⟨ticked, hguardNext, hticked⟩
  rcases hpeak ticked with ⟨peak, hpeakNext, hpeakSame⟩
  rcases hprofit peak with ⟨placed, hplacedNext, hplaced⟩
  refine ⟨placed, ?_, (hticked.trans hpeakSame).trans hplaced⟩
  simp only [List.map_cons, List.map_nil, Flow.blocks_cons, hguardNext, Flow.next_andThen,
    hpeakNext, hplacedNext, Flow.blocks_nil]

/-- A position of a trend regime is no SNIPER position. -/
theorem Snapshot.isTrend.ne_sniper (h : snap.isTrend = true) :
    snap.entryRegime ≠ "SNIPER".toList := by
  intro hsniper
  rw [Snapshot.isTrend, hsniper] at h
  revert h
  decide

/-- In a trend regime no half is closed. -/
theorem halfDue_of_trend (htrend : snap.isTrend = true) :
    (sniperScaleDue snap || nonTrendScaleDue snap) = false := by
  have hsniper : sniperScaleDue snap = false := by
    rw [sniperScaleDue, decide_eq_false (Snapshot.isTrend.ne_sniper htrend), Bool.false_and,
      Bool.false_and]
  have hother : nonTrendScaleDue snap = false := by
    rw [nonTrendScaleDue, htrend, Bool.not_true, Bool.and_false, Bool.false_and, Bool.false_and]
  rw [hsniper, hother, Bool.or_false]

/-- The state that the tiers of a cycle leave. -/
def afterTiers (a : CycleAnswers) (snap : Snapshot) (s : ManagerState) : ManagerState :=
  cvdOrTrendTiers a.reduce (a.lock .cvd) (a.lock .trendTier) a.cvdSlope snap
    (scaleOutAndLock (a.reduce .scaleOut) (a.lock .scaleOut) snap s)

/-- What the tiers of one cycle do: nothing but a lock, a trend tier of a locked position, or the
scale-out of another regime with its lock. -/
inductive TiersOutcome (a : CycleAnswers) (snap : Snapshot) (s : ManagerState) : Prop
  | idle (hdue : snap.tierDue snap.scaleTier = false)
      (hstate : afterTiers a snap s = s ∨
        afterTiers a snap s = lockBreakeven (a.lock .cvd) snap s)
  | trend (hdue : snap.tierDue snap.scaleTier = true) (htrend : snap.isTrend = true)
      (hstate : afterTiers a snap s =
        scaleOutTo (snap.scaleTier + 1) true (33 / 100) s)
  | other (hdue : snap.tierDue snap.scaleTier = true) (htrend : snap.isTrend = false)
      (hfirst : snap.scaleTier = 0)
      (hstate : afterTiers a snap s =
        lockBreakeven (a.lock .scaleOut) snap (scaleOutTo 1 true (1 / 2) s))

/-- In a trend regime a scale-out is due at 1.5R and at 3R. -/
theorem tierDue_trend (htrend : snap.isTrend = true) :
    snap.tierDue snap.scaleTier = true ↔
      (snap.scaleTier = 0 ∧ 3 / 2 ≤ snap.rMult) ∨ (snap.scaleTier = 1 ∧ 3 ≤ snap.rMult) := by
  rw [Snapshot.tierDue, Snapshot.tierLevels, if_pos htrend]
  match snap.scaleTier with
  | 0 => simp
  | 1 => simp
  | n + 2 => simp

/-- In the others one is due once, where the regime's own rule has it. -/
theorem tierDue_other (htrend : snap.isTrend = false) :
    snap.tierDue snap.scaleTier = (sniperScaleDue snap || nonTrendScaleDue snap) := by
  rw [Snapshot.tierDue, Snapshot.tierLevels, sniperScaleDue, nonTrendScaleDue, htrend,
    if_neg Bool.false_ne_true]
  by_cases hsniper : snap.entryRegime = "SNIPER".toList
  · rw [if_pos hsniper, decide_eq_true hsniper, decide_eq_false (not_not.mpr hsniper)]
    match snap.scaleTier with
    | 0 => simp
    | n + 1 => simp
  · rw [if_neg hsniper, decide_eq_false hsniper, decide_eq_true hsniper]
    match snap.scaleTier with
    | 0 => simp
    | n + 1 => simp

/-- Every regime has its first scale-out by 1.5R. -/
theorem tierDue_first (hfirst : snap.scaleTier = 0) (hr : 3 / 2 ≤ snap.rMult) :
    snap.tierDue snap.scaleTier = true := by
  rw [Snapshot.tierDue, Snapshot.tierLevels, hfirst]
  split_ifs
  · simpa using hr
  · simpa using hr
  · have hlevel : snap.beLockR ≤ 3 / 2 := by
      unfold Snapshot.beLockR
      split_ifs <;> norm_num
    simpa using hlevel.trans hr

/-- A lock leaves the position marked in the cycle's own variable. -/
theorem lockBreakeven_movedToBe (b : BreakevenAnswers) (snap : Snapshot) (s : ManagerState) :
    (lockBreakeven b snap s).movedToBe = true := by
  unfold lockBreakeven
  split_ifs with hmoved
  · exact hmoved
  · rfl

/-- Nothing due: the order-flow check may lock, and no tier is open. -/
theorem tiers_idle (hdue : snap.tierDue snap.scaleTier = false)
    (hlater : snap.isTrend = false → snap.scaleTier = 1 → snap.rMult < 3) :
    TiersOutcome a snap s := by
  have hhalf : scaleOutAndLock (a.reduce .scaleOut) (a.lock .scaleOut) snap s = s := by
    refine if_neg ?_
    cases htrend : snap.isTrend with
    | true =>
        rw [halfDue_of_trend htrend]
        exact Bool.false_ne_true
    | false =>
        rw [← tierDue_other htrend, hdue]
        exact Bool.false_ne_true
  have hopen : ¬ (snap.scaleTier < 1 ∧ 3 / 2 ≤ snap.rMult) := by
    rintro ⟨hfirst, hr⟩
    rw [tierDue_first (Nat.lt_one_iff.mp hfirst) hr] at hdue
    cases hdue
  have hsecond : ¬ (snap.scaleTier < 2 ∧ 3 ≤ snap.rMult) := by
    rintro ⟨hlt, hr⟩
    have hone : snap.scaleTier = 1 := by
      by_contra hne
      exact hopen ⟨by omega, by linarith⟩
    cases htrend : snap.isTrend with
    | true =>
        rw [(tierDue_trend htrend).mpr (Or.inr ⟨hone, hr⟩)] at hdue
        cases hdue
    | false => exact absurd hr (not_le.mpr (hlater htrend hone))
  refine .idle hdue ?_
  rw [afterTiers, hhalf, cvdOrTrendTiers, if_neg hopen, if_neg hsecond]
  split_ifs
  · exact Or.inr rfl
  · exact Or.inl rfl
  · exact Or.inl rfl

/-- A trend tier of a position that is locked already. -/
theorem tiers_trend (ha : OrdersAccepted a) (htrend : snap.isTrend = true)
    (hdue : snap.tierDue snap.scaleTier = true) (hmoved : s.movedToBe = true) :
    TiersOutcome a snap s := by
  have hhalf : scaleOutAndLock (a.reduce .scaleOut) (a.lock .scaleOut) snap s = s := by
    refine if_neg ?_
    rw [halfDue_of_trend htrend]
    exact Bool.false_ne_true
  refine .trend hdue htrend ?_
  rw [afterTiers, hhalf, cvdOrTrendTiers, if_neg (by simp [hmoved]), ha.reduce, ha.reduce]
  rcases (tierDue_trend htrend).mp hdue with ⟨hfirst, hr⟩ | ⟨hsecond, hr⟩
  · have hlocked : (scaleOutTo 1 true (33 / 100) s).movedToBe = true :=
      (scaleOutTo_neutral 1 true (33 / 100) s).movedToBe.trans hmoved
    rw [if_pos ⟨by omega, hr⟩, hfirst, lockBreakeven, if_pos hlocked]
  · rw [if_neg (by omega), if_pos ⟨by omega, hr⟩, hsecond]

/-- The scale-out of another regime, below the trend tiers. -/
theorem tiers_other (ha : OrdersAccepted a) (htrend : snap.isTrend = false)
    (hdue : snap.tierDue snap.scaleTier = true) (hr : snap.rMult < 3 / 2) :
    TiersOutcome a snap s := by
  have hhalf : (sniperScaleDue snap || nonTrendScaleDue snap) = true :=
    (tierDue_other htrend).symm.trans hdue
  have hfirst : snap.scaleTier = 0 := by
    simp only [sniperScaleDue, nonTrendScaleDue, Bool.or_eq_true, Bool.and_eq_true,
      decide_eq_true_eq] at hhalf
    omega
  refine .other hdue htrend hfirst ?_
  have hmoved := lockBreakeven_movedToBe (a.lock .scaleOut) snap (scaleOutTo 1 true (1 / 2) s)
  rw [afterTiers, scaleOutAndLock, if_pos hhalf, ha.reduce, cvdOrTrendTiers,
    if_neg (fun h => Bool.false_ne_true (h.2.symm.trans hmoved)),
    if_neg (fun h => absurd h.2 (not_le.mpr hr)),
    if_neg (fun h => absurd h.2 (by linarith))]

/-- Under the condition the tiers of a cycle do one of the three. -/
theorem tiers_outcome (ha : OrdersAccepted a) (hkeeps : RulesKeepSchedule snap s)
    (hwick : wickFires snap s.pos = false) {s' : ManagerState} (hsame : BeforeTiers s s') :
    TiersOutcome a snap s' := by
  cases hdue : snap.tierDue snap.scaleTier with
  | false => exact tiers_idle hdue fun htrend => hkeeps.later htrend hwick
  | true =>
      cases htrend : snap.isTrend with
      | true =>
          exact tiers_trend ha htrend hdue (hsame.movedToBe.trans (hkeeps.trend htrend hdue).1)
      | false => exact tiers_other ha htrend hdue (hkeeps.other htrend hdue).2

end Tiers

/-! ## One cycle on schedule -/

section Cycle

variable {a : CycleAnswers} {snap : Snapshot} {s : ManagerState}

theorem StopAccepted.append {log : List ApmEvent} {stop : ℚ} (h : StopAccepted log stop)
    (more : List ApmEvent) : StopAccepted (log ++ more) stop := by
  rcases h with ⟨change, hmem, hnew⟩
  exact ⟨change, List.mem_append_left _ hmem, hnew⟩

theorem sentSince_eq {s' : ManagerState} {new : List ApmEvent} (h : s'.log = s.log ++ new) :
    s.sentSince s' = new := by
  rw [ManagerState.sentSince, h, List.drop_left]

/-- Nothing is reduced by what leaves the ledger alone. -/
theorem SameLedger.sent {s' : ManagerState} (h : SameLedger s s') :
    ∃ new, s'.log = s.log ++ new ∧ new.filter ApmEvent.reduces = [] := by
  rcases h.log with ⟨new, hlog, hnew⟩
  refine ⟨new, hlog, List.filter_eq_nil_iff.mpr ?_⟩
  intro e he
  rw [hnew e he]
  exact Bool.false_ne_true

/-- The rules before the moon bag are those before the tiers and the tiers. -/
theorem scaleOutRules_next {s' : ManagerState}
    (hfront : Flow.blocks ([.wickGuard, .trackPeak, .ensureTakeProfit].map
      (CycleRule.block a snap)) s = .next s') :
    Flow.blocks (scaleOutRules.map (CycleRule.block a snap)) s = .next (afterTiers a snap s') := by
  have hsplit : scaleOutRules = [.wickGuard, .trackPeak, .ensureTakeProfit] ++
      [.scaleOutAndLock, .sniperExhaustion, .cvdOrTrendTiers] := by decide
  rw [hsplit, List.map_append, Flow.blocks_append, hfront, Flow.next_andThen]
  simp only [List.map_cons, List.map_nil, Flow.blocks_cons, CycleRule.block, Flow.next_andThen,
    sniperExhaustion_next, Flow.blocks_nil, afterTiers]

/-- The rest of the cycle follows. -/
theorem runRules_next {s' : ManagerState}
    (hrules : Flow.blocks (scaleOutRules.map (CycleRule.block a snap)) s = .next s') :
    runRules a snap s =
      Flow.blocks ((cycleOrder.dropWhile (· ≠ .moonBagExit)).map (CycleRule.block a snap)) s' := by
  have hsplit : cycleOrder = scaleOutRules ++ cycleOrder.dropWhile (· ≠ .moonBagExit) :=
    List.takeWhile_append_dropWhile.symm
  rw [runRules, hsplit, List.map_append, Flow.blocks_append, hrules, Flow.next_andThen, ← hsplit]

/-- A cycle that the wick guard ends. -/
theorem wick_state (a : CycleAnswers) (hwick : wickFires snap s.pos = true)
    (rest : List CycleRule) :
    ∃ s', Flow.blocks ((.wickGuard :: rest).map (CycleRule.block a snap)) s = .ret s' ∧
      SameLedger s s' ∧ s' = (CycleRule.wickGuard.block a snap s).state := by
  have hguard : ∃ s', CycleRule.wickGuard.block a snap s = .ret s' ∧ SameLedger s s' := by
    have hnoted : SameLedger s (s.edit ({ · with lastWickGuardTs := a.wickClock })) :=
      SameLedger.of_eq rfl rfl
    have hamended := hnoted.trans
      (SameLedger.amendAndTrack _ snap.symbol (a.amend .wickGuard) (tightStop snap))
    have hwritten : ∀ {s' : ManagerState}, SameLedger s s' →
        SameLedger s (s'.edit ({ · with lastTickPrice := some snap.livePrice })).persist := by
      intro s' h
      have hticked : SameLedger s (s'.edit ({ · with lastTickPrice := some snap.livePrice })) :=
        h.trans (SameLedger.of_eq rfl rfl)
      exact hticked.trans (SameLedger.persist _)
    unfold CycleRule.block wickGuard
    dsimp only
    rw [if_pos hwick]
    split_ifs
    · exact ⟨_, rfl, hwritten (SameLedger.refl s)⟩
    · exact ⟨_, rfl, hwritten hamended⟩
  rcases hguard with ⟨s', hret, hsame⟩
  refine ⟨s', ?_, hsame, (congrArg Flow.state hret).symm⟩
  rw [List.map_cons, Flow.blocks_cons, hret, Flow.ret_andThen]

/-- A scale-out that is not rounded away sends its order. -/
theorem scaleOutTo_log (tier : ℕ) {pct : ℚ} (hqty : 0 < closeQty s.pos.amount pct) :
    (scaleOutTo tier true pct s).log =
      s.log ++ [.reduceSent s.pos.symbol (closeQty s.pos.amount pct) true] := by
  rw [scaleOutTo, scaleOutPosition]
  dsimp only
  rw [if_neg (not_le.mpr hqty)]
  rfl

/-- A lock that is due and accepted sends its stop, and reduces nothing. -/
theorem lockBreakeven_log {b : BreakevenAnswers} (hb : b.accepted = true) (snap : Snapshot)
    (hopen : s.movedToBe = false) :
    ∃ new, (lockBreakeven b snap s).log = s.log ++ new ∧
      StopAccepted new (breakevenStop snap.entryPrice) ∧ new.filter ApmEvent.reduces = [] := by
  have hsent : ∃ new, (sendWithRetry b (breakevenStop snap.entryPrice) s).log = s.log ++ new ∧
      StopAccepted new (breakevenStop snap.entryPrice) ∧ new.filter ApmEvent.reduces = [] := by
    unfold sendWithRetry
    dsimp only
    by_cases hfirst : b.first = true
    · rw [if_pos hfirst, hfirst]
      exact ⟨_, rfl, ⟨_, List.mem_singleton_self _, rfl⟩, rfl⟩
    · have hretry : b.retry = true := by
        simpa [BreakevenAnswers.accepted, hfirst] using hb
      rw [if_neg hfirst, hretry]
      exact ⟨_, List.append_assoc _ _ _,
        ⟨_, List.mem_append_right _ (List.mem_singleton_self _), rfl⟩, rfl⟩
  rcases hsent with ⟨new, hlog, hstop, hnew⟩
  rw [lockBreakeven, hopen, if_neg Bool.false_ne_true, moveStopToBreakeven]
  dsimp only
  rw [if_pos hb]
  generalize sendWithRetry b (breakevenStop snap.entryPrice) s = sent at hlog
  generalize hmarked : sent.edit (fun pos =>
    { pos.recordStop (breakevenStop snap.entryPrice) with movedToBreakeven := true }) = marked
  have hsame : marked.log = s.log ++ new := by
    rw [← hmarked]
    exact hlog
  have hstopped : marked.pos.currentSl = breakevenStop snap.entryPrice := by
    rw [← hmarked]
    rfl
  rw [updateSl_persist hstopped]
  refine ⟨new ++ [.written marked.pos, .written marked.pos], ?_, hstop.append _, ?_⟩
  · rw [← List.append_assoc, ← hsame, ManagerState.persist, ManagerState.persist]
    simp
  · rw [List.filter_append, hnew]
    rfl

/-- The moon bag that is due sends its stop. -/
theorem moonBagExit_log (ha : OrdersAccepted a) (hdue : moonBagDue snap s.pos = true) :
    ∃ s' new, CycleRule.moonBagExit.block a snap s = .next s' ∧ s'.log = s.log ++ new ∧
      StopAccepted new (breakevenStop snap.entryPrice) := by
  rw [CycleRule.block]
  rcases moonBagExit_outcome a.reduce a.moonStop snap s with
    ⟨hidle, -⟩ | ⟨-, hrefused, -⟩ | ⟨-, -, -, hflow⟩ | ⟨rest, -, -, hstop, -, -⟩ |
    ⟨rest, -, -, hstop, -, -⟩
  · rw [hdue] at hidle
    cases hidle
  · rw [ha.reduce] at hrefused
    cases hrefused
  · exact ⟨_, _, hflow, List.append_assoc _ _ _,
      ⟨_, List.mem_append_right _ (List.mem_singleton_self _), rfl⟩⟩
  · rw [ha.moonStop] at hstop
    cases hstop
  · rw [ha.moonStop] at hstop
    cases hstop

/-- Rules only add to the log. -/
theorem blocks_log (a : CycleAnswers) (snap : Snapshot) (rules : List CycleRule)
    (s : ManagerState) :
    ∃ more, (Flow.blocks (rules.map (CycleRule.block a snap)) s).state.log = s.log ++ more := by
  have hgrows : ∀ rule ∈ rules, ∀ s' : ManagerState,
      s'.log <+: (CycleRule.block a snap rule s').state.log :=
    fun rule _ s' => rule.log_grows a snap s'
  rcases Flow.trace_blocks hgrows s with ⟨more, hmore⟩
  exact ⟨more, hmore.symm⟩

/-- A scale-out that is due is the one reduction of the tiers, with its lock outside the trend
regimes. -/
theorem afterTiers_log (ha : OrdersAccepted a) (hkeeps : RulesKeepSchedule snap s)
    (hdue : snap.tierDue snap.scaleTier = true) {s' : ManagerState} (hsame : BeforeTiers s s') :
    ∃ before after,
      (afterTiers a snap s').log = s.log ++ (before ++ scaleOutOrder snap s.pos :: after) ∧
      before.filter ApmEvent.reduces = [] ∧ after.filter ApmEvent.reduces = [] ∧
        (snap.isTrend = false → StopAccepted after (breakevenStop snap.entryPrice)) := by
  rcases hkeeps.due hdue with ⟨hwick, hqty⟩
  rcases hsame.ledger.sent with ⟨before, hbefore, hbeforeNone⟩
  have hsymbol : s'.pos.symbol = s.pos.symbol := congrArg LedgerView.symbol hsame.ledger.view
  have hamount : s'.pos.amount = s.pos.amount := congrArg LedgerView.amount hsame.ledger.view
  have hscaled : ∀ tier, (scaleOutTo tier true snap.tierShare s').log =
      s.log ++ (before ++ [scaleOutOrder snap s.pos]) := by
    intro tier
    rw [scaleOutTo_log tier (hamount ▸ hqty), hbefore, hsymbol, hamount, List.append_assoc]
    rfl
  rcases tiers_outcome ha hkeeps hwick hsame with ⟨hnone, -⟩ | ⟨-, htrend, hstate⟩ |
    ⟨-, htrend, -, hstate⟩
  · rw [hdue] at hnone
    cases hnone
  · have hshare : snap.tierShare = 33 / 100 := if_pos htrend
    refine ⟨before, [], ?_, hbeforeNone, rfl, ?_⟩
    · rw [hstate, ← hshare, hscaled]
    · intro hother
      rw [htrend] at hother
      cases hother
  · have hshare : snap.tierShare = 1 / 2 := if_neg (by simp [htrend])
    have hopen : (scaleOutTo 1 true snap.tierShare s').movedToBe = false :=
      (scaleOutTo_neutral 1 true snap.tierShare s').movedToBe.trans
        (hsame.movedToBe.trans (hkeeps.other htrend hdue).1)
    rcases lockBreakeven_log (ha.lock .scaleOut) snap hopen with ⟨after, hafter, hstop, hafterNone⟩
    refine ⟨before, after, ?_, hbeforeNone, hafterNone, fun _ => hstop⟩
    rw [hstate, ← hshare, hafter, hscaled]
    simp

/-- The moon bag after a first trend tier sends the stop. -/
theorem moonBag_locks (ha : OrdersAccepted a) (hkeeps : RulesKeepSchedule snap s)
    (htrend : snap.isTrend = true) (hdue : snap.tierDue snap.scaleTier = true)
    (hfirst : snap.scaleTier = 0) {s' : ManagerState} (hsame : BeforeTiers s s') :
    ∃ more, (Flow.blocks ((cycleOrder.dropWhile (· ≠ .moonBagExit)).map (CycleRule.block a snap))
        (afterTiers a snap s')).state.log = (afterTiers a snap s').log ++ more ∧
      StopAccepted more (breakevenStop snap.entryPrice) := by
  have hamount : s'.pos.amount = s.pos.amount := congrArg LedgerView.amount hsame.ledger.view
  have hleft : (afterTiers a snap s').pos.amount =
      s.pos.amount - closeQty s.pos.amount snap.tierShare := by
    have hshare : snap.tierShare = 33 / 100 := if_pos htrend
    have hqty : ¬ closeQty s'.pos.amount (33 / 100) ≤ 0 := by
      rw [hamount, ← hshare]
      exact not_le.mpr (hkeeps.due hdue).2
    rcases tiers_outcome ha hkeeps (hkeeps.due hdue).1 hsame with ⟨hnone, -⟩ | ⟨-, -, hstate⟩ |
      ⟨-, hother, -⟩
    · rw [hdue] at hnone
      cases hnone
    · rw [hstate, hshare, scaleOutTo, scaleOutPosition]
      dsimp only
      rw [if_neg hqty, if_pos rfl, ← hamount]
      rfl
    · rw [htrend] at hother
      cases hother
  have hmoon : moonBagDue snap (afterTiers a snap s').pos = true := by
    have hcond := hkeeps.trendFirst htrend hdue hfirst
    unfold moonBagDue at hcond ⊢
    rw [hleft]
    exact hcond
  rcases moonBagExit_log ha hmoon with ⟨moon, new, hnext, hnew, hstop⟩
  rcases blocks_log a snap ((cycleOrder.dropWhile (· ≠ .moonBagExit)).drop 1) moon with
    ⟨more, hmore⟩
  have hfollow : cycleOrder.dropWhile (· ≠ .moonBagExit) =
      .moonBagExit :: (cycleOrder.dropWhile (· ≠ .moonBagExit)).drop 1 := by decide
  refine ⟨new ++ more, ?_, hstop.append more⟩
  rw [hfollow, List.map_cons, Flow.blocks_cons, hnext, Flow.next_andThen, hmore, hnew,
    List.append_assoc]

/-- The reductions of a cycle, from the log that its tiers leave. -/
theorem scaleOuts_eq {s' : ManagerState} {new : List ApmEvent}
    (hstate : (Flow.blocks (scaleOutRules.map (CycleRule.block a snap)) s).state = s')
    (hlog : s'.log = s.log ++ new) : scaleOuts a snap s = new.filter ApmEvent.reduces := by
  rw [scaleOuts, hstate, sentSince_eq hlog]

/-- Where no scale-out is due, nothing is reduced. -/
theorem scaleOuts_idle (ha : OrdersAccepted a) (hkeeps : RulesKeepSchedule snap s)
    (hdue : snap.tierDue snap.scaleTier = false) : scaleOuts a snap s = [] := by
  cases hwick : wickFires snap s.pos with
  | true =>
      rcases wick_state a hwick (scaleOutRules.drop 1) with ⟨s', hret, hsame, -⟩
      rcases hsame.sent with ⟨new, hlog, hnone⟩
      exact (scaleOuts_eq (congrArg Flow.state hret) hlog).trans hnone
  | false =>
      rcases front_next a hwick with ⟨s', hfront, hsame⟩
      have htiers : SameLedger s' (afterTiers a snap s') := by
        rcases tiers_outcome ha hkeeps hwick hsame with ⟨-, hstate | hstate⟩ | ⟨htaken, -⟩ |
          ⟨htaken, -⟩
        · rw [hstate]
          exact SameLedger.refl s'
        · rw [hstate]
          exact SameLedger.lockBreakeven _ snap s'
        · rw [hdue] at htaken
          cases htaken
        · rw [hdue] at htaken
          cases htaken
      rcases (hsame.ledger.trans htiers).sent with ⟨new, hlog, hnone⟩
      exact (scaleOuts_eq (congrArg Flow.state (scaleOutRules_next hfront)) hlog).trans hnone

/-- Under the condition the rules of a cycle are on the schedule of the record's own tier. -/
theorem rules_onSchedule (ha : OrdersAccepted a) (hkeeps : RulesKeepSchedule snap s) :
    RulesOnSchedule a snap snap.scaleTier s := by
  cases hdue : snap.tierDue snap.scaleTier with
  | false =>
      refine ⟨?_, ?_⟩
      · rw [scaleOuts_idle ha hkeeps hdue, hdue]
        rfl
      · intro htaken
        rw [hdue] at htaken
        cases htaken
  | true =>
      rcases front_next a (hkeeps.due hdue).1 with ⟨s', hfront, hsame⟩
      rcases afterTiers_log ha hkeeps hdue hsame with
        ⟨before, after, hlog, hbefore, hafter, hstop⟩
      have hrules := scaleOutRules_next hfront
      refine ⟨?_, fun _ hfirst => ?_⟩
      · rw [scaleOuts_eq (congrArg Flow.state hrules) hlog, List.filter_append, hbefore,
          List.filter_cons_of_pos rfl, hafter, hdue]
        rfl
      · have hrest : ∃ more, (runRules a snap s).state.log =
            s.log ++ (before ++ scaleOutOrder snap s.pos :: (after ++ more)) ∧
              StopAccepted (after ++ more) (breakevenStop snap.entryPrice) := by
          rw [runRules_next hrules]
          cases htrend : snap.isTrend with
          | false =>
              rcases blocks_log a snap (cycleOrder.dropWhile (· ≠ .moonBagExit))
                (afterTiers a snap s') with ⟨more, hmore⟩
              refine ⟨more, ?_, (hstop htrend).append more⟩
              rw [hmore, hlog]
              simp
          | true =>
              -- the stop of a first trend tier is the moon bag's
              rcases moonBag_locks ha hkeeps htrend hdue hfirst hsame with ⟨more, hmore, hmoon⟩
              rcases hmoon with ⟨change, hmem, hnew⟩
              refine ⟨more, ?_, ⟨change, List.mem_append_right _ hmem, hnew⟩⟩
              rw [hmore, hlog]
              simp
        rcases hrest with ⟨more, hmore, hstopped⟩
        exact ⟨before, after ++ more, sentSince_eq hmore, hstopped⟩

end Cycle

/-! ## The tier in the store -/

section Store

variable {a : CycleAnswers} {snap : Snapshot} {s : ManagerState} {P : BaseView → Prop}

/-- The stored record, if there is one, has the property. -/
def Settled (P : BaseView → Prop) (s : ManagerState) : Prop :=
  ∀ r ∈ s.stored, P r.baseView

theorem persist_settled (h : P s.pos.baseView) : Settled P s.persist := by
  intro r hr
  obtain rfl : s.pos = r := by simpa using hr
  exact h

/-- A force close removes the record or writes the one in memory. -/
theorem forceClosePosition_settled (h : P s.pos.baseView) (close : CloseAnswers) (reason : Text) :
    Settled P (forceClosePosition close reason s) := by
  have hfinished : ∀ reason fill (s' : ManagerState), Settled P (finishClose reason fill s') := by
    intro reason fill s' r hr
    rw [finishClose_stored] at hr
    cases hr
  have hcalled := closeAttempt_called close s
  unfold forceClosePosition
  rcases hresult : closeAttempt close s with ⟨s', message | fill⟩
  · rw [hresult] at hcalled
    have heq : s' = { s with log := s'.log } := hcalled.eq
    have hpos : s'.pos = s.pos := by rw [heq]
    dsimp only
    split_ifs
    · exact hfinished _ _ _
    · refine persist_settled ?_
      rw [← hpos] at h
      exact h
  · exact hfinished _ _ _

/-- A wick guard that ends the cycle writes the record. -/
theorem wickGuard_settled (h : P s.pos.baseView) (snap : Snapshot) (clock : ℚ)
    (accepted : Bool) : (wickGuard snap clock accepted s).Ends (fun _ => True) (Settled P) := by
  have hamended : P (amendAndTrack snap.symbol accepted (tightStop snap)
      (s.edit ({ · with lastWickGuardTs := clock }))).pos.baseView := by
    unfold amendAndTrack ManagerState.amendStop
    dsimp only
    split_ifs
    · exact h
    · exact h
  unfold Manager.wickGuard
  dsimp only
  split_ifs
  · exact persist_settled h
  · exact persist_settled hamended
  · trivial

/-- A limit order that is given up ends the cycle with a force close. -/
theorem trailingLimit_settled (h : P s.pos.baseView) (limit : LimitAnswers)
    (close : CloseAnswers) (snap : Snapshot) :
    (trailingLimit limit close snap s).Ends (fun _ => True) (Settled P) := by
  have hactive : P (activateLimit limit.clock snap s).pos.baseView := by
    unfold activateLimit
    split_ifs
    · exact h
    · exact h
  unfold Manager.trailingLimit
  dsimp only
  generalize activateLimit limit.clock snap s = s' at hactive
  split_ifs
  · exact forceClosePosition_settled hactive _ _
  · exact @forceClosePosition_settled (cancelLimit limit s') P hactive _ _
  all_goals trivial

/-- So does a time exit. -/
theorem timeExit_settled (h : P s.pos.baseView) (clock : ℚ) (close : CloseAnswers)
    (snap : Snapshot) :
    (manageTimeExit clock close snap s).Ends (fun _ => True) (Settled P) := by
  unfold manageTimeExit
  cases snap.entryTime with
  | none => trivial
  | some entryTime =>
      have hmemory : P (timeExitReason clock snap entryTime s.pos).2.baseView := by
        have hsame : (timeExitReason clock snap entryTime s.pos).2.baseView =
            s.pos.baseView := by
          simp only [timeExitReason, apply_ite Prod.snd, apply_ite PositionRecord.baseView]
          simp only [PositionRecord.baseView, ite_self]
        rw [hsame]
        exact h
      dsimp only
      cases (timeExitReason clock snap entryTime s.pos).1 with
      | none => trivial
      | some reason => exact @forceClosePosition_settled { s with pos := _ } P hmemory _ _

/-- And a shift of the regime. -/
theorem regimeShift_settled (h : P s.pos.baseView) (current : Except Text Text)
    (close : CloseAnswers) (snap : Snapshot) :
    (checkRegimeShift current close snap s).Ends (fun _ => True) (Settled P) := by
  unfold checkRegimeShift
  by_cases hunknown : snap.entryRegime = "UNKNOWN".toList
  · rw [if_pos hunknown]
    trivial
  · rw [if_neg hunknown]
    cases current with
    | error message => trivial
    | ok current =>
        dsimp only
        split_ifs
        · trivial
        · have hclosed : Settled P (forceClosePosition close
              ("regime_shift_".toList ++ snap.entryRegime ++ "_to_".toList ++ current)
              { s with shiftCount := s.shiftCount + 1 }) :=
            @forceClosePosition_settled { s with shiftCount := s.shiftCount + 1 } P h _ _
          exact hclosed
        · trivial

/-- A rule that ends the cycle has written the record in memory, as far as it is kept; none
raises while the average true range is readable. -/
theorem CycleRule.leaves_settled (ha : OrdersAccepted a) (h : P s.pos.baseView)
    (hatr : s.pos.strictAtr ≠ none) (rule : CycleRule) :
    (rule.block a snap s).Ends (fun _ => True) (Settled P) := by
  rcases Option.ne_none_iff_exists'.mp hatr with ⟨atr, hatr⟩
  cases rule with
  | wickGuard => exact wickGuard_settled h snap _ _
  | trackPeak =>
      unfold CycleRule.block Manager.trackPeak
      dsimp only
      split_ifs <;> trivial
  | ensureTakeProfit =>
      unfold CycleRule.block Manager.ensureTakeProfit
      dsimp only
      split_ifs <;> trivial
  | sniperExhaustion =>
      rw [CycleRule.block, sniperExhaustion_next]
      trivial
  | scaleOutAndLock | cvdOrTrendTiers | halfBreakeven | profitProtect | persist => trivial
  | moonBagExit =>
      rw [CycleRule.block]
      rcases moonBagExit_outcome a.reduce a.moonStop snap s with
        ⟨-, hflow⟩ | ⟨-, -, hflow⟩ | ⟨-, -, -, hflow⟩ | ⟨rest, -, -, -, -, hflow⟩ |
        ⟨rest, -, -, hstop, -, -⟩
      · rw [hflow]
        trivial
      · rw [hflow]
        trivial
      · rw [hflow]
        trivial
      · rw [hflow]
        trivial
      · rw [ha.moonStop] at hstop
        cases hstop
  | moonTrailing =>
      unfold CycleRule.block Manager.moonTrailing
      dsimp only
      rw [hatr]
      dsimp only
      split_ifs <;> trivial
  | trailingLimit => exact trailingLimit_settled h _ _ snap
  | breakevenTrigger =>
      unfold CycleRule.block Manager.breakevenTrigger breakevenTriggered
      dsimp only
      rw [hatr]
      dsimp only [Option.map_some]
      split_ifs <;> trivial
  | trendTrailing =>
      unfold CycleRule.block manageTrendTrailingStop
      dsimp only
      rw [hatr]
      dsimp only
      split_ifs <;> trivial
  | timeExit => exact timeExit_settled h _ _ snap
  | regimeShift => exact regimeShift_settled h _ _ snap

/-- The rules after the tiers take none. -/
theorem not_tier_of_later {rule : CycleRule}
    (hmem : rule ∈ cycleOrder.dropWhile (· ≠ .moonBagExit)) :
    rule ≠ .scaleOutAndLock ∧ rule ≠ .cvdOrTrendTiers := by
  have hall : ∀ rule ∈ cycleOrder.dropWhile (· ≠ .moonBagExit),
      rule ≠ .scaleOutAndLock ∧ rule ≠ .cvdOrTrendTiers := by decide
  exact hall rule hmem

/-- A tier in memory reaches the store when nothing raises: the rules after the tiers end with the
record written, or without one. -/
theorem later_settled (ha : OrdersAccepted a) (hcarries : Carries P (fun _ => True) s)
    (hread : ∀ pos : PositionRecord, P pos.baseView → pos.strictAtr ≠ none) :
    Settled P (Flow.blocks ((cycleOrder.dropWhile (· ≠ .moonBagExit)).map
      (CycleRule.block a snap)) s).state := by
  have hsplit : cycleOrder.dropWhile (· ≠ .moonBagExit) =
      [.moonBagExit, .moonTrailing, .trailingLimit, .breakevenTrigger, .halfBreakeven,
        .profitProtect, .trendTrailing, .timeExit, .regimeShift] ++ [.persist] := by decide
  rw [hsplit, List.map_append, Flow.blocks_append]
  have hends : Flow.Spec (Carries P fun _ => True)
      (Flow.blocks (([.moonBagExit, .moonTrailing, .trailingLimit, .breakevenTrigger,
        .halfBreakeven, .profitProtect, .trendTrailing, .timeExit, .regimeShift] :
          List CycleRule).map (CycleRule.block a snap)))
      (Carries P fun _ => True) (Settled P) := by
    apply Flow.Spec.blocks_map
    intro rule hmem s hs
    have hrule := not_tier_of_later (hsplit ▸ List.mem_append_left _ hmem)
    have hkept := Flow.ends_of_state (hs.rule (fun _ _ => trivial) a snap hrule.1 hrule.2)
    have hleft := @CycleRule.leaves_settled a snap s P ha hs.pos (hread _ hs.pos) rule
    exact (hkept.and hleft).mono (fun _ h => h.1) fun _ h => h.2
  exact (hends s hcarries).andThen_state (fun _ h => persist_settled h.pos) fun _ h => h

/-- A tier that is in memory and in the store stays there. -/
theorem later_carried (hcarries : Carries P P s) :
    Carries P P (Flow.blocks ((cycleOrder.dropWhile (· ≠ .moonBagExit)).map
      (CycleRule.block a snap)) s).state := by
  have hends : Flow.Spec (Carries P P)
      (Flow.blocks ((cycleOrder.dropWhile (· ≠ .moonBagExit)).map (CycleRule.block a snap)))
      (Carries P P) (Carries P P) := by
    apply Flow.Spec.blocks_of_state
    intro rule hmem s hs
    have hrule := not_tier_of_later hmem
    exact hs.rule (fun _ hv => hv) a snap hrule.1 hrule.2
  exact (hends s hcarries).state fun _ h => h

/-- A lock that is due and accepted writes the record. -/
theorem lockBreakeven_carries {b : BreakevenAnswers} (hb : b.accepted = true) (snap : Snapshot)
    (hopen : s.movedToBe = false) (h : P s.pos.baseView) :
    Carries P P (lockBreakeven b snap s) := by
  rw [lockBreakeven, hopen, if_neg Bool.false_ne_true, moveStopToBreakeven]
  dsimp only
  rw [if_pos hb]
  have hsent : P (sendWithRetry b (breakevenStop snap.entryPrice) s).pos.baseView := by
    rw [sendWithRetry_pos]
    exact h
  generalize sendWithRetry b (breakevenStop snap.entryPrice) s = sent at hsent
  generalize hmarked : sent.edit (fun pos =>
    { pos.recordStop (breakevenStop snap.entryPrice) with movedToBreakeven := true }) = marked
  have hview : P marked.pos.baseView := by
    rw [← hmarked]
    exact hsent
  have hwritten : Carries P P marked.persist := ⟨hview, persist_settled hview⟩
  exact (hwritten.updateSl (breakevenStop snap.entryPrice)).of_eq rfl rfl

/-- The record that a cycle on schedule leaves has counted its scale-outs. -/
theorem runRules_tier (ha : OrdersAccepted a) (hkeeps : RulesKeepSchedule snap s)
    (hcarries : Carries (·.scaleTier = snap.scaleTier) (·.scaleTier = snap.scaleTier) s) :
    Settled (·.scaleTier = snap.scaleTier + (scaleOuts a snap s).length)
      (runRules a snap s).state := by
  rw [(rules_onSchedule ha hkeeps).scaled]
  cases hwick : wickFires snap s.pos with
  | true =>
      have hidle : snap.tierDue snap.scaleTier = false := by
        by_contra hdue
        rw [(hkeeps.due (Bool.of_not_eq_false hdue)).1] at hwick
        cases hwick
      rcases wick_state a hwick (cycleOrder.drop 1) with ⟨s', hret, -, hstate⟩
      have hkept := hcarries.rule (fun _ hv => hv) a snap (r := .wickGuard) (by decide) (by decide)
      have hrun : (runRules a snap s).state = s' := congrArg Flow.state hret
      rw [hrun, hidle, hstate]
      exact hkept.stored
  | false =>
      rcases front_next a hwick with ⟨s', hfront, hsame⟩
      have hcarried := hcarries.of_eq hsame.view hsame.stored
      rw [runRules_next (scaleOutRules_next hfront)]
      rcases tiers_outcome ha hkeeps hwick hsame with ⟨hdue, hstate⟩ | ⟨hdue, htrend, hstate⟩ |
        ⟨hdue, htrend, hfirst, hstate⟩
      · have hidle : Carries (·.scaleTier = snap.scaleTier) (·.scaleTier = snap.scaleTier)
            (afterTiers a snap s') := by
          rcases hstate with hstate | hstate
          · rw [hstate]
            exact hcarried
          · rw [hstate]
            exact hcarried.lockBreakeven (fun _ hv => hv) _ snap
        rw [hdue]
        exact (later_carried hidle).stored
      · have hreadable : (s'.pos.baseView.atr.getD (.value 0)).decimal ≠ none := by
          rw [hsame.view]
          exact (hkeeps.trend htrend hdue).2
        have hscaled : Carries (fun v => v.scaleTier = snap.scaleTier + 1 ∧
            (v.atr.getD (.value 0)).decimal ≠ none) (fun _ => True) (afterTiers a snap s') := by
          have hnow : Carries (fun v => (v.atr.getD (.value 0)).decimal ≠ none)
              (fun _ => True) s' := ⟨hreadable, fun _ _ => trivial⟩
          rw [hstate]
          exact hnow.scaleOutTo (fun _ hv => ⟨rfl, hv⟩) true (33 / 100)
        rw [hdue]
        exact fun r hr => (later_settled ha hscaled (fun _ hv => hv.2) r hr).1
      · have hopen : (scaleOutTo 1 true (1 / 2) s').movedToBe = false :=
          (scaleOutTo_neutral 1 true (1 / 2) s').movedToBe.trans
            (hsame.movedToBe.trans (hkeeps.other htrend hdue).1)
        have hlocked : Carries (·.scaleTier = 1) (·.scaleTier = 1) (afterTiers a snap s') := by
          rw [hstate]
          exact lockBreakeven_carries (ha.lock .scaleOut) snap hopen rfl
        rw [hdue, hfirst]
        exact (later_carried hlocked).stored

end Store

/-! ## Runs on schedule -/

section Runs

variable {s : ScheduleState} {c : CycleInput}

/-- The stored record has counted the scale-outs. -/
def TierStored (s : ScheduleState) : Prop :=
  Settled (·.scaleTier = s.taken) s.manager

/-- The rules of a cycle start with the stored tier. -/
theorem TierStored.rulesStart (h : TierStored s) {record : PositionRecord}
    (hrecord : s.manager.stored = some record) :
    Carries (·.scaleTier = s.taken) (·.scaleTier = s.taken)
      (rulesStart c.answers (startCycle c.live record s.manager)) := by
  have hstart : Carries (·.scaleTier = s.taken) (·.scaleTier = s.taken)
      (startCycle c.live record s.manager) := ⟨h record hrecord, h⟩
  exact hstart.rulesStart (fun _ hv => hv) (fun _ _ hv => hv) c.answers

/-- A cycle under the condition is on schedule. -/
theorem TierStored.onSchedule (h : TierStored s) (ha : OrdersAccepted c.answers)
    (hkeeps : KeepsSchedule s c) : OnSchedule s c := by
  intro record hrecord start hreached
  have hscaled := rules_onSchedule ha (hkeeps record hrecord hreached)
  have htier : (snapshot (Manager.rulesStart c.answers start).pos).scaleTier = s.taken :=
    (h.rulesStart hrecord).pos
  rw [htier] at hscaled
  exact hscaled

/-- The tier stays in the store. -/
theorem TierStored.step (h : TierStored s) (ha : OrdersAccepted c.answers)
    (hkeeps : KeepsSchedule s c) : TierStored (scheduleStep s c) := by
  unfold TierStored scheduleStep cycleScaleOuts manage
  cases hstored : s.manager.stored with
  | none => exact h
  | some record =>
      have hstart := h.rulesStart (c := c) hstored
      have hcond := hkeeps record hstored
      have hloaded : Settled (·.scaleTier = s.taken) (startCycle c.live record s.manager) := h
      dsimp only
      generalize startCycle c.live record s.manager = start at hstart hcond hloaded
      rcases manageSinglePosition_cases c.answers start with
        ⟨hcooldown, hskipped⟩ | ⟨-, hstopped, hended⟩ | ⟨hreached, hran⟩
      · have hidle : reachesRules c.answers start = false := by simp [reachesRules, hcooldown]
        rw [hskipped, hidle]
        exact hloaded
      · rw [hended, hstopped]
        exact hstart.stored
      · have htier : (snapshot (Manager.rulesStart c.answers start).pos).scaleTier = s.taken :=
          hstart.pos
        have hrules := runRules_tier ha (hcond hreached) (htier.symm ▸ hstart)
        rw [hran, if_pos hreached, ← htier]
        exact hrules

end Runs

/-- A run of a fresh record whose orders are accepted is on schedule in every cycle, if all of its
cycles meet the condition. -/
theorem schedule_kept (symbol : Text) (side : Side) (entryPrice amount : ℚ) (atr : Option ℚ)
    (regime entryRegime : Option Text) (initialRiskPerUnit now : ℚ) (cycles : List CycleInput)
    (haccepted : ∀ c ∈ cycles, OrdersAccepted c.answers)
    (hkeeps : Admits scheduleStep KeepsSchedule
      ⟨.ofRecord (.opened symbol side entryPrice amount atr regime entryRegime
        initialRiskPerUnit now), 0⟩ cycles) :
    Admits scheduleStep OnSchedule
      ⟨.ofRecord (.opened symbol side entryPrice amount atr regime entryRegime
        initialRiskPerUnit now), 0⟩ cycles := by
  have hstep : ∀ s c, TierStored s → OrdersAccepted c.answers ∧ KeepsSchedule s c →
      TierStored (scheduleStep s c) := fun s c h hcond => h.step hcond.1 hcond.2
  have hnext : ∀ s c, TierStored s → OrdersAccepted c.answers ∧ KeepsSchedule s c →
      OnSchedule s c := fun s c h hcond => h.onSchedule hcond.1 hcond.2
  refine Admits.of_invariant hstep hnext ?_ (hkeeps.and_forall haccepted)
  intro r hr
  cases hr
  rfl

/-- A trending long of one unit, entered at 100 with a risk of 2, that no scale-out has touched. -/
def trendingLong : ScheduleState where
  manager := .ofRecord
    (.opened "BTC/USDT".toList .LONG 100 1 (some 2) none (some "TREND_BULL".toList) 2 0)
  taken := 0

/-- At 1.3R the order flow locks it; at 2.1R and at 3.25R it is scaled out. -/
def trendingCycles : List CycleInput :=
  [⟨some (513 / 5), { acceptingAnswers (holdingReport .Buy 98) with cvdSlope := some (-2000) }⟩,
    ⟨some (521 / 5), acceptingAnswers (holdingReport .Buy (401 / 4))⟩,
    ⟨some (213 / 2), acceptingAnswers (holdingReport .Buy (401 / 4))⟩]

/-- Its three cycles are on schedule. -/
theorem schedule_kept_trending :
    (run scheduleStep trendingLong trendingCycles).taken = 2 ∧
      Admits scheduleStep OnSchedule trendingLong trendingCycles := by
  refine ⟨by decide +kernel, ?_⟩
  refine schedule_kept "BTC/USDT".toList .LONG 100 1 (some 2) none (some "TREND_BULL".toList) 2 0
    trendingCycles (fun c hc => ?_) (by decide +kernel)
  simp only [trendingCycles, List.mem_cons, List.not_mem_nil, or_false] at hc
  rcases hc with rfl | rfl | rfl <;> exact ⟨fun _ => rfl, fun _ => rfl, rfl⟩

/-- A trending long at 1.6R is not scaled out. -/
theorem trendingLong_not_scaled :
    OrdersAccepted (acceptingAnswers (holdingReport .Buy 98)) ∧
      ¬ Admits scheduleStep OnSchedule trendingLong
        [⟨some (516 / 5), acceptingAnswers (holdingReport .Buy 98)⟩] := by
  refine ⟨⟨fun _ => rfl, fun _ => rfl, rfl⟩, fun h => ?_⟩
  have hscaled := (h.1 _ rfl (by decide +kernel)).scaled
  revert hscaled
  decide +kernel

end Manager
end Karsa
