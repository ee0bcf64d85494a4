import Karsa.Execution.Manager.Frame

/-!
# Active position manager - Stops that never loosen

A stop should only ever move towards the price.  The wick guard, the breakeven
lock and the moon-bag exit send a stop that depends on the price or the entry
alone, and the trailing rules compare with a local copy that a breakeven lock of
the same cycle has overtaken.  No rule looks at the price that the client rounds
its stop to.  For every rule there is a condition on the state it starts in; in a
run that meets them, no stop is looser than the recorded one it replaces, neither
as it is recorded nor as it reaches the exchange.

Main results:

- Theorem `CycleRule.stops_kept`: one rule under its condition.
- Theorem `manage_stops_protective`: all cycles of a run.
-/

namespace Karsa
namespace Manager

open Bybit

/-! ## Protective changes -/

/-- The new stop protects at least as much as the old one, if there is one. -/
def AtLeastAsProtective (side : Side) (old new : ℚ) : Prop :=
  0 < old → match side with
    | .LONG => old ≤ new
    | .SHORT => new ≤ old

instance (side : Side) (old new : ℚ) : Decidable (AtLeastAsProtective side old new) := by
  unfold AtLeastAsProtective
  cases side <;> infer_instance

/-- A stop that is sent is at least as protective as the one it replaces, and so is the price
that reaches the exchange; a stop that is read is recorded as it is. -/
def ApmEvent.Protective (t : InstrumentTables) : ApmEvent → Prop
  | .stopSent change _ =>
      AtLeastAsProtective change.side change.old change.new ∧
        AtLeastAsProtective change.side change.old (change.reaching t)
  | .stopRead change => AtLeastAsProtective change.side change.old change.new
  | .takeProfitSent _ _ | .reduceSent _ _ _ | .limitSent _ _ _ | .cancelSent _ _
  | .marketSent _ _ _ | .written _ | .removed => True

instance (t : InstrumentTables) : DecidablePred (ApmEvent.Protective t)
  | .stopSent _ _ => inferInstanceAs (Decidable (_ ∧ _))
  | .stopRead change =>
      inferInstanceAs (Decidable (AtLeastAsProtective change.side change.old change.new))
  | .takeProfitSent _ _ | .reduceSent _ _ _ | .limitSent _ _ _ | .cancelSent _ _
  | .marketSent _ _ _ | .written _ | .removed => isTrue trivial

/-- Every stop sent or recorded is at least as protective as the one it replaces. -/
def StopsProtective (t : InstrumentTables) (s : ManagerState) : Prop :=
  ∀ e ∈ s.log, e.Protective t

instance (t : InstrumentTables) (s : ManagerState) : Decidable (StopsProtective t s) :=
  inferInstanceAs (Decidable (∀ e ∈ s.log, _))

/-- The event sends or reads no stop. -/
theorem ApmEvent.NeutralFor.protective {t : InstrumentTables} {view : StopView} {e : ApmEvent}
    (h : e.NeutralFor view) : e.Protective t := by
  cases e with
  | stopSent change accepted => exact h.elim
  | stopRead change => exact h.elim
  | _ => trivial

/-- A stop tighter than one that is at least as protective as a third. -/
theorem AtLeastAsProtective.of_tighter {side : Side} {old mid new : ℚ}
    (hmid : AtLeastAsProtective side old mid) (hnew : tighter side new mid = true) :
    AtLeastAsProtective side old new := by
  intro hold
  have hle := hmid hold
  cases side with
  | LONG => exact hle.trans (of_decide_eq_true hnew).le
  | SHORT => exact (of_decide_eq_true hnew).le.trans hle

/-- Replacing no stop is always fine. -/
theorem AtLeastAsProtective.of_nonpos {side : Side} {old new : ℚ} (hold : old ≤ 0) :
    AtLeastAsProtective side old new :=
  fun hpos => absurd hpos (not_lt.mpr hold)

/-! ## Conditions of the rules -/

/-- The recorded stop is no tighter than a new one that is sent under the symbol, nor than what
the client rounds that to. -/
structure KeepsStop (t : InstrumentTables) (symbol : Text) (side : Side) (old new : ℚ) :
    Prop where
  given : AtLeastAsProtective side old new
  reaching : AtLeastAsProtective side old (t.roundPrice symbol new)

/-- Where no stop is recorded, any is kept. -/
theorem KeepsStop.of_nonpos {t : InstrumentTables} {symbol : Text} {side : Side} {old new : ℚ}
    (hold : old ≤ 0) : KeepsStop t symbol side old new :=
  ⟨.of_nonpos hold, .of_nonpos hold⟩

/-- Condition on the state a rule starts in: an active wick guard, a breakeven
lock or a moon bag finds no tighter stop recorded, and a rule whose proposal
beats the local copy of the stop finds that copy up to date and loses nothing to
the rounding. -/
structure RuleKeepsStop (t : InstrumentTables) (a : CycleAnswers) (snap : Snapshot)
    (rule : CycleRule) (s : ManagerState) : Prop where
  wick : rule = .wickGuard → wickFires snap s.pos = true →
    wickDebounced a.wickClock s.pos = false →
      KeepsStop t (sendSymbol snap rule s) snap.side s.pos.currentSl (tightStop snap)
  lock : locksBreakeven a snap rule s →
    KeepsStop t (sendSymbol snap rule s) snap.side s.pos.currentSl
      (breakevenStop snap.entryPrice)
  localCopy : ∀ stop, proposedStop snap rule s = some stop →
    tighter snap.side stop s.slPrice = true →
      AtLeastAsProtective snap.side s.pos.currentSl s.slPrice
  rounded : ∀ stop, proposedStop snap rule s = some stop →
    tighter snap.side stop s.slPrice = true →
      AtLeastAsProtective snap.side s.pos.currentSl
        (t.roundPrice (sendSymbol snap rule s) stop)

/-- A proposal that beats the local copy is tight enough. -/
theorem RuleKeepsStop.proposed {t : InstrumentTables} {a : CycleAnswers} {snap : Snapshot}
    {rule : CycleRule} {s : ManagerState} (hcond : RuleKeepsStop t a snap rule s) {stop : ℚ}
    (hstop : proposedStop snap rule s = some stop)
    (htight : tighter snap.side stop s.slPrice = true) :
    KeepsStop t (sendSymbol snap rule s) snap.side s.pos.currentSl stop :=
  ⟨(hcond.localCopy stop hstop htight).of_tighter htight, hcond.rounded stop hstop htight⟩

/-! ## One operation -/

/-- Invariant of a cycle: the record keeps its side, and all stops so far are
protective. -/
structure StopsKept (t : InstrumentTables) (side : Side) (s : ManagerState) : Prop where
  side : s.pos.side = side
  stops : StopsProtective t s

section Operations

variable {t : InstrumentTables} {side : Side} {s s' : ManagerState}

theorem StopsKept.neutral (h : StopsKept t side s) (hneutral : Neutral s s') :
    StopsKept t side s' where
  side := hneutral.side.trans h.side
  stops := by
    rcases hneutral.appended with ⟨new, hlog, hnew⟩
    intro e he
    rw [hlog] at he
    rcases List.mem_append.mp he with hold | hlater
    · exact h.stops e hold
    · exact (hnew e hlater).protective

/-- Components other than the record's side and the log do not matter. -/
theorem StopsKept.of_eq (h : StopsKept t side s) (hside : s'.pos.side = s.pos.side)
    (hlog : s'.log = s.log) : StopsKept t side s' where
  side := hside.trans h.side
  stops := by
    unfold StopsProtective
    rw [hlog]
    exact h.stops

theorem StopsKept.edit (h : StopsKept t side s) {f : PositionRecord → PositionRecord}
    (hf : (f s.pos).side = s.pos.side) : StopsKept t side (s.edit f) :=
  h.of_eq hf rfl

theorem StopsKept.persist (h : StopsKept t side s) : StopsKept t side s.persist :=
  h.neutral (Neutral.persist s)

/-- A stop may be sent or read that keeps the invariant. -/
theorem StopsKept.emit (h : StopsKept t side s) {e : ApmEvent} (he : e.Protective t) :
    StopsKept t side (s.emit e) where
  side := h.side
  stops := by
    intro e' he'
    rcases List.mem_append.mp he' with hold | hnew
    · exact h.stops e' hold
    · rw [List.mem_singleton.mp hnew]
      exact he

theorem StopsKept.sendStop (h : StopsKept t side s) {symbol : Text} (accepted : Bool) {stop : ℚ}
    (hstop : KeepsStop t symbol side s.pos.currentSl stop) :
    StopsKept t side (s.sendStop symbol accepted stop) := by
  refine h.emit ⟨?_, ?_⟩
  · rw [h.side]
    exact hstop.given
  · rw [h.side]
    exact hstop.reaching

theorem StopsKept.amendStop (h : StopsKept t side s) {symbol : Text} (accepted : Bool) {stop : ℚ}
    (hstop : KeepsStop t symbol side s.pos.currentSl stop) :
    StopsKept t side (s.amendStop symbol accepted stop) := by
  have hsent := h.sendStop accepted hstop
  cases accepted with
  | true => exact hsent.of_eq rfl rfl
  | false => exact hsent

theorem StopsKept.amendAndTrack (h : StopsKept t side s) {symbol : Text} (accepted : Bool)
    {stop : ℚ} (hstop : KeepsStop t symbol side s.pos.currentSl stop) :
    StopsKept t side (amendAndTrack symbol accepted stop s) := by
  have hamended := h.amendStop accepted hstop
  cases accepted with
  | true => exact hamended.of_eq rfl rfl
  | false => exact hamended

theorem StopsKept.updateSl (h : StopsKept t side s) (stop : ℚ) :
    StopsKept t side (s.updateSl stop) := by
  unfold ManagerState.updateSl
  cases s.stored with
  | none => exact h
  | some record =>
      refine ⟨h.side, ?_⟩
      intro e he
      rcases List.mem_append.mp he with hold | hnew
      · exact h.stops e hold
      · rw [List.mem_singleton.mp hnew]
        trivial

/-- Both requests of a breakeven lock replace the same recorded stop. -/
theorem StopsKept.sendWithRetry (h : StopsKept t side s) (b : BreakevenAnswers) {stop : ℚ}
    (hstop : KeepsStop t s.pos.symbol side s.pos.currentSl stop) :
    StopsKept t side (sendWithRetry b stop s) := by
  have hfirst := h.sendStop b.first hstop
  unfold Manager.sendWithRetry
  dsimp only
  split_ifs
  · exact hfirst
  · exact hfirst.sendStop b.retry hstop

theorem StopsKept.moveStopToBreakeven (h : StopsKept t side s) (b : BreakevenAnswers)
    {entryPrice : ℚ}
    (hstop : KeepsStop t s.pos.symbol side s.pos.currentSl (breakevenStop entryPrice)) :
    StopsKept t side (moveStopToBreakeven b entryPrice s) := by
  have hsent := h.sendWithRetry b hstop
  unfold Manager.moveStopToBreakeven
  dsimp only
  split_ifs
  · exact ((hsent.edit rfl).persist).updateSl _
  · exact hsent

theorem StopsKept.lockBreakeven {snap : Snapshot} (h : StopsKept t snap.side s)
    (b : BreakevenAnswers)
    (hstop : s.movedToBe = false → KeepsStop t s.pos.symbol snap.side s.pos.currentSl
      (breakevenStop snap.entryPrice)) :
    StopsKept t snap.side (lockBreakeven b snap s) := by
  unfold Manager.lockBreakeven
  cases hmoved : s.movedToBe with
  | true => exact h
  | false => exact (h.moveStopToBreakeven b (hstop hmoved)).of_eq rfl rfl

end Operations

/-! ## One rule -/

section Rules

variable {t : InstrumentTables} {a : CycleAnswers} {snap : Snapshot} {s : ManagerState}

theorem wickGuard_stops_kept (h : StopsKept t snap.side s)
    (hcond : RuleKeepsStop t a snap .wickGuard s) :
    StopsKept t snap.side (wickGuard snap a.wickClock (a.amend .wickGuard) s).state := by
  have hmarked : StopsKept t snap.side (s.edit ({ · with lastWickGuardTs := a.wickClock })) :=
    h.edit rfl
  unfold wickGuard
  dsimp only
  split_ifs with hfires hdebounced <;> simp only [Flow.state_ret, Flow.state_next]
  · exact (h.edit rfl).persist
  · have hstop := hcond.wick rfl hfires (by simpa using hdebounced)
    have htracked := hmarked.amendAndTrack (a.amend .wickGuard) hstop
    exact (htracked.edit rfl).persist
  · exact h.edit rfl

theorem scaleOutAndLock_stops_kept (h : StopsKept t snap.side s)
    (hcond : RuleKeepsStop t a snap .scaleOutAndLock s) :
    StopsKept t snap.side (scaleOutAndLock (a.reduce .scaleOut) (a.lock .scaleOut) snap s) := by
  unfold scaleOutAndLock
  split_ifs with hdue
  · have hneutral := scaleOutTo_neutral 1 (a.reduce .scaleOut) (1 / 2) s
    apply (h.neutral hneutral).lockBreakeven
    intro hmoved
    rw [hneutral.movedToBe] at hmoved
    rw [hneutral.currentSl, hneutral.symbol]
    exact hcond.lock ⟨hdue, hmoved⟩
  · exact h

theorem cvdOrTrendTiers_stops_kept (h : StopsKept t snap.side s)
    (hcond : RuleKeepsStop t a snap .cvdOrTrendTiers s) :
    StopsKept t snap.side
      (cvdOrTrendTiers a.reduce (a.lock .cvd) (a.lock .trendTier) a.cvdSlope snap s) := by
  rcases cvdOrTrendTiers_cases a snap s with ⟨hdue, heq⟩ | ⟨-, heq | ⟨tier, site, heq⟩⟩
  · rw [heq]
    exact h.lockBreakeven _ fun _ => hcond.lock hdue
  · rw [heq]
    exact h
  · rw [heq]
    exact h.neutral (scaleOutTo_neutral tier (a.reduce site) (33 / 100) s)

theorem moonBagExit_stops_kept (h : StopsKept t snap.side s)
    (hcond : RuleKeepsStop t a snap .moonBagExit s) :
    StopsKept t snap.side (moonBagExit a.reduce a.moonStop snap s).state := by
  have hreduce : ∀ {s' : ManagerState} (symbol : Text) (qty : ℚ) (accepted : Bool),
      StopsKept t snap.side s' → StopsKept t snap.side (s'.sendReduce symbol qty accepted) :=
    fun symbol qty accepted h' => h'.neutral (Neutral.emit _ rfl)
  have hstarted : StopsKept t snap.side (moonBagStarted snap s) := (hreduce _ _ true h).edit rfl
  have htracked : moonBagDue snap s.pos = true → a.reduce .moonBag = true → ∀ accepted,
      StopsKept t snap.side
        (amendAndTrack (snap.symbol.without '/') accepted (breakevenStop snap.entryPrice)
          (moonBagStarted snap s)) :=
    fun hdue hclosed accepted => hstarted.amendAndTrack accepted (hcond.lock ⟨hdue, hclosed⟩)
  cases moonBagExit_outcome a.reduce a.moonStop snap s with
  | idle _ hflow => rw [hflow]; exact h
  | refused _ _ hflow => rw [hflow]; exact hreduce _ _ false h
  | started hdue hclosed _ hflow => rw [hflow]; exact htracked hdue hclosed true
  | unprotected rest hdue hclosed _ _ hflow =>
      rw [hflow]
      exact hreduce _ rest false (htracked hdue hclosed false)
  | closed rest hdue hclosed _ _ hflow =>
      rw [hflow, Flow.state_ret]
      exact (hreduce _ rest true (htracked hdue hclosed false)).edit rfl

theorem moonTrailing_stops_kept (h : StopsKept t snap.side s)
    (hcond : RuleKeepsStop t a snap .moonTrailing s) :
    StopsKept t snap.side (moonTrailing snap (a.amend .moonTrailing) s).state := by
  have hedited : ∀ highest,
      StopsKept t snap.side (s.edit ({ · with highestSincePartial := highest })) :=
    fun _ => h.edit rfl
  rcases moonTrailing_cases snap (a.amend .moonTrailing) s with
    ⟨highest, heq | ⟨stop, -, hproposed, htight, heq⟩⟩
  · rw [heq]
    exact hedited highest
  · rw [heq]
    have hlocal : StopsKept t snap.side
        { s.edit ({ · with highestSincePartial := highest }) with slPrice := stop } :=
      (hedited highest).of_eq rfl rfl
    exact hlocal.amendStop _ (hcond.proposed hproposed htight)

theorem breakevenTrigger_stops_kept (h : StopsKept t snap.side s)
    (hcond : RuleKeepsStop t a snap .breakevenTrigger s) :
    StopsKept t snap.side (breakevenTrigger (a.lock .trigger) snap s).state := by
  rcases breakevenTrigger_cases snap s a with ⟨-, heq⟩ | ⟨hdue, heq⟩
  · rw [heq]
    exact h
  · rw [heq]
    exact (h.lockBreakeven (a.lock .trigger) fun _ => hcond.lock hdue).of_eq rfl rfl

theorem halfBreakeven_stops_kept (h : StopsKept t snap.side s)
    (hcond : RuleKeepsStop t a snap .halfBreakeven s) :
    StopsKept t snap.side (halfBreakeven snap (a.amend .halfBreakeven) s) := by
  rcases halfBreakeven_cases snap (a.amend .halfBreakeven) s with
    heq | ⟨stop, moved, hproposed, -, htight, heq⟩
  · rw [heq]
    exact h
  · rw [heq]
    exact (h.amendAndTrack _ (hcond.proposed hproposed htight)).edit rfl

theorem profitProtect_stops_kept (h : StopsKept t snap.side s)
    (hcond : RuleKeepsStop t a snap .profitProtect s) :
    StopsKept t snap.side (profitProtect snap (a.amend .profitProtect) s) := by
  rcases profitProtect_cases snap (a.amend .profitProtect) s with
    heq | ⟨-, hproposed, htight, heq⟩
  · rw [heq]
    exact h
  · rw [heq]
    exact h.amendAndTrack _ (hcond.proposed hproposed htight)

theorem trendTrailing_stops_kept (h : StopsKept t snap.side s)
    (hcond : RuleKeepsStop t a snap .trendTrailing s) :
    StopsKept t snap.side (manageTrendTrailingStop snap (a.amend .trendTrailing) s).state := by
  rcases manageTrendTrailingStop_cases snap (a.amend .trendTrailing) s with
    heq | ⟨stop, hproposed, htight, heq⟩
  · rw [heq]
    exact h
  · rw [heq]
    exact h.amendStop _ (hcond.proposed hproposed htight)

/-- Every rule keeps the invariant under its condition. -/
theorem CycleRule.stops_kept (rule : CycleRule) (h : StopsKept t snap.side s)
    (hcond : RuleKeepsStop t a snap rule s) :
    (rule.block a snap s).Ends (StopsKept t snap.side) (StopsKept t snap.side) := by
  have hstate : StopsKept t snap.side (rule.block a snap s).state := by
    cases rule with
    | wickGuard => exact wickGuard_stops_kept h hcond
    | scaleOutAndLock => exact scaleOutAndLock_stops_kept h hcond
    | cvdOrTrendTiers => exact cvdOrTrendTiers_stops_kept h hcond
    | moonBagExit => exact moonBagExit_stops_kept h hcond
    | moonTrailing => exact moonTrailing_stops_kept h hcond
    | breakevenTrigger => exact breakevenTrigger_stops_kept h hcond
    | halfBreakeven => exact halfBreakeven_stops_kept h hcond
    | profitProtect => exact profitProtect_stops_kept h hcond
    | trendTrailing => exact trendTrailing_stops_kept h hcond
    | trackPeak | ensureTakeProfit | sniperExhaustion | trailingLimit | timeExit | regimeShift
    | persist => exact h.neutral (CycleRule.neutral a snap rfl s)
  exact Flow.ends_of_state hstate

end Rules

/-! ## The reconcile step -/

/-- The entry price the reconcile step compares the exchange's stop with. -/
def knownEntry (pos : PositionRecord) (p : ExchangePosition) : ℚ :=
  if pos.entryPrice = 0 ∧ 0 < p.entryPrice then p.entryPrice else pos.entryPrice

/-- The exchange's report does not loosen the recorded stop: it still has a stop
when one is recorded, and the stop that would be copied is protective. -/
def ReportsProtective (a : ReconcileAnswers) (pos : PositionRecord) : Prop :=
  ∀ positions p, a.positions = some positions →
    findExchangePosition positions pos.symbol pos.side = some p →
      (p.stopLoss = 0 → pos.currentSl ≤ 0) ∧
        (p.stopLoss ≠ 0 → onLosingSide pos.side (knownEntry pos p) p.stopLoss = true →
          AtLeastAsProtective pos.side pos.currentSl p.stopLoss)

section Reconcile

variable {t : InstrumentTables} {side : Side} {a : ReconcileAnswers} {s : ManagerState}
  {r : Reconciled}

theorem StopsKept.recordRead (h : StopsKept t side s) {stop : ℚ}
    (hstop : AtLeastAsProtective side s.pos.currentSl stop) :
    StopsKept t side (recordRead s stop) := by
  have hread : ApmEvent.Protective t
      (.stopRead ⟨s.pos.symbol, s.pos.side, s.pos.currentSl, stop⟩) := by
    rw [h.side]
    exact hstop
  exact (h.emit hread).edit rfl

/-- Filling the entry price and the amount leaves the stop and the side alone. -/
theorem fillFields_cases (p : ExchangePosition) (s : ManagerState) :
    let filled := fillAmount p (fillEntryPrice p ⟨s, false⟩)
    filled.state.pos.side = s.pos.side ∧ filled.state.pos.currentSl = s.pos.currentSl ∧
      filled.state.pos.entryPrice = knownEntry s.pos p ∧ filled.state.log = s.log := by
  unfold fillAmount fillEntryPrice knownEntry
  dsimp only
  split_ifs <;> simp [Reconciled.update, ManagerState.edit]

theorem readExchange_stops_kept (p : ExchangePosition) (h : StopsKept t s.pos.side s)
    (hmissing : p.stopLoss = 0 → s.pos.currentSl ≤ 0)
    (hcopied : p.stopLoss ≠ 0 → onLosingSide s.pos.side (knownEntry s.pos p) p.stopLoss = true →
      AtLeastAsProtective s.pos.side s.pos.currentSl p.stopLoss) :
    StopsKept t s.pos.side (readExchange p ⟨s, false⟩).state := by
  rcases fillFields_cases p s with ⟨hside, hsl, hentry, hlog⟩
  have hfilled : StopsKept t s.pos.side (fillAmount p (fillEntryPrice p ⟨s, false⟩)).state :=
    h.of_eq hside hlog
  have hread : StopsKept t s.pos.side
      (readStop p (fillAmount p (fillEntryPrice p ⟨s, false⟩))).state := by
    unfold readStop
    dsimp only
    split_ifs with hreported hlosing hrecorded
    · rw [hside, hentry] at hlosing
      refine hfilled.recordRead ?_
      rw [hsl]
      exact hcopied hreported hlosing.2
    · exact hfilled
    · refine hfilled.recordRead ?_
      rw [hsl]
      exact AtLeastAsProtective.of_nonpos (hmissing (not_not.mp hreported))
    · exact hfilled
  exact hread.neutral (readTakeProfit_neutral p _)

theorem placeMissingStop_stops_kept (a : ReconcileAnswers) (h : StopsKept t side r.state) :
    StopsKept t side (placeMissingStop a r).state := by
  cases placeMissingStop_outcome a r with
  | idle hstate => rw [hstate]; exact h
  | sent hmissing accepted hstate =>
      rw [hstate]
      exact h.amendStop accepted (.of_nonpos hmissing)
  | retried hmissing accepted hstate =>
      have hnone : KeepsStop t r.state.pos.symbol side r.state.pos.currentSl
          (emergencyStop r.state.pos) := .of_nonpos hmissing
      rw [hstate]
      exact (h.amendStop false hnone).amendStop accepted hnone

theorem repairRecord_stops_kept (h : StopsKept t side r.state) :
    StopsKept t side (repairRecord a r) := by
  have hcomputed := h.neutral (computedFields_neutral a r)
  have hstop := placeMissingStop_stops_kept a hcomputed
  have htake := hstop.neutral (placeMissingTakeProfit_neutral a _)
  exact htake.neutral (persistChanges_neutral _)

theorem reconcilePosition_stops_kept (h : StopsKept t s.pos.side s)
    (hcond : ReportsProtective a s.pos) : StopsKept t s.pos.side (reconcilePosition a s) := by
  unfold reconcilePosition
  cases hpositions : a.positions with
  | none => exact repairRecord_stops_kept h
  | some positions =>
      dsimp only
      cases hfound : findExchangePosition positions s.pos.symbol s.pos.side with
      | none => exact (h.neutral (Neutral.remove s)).of_eq rfl rfl
      | some p =>
          rcases hcond positions p hpositions hfound with ⟨hmissing, hcopied⟩
          exact repairRecord_stops_kept (readExchange_stops_kept p h hmissing hcopied)

end Reconcile

/-! ## Runs of cycles -/

/-- Condition of one cycle: outside the cooldown the exchange reports a stop that
is no looser, and every rule that is reached meets its condition. -/
structure CycleKeepsStops (t : InstrumentTables) (a : CycleAnswers) (s : ManagerState) :
    Prop where
  reported : inCooldown a s.pos = false → ReportsProtective a.reconcile s.pos
  rules : reachesRules a s = true →
    Flow.Met (CycleRule.block a (snapshot (rulesStart a s).pos))
      (RuleKeepsStop t a (snapshot (rulesStart a s).pos)) cycleOrder (rulesStart a s)

/-- The condition for the stored record a cycle starts from, if there is one. -/
def InputKeepsStops (t : InstrumentTables) (s : ManagerState) (input : CycleInput) : Prop :=
  ∀ record, s.stored = some record →
    CycleKeepsStops t input.answers (startCycle input.live record s)

variable {t : InstrumentTables}

/-- The reconcile step, followed by reading the local variables. -/
theorem rulesStart_stops_kept {a : CycleAnswers} {s : ManagerState}
    (h : StopsKept t s.pos.side s) (hcond : ReportsProtective a.reconcile s.pos) :
    StopsKept t s.pos.side (rulesStart a s) :=
  (reconcilePosition_stops_kept h hcond).of_eq rfl rfl

/-- One cycle. -/
theorem manageSinglePosition_stops_protective {a : CycleAnswers} {s : ManagerState}
    (h : StopsProtective t s) (hcond : CycleKeepsStops t a s) :
    StopsProtective t (manageSinglePosition a s) := by
  have hstart : StopsKept t s.pos.side s := ⟨rfl, h⟩
  rcases manageSinglePosition_cases a s with ⟨-, hskipped⟩ | ⟨hcooldown, -, hended⟩ |
    ⟨hreached, hran⟩
  · rw [hskipped]
    exact h
  · rw [hended]
    exact (rulesStart_stops_kept hstart (hcond.reported hcooldown)).stops
  · have hcooldown : inCooldown a s.pos = false := by
      simp only [reachesRules, Bool.and_eq_true, Bool.not_eq_true'] at hreached
      exact hreached.1.1
    have hread := rulesStart_stops_kept hstart (hcond.reported hcooldown)
    have hkept : StopsKept t (snapshot (rulesStart a s).pos).side (rulesStart a s) :=
      ⟨rfl, hread.stops⟩
    have hends := (hcond.rules hreached).ends
      (fun rule _ hinv hrule => rule.stops_kept hinv hrule) hkept
    rw [hran]
    exact (hends.state fun _ hinv => hinv).stops

/-- One pass of the monitoring loop. -/
theorem manage_step_stops_protective (s : ManagerState) (input : CycleInput)
    (h : StopsProtective t s) (hcond : InputKeepsStops t s input) :
    StopsProtective t (manage s input) := by
  unfold manage
  cases hstored : s.stored with
  | none => exact h
  | some record => exact manageSinglePosition_stops_protective h (hcond record hstored)

/-- In a run whose cycles meet their conditions, no stop that was ever sent or
recorded loosens the recorded stop it replaces. -/
theorem manage_stops_protective (t : InstrumentTables) (record : PositionRecord)
    (inputs : List CycleInput)
    (hadmits : Admits manage (InputKeepsStops t) (.ofRecord record) inputs) (n : Nat) :
    StopsProtective t (run manage (.ofRecord record) (inputs.take n)) := by
  have hinit : StopsProtective t (.ofRecord record) := fun _ he => absurd he List.not_mem_nil
  exact invariant_run_take manage_step_stops_protective hinit hadmits n

/-- A long position entered at 100, last seen at 110. -/
def seenAtTop (stop : ℚ) : PositionRecord :=
  { samplePosition with currentSl := stop, lastTickPrice := some 110 }

/-- The price drops to 106.123 with the stop still at 98; the wick guard sends 104.531155, which
reaches the exchange as 104.53. -/
theorem manage_stops_protective_on_drop :
    StopsProtective .empty (run manage (.ofRecord (seenAtTop 98))
      ([⟨some (106123 / 1000), acceptingAnswers (holdingReport .Buy 98)⟩].take 1)) := by
  apply manage_stops_protective
  refine ⟨?_, trivial⟩
  rintro record hrecord
  obtain rfl : seenAtTop 98 = record := Option.some.inj hrecord
  refine ⟨?_, fun _ => ⟨⟨?_, ?_, ?_, ?_⟩, ?_⟩⟩
  · rintro - positions p hpositions hfound
    obtain rfl := Option.some.inj hpositions
    obtain rfl := Option.some.inj hfound
    exact ⟨fun hnone => absurd hnone (by decide +kernel), fun _ _ => by decide +kernel⟩
  · intro _ _ _
    constructor
    · decide +kernel
    · decide +kernel
  · exact False.elim
  · intro stop hstop
    simp [proposedStop] at hstop
  · intro stop hstop
    simp [proposedStop] at hstop
  · intro s' hnext
    have hret : ∀ flow : Flow ManagerState, flow = .ret flow.state → flow ≠ .next s' := by
      rintro flow hflow hnext
      rw [hflow] at hnext
      cases hnext
    exact absurd hnext (hret _ (by decide +kernel))

/-- With the stop at 105, a drop to 106.5 makes the wick guard send 104.9025.  At 0.1274 the moon
bag gets a stop at 0.1237085, which the client rounds to 0.12 under the symbol without slash. -/
theorem manage_stops_loosen :
    (¬ StopsProtective .empty (run manage (.ofRecord (seenAtTop 105))
        [⟨some (213 / 2), acceptingAnswers (holdingReport .Buy 105)⟩])) ∧
      ¬ StopsProtective dogeTables (run manage (.ofRecord dogePosition)
        [⟨some (1274 / 10000), acceptingAnswers dogeReport⟩]) := by
  constructor
  · decide +kernel
  · decide +kernel

end Manager
end Karsa
