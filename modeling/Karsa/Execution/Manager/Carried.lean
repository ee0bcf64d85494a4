import Karsa.Execution.Manager.Cycle

/-!
# Active position manager - Fields that a cycle carries along

The average true range, the entry regime and the scale-out tier of a record are read by many
rules of a cycle.  The reconcile step fills the first two where they are missing, and two rules
raise the tier; every other rule carries them along, in memory and in the store.

Main results:

- Theorem `Carries.rule`: a rule that takes no tier carries the fields along.
- Theorem `Carries.manageSinglePosition`: so does a cycle, for what neither the reconcile step
  nor a tier changes.
-/

namespace Karsa
namespace Manager

open Bybit

/-- The fields that are carried along. -/
structure BaseView where
  atr : Option (Numeral ℚ)
  entryRegime : Option Text
  scaleTier : Nat

end Manager

/-- These fields of a record. -/
def PositionRecord.baseView (pos : PositionRecord) : Manager.BaseView where
  atr := pos.atr
  entryRegime := pos.entryRegime
  scaleTier := pos.scaleTier

namespace Manager

open Bybit

/-- The record in memory has the first property and the stored one has the second. -/
structure Carries (P Q : BaseView → Prop) (s : ManagerState) : Prop where
  pos : P s.pos.baseView
  stored : ∀ r ∈ s.stored, Q r.baseView

namespace Carries

variable {P Q : BaseView → Prop} {s : ManagerState}

theorem of_eq {s' : ManagerState} (h : Carries P Q s) (hpos : s'.pos.baseView = s.pos.baseView)
    (hstored : s'.stored = s.stored) : Carries P Q s' := by
  refine ⟨?_, ?_⟩
  · rw [hpos]
    exact h.pos
  · rw [hstored]
    exact h.stored

theorem edit (h : Carries P Q s) {f : PositionRecord → PositionRecord}
    (hf : (f s.pos).baseView = s.pos.baseView) : Carries P Q (s.edit f) :=
  h.of_eq hf rfl

theorem emit (h : Carries P Q s) (e : ApmEvent) : Carries P Q (s.emit e) :=
  h.of_eq rfl rfl

theorem remove (h : Carries P Q s) : Carries P Q s.remove := by
  refine ⟨h.pos, ?_⟩
  intro r hr
  simp at hr

theorem updateSl (h : Carries P Q s) (stop : ℚ) : Carries P Q (s.updateSl stop) := by
  unfold ManagerState.updateSl
  cases hstored : s.stored with
  | none => exact h
  | some record =>
      have hrecord := h.stored record hstored
      refine ⟨h.pos, ?_⟩
      intro r hr
      dsimp only at hr
      cases hr
      split_ifs
      · exact hrecord
      · exact hrecord

theorem amendStop (h : Carries P Q s) {symbol : Text} (accepted : Bool) (stop : ℚ) :
    Carries P Q (s.amendStop symbol accepted stop) := by
  unfold ManagerState.amendStop
  dsimp only
  split_ifs
  · exact (h.emit _).edit rfl
  · exact h.emit _

theorem amendAndTrack (h : Carries P Q s) (symbol : Text) (accepted : Bool) (stop : ℚ) :
    Carries P Q (amendAndTrack symbol accepted stop s) := by
  unfold Manager.amendAndTrack
  dsimp only
  split_ifs
  · exact (h.amendStop accepted stop).of_eq rfl rfl
  · exact h.amendStop accepted stop

theorem sendWithRetry (h : Carries P Q s) (b : BreakevenAnswers) (stop : ℚ) :
    Carries P Q (sendWithRetry b stop s) := by
  unfold Manager.sendWithRetry
  dsimp only
  split_ifs
  · exact h.emit _
  · exact (h.emit _).emit _

theorem scaleOutPosition (h : Carries P Q s) (accepted : Bool) (pct : ℚ) :
    Carries P Q (scaleOutPosition accepted pct s) := by
  unfold Manager.scaleOutPosition
  dsimp only
  split_ifs
  · exact h
  · exact (h.emit _).edit rfl
  · exact h.emit _

theorem called {s' : ManagerState} (h : Carries P Q s) (hcalled : Called s s') :
    Carries P Q s' := by
  rw [hcalled.eq]
  exact h.of_eq rfl rfl

/-- A scale-out sets the tier in memory. -/
theorem scaleOutTo {P' : BaseView → Prop} (h : Carries P Q s) {tier : Nat}
    (htier : ∀ v, P v → P' { v with scaleTier := tier }) (accepted : Bool) (pct : ℚ) :
    Carries P' Q (scaleOutTo tier accepted pct s) := by
  have hscaled := h.scaleOutPosition accepted pct
  exact ⟨htier _ hscaled.pos, hscaled.stored⟩

/-! ### Rules that may write the record -/

section Writing

variable (himp : ∀ v, P v → Q v)
include himp

theorem persist (h : Carries P Q s) : Carries P Q s.persist := by
  refine ⟨h.pos, ?_⟩
  intro r hr
  obtain rfl : s.pos = r := by simpa using hr
  exact himp _ h.pos

theorem moveStopToBreakeven (h : Carries P Q s) (b : BreakevenAnswers) (entryPrice : ℚ) :
    Carries P Q (moveStopToBreakeven b entryPrice s) := by
  have hsent := h.sendWithRetry b (breakevenStop entryPrice)
  unfold Manager.moveStopToBreakeven
  dsimp only
  split_ifs
  · have hmarked : Carries P Q ((Manager.sendWithRetry b (breakevenStop entryPrice) s).edit
        fun pos => { pos.recordStop (breakevenStop entryPrice) with movedToBreakeven := true }) :=
      hsent.edit rfl
    exact (hmarked.persist himp).updateSl _
  · exact hsent

theorem lockBreakeven (h : Carries P Q s) (b : BreakevenAnswers) (snap : Snapshot) :
    Carries P Q (lockBreakeven b snap s) := by
  unfold Manager.lockBreakeven
  split_ifs
  · exact h
  · exact (h.moveStopToBreakeven himp b snap.entryPrice).of_eq rfl rfl

theorem finishClose (h : Carries P Q s) (reason : Text) (fill : ℚ) :
    Carries P Q (finishClose reason fill s) := by
  unfold Manager.finishClose
  split_ifs
  · have hmarked : Carries P Q
        (s.edit ({ · with exitPrice := some fill, exitReason := some reason })) := h.edit rfl
    exact (hmarked.persist himp).remove
  · exact h.remove

theorem forceClosePosition (h : Carries P Q s) (a : CloseAnswers) (reason : Text) :
    Carries P Q (forceClosePosition a reason s) := by
  have hattempt := closeAttempt_called a s
  unfold Manager.forceClosePosition
  rcases hresult : closeAttempt a s with ⟨s', message | fill⟩
  · rw [hresult] at hattempt
    have hleft : Carries P Q s' := h.called hattempt
    have hclock : Carries P Q { s' with forceClosedAt := some a.clock } := hleft.of_eq rfl rfl
    have hretry : Carries P Q (s'.edit ({ · with forceCloseRetryAt := a.clock + 300 })) :=
      hleft.edit rfl
    dsimp only
    split_ifs
    · exact hclock.finishClose himp _ _
    · exact hretry.persist himp
  · rw [hresult] at hattempt
    have hleft : Carries P Q s' := h.called hattempt
    have hclock : Carries P Q { s' with forceClosedAt := some a.clock } := hleft.of_eq rfl rfl
    exact hclock.finishClose himp reason fill

theorem trailingLimit (h : Carries P Q s) (a : LimitAnswers) (close : CloseAnswers)
    (snap : Snapshot) : Carries P Q (trailingLimit a close snap s).state := by
  have hplace : ∀ {s : ManagerState} (price : ℚ), Carries P Q s →
      Carries P Q (placeLimitExit a price s) := by
    intro s price h
    unfold placeLimitExit
    split_ifs
    · cases a.order with
      | ok order => exact (h.emit _).edit rfl
      | error message => exact h.emit _
    · exact h
  have hactive : Carries P Q (activateLimit a.clock snap s) := by
    unfold activateLimit
    split_ifs
    · exact h.edit rfl
    · exact h
  unfold Manager.trailingLimit
  dsimp only
  generalize activateLimit a.clock snap s = s' at hactive
  split_ifs <;> simp only [Flow.state_next, Flow.state_ret]
  · exact (hactive.forceClosePosition himp close _).edit rfl
  · exact ((hactive.emit _).forceClosePosition himp close _).edit rfl
  · exact hplace _ hactive
  · exact hplace _ (hactive.emit _)
  · exact hactive
  · exact hactive

theorem timeExit (h : Carries P Q s) (clock : ℚ) (close : CloseAnswers)
    (snap : Snapshot) : Carries P Q (manageTimeExit clock close snap s).state := by
  unfold manageTimeExit
  cases snap.entryTime with
  | none => exact h
  | some entryTime =>
      have hmemory : Carries P Q
          { s with pos := (timeExitReason clock snap entryTime s.pos).2 } := by
        refine h.of_eq ?_ rfl
        simp only [timeExitReason, apply_ite Prod.snd, apply_ite PositionRecord.baseView]
        simp only [PositionRecord.baseView, ite_self]
      dsimp only
      cases (timeExitReason clock snap entryTime s.pos).1 with
      | none => exact hmemory
      | some reason => exact hmemory.forceClosePosition himp close reason

theorem regimeShift (h : Carries P Q s) (current : Except Text Text)
    (close : CloseAnswers) (snap : Snapshot) :
    Carries P Q (checkRegimeShift current close snap s).state := by
  have hcount : ∀ n, Carries P Q { s with shiftCount := n } := fun n => h.of_eq rfl rfl
  unfold checkRegimeShift
  by_cases hunknown : snap.entryRegime = "UNKNOWN".toList
  · rw [if_pos hunknown]
    exact h
  · rw [if_neg hunknown]
    cases current with
    | error message => exact h
    | ok current =>
        dsimp only
        split_ifs
        · exact hcount 0
        · exact ((hcount (s.shiftCount + 1)).forceClosePosition himp close _).of_eq rfl rfl
        · exact hcount (s.shiftCount + 1)

theorem wickGuard (h : Carries P Q s) (snap : Snapshot) (clock : ℚ) (accepted : Bool) :
    Carries P Q (wickGuard snap clock accepted s).state := by
  have htick : ∀ {s : ManagerState}, Carries P Q s →
      Carries P Q (s.edit ({ · with lastTickPrice := some snap.livePrice })) :=
    fun h => h.edit rfl
  have hnoted : Carries P Q (s.edit ({ · with lastWickGuardTs := clock })) := h.edit rfl
  unfold Manager.wickGuard
  dsimp only
  split_ifs
  · exact (htick h).persist himp
  · exact (htick (hnoted.amendAndTrack _ accepted (tightStop snap))).persist himp
  · exact htick h

omit himp in
theorem moonBagExit (h : Carries P Q s) (reduce : ReduceSite → Bool) (accepted : Bool)
    (snap : Snapshot) : Carries P Q (moonBagExit reduce accepted snap s).state := by
  have hstarted : Carries P Q (moonBagStarted snap s) := (h.emit _).edit rfl
  rcases moonBagExit_outcome reduce accepted snap s with
    ⟨-, hflow⟩ | ⟨-, -, hflow⟩ | ⟨-, -, -, hflow⟩ | ⟨rest, -, -, -, -, hflow⟩ |
    ⟨rest, -, -, -, -, hflow⟩
  · rw [hflow]
    exact h
  · rw [hflow]
    exact h.emit _
  · rw [hflow]
    exact hstarted.amendAndTrack _ true _
  · rw [hflow]
    exact (hstarted.amendAndTrack _ false _).emit _
  · have hsent := (hstarted.amendAndTrack (snap.symbol.without '/') false
      (breakevenStop snap.entryPrice)).emit
      (.reduceSent (snap.symbol.without '/') rest true)
    rw [hflow]
    exact hsent.of_eq rfl rfl

omit himp in
theorem moonTrailing (h : Carries P Q s) (snap : Snapshot) (accepted : Bool) :
    Carries P Q (moonTrailing snap accepted s).state := by
  rcases moonTrailing_cases snap accepted s with ⟨highest, hflow | ⟨stop, -, -, -, hflow⟩⟩
  · rw [hflow]
    exact h.edit rfl
  · have hlocal : Carries P Q
        { s.edit ({ · with highestSincePartial := highest }) with slPrice := stop } :=
      h.of_eq rfl rfl
    rw [hflow]
    exact hlocal.amendStop accepted stop

/-- A rule that takes no tier carries the fields along. -/
theorem rule (h : Carries P Q s) (a : CycleAnswers) (snap : Snapshot) {r : CycleRule}
    (hscale : r ≠ .scaleOutAndLock) (htiers : r ≠ .cvdOrTrendTiers) :
    Carries P Q (r.block a snap s).state := by
  cases r with
  | wickGuard => exact h.wickGuard himp snap _ _
  | trackPeak =>
      have hpeak := h.edit (f := ({ · with peakPrice := some snap.livePrice })) rfl
      unfold CycleRule.block trackPeak
      dsimp only
      split_ifs
      · exact hpeak.of_eq rfl rfl
      · exact h.of_eq rfl rfl
  | ensureTakeProfit =>
      have hsent := h.emit (.takeProfitSent (takeProfitPrice snap) a.takeProfit)
      unfold CycleRule.block ensureTakeProfit
      dsimp only
      split_ifs
      · exact hsent.of_eq rfl rfl
      · exact hsent
      · exact h
  | scaleOutAndLock => exact absurd rfl hscale
  | sniperExhaustion =>
      unfold CycleRule.block sniperExhaustion
      split_ifs
      · exact h
      · exact h
  | cvdOrTrendTiers => exact absurd rfl htiers
  | moonBagExit => exact h.moonBagExit _ _ snap
  | moonTrailing => exact h.moonTrailing snap _
  | trailingLimit => exact h.trailingLimit himp _ _ snap
  | breakevenTrigger =>
      rcases breakevenTrigger_cases snap s a with ⟨-, hflow⟩ | ⟨-, hflow⟩
      · exact h.of_eq (by rw [CycleRule.block, hflow]) (by rw [CycleRule.block, hflow])
      · rw [CycleRule.block, hflow, Flow.state_next]
        exact (h.lockBreakeven himp _ snap).edit rfl
  | halfBreakeven =>
      rw [CycleRule.block, Flow.state_next]
      rcases halfBreakeven_cases snap (a.amend .halfBreakeven) s with
        hsame | ⟨stop, moved, -, -, -, hflow⟩
      · rw [hsame]
        exact h
      · rw [hflow]
        exact (h.amendAndTrack _ _ stop).edit rfl
  | profitProtect =>
      rw [CycleRule.block, Flow.state_next]
      rcases profitProtect_cases snap (a.amend .profitProtect) s with hsame | ⟨-, -, -, hflow⟩
      · rw [hsame]
        exact h
      · rw [hflow]
        exact h.amendAndTrack _ _ _
  | trendTrailing =>
      rw [CycleRule.block]
      rcases manageTrendTrailingStop_cases snap (a.amend .trendTrailing) s with
        hsame | ⟨stop, -, -, hflow⟩
      · rw [hsame]
        exact h
      · rw [hflow]
        exact h.amendStop _ stop
  | timeExit => exact h.timeExit himp _ _ snap
  | regimeShift => exact h.regimeShift himp _ _ snap
  | persist => exact h.persist himp

/-- What no tier changes is carried along by every rule. -/
theorem anyRule (h : Carries P Q s) (htier : ∀ v n, P v → P { v with scaleTier := n })
    (a : CycleAnswers) (snap : Snapshot) (r : CycleRule) :
    Carries P Q (r.block a snap s).state := by
  have hscaled : ∀ tier accepted pct, Carries P Q (Manager.scaleOutTo tier accepted pct s) :=
    fun tier => h.scaleOutTo (fun v hv => htier v tier hv)
  by_cases hscale : r = .scaleOutAndLock
  · rw [hscale, CycleRule.block, scaleOutAndLock, Flow.state_next]
    split_ifs
    · exact (hscaled 1 _ _).lockBreakeven himp _ snap
    · exact h
  · by_cases htiers : r = .cvdOrTrendTiers
    · rw [htiers, CycleRule.block, cvdOrTrendTiers, Flow.state_next]
      split_ifs
      · exact h.lockBreakeven himp _ snap
      · exact h
      · exact (hscaled 1 _ _).lockBreakeven himp _ snap
      · exact hscaled 2 _ _
      · exact h
    · exact h.rule himp a snap hscale htiers

/-- So do the rules of a cycle, one after the other. -/
theorem rules (h : Carries P Q s) (htier : ∀ v n, P v → P { v with scaleTier := n })
    (a : CycleAnswers) (snap : Snapshot) : Carries P Q (runRules a snap s).state := by
  have hblocks : Flow.Spec (Carries P Q) (Flow.blocks (cycleOrder.map (CycleRule.block a snap)))
      (Carries P Q) (Carries P Q) :=
    Flow.Spec.blocks_of_state fun r _ _ hs => hs.anyRule himp htier a snap r
  exact (hblocks s h).state fun _ hs => hs

end Writing

/-! ### The reconcile step -/

section Reconcile

theorem readExchange (h : Carries P Q s) (p : ExchangePosition) :
    Carries P Q (readExchange p ⟨s, false⟩).state := by
  have hentry : ∀ {r : Reconciled}, Carries P Q r.state →
      Carries P Q (fillEntryPrice p r).state := by
    intro r h
    unfold fillEntryPrice
    split_ifs
    · exact h.of_eq rfl rfl
    · exact h
  have hamount : ∀ {r : Reconciled}, Carries P Q r.state → Carries P Q (fillAmount p r).state := by
    intro r h
    unfold fillAmount
    split_ifs
    · exact h.of_eq rfl rfl
    · exact h
  have hstop : ∀ {r : Reconciled}, Carries P Q r.state → Carries P Q (readStop p r).state := by
    intro r h
    unfold readStop
    dsimp only
    split_ifs
    · exact h.of_eq rfl rfl
    · exact h
    · exact h.of_eq rfl rfl
    · exact h
  have htake : ∀ {r : Reconciled}, Carries P Q r.state →
      Carries P Q (readTakeProfit p r).state := by
    intro r h
    unfold readTakeProfit
    split_ifs
    · exact h.of_eq rfl rfl
    · exact h
  exact htake (hstop (hamount (hentry h)))

theorem placeMissingStop {r : Reconciled} (h : Carries P Q r.state) (a : ReconcileAnswers) :
    Carries P Q (placeMissingStop a r).state := by
  rcases placeMissingStop_outcome a r with hstate | ⟨-, accepted, hstate⟩ |
    ⟨-, accepted, hstate⟩
  · rw [hstate]
    exact h
  · rw [hstate]
    exact h.amendStop accepted _
  · rw [hstate]
    exact (h.amendStop false _).amendStop accepted _

theorem placeMissingTakeProfit {r : Reconciled} (h : Carries P Q r.state)
    (a : ReconcileAnswers) : Carries P Q (placeMissingTakeProfit a r).state := by
  unfold Manager.placeMissingTakeProfit
  dsimp only
  split_ifs
  · cases a.takeProfit with
    | ok _ => exact h.of_eq rfl rfl
    | error _ => exact h.of_eq rfl rfl
  · exact h

variable (himp : ∀ v, P v → Q v) (hatr : ∀ v atr, P v → P { v with atr := atr })
include himp hatr

/-- What a filled range does not change is carried through the repair. -/
theorem repairRecord (h : Carries P Q s) (a : ReconcileAnswers) (changed : Bool) :
    Carries P Q (repairRecord a ⟨s, changed⟩) := by
  have hfilled : Carries P Q (fillAtr a ⟨s, changed⟩).state := by
    unfold fillAtr
    split_ifs
    · exact ⟨hatr _ _ h.pos, h.stored⟩
    · exact h
  have hrisk : ∀ {r : Reconciled}, Carries P Q r.state → Carries P Q (fillRisk r).state := by
    intro r h
    unfold fillRisk
    dsimp only
    split_ifs
    · exact h.of_eq rfl rfl
    · exact h
  have htime : Carries P Q (fillEntryTime (fillRisk (fillAtr a ⟨s, changed⟩))).state :=
    (hrisk hfilled).of_eq rfl rfl
  have hplaced := (htime.placeMissingStop a).placeMissingTakeProfit a
  unfold Manager.repairRecord persistChanges
  split_ifs
  · exact hplaced.persist himp
  · exact hplaced

theorem reconcilePosition (h : Carries P Q s) (a : ReconcileAnswers) :
    Carries P Q (reconcilePosition a s) := by
  unfold Manager.reconcilePosition
  cases a.positions with
  | none => exact h.repairRecord himp hatr a false
  | some positions =>
      dsimp only
      cases findExchangePosition positions s.pos.symbol s.pos.side with
      | none => exact h.remove.of_eq rfl rfl
      | some p => exact (h.readExchange p).repairRecord himp hatr a _

/-- The rules of a cycle start with it. -/
theorem rulesStart (h : Carries P Q s) (a : CycleAnswers) : Carries P Q (rulesStart a s) :=
  (h.reconcilePosition himp hatr a.reconcile).of_eq rfl rfl

/-- A cycle carries along what the reconcile step does not fill and no tier changes. -/
theorem manageSinglePosition (h : Carries P Q s)
    (htier : ∀ v n, P v → P { v with scaleTier := n }) (a : CycleAnswers) :
    Carries P Q (manageSinglePosition a s) := by
  have hstart := h.rulesStart himp hatr a
  rcases manageSinglePosition_cases a s with ⟨-, hcycle⟩ | ⟨-, -, hcycle⟩ | ⟨-, hcycle⟩
  · rw [hcycle]
    exact h
  · rw [hcycle]
    exact hstart
  · rw [hcycle]
    exact hstart.rules himp htier a _

end Reconcile

end Carries

end Manager
end Karsa
