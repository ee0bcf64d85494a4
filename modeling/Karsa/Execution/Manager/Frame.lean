import Karsa.Execution.Manager.Cycle

/-!
# Active position manager - Rules that leave the stop alone

Most rules of the management cycle neither send a stop nor touch the fields the
stop rules depend on.  A change of state of that kind is neutral; neutral changes
compose, and each such rule is shown neutral once.

Main results:

- Theorem `forceClosePosition_neutral`: a force close is neutral.
- Theorem `CycleRule.neutral`: so is every rule that is listed as neutral.
-/

namespace Karsa

/-- The fields of a record that the stop rules depend on. -/
structure StopView where
  symbol : Text
  side : Side
  entryPrice : ℚ
  currentSl : ℚ
  movedToBreakeven : Bool
  trancheState : TrancheState
deriving Repr, DecidableEq

/-- These fields of a record. -/
def PositionRecord.stopView (pos : PositionRecord) : StopView where
  symbol := pos.symbol
  side := pos.side
  entryPrice := pos.entryPrice
  currentSl := pos.currentSl
  movedToBreakeven := pos.movedToBreakeven
  trancheState := pos.trancheState

namespace Manager

open Bybit

/-! ## Neutral changes -/

/-- The event is no stop, and a record it writes agrees with the view. -/
def ApmEvent.NeutralFor (view : StopView) : ApmEvent → Prop
  | .stopSent _ _ | .stopRead _ => False
  | .written record => record.stopView = view
  | .takeProfitSent _ _ | .reduceSent _ _ _ | .limitSent _ _ _ | .cancelSent _ _
  | .marketSent _ _ _ | .removed => True

theorem ApmEvent.NeutralFor.of_isCall {view : StopView} {e : ApmEvent} (h : e.isCall = true) :
    e.NeutralFor view := by
  cases e <;> trivial

/-- No stop is sent, and records in memory, written or stored afterwards agree
with the one before on what the stop rules depend on. -/
structure Neutral (s s' : ManagerState) : Prop where
  view : s'.pos.stopView = s.pos.stopView
  slPrice : s'.slPrice = s.slPrice
  movedToBe : s'.movedToBe = s.movedToBe
  appended : Appended (ApmEvent.NeutralFor s.pos.stopView) s.log s'.log
  stored : ∀ r, s'.stored = some r → s.stored = some r ∨ r.stopView = s.pos.stopView

namespace Neutral

theorem symbol {s s' : ManagerState} (h : Neutral s s') : s'.pos.symbol = s.pos.symbol :=
  congrArg StopView.symbol h.view

theorem side {s s' : ManagerState} (h : Neutral s s') : s'.pos.side = s.pos.side :=
  congrArg StopView.side h.view

theorem entryPrice {s s' : ManagerState} (h : Neutral s s') :
    s'.pos.entryPrice = s.pos.entryPrice :=
  congrArg StopView.entryPrice h.view

theorem currentSl {s s' : ManagerState} (h : Neutral s s') :
    s'.pos.currentSl = s.pos.currentSl :=
  congrArg StopView.currentSl h.view

theorem movedToBreakeven {s s' : ManagerState} (h : Neutral s s') :
    s'.pos.movedToBreakeven = s.pos.movedToBreakeven :=
  congrArg StopView.movedToBreakeven h.view

theorem trancheState {s s' : ManagerState} (h : Neutral s s') :
    s'.pos.trancheState = s.pos.trancheState :=
  congrArg StopView.trancheState h.view

/-- Neutral changes compose. -/
theorem trans {s s' s'' : ManagerState} (h : Neutral s s') (h' : Neutral s' s'') :
    Neutral s s'' where
  view := h'.view.trans h.view
  slPrice := h'.slPrice.trans h.slPrice
  movedToBe := h'.movedToBe.trans h.movedToBe
  appended := by
    have hsecond := h'.appended
    rw [h.view] at hsecond
    exact h.appended.trans hsecond
  stored := by
    intro r hr
    rcases h'.stored r hr with hold | hview
    · exact h.stored r hold
    · exact Or.inr (hview.trans h.view)

/-- Only the listed components matter. -/
theorem of_eq {s s' : ManagerState} (hpos : s'.pos = s.pos) (hstored : s'.stored = s.stored)
    (hsl : s'.slPrice = s.slPrice) (hmoved : s'.movedToBe = s.movedToBe)
    (hlog : s'.log = s.log) : Neutral s s' where
  view := by rw [hpos]
  slPrice := hsl
  movedToBe := hmoved
  appended := by rw [hlog]; exact Appended.refl _ _
  stored := by rw [hstored]; exact fun _ h => Or.inl h

theorem refl (s : ManagerState) : Neutral s s := of_eq rfl rfl rfl rfl rfl

/-- An edit of other fields is neutral. -/
theorem edit (s : ManagerState) {f : PositionRecord → PositionRecord}
    (hf : (f s.pos).stopView = s.pos.stopView) : Neutral s (s.edit f) where
  view := hf
  slPrice := rfl
  movedToBe := rfl
  appended := Appended.refl _ _
  stored := fun _ h => Or.inl h

/-- An exchange call other than a stop is neutral. -/
theorem emit (s : ManagerState) {e : ApmEvent} (he : e.isCall = true) : Neutral s (s.emit e) where
  view := rfl
  slPrice := rfl
  movedToBe := rfl
  appended := Appended.single (ApmEvent.NeutralFor.of_isCall he)
  stored := fun _ h => Or.inl h

/-- Writing the record back is neutral. -/
theorem persist (s : ManagerState) : Neutral s s.persist where
  view := rfl
  slPrice := rfl
  movedToBe := rfl
  appended := Appended.single rfl
  stored := by
    intro r hr
    obtain rfl : s.pos = r := by simpa using hr
    exact Or.inr rfl

/-- Removing the key is neutral. -/
theorem remove (s : ManagerState) : Neutral s s.remove where
  view := rfl
  slPrice := rfl
  movedToBe := rfl
  appended := Appended.single trivial
  stored := by
    intro r hr
    simp at hr

end Neutral

/-! ## Force close -/

/-- Exchange calls other than stops are neutral. -/
theorem Called.neutral {s s' : ManagerState} (h : Called s s') : Neutral s s' where
  view := by rw [h.eq]
  slPrice := by rw [h.eq]
  movedToBe := by rw [h.eq]
  appended := h.log.mono fun _ he => ApmEvent.NeutralFor.of_isCall he
  stored := by
    rw [h.eq]
    exact fun _ hr => Or.inl hr

theorem finishClose_neutral (reason : Text) (fill : ℚ) (s : ManagerState) :
    Neutral s (finishClose reason fill s) := by
  unfold finishClose
  split_ifs
  · exact ((Neutral.edit s rfl).trans (Neutral.persist _)).trans (Neutral.remove _)
  · exact Neutral.remove s

/-- A force close sends no stop and changes no field the stop rules depend on. -/
theorem forceClosePosition_neutral (a : CloseAnswers) (reason : Text) (s : ManagerState) :
    Neutral s (forceClosePosition a reason s) := by
  have hattempt := (closeAttempt_called a s).neutral
  have hclock : ∀ s' : ManagerState, Neutral s' { s' with forceClosedAt := some a.clock } :=
    fun s' => Neutral.of_eq rfl rfl rfl rfl rfl
  unfold forceClosePosition
  cases hresult : closeAttempt a s with
  | mk s' outcome =>
      rw [hresult] at hattempt
      cases outcome with
      | ok fill =>
          exact (hattempt.trans (hclock s')).trans (finishClose_neutral reason fill _)
      | error message =>
          dsimp only
          split_ifs
          · exact (hattempt.trans (hclock s')).trans (finishClose_neutral reason 0 _)
          · exact hattempt.trans ((Neutral.edit s' rfl).trans (Neutral.persist _))

/-! ## The reconcile step -/

theorem Neutral.update (r : Reconciled) {f : PositionRecord → PositionRecord}
    (hf : (f r.state.pos).stopView = r.state.pos.stopView) : Neutral r.state (r.update f).state :=
  Neutral.edit r.state hf

theorem fillAmount_neutral (p : ExchangePosition) (r : Reconciled) :
    Neutral r.state (fillAmount p r).state := by
  unfold fillAmount
  split_ifs
  · exact Neutral.update r rfl
  · exact Neutral.refl _

theorem readTakeProfit_neutral (p : ExchangePosition) (r : Reconciled) :
    Neutral r.state (readTakeProfit p r).state := by
  have hcopied : Neutral r.state (r.state.edit ({ · with takeProfit := p.takeProfit })) :=
    Neutral.edit r.state rfl
  unfold readTakeProfit
  split_ifs
  · exact hcopied
  · exact Neutral.refl _

theorem fillAtr_neutral (a : ReconcileAnswers) (r : Reconciled) :
    Neutral r.state (fillAtr a r).state := by
  unfold fillAtr
  split_ifs
  · exact Neutral.update r rfl
  · exact Neutral.refl _

theorem fillRisk_neutral (r : Reconciled) : Neutral r.state (fillRisk r).state := by
  unfold fillRisk
  dsimp only
  split_ifs
  · exact Neutral.update r rfl
  · exact Neutral.refl _

/-- The fields computed locally are none that the stop rules depend on. -/
theorem computedFields_neutral (a : ReconcileAnswers) (r : Reconciled) :
    Neutral r.state (fillEntryTime (fillRisk (fillAtr a r))).state := by
  have htime : ∀ r : Reconciled, Neutral r.state (fillEntryTime r).state := by
    intro r
    have hedit : Neutral r.state
        (r.state.edit fun pos => { pos with entryTime := pos.entryTime.or pos.enteredAt }) :=
      Neutral.edit r.state rfl
    exact hedit
  exact ((fillAtr_neutral a r).trans (fillRisk_neutral _)).trans (htime _)

theorem placeMissingTakeProfit_neutral (a : ReconcileAnswers) (r : Reconciled) :
    Neutral r.state (placeMissingTakeProfit a r).state := by
  have hsent : ∀ price accepted, Neutral r.state (r.state.emit (.takeProfitSent price accepted)) :=
    fun price accepted => Neutral.emit r.state rfl
  unfold placeMissingTakeProfit
  dsimp only
  split_ifs
  · cases a.takeProfit with
    | ok _ => exact (hsent _ true).trans (Neutral.update ⟨r.state.emit _, r.changed⟩ rfl)
    | error _ => exact hsent _ false
  · exact Neutral.refl _

theorem persistChanges_neutral (r : Reconciled) : Neutral r.state (persistChanges r) := by
  unfold persistChanges
  split_ifs
  · exact Neutral.persist r.state
  · exact Neutral.refl _

/-! ## Neutral rules -/

theorem scaleOutPosition_neutral (accepted : Bool) (pct : ℚ) (s : ManagerState) :
    Neutral s (scaleOutPosition accepted pct s) := by
  unfold scaleOutPosition
  dsimp only
  split_ifs
  · exact Neutral.refl s
  · exact (Neutral.emit s rfl).trans (Neutral.edit _ rfl)
  · exact Neutral.emit s rfl

theorem scaleOutTo_neutral (tier : Nat) (accepted : Bool) (pct : ℚ) (s : ManagerState) :
    Neutral s (scaleOutTo tier accepted pct s) :=
  (scaleOutPosition_neutral accepted pct s).trans (Neutral.edit _ rfl)

/-- The tiers lock breakeven, or scale out without a lock, or do nothing. -/
theorem cvdOrTrendTiers_cases (a : CycleAnswers) (snap : Snapshot) (s : ManagerState) :
    (locksBreakeven a snap .cvdOrTrendTiers s ∧
        cvdOrTrendTiers a.reduce (a.lock .cvd) (a.lock .trendTier) a.cvdSlope snap s =
          lockBreakeven (a.lock .cvd) snap s) ∨
      (¬ locksBreakeven a snap .cvdOrTrendTiers s ∧
        (cvdOrTrendTiers a.reduce (a.lock .cvd) (a.lock .trendTier) a.cvdSlope snap s = s ∨
          ∃ tier site, cvdOrTrendTiers a.reduce (a.lock .cvd) (a.lock .trendTier) a.cvdSlope
            snap s = scaleOutTo tier (a.reduce site) (33 / 100) s)) := by
  unfold cvdOrTrendTiers
  by_cases hcvd : 8 / 10 ≤ snap.rMult ∧ s.movedToBe = false
  · rw [if_pos hcvd]
    by_cases hslope : cvdExhausted snap a.cvdSlope = true
    · exact Or.inl ⟨⟨hcvd.1, hcvd.2, hslope⟩, if_pos hslope⟩
    · exact Or.inr ⟨fun hdue => hslope hdue.2.2, Or.inl (if_neg hslope)⟩
  · rw [if_neg hcvd]
    refine Or.inr ⟨fun hdue => hcvd ⟨hdue.1, hdue.2.1⟩, ?_⟩
    split_ifs with hfirst hsecond
    · -- at 1.5R the lock of the first tier finds breakeven already locked
      have hmoved : s.movedToBe = true := by
        by_contra hopen
        exact hcvd ⟨by linarith [hfirst.2], by simpa using hopen⟩
      have hneutral := scaleOutTo_neutral 1 (a.reduce .trendFirst) (33 / 100) s
      refine Or.inr ⟨1, .trendFirst, ?_⟩
      rw [lockBreakeven, if_pos (hneutral.movedToBe.trans hmoved)]
    · exact Or.inr ⟨2, .trendSecond, rfl⟩
    · exact Or.inl rfl

theorem trackPeak_neutral (snap : Snapshot) (s : ManagerState) :
    Neutral s (trackPeak snap s).state := by
  have hpeak : Neutral s (s.edit ({ · with peakPrice := some snap.livePrice })) :=
    Neutral.edit s rfl
  unfold trackPeak
  dsimp only
  split_ifs
  · exact hpeak.trans (Neutral.of_eq rfl rfl rfl rfl rfl)
  · exact Neutral.of_eq rfl rfl rfl rfl rfl

theorem ensureTakeProfit_neutral (accepted : Bool) (snap : Snapshot) (s : ManagerState) :
    Neutral s (ensureTakeProfit accepted snap s).state := by
  unfold ensureTakeProfit
  dsimp only
  split_ifs <;> simp only [Flow.state_next]
  · exact (Neutral.emit s rfl).trans (Neutral.edit _ rfl)
  · exact Neutral.emit s rfl
  · exact Neutral.refl s

theorem sniperExhaustion_neutral (reply : Option KlineResult) (rsiExtreme : Bool)
    (snap : Snapshot) (s : ManagerState) :
    Neutral s (sniperExhaustion reply rsiExtreme snap s).state := by
  unfold sniperExhaustion
  split_ifs <;> exact Neutral.refl s

theorem placeLimitExit_neutral (a : LimitAnswers) (price : ℚ) (s : ManagerState) :
    Neutral s (placeLimitExit a price s) := by
  unfold placeLimitExit
  split_ifs
  · cases a.order with
    | ok order => exact (Neutral.emit s rfl).trans (Neutral.edit _ rfl)
    | error message => exact Neutral.emit s rfl
  · exact Neutral.refl s

theorem cancelLimit_neutral (a : LimitAnswers) (s : ManagerState) :
    Neutral s (cancelLimit a s) :=
  Neutral.emit s rfl

theorem activateLimit_neutral (clock : ℚ) (snap : Snapshot) (s : ManagerState) :
    Neutral s (activateLimit clock snap s) := by
  unfold activateLimit
  split_ifs
  · exact Neutral.edit s rfl
  · exact Neutral.refl s

theorem trailingLimit_neutral (a : LimitAnswers) (close : CloseAnswers) (snap : Snapshot)
    (s : ManagerState) : Neutral s (trailingLimit a close snap s).state := by
  have hactive := activateLimit_neutral a.clock snap s
  unfold trailingLimit
  dsimp only
  generalize activateLimit a.clock snap s = s' at hactive
  split_ifs <;> simp only [Flow.state_next, Flow.state_ret]
  · exact (hactive.trans (forceClosePosition_neutral close _ s')).trans (Neutral.edit _ rfl)
  · exact ((hactive.trans (cancelLimit_neutral a s')).trans
      (forceClosePosition_neutral close _ _)).trans (Neutral.edit _ rfl)
  · exact hactive.trans (placeLimitExit_neutral a _ s')
  · exact (hactive.trans (cancelLimit_neutral a s')).trans (placeLimitExit_neutral a _ _)
  · exact hactive
  · exact hactive

/-- The memory of the best R-multiple is no field the stop rules depend on. -/
theorem timeExitReason_stopView (clock : ℚ) (snap : Snapshot) (entryTime : ℚ)
    (pos : PositionRecord) :
    (timeExitReason clock snap entryTime pos).2.stopView = pos.stopView := by
  unfold timeExitReason
  dsimp only
  split_ifs <;> rfl

theorem manageTimeExit_neutral (clock : ℚ) (close : CloseAnswers) (snap : Snapshot)
    (s : ManagerState) : Neutral s (manageTimeExit clock close snap s).state := by
  unfold manageTimeExit
  cases snap.entryTime with
  | none => exact Neutral.refl s
  | some entryTime =>
      have hmemory : Neutral s
          (s.edit fun pos => (timeExitReason clock snap entryTime pos).2) :=
        Neutral.edit s (timeExitReason_stopView clock snap entryTime s.pos)
      dsimp only
      cases (timeExitReason clock snap entryTime s.pos).1 with
      | none => exact hmemory
      | some reason => exact hmemory.trans (forceClosePosition_neutral close reason _)

theorem checkRegimeShift_neutral (current : Except Text Text) (close : CloseAnswers)
    (snap : Snapshot) (s : ManagerState) :
    Neutral s (checkRegimeShift current close snap s).state := by
  have hcount : ∀ n, Neutral s { s with shiftCount := n } :=
    fun n => Neutral.of_eq rfl rfl rfl rfl rfl
  unfold checkRegimeShift
  by_cases hunknown : snap.entryRegime = "UNKNOWN".toList
  · rw [if_pos hunknown]
    exact Neutral.refl s
  · rw [if_neg hunknown]
    cases current with
    | error message => exact Neutral.refl s
    | ok current =>
        dsimp only
        split_ifs
        · exact hcount 0
        · exact ((hcount (s.shiftCount + 1)).trans (forceClosePosition_neutral close _ _)).trans
            (Neutral.of_eq rfl rfl rfl rfl rfl)
        · exact hcount (s.shiftCount + 1)

/-- The rules that neither send a stop nor change what the stop rules depend on. -/
def CycleRule.isNeutral : CycleRule → Bool
  | trackPeak | ensureTakeProfit | sniperExhaustion | trailingLimit | timeExit | regimeShift
  | persist => true
  | wickGuard | scaleOutAndLock | cvdOrTrendTiers | moonBagExit | moonTrailing
  | breakevenTrigger | halfBreakeven | profitProtect | trendTrailing => false

/-- They are neutral. -/
theorem CycleRule.neutral (a : CycleAnswers) (snap : Snapshot) {rule : CycleRule}
    (hrule : rule.isNeutral = true) (s : ManagerState) :
    Neutral s (rule.block a snap s).state := by
  cases rule with
  | trackPeak => exact trackPeak_neutral snap s
  | ensureTakeProfit => exact ensureTakeProfit_neutral a.takeProfit snap s
  | sniperExhaustion => exact sniperExhaustion_neutral a.klines a.rsiExtreme snap s
  | trailingLimit => exact trailingLimit_neutral a.limit (a.close .limitTimeout) snap s
  | timeExit => exact manageTimeExit_neutral a.exitClock (a.close .timeExit) snap s
  | regimeShift => exact checkRegimeShift_neutral a.currentRegime (a.close .regimeShift) snap s
  | persist => exact Neutral.persist s
  | wickGuard | scaleOutAndLock | cvdOrTrendTiers | moonBagExit | moonTrailing
  | breakevenTrigger | halfBreakeven | profitProtect | trendTrailing =>
      simp [CycleRule.isNeutral] at hrule

end Manager
end Karsa
