import Karsa.Execution.Manager.Frame
import Karsa.Execution.Manager.Tasks

/-!
# Active position manager - Locked positions do not lose

`moved_to_breakeven` and the tranche `MOON_BAG_ACTIVE` promise that the position
has a stop at or behind which nothing is lost.  The promise is broken for every
short, whose breakeven stop lies above the entry, by the late lock and the moon
bag, which raise their marks without an accepted stop, by rules that overwrite
the stop of a locked record, and where the client rounds a stop beyond the entry.
For every step there is a condition that excludes these cases; in a run that meets
them each written record keeps its promise.

Main results:

- Theorem `CycleRule.lock_kept`: one rule under its condition.
- Theorem `act_locks_honest`: all steps of a run.
-/

namespace Karsa
namespace Manager

open Bybit

/-! ## The promise -/

/-- Is the position marked as one that can no longer lose? -/
def Locked (pos : PositionRecord) : Prop :=
  pos.movedToBreakeven = true ∨ pos.trancheState = .MOON_BAG_ACTIVE

instance (pos : PositionRecord) : Decidable (Locked pos) :=
  inferInstanceAs (Decidable (_ ∨ _))

/-- Closing at the stop loses nothing. -/
def Winning (side : Side) (entryPrice stop : ℚ) : Prop :=
  match side with
  | .LONG => entryPrice ≤ stop
  | .SHORT => stop ≤ entryPrice

instance (side : Side) (entryPrice stop : ℚ) : Decidable (Winning side entryPrice stop) := by
  unfold Winning
  cases side <;> infer_instance

/-- Neither the stop nor what the client rounds it to under the symbol loses. -/
structure WinsRounded (t : InstrumentTables) (symbol : Text) (side : Side)
    (entryPrice stop : ℚ) : Prop where
  given : Winning side entryPrice stop
  reaching : Winning side entryPrice (t.roundPrice symbol stop)

/-- Gross profit of closing the recorded amount at the recorded stop. -/
def grossPnl (pos : PositionRecord) : ℚ :=
  match pos.side with
  | .LONG => (pos.currentSl - pos.entryPrice) * pos.amount
  | .SHORT => (pos.entryPrice - pos.currentSl) * pos.amount

/-- A winning stop is one at which the gross profit is not negative. -/
theorem grossPnl_nonneg_iff {pos : PositionRecord} (hamount : 0 < pos.amount) :
    0 ≤ grossPnl pos ↔ Winning pos.side pos.entryPrice pos.currentSl := by
  unfold grossPnl Winning
  cases pos.side with
  | LONG => rw [mul_nonneg_iff_of_pos_right hamount, sub_nonneg]
  | SHORT => rw [mul_nonneg_iff_of_pos_right hamount, sub_nonneg]

/-- The exchange accepts the recorded stop, and the price that reaches it loses nothing. -/
def ApmEvent.Backs (t : InstrumentTables) (pos : PositionRecord) : ApmEvent → Prop
  | .stopSent change accepted =>
      accepted = true ∧ change.new = pos.currentSl ∧
        Winning pos.side pos.entryPrice (change.reaching t)
  | .stopRead _ | .takeProfitSent _ _ | .reduceSent _ _ _ | .limitSent _ _ _ | .cancelSent _ _
  | .marketSent _ _ _ | .written _ | .removed => False

instance (t : InstrumentTables) (pos : PositionRecord) : DecidablePred (ApmEvent.Backs t pos)
  | .stopSent _ _ => inferInstanceAs (Decidable (_ ∧ _ ∧ _))
  | .stopRead _ | .takeProfitSent _ _ | .reduceSent _ _ _ | .limitSent _ _ _ | .cancelSent _ _
  | .marketSent _ _ _ | .written _ | .removed => isFalse id

/-- The recorded stop was accepted and loses nothing, and neither does the accepted price. -/
structure Backed (t : InstrumentTables) (log : List ApmEvent) (pos : PositionRecord) : Prop where
  entry : 0 < pos.entryPrice
  accepted : ∃ e ∈ log, e.Backs t pos
  winning : Winning pos.side pos.entryPrice pos.currentSl

/-- A locked position is backed. -/
def Honest (t : InstrumentTables) (log : List ApmEvent) (pos : PositionRecord) : Prop :=
  Locked pos → Backed t log pos

instance (t : InstrumentTables) (log : List ApmEvent) (pos : PositionRecord) :
    Decidable (Honest t log pos) :=
  haveI : Decidable (Backed t log pos) :=
    decidable_of_iff (0 < pos.entryPrice ∧ (∃ e ∈ log, e.Backs t pos) ∧
        Winning pos.side pos.entryPrice pos.currentSl)
      ⟨fun h => ⟨h.1, h.2.1, h.2.2⟩, fun h => ⟨h.entry, h.accepted, h.winning⟩⟩
  inferInstanceAs (Decidable (_ → _))

/-- Audit of one event: a written record is honest when it is written. -/
def WriteHonest (t : InstrumentTables) (before : List ApmEvent) (e : ApmEvent) : Prop :=
  ∀ record, e = .written record → Honest t before record

/-- The stored record and all records ever written are honest. -/
structure StoreHonest (t : InstrumentTables) (s : ManagerState) : Prop where
  stored : ∀ record, s.stored = some record → Honest t s.log record
  writes : Throughout (WriteHonest t) s.log

/-- So is the record in memory. -/
structure StateHonest (t : InstrumentTables) (s : ManagerState) : Prop
    extends StoreHonest t s where
  pos : Honest t s.log s.pos

variable {t : InstrumentTables}

theorem Locked.of_view {pos pos' : PositionRecord} (h : Locked pos')
    (hview : pos'.stopView = pos.stopView) : Locked pos := by
  have hmoved : pos'.movedToBreakeven = pos.movedToBreakeven :=
    congrArg StopView.movedToBreakeven hview
  have htranche : pos'.trancheState = pos.trancheState := congrArg StopView.trancheState hview
  unfold Locked at h ⊢
  rwa [← hmoved, ← htranche]

/-- Honesty depends on the fields of the stop rules and survives a longer log. -/
theorem Honest.of_view {log log' : List ApmEvent} {pos pos' : PositionRecord}
    (h : Honest t log pos) (hview : pos'.stopView = pos.stopView) (hlog : log ⊆ log') :
    Honest t log' pos' := by
  have hside : pos'.side = pos.side := congrArg StopView.side hview
  have hentry : pos'.entryPrice = pos.entryPrice := congrArg StopView.entryPrice hview
  have hsl : pos'.currentSl = pos.currentSl := congrArg StopView.currentSl hview
  intro hlocked
  rcases h (hlocked.of_view hview) with ⟨hpositive, ⟨e, hmem, hbacks⟩, hwinning⟩
  refine ⟨?_, ⟨e, hlog hmem, ?_⟩, ?_⟩
  · rwa [hentry]
  · cases e with
    | stopSent change accepted =>
        rcases hbacks with ⟨haccepted, hnew, hreaching⟩
        refine ⟨haccepted, hnew.trans hsl.symm, ?_⟩
        rwa [hside, hentry]
    | _ => exact hbacks
  · rwa [hside, hentry, hsl]

theorem Honest.mono {log log' : List ApmEvent} {pos : PositionRecord} (h : Honest t log pos)
    (hlog : log ⊆ log') : Honest t log' pos :=
  h.of_view rfl hlog

/-! ## Operations on the store -/

section Store

variable {s s' : ManagerState}

/-- Events that write nothing do not matter to the store. -/
theorem StoreHonest.of_log (h : StoreHonest t s) (hstored : s'.stored = s.stored)
    {new : List ApmEvent} (hlog : s'.log = s.log ++ new)
    (hnew : ∀ e ∈ new, ∀ record, e ≠ .written record) : StoreHonest t s' where
  stored := by
    intro record hrecord
    rw [hstored] at hrecord
    rw [hlog]
    exact (h.stored record hrecord).mono (List.subset_append_left _ _)
  writes := by
    rw [hlog]
    refine h.writes.append ?_
    intro before e after hsplit record hwritten
    exact absurd hwritten (hnew e (by simp [hsplit]) record)

theorem StoreHonest.sendStop (h : StoreHonest t s) {symbol : Text} (accepted : Bool)
    (stop : ℚ) : StoreHonest t (s.sendStop symbol accepted stop) :=
  h.of_log rfl rfl (by simp)

theorem StoreHonest.amendAndTrack (h : StoreHonest t s) (symbol : Text) (accepted : Bool)
    (stop : ℚ) : StoreHonest t (amendAndTrack symbol accepted stop s) := by
  have hsent : StoreHonest t (s.sendStop symbol accepted stop) := h.sendStop accepted stop
  cases accepted with
  | true => exact ⟨hsent.stored, hsent.writes⟩
  | false => exact hsent

theorem StateHonest.neutral (h : StateHonest t s) (hneutral : Neutral s s') :
    StateHonest t s' := by
  rcases hneutral.appended with ⟨new, hlog, hnew⟩
  have hsub : s.log ⊆ s'.log := hneutral.appended.subset
  refine ⟨⟨?_, ?_⟩, h.pos.of_view hneutral.view hsub⟩
  · intro record hrecord
    rcases hneutral.stored record hrecord with hold | hview
    · exact (h.stored record hold).mono hsub
    · exact h.pos.of_view hview hsub
  · rw [hlog]
    refine h.writes.append ?_
    intro before e after hsplit record hwritten
    have hview := hnew e (by simp [hsplit])
    rw [hwritten] at hview
    exact h.pos.of_view hview (List.subset_append_left _ _)

/-- An edit that leaves the record in memory honest. -/
theorem StateHonest.edit (h : StateHonest t s) {f : PositionRecord → PositionRecord}
    (hf : Honest t s.log (f s.pos)) : StateHonest t (s.edit f) :=
  ⟨⟨h.stored, h.writes⟩, hf⟩

/-- A stop for a locked record must not lose. -/
theorem StateHonest.amendStop (h : StateHonest t s) {symbol : Text} (accepted : Bool) {stop : ℚ}
    (hstop : accepted = true → Locked s.pos →
      WinsRounded t symbol s.pos.side s.pos.entryPrice stop) :
    StateHonest t (s.amendStop symbol accepted stop) := by
  have hsent : StoreHonest t (s.sendStop symbol accepted stop) :=
    h.toStoreHonest.sendStop accepted stop
  have hsub : s.log ⊆ (s.sendStop symbol accepted stop).log := List.subset_append_left _ _
  cases accepted with
  | false => exact ⟨hsent, h.pos.mono hsub⟩
  | true =>
      refine ⟨⟨hsent.stored, hsent.writes⟩, ?_⟩
      intro hlocked
      have hwins := hstop rfl hlocked
      exact ⟨(h.pos hlocked).entry, ⟨_, List.mem_append_right _ List.mem_cons_self, rfl, rfl,
        hwins.reaching⟩, hwins.given⟩

end Store

/-! ## The breakeven lock -/

section Lock

variable {s : ManagerState}

/-- The breakeven stop of a long position loses nothing. -/
theorem breakevenStop_winning {entryPrice : ℚ} (hentry : 0 < entryPrice) :
    Winning .LONG entryPrice (breakevenStop entryPrice) := by
  unfold Winning breakevenStop
  linarith

theorem sendWithRetry_honest (h : StateHonest t s) (b : BreakevenAnswers) (stop : ℚ) :
    StateHonest t (sendWithRetry b stop s) := by
  have hsend : ∀ {s : ManagerState}, StateHonest t s → ∀ symbol accepted,
      StateHonest t (s.sendStop symbol accepted stop) :=
    fun h symbol accepted =>
      ⟨h.toStoreHonest.sendStop accepted stop, h.pos.mono (List.subset_append_left _ _)⟩
  unfold sendWithRetry
  dsimp only
  split_ifs
  · exact hsend h _ b.first
  · exact hsend (hsend h _ b.first) _ b.retry

/-- An accepted lock leaves in the log a stop that backs a record of the same symbol. -/
theorem sendWithRetry_backs {b : BreakevenAnswers} (hb : b.accepted = true)
    {pos : PositionRecord} {stop : ℚ} (s : ManagerState) (hstop : pos.currentSl = stop)
    (hreaching : Winning pos.side pos.entryPrice (t.roundPrice s.pos.symbol stop)) :
    ∃ e ∈ (sendWithRetry b stop s).log, e.Backs t pos := by
  unfold sendWithRetry
  dsimp only
  by_cases hfirst : b.first = true
  · rw [if_pos hfirst, hfirst]
    exact ⟨_, List.mem_append_right _ List.mem_cons_self, rfl, hstop.symm, hreaching⟩
  · have hretry : b.retry = true := by
      simpa [BreakevenAnswers.accepted, hfirst] using hb
    rw [if_neg hfirst, hretry]
    exact ⟨_, List.mem_append_right _ List.mem_cons_self, rfl, hstop.symm, hreaching⟩

/-- Patching a record just written with the stop it already has writes it again. -/
theorem updateSl_persist {stop : ℚ} (hstop : s.pos.currentSl = stop) :
    s.persist.updateSl stop = s.persist.persist := by
  subst hstop
  have hsame : s.pos.recordStop s.pos.currentSl = s.pos := rfl
  simp only [ManagerState.updateSl, ManagerState.persist_stored, hsame, ite_self]
  rfl

/-- A lock is honest when it is refused, and for a long position also when it is
accepted. -/
theorem moveStopToBreakeven_honest (h : StateHonest t s) (b : BreakevenAnswers) {entryPrice : ℚ}
    (hsame : s.pos.entryPrice = entryPrice) (hentry : 0 < entryPrice)
    (hside : b.accepted = true → s.pos.side = .LONG)
    (hrounded : b.accepted = true →
      Winning s.pos.side entryPrice (t.roundPrice s.pos.symbol (breakevenStop entryPrice))) :
    StateHonest t (moveStopToBreakeven b entryPrice s) := by
  have hsent := sendWithRetry_honest h b (breakevenStop entryPrice)
  unfold moveStopToBreakeven
  dsimp only
  by_cases hb : b.accepted = true
  · rw [if_pos hb]
    have hlocked : StateHonest t ((sendWithRetry b (breakevenStop entryPrice) s).edit
        fun pos =>
          { pos.recordStop (breakevenStop entryPrice) with movedToBreakeven := true }) := by
      refine hsent.edit fun _ => ⟨?_, sendWithRetry_backs hb s rfl ?_, ?_⟩
      · simpa [PositionRecord.recordStop, hsame] using hentry
      · simpa [PositionRecord.recordStop, hsame] using hrounded hb
      · simpa [PositionRecord.recordStop, hside hb, hsame] using breakevenStop_winning hentry
    rw [updateSl_persist (by rfl)]
    exact (hlocked.neutral (Neutral.persist _)).neutral (Neutral.persist _)
  · rw [if_neg hb]
    exact hsent

/-- What a lock leaves alone. -/
theorem moveStopToBreakeven_frame (b : BreakevenAnswers) (entryPrice : ℚ) (s : ManagerState) :
    let s' := moveStopToBreakeven b entryPrice s
    s'.pos.side = s.pos.side ∧ s'.pos.entryPrice = s.pos.entryPrice ∧
      s'.pos.trancheState = s.pos.trancheState ∧ s'.slPrice = s.slPrice := by
  have hsl : (sendWithRetry b (breakevenStop entryPrice) s).slPrice = s.slPrice := by
    unfold sendWithRetry
    dsimp only
    split_ifs <;> rfl
  unfold moveStopToBreakeven
  dsimp only
  split_ifs
  · rw [updateSl_persist (by rfl)]
    simp [ManagerState.persist, ManagerState.edit, PositionRecord.recordStop, hsl]
  · simp [hsl]

end Lock

/-! ## One cycle -/

/-- Condition on the state a rule starts in: the wick guard and the trend trailing
send a locked record no losing stop, only a long position is locked with an accepted
stop, the late lock is accepted, a moon bag that is refused its stop is closed, and no
accepted stop of a locked record is rounded beyond the entry. -/
structure RuleKeepsLock (t : InstrumentTables) (a : CycleAnswers) (snap : Snapshot)
    (rule : CycleRule) (s : ManagerState) : Prop where
  wick : rule = .wickGuard → wickFires snap s.pos = true →
    wickDebounced a.wickClock s.pos = false → a.amend .wickGuard = true → Locked s.pos →
      WinsRounded t (sendSymbol snap rule s) snap.side snap.entryPrice (tightStop snap)
  long : locksBreakeven a snap rule s → lockAccepted a rule = true → snap.side = .LONG
  lockRounded : locksBreakeven a snap rule s → lockAccepted a rule = true →
    Winning snap.side snap.entryPrice
      (t.roundPrice (sendSymbol snap rule s) (breakevenStop snap.entryPrice))
  trigger : rule = .breakevenTrigger → locksBreakeven a snap rule s →
    lockAccepted a rule = true
  moonBag : rule = .moonBagExit → locksBreakeven a snap rule s →
    a.moonStop = true ∨ a.reduce .moonBagRest = true
  trend : rule = .trendTrailing → ∀ stop, proposedStop snap rule s = some stop →
    tighter snap.side stop s.slPrice = true → a.amend .trendTrailing = true → Locked s.pos →
      Winning snap.side snap.entryPrice stop
  trailRounded : ∀ stop, proposedStop snap rule s = some stop →
    tighter snap.side stop s.slPrice = true → amendAccepted a rule = true → Locked s.pos →
      Winning snap.side snap.entryPrice (t.roundPrice (sendSymbol snap rule s) stop)

/-- Invariant of a cycle.  Where the moon bag is active the local copy of the stop
loses nothing either; the local flag is up whenever the record's is. -/
structure CycleHonest (t : InstrumentTables) (snap : Snapshot) (s : ManagerState) : Prop
    extends StateHonest t s where
  side : s.pos.side = snap.side
  entry : s.pos.entryPrice = snap.entryPrice
  flag : s.pos.movedToBreakeven = true → s.movedToBe = true
  moonBag : s.pos.trancheState = .MOON_BAG_ACTIVE → Winning snap.side snap.entryPrice s.slPrice
  tranche : snap.trancheState = .MOON_BAG_ACTIVE → s.pos.trancheState = .MOON_BAG_ACTIVE

section Cycle

variable {a : CycleAnswers} {snap : Snapshot} {s s' : ManagerState}

theorem CycleHonest.neutral (h : CycleHonest t snap s) (hneutral : Neutral s s') :
    CycleHonest t snap s' where
  toStateHonest := h.toStateHonest.neutral hneutral
  side := hneutral.side.trans h.side
  entry := hneutral.entryPrice.trans h.entry
  flag := by
    rw [hneutral.movedToBreakeven, hneutral.movedToBe]
    exact h.flag
  moonBag := by
    rw [hneutral.trancheState, hneutral.slPrice]
    exact h.moonBag
  tranche := by
    rw [hneutral.trancheState]
    exact h.tranche

theorem CycleHonest.amendStop (h : CycleHonest t snap s) {symbol : Text} (accepted : Bool)
    {stop : ℚ} (hstop : accepted = true → Locked s.pos →
      WinsRounded t symbol snap.side snap.entryPrice stop) :
    CycleHonest t snap (s.amendStop symbol accepted stop) := by
  have hstate : StateHonest t (s.amendStop symbol accepted stop) := by
    apply h.toStateHonest.amendStop
    rw [h.side, h.entry]
    exact hstop
  cases accepted with
  | true => exact ⟨hstate, h.side, h.entry, h.flag, h.moonBag, h.tranche⟩
  | false => exact ⟨hstate, h.side, h.entry, h.flag, h.moonBag, h.tranche⟩

/-- The local copy may move to a stop that loses nothing. -/
theorem CycleHonest.track (h : CycleHonest t snap s) {stop : ℚ}
    (hstop : s.pos.trancheState = .MOON_BAG_ACTIVE → Winning snap.side snap.entryPrice stop) :
    CycleHonest t snap { s with slPrice := stop } :=
  ⟨⟨⟨h.stored, h.writes⟩, h.pos⟩, h.side, h.entry, h.flag, hstop, h.tranche⟩

theorem CycleHonest.amendAndTrack (h : CycleHonest t snap s) {symbol : Text} (accepted : Bool)
    {stop : ℚ} (hstop : accepted = true → Locked s.pos →
      WinsRounded t symbol snap.side snap.entryPrice stop) :
    CycleHonest t snap (amendAndTrack symbol accepted stop s) := by
  have hamended := h.amendStop accepted hstop
  cases accepted with
  | true => exact hamended.track fun htranche => (hstop rfl (Or.inr htranche)).given
  | false => exact hamended

/-- A stop tighter than one that loses nothing loses nothing. -/
theorem winning_of_tighter {side : Side} {entryPrice stop current : ℚ}
    (hcurrent : Winning side entryPrice current) (htight : tighter side stop current = true) :
    Winning side entryPrice stop := by
  cases side with
  | LONG => exact le_trans hcurrent (of_decide_eq_true htight).le
  | SHORT => exact le_trans (of_decide_eq_true htight).le hcurrent

theorem CycleHonest.lockBreakeven (h : CycleHonest t snap s) (b : BreakevenAnswers)
    (hentry : 0 < snap.entryPrice)
    (hlong : s.movedToBe = false → b.accepted = true → snap.side = .LONG)
    (hrounded : s.movedToBe = false → b.accepted = true → Winning snap.side snap.entryPrice
      (t.roundPrice s.pos.symbol (breakevenStop snap.entryPrice))) :
    CycleHonest t snap (lockBreakeven b snap s) := by
  unfold Manager.lockBreakeven
  cases hmoved : s.movedToBe with
  | true => exact h
  | false =>
      have hstate := moveStopToBreakeven_honest h.toStateHonest b h.entry hentry
        (fun hb => h.side.trans (hlong hmoved hb)) (fun hb => h.side ▸ hrounded hmoved hb)
      rcases moveStopToBreakeven_frame b snap.entryPrice s with ⟨hside, hentry', htranche, hsl⟩
      refine ⟨⟨⟨hstate.stored, hstate.writes⟩, hstate.pos⟩, hside.trans h.side,
        hentry'.trans h.entry, fun _ => rfl, ?_, ?_⟩
      · intro hactive
        simpa [hsl] using h.moonBag (htranche.symm.trans hactive)
      · intro hactive
        exact htranche.trans (h.tranche hactive)

/-- An accepted lock marks the record. -/
theorem moveStopToBreakeven_marks {b : BreakevenAnswers} (hb : b.accepted = true)
    (entryPrice : ℚ) (s : ManagerState) :
    (moveStopToBreakeven b entryPrice s).pos.movedToBreakeven = true := by
  unfold moveStopToBreakeven
  dsimp only
  rw [if_pos hb, updateSl_persist (by rfl)]
  rfl

theorem wickGuard_lock_kept (h : CycleHonest t snap s)
    (hcond : RuleKeepsLock t a snap .wickGuard s) :
    CycleHonest t snap (wickGuard snap a.wickClock (a.amend .wickGuard) s).state := by
  have hmarked : CycleHonest t snap (s.edit ({ · with lastWickGuardTs := a.wickClock })) :=
    h.neutral (Neutral.edit s rfl)
  unfold wickGuard
  dsimp only
  split_ifs with hfires hdebounced <;> simp only [Flow.state_ret, Flow.state_next]
  · exact (h.neutral (Neutral.edit s rfl)).neutral (Neutral.persist _)
  · have htracked := hmarked.amendAndTrack (a.amend .wickGuard)
      (hcond.wick rfl hfires (by simpa using hdebounced))
    exact (htracked.neutral (Neutral.edit _ rfl)).neutral (Neutral.persist _)
  · exact h.neutral (Neutral.edit s rfl)

theorem scaleOutAndLock_lock_kept (hentry : 0 < snap.entryPrice) (h : CycleHonest t snap s)
    (hcond : RuleKeepsLock t a snap .scaleOutAndLock s) :
    CycleHonest t snap (scaleOutAndLock (a.reduce .scaleOut) (a.lock .scaleOut) snap s) := by
  unfold scaleOutAndLock
  split_ifs with hdue
  · have hneutral := scaleOutTo_neutral 1 (a.reduce .scaleOut) (1 / 2) s
    apply (h.neutral hneutral).lockBreakeven _ hentry
    · intro hmoved
      rw [hneutral.movedToBe] at hmoved
      exact hcond.long ⟨hdue, hmoved⟩
    · intro hmoved
      rw [hneutral.movedToBe] at hmoved
      rw [hneutral.symbol]
      exact hcond.lockRounded ⟨hdue, hmoved⟩
  · exact h

theorem cvdOrTrendTiers_lock_kept (hentry : 0 < snap.entryPrice) (h : CycleHonest t snap s)
    (hcond : RuleKeepsLock t a snap .cvdOrTrendTiers s) :
    CycleHonest t snap
      (cvdOrTrendTiers a.reduce (a.lock .cvd) (a.lock .trendTier) a.cvdSlope snap s) := by
  rcases cvdOrTrendTiers_cases a snap s with ⟨hdue, heq⟩ | ⟨-, heq | ⟨tier, site, heq⟩⟩
  · rw [heq]
    exact h.lockBreakeven _ hentry (fun _ => hcond.long hdue) fun _ => hcond.lockRounded hdue
  · rw [heq]
    exact h
  · rw [heq]
    exact h.neutral (scaleOutTo_neutral tier (a.reduce site) (33 / 100) s)

theorem moonTrailing_lock_kept (h : CycleHonest t snap s)
    (hcond : RuleKeepsLock t a snap .moonTrailing s) :
    CycleHonest t snap (moonTrailing snap (a.amend .moonTrailing) s).state := by
  have hedited : ∀ highest,
      CycleHonest t snap (s.edit ({ · with highestSincePartial := highest })) :=
    fun _ => h.neutral (Neutral.edit s rfl)
  rcases moonTrailing_cases snap (a.amend .moonTrailing) s with
    ⟨highest, heq | ⟨stop, htranche, hproposed, htight, heq⟩⟩
  · rw [heq]
    exact hedited highest
  · rw [heq]
    have hwinning := winning_of_tighter (h.moonBag (h.tranche htranche)) htight
    exact ((hedited highest).track fun _ => hwinning).amendStop _ fun haccepted hlocked =>
      ⟨hwinning, hcond.trailRounded stop hproposed htight haccepted hlocked⟩

theorem breakevenTrigger_lock_kept (hentry : 0 < snap.entryPrice) (h : CycleHonest t snap s)
    (hcond : RuleKeepsLock t a snap .breakevenTrigger s) :
    CycleHonest t snap (breakevenTrigger (a.lock .trigger) snap s).state := by
  rcases breakevenTrigger_cases snap s a with ⟨-, heq⟩ | ⟨hdue, heq⟩
  · rw [heq]
    exact h
  · have hlocked := h.lockBreakeven (a.lock .trigger) hentry (fun _ => hcond.long hdue)
      fun _ => hcond.lockRounded hdue
    have hmarked : (lockBreakeven (a.lock .trigger) snap s).pos.movedToBreakeven = true := by
      rw [lockBreakeven, hdue.1]
      exact moveStopToBreakeven_marks (hcond.trigger rfl hdue) snap.entryPrice s
    rw [heq, Flow.state_next]
    refine hlocked.neutral (Neutral.edit _ ?_)
    rw [PositionRecord.stopView, PositionRecord.stopView, hmarked]

/-- Half-breakeven never fires on a locked record: an active moon bag has a tighter
stop already. -/
theorem halfBreakeven_lock_kept (h : CycleHonest t snap s)
    (hcond : RuleKeepsLock t a snap .halfBreakeven s) :
    CycleHonest t snap (halfBreakeven snap (a.amend .halfBreakeven) s) := by
  rcases halfBreakeven_cases snap (a.amend .halfBreakeven) s with
    heq | ⟨stop, moved, hproposed, hopen, htight, heq⟩
  · rw [heq]
    exact h
  · rw [heq]
    have hwinning : Locked s.pos → Winning snap.side snap.entryPrice stop := by
      rintro (hflag | htranche)
      · rw [h.flag hflag] at hopen
        cases hopen
      · exact winning_of_tighter (h.moonBag htranche) htight
    have hamended := h.amendAndTrack (a.amend .halfBreakeven) fun haccepted hlocked =>
      ⟨hwinning hlocked, hcond.trailRounded stop hproposed htight haccepted hlocked⟩
    exact hamended.neutral (Neutral.edit _ rfl)

/-- Profit-protect locks in at least three tenths of a risk unit. -/
theorem trailR_pos (isHyper : Bool) (peak : ℚ) : 0 < trailR isHyper peak := by
  unfold trailR
  split_ifs
  · exact lt_of_lt_of_le (by norm_num) (le_max_right _ _)
  · exact lt_of_lt_of_le (by norm_num) (le_max_right _ _)
  · exact lt_of_lt_of_le (by norm_num) (le_max_right _ _)

theorem profitProtectStop_winning (hrisk : 0 < snap.initialRisk) (s : ManagerState) :
    Winning snap.side snap.entryPrice (profitProtectStop snap s) := by
  have hlocked := mul_pos hrisk (trailR_pos snap.isHyper (peakR snap s))
  unfold Winning profitProtectStop
  cases snap.side with
  | LONG => dsimp only; linarith
  | SHORT => dsimp only; linarith

theorem profitProtect_lock_kept (h : CycleHonest t snap s)
    (hcond : RuleKeepsLock t a snap .profitProtect s) :
    CycleHonest t snap (profitProtect snap (a.amend .profitProtect) s) := by
  rcases profitProtect_cases snap (a.amend .profitProtect) s with
    heq | ⟨hrisk, hproposed, htight, heq⟩
  · rw [heq]
    exact h
  · rw [heq]
    exact h.amendAndTrack _ fun haccepted hlocked =>
      ⟨profitProtectStop_winning hrisk s,
        hcond.trailRounded _ hproposed htight haccepted hlocked⟩

theorem trendTrailing_lock_kept (h : CycleHonest t snap s)
    (hcond : RuleKeepsLock t a snap .trendTrailing s) :
    CycleHonest t snap (manageTrendTrailingStop snap (a.amend .trendTrailing) s).state := by
  rcases manageTrendTrailingStop_cases snap (a.amend .trendTrailing) s with
    heq | ⟨stop, hproposed, htight, heq⟩
  · rw [heq]
    exact h
  · rw [heq]
    exact h.amendStop _ fun haccepted hlocked =>
      ⟨hcond.trend rfl stop hproposed htight haccepted hlocked,
        hcond.trailRounded stop hproposed htight haccepted hlocked⟩

/-- A moon bag whose stop is accepted and wins. -/
theorem moonBagStarted_honest (hentry : 0 < snap.entryPrice) (h : CycleHonest t snap s)
    (hwins : WinsRounded t (snap.symbol.without '/') snap.side snap.entryPrice
      (breakevenStop snap.entryPrice)) :
    CycleHonest t snap (amendAndTrack (snap.symbol.without '/') true
      (breakevenStop snap.entryPrice) (moonBagStarted snap s)) := by
  have hreduced : CycleHonest t snap (s.sendReduce (snap.symbol.without '/')
      (closeQty s.pos.amount (8 / 10)) true) := h.neutral (Neutral.emit s rfl)
  have hstarted : StoreHonest t (moonBagStarted snap s) := ⟨hreduced.stored, hreduced.writes⟩
  have hpos : WinsRounded t (snap.symbol.without '/') s.pos.side s.pos.entryPrice
      (breakevenStop snap.entryPrice) := by
    rw [h.side, h.entry]
    exact hwins
  refine ⟨⟨hstarted.amendAndTrack _ true _, fun _ => ⟨?_, ?_, hpos.given⟩⟩, h.side, h.entry,
    h.flag, fun _ => hwins.given, fun _ => rfl⟩
  · exact lt_of_lt_of_eq hentry h.entry.symm
  · exact ⟨_, List.mem_append_right _ List.mem_cons_self, rfl, rfl, hpos.reaching⟩

/-- The moon bag marks the record before its stop is accepted; without a stop the
rest is closed and the cycle returns without writing. -/
theorem moonBagExit_lock_kept (hentry : 0 < snap.entryPrice) (h : CycleHonest t snap s)
    (hcond : RuleKeepsLock t a snap .moonBagExit s) :
    (moonBagExit a.reduce a.moonStop snap s).Ends (CycleHonest t snap) (StoreHonest t) := by
  have hreduced : ∀ (symbol : Text) (qty : ℚ) (accepted : Bool),
      CycleHonest t snap (s.sendReduce symbol qty accepted) :=
    fun symbol qty accepted => h.neutral (Neutral.emit s rfl)
  cases moonBagExit_outcome a.reduce a.moonStop snap s with
  | idle _ hflow => rw [hflow]; exact h
  | refused _ _ hflow => rw [hflow]; exact hreduced _ _ false
  | started hdue hclosed hstop hflow =>
      rw [hflow, Flow.ends_next]
      refine moonBagStarted_honest hentry h ⟨?_, hcond.lockRounded ⟨hdue, hclosed⟩ hstop⟩
      rw [hcond.long ⟨hdue, hclosed⟩ hstop]
      exact breakevenStop_winning hentry
  | unprotected rest hdue hclosed hstop hrest hflow =>
      rcases hcond.moonBag rfl ⟨hdue, hclosed⟩ with hmoonStop | hmoonRest
      · rw [hstop] at hmoonStop
        cases hmoonStop
      · rw [hrest] at hmoonRest
        cases hmoonRest
  | closed rest hdue hclosed hstop hrest hflow =>
      have hfirst := hreduced (snap.symbol.without '/') (closeQty s.pos.amount (8 / 10)) true
      have hstarted : StoreHonest t (moonBagStarted snap s) := ⟨hfirst.stored, hfirst.writes⟩
      rw [hflow, Flow.ends_ret]
      exact (hstarted.amendAndTrack (snap.symbol.without '/') false _).of_log rfl rfl (by simp)

/-- Every rule keeps the invariant under its condition, or leaves an honest store. -/
theorem CycleRule.lock_kept (rule : CycleRule) (hentry : 0 < snap.entryPrice)
    (h : CycleHonest t snap s) (hcond : RuleKeepsLock t a snap rule s) :
    (rule.block a snap s).Ends (CycleHonest t snap) (StoreHonest t) := by
  have hends : ∀ {flow : Flow ManagerState}, CycleHonest t snap flow.state →
      flow.Ends (CycleHonest t snap) (StoreHonest t) :=
    fun hflow => (Flow.ends_of_state hflow).mono (fun _ hs => hs) fun _ hs => hs.toStoreHonest
  cases rule with
  | wickGuard => exact hends (wickGuard_lock_kept h hcond)
  | scaleOutAndLock => exact scaleOutAndLock_lock_kept hentry h hcond
  | cvdOrTrendTiers => exact cvdOrTrendTiers_lock_kept hentry h hcond
  | moonBagExit => exact moonBagExit_lock_kept hentry h hcond
  | moonTrailing => exact hends (moonTrailing_lock_kept h hcond)
  | breakevenTrigger => exact hends (breakevenTrigger_lock_kept hentry h hcond)
  | halfBreakeven => exact halfBreakeven_lock_kept h hcond
  | profitProtect => exact profitProtect_lock_kept h hcond
  | trendTrailing => exact hends (trendTrailing_lock_kept h hcond)
  | trackPeak | ensureTakeProfit | sniperExhaustion | trailingLimit | timeExit | regimeShift
  | persist => exact hends (h.neutral (CycleRule.neutral a snap rfl s))

end Cycle

/-! ## The reconcile step -/

/-- What the exchange reports for a locked record: its stop is still there, and it
is not on the losing side, from where it would be copied. -/
def ReportsLocked (a : ReconcileAnswers) (pos : PositionRecord) : Prop :=
  Locked pos → 0 < pos.currentSl ∧
    ∀ positions p, a.positions = some positions →
      findExchangePosition positions pos.symbol pos.side = some p →
        p.stopLoss ≠ 0 ∧ onLosingSide pos.side pos.entryPrice p.stopLoss = false

/-- Invariant of the reconcile step: marks do not change, and a locked record keeps
what the stop rules depend on. -/
structure StaysBacked (t : InstrumentTables) (origin : PositionRecord) (s : ManagerState) : Prop
    extends StateHonest t s where
  same : Locked s.pos → s.pos.stopView = origin.stopView
  stored_locked : ∀ record, s.stored = some record → Locked record → Locked s.pos

section Reconcile

variable {origin : PositionRecord} {a : ReconcileAnswers} {s s' : ManagerState}

theorem StaysBacked.neutral (h : StaysBacked t origin s) (hneutral : Neutral s s') :
    StaysBacked t origin s' where
  toStateHonest := h.toStateHonest.neutral hneutral
  same := fun hlocked => hneutral.view.trans (h.same (hlocked.of_view hneutral.view))
  stored_locked := by
    intro record hrecord hlocked
    rcases hneutral.stored record hrecord with hold | hview
    · exact (h.stored_locked record hold hlocked).of_view hneutral.view.symm
    · exact (hlocked.of_view hview).of_view hneutral.view.symm

/-- An edit that changes no mark, and nothing the stop rules depend on in a locked
record. -/
theorem StaysBacked.edit (h : StaysBacked t origin s) (f : PositionRecord → PositionRecord)
    (hmoved : (f s.pos).movedToBreakeven = s.pos.movedToBreakeven)
    (htranche : (f s.pos).trancheState = s.pos.trancheState)
    (hview : Locked s.pos → (f s.pos).stopView = s.pos.stopView) :
    StaysBacked t origin (s.edit f) := by
  have hlocked : Locked (f s.pos) ↔ Locked s.pos := by
    unfold Locked
    rw [hmoved, htranche]
  refine ⟨h.toStateHonest.edit ?_, ?_, ?_⟩
  · intro hl
    exact h.pos.of_view (hview (hlocked.mp hl)) (fun _ he => he) hl
  · intro hl
    exact (hview (hlocked.mp hl)).trans (h.same (hlocked.mp hl))
  · intro record hrecord hl
    exact hlocked.mpr (h.stored_locked record hrecord hl)

theorem StaysBacked.sendStop (h : StaysBacked t origin s) {symbol : Text} (accepted : Bool)
    (stop : ℚ) : StaysBacked t origin (s.sendStop symbol accepted stop) :=
  ⟨⟨h.toStoreHonest.sendStop accepted stop, h.pos.mono (List.subset_append_left _ _)⟩,
    h.same, h.stored_locked⟩

/-- A record without a stop is not locked; it may get one. -/
theorem StaysBacked.amendStop (h : StaysBacked t origin s) {symbol : Text} (accepted : Bool)
    (stop : ℚ) (hunlocked : ¬ Locked s.pos) :
    StaysBacked t origin (s.amendStop symbol accepted stop) := by
  have hsent : StaysBacked t origin (s.sendStop symbol accepted stop) := h.sendStop accepted stop
  cases accepted with
  | true => exact hsent.edit (·.recordStop stop) rfl rfl fun hl => absurd hl hunlocked
  | false => exact hsent

theorem StaysBacked.recordRead (h : StaysBacked t origin s) (stop : ℚ)
    (hunlocked : ¬ Locked s.pos) :
    StaysBacked t origin (recordRead s stop) := by
  have hread : StaysBacked t origin (s.emit
      (.stopRead ⟨s.pos.symbol, s.pos.side, s.pos.currentSl, stop⟩)) :=
    ⟨⟨h.toStoreHonest.of_log rfl rfl (by simp), h.pos.mono (List.subset_append_left _ _)⟩,
      h.same, h.stored_locked⟩
  exact hread.edit (·.recordStop stop) rfl rfl fun hl => absurd hl hunlocked

theorem fillEntryPrice_backed (p : ExchangePosition) {r : Reconciled}
    (h : StaysBacked t origin r.state) : StaysBacked t origin (fillEntryPrice p r).state := by
  unfold fillEntryPrice
  split_ifs with hmissing
  · refine h.edit ({ · with entryPrice := p.entryPrice }) rfl rfl fun hlocked => ?_
    exact absurd hmissing.1 (h.pos hlocked).entry.ne'
  · exact h

/-- The exchange's report does not touch the stop of a locked record. -/
theorem readStop_backed (p : ExchangePosition) {r : Reconciled} (h : StaysBacked t origin r.state)
    (hreport : Locked r.state.pos → p.stopLoss ≠ 0 ∧
      onLosingSide r.state.pos.side r.state.pos.entryPrice p.stopLoss = false) :
    StaysBacked t origin (readStop p r).state := by
  unfold readStop
  dsimp only
  split_ifs with hreported hlosing hrecorded
  · refine h.recordRead _ fun hlocked => ?_
    rw [(hreport hlocked).2] at hlosing
    exact absurd hlosing.2 (by simp)
  · exact h
  · exact h.recordRead _ fun hlocked => hreported (hreport hlocked).1
  · exact h

theorem readExchange_backed (p : ExchangePosition) (h : StaysBacked t origin s)
    (hreport : Locked origin → p.stopLoss ≠ 0 ∧
      onLosingSide origin.side origin.entryPrice p.stopLoss = false) :
    StaysBacked t origin (readExchange p ⟨s, false⟩).state := by
  have hentry : StaysBacked t origin (fillEntryPrice p ⟨s, false⟩).state :=
    fillEntryPrice_backed p h
  have hfilled := hentry.neutral (fillAmount_neutral p _)
  refine StaysBacked.neutral (readStop_backed p hfilled ?_) (readTakeProfit_neutral p _)
  intro hlocked
  have hsame := hfilled.same hlocked
  have hside := congrArg StopView.side hsame
  have hprice := congrArg StopView.entryPrice hsame
  simp only [PositionRecord.stopView] at hside hprice
  rw [hside, hprice]
  exact hreport (hlocked.of_view hsame)

/-- A locked record has a stop, so none is placed for it. -/
theorem placeMissingStop_backed {r : Reconciled} (h : StaysBacked t origin r.state)
    (hpositive : Locked origin → 0 < origin.currentSl) :
    StaysBacked t origin (placeMissingStop a r).state := by
  have hunlocked : r.state.pos.currentSl ≤ 0 → ¬ Locked r.state.pos := by
    intro hnone hlocked
    have hsame := h.same hlocked
    have hsl : r.state.pos.currentSl = origin.currentSl := congrArg StopView.currentSl hsame
    exact absurd (hpositive (hlocked.of_view hsame)) (not_lt.mpr (hsl ▸ hnone))
  cases placeMissingStop_outcome a r with
  | idle hstate => rw [hstate]; exact h
  | sent hmissing accepted hstate =>
      rw [hstate]
      exact h.amendStop accepted _ (hunlocked hmissing)
  | retried hmissing accepted hstate =>
      rw [hstate]
      exact (h.sendStop false _).amendStop accepted _ (hunlocked hmissing)

theorem repairRecord_backed {r : Reconciled} (h : StaysBacked t origin r.state)
    (hpositive : Locked origin → 0 < origin.currentSl) :
    StaysBacked t origin (repairRecord a r) := by
  have hcomputed := h.neutral (computedFields_neutral a r)
  have hstop : StaysBacked t origin (placeMissingStop a _).state :=
    placeMissingStop_backed hcomputed hpositive
  have htake := hstop.neutral (placeMissingTakeProfit_neutral a _)
  exact htake.neutral (persistChanges_neutral _)

/-- The whole reconcile step. -/
theorem reconcilePosition_backed (h : StaysBacked t s.pos s) (hcond : ReportsLocked a s.pos) :
    StaysBacked t s.pos (reconcilePosition a s) := by
  have hpositive : Locked s.pos → 0 < s.pos.currentSl := fun hlocked => (hcond hlocked).1
  unfold reconcilePosition
  cases hpositions : a.positions with
  | none => exact repairRecord_backed h hpositive
  | some positions =>
      dsimp only
      cases hfound : findExchangePosition positions s.pos.symbol s.pos.side with
      | none =>
          exact (h.neutral (Neutral.remove s)).neutral (Neutral.of_eq rfl rfl rfl rfl rfl)
      | some p =>
          refine repairRecord_backed (readExchange_backed p h ?_) hpositive
          exact fun hlocked => (hcond hlocked).2 positions p hpositions hfound

/-- A record just read from its key. -/
theorem StoreHonest.backed (h : StoreHonest t s) {record pos : PositionRecord}
    (hstored : s.stored = some record) (hview : pos.stopView = record.stopView) :
    StaysBacked t pos (s.load pos) where
  stored := h.stored
  writes := h.writes
  pos := (h.stored record hstored).of_view hview fun _ he => he
  same := fun _ => rfl
  stored_locked := by
    intro record' hrecord' hlocked
    obtain rfl : record = record' := Option.some.inj (hstored.symm.trans hrecord')
    exact hlocked.of_view hview.symm

end Reconcile

/-! ## Runs of all tasks -/

/-- Condition of one cycle on the state it starts from. -/
structure CycleKeepsLock (t : InstrumentTables) (a : CycleAnswers) (s : ManagerState) :
    Prop where
  reported : inCooldown a s.pos = false → ReportsLocked a.reconcile s.pos
  rules : reachesRules a s = true →
    Flow.Met (CycleRule.block a (snapshot (rulesStart a s).pos))
      (RuleKeepsLock t a (snapshot (rulesStart a s).pos)) cycleOrder (rulesStart a s)

/-- Condition of one step for the stored record, if there is one. -/
def StepKeepsLock (t : InstrumentTables) (s : ManagerState) : ApmStep → Prop
  | .cycle input => ∀ record, s.stored = some record →
      CycleKeepsLock t input.answers (startCycle input.live record s)
  | .healthCheck answers _ => ∀ record, s.stored = some record → ReportsLocked answers record
  | .reconcile _ _ | .adopt _ _ _ => True
  | .scaleOut _ _ lock => ∀ record, s.stored = some record →
      record.proactiveScaleOutExecuted = false → 0 < record.entryPrice →
        lock.accepted = true → record.side = .LONG ∧
          Winning .LONG record.entryPrice
            (t.roundPrice record.symbol (breakevenStop record.entryPrice))

section Runs

variable {a : CycleAnswers} {s : ManagerState}

/-- The rules of a cycle start with the invariant. -/
theorem rulesStart_honest (h : StaysBacked t s.pos s) (hcond : ReportsLocked a.reconcile s.pos) :
    CycleHonest t (snapshot (rulesStart a s).pos) (rulesStart a s) := by
  have hreconciled := reconcilePosition_backed h hcond
  refine ⟨⟨⟨hreconciled.stored, hreconciled.writes⟩, hreconciled.pos⟩, rfl, rfl, fun hflag => hflag,
    ?_, fun htranche => htranche⟩
  exact fun htranche => (hreconciled.pos (Or.inr htranche)).winning

theorem manageSinglePosition_honest (h : StaysBacked t s.pos s) (hcond : CycleKeepsLock t a s) :
    StoreHonest t (manageSinglePosition a s) := by
  rcases manageSinglePosition_cases a s with ⟨-, hskipped⟩ | ⟨hcooldown, -, hended⟩ |
    ⟨hreached, hran⟩
  · rw [hskipped]
    exact h.toStoreHonest
  · rw [hended]
    exact (rulesStart_honest h (hcond.reported hcooldown)).toStoreHonest
  · obtain ⟨⟨hcooldown, hentry⟩, -⟩ :
        (inCooldown a s.pos = false ∧ 0 < (rulesStart a s).pos.entryPrice) ∧ _ := by
      simpa only [reachesRules, Bool.and_eq_true, Bool.not_eq_true', decide_eq_true_eq]
        using hreached
    have hends := (hcond.rules hreached).ends
      (fun rule _ hinv hrule => rule.lock_kept hentry hinv hrule)
      (rulesStart_honest h (hcond.reported hcooldown))
    rw [hran]
    exact hends.state fun _ hinv => hinv.toStoreHonest

/-- The health check records a stop only for a record without one, which is not
locked. -/
theorem updateStop_honest {origin : PositionRecord} (h : StaysBacked t origin s) (stop : ℚ)
    (hunlocked : ¬ Locked s.pos) : StoreHonest t (s.updateStop stop) := by
  unfold ManagerState.updateStop
  cases hstored : s.stored with
  | none => exact h.toStoreHonest
  | some record =>
      have hfree : ¬ Locked record := fun hl => hunlocked (h.stored_locked record hstored hl)
      have hhonest : ∀ log, Honest t log (record.recordStop stop) := fun _ hl => absurd hl hfree
      refine ⟨?_, h.writes.snoc ?_⟩
      · rintro record' hrecord'
        obtain rfl := Option.some.inj hrecord'
        exact hhonest _
      · rintro record' hrecord'
        obtain rfl := ApmEvent.written.inj hrecord'
        exact hhonest _

theorem healthCheck_honest (h : StoreHonest t s) (accepted : Bool) {answers : ReconcileAnswers}
    (hcond : ∀ record, s.stored = some record → ReportsLocked answers record) :
    StoreHonest t (healthCheck answers accepted s) := by
  unfold healthCheck
  cases hstored : s.stored with
  | none => exact h
  | some record =>
      have hread : StaysBacked t (s.load record).pos (s.load record) := h.backed hstored rfl
      have hbacked : StaysBacked t (s.load record).pos
          (reconcilePosition answers (s.load record)) :=
        reconcilePosition_backed hread (hcond record hstored)
      dsimp only
      generalize reconcilePosition answers (s.load record) = s' at hbacked ⊢
      split_ifs with hsymbol hmissing
      · exact h
      · have hunlocked : ¬ Locked s'.pos := by
          intro hlocked
          have hsame := hbacked.same hlocked
          have hsl : s'.pos.currentSl = record.currentSl := congrArg StopView.currentSl hsame
          have hpositive := (hcond record hstored (hlocked.of_view hsame)).1
          exact absurd hpositive (not_lt.mpr (hsl ▸ hmissing.1))
        exact updateStop_honest (hbacked.sendStop accepted _) _ hunlocked
      · exact (hbacked.sendStop accepted _).toStoreHonest
      · exact hbacked.toStoreHonest

theorem reconcilePositions_honest (h : StoreHonest t s) (external : Option (List ExchangePosition))
    (accepted : Bool) : StoreHonest t (reconcilePositions external accepted s) := by
  unfold reconcilePositions
  cases hstored : s.stored with
  | none => exact h
  | some record =>
      cases external with
      | none => exact h
      | some positions =>
          have hread : StaysBacked t record (s.load record) := h.backed hstored rfl
          dsimp only
          split_ifs
          · exact (hread.sendStop accepted _).toStoreHonest
          · exact hread.toStoreHonest
          · exact (hread.neutral (Neutral.remove _)).toStoreHonest

/-- An adopted position starts without marks. -/
theorem adopt_honest (h : StoreHonest t s) (adoption : Adoption) (now : ℚ) (marked : Bool) :
    StoreHonest t (adopt adoption now marked s) := by
  unfold adopt
  cases hstored : s.stored with
  | some record => exact h
  | none =>
      have hunlocked : ¬ Locked (adopted adoption now) := by
        rintro (hflag | htranche)
        · cases hflag
        · cases htranche
      have hmemory : StateHonest t (s.load (adopted adoption now)) :=
        ⟨⟨h.stored, h.writes⟩, fun hlocked => absurd hlocked hunlocked⟩
      have hsaved := hmemory.neutral (Neutral.persist _)
      dsimp only
      split_ifs
      · exact ((hsaved.neutral (Neutral.edit _ rfl)).neutral (Neutral.persist _)).toStoreHonest
      · exact hsaved.toStoreHonest

theorem proactiveScaleOut_honest (h : StoreHonest t s) (ratio : ℚ) (reduced : Bool)
    {lock : BreakevenAnswers} (hcond : ∀ record, s.stored = some record →
      record.proactiveScaleOutExecuted = false → 0 < record.entryPrice →
        lock.accepted = true → record.side = .LONG ∧
          Winning .LONG record.entryPrice
            (t.roundPrice record.symbol (breakevenStop record.entryPrice))) :
    StoreHonest t (proactiveScaleOut ratio reduced lock s) := by
  unfold proactiveScaleOut
  cases hstored : s.stored with
  | none => exact h
  | some record =>
      have hread : StaysBacked t record (s.load record) := h.backed hstored rfl
      have hneutral := scaleOutPosition_neutral reduced ratio (s.load record)
      dsimp only
      split_ifs with hexecuted hentry
      · exact h
      · exact h
      · have hwins := hcond record hstored (by simpa using hexecuted) (not_le.mp hentry)
        have hside : (scaleOutPosition reduced ratio (s.load record)).pos.side = record.side :=
          hneutral.side
        have hsymbol : (scaleOutPosition reduced ratio (s.load record)).pos.symbol =
            record.symbol := hneutral.symbol
        have hlocked : StateHonest t (moveStopToBreakeven lock record.entryPrice
            (scaleOutPosition reduced ratio (s.load record))) :=
          moveStopToBreakeven_honest (hread.neutral hneutral).toStateHonest lock
            hneutral.entryPrice (not_le.mp hentry) (fun hb => hside.trans (hwins hb).1)
              fun hb => by
                rw [hside, hsymbol, (hwins hb).1]
                exact (hwins hb).2
        have hflagged : StateHonest t ((moveStopToBreakeven lock record.entryPrice
            (scaleOutPosition reduced ratio (s.load record))).edit
              ({ · with proactiveScaleOutExecuted := true })) :=
          hlocked.neutral (Neutral.edit _ rfl)
        exact (hflagged.neutral (Neutral.persist _)).toStoreHonest

/-- One step of a run. -/
theorem act_honest (s : ManagerState) (step : ApmStep) (h : StoreHonest t s)
    (hcond : StepKeepsLock t s step) : StoreHonest t (act s step) := by
  cases step with
  | cycle input =>
      unfold act manage
      cases hstored : s.stored with
      | none => exact h
      | some record =>
          have hstart : StaysBacked t (startCycle input.live record s).pos
              (startCycle input.live record s) := h.backed hstored rfl
          exact manageSinglePosition_honest hstart (hcond record hstored)
  | healthCheck answers accepted => exact healthCheck_honest h accepted hcond
  | reconcile external accepted => exact reconcilePositions_honest h external accepted
  | adopt adoption now marked => exact adopt_honest h adoption now marked
  | scaleOut ratio reduced lock => exact proactiveScaleOut_honest h ratio reduced hcond

/-- A short position entered at 100, with its first stop at 102. -/
def shortPosition : PositionRecord :=
  { samplePosition with side := .SHORT, currentSl := 102 }

/-- A stored record that is not honest. -/
theorem not_storeHonest {s : ManagerState}
    (h : (s.stored.map fun record => decide (Honest t s.log record)) = some false) :
    ¬ StoreHonest t s := by
  intro hhonest
  rcases Option.map_eq_some_iff.mp h with ⟨record, hstored, hbroken⟩
  exact of_decide_eq_false hbroken (hhonest.stored record hstored)

/-- No stop is accepted but the one of a moon bag. -/
def onlyMoonStop (report : ReconcileAnswers) : CycleAnswers :=
  { acceptingAnswers report with amend := fun _ => false, lock := fun _ => ⟨false, false⟩ }

end Runs

end Manager
end Karsa
