import Karsa.Execution.Manager.Frame
import Karsa.Foundations.Symmetries

/-!
# Active position manager - Removed records stay removed

A cycle removes the key when the reconcile step finds a phantom, and when a force
close succeeds.  After a force close it returns at once.  After a purge it goes on
with every rule, and the first one that writes the record back restores the key; the
last rule always does.

Main results:

- Theorem `CycleRule.store_outcome`: when a rule writes, and that only its return
  follows a removal.
- Theorem `manageSinglePosition_stays_removed_iff`: when a cycle leaves removed
  records removed.
-/

namespace Karsa
namespace Manager

open Bybit

/-! ## Writes and removals -/

/-- Is a record written? -/
def ApmEvent.isWrite : ApmEvent → Bool
  | .written _ => true
  | .stopSent _ _ | .stopRead _ | .takeProfitSent _ _ | .reduceSent _ _ _ | .limitSent _ _ _
  | .cancelSent _ _ | .marketSent _ _ _ | .removed => false

/-- Is the event neither a write nor a removal? -/
def ApmEvent.keepsStore : ApmEvent → Bool
  | .written _ | .removed => false
  | .stopSent _ _ | .stopRead _ | .takeProfitSent _ _ | .reduceSent _ _ _ | .limitSent _ _ _
  | .cancelSent _ _ | .marketSent _ _ _ => true

/-- Number of writes so far. -/
def ManagerState.writes (s : ManagerState) : ℕ :=
  s.log.countP ApmEvent.isWrite

/-- The store is left alone. -/
structure Quiet (s s' : ManagerState) : Prop where
  log : Appended (fun e => ApmEvent.keepsStore e = true) s.log s'.log
  stored : s'.stored = s.stored

/-- The record is written at least once and not removed. -/
def Wrote (s s' : ManagerState) : Prop :=
  ∃ new record, s'.log = s.log ++ new ∧ .written record ∈ new ∧ .removed ∉ new

section Store

variable {s s' s'' : ManagerState}

theorem Quiet.of_eq (hlog : s'.log = s.log) (hstored : s'.stored = s.stored) : Quiet s s' :=
  ⟨by rw [hlog]; exact Appended.refl _ _, hstored⟩

theorem Quiet.refl (s : ManagerState) : Quiet s s :=
  Quiet.of_eq rfl rfl

theorem Quiet.trans (h : Quiet s s') (h' : Quiet s' s'') : Quiet s s'' :=
  ⟨h.log.trans h'.log, h'.stored.trans h.stored⟩

/-- The components outside the store and the log do not matter. -/
theorem Quiet.then_eq (h : Quiet s s') (hlog : s''.log = s'.log)
    (hstored : s''.stored = s'.stored) : Quiet s s'' :=
  h.trans (Quiet.of_eq hlog hstored)

theorem Quiet.emit (s : ManagerState) {e : ApmEvent} (he : e.keepsStore = true) :
    Quiet s (s.emit e) :=
  ⟨Appended.single he, rfl⟩

/-- Exchange calls leave the store alone. -/
theorem Called.quiet (h : Called s s') : Quiet s s' := by
  refine ⟨h.log.mono ?_, by rw [h.eq]⟩
  intro e he
  cases e <;> first | rfl | cases he

theorem Quiet.sendStop (s : ManagerState) {symbol : Text} (accepted : Bool) (stop : ℚ) :
    Quiet s (s.sendStop symbol accepted stop) :=
  Quiet.emit s rfl

theorem Quiet.amendStop (s : ManagerState) {symbol : Text} (accepted : Bool) (stop : ℚ) :
    Quiet s (s.amendStop symbol accepted stop) := by
  have hsent : Quiet s (s.sendStop symbol accepted stop) := Quiet.sendStop s accepted stop
  cases accepted with
  | true => exact hsent.then_eq rfl rfl
  | false => exact hsent

theorem Quiet.amendAndTrack (s : ManagerState) (symbol : Text) (accepted : Bool) (stop : ℚ) :
    Quiet s (amendAndTrack symbol accepted stop s) := by
  have hamended : Quiet s (s.amendStop symbol accepted stop) := Quiet.amendStop s accepted stop
  cases accepted with
  | true => exact hamended.then_eq rfl rfl
  | false => exact hamended

theorem Quiet.writes (h : Quiet s s') : s'.writes = s.writes := by
  rcases h.log with ⟨new, hlog, hnew⟩
  have hzero : new.countP ApmEvent.isWrite = 0 := by
    rw [List.countP_eq_zero]
    intro e he
    have hkeeps := hnew e he
    cases e <;> simp [ApmEvent.keepsStore, ApmEvent.isWrite] at hkeeps ⊢
  rw [ManagerState.writes, hlog, List.countP_append, hzero]
  rfl

theorem Quiet.not_removed (h : Quiet s s') : Appended (· ≠ ApmEvent.removed) s.log s'.log := by
  refine h.log.mono ?_
  rintro e hkeeps rfl
  cases hkeeps

theorem Quiet.persist (h : Quiet s s') : Wrote s s'.persist := by
  rcases h.log with ⟨new, hlog, hnew⟩
  refine ⟨new ++ [.written s'.pos], s'.pos, ?_, by simp, ?_⟩
  · simp [ManagerState.persist, hlog]
  · intro hremoved
    rcases List.mem_append.mp hremoved with hold | hlast
    · cases hnew _ hold
    · simp at hlast

theorem Wrote.then_quiet (h : Wrote s s') (h' : Quiet s' s'') : Wrote s s'' := by
  rcases h with ⟨new, record, hlog, hwritten, hkept⟩
  rcases h'.log with ⟨new', hlog', hnew'⟩
  refine ⟨new ++ new', record, by rw [hlog', hlog, List.append_assoc],
    List.mem_append_left _ hwritten, ?_⟩
  intro hremoved
  rcases List.mem_append.mp hremoved with hfirst | hsecond
  · exact hkept hfirst
  · cases hnew' _ hsecond

theorem Wrote.writes_lt (h : Wrote s s') : s.writes < s'.writes := by
  rcases h with ⟨new, record, hlog, hwritten, -⟩
  have hpos : 0 < new.countP ApmEvent.isWrite := List.countP_pos_iff.mpr ⟨_, hwritten, rfl⟩
  rw [ManagerState.writes, ManagerState.writes, hlog, List.countP_append]
  omega

theorem Wrote.not_removed (h : Wrote s s') : Appended (· ≠ ApmEvent.removed) s.log s'.log := by
  rcases h with ⟨new, -, hlog, -, hkept⟩
  refine ⟨new, hlog, ?_⟩
  rintro e he rfl
  exact hkept he

end Store

/-! ## Outcomes of a block -/

/-- What a block does to the store, given when it writes: nothing, at least one
write, or a removal at its very end with a return. -/
inductive StoreOutcome (writes : Prop) (s : ManagerState) (flow : Flow ManagerState) : Prop
  | quiet (hquiet : Quiet s flow.state) (hwrites : ¬ writes)
  | wrote (hwrote : Wrote s flow.state) (hwrites : writes)
  | removed (s' mid : ManagerState) (hret : flow = .ret s') (hquiet : Quiet s mid)
      (hlog : s'.log = mid.log ++ [.removed]) (hstored : s'.stored = none) (hwrites : ¬ writes)
  | rewrote (s' mid : ManagerState) (record : PositionRecord) (hret : flow = .ret s')
      (hquiet : Quiet s mid) (hlog : s'.log = mid.log ++ [.written record, .removed])
      (hstored : s'.stored = none) (hwrites : writes)

/-- The last event is a removal, the first one since the given state. -/
def RemovedLast (s s' : ManagerState) : Prop :=
  ∃ log, s'.log = log ++ [.removed] ∧ Appended (· ≠ ApmEvent.removed) s.log log ∧
    s'.stored = none

namespace StoreOutcome

variable {writes : Prop} {s s₀ : ManagerState} {flow : Flow ManagerState}

theorem writes_eq_iff (h : StoreOutcome writes s flow) :
    flow.state.writes = s.writes ↔ ¬ writes := by
  cases h with
  | quiet hquiet hwrites => exact iff_of_true hquiet.writes hwrites
  | wrote hwrote hwrites =>
      exact iff_of_false (Nat.ne_of_gt hwrote.writes_lt) (not_not.mpr hwrites)
  | removed s' mid hret hquiet hlog hstored hwrites =>
      refine iff_of_true ?_ hwrites
      rw [← hquiet.writes, hret, Flow.state_ret, ManagerState.writes, hlog]
      simp [ManagerState.writes, ApmEvent.isWrite]
  | rewrote s' mid record hret hquiet hlog hstored hwrites =>
      refine iff_of_false ?_ (not_not.mpr hwrites)
      rw [← hquiet.writes, hret, Flow.state_ret, ManagerState.writes, hlog]
      simp [ManagerState.writes, ApmEvent.isWrite]

theorem writes_le (h : StoreOutcome writes s flow) : s.writes ≤ flow.state.writes := by
  cases h with
  | quiet hquiet hwrites => exact hquiet.writes.ge
  | wrote hwrote hwrites => exact hwrote.writes_lt.le
  | removed s' mid hret hquiet hlog hstored hwrites =>
      rw [← hquiet.writes, hret, Flow.state_ret, ManagerState.writes, ManagerState.writes, hlog,
        List.countP_append]
      exact Nat.le_add_right _ _
  | rewrote s' mid record hret hquiet hlog hstored hwrites =>
      rw [← hquiet.writes, hret, Flow.state_ret, ManagerState.writes, ManagerState.writes, hlog,
        List.countP_append]
      exact Nat.le_add_right _ _

/-- Without a write an absent key stays absent. -/
theorem stored_none (h : StoreOutcome writes s flow) (hwrites : ¬ writes)
    (hstored : s.stored = none) : flow.state.stored = none := by
  cases h with
  | quiet hquiet _ => exact hquiet.stored.trans hstored
  | wrote _ hwritten => exact absurd hwritten hwrites
  | removed s' mid hret _ _ hgone _ => rw [hret]; exact hgone
  | rewrote _ _ _ _ _ _ _ hwritten => exact absurd hwritten hwrites

/-- Changes in memory after a block that falls through do not matter. -/
theorem then_eq {s' s'' : ManagerState} (h : StoreOutcome writes s (.next s'))
    (hlog : s''.log = s'.log) (hstored : s''.stored = s'.stored) :
    StoreOutcome writes s (.next s'') := by
  cases h with
  | quiet hquiet hwrites => exact .quiet (hquiet.then_eq hlog hstored) hwrites
  | wrote hwrote hwrites => exact .wrote (hwrote.then_quiet (Quiet.of_eq hlog hstored)) hwrites
  | removed s' mid hret _ _ _ _ => cases hret
  | rewrote s' mid record hret _ _ _ _ => cases hret

/-- Nor do they after a block that returns. -/
theorem ret_then_eq {s' s'' : ManagerState} (h : StoreOutcome writes s (.ret s'))
    (hlog : s''.log = s'.log) (hstored : s''.stored = s'.stored) :
    StoreOutcome writes s (.ret s'') := by
  cases h with
  | quiet hquiet hwrites => exact .quiet (hquiet.then_eq hlog hstored) hwrites
  | wrote hwrote hwrites => exact .wrote (hwrote.then_quiet (Quiet.of_eq hlog hstored)) hwrites
  | removed closed mid hret hquiet hlog' hstored' hwrites =>
      obtain rfl := Flow.ret.inj hret
      exact .removed s'' mid rfl hquiet (hlog.trans hlog') (hstored.trans hstored') hwrites
  | rewrote closed mid record hret hquiet hlog' hstored' hwrites =>
      obtain rfl := Flow.ret.inj hret
      exact .rewrote s'' mid record rfl hquiet (hlog.trans hlog') (hstored.trans hstored') hwrites

/-- Control falls through only without a removal. -/
theorem ends (h : StoreOutcome writes s flow)
    (hbefore : Appended (· ≠ ApmEvent.removed) s₀.log s.log) :
    flow.Ends (fun s' => Appended (· ≠ ApmEvent.removed) s₀.log s'.log)
      fun s' => Appended (· ≠ ApmEvent.removed) s₀.log s'.log ∨ RemovedLast s₀ s' := by
  have hkept : Appended (· ≠ ApmEvent.removed) s.log flow.state.log →
      flow.Ends (fun s' => Appended (· ≠ ApmEvent.removed) s₀.log s'.log)
        fun s' => Appended (· ≠ ApmEvent.removed) s₀.log s'.log ∨ RemovedLast s₀ s' := by
    intro happended
    have hall := hbefore.trans happended
    cases flow with
    | next s' => exact hall
    | ret s' => exact Or.inl hall
    | raise s' => exact Or.inl hall
  cases h with
  | quiet hquiet _ => exact hkept hquiet.not_removed
  | wrote hwrote _ => exact hkept hwrote.not_removed
  | removed s' mid hret hquiet hlog hstored _ =>
      rw [hret]
      exact Or.inr ⟨mid.log, hlog, hbefore.trans hquiet.not_removed, hstored⟩
  | rewrote s' mid record hret hquiet hlog hstored _ =>
      rw [hret]
      refine Or.inr ⟨mid.log ++ [.written record], by simp [hlog], ?_, hstored⟩
      exact (hbefore.trans hquiet.not_removed).trans (Appended.single (by simp))

end StoreOutcome

/-! ## Force close -/

/-- Does a force close write the record: with the fill price before the removal, or
with a retry time? -/
def CloseWrites (a : CloseAnswers) (s : ManagerState) : Prop :=
  match (closeAttempt a s).2 with
  | .ok fill => 0 < fill
  | .error message => alreadyClosed message = false

/-- A cycle that returns after a force close. -/
theorem forceClosePosition_outcome (a : CloseAnswers) (reason : Text) {s mid : ManagerState}
    (hbefore : Quiet s mid) :
    StoreOutcome (CloseWrites a mid) s (.ret (forceClosePosition a reason mid)) := by
  have hattempt := hbefore.trans (closeAttempt_called a mid).quiet
  unfold forceClosePosition CloseWrites
  cases hresult : closeAttempt a mid with
  | mk closed outcome =>
      rw [hresult] at hattempt
      have hstamped : Quiet s { closed with forceClosedAt := some a.clock } :=
        hattempt.then_eq rfl rfl
      cases outcome with
      | ok fill =>
          dsimp only
          unfold finishClose
          by_cases hfill : 0 < fill
          · rw [if_pos hfill]
            refine .rewrote _ _
              { closed.pos with exitPrice := some fill, exitReason := some reason }
              rfl hstamped ?_ rfl hfill
            simp [ManagerState.remove, ManagerState.persist, ManagerState.edit]
          · rw [if_neg hfill]
            exact .removed _ _ rfl hstamped rfl rfl hfill
      | error message =>
          dsimp only
          cases hclosed : alreadyClosed message with
          | true =>
              rw [if_pos rfl, finishClose, if_neg (lt_irrefl 0)]
              exact .removed _ _ rfl hstamped rfl rfl (by simp)
          | false =>
              rw [if_neg Bool.false_ne_true]
              have hretry : Quiet s (ManagerState.edit closed
                  ({ · with forceCloseRetryAt := a.clock + 300 })) := hattempt.then_eq rfl rfl
              exact .wrote hretry.persist rfl

/-! ## Rules -/

/-- Does the trailing-limit rule find its order older than a minute? -/
def limitTimedOut (a : LimitAnswers) (snap : Snapshot) (s : ManagerState) : Prop :=
  let pos := (activateLimit a.clock snap s).pos
  pos.trailingLimitState = .TRAILING_LIMIT_ACTIVE ∧
    60 < a.clock - pos.trailingLimitPlacedAt.getD a.clock

/-- State in which that rule closes the position. -/
def limitClosing (a : LimitAnswers) (snap : Snapshot) (s : ManagerState) : ManagerState :=
  let s := activateLimit a.clock snap s
  if s.pos.trailingLimitOrderId = [] then s else cancelLimit a s

/-- Does the holding time call for an exit? -/
def timeExitDue (clock : ℚ) (snap : Snapshot) (s : ManagerState) : Bool :=
  snap.entryTime.any fun entryTime => (timeExitReason clock snap entryTime s.pos).1.isSome

/-- State in which the time exit closes the position. -/
def timeExitClosing (clock : ℚ) (snap : Snapshot) (s : ManagerState) : ManagerState :=
  match snap.entryTime with
  | none => s
  | some entryTime => { s with pos := (timeExitReason clock snap entryTime s.pos).2 }

/-- Is this the fifth check in a row that finds another regime family? -/
def regimeExitDue (current : Except Text Text) (snap : Snapshot) (s : ManagerState) : Bool :=
  match current with
  | .error _ => false
  | .ok current => snap.entryRegime ≠ "UNKNOWN".toList &&
      regimeFamily snap.entryRegime ≠ regimeFamily current && current ≠ snap.entryRegime &&
        5 ≤ s.shiftCount + 1

/-- Does the rule write the record when it starts in this state? -/
def RuleWrites (a : CycleAnswers) (snap : Snapshot) : CycleRule → ManagerState → Prop
  | .wickGuard, s => wickFires snap s.pos = true
  | .scaleOutAndLock, s =>
      locksBreakeven a snap .scaleOutAndLock s ∧ (a.lock .scaleOut).accepted = true
  | .cvdOrTrendTiers, s =>
      locksBreakeven a snap .cvdOrTrendTiers s ∧ (a.lock .cvd).accepted = true
  | .breakevenTrigger, s =>
      locksBreakeven a snap .breakevenTrigger s ∧ (a.lock .trigger).accepted = true
  | .trailingLimit, s => limitTimedOut a.limit snap s ∧
      CloseWrites (a.close .limitTimeout) (limitClosing a.limit snap s)
  | .timeExit, s => timeExitDue a.exitClock snap s = true ∧
      CloseWrites (a.close .timeExit) (timeExitClosing a.exitClock snap s)
  | .regimeShift, s => regimeExitDue a.currentRegime snap s = true ∧
      CloseWrites (a.close .regimeShift) { s with shiftCount := s.shiftCount + 1 }
  | .persist, _ => True
  | .trackPeak, _ | .ensureTakeProfit, _ | .sniperExhaustion, _ | .moonBagExit, _
  | .moonTrailing, _ | .halfBreakeven, _ | .profitProtect, _ | .trendTrailing, _ => False

section Rules

variable {a : CycleAnswers} {snap : Snapshot} {s : ManagerState}

theorem scaleOutTo_quiet (tier : Nat) (accepted : Bool) (pct : ℚ) (s : ManagerState) :
    Quiet s (scaleOutTo tier accepted pct s) := by
  have hscaled : Quiet s (scaleOutPosition accepted pct s) := by
    unfold scaleOutPosition
    dsimp only
    split_ifs
    · exact Quiet.refl s
    · exact (Quiet.emit s rfl).then_eq rfl rfl
    · exact Quiet.emit s rfl
  exact hscaled.then_eq rfl rfl

theorem sendWithRetry_quiet (b : BreakevenAnswers) (stop : ℚ) (s : ManagerState) :
    Quiet s (sendWithRetry b stop s) := by
  unfold sendWithRetry
  dsimp only
  split_ifs
  · exact Quiet.sendStop s b.first stop
  · exact (Quiet.sendStop s b.first stop).trans (Quiet.sendStop _ b.retry stop)

/-- A write of the record that was just written. -/
theorem Wrote.updateSl {s s' : ManagerState} (h : Wrote s s') (stop : ℚ) :
    Wrote s (s'.updateSl stop) := by
  unfold ManagerState.updateSl
  cases s'.stored with
  | none => exact h
  | some record =>
      dsimp only
      rcases h with ⟨new, record', hlog, hwritten, hkept⟩
      refine ⟨new ++ [.written (if 0 < stop then record.recordStop stop else record)], record',
        ?_, List.mem_append_left _ hwritten, ?_⟩
      · rw [hlog, List.append_assoc]
      · simpa using hkept

/-- A lock writes exactly when it is due and accepted. -/
theorem lockBreakeven_outcome (b : BreakevenAnswers) (snap : Snapshot) {s mid : ManagerState}
    (hbefore : Quiet s mid) :
    StoreOutcome (mid.movedToBe = false ∧ b.accepted = true) s
      (.next (lockBreakeven b snap mid)) := by
  unfold lockBreakeven
  cases hmoved : mid.movedToBe with
  | true => exact .quiet hbefore (by simp)
  | false =>
      have hsent := hbefore.trans (sendWithRetry_quiet b (breakevenStop snap.entryPrice) mid)
      rw [if_neg Bool.false_ne_true]
      unfold moveStopToBreakeven
      dsimp only
      by_cases hb : b.accepted = true
      · rw [if_pos hb]
        have hedited : Quiet s ((sendWithRetry b (breakevenStop snap.entryPrice) mid).edit
            fun pos => { pos.recordStop (breakevenStop snap.entryPrice) with
              movedToBreakeven := true }) := hsent.then_eq rfl rfl
        have hwrote := hedited.persist.updateSl (breakevenStop snap.entryPrice)
        exact .wrote (hwrote.then_quiet (Quiet.of_eq rfl rfl)) ⟨rfl, hb⟩
      · rw [if_neg hb]
        exact .quiet (hsent.then_eq rfl rfl) (by simp [hb])

theorem wickGuard_outcome (a : CycleAnswers) (snap : Snapshot) (s : ManagerState) :
    StoreOutcome (wickFires snap s.pos = true) s
      (wickGuard snap a.wickClock (a.amend .wickGuard) s) := by
  unfold wickGuard
  dsimp only
  split_ifs with hfires hdebounced
  · have hedited : Quiet s (s.edit ({ · with lastTickPrice := some snap.livePrice })) :=
      Quiet.of_eq rfl rfl
    exact .wrote hedited.persist hfires
  · have hmarked : Quiet s (s.edit ({ · with lastWickGuardTs := a.wickClock })) :=
      Quiet.of_eq rfl rfl
    have htracked := hmarked.trans
      (Quiet.amendAndTrack _ snap.symbol (a.amend .wickGuard) (tightStop snap))
    have hticked : Quiet s ((amendAndTrack snap.symbol (a.amend .wickGuard) (tightStop snap)
        (s.edit ({ · with lastWickGuardTs := a.wickClock }))).edit
          ({ · with lastTickPrice := some snap.livePrice })) := htracked.then_eq rfl rfl
    exact .wrote hticked.persist hfires
  · exact .quiet (Quiet.of_eq rfl rfl) hfires

theorem scaleOutAndLock_outcome (a : CycleAnswers) (snap : Snapshot) (s : ManagerState) :
    StoreOutcome (RuleWrites a snap .scaleOutAndLock s) s
      (.next (scaleOutAndLock (a.reduce .scaleOut) (a.lock .scaleOut) snap s)) := by
  unfold scaleOutAndLock
  split_ifs with hdue
  · have hscaled := scaleOutTo_quiet 1 (a.reduce .scaleOut) (1 / 2) s
    have hmoved : (scaleOutTo 1 (a.reduce .scaleOut) (1 / 2) s).movedToBe = s.movedToBe :=
      (scaleOutTo_neutral 1 (a.reduce .scaleOut) (1 / 2) s).movedToBe
    have hlocked := lockBreakeven_outcome (a.lock .scaleOut) snap hscaled
    rw [hmoved] at hlocked
    simpa [RuleWrites, locksBreakeven, hdue] using hlocked
  · refine .quiet (Quiet.refl s) ?_
    rintro ⟨⟨hscale, -⟩, -⟩
    exact hdue hscale

theorem cvdOrTrendTiers_outcome (a : CycleAnswers) (snap : Snapshot) (s : ManagerState) :
    StoreOutcome (RuleWrites a snap .cvdOrTrendTiers s) s
      (.next (cvdOrTrendTiers a.reduce (a.lock .cvd) (a.lock .trendTier) a.cvdSlope snap s)) := by
  rcases cvdOrTrendTiers_cases a snap s with ⟨hdue, heq⟩ | ⟨hopen, heq | ⟨tier, site, heq⟩⟩
  · have hlocked := lockBreakeven_outcome (a.lock .cvd) snap (Quiet.refl s)
    rw [heq]
    simpa [RuleWrites, locksBreakeven, hdue.1, hdue.2.1, hdue.2.2] using hlocked
  · rw [heq]
    exact .quiet (Quiet.refl s) fun hwrites => hopen hwrites.1
  · rw [heq]
    exact .quiet (scaleOutTo_quiet tier (a.reduce site) (33 / 100) s)
      fun hwrites => hopen hwrites.1

theorem breakevenTrigger_outcome (a : CycleAnswers) (snap : Snapshot) (s : ManagerState) :
    StoreOutcome (RuleWrites a snap .breakevenTrigger s) s
      (breakevenTrigger (a.lock .trigger) snap s) := by
  rcases breakevenTrigger_cases snap s a with ⟨hopen, heq⟩ | ⟨hdue, heq⟩
  · refine .quiet ?_ fun hwrites => hopen hwrites.1
    rw [heq]
    exact Quiet.refl s
  · have hlocked := lockBreakeven_outcome (a.lock .trigger) snap (Quiet.refl s)
    have hmarked : StoreOutcome _ s (.next ((lockBreakeven (a.lock .trigger) snap s).edit
        ({ · with movedToBreakeven := true }))) := hlocked.then_eq rfl rfl
    rw [heq]
    simpa [RuleWrites, locksBreakeven, hdue.1, hdue.2] using hmarked

theorem moonBagExit_quiet (reduce : ReduceSite → Bool) (accepted : Bool) (snap : Snapshot)
    (s : ManagerState) : Quiet s (moonBagExit reduce accepted snap s).state := by
  have hreduce : ∀ {s' : ManagerState} (symbol : Text) (qty : ℚ) (accepted : Bool),
      Quiet s s' → Quiet s (s'.sendReduce symbol qty accepted) :=
    fun symbol qty accepted h => h.trans (Quiet.emit _ rfl)
  have hstarted : Quiet s (moonBagStarted snap s) :=
    (hreduce _ _ true (Quiet.refl s)).then_eq rfl rfl
  have htracked := fun accepted =>
    hstarted.trans (Quiet.amendAndTrack _ (snap.symbol.without '/') accepted
      (breakevenStop snap.entryPrice))
  cases moonBagExit_outcome reduce accepted snap s with
  | idle _ hflow => rw [hflow]; exact Quiet.refl s
  | refused _ _ hflow => rw [hflow]; exact hreduce _ _ false (Quiet.refl s)
  | started _ _ _ hflow => rw [hflow]; exact htracked true
  | unprotected rest _ _ _ _ hflow => rw [hflow]; exact hreduce _ rest false (htracked false)
  | closed rest _ _ _ _ hflow =>
      rw [hflow]
      exact (hreduce _ rest true (htracked false)).then_eq rfl rfl

theorem moonTrailing_quiet (snap : Snapshot) (accepted : Bool) (s : ManagerState) :
    Quiet s (moonTrailing snap accepted s).state := by
  rcases moonTrailing_cases snap accepted s with ⟨highest, heq | ⟨stop, -, -, -, heq⟩⟩
  · rw [heq]
    exact Quiet.of_eq rfl rfl
  · rw [heq]
    have hlocal : Quiet s
        { s.edit ({ · with highestSincePartial := highest }) with slPrice := stop } :=
      Quiet.of_eq rfl rfl
    exact hlocal.trans (Quiet.amendStop _ accepted stop)

theorem halfBreakeven_quiet (snap : Snapshot) (accepted : Bool) (s : ManagerState) :
    Quiet s (halfBreakeven snap accepted s) := by
  rcases halfBreakeven_cases snap accepted s with heq | ⟨stop, moved, -, -, -, heq⟩
  · rw [heq]
    exact Quiet.refl s
  · rw [heq]
    exact (Quiet.amendAndTrack s _ accepted stop).then_eq rfl rfl

theorem profitProtect_quiet (snap : Snapshot) (accepted : Bool) (s : ManagerState) :
    Quiet s (profitProtect snap accepted s) := by
  rcases profitProtect_cases snap accepted s with heq | ⟨-, -, -, heq⟩
  · rw [heq]
    exact Quiet.refl s
  · rw [heq]
    exact Quiet.amendAndTrack s _ accepted (profitProtectStop snap s)

theorem trendTrailing_quiet (snap : Snapshot) (accepted : Bool) (s : ManagerState) :
    Quiet s (manageTrendTrailingStop snap accepted s).state := by
  rcases manageTrendTrailingStop_cases snap accepted s with heq | ⟨stop, -, -, heq⟩
  · rw [heq]
    exact Quiet.refl s
  · rw [heq]
    exact Quiet.amendStop s accepted stop

theorem placeLimitExit_quiet (a : LimitAnswers) (price : ℚ) (s : ManagerState) :
    Quiet s (placeLimitExit a price s) := by
  unfold placeLimitExit
  split_ifs
  · cases a.order with
    | ok order => exact (Quiet.emit s rfl).then_eq rfl rfl
    | error message => exact Quiet.emit s rfl
  · exact Quiet.refl s

theorem cancelLimit_quiet (a : LimitAnswers) (s : ManagerState) : Quiet s (cancelLimit a s) :=
  Quiet.emit s rfl

theorem activateLimit_quiet (clock : ℚ) (snap : Snapshot) (s : ManagerState) :
    Quiet s (activateLimit clock snap s) := by
  unfold activateLimit
  split_ifs
  · exact Quiet.of_eq rfl rfl
  · exact Quiet.refl s

theorem trailingLimit_outcome (a : CycleAnswers) (snap : Snapshot) (s : ManagerState) :
    StoreOutcome (RuleWrites a snap .trailingLimit s) s
      (trailingLimit a.limit (a.close .limitTimeout) snap s) := by
  have hactive := activateLimit_quiet a.limit.clock snap s
  unfold trailingLimit
  dsimp only
  by_cases htimeout : limitTimedOut a.limit snap s
  · rw [if_pos htimeout.1, if_pos htimeout.2]
    have hclosing : Quiet s (limitClosing a.limit snap s) := by
      unfold limitClosing
      dsimp only
      split_ifs
      · exact hactive
      · exact hactive.trans (cancelLimit_quiet a.limit _)
    have hclosed := forceClosePosition_outcome (a.close .limitTimeout)
      "trailing_limit_timeout_60s".toList hclosing
    have hiff : CloseWrites (a.close .limitTimeout) (limitClosing a.limit snap s) ↔
        RuleWrites a snap .trailingLimit s :=
      ⟨fun hwrites => ⟨htimeout, hwrites⟩, fun hwrites => hwrites.2⟩
    rw [← hiff]
    exact hclosed.ret_then_eq rfl rfl
  · have hnone : ¬ RuleWrites a snap .trailingLimit s := fun hwrites => htimeout hwrites.1
    refine .quiet ?_ hnone
    split_ifs with hstate hlate <;> simp only [Flow.state_next, Flow.state_ret]
    · exact absurd ⟨hstate, hlate⟩ htimeout
    · exact absurd ⟨hstate, hlate⟩ htimeout
    · exact hactive.trans (placeLimitExit_quiet a.limit _ _)
    · exact (hactive.trans (cancelLimit_quiet a.limit _)).trans (placeLimitExit_quiet a.limit _ _)
    · exact hactive
    · exact hactive

theorem timeExit_outcome (a : CycleAnswers) (snap : Snapshot) (s : ManagerState) :
    StoreOutcome (RuleWrites a snap .timeExit s) s
      (manageTimeExit a.exitClock (a.close .timeExit) snap s) := by
  unfold manageTimeExit
  simp only [RuleWrites, timeExitDue, timeExitClosing]
  cases snap.entryTime with
  | none => exact .quiet (Quiet.refl s) (by simp)
  | some entryTime =>
      have hmemory :
          Quiet s { s with pos := (timeExitReason a.exitClock snap entryTime s.pos).2 } :=
        Quiet.of_eq rfl rfl
      dsimp only [Option.any]
      cases (timeExitReason a.exitClock snap entryTime s.pos).1 with
      | none => exact .quiet hmemory (by simp)
      | some reason =>
          simpa using forceClosePosition_outcome (a.close .timeExit) reason hmemory

theorem regimeExitDue_ok_iff (current : Text) (snap : Snapshot) (s : ManagerState) :
    regimeExitDue (.ok current) snap s = true ↔ snap.entryRegime ≠ "UNKNOWN".toList ∧
      regimeFamily snap.entryRegime ≠ regimeFamily current ∧ current ≠ snap.entryRegime ∧
        5 ≤ s.shiftCount + 1 := by
  unfold regimeExitDue
  simp only [Bool.and_eq_true, decide_eq_true_eq, and_assoc]

theorem regimeShift_outcome (a : CycleAnswers) (snap : Snapshot) (s : ManagerState) :
    StoreOutcome (RuleWrites a snap .regimeShift s) s
      (checkRegimeShift a.currentRegime (a.close .regimeShift) snap s) := by
  have hcount : ∀ n, Quiet s { s with shiftCount := n } := fun n => Quiet.of_eq rfl rfl
  unfold checkRegimeShift
  simp only [RuleWrites]
  cases hcurrent : a.currentRegime with
  | error message =>
      refine .quiet ?_ fun hwrites => Bool.false_ne_true hwrites.1
      split_ifs <;> exact Quiet.refl s
  | ok current =>
      rw [regimeExitDue_ok_iff]
      by_cases hunknown : snap.entryRegime = "UNKNOWN".toList
      · rw [if_pos hunknown]
        exact .quiet (Quiet.refl s) fun hwrites => hwrites.1.1 hunknown
      · rw [if_neg hunknown]
        dsimp only
        by_cases hsame : regimeFamily snap.entryRegime = regimeFamily current ∨
            current = snap.entryRegime
        · rw [if_pos hsame]
          refine .quiet (hcount 0) fun hwrites => ?_
          exact hsame.elim hwrites.1.2.1 hwrites.1.2.2.1
        · rw [if_neg hsame]
          rcases not_or.mp hsame with ⟨hfamily, hregime⟩
          by_cases hfifth : 5 ≤ s.shiftCount + 1
          · rw [if_pos hfifth, and_iff_right ⟨hunknown, hfamily, hregime, hfifth⟩]
            have hclosed := forceClosePosition_outcome (a.close .regimeShift)
              ("regime_shift_".toList ++ snap.entryRegime ++ "_to_".toList ++ current)
              (hcount (s.shiftCount + 1))
            exact hclosed.ret_then_eq rfl rfl
          · rw [if_neg hfifth]
            exact .quiet (hcount (s.shiftCount + 1)) fun hwrites => hfifth hwrites.1.2.2.2

/-- What every rule does to the store. -/
theorem CycleRule.store_outcome (a : CycleAnswers) (snap : Snapshot) (rule : CycleRule)
    (s : ManagerState) : StoreOutcome (RuleWrites a snap rule s) s (rule.block a snap s) := by
  cases rule with
  | wickGuard => exact wickGuard_outcome a snap s
  | scaleOutAndLock => exact scaleOutAndLock_outcome a snap s
  | cvdOrTrendTiers => exact cvdOrTrendTiers_outcome a snap s
  | breakevenTrigger => exact breakevenTrigger_outcome a snap s
  | trailingLimit => exact trailingLimit_outcome a snap s
  | timeExit => exact timeExit_outcome a snap s
  | regimeShift => exact regimeShift_outcome a snap s
  | persist => exact .wrote (Quiet.refl s).persist trivial
  | moonBagExit => exact .quiet (moonBagExit_quiet a.reduce a.moonStop snap s) not_false
  | moonTrailing => exact .quiet (moonTrailing_quiet snap _ s) not_false
  | halfBreakeven => exact .quiet (halfBreakeven_quiet snap _ s) not_false
  | profitProtect => exact .quiet (profitProtect_quiet snap _ s) not_false
  | trendTrailing => exact .quiet (trendTrailing_quiet snap _ s) not_false
  | trackPeak =>
      refine .quiet ?_ not_false
      simp only [CycleRule.block, Manager.trackPeak]
      split_ifs <;> exact Quiet.of_eq rfl rfl
  | ensureTakeProfit =>
      refine .quiet ?_ not_false
      simp only [CycleRule.block, Manager.ensureTakeProfit]
      split_ifs <;> simp only [Flow.state_next]
      · exact (Quiet.emit s rfl).then_eq rfl rfl
      · exact Quiet.emit s rfl
      · exact Quiet.refl s
  | sniperExhaustion =>
      refine .quiet ?_ not_false
      simp only [CycleRule.block, Manager.sniperExhaustion]
      split_ifs <;> exact Quiet.refl s

end Rules

/-! ## The reconcile step -/

section Reconcile

variable {a : ReconcileAnswers} {s : ManagerState}

theorem computedFields_log (a : ReconcileAnswers) (r : Reconciled) :
    (fillEntryTime (fillRisk (fillAtr a r))).state.log = r.state.log := by
  have hatr : (fillAtr a r).state.log = r.state.log := by
    unfold fillAtr
    split_ifs <;> rfl
  have hrisk : ∀ r : Reconciled, (fillRisk r).state.log = r.state.log := by
    intro r
    unfold fillRisk
    dsimp only
    split_ifs <;> rfl
  exact (hrisk _).trans hatr

theorem amendStop_not_removed (s : ManagerState) {symbol : Text} (accepted : Bool) (stop : ℚ) :
    Appended (· ≠ ApmEvent.removed) s.log (s.amendStop symbol accepted stop).log :=
  (Quiet.amendStop s accepted stop).not_removed

theorem repairRecord_not_removed (a : ReconcileAnswers) (r : Reconciled) :
    Appended (· ≠ ApmEvent.removed) r.state.log (repairRecord a r).log := by
  have hstop : ∀ r : Reconciled,
      Appended (· ≠ ApmEvent.removed) r.state.log (placeMissingStop a r).state.log := by
    intro r
    cases placeMissingStop_outcome a r with
    | idle hstate => rw [hstate]; exact Appended.refl _ _
    | sent _ accepted hstate => rw [hstate]; exact amendStop_not_removed _ accepted _
    | retried _ accepted hstate =>
        rw [hstate]
        exact (amendStop_not_removed _ false _).trans (amendStop_not_removed _ accepted _)
  have htake : ∀ r : Reconciled,
      Appended (· ≠ ApmEvent.removed) r.state.log (placeMissingTakeProfit a r).state.log := by
    intro r
    unfold placeMissingTakeProfit
    dsimp only
    split_ifs
    · cases a.takeProfit with
      | ok _ => exact Appended.single (by simp)
      | error _ => exact Appended.single (by simp)
    · exact Appended.refl _ _
  have hpersist : ∀ r : Reconciled,
      Appended (· ≠ ApmEvent.removed) r.state.log (persistChanges r).log := by
    intro r
    unfold persistChanges
    split_ifs
    · exact Appended.single (by simp)
    · exact Appended.refl _ _
  have hcomputed := hstop (fillEntryTime (fillRisk (fillAtr a r)))
  rw [computedFields_log] at hcomputed
  exact (hcomputed.trans (htake _)).trans (hpersist _)

theorem readExchange_not_removed (p : ExchangePosition) (s : ManagerState) :
    Appended (· ≠ ApmEvent.removed) s.log (readExchange p ⟨s, false⟩).state.log := by
  have hfilled : (fillAmount p (fillEntryPrice p ⟨s, false⟩)).state.log = s.log := by
    unfold fillAmount fillEntryPrice
    split_ifs <;> rfl
  have hread : ∀ r : Reconciled,
      Appended (· ≠ ApmEvent.removed) r.state.log (readStop p r).state.log := by
    intro r
    unfold readStop
    dsimp only
    split_ifs
    · exact Appended.single (by simp)
    · exact Appended.refl _ _
    · exact Appended.single (by simp)
    · exact Appended.refl _ _
  have hcopied : ∀ r : Reconciled, (readTakeProfit p r).state.log = r.state.log := by
    intro r
    unfold readTakeProfit
    split_ifs <;> rfl
  have hstop := hread (fillAmount p (fillEntryPrice p ⟨s, false⟩))
  rw [hfilled] at hstop
  unfold readExchange
  rw [hcopied]
  exact hstop

/-- Only a phantom is removed by the reconcile step. -/
theorem reconcilePosition_not_removed (hfound : isPhantom a s.pos = false) :
    Appended (· ≠ ApmEvent.removed) s.log (reconcilePosition a s).log := by
  unfold isPhantom at hfound
  unfold reconcilePosition
  cases hpositions : a.positions with
  | none => exact repairRecord_not_removed a ⟨s, false⟩
  | some positions =>
      rw [hpositions] at hfound
      dsimp only at hfound ⊢
      cases hposition : findExchangePosition positions s.pos.symbol s.pos.side with
      | none => simp [hposition] at hfound
      | some p =>
          exact (readExchange_not_removed p s).trans (repairRecord_not_removed a _)

end Reconcile

/-! ## One cycle -/

/-- Between the two states, a removal is not followed by a write, and leaves the
key absent in the end. -/
def StaysRemoved (s s' : ManagerState) : Prop :=
  ∀ before after, s'.log = s.log ++ (before ++ .removed :: after) →
    s'.stored = none ∧ ∀ record, .written record ∉ after

section Cycle

variable {a : CycleAnswers} {s s' : ManagerState}

/-- Nothing to show without a removal. -/
theorem StaysRemoved.of_not_removed (h : Appended (· ≠ ApmEvent.removed) s.log s'.log) :
    StaysRemoved s s' := by
  rcases h with ⟨new, hlog, hnew⟩
  intro before after hsplit
  rw [hlog, List.append_cancel_left_eq] at hsplit
  exact absurd rfl (hnew .removed (by simp [hsplit]))

/-- A removal at the very end is final. -/
theorem RemovedLast.staysRemoved (h : RemovedLast s s') : StaysRemoved s s' := by
  rcases h with ⟨log, hlog, ⟨new, hnewlog, hnew⟩, hstored⟩
  intro before after hsplit
  refine ⟨hstored, ?_⟩
  rw [hlog, hnewlog, List.append_assoc, List.append_cancel_left_eq] at hsplit
  rcases List.append_eq_append_iff.mp hsplit with ⟨mid, hbefore, hlast⟩ | ⟨mid, hfirst, hlast⟩
  · cases mid with
    | nil =>
        rcases List.cons.inj hlast with ⟨-, hafter⟩
        simp [← hafter]
    | cons first rest => simp at hlast
  · cases mid with
    | nil =>
        rcases List.cons.inj hlast with ⟨-, hafter⟩
        simp [hafter]
    | cons first rest =>
        rcases List.cons.inj hlast with ⟨hremoved, -⟩
        exact absurd hremoved.symm (hnew first (by simp [hfirst]))

/-- Without a purge only a force close removes the record, and then it returns. -/
theorem runRules_stays_removed (hkept : Appended (· ≠ ApmEvent.removed) s.log s'.log)
    (snap : Snapshot) : StaysRemoved s (runRules a snap s').state := by
  have hspec : Flow.Spec (fun s' => Appended (· ≠ ApmEvent.removed) s.log s'.log)
      (Flow.blocks (cycleOrder.map (CycleRule.block a snap)))
      (fun s' => Appended (· ≠ ApmEvent.removed) s.log s'.log)
      fun s' => Appended (· ≠ ApmEvent.removed) s.log s'.log ∨ RemovedLast s s' := by
    apply Flow.Spec.blocks_map
    intro rule _ s'' hinv
    exact (rule.store_outcome a snap s'').ends hinv
  rcases (hspec s' hkept).state fun _ h => Or.inl h with hnone | hlast
  · exact StaysRemoved.of_not_removed hnone
  · exact hlast.staysRemoved

/-- Condition of a cycle that purges its record: no rule that is reached afterwards
writes. -/
def NothingWritten (a : CycleAnswers) (s : ManagerState) : Prop :=
  Flow.Met (CycleRule.block a (snapshot s.pos))
    (fun rule s' => ¬ RuleWrites a (snapshot s.pos) rule s') cycleOrder (rulesStart a s)

/-- Nothing is written exactly when the number of writes stays what it was. -/
theorem nothingWritten_iff (a : CycleAnswers) (s : ManagerState) :
    NothingWritten a s ↔
      (runRules a (snapshot s.pos) (rulesStart a s)).state.writes = (rulesStart a s).writes :=
  Flow.met_iff_counter_eq (fun rule s' => (rule.store_outcome a (snapshot s.pos) s').writes_le)
    (fun rule s' => (rule.store_outcome a (snapshot s.pos) s').writes_eq_iff) cycleOrder _

/-- Where nothing is written, a purged key stays absent. -/
theorem NothingWritten.stored_none (h : NothingWritten a s)
    (hstored : (rulesStart a s).stored = none) :
    (runRules a (snapshot s.pos) (rulesStart a s)).state.stored = none := by
  have hends := h.ends (fun rule s' hinv hwrites =>
    Flow.ends_of_state ((rule.store_outcome a (snapshot s.pos) s').stored_none hwrites hinv))
    hstored
  exact hends.state fun _ hnone => hnone

/-- A rule only adds to the log. -/
theorem CycleRule.log_grows (a : CycleAnswers) (snap : Snapshot) (rule : CycleRule)
    (s : ManagerState) : s.log <+: (rule.block a snap s).state.log := by
  cases rule.store_outcome a snap s with
  | quiet hquiet _ =>
      rcases hquiet.log with ⟨new, hnew, -⟩
      exact ⟨new, hnew.symm⟩
  | wrote hwrote _ =>
      rcases hwrote with ⟨new, _, hnew, -, -⟩
      exact ⟨new, hnew.symm⟩
  | removed closed mid hret hquiet hlog _ _ =>
      rcases hquiet.log with ⟨new, hnew, -⟩
      rw [hret, Flow.state_ret, hlog, hnew, List.append_assoc]
      exact List.prefix_append _ _
  | rewrote closed mid record hret hquiet hlog _ _ =>
      rcases hquiet.log with ⟨new, hnew, -⟩
      rw [hret, Flow.state_ret, hlog, hnew, List.append_assoc]
      exact List.prefix_append _ _

/-- The log of a run of rules extends the one it starts with. -/
theorem runRules_log (a : CycleAnswers) (snap : Snapshot) (s : ManagerState) :
    ∃ new, (runRules a snap s).state.log = s.log ++ new := by
  have hgrows : ∀ rule ∈ cycleOrder, ∀ s' : ManagerState,
      s'.log <+: (CycleRule.block a snap rule s').state.log :=
    fun rule _ s' => rule.log_grows a snap s'
  rcases Flow.trace_blocks hgrows s with ⟨new, hnew⟩
  exact ⟨new, hnew.symm⟩

/-- After a purge a cycle leaves the key absent exactly when it writes nothing. -/
theorem purged_stays_removed_iff (hlog : (rulesStart a s).log = s.log ++ [.removed])
    (hstored : (rulesStart a s).stored = none) :
    StaysRemoved s (runRules a (snapshot s.pos) (rulesStart a s)).state ↔ NothingWritten a s := by
  rcases runRules_log a (snapshot s.pos) (rulesStart a s) with ⟨new, hnew⟩
  have hwrites : NothingWritten a s ↔ ∀ record, .written record ∉ new := by
    rw [nothingWritten_iff, ManagerState.writes, ManagerState.writes, hnew, List.countP_append,
      Nat.add_eq_left, List.countP_eq_zero]
    constructor
    · intro hnone record hmem
      exact hnone _ hmem rfl
    · intro hnone e he hwrite
      cases e with
      | written record => exact hnone record he
      | _ => cases hwrite
  have hwhole : (runRules a (snapshot s.pos) (rulesStart a s)).state.log =
      s.log ++ ([] ++ .removed :: new) := by
    rw [hnew, hlog, List.append_assoc]
    rfl
  constructor
  · intro hstays
    exact hwrites.mpr (hstays [] new hwhole).2
  · intro hnothing before after hsplit
    refine ⟨hnothing.stored_none hstored, ?_⟩
    rw [hwhole, List.append_cancel_left_eq, List.nil_append] at hsplit
    intro record hafter
    refine hwrites.mp hnothing record ?_
    cases before with
    | nil =>
        rcases List.cons.inj hsplit with ⟨-, htail⟩
        rw [htail]
        exact hafter
    | cons first rest =>
        rcases List.cons.inj hsplit with ⟨-, htail⟩
        rw [htail]
        exact List.mem_append_right _ (List.mem_cons_of_mem _ hafter)

/-- A cycle leaves removed records removed exactly when, after purging a phantom
with a known entry and risk, it reaches no rule that writes the record. -/
theorem manageSinglePosition_stays_removed_iff (a : CycleAnswers) (s : ManagerState) :
    StaysRemoved s (manageSinglePosition a s) ↔
      (inCooldown a s.pos = false → isPhantom a.reconcile s.pos = true →
        0 < s.pos.entryPrice → 0 < s.pos.initialRiskPerUnit → NothingWritten a s) := by
  cases hphantom : isPhantom a.reconcile s.pos with
  | false =>
      have hkept : Appended (· ≠ ApmEvent.removed) s.log (rulesStart a s).log :=
        reconcilePosition_not_removed hphantom
      refine iff_of_true ?_ fun _ hfound => by cases hfound
      rcases manageSinglePosition_cases a s with ⟨-, hskipped⟩ | ⟨-, -, hended⟩ | ⟨-, hran⟩
      · rw [hskipped]
        exact StaysRemoved.of_not_removed (Appended.refl _ _)
      · rw [hended]
        exact StaysRemoved.of_not_removed hkept
      · rw [hran]
        exact runRules_stays_removed hkept _
  | true =>
      have hpurged : rulesStart a s = readLocals
          { s.remove with forceClosedAt := some a.reconcile.purgeClock } := by
        rw [rulesStart, reconcilePosition_phantom hphantom]
      have hpos : (rulesStart a s).pos = s.pos := by rw [hpurged]; rfl
      have hlog : (rulesStart a s).log = s.log ++ [.removed] := by rw [hpurged]; rfl
      have hstored : (rulesStart a s).stored = none := by rw [hpurged]; rfl
      rcases manageSinglePosition_cases a s with
        ⟨hcooldown, hskipped⟩ | ⟨hcooldown, hstopped, hended⟩ | ⟨hreached, hran⟩
      · rw [hskipped, hcooldown]
        exact iff_of_true (StaysRemoved.of_not_removed (Appended.refl _ _)) fun h => by cases h
      · have hlast : RemovedLast s (rulesStart a s) := ⟨s.log, hlog, Appended.refl _ _, hstored⟩
        rw [hended]
        refine iff_of_true hlast.staysRemoved fun _ _ hentry hrisk => ?_
        simp [reachesRules, hcooldown, hpos, hentry, hrisk] at hstopped
      · rw [hran, hpos, purged_stays_removed_iff hlog hstored]
        simp only [reachesRules, hpos, Bool.and_eq_true, Bool.not_eq_true', decide_eq_true_eq]
          at hreached
        rcases hreached with ⟨⟨hcooldown, hentry⟩, hrisk⟩
        exact ⟨fun h _ _ _ _ => h, fun h => h hcooldown rfl hentry hrisk⟩

/-- The exchange reports no position for the record; everything else is accepted. -/
def phantomReport : ReconcileAnswers :=
  { holdingReport .Buy 98 with positions := some [] }

/-- A purged record is back in the store when the cycle returns. -/
theorem manageSinglePosition_restores_phantom :
    ¬ StaysRemoved (.ofRecord samplePosition)
      (manageSinglePosition (acceptingAnswers phantomReport) (.ofRecord samplePosition)) := by
  intro hstays
  have hgone := (hstays [] (manageSinglePosition (acceptingAnswers phantomReport)
    (.ofRecord samplePosition)).log.tail (by decide +kernel)).1
  exact absurd hgone (by decide +kernel)

end Cycle

end Manager
end Karsa
