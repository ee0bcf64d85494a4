import Karsa.Execution.ClosingRoutines
import Karsa.Execution.Manager.Cycle

/-!
# Active position manager - The trailing-limit exit as a protocol

From 1.5R on a cycle places a limit order for the whole position, follows the price with it, and
should close the position at the market once a minute is over.  The exit is taken here as a
protocol between the manager and the exchange: the orders that were placed, what became of each of
them, and the cycles in between.

Main results:

- Theorem `nextLimitPrice_favourable`: the price never moves back.
- Theorem `limitDue_of_activated`: an exit that is activated places its order at once.
- Theorem `CycleRule.limits_eq_iff`: which rule of a cycle places a limit order, and when.
- Theorem `protocolKept_iff`: the runs that keep the protocol place no limit order.
-/

namespace Karsa
namespace Manager

open Bybit Closing

/-! ## The price -/

/-- At least as high for a long, at least as low for a short. -/
def Favourable : Side → (new old : ℚ) → Prop
  | .LONG, new, old => old ≤ new
  | .SHORT, new, old => new ≤ old

/-- A limit price that is set never moves back. -/
theorem nextLimitPrice_favourable (snap : Snapshot) {current : ℚ} (hset : 0 < current) :
    Favourable snap.side (nextLimitPrice snap current) current := by
  unfold nextLimitPrice Favourable
  cases snap.side with
  | LONG =>
      dsimp only
      split_ifs with hmoves
      · rcases hmoves with hunset | hhigher
        · exact absurd hset hunset.not_gt
        · exact hhigher.le
      · exact le_rfl
  | SHORT =>
      dsimp only
      split_ifs with hmoves
      · rcases hmoves with hunset | hlower
        · exact absurd hset hunset.not_gt
        · exact hlower.le
      · exact le_rfl

/-- An exit that is activated places its order in the same pass. -/
theorem limitDue_of_activated (a : LimitAnswers) (snap : Snapshot) (s : ManagerState)
    (hinactive : s.pos.trailingLimitState = .INACTIVE) (hr : 3 / 2 ≤ snap.rMult)
    (hfresh : s.pos.trailingLimitOrderId = []) (hamount : 0 < s.pos.amount)
    (hprice : 0 < nextLimitPrice snap s.pos.trailingLimitPrice) :
    limitDue a snap s = true := by
  have hactive : activateLimit a.clock snap s = s.edit
      ({ · with trailingLimitState := .TRAILING_LIMIT_ACTIVE,
                trailingLimitPlacedAt := some a.clock }) := by
    rw [activateLimit, if_pos ⟨hinactive, hr⟩]
  unfold limitDue
  rw [hactive]
  simp [hfresh, hamount, hprice]

/-- An order that is placed starts the minute anew. -/
theorem placeLimitExit_placedAt (a : LimitAnswers) {price : ℚ} {s : ManagerState}
    (hamount : 0 < s.pos.amount) (hprice : 0 < price) (hplaced : a.order.isOk = true) :
    (placeLimitExit a price s).pos.trailingLimitPlacedAt = some a.clock := by
  rw [placeLimitExit, if_pos ⟨hamount, hprice⟩]
  cases horder : a.order with
  | ok order => rfl
  | error message =>
      rw [horder] at hplaced
      cases hplaced

/-! ## Limit orders in the log -/

/-- Is the event a limit order? -/
def ApmEvent.isLimit : ApmEvent → Bool
  | .limitSent _ _ _ => true
  | .stopSent _ _ | .stopRead _ | .takeProfitSent _ _ | .reduceSent _ _ _ | .cancelSent _ _
  | .marketSent _ _ _ | .written _ | .removed => false

/-- Number of limit orders sent so far. -/
def ManagerState.limits (s : ManagerState) : ℕ :=
  s.log.countP ApmEvent.isLimit

/-- Nothing of what follows is a limit order. -/
def NoLimits (s s' : ManagerState) : Prop :=
  Appended (fun e => ApmEvent.isLimit e = false) s.log s'.log

namespace NoLimits

variable {s s' s'' : ManagerState}

theorem refl (s : ManagerState) : NoLimits s s :=
  Appended.refl _ _

theorem trans (h : NoLimits s s') (h' : NoLimits s' s'') : NoLimits s s'' :=
  Appended.trans h h'

theorem limits (h : NoLimits s s') : s'.limits = s.limits := by
  rcases h with ⟨new, hlog, hnew⟩
  have hzero : new.countP ApmEvent.isLimit = 0 := by
    rw [List.countP_eq_zero]
    intro e he
    rw [hnew e he]
    exact Bool.false_ne_true
  rw [ManagerState.limits, hlog, List.countP_append, hzero]
  rfl

theorem emit (s : ManagerState) {e : ApmEvent} (he : e.isLimit = false) : NoLimits s (s.emit e) :=
  Appended.single he

theorem persist (s : ManagerState) : NoLimits s s.persist :=
  Appended.single rfl

theorem remove (s : ManagerState) : NoLimits s s.remove :=
  Appended.single rfl

theorem updateSl (s : ManagerState) (stop : ℚ) : NoLimits s (s.updateSl stop) := by
  unfold ManagerState.updateSl
  cases s.stored with
  | none => exact refl s
  | some record => exact Appended.single rfl

theorem amendStop (s : ManagerState) {symbol : Text} (accepted : Bool) (stop : ℚ) :
    NoLimits s (s.amendStop symbol accepted stop) := by
  unfold ManagerState.amendStop
  dsimp only
  split_ifs
  · exact emit s rfl
  · exact emit s rfl

theorem amendAndTrack (s : ManagerState) {symbol : Text} (accepted : Bool) (stop : ℚ) :
    NoLimits s (amendAndTrack symbol accepted stop s) := by
  unfold Manager.amendAndTrack
  dsimp only
  split_ifs
  · exact amendStop s accepted stop
  · exact amendStop s accepted stop

theorem lockBreakeven (b : BreakevenAnswers) (snap : Snapshot) (s : ManagerState) :
    NoLimits s (lockBreakeven b snap s) := by
  have hsent : NoLimits s (sendWithRetry b (breakevenStop snap.entryPrice) s) := by
    unfold sendWithRetry
    dsimp only
    split_ifs
    · exact emit s rfl
    · exact (emit s rfl).trans (emit _ rfl)
  unfold Manager.lockBreakeven Manager.moveStopToBreakeven
  dsimp only
  generalize sendWithRetry b (breakevenStop snap.entryPrice) s = sent at hsent
  split_ifs
  · exact refl s
  · have hmarked : NoLimits s (sent.edit fun pos =>
        { pos.recordStop (breakevenStop snap.entryPrice) with movedToBreakeven := true }) :=
      hsent.trans (refl _)
    exact hmarked.trans ((persist _).trans (updateSl _ (breakevenStop snap.entryPrice)))
  · exact hsent

theorem scaleOutTo (tier : Nat) (accepted : Bool) (pct : ℚ) (s : ManagerState) :
    NoLimits s (scaleOutTo tier accepted pct s) := by
  unfold Manager.scaleOutTo Manager.scaleOutPosition
  dsimp only
  split_ifs
  · exact refl s
  · exact emit s rfl
  · exact emit s rfl

theorem forceClosePosition (a : CloseAnswers) (reason : Text) (s : ManagerState) :
    NoLimits s (forceClosePosition a reason s) := by
  refine (forceClosePosition_silent .empty a (snapshot s.pos) reason s).mono ?_
  intro e he
  cases e with
  | limitSent qty price accepted => cases he
  | _ => rfl

/-! ### The reconcile step -/

theorem readExchange (s : ManagerState) (p : ExchangePosition) (changed : Bool) :
    NoLimits s (readExchange p ⟨s, changed⟩).state := by
  have hfields : ∀ r : Reconciled,
      NoLimits r.state (fillAmount p (fillEntryPrice p r)).state := by
    intro r
    unfold fillAmount fillEntryPrice
    split_ifs <;> exact refl r.state
  have hstop : ∀ r : Reconciled, NoLimits r.state (readStop p r).state := by
    intro r
    unfold readStop
    dsimp only
    split_ifs
    · exact emit r.state rfl
    · exact refl r.state
    · exact emit r.state rfl
    · exact refl r.state
  have htake : ∀ r : Reconciled, NoLimits r.state (readTakeProfit p r).state := by
    intro r
    unfold readTakeProfit
    split_ifs <;> exact refl r.state
  exact ((hfields ⟨s, changed⟩).trans (hstop _)).trans (htake _)

theorem computedFields (answers : ReconcileAnswers) (r : Reconciled) :
    NoLimits r.state (fillEntryTime (fillRisk (fillAtr answers r))).state := by
  have hatr : NoLimits r.state (fillAtr answers r).state := by
    unfold fillAtr
    split_ifs <;> exact refl r.state
  have hrisk : ∀ r : Reconciled, NoLimits r.state (fillRisk r).state := by
    intro r
    unfold fillRisk
    dsimp only
    split_ifs <;> exact refl r.state
  exact (hatr.trans (hrisk _)).trans (refl _)

theorem placeMissing (answers : ReconcileAnswers) (r : Reconciled) :
    NoLimits r.state (placeMissingTakeProfit answers (placeMissingStop answers r)).state := by
  have hstop : NoLimits r.state (placeMissingStop answers r).state := by
    rcases placeMissingStop_outcome answers r with hstate | ⟨-, accepted, hstate⟩ |
      ⟨-, accepted, hstate⟩
    · rw [hstate]
      exact refl _
    · rw [hstate]
      exact amendStop _ accepted _
    · rw [hstate]
      exact (amendStop _ false _).trans (amendStop _ accepted _)
  refine hstop.trans ?_
  unfold placeMissingTakeProfit
  dsimp only
  split_ifs
  · cases answers.takeProfit with
    | ok _ => exact emit _ rfl
    | error _ => exact emit _ rfl
  · exact refl _

/-- The reconcile step places no limit order. -/
theorem reconcilePosition (s : ManagerState) (answers : ReconcileAnswers) :
    NoLimits s (reconcilePosition answers s) := by
  have hrepair : ∀ r : Reconciled, NoLimits r.state (repairRecord answers r) := by
    intro r
    have hfilled := (computedFields answers r).trans (placeMissing answers _)
    unfold repairRecord persistChanges
    split_ifs
    · exact hfilled.trans (persist _)
    · exact hfilled
  unfold Manager.reconcilePosition
  cases answers.positions with
  | none => exact hrepair ⟨s, false⟩
  | some positions =>
      dsimp only
      cases findExchangePosition positions s.pos.symbol s.pos.side with
      | none => exact remove s
      | some p => exact (readExchange s p false).trans (hrepair _)

/-! ### The other rules -/

variable (a : CycleAnswers) (snap : Snapshot) (s : ManagerState)

theorem wickGuard : NoLimits s (CycleRule.wickGuard.block a snap s).state := by
  have hfired : NoLimits s (Manager.amendAndTrack snap.symbol (a.amend .wickGuard) (tightStop snap)
      (s.edit ({ · with lastWickGuardTs := a.wickClock }))) :=
    (refl s).trans (amendAndTrack _ _ _)
  unfold CycleRule.block Manager.wickGuard
  dsimp only
  split_ifs
  · exact persist _
  · exact hfired.trans (persist _)
  · exact refl s

theorem moonBagExit : NoLimits s (CycleRule.moonBagExit.block a snap s).state := by
  have hsent : ∀ (s' : ManagerState) symbol qty accepted,
      NoLimits s' (s'.sendReduce symbol qty accepted) := fun s' _ _ _ => emit s' rfl
  have hstarted : NoLimits s (moonBagStarted snap s) := hsent s _ _ true
  rw [CycleRule.block]
  rcases moonBagExit_outcome a.reduce a.moonStop snap s with
    ⟨-, hflow⟩ | ⟨-, -, hflow⟩ | ⟨-, -, -, hflow⟩ | ⟨rest, -, -, -, -, hflow⟩ |
    ⟨rest, -, -, -, -, hflow⟩
  · rw [hflow]
    exact refl s
  · rw [hflow]
    exact hsent s _ _ false
  · rw [hflow]
    exact hstarted.trans (amendAndTrack _ true _)
  · rw [hflow]
    exact (hstarted.trans (amendAndTrack _ false _)).trans (hsent _ _ _ false)
  · rw [hflow]
    exact (hstarted.trans (amendAndTrack _ false _)).trans (hsent _ _ _ true)

theorem timeExit : NoLimits s (CycleRule.timeExit.block a snap s).state := by
  unfold CycleRule.block manageTimeExit
  cases snap.entryTime with
  | none => exact refl s
  | some entryTime =>
      dsimp only
      cases (timeExitReason a.exitClock snap entryTime s.pos).1 with
      | none => exact refl s
      | some reason =>
          exact forceClosePosition _ reason
            { s with pos := (timeExitReason a.exitClock snap entryTime s.pos).2 }

theorem regimeShift : NoLimits s (CycleRule.regimeShift.block a snap s).state := by
  unfold CycleRule.block checkRegimeShift
  split_ifs
  · exact refl s
  · cases a.currentRegime with
    | error message => exact refl s
    | ok current =>
        dsimp only
        split_ifs
        · exact refl s
        · exact forceClosePosition _ _ { s with shiftCount := s.shiftCount + 1 }
        · exact refl s

theorem moonTrailing : NoLimits s (CycleRule.moonTrailing.block a snap s).state := by
  rw [CycleRule.block]
  rcases moonTrailing_cases snap (a.amend .moonTrailing) s with
    ⟨highest, hflow | ⟨stop, -, -, -, hflow⟩⟩
  · rw [hflow]
    exact refl s
  · rw [hflow]
    exact amendStop { s.edit ({ · with highestSincePartial := highest }) with slPrice := stop } _ _

theorem cvdOrTrendTiers : NoLimits s (CycleRule.cvdOrTrendTiers.block a snap s).state := by
  unfold CycleRule.block Manager.cvdOrTrendTiers
  rw [Flow.state_next]
  split_ifs
  · exact lockBreakeven _ snap s
  · exact refl s
  · exact (scaleOutTo 1 _ _ s).trans (lockBreakeven _ snap _)
  · exact scaleOutTo 2 _ _ s
  · exact refl s

end NoLimits

/-- No rule but the trailing limit places a limit order. -/
theorem CycleRule.noLimits (a : CycleAnswers) (snap : Snapshot) {rule : CycleRule}
    (hrule : rule ≠ .trailingLimit) (s : ManagerState) :
    NoLimits s (rule.block a snap s).state := by
  cases rule with
  | wickGuard => exact NoLimits.wickGuard a snap s
  | trackPeak =>
      unfold CycleRule.block Manager.trackPeak
      dsimp only
      split_ifs
      · exact NoLimits.refl s
      · exact NoLimits.refl s
  | ensureTakeProfit =>
      unfold CycleRule.block Manager.ensureTakeProfit
      dsimp only
      split_ifs
      · exact NoLimits.emit s rfl
      · exact NoLimits.emit s rfl
      · exact NoLimits.refl s
  | scaleOutAndLock =>
      unfold CycleRule.block Manager.scaleOutAndLock
      rw [Flow.state_next]
      split_ifs
      · exact (NoLimits.scaleOutTo 1 _ _ s).trans (NoLimits.lockBreakeven _ snap _)
      · exact NoLimits.refl s
  | sniperExhaustion =>
      unfold CycleRule.block Manager.sniperExhaustion
      split_ifs
      · exact NoLimits.refl s
      · exact NoLimits.refl s
  | cvdOrTrendTiers => exact NoLimits.cvdOrTrendTiers a snap s
  | moonBagExit => exact NoLimits.moonBagExit a snap s
  | moonTrailing => exact NoLimits.moonTrailing a snap s
  | trailingLimit => exact absurd rfl hrule
  | breakevenTrigger =>
      rw [CycleRule.block]
      rcases breakevenTrigger_cases snap s a with ⟨-, hflow⟩ | ⟨-, hflow⟩
      · rw [hflow]
        exact NoLimits.refl s
      · rw [hflow]
        exact NoLimits.lockBreakeven _ snap s
  | halfBreakeven =>
      rw [CycleRule.block, Flow.state_next]
      rcases halfBreakeven_cases snap (a.amend .halfBreakeven) s with
        hsame | ⟨stop, moved, -, -, -, hflow⟩
      · rw [hsame]
        exact NoLimits.refl s
      · rw [hflow]
        exact NoLimits.amendAndTrack s _ stop
  | profitProtect =>
      rw [CycleRule.block, Flow.state_next]
      rcases profitProtect_cases snap (a.amend .profitProtect) s with hsame | ⟨-, -, -, hflow⟩
      · rw [hsame]
        exact NoLimits.refl s
      · rw [hflow]
        exact NoLimits.amendAndTrack s _ _
  | trendTrailing =>
      rw [CycleRule.block]
      rcases manageTrendTrailingStop_cases snap (a.amend .trendTrailing) s with
        hsame | ⟨stop, -, -, hflow⟩
      · rw [hsame]
        exact NoLimits.refl s
      · rw [hflow]
        exact NoLimits.amendStop s _ stop
  | timeExit => exact NoLimits.timeExit a snap s
  | regimeShift => exact NoLimits.regimeShift a snap s
  | persist => exact NoLimits.persist s

/-- Every limit order of a log is a request. -/
theorem limits_eq_length (t : InstrumentTables) (snap : Snapshot) (s : ManagerState) :
    s.limits = (s.log.filterMap (limitRequest? t snap)).length := by
  unfold ManagerState.limits
  induction s.log with
  | nil => rfl
  | cons e rest ih =>
      rw [List.countP_cons, List.filterMap_cons, ih]
      cases e <;> rfl

/-- The trailing limit places one order if one is due. -/
theorem trailingLimit_limits (a : LimitAnswers) (close : CloseAnswers) (snap : Snapshot)
    (s : ManagerState) :
    (trailingLimit a close snap s).state.limits =
      s.limits + if limitDue a snap s then 1 else 0 := by
  rw [limits_eq_length .empty snap, trailingLimit_requests, List.length_append,
    ← limits_eq_length]
  split_ifs <;> rfl

/-- A rule places no limit order exactly when it is another rule, or none is due. -/
theorem CycleRule.limits_eq_iff (a : CycleAnswers) (snap : Snapshot) (rule : CycleRule)
    (s : ManagerState) :
    (rule.block a snap s).state.limits = s.limits ↔
      (rule = .trailingLimit → limitDue a.limit snap s = false) := by
  by_cases hrule : rule = .trailingLimit
  · rw [hrule, CycleRule.block, trailingLimit_limits]
    cases limitDue a.limit snap s <;> simp
  · exact iff_of_true (CycleRule.noLimits a snap hrule s).limits fun h => absurd h hrule

/-- No rule takes a limit order back. -/
theorem CycleRule.limits_le (a : CycleAnswers) (snap : Snapshot) (rule : CycleRule)
    (s : ManagerState) : s.limits ≤ (rule.block a snap s).state.limits := by
  by_cases hrule : rule = .trailingLimit
  · rw [hrule, CycleRule.block, trailingLimit_limits]
    exact Nat.le_add_right _ _
  · exact (CycleRule.noLimits a snap hrule s).limits.ge

/-! ## The protocol -/

/-- What became of a limit order. -/
inductive LimitStatus where
  | refused
  | opened
  | cancelled
  | filled
deriving Repr, DecidableEq

/-- A limit order of the manager, the side of the position it is for, the price it asks for, and
when it was placed. -/
structure LimitOrder where
  id : Text
  side : Side
  request : OrderRequest
  price : ℚ
  placedAt : ℚ
  status : LimitStatus

/-- One cycle, and whether the exchange takes the limit order that it sends. -/
structure LimitCycle extends CycleInput where
  taken : Bool

/-- A cycle of the manager, or an order that the exchange fills or drops. -/
inductive LimitEvent where
  | cycle (c : LimitCycle)
  | fill (n : ℕ)
  | drop (n : ℕ)

/-- The manager and its limit orders, in the order of their placement; whether a position was
managed after its limit order had filled, and whether an exit outlived its minute. -/
structure LimitState where
  manager : ManagerState
  orders : List LimitOrder
  managedFilled : Bool
  overdue : Bool

section Protocol

variable (t : InstrumentTables)

/-- An order of the log is in the book, or a cancellation takes it out. -/
def noteLimit (record : PositionRecord) (c : LimitCycle) (orders : List LimitOrder) :
    ApmEvent → List LimitOrder
  | .limitSent qty price _ =>
      orders ++ [{
        id := match c.answers.limit.order with
          | .ok order => order.orderId.getD (order.id.getD [])
          | .error _ => []
        side := record.side
        request := limitRequest t record.symbol record.side.apiSide qty price true
        price := price
        placedAt := c.answers.limit.clock
        status := if c.taken then .opened else .refused }]
  | .cancelSent id true =>
      orders.map fun order =>
        if order.id = id ∧ order.status = .opened then { order with status := .cancelled }
        else order
  | .cancelSent _ false | .stopSent _ _ | .stopRead _ | .takeProfitSent _ _ | .reduceSent _ _ _
  | .marketSent _ _ _ | .written _ | .removed => orders

/-- Give an open order another status. -/
def settleLimit (status : LimitStatus) (order : LimitOrder) : LimitOrder :=
  if order.status = .opened then { order with status := status } else order

/-- The exit is still open a minute after its first order. -/
def LimitState.late (s : LimitState) (clock : ℚ) : Bool :=
  (s.orders.head?.any fun first => decide (60 < clock - first.placedAt)) &&
    s.orders.all fun order => decide (order.status ≠ .filled)

/-- Nothing is left in the book, and a market order closes the position. -/
def closedAtMarket (side : Side) (orders : List LimitOrder) (log : List ApmEvent) : Bool :=
  (orders.all fun order => decide (order.status ≠ .opened)) &&
    log.any fun
      | .marketSent sent _ accepted => decide (sent = side.apiSide.opposite) && accepted
      | _ => false

/-- One event. -/
def limitStep (s : LimitState) : LimitEvent → LimitState
  | .cycle c =>
      match s.manager.stored with
      | none => s
      | some record =>
          let after := manage { s.manager with log := [] } c.toCycleInput
          let orders := after.log.foldl (noteLimit t record c) s.orders
          { manager := after
            orders := orders
            managedFilled := s.managedFilled ||
              (s.orders.any fun order => decide (order.status = .filled)) &&
                after.log.any ApmEvent.isCall
            overdue := s.overdue ||
              s.late c.answers.limit.clock && !closedAtMarket record.side orders after.log }
  | .fill n => { s with orders := s.orders.modify n (settleLimit .filled) }
  | .drop n => { s with orders := s.orders.modify n (settleLimit .cancelled) }

end Protocol

/-- Every limit order is reduce-only and closes, at a price that only moves in the position's
favour; at most one of them is open; a position whose limit order has filled is not managed any
more, and an exit that has not filled within a minute is closed at the market. -/
structure ProtocolKept (s : LimitState) : Prop where
  closing : ∀ order ∈ s.orders, order.request.reduceOnly = true ∧
    order.request.side = order.side.apiSide.opposite
  favourable : s.orders.IsChain fun old new => Favourable new.side new.price old.price
  single : (s.orders.countP fun order => decide (order.status = .opened)) ≤ 1
  filled : s.managedFilled = false
  timely : s.overdue = false

/-- No rule of the cycle is reached with a limit order due. -/
def NoLimitDue (s : LimitState) : LimitEvent → Prop
  | .cycle c => ∀ record, s.manager.stored = some record →
      let start := startCycle c.live record { s.manager with log := [] }
      reachesRules c.answers start = true →
        Flow.Met (CycleRule.block c.answers (snapshot (rulesStart c.answers start).pos))
          (fun rule s' => rule = .trailingLimit →
            limitDue c.answers.limit (snapshot (rulesStart c.answers start).pos) s' = false)
          cycleOrder (rulesStart c.answers start)
  | .fill _ | .drop _ => True

section Kept

variable {t : InstrumentTables} {s : LimitState}

/-- A cycle sends no limit order exactly when none is due. -/
theorem manage_limits_iff (c : LimitCycle) {record : PositionRecord}
    (hstored : s.manager.stored = some record) :
    (manage { s.manager with log := [] } c.toCycleInput).limits = 0 ↔ NoLimitDue s (.cycle c) := by
  have hmanage : manage { s.manager with log := [] } c.toCycleInput =
      manageSinglePosition c.answers (startCycle c.live record { s.manager with log := [] }) := by
    unfold manage
    dsimp only
    rw [hstored]
  have hcond : NoLimitDue s (.cycle c) ↔
      (reachesRules c.answers (startCycle c.live record { s.manager with log := [] }) = true → _) :=
    ⟨fun h => h record hstored, fun h record' hrecord' => by
      obtain rfl := Option.some.inj (hstored.symm.trans hrecord')
      exact h⟩
  rw [hmanage, hcond]
  generalize hstart : startCycle c.live record { s.manager with log := [] } = start
  have hempty : start.limits = 0 := by
    rw [← hstart]
    rfl
  have hread : (rulesStart c.answers start).limits = 0 :=
    ((NoLimits.reconcilePosition start c.answers.reconcile).trans (NoLimits.refl _)).limits.trans
      hempty
  have hrules := Flow.met_iff_counter_eq
    (fun rule s' =>
      CycleRule.limits_le c.answers (snapshot (rulesStart c.answers start).pos) rule s')
    (fun rule s' =>
      CycleRule.limits_eq_iff c.answers (snapshot (rulesStart c.answers start).pos) rule s')
    cycleOrder (rulesStart c.answers start)
  rw [hread] at hrules
  rcases manageSinglePosition_cases c.answers start with
    ⟨hcooldown, hskipped⟩ | ⟨-, hstopped, hended⟩ | ⟨hreached, hran⟩
  · rw [hskipped]
    refine iff_of_true hempty fun hreached => ?_
    simp [reachesRules, hcooldown] at hreached
  · rw [hended]
    refine iff_of_true hread fun hreached => ?_
    rw [hstopped] at hreached
    exact absurd hreached Bool.false_ne_true
  · rw [hran]
    exact ⟨fun h _ => hrules.mpr h, fun h => hrules.mp (h hreached)⟩

/-- Every order is on the side of its position. -/
def OnPositionSide (s : LimitState) : Prop :=
  ∀ order ∈ s.orders, order.request.side = order.side.apiSide

/-- A protocol that is kept has no order. -/
theorem ProtocolKept.orders_eq_nil (h : ProtocolKept s) (hside : OnPositionSide s) :
    s.orders = [] := by
  rw [List.eq_nil_iff_forall_not_mem]
  intro order horder
  have hopposite := (h.closing order horder).2
  rw [hside order horder] at hopposite
  cases hposition : order.side with
  | LONG =>
      rw [hposition] at hopposite
      cases hopposite
  | SHORT =>
      rw [hposition] at hopposite
      cases hopposite

/-- Where there is no order the protocol is kept unless it was broken before. -/
theorem ProtocolKept.of_nil (horders : s.orders = []) (hfilled : s.managedFilled = false)
    (htimely : s.overdue = false) : ProtocolKept s := by
  refine ⟨?_, ?_, ?_, hfilled, htimely⟩
  · rw [horders]
    exact fun _ h => absurd h List.not_mem_nil
  · rw [horders]
    exact .nil
  · rw [horders]
    exact Nat.zero_le 1

/-- Each event of the log keeps the orders on the side of their position. -/
theorem noteLimit_onPositionSide (record : PositionRecord) (c : LimitCycle) (log : List ApmEvent)
    {orders : List LimitOrder} (h : ∀ order ∈ orders, order.request.side = order.side.apiSide) :
    ∀ order ∈ log.foldl (noteLimit t record c) orders,
      order.request.side = order.side.apiSide := by
  induction log generalizing orders with
  | nil => exact h
  | cons e rest ih =>
      rw [List.foldl_cons]
      refine ih ?_
      unfold noteLimit
      split
      · intro order horder
        rcases List.mem_append.mp horder with hold | hnew
        · exact h order hold
        · rw [List.mem_singleton.mp hnew]
          rfl
      · intro order horder
        rcases List.mem_map.mp horder with ⟨old, hold, rfl⟩
        split_ifs
        · exact h old hold
        · exact h old hold
      all_goals exact h

/-- Nothing is placed by a log without limit orders. -/
theorem noteLimit_eq_nil_iff (record : PositionRecord) (c : LimitCycle) (log : List ApmEvent) :
    log.foldl (noteLimit t record c) [] = [] ↔ log.countP ApmEvent.isLimit = 0 := by
  have hkept : ∀ (rest : List ApmEvent) {orders : List LimitOrder}, orders ≠ [] →
      rest.foldl (noteLimit t record c) orders ≠ [] := by
    intro rest
    induction rest with
    | nil => exact fun h => h
    | cons e rest ih =>
        intro orders h
        rw [List.foldl_cons]
        refine ih ?_
        unfold noteLimit
        split
        · simp
        · simpa using h
        all_goals exact h
  induction log with
  | nil => simp
  | cons e rest ih =>
      rw [List.foldl_cons, List.countP_cons]
      cases e with
      | limitSent qty price accepted =>
          refine iff_of_false (hkept rest ?_) (by simp [ApmEvent.isLimit])
          simp [noteLimit]
      | cancelSent id accepted =>
          cases accepted with
          | true => simpa [noteLimit, ApmEvent.isLimit] using ih
          | false => simpa [noteLimit, ApmEvent.isLimit] using ih
      | _ => simpa [noteLimit, ApmEvent.isLimit] using ih

/-- So does each event of the protocol. -/
theorem onPositionSide_step (h : OnPositionSide s) (event : LimitEvent) :
    OnPositionSide (limitStep t s event) := by
  have hsettled : ∀ status n, OnPositionSide
      { s with orders := s.orders.modify n (settleLimit status) } := by
    intro status n order horder
    rcases List.mem_iff_getElem?.mp horder with ⟨k, hk⟩
    rw [List.getElem?_modify] at hk
    rcases Option.map_eq_some_iff.mp hk with ⟨old, hold, rfl⟩
    have hbefore := h old (List.mem_of_getElem? hold)
    unfold settleLimit
    split_ifs <;> exact hbefore
  cases event with
  | cycle c =>
      unfold limitStep
      dsimp only
      cases s.manager.stored with
      | none => exact h
      | some record => exact noteLimit_onPositionSide record c _ h
  | fill n => exact hsettled .filled n
  | drop n => exact hsettled .cancelled n

/-- A step keeps the protocol exactly when it places no limit order. -/
theorem protocolKept_step (hside : OnPositionSide s) (h : ProtocolKept s) (event : LimitEvent) :
    ProtocolKept (limitStep t s event) ↔ NoLimitDue s event := by
  have hnone := h.orders_eq_nil hside
  have hnext := @onPositionSide_step t s hside event
  have hsettled : ∀ status n,
      ProtocolKept { s with orders := s.orders.modify n (settleLimit status) } := by
    intro status n
    refine ProtocolKept.of_nil ?_ h.filled h.timely
    rw [hnone]
    exact List.modify_nil _ _
  cases event with
  | cycle c =>
      cases hstored : s.manager.stored with
      | none =>
          have hsame : limitStep t s (.cycle c) = s := by
            unfold limitStep
            dsimp only
            rw [hstored]
          rw [hsame]
          refine iff_of_true h fun record hrecord => ?_
          rw [hstored] at hrecord
          cases hrecord
      | some record =>
          rw [← manage_limits_iff c hstored, ManagerState.limits,
            ← noteLimit_eq_nil_iff (t := t) record c]
          have hafter : limitStep t s (.cycle c) = {
              manager := manage { s.manager with log := [] } c.toCycleInput
              orders := (manage { s.manager with log := [] } c.toCycleInput).log.foldl
                (noteLimit t record c) []
              managedFilled := false
              overdue := false } := by
            unfold limitStep LimitState.late
            dsimp only
            rw [hstored, hnone, h.filled, h.timely]
            rfl
          rw [hafter] at hnext ⊢
          exact ⟨fun hkept => hkept.orders_eq_nil hnext, fun hnil => .of_nil hnil rfl rfl⟩
  | fill n => exact iff_of_true (hsettled .filled n) trivial
  | drop n => exact iff_of_true (hsettled .cancelled n) trivial

end Kept

/-- A run keeps the protocol exactly when no cycle places a limit order. -/
theorem protocolKept_iff (t : InstrumentTables) (manager : ManagerState)
    (events : List LimitEvent) :
    (∀ n, ProtocolKept (run (limitStep t) ⟨manager, [], false, false⟩ (events.take n))) ↔
      Admits (limitStep t) NoLimitDue ⟨manager, [], false, false⟩ events :=
  invariant_iff_admits_beside OnPositionSide ProtocolKept
    (fun _ event h => onPositionSide_step h event)
    (fun _ event hside h => protocolKept_step hside h event)
    (fun _ h => absurd h List.not_mem_nil) (ProtocolKept.of_nil rfl rfl rfl)

/-- A long of one unit, entered at 100 with a risk of 2, whose price is 103.2. -/
def gainingLong : List LimitEvent :=
  [.cycle ⟨⟨some (516 / 5), acceptingAnswers (holdingReport .Buy 98)⟩, true⟩]

/-- Its exit is a buy. -/
theorem gainingLong_exit_buys :
    ¬ ∀ n, ProtocolKept (run (limitStep .empty)
      ⟨.ofRecord (.opened "BTC/USDT".toList .LONG 100 1 (some 2) (some "RANGE".toList) none 2 0),
        [], false, false⟩ (gainingLong.take n)) := by
  intro h
  have hclosing := (h 1).closing
  have hall := List.all_eq_true.mpr fun order horder =>
    decide_eq_true (hclosing order horder).2
  revert hall
  decide +kernel

end Manager
end Karsa
