import Karsa.Execution.Manager.Identity
import Karsa.Execution.Manager.State

/-!
# Active position manager - Reconciling one record

`_reconcile_position` runs at the top of every cycle.  It looks the record up
among the exchange's positions, purges it when there is none, and otherwise
fills missing fields, copies the exchange's stop and places missing ones.  Its
result only says whether a field changed, so a purge looks like an unchanged
record to the caller.

Main results:

- Theorem `placeMissingStop_outcome`: which stops the step sends.
- Theorem `reconcilePosition_phantom`: a purge leaves the dictionary as it is.
-/

namespace Karsa
namespace Manager

open Bybit

/-- Answers met by one reconcile: `none` is a read that raised, `computedAtr` is
zero when no candles arrived. -/
structure ReconcileAnswers where
  positions : Option (List ExchangePosition)
  purgeClock : ℚ
  computedAtr : ℚ
  stop : Except Text Unit
  stopRetry : Except Text Unit
  takeProfit : Except Text Unit

/-- The state and the flag `changed`. -/
structure Reconciled where
  state : ManagerState
  changed : Bool
deriving Repr, DecidableEq

namespace Reconciled

/-- Change the dictionary and raise the flag. -/
def update (r : Reconciled) (f : PositionRecord → PositionRecord) : Reconciled :=
  { state := r.state.edit f, changed := true }

/-- Act on the state only. -/
def onState (r : Reconciled) (f : ManagerState → ManagerState) : Reconciled :=
  { r with state := f r.state }

end Reconciled

/-! ## Fields copied from the exchange -/

/-- A missing entry price. -/
def fillEntryPrice (p : ExchangePosition) (r : Reconciled) : Reconciled :=
  if r.state.pos.entryPrice = 0 ∧ 0 < p.entryPrice then
    r.update ({ · with entryPrice := p.entryPrice })
  else r

/-- A missing amount. -/
def fillAmount (p : ExchangePosition) (r : Reconciled) : Reconciled :=
  if r.state.pos.amount = 0 ∧ 0 < p.contracts then
    r.update ({ · with amount := p.contracts })
  else r

/-- Is the stop where a fresh stop may stand, below a long's entry and above a
short's? -/
def onLosingSide (side : Side) (entryPrice stop : ℚ) : Bool :=
  match side with
  | .LONG => decide (stop < entryPrice)
  | .SHORT => decide (entryPrice < stop)

/-- Record a stop the exchange reports. -/
def recordRead (s : ManagerState) (stop : ℚ) : ManagerState :=
  (s.emit (.stopRead ⟨s.pos.symbol, s.pos.side, s.pos.currentSl, stop⟩)).edit (·.recordStop stop)

/-- Copy the exchange's stop when it is on the losing side of the entry; forget
the recorded stop when the exchange has none. -/
def readStop (p : ExchangePosition) (r : Reconciled) : Reconciled :=
  let pos := r.state.pos
  if p.stopLoss ≠ 0 then
    if 0 < pos.entryPrice ∧ onLosingSide pos.side pos.entryPrice p.stopLoss then
      r.onState (recordRead · p.stopLoss)
    else r
  else if pos.currentSl ≠ 0 then
    { state := recordRead r.state 0, changed := true }
  else r

/-- Copy the exchange's take profit. -/
def readTakeProfit (p : ExchangePosition) (r : Reconciled) : Reconciled :=
  if p.takeProfit ≠ 0 then
    r.onState (·.edit ({ · with takeProfit := p.takeProfit }))
  else r

/-- Part 1 for a position found on the exchange. -/
def readExchange (p : ExchangePosition) (r : Reconciled) : Reconciled :=
  readTakeProfit p (readStop p (fillAmount p (fillEntryPrice p r)))

/-! ## Fields computed locally -/

/-- Part 2: the average true range. -/
def fillAtr (a : ReconcileAnswers) (r : Reconciled) : Reconciled :=
  if Numeral.safeDecimal r.state.pos.atr ≤ 0 ∧ 0 < a.computedAtr then
    r.update ({ · with atr := some (.value a.computedAtr) })
  else r

/-- Risk per unit from the average true range, or one percent of the entry,
capped at five percent of the entry. -/
def fallbackRisk (pos : PositionRecord) : ℚ :=
  let atr := Numeral.safeDecimal pos.atr
  let regime := if pos.entryRegime.getD [] = [] then "RANGE".toList else pos.entryRegime.getD []
  let risk :=
    if 0 < atr then atr * (if Text.contains regime "RANGE".toList then 1 else 3 / 2)
    else if 0 < pos.entryPrice then pos.entryPrice / 100
    else 0
  if 0 < pos.entryPrice then min risk (pos.entryPrice * (5 / 100)) else risk

/-- Part 4: the initial risk. -/
def fillRisk (r : Reconciled) : Reconciled :=
  let pos := r.state.pos
  if pos.initialRiskPerUnit ≤ 0 ∧ 0 < fallbackRisk pos then
    r.update ({ · with initialRiskPerUnit := fallbackRisk pos })
  else r

/-- Part 5: the entry time. -/
def fillEntryTime (r : Reconciled) : Reconciled :=
  r.onState (·.edit fun pos => { pos with entryTime := pos.entryTime.or pos.enteredAt })

/-! ## Protection placed on the exchange -/

/-- One risk unit away from the entry, on the losing side. -/
def emergencyStop (pos : PositionRecord) : ℚ :=
  match pos.side with
  | .LONG => pos.entryPrice - pos.initialRiskPerUnit
  | .SHORT => pos.entryPrice + pos.initialRiskPerUnit

/-- Part 6: place a missing stop; a refusal with code 10001 is retried with the
same price. -/
def placeMissingStop (a : ReconcileAnswers) (r : Reconciled) : Reconciled :=
  let pos := r.state.pos
  if pos.currentSl ≤ 0 ∧ 0 < pos.entryPrice ∧ 0 < pos.initialRiskPerUnit then
    let stop := emergencyStop pos
    match a.stop with
    | .ok () => { state := r.state.amendStop pos.symbol true stop, changed := true }
    | .error message =>
        let sent := r.state.amendStop pos.symbol false stop
        if Text.contains message "10001".toList then
          match a.stopRetry with
          | .ok () => { state := sent.amendStop pos.symbol true stop, changed := true }
          | .error _ => { r with state := sent.amendStop pos.symbol false stop }
        else { r with state := sent }
  else r

/-- What part 6 sends: nothing, or one stop, or a refused one and the same again. -/
inductive MissingStopOutcome (r : Reconciled) (s' : ManagerState) : Prop
  | idle (hstate : s' = r.state)
  | sent (hmissing : r.state.pos.currentSl ≤ 0) (accepted : Bool)
      (hstate : s' = r.state.amendStop r.state.pos.symbol accepted (emergencyStop r.state.pos))
  | retried (hmissing : r.state.pos.currentSl ≤ 0) (accepted : Bool)
      (hstate : s' = (r.state.amendStop r.state.pos.symbol false
        (emergencyStop r.state.pos)).amendStop r.state.pos.symbol accepted
          (emergencyStop r.state.pos))

theorem placeMissingStop_outcome (a : ReconcileAnswers) (r : Reconciled) :
    MissingStopOutcome r (placeMissingStop a r).state := by
  unfold placeMissingStop
  dsimp only
  split_ifs with hdue
  · cases a.stop with
    | ok _ => exact .sent hdue.1 true rfl
    | error message =>
        dsimp only
        split_ifs
        · cases a.stopRetry with
          | ok _ => exact .retried hdue.1 true rfl
          | error _ => exact .retried hdue.1 false rfl
        · exact .sent hdue.1 false rfl
  · exact .idle rfl

/-- Part 7: place a missing take profit in a trend regime. -/
def placeMissingTakeProfit (a : ReconcileAnswers) (r : Reconciled) : Reconciled :=
  let pos := r.state.pos
  let atr := Numeral.safeDecimal pos.atr
  if Text.contains (pos.entryRegime.getD []) "TREND".toList ∧ pos.takeProfit = 0 ∧
      0 < atr ∧ 0 < pos.entryPrice then
    let price := match pos.side with
      | .LONG => pos.entryPrice + atr * 2
      | .SHORT => pos.entryPrice - atr * 2
    match a.takeProfit with
    | .ok () => (r.onState (·.emit (.takeProfitSent price true))).update
        ({ · with takeProfit := price })
    | .error _ => r.onState (·.emit (.takeProfitSent price false))
  else r

/-- Part 8: write the record back when a field changed. -/
def persistChanges (r : Reconciled) : ManagerState :=
  if r.changed then r.state.persist else r.state

/-- Parts 2 to 8. -/
def repairRecord (a : ReconcileAnswers) (r : Reconciled) : ManagerState :=
  -- Part 3 has no effect: it calls `classify`, which takes features and a snapshot, with the
  -- candles alone, and swallows the `TypeError`, so that an empty entry regime stays empty.
  persistChanges (placeMissingTakeProfit a (placeMissingStop a
    (fillEntryTime (fillRisk (fillAtr a r)))))

/-- Is the record a phantom, absent from the exchange's answer? -/
def isPhantom (a : ReconcileAnswers) (pos : PositionRecord) : Bool :=
  match a.positions with
  | none => false
  | some positions => (findExchangePosition positions pos.symbol pos.side).isNone

/-- `_reconcile_position`. -/
def reconcilePosition (a : ReconcileAnswers) (s : ManagerState) : ManagerState :=
  match a.positions with
  | none => repairRecord a ⟨s, false⟩
  | some positions =>
      match findExchangePosition positions s.pos.symbol s.pos.side with
      | none => { s.remove with forceClosedAt := some a.purgeClock }
      | some p => repairRecord a (readExchange p ⟨s, false⟩)

/-- A purge removes the key and leaves the dictionary in memory as it is. -/
theorem reconcilePosition_phantom {a : ReconcileAnswers} {s : ManagerState}
    (h : isPhantom a s.pos = true) :
    reconcilePosition a s = { s.remove with forceClosedAt := some a.purgeClock } := by
  unfold isPhantom at h
  unfold reconcilePosition
  cases hpositions : a.positions with
  | none => simp [hpositions] at h
  | some positions =>
      simp only [hpositions] at h
      simp [Option.isNone_iff_eq_none.mp h]

end Manager
end Karsa
