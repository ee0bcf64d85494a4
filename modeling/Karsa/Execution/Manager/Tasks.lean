import Karsa.Execution.Manager.Cycle

/-!
# Active position manager - Runs of all tasks

Besides the two-second cycles, four routines write a position's key: the health
check, the comparison of all records with the exchange, the adoption of a position
that has no record, and the reallocation that scales out on request.  A run is any
sequence of these steps on one key.

Main results:

- Definition `healthCheck`, `reconcilePositions`, `adopt`, `proactiveScaleOut`:
  the routines, for one key.
- Definition `act`: one step of a run.
-/

namespace Karsa
namespace Manager

open Bybit

/-- A routine reads the record into memory. -/
def ManagerState.load (s : ManagerState) (record : PositionRecord) : ManagerState :=
  { s with pos := record }

/-- `PositionStore.update_fields` with a stop: patch the stored record. -/
def ManagerState.updateStop (s : ManagerState) (stop : ℚ) : ManagerState :=
  match s.stored with
  | none => s
  | some record =>
      { s with stored := some (record.recordStop stop),
               log := s.log ++ [.written (record.recordStop stop)] }

/-- One record of `start_health_check_loop`: the reconcile step, then a stop when
none is recorded. -/
def healthCheck (a : ReconcileAnswers) (accepted : Bool) (s : ManagerState) : ManagerState :=
  match s.stored with
  | none => s
  | some record =>
      if record.symbol = [] then s
      else
        let s := reconcilePosition a (s.load record)
        if s.pos.currentSl ≤ 0 ∧ 0 < s.pos.entryPrice ∧ 0 < s.pos.initialRiskPerUnit then
          let stop := emergencyStop s.pos
          let s := s.sendStop record.symbol accepted stop
          if accepted then s.updateStop stop else s
        else s

/-- Stop for a record without one: a risk unit, or two percent, from the entry. -/
def missingStop (pos : PositionRecord) : ℚ :=
  if 0 < pos.initialRiskPerUnit then emergencyStop pos
  else match pos.side with
    | .LONG => pos.entryPrice * (98 / 100)
    | .SHORT => pos.entryPrice * (102 / 100)

/-- One record of `_reconcile_positions`: a symbol unknown to the exchange is
removed, a missing stop is sent but not recorded. -/
def reconcilePositions (external : Option (List ExchangePosition)) (accepted : Bool)
    (s : ManagerState) : ManagerState :=
  match s.stored, external with
  | some record, some positions =>
      let s := s.load record
      if positions.any fun p => sameInstrument record.symbol p.symbol then
        if 0 < record.entryPrice ∧ record.currentSl ≤ 0 then
          s.sendStop record.symbol accepted (missingStop record)
        else s
      else s.remove
  | _, _ => s

/-- The record of a position that the orphan sync saves. -/
def adopted (adoption : Adoption) (now : ℚ) : PositionRecord :=
  .opened adoption.symbol adoption.side adoption.entryPrice adoption.amount none none none 0 now

/-- The orphan sync of `start_monitoring` saves a position that has no record;
`marked` tells whether the regime could be set to `UNKNOWN`. -/
def adopt (adoption : Adoption) (now : ℚ) (marked : Bool) (s : ManagerState) : ManagerState :=
  match s.stored with
  | some _ => s
  | none =>
      let s := (s.load (adopted adoption now)).persist
      if marked then
        (s.edit ({ · with entryRegime := some "UNKNOWN".toList,
                          regime := some "UNKNOWN".toList })).persist
      else s

/-- `proactive_scale_out`: once per record, a scale-out and a breakeven lock, with
the record written back in any case. -/
def proactiveScaleOut (ratio : ℚ) (reduced : Bool) (b : BreakevenAnswers) (s : ManagerState) :
    ManagerState :=
  match s.stored with
  | none => s
  | some record =>
      if record.proactiveScaleOutExecuted then s
      else if record.entryPrice ≤ 0 then s
      else
        let s := scaleOutPosition reduced ratio (s.load record)
        let s := moveStopToBreakeven b record.entryPrice s
        (s.edit ({ · with proactiveScaleOutExecuted := true })).persist

/-! ## Steps of a run -/

/-- One step on a position's key. -/
inductive ApmStep where
  | cycle (input : CycleInput)
  | healthCheck (answers : ReconcileAnswers) (accepted : Bool)
  | reconcile (external : Option (List ExchangePosition)) (accepted : Bool)
  | adopt (adoption : Adoption) (now : ℚ) (marked : Bool)
  | scaleOut (ratio : ℚ) (reduced : Bool) (lock : BreakevenAnswers)

/-- What the step does. -/
def act (s : ManagerState) : ApmStep → ManagerState
  | .cycle input => manage s input
  | .healthCheck answers accepted => Manager.healthCheck answers accepted s
  | .reconcile external accepted => reconcilePositions external accepted s
  | .adopt adoption now marked => Manager.adopt adoption now marked s
  | .scaleOut ratio reduced lock => proactiveScaleOut ratio reduced lock s

end Manager
end Karsa
