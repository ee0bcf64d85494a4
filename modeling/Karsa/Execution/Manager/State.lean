import Karsa.Core.PositionRecord
import Karsa.Execution.Bybit.Orders
import Karsa.Foundations.Traces

/-!
# Active position manager - State of one management cycle

`_manage_single_position` works on three things at once: the dictionary `pos`
that was read from Redis, a few local copies of its values, and the Redis key
itself, which it overwrites with the whole dictionary at about ten places.  The
state keeps them apart, together with the manager's own counters and a log of
everything sent to the exchange or the store.  Redis itself never fails here.

Main results:

- Theorem `persist_stored`, `remove_stored`: what the two store operations leave
  under the key.
- Theorem `Called.trans`: exchange calls compose.
-/

namespace Karsa
namespace Manager

open Bybit

/-! ## Log -/

/-- A stop as the manager hands it to the client, with the symbol it names, the side of the
position and the recorded stop it replaces. -/
structure StopChange where
  symbol : Text
  side : Side
  old : ℚ
  new : ℚ
deriving Repr, DecidableEq

/-- One entry of the log; `stopRead` is a stop recorded from the exchange's own
report. -/
inductive ApmEvent where
  | stopSent (change : StopChange) (accepted : Bool)
  | stopRead (change : StopChange)
  | takeProfitSent (price : ℚ) (accepted : Bool)
  | reduceSent (symbol : Text) (qty : ℚ) (accepted : Bool)
  | limitSent (qty price : ℚ) (accepted : Bool)
  | cancelSent (orderId : Text) (accepted : Bool)
  | marketSent (side : OrderSide) (qty : ℚ) (accepted : Bool)
  | written (record : PositionRecord)
  | removed
deriving Repr, DecidableEq

/-- Is the event an exchange call other than a stop? -/
def ApmEvent.isCall : ApmEvent → Bool
  | .takeProfitSent _ _ | .reduceSent _ _ _ | .limitSent _ _ _ | .cancelSent _ _
  | .marketSent _ _ _ => true
  | .stopSent _ _ | .stopRead _ | .written _ | .removed => false

/-- The price that reaches the exchange: the client rounds the stop to the tick it knows for the
symbol, or to a hundredth. -/
def StopChange.reaching (t : InstrumentTables) (change : StopChange) : ℚ :=
  t.roundPrice change.symbol change.new

/-! ## State -/

/-- State of the manager for one position: `slPrice`, `movedToBe` and `peakPrice`
are the local variables of the cycle. -/
structure ManagerState where
  pos : PositionRecord
  stored : Option PositionRecord
  slPrice : ℚ
  movedToBe : Bool
  peakPrice : ℚ
  shiftCount : Nat
  forceClosedAt : Option ℚ
  log : List ApmEvent
deriving Repr, DecidableEq

namespace ManagerState

/-- State for a record just read from its key. -/
def ofRecord (pos : PositionRecord) : ManagerState where
  pos := pos
  stored := some pos
  slPrice := pos.currentSl
  movedToBe := pos.movedToBreakeven
  peakPrice := pos.peakPrice.getD pos.entryPrice
  shiftCount := 0
  forceClosedAt := none
  log := []

/-- Change the dictionary in memory. -/
def edit (s : ManagerState) (f : PositionRecord → PositionRecord) : ManagerState :=
  { s with pos := f s.pos }

/-- Append to the log. -/
def emit (s : ManagerState) (e : ApmEvent) : ManagerState :=
  { s with log := s.log ++ [e] }

/-- `redis.set(key, dumps(pos))`. -/
def persist (s : ManagerState) : ManagerState :=
  { s with stored := some s.pos, log := s.log ++ [.written s.pos] }

/-- `PositionStore.remove`. -/
def remove (s : ManagerState) : ManagerState :=
  { s with stored := none, log := s.log ++ [.removed] }

/-- `PositionStore.update_sl`: patch the stored record, if there is one. -/
def updateSl (s : ManagerState) (stop : ℚ) : ManagerState :=
  match s.stored with
  | none => s
  | some record =>
      let record := if 0 < stop then record.recordStop stop else record
      { s with stored := some record, log := s.log ++ [.written record] }

/-- Send a stop to the exchange, without recording it. -/
def sendStop (s : ManagerState) (symbol : Text) (accepted : Bool) (stop : ℚ) : ManagerState :=
  s.emit (.stopSent ⟨symbol, s.pos.side, s.pos.currentSl, stop⟩ accepted)

/-- Send a stop and record it when the exchange accepts it: the record gets the price handed to
the client, not the one the client rounds it to. -/
def amendStop (s : ManagerState) (symbol : Text) (accepted : Bool) (stop : ℚ) : ManagerState :=
  let s := s.sendStop symbol accepted stop
  if accepted then s.edit (·.recordStop stop) else s

/-- Send a reduce-only market order. -/
def sendReduce (s : ManagerState) (symbol : Text) (qty : ℚ) (accepted : Bool) : ManagerState :=
  s.emit (.reduceSent symbol qty accepted)

@[simp] theorem persist_stored (s : ManagerState) : s.persist.stored = some s.pos := rfl

@[simp] theorem persist_pos (s : ManagerState) : s.persist.pos = s.pos := rfl

@[simp] theorem remove_stored (s : ManagerState) : s.remove.stored = none := rfl

@[simp] theorem edit_pos (s : ManagerState) (f : PositionRecord → PositionRecord) :
    (s.edit f).pos = f s.pos := rfl

@[simp] theorem edit_stored (s : ManagerState) (f : PositionRecord → PositionRecord) :
    (s.edit f).stored = s.stored := rfl

@[simp] theorem emit_pos (s : ManagerState) (e : ApmEvent) : (s.emit e).pos = s.pos := rfl

@[simp] theorem emit_stored (s : ManagerState) (e : ApmEvent) : (s.emit e).stored = s.stored := rfl

end ManagerState

/-! ## Exchange calls -/

/-- Exchange calls other than stops were made, and nothing else happened. -/
structure Called (s s' : ManagerState) : Prop where
  eq : s' = { s with log := s'.log }
  log : Appended (fun e => ApmEvent.isCall e = true) s.log s'.log

theorem Called.refl (s : ManagerState) : Called s s :=
  ⟨rfl, Appended.refl _ _⟩

theorem Called.emit (s : ManagerState) {e : ApmEvent} (he : e.isCall = true) :
    Called s (s.emit e) :=
  ⟨rfl, Appended.single he⟩

theorem Called.trans {s s' s'' : ManagerState} (h : Called s s') (h' : Called s' s'') :
    Called s s'' := by
  refine ⟨?_, h.log.trans h'.log⟩
  rw [h'.eq, h.eq]

/-! ## Values read at the top of a cycle -/

/-- `_calculate_r_multiple`. -/
def calculateRMultiple (side : Side) (entryPrice livePrice initialRisk : ℚ) : ℚ :=
  if initialRisk ≤ 0 then 0
  else match side with
    | .LONG => (livePrice - entryPrice) / initialRisk
    | .SHORT => (entryPrice - livePrice) / initialRisk

/-- Local variables that the cycle reads once, after the reconcile step. -/
structure Snapshot where
  symbol : Text
  side : Side
  entryPrice : ℚ
  livePrice : ℚ
  entryRegime : Text
  initialRisk : ℚ
  rMult : ℚ
  scaleTier : Nat
  trancheState : TrancheState
  entryTime : Option ℚ
  maxHoldMins : ℤ
deriving Repr, DecidableEq

/-- Read the dictionary.  `scale_tier` and `tranche_state` are read further down
in the source; nothing before that point changes them. -/
def snapshot (pos : PositionRecord) : Snapshot :=
  let livePrice := pos.livePrice.getD pos.entryPrice
  { symbol := pos.symbol
    side := pos.side
    entryPrice := pos.entryPrice
    livePrice := livePrice
    entryRegime := pos.entryRegime.getD "UNKNOWN".toList
    initialRisk := pos.initialRiskPerUnit
    rMult := calculateRMultiple pos.side pos.entryPrice livePrice pos.initialRiskPerUnit
    scaleTier := pos.scaleTier
    trancheState := pos.trancheState
    entryTime := pos.entryTime.or pos.enteredAt
    maxHoldMins := pos.maxHoldTimeMins }

/-- `str(entry_regime).startswith("HYPER")`. -/
def Snapshot.startsHyper (snap : Snapshot) : Bool :=
  decide ("HYPER".toList <+: snap.entryRegime)

/-- `be_lock_r`. -/
def Snapshot.beLockR (snap : Snapshot) : ℚ :=
  if snap.startsHyper then 3 / 10 else 1 / 4

/-- `half_be_r`. -/
def Snapshot.halfBeR (snap : Snapshot) : ℚ :=
  if snap.startsHyper then 1 / 10 else 1 / 2

/-- `APM_BREAKEVEN_FEE_PCT` above the entry: the breakeven stop of both sides. -/
def breakevenStop (entryPrice : ℚ) : ℚ :=
  entryPrice + entryPrice * (25 / 10000)

end Manager
end Karsa
