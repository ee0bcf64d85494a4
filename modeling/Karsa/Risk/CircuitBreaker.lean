import Karsa.Foundations.Runs
import Karsa.Risk.LossBreakers

/-!
# Circuit breaker - What survives a restart

The class `CircuitBreaker` counts the day's result and the losses in a row.  A breach halts
it and writes a triggered state to Redis; a row of losses pauses it.  After a restart a new
object reads the state back with `restore`.

Main results:

- Theorem `step_recorded`: a halt is always on record in Redis.
- Theorem `restart_unchanged_iff`: the restarts that change nothing.
- Theorem `durable_iff`: the runs in which the breaker is halted exactly since a breach and
  no restart changes its state.
-/

namespace Karsa
namespace Risk

/-! ## The class -/

/-- Settings of the constructor. -/
structure CircuitBreakerLimits extends CircuitBreakerSettings where
  maxConsecutiveLosses : ℤ
  lossPauseMinutes : ℤ
deriving Repr, DecidableEq

/-- The defaults of the constructor. -/
def CircuitBreakerLimits.default : CircuitBreakerLimits where
  toCircuitBreakerSettings := .default
  maxConsecutiveLosses := 3
  lossPauseMinutes := 60

/-- Attributes of a `CircuitBreaker`. -/
structure CircuitBreaker where
  dailyPnl : ℚ
  consecutiveLosses : Nat
  halted : Bool
  haltReason : Option Text
  pausedUntil : Option ℚ
deriving Repr, DecidableEq

namespace CircuitBreaker

/-- A new object. -/
def new : CircuitBreaker where
  dailyPnl := 0
  consecutiveLosses := 0
  halted := false
  haltReason := none
  pausedUntil := none

/-- `restore`: failed reads are logged only. -/
def restore (b : CircuitBreaker) : BreakerRead → CircuitBreaker
  | .noRedis | .raised | .absent | .malformed => b
  | .state s =>
      if s.status = triggeredStatus then
        { b with halted := true, haltReason := s.reason }
      else b

/-- `update_pnl`, with the breach it returns as true and schedules to be written. -/
def updatePnl (p : DecimalPrinter) (limits : CircuitBreakerLimits) (b : CircuitBreaker)
    (pnl : ℚ) : CircuitBreaker × Option Breach :=
  let dailyPnl := b.dailyPnl + pnl
  match limits.breach dailyPnl with
  | none => ({ b with dailyPnl := dailyPnl }, none)
  | some breach =>
      ({ b with
          dailyPnl := dailyPnl
          halted := true
          haltReason := some (breach.reason p limits.toCircuitBreakerSettings) },
        some breach)

/-- `record_loss`. -/
def recordLoss (limits : CircuitBreakerLimits) (now : ℚ) (b : CircuitBreaker) :
    CircuitBreaker :=
  let losses := b.consecutiveLosses + 1
  if limits.maxConsecutiveLosses ≤ losses then
    { b with
      consecutiveLosses := losses
      pausedUntil := some (now + 60 * limits.lossPauseMinutes) }
  else { b with consecutiveLosses := losses }

/-- `record_win`. -/
def recordWin (b : CircuitBreaker) : CircuitBreaker :=
  { b with consecutiveLosses := 0 }

/-- `reset`, which writes nothing to Redis. -/
def reset (_ : CircuitBreaker) : CircuitBreaker :=
  new

/-- What `is_paused` answers. -/
def isPaused (now : ℚ) (b : CircuitBreaker) : Bool :=
  b.pausedUntil.any fun until' => decide (now < until')

/-- The end of the pause that runs at a moment, if one does. -/
def pauseRunning (now : ℚ) (b : CircuitBreaker) : Option ℚ :=
  b.pausedUntil.filter fun until' => decide (now < until')

/-- From a moment on `is_paused` depends only on the pause that runs then. -/
theorem isPaused_of_le {now at' : ℚ} (h : now ≤ at') (b : CircuitBreaker) :
    b.isPaused at' = (b.pauseRunning now).any fun until' => decide (at' < until') := by
  cases hpause : b.pausedUntil with
  | none => simp [isPaused, pauseRunning, hpause]
  | some until' =>
      by_cases hrunning : now < until'
      · simp [isPaused, pauseRunning, hpause, hrunning]
      · have hover : ¬ at' < until' := fun hlt => hrunning (h.trans_lt hlt)
        simp [isPaused, pauseRunning, hpause, hrunning, hover]

/-- The same pause runs exactly if `is_paused` answers the same from then on. -/
theorem pauseRunning_eq_iff {now : ℚ} {a b : CircuitBreaker} :
    a.pauseRunning now = b.pauseRunning now ↔
      ∀ at', now ≤ at' → a.isPaused at' = b.isPaused at' := by
  constructor
  · intro h at' hle
    rw [isPaused_of_le hle, isPaused_of_le hle, h]
  · intro h
    have hrunning : ∀ at', now ≤ at' →
        ((a.pauseRunning now).any fun until' => decide (at' < until')) =
          (b.pauseRunning now).any fun until' => decide (at' < until') := by
      intro at' hle
      rw [← isPaused_of_le hle, ← isPaused_of_le hle]
      exact h at' hle
    have hfuture : ∀ (c : CircuitBreaker) {until' : ℚ},
        c.pauseRunning now = some until' → now < until' := by
      intro c until' hc
      simpa using (Option.filter_eq_some_iff.mp hc).2
    cases ha : a.pauseRunning now with
    | none =>
        cases hb : b.pauseRunning now with
        | none => rfl
        | some v =>
            have hnow := hrunning now le_rfl
            simp [ha, hb, hfuture b hb] at hnow
    | some u =>
        have hu := hfuture a ha
        cases hb : b.pauseRunning now with
        | none =>
            have hnow := hrunning now le_rfl
            simp [ha, hb, hu] at hnow
        | some v =>
            have hv := hfuture b hb
            -- Each end is no later than the other: at its own end a pause is over.
            have hvu : v ≤ u := by simpa [ha, hb] using hrunning u hu.le
            have huv : u ≤ v := by simpa [ha, hb] using hrunning v hv.le
            rw [le_antisymm huv hvu]

/-- From a moment on two breakers do not differ in halt, pause, result and count. -/
def AgreeFrom (now : ℚ) (a b : CircuitBreaker) : Prop :=
  a.halted = b.halted ∧ a.pauseRunning now = b.pauseRunning now ∧ a.dailyPnl = b.dailyPnl ∧
    a.consecutiveLosses = b.consecutiveLosses

instance (now : ℚ) (a b : CircuitBreaker) : Decidable (AgreeFrom now a b) :=
  inferInstanceAs (Decidable (_ ∧ _ ∧ _ ∧ _))

end CircuitBreaker

/-! ## The object, the key and restarts -/

/-- The object in memory and the key in Redis; `breached` tells that a breach was found since
the last reset, `changed` that a restart changed the state. -/
structure DurableSystem where
  memory : CircuitBreaker
  key : Option BreakerState
  breached : Bool
  changed : Bool
deriving Repr, DecidableEq

/-- Is a triggered state on record? -/
def DurableSystem.onRecord (s : DurableSystem) : Bool :=
  s.key.any fun state => decide (state.status = triggeredStatus)

/-- A first start on any key: what is on record counts as a breach. -/
def DurableSystem.start (key : Option BreakerState) : DurableSystem where
  memory := CircuitBreaker.new.restore (readKey key true)
  key := key
  breached := key.any fun state => decide (state.status = triggeredStatus)
  changed := false

/-- What happens next, with the clock where it is read. -/
inductive DurableInput where
  | updatePnl (now pnl : ℚ)
  | recordLoss (now : ℚ)
  | recordWin
  | reset
  | restart (now : ℚ)
deriving Repr, DecidableEq

section Step

variable (p : DecimalPrinter) (limits : CircuitBreakerLimits)

/-- One step, the scheduled write included. -/
def durableStep (s : DurableSystem) : DurableInput → DurableSystem
  | .updatePnl now pnl =>
      match s.memory.updatePnl p limits pnl with
      | (memory, none) => { s with memory := memory }
      | (memory, some _) =>
          { s with
            memory := memory
            key := some ⟨triggeredStatus, memory.haltReason, some now⟩
            breached := true }
  | .recordLoss now => { s with memory := s.memory.recordLoss limits now }
  | .recordWin => { s with memory := s.memory.recordWin }
  | .reset => { s with memory := s.memory.reset, breached := false }
  | .restart now =>
      let memory := CircuitBreaker.new.restore (readKey s.key true)
      { s with
        memory := memory
        changed := s.changed || !decide (CircuitBreaker.AgreeFrom now s.memory memory) }

/-- Every halt is on record. -/
def HaltRecorded (s : DurableSystem) : Prop :=
  s.memory.halted = true → s.onRecord = true

/-- Halted exactly since a breach, and no restart has changed anything. -/
def Durable (s : DurableSystem) : Prop :=
  (s.memory.halted = true ↔ s.breached = true) ∧ s.changed = false

/-- A restart finds no halt on record that was reset, no result, no loss and no pause. -/
def RestartsClean (s : DurableSystem) : DurableInput → Prop
  | .restart now =>
      (s.onRecord = true → s.breached = true) ∧ s.memory.pauseRunning now = none ∧
        s.memory.dailyPnl = 0 ∧ s.memory.consecutiveLosses = 0
  | _ => True

variable {p limits}

/-- After `restore` a new object is halted if a triggered state is on record. -/
theorem restore_new_halted (s : DurableSystem) :
    (CircuitBreaker.new.restore (readKey s.key true)).halted = s.onRecord := by
  cases hkey : s.key with
  | none => simp [readKey, CircuitBreaker.restore, CircuitBreaker.new, DurableSystem.onRecord, hkey]
  | some state =>
      by_cases htriggered : state.status = triggeredStatus
      · simp [readKey, CircuitBreaker.restore, DurableSystem.onRecord, hkey, htriggered]
      · simp [readKey, CircuitBreaker.restore, CircuitBreaker.new, DurableSystem.onRecord, hkey,
          htriggered]

/-- Nothing else is read back. -/
theorem restore_new_rest (read : BreakerRead) :
    (CircuitBreaker.new.restore read).pausedUntil = none ∧
      (CircuitBreaker.new.restore read).dailyPnl = 0 ∧
        (CircuitBreaker.new.restore read).consecutiveLosses = 0 := by
  unfold CircuitBreaker.restore
  split
  any_goals exact ⟨rfl, rfl, rfl⟩
  split_ifs <;> exact ⟨rfl, rfl, rfl⟩

/-- A halt is on record after every step. -/
theorem step_recorded {s : DurableSystem} (h : HaltRecorded s) (input : DurableInput) :
    HaltRecorded (durableStep p limits s input) := by
  cases input with
  | updatePnl now pnl =>
      simp only [durableStep, CircuitBreaker.updatePnl]
      cases limits.breach (s.memory.dailyPnl + pnl) with
      | none => exact h
      | some breach => exact fun _ => by simp [DurableSystem.onRecord]
  | recordLoss now =>
      simp only [durableStep, CircuitBreaker.recordLoss]
      split_ifs
      · exact h
      · exact h
  | recordWin => exact h
  | reset => exact fun hhalted => absurd hhalted Bool.false_ne_true
  | restart now => exact fun hhalted => (restore_new_halted s).symm.trans hhalted

/-- A restart changes nothing exactly if the halt in memory is the one on record and there is
nothing else to lose. -/
theorem restart_unchanged_iff (s : DurableSystem) (now : ℚ) :
    CircuitBreaker.AgreeFrom now s.memory (CircuitBreaker.new.restore (readKey s.key true)) ↔
      s.memory.halted = s.onRecord ∧ s.memory.pauseRunning now = none ∧
        s.memory.dailyPnl = 0 ∧ s.memory.consecutiveLosses = 0 := by
  rcases restore_new_rest (readKey s.key true) with ⟨hpause, hpnl, hlosses⟩
  have hrunning : (CircuitBreaker.new.restore (readKey s.key true)).pauseRunning now = none := by
    rw [CircuitBreaker.pauseRunning, hpause, Option.filter_none]
  rw [CircuitBreaker.AgreeFrom, restore_new_halted, hrunning, hpnl, hlosses]

/-- One step keeps the state durable exactly if a restart is clean. -/
theorem durable_step_iff {s : DurableSystem} (hrecorded : HaltRecorded s) (hdurable : Durable s)
    (input : DurableInput) :
    Durable (durableStep p limits s input) ↔ RestartsClean s input := by
  rcases hdurable with ⟨hhalted, hchanged⟩
  cases input with
  | updatePnl now pnl =>
      refine iff_of_true ?_ trivial
      simp only [durableStep, CircuitBreaker.updatePnl]
      cases limits.breach (s.memory.dailyPnl + pnl) with
      | none => exact ⟨hhalted, hchanged⟩
      | some breach => exact ⟨iff_of_true rfl rfl, hchanged⟩
  | recordLoss now =>
      refine iff_of_true ?_ trivial
      simp only [durableStep, CircuitBreaker.recordLoss]
      split_ifs
      · exact ⟨hhalted, hchanged⟩
      · exact ⟨hhalted, hchanged⟩
  | recordWin => exact iff_of_true ⟨hhalted, hchanged⟩ trivial
  | reset =>
      exact iff_of_true ⟨iff_of_false Bool.false_ne_true Bool.false_ne_true, hchanged⟩ trivial
  | restart now =>
      have hstep : Durable (durableStep p limits s (.restart now)) ↔
          (s.onRecord = true ↔ s.breached = true) ∧
            CircuitBreaker.AgreeFrom now s.memory
              (CircuitBreaker.new.restore (readKey s.key true)) := by
        simp [Durable, durableStep, hchanged, restore_new_halted]
      rw [hstep, restart_unchanged_iff, RestartsClean, ← hhalted]
      constructor
      · rintro ⟨hiff, -, hrest⟩
        exact ⟨hiff.mp, hrest⟩
      · rintro ⟨himp, hrest⟩
        have hiff : s.onRecord = true ↔ s.memory.halted = true := ⟨himp, hrecorded⟩
        exact ⟨hiff, Bool.eq_iff_iff.mpr hiff.symm, hrest⟩

end Step

/-- A run keeps the breaker's state durable exactly when each of its restarts finds no reset
halt on record, no daily result, no count of losses and no pause. -/
theorem durable_iff (p : DecimalPrinter) (limits : CircuitBreakerLimits)
    (key : Option BreakerState) (inputs : List DurableInput) :
    (∀ n, Durable (run (durableStep p limits) (.start key) (inputs.take n))) ↔
      Admits (durableStep p limits) RestartsClean (.start key) inputs := by
  have hhalted : (DurableSystem.start key).memory.halted = (DurableSystem.start key).onRecord :=
    restore_new_halted ⟨.new, key, false, false⟩
  have hstart : HaltRecorded (.start key) := fun h => hhalted.symm.trans h
  have hdurable : Durable (.start key) := ⟨by rw [hhalted]; rfl, rfl⟩
  have hrecorded : ∀ n, HaltRecorded (run (durableStep p limits) (.start key) (inputs.take n)) :=
    stateAt_invariant hstart fun _ input h => step_recorded h input
  have hadmits := @invariant_iff_admits _ _ (durableStep p limits) RestartsClean
    (fun s => HaltRecorded s ∧ Durable s)
    (fun s input hs => by
      rw [and_iff_right (step_recorded hs.1 input)]
      exact durable_step_iff hs.1 hs.2 input)
    (.start key) inputs ⟨hstart, hdurable⟩
  rw [← hadmits]
  exact forall_congr' fun n => (and_iff_right (hrecorded n)).symm

/-- A breach that was reset halts the breaker again after a restart. -/
theorem reset_halt_returns :
    ¬ ∀ (p : DecimalPrinter) (limits : CircuitBreakerLimits) (key : Option BreakerState)
      (inputs : List DurableInput) (n : Nat),
      Durable (run (durableStep p limits) (.start key) (inputs.take n)) := by
  intro h
  have hdurable := h
    ⟨fun _ => "0".toList, fun _ => List.all_iff_forall_prop.mp (by decide)⟩ .default none
    [.updatePnl 0 (-1), .reset, .restart 60] 3
  exact absurd (hdurable.1.mp (by decide +kernel)) (by decide +kernel)

end Risk
end Karsa
