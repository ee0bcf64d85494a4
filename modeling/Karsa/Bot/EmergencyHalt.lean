import Karsa.Consumer.Admission
import Karsa.Foundations.Runs
import Karsa.Risk.PortfolioRiskManager
import Karsa.Watchdog.SystemWatchdog

/-!
# Telegram bot - Emergency halt

Three writers want to stop entries: the kill button and the watchdog set
`karsa:global_halt`, the sell-all button sets `karsa:crypto_cooldown` for fifteen
minutes.  `_execute_resume` and `clear_halt_cmd` delete both keys.  The handler of live
signals reads neither key, and neither does a check of the risk manager.

A run interleaves these writers with calls of the handler, each of which has a first and
a last step.

Main results:

- Theorem `noEntryUnderHalt_iff`: the runs in which no entry is made under a halt.
-/

namespace Karsa
namespace Halt

open Bybit Live Watchdog

/-! ## State -/

/-- One call of `_on_signal_live` with everything it meets.  The risk manager's answer
is that of its checks. -/
structure SignalCall where
  symbol : Text
  signal : TradeSignal
  answers : SignalAnswers
  checks : Risk.RiskChecks
  store : PositionStore

/-- The answers with the risk manager's. -/
def SignalCall.services (c : SignalCall) : SignalAnswers :=
  { c.answers with riskManager := some fun _ => .ok (Risk.approvedBy c.checks.inOrder) }

/-- The call reaches `executor.execute`. -/
def SignalCall.Enters (c : SignalCall) : Prop :=
  Reached c.symbol c.signal c.services
    (onSignalLive c.symbol c.signal c.services c.store).state

instance (c : SignalCall) : Decidable c.Enters :=
  inferInstanceAs (Decidable (_ ∈ _))

/-- A call in progress: did it start under the halt that is in force? -/
structure PendingCall where
  call : SignalCall
  underHalt : Bool

/-- The two Redis keys with their values, the watchdog, what the operators have asked
for, the calls in progress, and for every entry made whether it was made under a halt. -/
structure HaltState where
  now : ℚ
  globalHalt : Option Text
  cooldownUntil : Option ℚ
  watchdog : WatchdogState
  killed : Bool
  sellAllUntil : Option ℚ
  pending : List PendingCall
  entries : List Bool

/-- State of a fresh system. -/
def HaltState.start (now : ℚ) : HaltState where
  now := now
  globalHalt := none
  cooldownUntil := none
  watchdog := ⟨false, 0, 0⟩
  killed := false
  sellAllUntil := none
  pending := []
  entries := []

/-- A kill or a watchdog halt has not been cleared, or the fifteen minutes after a
sell-all are not over. -/
def HaltState.inForce (s : HaltState) : Bool :=
  s.killed || s.sellAllUntil.any (s.now < ·)

/-- A call that started under a halt that is over is like any other. -/
def HaltState.settle (s : HaltState) : HaltState :=
  if s.inForce then s
  else { s with pending := s.pending.map ({ · with underHalt := false }) }

/-! ## Steps -/

/-- Steps of a run. -/
inductive HaltStep where
  | kill (flattened : Bool)
  | sellAll (flattened : Bool)
  | resume
  | clearHalt (authorized : Bool)
  | watchdogCycle (read : Option (List PositionRecord × List ExchangePosition)) (reason : Text)
  | balanceUpdate
  | orderbookUpdate
  | elapse (seconds : ℚ)
  | signalStarts (call : SignalCall)
  | signalEnds (n : Nat)

/-- `_execute_kill`: the halt is written once the flatten has not raised. -/
def kill (flattened : Bool) (s : HaltState) : HaltState :=
  { s with killed := true
           globalHalt := if flattened then some "1".toList else s.globalHalt }

/-- `_execute_sellall`: the cooldown is written once the flatten has not raised. -/
def sellAll (flattened : Bool) (s : HaltState) : HaltState :=
  { s with sellAllUntil := some (s.now + 900)
           cooldownUntil := if flattened then some (s.now + 900) else s.cooldownUntil }

/-- `_execute_resume`. -/
def resume (s : HaltState) : HaltState :=
  { s with killed := false, sellAllUntil := none, globalHalt := none, cooldownUntil := none }

/-- `clear_halt_cmd`. -/
def clearHalt (authorized : Bool) (s : HaltState) : HaltState :=
  if authorized then resume s else s

/-- One watchdog cycle; `reason` is the text of its desyncs. -/
def watchdogCycle (read : Option (List PositionRecord × List ExchangePosition)) (reason : Text)
    (s : HaltState) : HaltState :=
  let answers : CycleAnswers :=
    { now := s.now, haltKey := some s.globalHalt, read := read, haltWritten := true }
  let cycle := checkAll s.watchdog answers
  if triggers s.watchdog answers then
    { s with watchdog := cycle.1, killed := true
             globalHalt := some ("watchdog_desync: ".toList ++ reason) }
  else { s with watchdog := cycle.1 }

/-- The call at a position of the list ends; it may have made its entry. -/
def signalEnds (n : Nat) (s : HaltState) : HaltState :=
  match s.pending[n]? with
  | none => s
  | some p =>
      let s := { s with pending := s.pending.eraseIdx n }
      if p.call.Enters then { s with entries := s.entries ++ [p.underHalt] } else s

/-- A call of the handler starts. -/
def signalStarts (call : SignalCall) (s : HaltState) : HaltState :=
  { s with pending := s.pending ++ [{ call := call, underHalt := s.inForce }] }

/-- What a step does to the keys and the calls. -/
def effect (s : HaltState) : HaltStep → HaltState
  | .kill flattened => kill flattened s
  | .sellAll flattened => sellAll flattened s
  | .resume => resume s
  | .clearHalt authorized => clearHalt authorized s
  | .watchdogCycle read reason => watchdogCycle read reason s
  | .balanceUpdate => { s with watchdog := { s.watchdog with lastBalanceTs := s.now } }
  | .orderbookUpdate => { s with watchdog := { s.watchdog with lastOrderbookTs := s.now } }
  | .elapse seconds => { s with now := s.now + |seconds| }
  | .signalStarts call => signalStarts call s
  | .signalEnds n => signalEnds n s

/-- One step of a run. -/
def act (s : HaltState) (step : HaltStep) : HaltState :=
  (effect s step).settle

/-! ## No entry under a halt -/

/-- Every entry was made by a call that had not started under a halt still in force. -/
def NoEntryUnderHalt (s : HaltState) : Prop :=
  true ∉ s.entries

/-- A call that started under a halt still in force and now ends is not admitted: one of
the handler's own tests drops it. -/
def Dropped (s : HaltState) : HaltStep → Prop
  | .signalEnds n => ∀ p, s.pending[n]? = some p → p.underHalt = true →
      ¬ Admitted p.call.symbol p.call.signal p.call.services p.call.store
  | _ => True

@[simp] theorem settle_entries (s : HaltState) : s.settle.entries = s.entries := by
  unfold HaltState.settle
  split_ifs <;> rfl

/-- Writers and feeds make no entry. -/
theorem effect_entries {s : HaltState} {step : HaltStep} (h : ∀ n, step ≠ .signalEnds n) :
    (effect s step).entries = s.entries := by
  cases step with
  | clearHalt authorized =>
      dsimp only [effect, clearHalt]
      split_ifs <;> rfl
  | watchdogCycle read reason =>
      dsimp only [effect, watchdogCycle]
      split_ifs <;> rfl
  | signalEnds n => exact (h n rfl).elim
  | _ => rfl

/-- The end of a call adds its entry, if it makes one. -/
theorem signalEnds_entries {n : Nat} {s : HaltState} {p : PendingCall}
    (hpending : s.pending[n]? = some p) :
    (signalEnds n s).entries = if p.call.Enters then s.entries ++ [p.underHalt] else s.entries := by
  unfold signalEnds
  rw [hpending]
  dsimp only
  split_ifs <;> rfl

/-- A step makes no entry under a halt exactly when the call it ends is dropped. -/
theorem act_noEntry_iff (s : HaltState) (step : HaltStep) (hs : NoEntryUnderHalt s) :
    NoEntryUnderHalt (act s step) ↔ Dropped s step := by
  unfold NoEntryUnderHalt at hs ⊢
  rw [act, settle_entries]
  by_cases hends : ∃ n, step = .signalEnds n
  · rcases hends with ⟨n, rfl⟩
    unfold Dropped effect
    dsimp only
    cases hpending : s.pending[n]? with
    | none => simpa [signalEnds, hpending] using hs
    | some p =>
        have hiff : p.call.Enters ↔
            Admitted p.call.symbol p.call.signal p.call.services p.call.store :=
          reached_iff_admitted
        rw [signalEnds_entries hpending]
        simp only [Option.some.injEq, forall_eq', ← hiff]
        by_cases henters : p.call.Enters
        · rw [if_pos henters]
          simp [hs, henters]
        · rw [if_neg henters]
          simp [hs, henters]
  · have hother : ∀ n, step ≠ .signalEnds n := fun n heq => hends ⟨n, heq⟩
    rw [effect_entries hother]
    cases step with
    | signalEnds n => exact (hother n rfl).elim
    | _ => simpa [Dropped] using hs

/-- The runs without an entry under a halt are those in which the handler's own tests
drop every signal that started under one. -/
theorem noEntryUnderHalt_iff (now : ℚ) (steps : List HaltStep) :
    (∀ n, NoEntryUnderHalt (run act (HaltState.start now) (steps.take n))) ↔
      Admits act Dropped (HaltState.start now) steps :=
  invariant_iff_admits act_noEntry_iff (by simp [NoEntryUnderHalt, HaltState.start])

/-- A long signal whose call meets open gates. -/
def openCall : SignalCall where
  symbol := "BTC/USDT".toList
  signal := longSignal
  answers := filledAnswers .absent
  checks := ⟨.passed, .passed, .passed, .passed, .passed, .passed, .passed, .passed, .passed⟩
  store := ∅

/-- A kill, and then a signal that starts and ends. -/
def killThenSignal (flattened : Bool) : List HaltStep :=
  [.kill flattened, .signalStarts openCall, .signalEnds 0]

/-- After a kill, whether or not its flatten raised, a new signal is entered. -/
theorem entry_under_kill :
    (∃ n, ¬ NoEntryUnderHalt (run act (HaltState.start 0) ((killThenSignal true).take n))) ∧
      ∃ n, ¬ NoEntryUnderHalt (run act (HaltState.start 0) ((killThenSignal false).take n)) := by
  constructor
  · refine ⟨3, ?_⟩
    unfold NoEntryUnderHalt
    decide +kernel
  · refine ⟨3, ?_⟩
    unfold NoEntryUnderHalt
    decide +kernel

end Halt
end Karsa
