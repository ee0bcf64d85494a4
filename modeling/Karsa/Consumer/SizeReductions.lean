import Karsa.Consumer.Admission
import Karsa.Risk.FailClosed

/-!
# Live loop - Size reductions

Two rules shrink a signal on its way to the executor: the sizing of its regime in
`karsa:auto:config`, and the portfolio risk manager when one open position moves with it.
Both assign to the signal, which is frozen; the assignment raises inside a handler that
swallows it, and the order keeps the size the signal came with.

Main results:

- Theorem `enter_amount`: every order carries the amount that the risk manager leaves.
- Theorem `reductionsReach_iff`: when the order has the reduced size.
-/

namespace Karsa
namespace Live

open Bybit Router Risk

/-! ## The risk manager behind the handler -/

/-- The signal as the risk manager reads it. -/
def TradeSignal.risk (symbol : Text) (signal : TradeSignal) : RiskSignal where
  symbol := symbol
  direction := signal.direction
  entryPrice := signal.entryPrice
  amount := signal.amount

/-- A portfolio risk manager and what it reads. -/
structure RiskManager where
  np : Statistics
  settings : RiskSettings
  answers : RiskAnswers

/-- The services with the answer of a risk manager to this signal. -/
def SignalAnswers.withRiskManager (a : SignalAnswers) (m : RiskManager) (symbol : Text)
    (signal : TradeSignal) : SignalAnswers :=
  { a with
    riskManager := some fun _ => .ok (riskCheck m.np m.settings (signal.risk symbol) m.answers) }

/-! ## The reductions -/

/-- `regime_sizing` of the regime of the signal; one where nothing readable is configured. -/
def configuredMultiplier (signal : TradeSignal) : ConfigRead → ℚ
  | .failed | .absent | .malformed => 1
  | .decoded config =>
      (config.regimeSizing.bind fun sizing =>
        ((sizing signal.regime).getD (.value 1)).decimal).getD 1

/-- Exactly one open position of its side moves with the signal. -/
def OneCorrelated (m : RiskManager) (symbol : Text) (signal : TradeSignal) : Prop :=
  ∃ answers ∈ m.answers.rolling, highCorrCount m.np (signal.risk symbol) answers = some 1

instance (m : RiskManager) (symbol : Text) (signal : TradeSignal) :
    Decidable (OneCorrelated m symbol signal) :=
  inferInstanceAs (Decidable (∃ answers ∈ m.answers.rolling, _))

/-- The factor of the correlation rule. -/
def correlationFactor (m : RiskManager) (symbol : Text) (signal : TradeSignal) : ℚ :=
  if OneCorrelated m symbol signal then 1 / 2 else 1

section Reductions

variable (symbol : Text) (signal : TradeSignal) (a : SignalAnswers) (m : RiskManager)
  (store : PositionStore)

/-- Every order of the handler has the size that both rules leave. -/
def ReductionsReach : Prop :=
  ∀ request cap answer,
    .enter request cap answer ∈
        (onSignalLive symbol signal (a.withRiskManager m symbol signal) store).state.calls →
      request.amount =
        signal.amount * configuredMultiplier signal a.config * correlationFactor m symbol signal

/-- The rules leave the size of the signal as it is. -/
def Unreduced : Prop :=
  signal.amount = 0 ∨ configuredMultiplier signal a.config * correlationFactor m symbol signal = 1

variable {symbol signal a m store}

/-! ## The amount of an order -/

/-- Every entry the handler sends is that of its signal. -/
theorem enter_unique {request : EntryRequest} {cap : ℚ}
    {answer : Except Text (Option Execution)}
    (h : .enter request cap answer ∈ (onSignalLive symbol signal a store).state.calls) :
    ExchangeCall.enter request cap answer =
      .enter (entryRequest symbol signal) (maxLossUsd signal) a.execution := by
  have hgates := gates_ends symbol signal a store
  unfold onSignalLive at h
  cases hflow : gates symbol signal a (.start signal store) with
  | next s =>
      rw [hflow] at hgates h
      rw [Flow.next_andThen] at h
      rcases enter_calls h with hold | hnew
      · exact (hgates.1.onlyReads _ hold).elim
      · exact hnew
  | ret s =>
      rw [hflow] at hgates h
      exact (hgates _ h).elim
  | raise s =>
      rw [hflow] at hgates h
      exact (hgates _ h).elim

/-- The order carries the amount of the signal that the risk manager's rule leaves, correlated or
not. -/
theorem enter_amount {request : EntryRequest} {cap : ℚ}
    {answer : Except Text (Option Execution)}
    (h : .enter request cap answer ∈
      (onSignalLive symbol signal (a.withRiskManager m symbol signal) store).state.calls) :
    request.amount = (rollingCorrelation m.np (signal.risk symbol) m.answers.rolling).2.amount := by
  have henter := enter_unique h
  rw [ExchangeCall.enter.injEq] at henter
  rw [henter.1, rollingCorrelation_signal]
  rfl

/-- That is its own amount. -/
theorem rollingCorrelation_amount :
    (rollingCorrelation m.np (signal.risk symbol) m.answers.rolling).2.amount = signal.amount := by
  rw [rollingCorrelation_signal]
  rfl

/-- The factors leave a size as it is when it is zero or their product is one. -/
theorem unreduced_iff :
    signal.amount =
        signal.amount * configuredMultiplier signal a.config * correlationFactor m symbol signal ↔
      Unreduced symbol signal a m := by
  unfold Unreduced
  rw [mul_assoc, eq_comm, mul_right_eq_self₀, or_comm]

end Reductions

/-- The reductions reach the order exactly when the signal is not admitted or nothing is to be
reduced. -/
theorem reductionsReach_iff (symbol : Text) (signal : TradeSignal) (a : SignalAnswers)
    (m : RiskManager) (store : PositionStore) :
    ReductionsReach symbol signal a m store ↔
      (Admitted symbol signal (a.withRiskManager m symbol signal) store →
        Unreduced symbol signal a m) := by
  rw [← unreduced_iff]
  constructor
  · intro h hadmitted
    have hreached := reached_iff_admitted.mpr hadmitted
    exact h _ _ _ hreached
  · intro h request cap answer hcall
    have henter := enter_unique hcall
    rw [enter_amount hcall, rollingCorrelation_amount]
    apply h
    rw [← reached_iff_admitted, Reached, ← henter]
    exact hcall

/-- Half the size is configured for the regime, and the order has the whole. -/
theorem reductionsReach_half :
    ¬ ∀ (symbol : Text) (signal : TradeSignal) (a : SignalAnswers) (m : RiskManager)
      (store : PositionStore), ReductionsReach symbol signal a m store := by
  intro h
  let config : AutoConfig :=
    ⟨some fun _ => none, some fun regime => if regime = .RANGE then some (.value (1 / 2)) else none⟩
  let manager : RiskManager :=
    ⟨⟨fun _ => false, fun _ _ => none⟩, .default, calmAnswers "MAJORS".toList (some 1000)⟩
  have hreach := h "BTC/USDT".toList longSignal (filledAnswers (.decoded config)) manager ∅
    (entryRequest "BTC/USDT".toList longSignal) (maxLossUsd longSignal)
    (.ok (some filledOrder)) (by decide +kernel)
  revert hreach
  decide +kernel

end Live
end Karsa
