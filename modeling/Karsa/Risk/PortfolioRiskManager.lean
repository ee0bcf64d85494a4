import Karsa.Foundations.ControlFlow

/-!
# Portfolio risk manager - The order of its checks

`PortfolioRiskManager.check` runs nine checks one after the other and stops at the
first one that fails.  An exception that escapes from a check counts as a refusal.

Main results:

- Theorem `approved_iff`: a signal is approved when every check passes.
-/

namespace Karsa
namespace Risk

/-- How one check ends. -/
inductive CheckOutcome where
  | passed
  | failed
  | raised
deriving Repr, DecidableEq

/-- The checks in the order in which they run. -/
structure RiskChecks where
  mtfRegimeAlignment : CheckOutcome
  correlationTrap : CheckOutcome
  rollingCorrelation : CheckOutcome
  spreadLegs : CheckOutcome
  exposureLimits : CheckOutcome
  dailyLossCircuitBreaker : CheckOutcome
  consecutiveLossCircuitBreaker : CheckOutcome
  macroKillSwitch : CheckOutcome
  drawdownVelocity : CheckOutcome
deriving Repr, DecidableEq

/-- The checks as a list. -/
def RiskChecks.inOrder (c : RiskChecks) : List CheckOutcome :=
  [c.mtfRegimeAlignment, c.correlationTrap, c.rollingCorrelation, c.spreadLegs,
    c.exposureLimits, c.dailyLossCircuitBreaker, c.consecutiveLossCircuitBreaker,
    c.macroKillSwitch, c.drawdownVelocity]

/-- `PortfolioRiskManager.check`: is the signal approved? -/
def approvedBy : List CheckOutcome → Bool
  | [] => true
  | .passed :: rest => approvedBy rest
  | .failed :: _ | .raised :: _ => false

/-- A signal is approved exactly when every check passes. -/
theorem approved_iff (outcomes : List CheckOutcome) :
    approvedBy outcomes = true ↔ ∀ outcome ∈ outcomes, outcome = .passed := by
  induction outcomes with
  | nil => simp [approvedBy]
  | cons outcome rest ih =>
      cases outcome with
      | passed => simpa [approvedBy] using ih
      | failed => simp [approvedBy]
      | raised => simp [approvedBy]

end Risk
end Karsa
