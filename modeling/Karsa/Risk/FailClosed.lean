import Karsa.Risk.PortfolioChecks

/-!
# Portfolio risk manager - What happens when a dependency fails

`check` is to block a signal whenever one of its checks cannot be made.  The correlation
trap, the exposure limits and the circuit breakers do so for everything that raises.  The
rolling correlation and the spread legs pass instead, and a wallet that cannot be read is a
zero balance, which the exposure limits take for an account without equity.

Main results:

- Theorem `riskCheck_approved_iff`: the signals that are approved.
- Theorem `closed_failure_refuses`: the failures that always block.
- Theorem `failsClosed_iff`: when a signal is blocked whatever has failed.
-/

namespace Karsa
namespace Risk

/-! ## One call of the manager -/

/-- Limits of the manager. -/
structure RiskSettings where
  exposure : ExposureSettings
  velocityThreshold : ℚ
deriving Repr, DecidableEq

/-- The defaults of the configuration. -/
def RiskSettings.default : RiskSettings where
  exposure := .default
  velocityThreshold := -(15 / 1000)

/-- What one call reads from Redis. -/
structure RedisAnswers where
  marketState : KeyRead Text
  dailyLoss : KeyRead BreakerState
  consecutiveLoss : KeyRead BreakerState
  velocity : VelocityAnswers
deriving Repr, DecidableEq

/-- What one call reads; `redis` and `rolling` are `none` without a client or a fetcher, the
other reads where they raise. -/
structure RiskAnswers where
  redis : Option RedisAnswers
  trap : TrapAnswers
  rolling : Option RollingAnswers
  spread : Option (List LegRead)
  wallet : Option ℚ
  exposure : Option (List OpenPosition)
  macroActive : Bool
deriving Repr, DecidableEq

namespace RiskAnswers

/-- The read of the breaker's key for the daily loss. -/
def dailyLoss (a : RiskAnswers) : BreakerRead :=
  .ofKey (a.redis.map RedisAnswers.dailyLoss)

/-- The read of the breaker's key for the losses in a row. -/
def consecutiveLoss (a : RiskAnswers) : BreakerRead :=
  .ofKey (a.redis.map RedisAnswers.consecutiveLoss)

/-- The positions as the exposure limits see them. -/
def held (a : RiskAnswers) : Option (List HeldPosition) :=
  a.exposure.map (List.map OpenPosition.toHeldPosition)

end RiskAnswers

section Check

variable (np : Statistics) (settings : RiskSettings) (s : RiskSignal) (a : RiskAnswers)

/-- The checks of one call; those behind the rolling correlation get the signal it leaves. -/
def riskChecks : RiskChecks :=
  let rolling := rollingCorrelation np s a.rolling
  { mtfRegimeAlignment := mtfRegimeAlignment s.direction (a.redis.map RedisAnswers.marketState)
    correlationTrap := correlationTrap s a.trap
    rollingCorrelation := rolling.1
    spreadLegs := spreadLegs rolling.2 a.spread
    exposureLimits := exposureLimits settings.exposure (getWalletBalance a.wallet) a.held
      rolling.2.entryPrice rolling.2.amount
    dailyLossCircuitBreaker := dailyLossCheck a.dailyLoss
    consecutiveLossCircuitBreaker := consecutiveLossCheck a.consecutiveLoss
    macroKillSwitch := macroKillSwitch rolling.2.direction a.macroActive
    drawdownVelocity :=
      drawdownVelocity settings.velocityThreshold (a.redis.map RedisAnswers.velocity) }

/-- `PortfolioRiskManager.check`: is the signal approved? -/
def riskCheck : Bool :=
  approvedBy (riskChecks np settings s a).inOrder

/-! ## Reasons to refuse -/

/-- The limits cannot be compared although the account has equity, or they are exceeded. -/
def ExposureRefuses : Prop :=
  ∃ equity, a.wallet = some equity ∧ 0 < equity ∧
    (a.exposure = none ∨ ExceedsSingle settings.exposure equity s.entryPrice s.amount ∨
      ∃ held, a.held = some held ∧ ¬ WithinLimits settings.exposure equity held)

/-- What makes the manager refuse a signal, in terms of what its checks read. -/
inductive Refused : Prop where
  | market : MarketRefuses s.direction (a.redis.map RedisAnswers.marketState) → Refused
  | trap : TrapUnevaluated s a.trap ∨ SectorFull s a.trap → Refused
  | rolling : HighlyCorrelated np s a.rolling → Refused
  | spread : SpreadFull s a.spread → Refused
  | exposure : ExposureRefuses settings s a → Refused
  | daily : BreakerUnevaluated a.dailyLoss ∨ BreakerTriggered isDaily a.dailyLoss → Refused
  | consecutive :
      BreakerUnevaluated a.consecutiveLoss ∨ BreakerTriggered isConsecutive a.consecutiveLoss →
        Refused
  | macroFilter : s.direction = "LONG".toList ∧ a.macroActive = true → Refused
  | velocity :
      VelocityRefuses settings.velocityThreshold (a.redis.map RedisAnswers.velocity) → Refused

/-! ## Failures -/

/-- The equity or the positions cannot be read. -/
def ExposureUnevaluated : Prop :=
  a.wallet = none ∨ ∃ equity, a.wallet = some equity ∧ 0 < equity ∧ a.exposure = none

/-- A failure that its own check passes over. -/
def OpenFailure : Prop :=
  RollingUnevaluated np s a.rolling ∨ SpreadUnevaluated s a.spread ∨ a.wallet = none

/-- One of the correlation, spread, exposure and loss checks cannot be made. -/
def Unevaluated : Prop :=
  TrapUnevaluated s a.trap ∨ RollingUnevaluated np s a.rolling ∨ SpreadUnevaluated s a.spread ∨
    ExposureUnevaluated a ∨ a.redis = none ∨ BreakerUnevaluated a.dailyLoss ∨
      BreakerUnevaluated a.consecutiveLoss

/-- A check that cannot be made blocks the signal. -/
def FailsClosed : Prop :=
  Unevaluated np s a → riskCheck np settings s a = false

/-! ## The decision -/

variable {np settings s a}

theorem exposureLimits_refuses_iff :
    exposureLimits settings.exposure (getWalletBalance a.wallet) a.held s.entryPrice s.amount =
        .passed ↔
      ¬ ExposureRefuses settings s a := by
  rw [exposureLimits_passed_iff]
  unfold ExposureRefuses RiskAnswers.held
  cases a.wallet with
  | none => simp [getWalletBalance]
  | some equity =>
      by_cases hequity : equity ≤ 0
      · simp [getWalletBalance, hequity]
      · have hpositive := lt_of_not_ge hequity
        cases a.exposure with
        | none => simp [getWalletBalance, hequity]
        | some positions =>
            simp only [getWalletBalance, hequity, Option.map_some, Option.some.injEq, false_or,
              exists_eq_left', hpositive, true_and, reduceCtorEq, not_or, not_not]

theorem macroKillSwitch_passed_iff {direction : Text} {active : Bool} :
    macroKillSwitch direction active = .passed ↔
      ¬ (direction = "LONG".toList ∧ active = true) := by
  unfold macroKillSwitch
  split_ifs with hblocked
  · simp [hblocked]
  · exact iff_of_true rfl hblocked

/-- A signal is approved exactly when nothing speaks against it. -/
theorem riskCheck_approved_iff :
    riskCheck np settings s a = true ↔ ¬ Refused np settings s a := by
  rw [riskCheck, approved_iff]
  simp only [RiskChecks.inOrder, riskChecks, List.forall_mem_cons, rollingCorrelation_signal,
    mtfRegimeAlignment_passed_iff, correlationTrap_passed_iff, rollingCorrelation_passed_iff,
    spreadLegs_passed_iff, exposureLimits_refuses_iff, dailyLossCheck, consecutiveLossCheck,
    breakerCheck_passed_iff, macroKillSwitch_passed_iff, drawdownVelocity_passed_iff]
  constructor
  · rintro ⟨hmarket, htrap, hrolling, hspread, hexposure, hdaily, hconsecutive, hmacro, hvelocity,
      -⟩ hrefused
    cases hrefused with
    | market h => exact hmarket h
    | trap h => exact htrap h
    | rolling h => exact hrolling h
    | spread h => exact hspread h
    | exposure h => exact hexposure h
    | daily h => exact hdaily h
    | consecutive h => exact hconsecutive h
    | macroFilter h => exact hmacro h
    | velocity h => exact hvelocity h
  · intro hnone
    exact ⟨fun h => hnone (.market h), fun h => hnone (.trap h), fun h => hnone (.rolling h),
      fun h => hnone (.spread h), fun h => hnone (.exposure h), fun h => hnone (.daily h),
      fun h => hnone (.consecutive h), fun h => hnone (.macroFilter h),
      fun h => hnone (.velocity h), fun _ h => absurd h List.not_mem_nil⟩

/-- Every failure but an open one is a reason to refuse. -/
theorem closed_failure_refuses (hfailed : Unevaluated np s a) :
    OpenFailure np s a ∨ Refused np settings s a := by
  rcases hfailed with h | h | h | h | h | h | h
  · exact Or.inr (.trap (Or.inl h))
  · exact Or.inl (Or.inl h)
  · exact Or.inl (Or.inr (Or.inl h))
  · rcases h with hwallet | ⟨equity, hwallet, hequity, hpositions⟩
    · exact Or.inl (Or.inr (Or.inr hwallet))
    · exact Or.inr (.exposure ⟨equity, hwallet, hequity, Or.inl hpositions⟩)
  · refine Or.inr (.market fun regime hregime => ?_)
    rw [h] at hregime
    exact absurd hregime (by simp)
  · exact Or.inr (.daily (Or.inl h))
  · exact Or.inr (.consecutive (Or.inl h))

/-- Every open failure leaves a check unmade. -/
theorem OpenFailure.unevaluated (h : OpenFailure np s a) : Unevaluated np s a := by
  rcases h with h | h | h
  · exact Or.inr (Or.inl h)
  · exact Or.inr (Or.inr (Or.inl h))
  · exact Or.inr (Or.inr (Or.inr (Or.inl (Or.inl h))))

end Check

/-- A call fails closed exactly when, with an open failure, something else it reads speaks
against the signal. -/
theorem failsClosed_iff (np : Statistics) (settings : RiskSettings) (s : RiskSignal)
    (a : RiskAnswers) :
    FailsClosed np settings s a ↔ (OpenFailure np s a → Refused np settings s a) := by
  have hblocked : riskCheck np settings s a = false ↔ Refused np settings s a := by
    rw [← Bool.not_eq_true, riskCheck_approved_iff, not_not]
  unfold FailsClosed
  rw [hblocked]
  constructor
  · exact fun h hopen => h hopen.unevaluated
  · intro h hfailed
    rcases closed_failure_refuses hfailed with hopen | hrefused
    · exact h hopen
    · exact hrefused

/-- A calm market, no positions and no breaker, for a signal of the given sector. -/
def calmAnswers (sector : Text) (wallet : Option ℚ) : RiskAnswers where
  redis := some ⟨.value "RANGE".toList, .absent, .absent, ⟨0, .absent, true, none, none, true⟩⟩
  trap := ⟨some sector, some []⟩
  rolling := none
  spread := some []
  wallet := wallet
  exposure := some []
  macroActive := false

/-- The wallet cannot be read, and a long of a million units is approved. -/
theorem failsClosed_wallet :
    ¬ ∀ (np : Statistics) (settings : RiskSettings) (s : RiskSignal) (a : RiskAnswers),
      FailsClosed np settings s a := by
  intro h
  have hblocked := h ⟨fun _ => false, fun _ _ => none⟩ .default
    ⟨"SOL/USDT".toList, "LONG".toList, 100, 1000000⟩ (calmAnswers "L1".toList none)
    (Or.inr (Or.inr (Or.inr (Or.inl (Or.inl rfl)))))
  revert hblocked
  decide +kernel

end Risk
end Karsa
