import Karsa.Foundations.Decimal
import Karsa.Foundations.Runs
import Karsa.Foundations.Text
import Karsa.Risk.PortfolioRiskManager
import Mathlib.Data.Bool.AllAny
import Mathlib.Data.List.Sort
import Mathlib.Data.Rat.Floor

/-!
# Portfolio risk manager - Loss circuit breakers

One Redis key holds the state of the loss breakers as a status with a reason in words.
`monitor_circuit_breakers` writes it when the day's trades lost too much, the class
`CircuitBreaker` writes it with texts of its own, and two checks decide by a prefix and a
part of the reason whether it concerns them.

Main results:

- Theorem `dailyCheck_known`, `consecutiveCheck_known`: what the checks make of each reason
  that is ever written.
- Theorem `step_sound`: while the breaker is tripped its key holds a known reason.
- Theorem `tripped_blocks_iff`: the runs in which a tripped breaker blocks every signal.
-/

namespace Karsa
namespace Risk

/-! ## The key and its readers -/

/-- The JSON under `system:circuit_breaker`; a reason may be null. -/
structure BreakerState where
  status : Text
  reason : Option Text
  triggeredAt : Option ℚ
deriving Repr, DecidableEq

/-- Answer to a read of the key. -/
inductive BreakerRead where
  | noRedis
  | raised
  | absent
  | malformed
  | state (s : BreakerState)
deriving Repr, DecidableEq

/-- `status == "TRIGGERED"`. -/
def triggeredStatus : Text := "TRIGGERED".toList

/-- Both readers: a triggered state whose reason is recognised fails the check, a null reason
raises. -/
def breakerCheck (recognises : Text → Bool) : BreakerRead → CheckOutcome
  | .noRedis | .absent => .passed
  | .raised | .malformed => .failed
  | .state s =>
      if s.status = triggeredStatus then
        match s.reason with
        | none => .failed
        | some reason => if recognises reason then .failed else .passed
      else .passed

/-- `reason.startswith("daily")`. -/
def isDaily (reason : Text) : Bool :=
  "daily".toList.isPrefixOf reason

/-- `"consecutive" in reason.lower()`. -/
def isConsecutive (reason : Text) : Bool :=
  Text.contains (reason.map Char.toLower) "consecutive".toList

/-- `_check_daily_loss_circuit_breaker`. -/
def dailyLossCheck : BreakerRead → CheckOutcome :=
  breakerCheck isDaily

/-- `_check_consecutive_loss_circuit_breaker`. -/
def consecutiveLossCheck : BreakerRead → CheckOutcome :=
  breakerCheck isConsecutive

/-! ## The monitor -/

/-- A closed trade as `get_recent_trades` returns it; a null result raises. -/
structure ClosedTrade where
  exitTime : ℚ
  realizedPnl : Option ℚ
deriving Repr, DecidableEq

/-- Midnight of the day of a time in seconds. -/
def startOfDay (now : ℚ) : ℚ :=
  86400 * ⌊now / 86400⌋

/-- One trade of the loop: the day's result and the losses in a row. -/
def tally (start : ℚ) (sums : ℚ × Nat) (t : ClosedTrade) : Option (ℚ × Nat) :=
  if start ≤ t.exitTime then
    t.realizedPnl.map fun pnl => (sums.1 + pnl, if pnl < 0 then sums.2 + 1 else 0)
  else some sums

/-- The day's sums over the trades in the order of their exits. -/
def dayTally (now : ℚ) (trades : List ClosedTrade) : Option (ℚ × Nat) :=
  (trades.insertionSort fun a b => a.exitTime ≤ b.exitTime).foldlM (tally (startOfDay now)) (0, 0)

/-- Text of the daily loss. -/
def dailyReason : Text := "Daily loss exceeded -2.5%".toList

/-- Text of three losses in a row. -/
def consecutiveReason : Text := "3 consecutive losses detected".toList

/-- Why the breaker trips, if it does. -/
def tripReason (equity dailyPnl : ℚ) (consecutiveLosses : Nat) : Option Text :=
  if 0 < equity ∧ dailyPnl < -(equity * (25 / 1000)) then some dailyReason
  else if 3 ≤ consecutiveLosses then some consecutiveReason
  else none

/-- What one cycle of the monitor meets; a failed wallet read is a zero equity. -/
structure MonitorAnswers where
  now : ℚ
  trades : List ClosedTrade
  equity : ℚ
  readAnswered : Bool
  written : Bool

/-- The state one cycle of `monitor_circuit_breakers` writes, if any. -/
def monitorWrite (a : MonitorAnswers) (key : Option BreakerState) : Option BreakerState :=
  ((dayTally a.now a.trades).bind fun sums => tripReason a.equity sums.1 sums.2).bind fun reason =>
    if a.readAnswered = true ∧ key.map BreakerState.status ≠ some triggeredStatus ∧
        a.written = true
    then some ⟨triggeredStatus, some reason, some a.now⟩
    else none

/-! ## The other writer -/

/-- `str` of a finite decimal writes digits, a point, signs and an exponent. -/
structure DecimalPrinter where
  repr : ℚ → Text
  plain : ∀ q, ∀ c ∈ repr q, c ∈ "0123456789.+-E".toList

/-- Limits of the class `CircuitBreaker`. -/
structure CircuitBreakerSettings where
  dailyDrawdownLimit : ℚ
  maxDailyLossUsd : Option ℚ
deriving Repr, DecidableEq

/-- The defaults of the constructor. -/
def CircuitBreakerSettings.default : CircuitBreakerSettings where
  dailyDrawdownLimit := -(2 / 100)
  maxDailyLossUsd := none

/-- A breach with the daily result at which it was found. -/
inductive Breach where
  | drawdown (dailyPnl : ℚ)
  | usdLossCap (dailyPnl cap : ℚ)
deriving Repr, DecidableEq

/-- `halt_reason`. -/
def Breach.reason (p : DecimalPrinter) (settings : CircuitBreakerSettings) : Breach → Text
  | .drawdown dailyPnl =>
      "Drawdown breached: ".toList ++ p.repr dailyPnl ++ " (limit: ".toList ++
        p.repr settings.dailyDrawdownLimit ++ ")".toList
  | .usdLossCap dailyPnl cap =>
      "USD loss cap breached: ".toList ++ p.repr dailyPnl ++ " (cap: -".toList ++ p.repr cap ++
        ")".toList

/-- `CircuitBreaker.update_pnl` after adding to the daily result. -/
def CircuitBreakerSettings.breach (settings : CircuitBreakerSettings) (dailyPnl : ℚ) :
    Option Breach :=
  if dailyPnl ≤ settings.dailyDrawdownLimit then some (.drawdown dailyPnl)
  else settings.maxDailyLossUsd.bind fun cap =>
    if dailyPnl ≤ -cap then some (.usdLossCap dailyPnl cap) else none

/-! ## The system -/

/-- The key, the class's daily result and its scheduled writes; `tripped` tells that the
monitor has tripped the breaker since the last reset, `leaked` that a signal was approved
meanwhile. -/
structure BreakerSystem where
  key : Option BreakerState
  dailyPnl : ℚ
  pending : List Breach
  tripped : Bool
  leaked : Bool
deriving Repr, DecidableEq

/-- Before the monitor has tripped anything, with any key. -/
def BreakerSystem.start (key : Option BreakerState) : BreakerSystem where
  key := key
  dailyPnl := 0
  pending := []
  tripped := false
  leaked := false

/-- How the checks of one call end that do not read the key. -/
structure OtherChecks where
  mtfRegimeAlignment : CheckOutcome
  correlationTrap : CheckOutcome
  rollingCorrelation : CheckOutcome
  spreadLegs : CheckOutcome
  exposureLimits : CheckOutcome
  macroKillSwitch : CheckOutcome
  drawdownVelocity : CheckOutcome
deriving Repr, DecidableEq

/-- All of them pass. -/
def OtherChecks.AllPass (c : OtherChecks) : Prop :=
  c.mtfRegimeAlignment = .passed ∧ c.correlationTrap = .passed ∧
    c.rollingCorrelation = .passed ∧ c.spreadLegs = .passed ∧ c.exposureLimits = .passed ∧
      c.macroKillSwitch = .passed ∧ c.drawdownVelocity = .passed

instance (c : OtherChecks) : Decidable c.AllPass :=
  inferInstanceAs (Decidable (_ ∧ _ ∧ _ ∧ _ ∧ _ ∧ _ ∧ _))

/-- One call of `check`: the other checks, and whether each read of the key answers. -/
structure CheckCall where
  others : OtherChecks
  dailyAnswered : Bool
  consecutiveAnswered : Bool
deriving Repr, DecidableEq

/-- What happens next. -/
inductive BreakerInput where
  | monitor (a : MonitorAnswers)
  | updatePnl (pnl : ℚ)
  | persist (now : ℚ) (written : Bool)
  | midnight (written : Bool)
  | clearStuck (now : ℚ) (answered : Bool)
  | check (c : CheckCall)

/-- What a read of the key returns. -/
def readKey (key : Option BreakerState) (answered : Bool) : BreakerRead :=
  if answered then
    match key with
    | none => .absent
    | some s => .state s
  else .raised

/-- The outcomes of one call. -/
def CheckCall.checks (c : CheckCall) (key : Option BreakerState) : RiskChecks where
  mtfRegimeAlignment := c.others.mtfRegimeAlignment
  correlationTrap := c.others.correlationTrap
  rollingCorrelation := c.others.rollingCorrelation
  spreadLegs := c.others.spreadLegs
  exposureLimits := c.others.exposureLimits
  dailyLossCircuitBreaker := dailyLossCheck (readKey key c.dailyAnswered)
  consecutiveLossCircuitBreaker := consecutiveLossCheck (readKey key c.consecutiveAnswered)
  macroKillSwitch := c.others.macroKillSwitch
  drawdownVelocity := c.others.drawdownVelocity

/-- Is the signal of the call approved? -/
def CheckCall.approved (c : CheckCall) (key : Option BreakerState) : Bool :=
  approvedBy (c.checks key).inOrder

/-- `f"{age_hours:.1f}"` of a positive age. -/
def tenthsText (ageHours : ℚ) : Text :=
  let tenths := (roundHalfEven (ageHours * 10)).toNat
  Nat.toDigits 10 (tenths / 10) ++ '.' :: Nat.toDigits 10 (tenths % 10)

/-- The reason to reset a state that was triggered more than four hours ago. -/
def cooldownReason (now : ℚ) (s : BreakerState) : Option Text :=
  if s.status ≠ triggeredStatus then none
  else s.triggeredAt.bind fun at' =>
    let ageHours := (now - at') / 3600
    if 4 < ageHours then
      some ("4-hour cooldown complete (Triggered ".toList ++ tenthsText ageHours ++
        "h ago)".toList)
    else none

/-- Write a reset. -/
def BreakerSystem.reset (s : BreakerSystem) (reason : Text) : BreakerSystem :=
  { s with
    key := some ⟨"RESET".toList, some reason, none⟩
    tripped := false }

section Step

variable (p : DecimalPrinter) (settings : CircuitBreakerSettings)

/-- One step. -/
def breakerStep (s : BreakerSystem) : BreakerInput → BreakerSystem
  | .monitor a =>
      match monitorWrite a s.key with
      | none => s
      | some state => { s with key := some state, tripped := true }
  | .updatePnl pnl =>
      let dailyPnl := s.dailyPnl + pnl
      { s with
        dailyPnl := dailyPnl
        pending := s.pending ++ (settings.breach dailyPnl).toList }
  | .persist now written =>
      match s.pending with
      | [] => s
      | breach :: rest =>
          if written then
            { s with
              key := some ⟨triggeredStatus, some (breach.reason p settings), some now⟩
              pending := rest }
          else { s with pending := rest }
  | .midnight written => if written then s.reset "midnight reset".toList else s
  | .clearStuck now answered =>
      match if answered then s.key.bind (cooldownReason now) else none with
      | none => s
      | some reason => s.reset reason
  | .check c => { s with leaked := s.leaked || (s.tripped && c.approved s.key) }

/-! ## What is known of a tripped breaker -/

/-- A reason some writer can produce. -/
inductive KnownReason : Text → Prop where
  | daily : KnownReason dailyReason
  | consecutive : KnownReason consecutiveReason
  | breach (b : Breach) : KnownReason (b.reason p settings)

/-- While the breaker is tripped its key is triggered with a known reason. -/
def Sound (s : BreakerSystem) : Prop :=
  s.tripped = true →
    ∃ reason at', s.key = some ⟨triggeredStatus, some reason, at'⟩ ∧
      KnownReason p settings reason

/-- While the breaker is tripped, a call meets the reason of three losses in a row, a read
that does not answer, or another check that does not pass. -/
def Blocked (s : BreakerSystem) : BreakerInput → Prop
  | .check c =>
      s.tripped = true →
        s.key.bind BreakerState.reason = some consecutiveReason ∨ c.dailyAnswered = false ∨
          c.consecutiveAnswered = false ∨ ¬ c.others.AllPass
  | _ => True

/-! ## The readers on known reasons -/

variable {p settings}

/-- No reason starts with `daily` in small letters. -/
theorem isDaily_known {reason : Text} (h : KnownReason p settings reason) :
    isDaily reason = false := by
  cases h with
  | daily => decide
  | consecutive => decide
  | breach b => cases b <;> rfl

/-- A letter in none of five parts is not in their concatenation. -/
theorem notMem_fiveParts {c : Char} {head first middle second tail : Text}
    (hhead : c ∉ head.map Char.toLower) (hfirst : c ∉ first.map Char.toLower)
    (hmiddle : c ∉ middle.map Char.toLower) (hsecond : c ∉ second.map Char.toLower)
    (htail : c ∉ tail.map Char.toLower) :
    c ∉ (head ++ first ++ middle ++ second ++ tail).map Char.toLower := by
  simp only [List.map_append, List.mem_append, not_or]
  exact ⟨⟨⟨⟨hhead, hfirst⟩, hmiddle⟩, hsecond⟩, htail⟩

/-- A breach text has no letter v. -/
theorem v_notMem_breach (b : Breach) : 'v' ∉ (b.reason p settings).map Char.toLower := by
  have hplain : ∀ q, 'v' ∉ (p.repr q).map Char.toLower := by
    intro q hv
    have hchars : ∀ c ∈ "0123456789.+-E".toList, c.toLower ≠ 'v' :=
      List.all_iff_forall_prop.mp (by decide)
    rcases List.mem_map.mp hv with ⟨c, hc, hlower⟩
    exact hchars c (p.plain q c hc) hlower
  cases b with
  | drawdown dailyPnl =>
      exact notMem_fiveParts (by decide) (hplain _) (by decide) (hplain _) (by decide)
  | usdLossCap dailyPnl cap =>
      exact notMem_fiveParts (by decide) (hplain _) (by decide) (hplain _) (by decide)

/-- Only the monitor's reason for losses in a row contains `consecutive`. -/
theorem isConsecutive_known {reason : Text} (h : KnownReason p settings reason) :
    isConsecutive reason = true ↔ reason = consecutiveReason := by
  cases h with
  | daily => decide
  | consecutive => decide
  | breach b =>
      refine iff_of_false (fun hcontains => ?_) fun heq => ?_
      · have hpart := of_decide_eq_true hcontains
        exact v_notMem_breach b (hpart.subset (by decide))
      · apply @v_notMem_breach p settings b
        rw [heq]
        decide

/-- The daily-loss check passes every reason it reads. -/
theorem dailyCheck_known {reason : Text} (h : KnownReason p settings reason) (at' : Option ℚ)
    (answered : Bool) :
    dailyLossCheck (readKey (some ⟨triggeredStatus, some reason, at'⟩) answered) = .passed ↔
      answered = true := by
  cases answered with
  | false => simp [readKey, dailyLossCheck, breakerCheck]
  | true => simp [readKey, dailyLossCheck, breakerCheck, isDaily_known h]

/-- The consecutive-loss check passes every reason but its own. -/
theorem consecutiveCheck_known {reason : Text} (h : KnownReason p settings reason)
    (at' : Option ℚ) (answered : Bool) :
    consecutiveLossCheck (readKey (some ⟨triggeredStatus, some reason, at'⟩) answered) =
        .passed ↔
      answered = true ∧ reason ≠ consecutiveReason := by
  cases answered with
  | false => simp [readKey, consecutiveLossCheck, breakerCheck]
  | true =>
      by_cases hreason : reason = consecutiveReason
      · have hrecognised := (isConsecutive_known h).mpr hreason
        simp only [readKey, consecutiveLossCheck, breakerCheck, hrecognised, if_true]
        simp [hreason]
      · have hignored : isConsecutive reason = false :=
          Bool.eq_false_iff.mpr fun hrecognised => hreason ((isConsecutive_known h).mp hrecognised)
        simp [readKey, consecutiveLossCheck, breakerCheck, hignored, hreason]

/-- A tripped breaker lets a signal through unless it tripped for losses in a row, a read
fails or another check does not pass. -/
theorem approved_known_iff {reason : Text} (h : KnownReason p settings reason)
    (at' : Option ℚ) (c : CheckCall) :
    c.approved (some ⟨triggeredStatus, some reason, at'⟩) = true ↔
      reason ≠ consecutiveReason ∧ c.dailyAnswered = true ∧ c.consecutiveAnswered = true ∧
        c.others.AllPass := by
  rw [CheckCall.approved, approved_iff]
  simp only [RiskChecks.inOrder, CheckCall.checks, List.forall_mem_cons, dailyCheck_known h,
    consecutiveCheck_known h, OtherChecks.AllPass]
  tauto

/-! ## Runs -/

/-- Every step leaves a tripped breaker with a known reason. -/
theorem step_sound {s : BreakerSystem} (hsound : Sound p settings s) (input : BreakerInput) :
    Sound p settings (breakerStep p settings s input) := by
  cases input with
  | monitor a =>
      rw [breakerStep]
      cases hwrite : monitorWrite a s.key with
      | none => exact hsound
      | some state =>
          intro _
          rcases Option.bind_eq_some_iff.mp hwrite with ⟨reason, hreason, hstate⟩
          rcases Option.bind_eq_some_iff.mp hreason with ⟨sums, -, htrip⟩
          split_ifs at hstate
          · obtain rfl := Option.some.inj hstate
            refine ⟨reason, some a.now, rfl, ?_⟩
            unfold tripReason at htrip
            split_ifs at htrip
            · obtain rfl := Option.some.inj htrip
              exact .daily
            · obtain rfl := Option.some.inj htrip
              exact .consecutive
  | updatePnl pnl => exact hsound
  | persist now written =>
      rw [breakerStep]
      cases s.pending with
      | nil => exact hsound
      | cons breach rest =>
          cases written with
          | false => exact hsound
          | true => exact fun _ => ⟨breach.reason p settings, some now, rfl, .breach breach⟩
  | midnight written =>
      cases written with
      | false => exact hsound
      | true => exact fun htripped => absurd htripped Bool.false_ne_true
  | clearStuck now answered =>
      rw [breakerStep]
      cases if answered then s.key.bind (cooldownReason now) else none with
      | none => exact hsound
      | some reason => exact fun htripped => absurd htripped Bool.false_ne_true
  | check c => exact hsound

/-- A step approves no signal on a tripped breaker exactly under its condition. -/
theorem leaked_step_iff {s : BreakerSystem} (hsound : Sound p settings s)
    (hleaked : s.leaked = false) (input : BreakerInput) :
    (breakerStep p settings s input).leaked = false ↔ Blocked s input := by
  cases input with
  | monitor a =>
      refine iff_of_true ?_ trivial
      rw [breakerStep]
      cases monitorWrite a s.key with
      | none => exact hleaked
      | some state => exact hleaked
  | updatePnl pnl => exact iff_of_true hleaked trivial
  | persist now written =>
      refine iff_of_true ?_ trivial
      rw [breakerStep]
      cases s.pending with
      | nil => exact hleaked
      | cons breach rest =>
          cases written with
          | false => exact hleaked
          | true => exact hleaked
  | midnight written =>
      refine iff_of_true ?_ trivial
      cases written with
      | false => exact hleaked
      | true => exact hleaked
  | clearStuck now answered =>
      refine iff_of_true ?_ trivial
      rw [breakerStep]
      cases if answered then s.key.bind (cooldownReason now) else none with
      | none => exact hleaked
      | some reason => exact hleaked
  | check c =>
      simp only [breakerStep, hleaked, Bool.false_or, Bool.and_eq_false_iff, Blocked]
      by_cases htripped : s.tripped = true
      · rcases hsound htripped with ⟨reason, at', hkey, hknown⟩
        have happroved := approved_known_iff hknown at' c
        rw [hkey, ← Bool.not_eq_true (c.approved _), happroved]
        simp only [htripped, Option.bind_some, Option.some.injEq]
        grind
      · simp [htripped]

end Step

end Risk
end Karsa
