import Karsa.Foundations.Text
import Mathlib.Data.Rat.Defs
import Mathlib.Algebra.Order.Ring.Rat

/-!
# AI analyst - One analysis

`CryptoAnalyst.analyze` asks a model for its view of a signal.  It consults a circuit
breaker and a cache first, retries timeouts and failed requests, and parses the text it
gets.  What it returns when the model is out of reach depends on where that shows: an
open breaker and a lost request give a `FLAT` report with confidence zero, too few
candles and an unreadable answer give nothing.

Main results:

- Theorem `requestLoop_response`: the loop stops at the first answer.
- Theorem `analyze_eq_placeholder_iff`, `analyze_eq_verdict_iff`: when the analysis
  returns a placeholder, and when a view of the model.
-/

namespace Karsa
namespace Alpha

/-! ## Circuit breaker -/

/-- `AICircuitBreaker.state`. -/
inductive BreakerState where
  | CLOSED
  | OPEN
  | HALF_OPEN
deriving Repr, DecidableEq

/-- `AICircuitBreaker` with the analyst's settings, three failures and 300 seconds. -/
structure AICircuitBreaker where
  failures : Nat
  state : BreakerState
  lastFailureTime : ℚ
deriving Repr, DecidableEq

namespace AICircuitBreaker

/-- `failure_threshold`. -/
def failureThreshold : Nat := 3

/-- `reset_timeout`. -/
def resetTimeout : ℚ := 300

/-- `allow_request` at the given time. -/
def allowRequest (b : AICircuitBreaker) (now : ℚ) : Bool × AICircuitBreaker :=
  match b.state with
  | .CLOSED | .HALF_OPEN => (true, b)
  | .OPEN =>
      if resetTimeout < now - b.lastFailureTime then (true, { b with state := .HALF_OPEN })
      else (false, b)

/-- `record_success`. -/
def recordSuccess (b : AICircuitBreaker) : AICircuitBreaker :=
  { b with failures := 0, state := .CLOSED }

/-- `record_failure` at the given time. -/
def recordFailure (b : AICircuitBreaker) (now : ℚ) : AICircuitBreaker :=
  let failures := b.failures + 1
  { failures := failures
    lastFailureTime := now
    state := if b.state = .HALF_OPEN ∨ failureThreshold ≤ failures then .OPEN else b.state }

end AICircuitBreaker

/-! ## Reports -/

/-- A parsed view of the model. -/
structure ModelVerdict where
  direction : Text
  aiConfidence : ℤ
  reasoning : Text
  modelUsed : Text
deriving Repr, DecidableEq

/-- What `analyze` returns: a view of the model, or the stand-in for one that is out of
reach. -/
inductive AnalystReport where
  | verdict (v : ModelVerdict)
  | placeholder (reasoning : Text)
deriving Repr, DecidableEq

namespace AnalystReport

/-- `AnalystResult.direction`. -/
def direction : AnalystReport → Text
  | verdict v => v.direction
  | placeholder _ => "FLAT".toList

/-- `AnalystResult.ai_confidence`. -/
def aiConfidence : AnalystReport → ℤ
  | verdict v => v.aiConfidence
  | placeholder _ => 0

/-- `AnalystResult.reasoning`. -/
def reasoning : AnalystReport → Text
  | verdict v => v.reasoning
  | placeholder reasoning => reasoning

/-- `AnalystResult.model_used`. -/
def modelUsed : AnalystReport → Text
  | verdict v => v.modelUsed
  | placeholder _ => "circuit_breaker".toList

end AnalystReport

/-! ## Requests -/

/-- Text that came back, as `_parse_response` sees it. -/
inductive Response where
  | empty
  | unparsable
  | verdict (v : ModelVerdict)
deriving Repr, DecidableEq

/-- One attempt, with the time at which it failed. -/
inductive Attempt where
  | timedOut (clock : ℚ)
  | failed (clock : ℚ)
  | answered (response : Response)
deriving Repr, DecidableEq

/-- The answer of an attempt. -/
def Attempt.response? : Attempt → Option Response
  | timedOut _ | failed _ => none
  | answered response => some response

/-- What the retry loop ends with. -/
structure RequestResult where
  response : Option Response
  lastErrorReason : Text
  breaker : AICircuitBreaker
deriving Repr, DecidableEq

/-- The `for attempt in range(max_retries + 1)` loop with its remaining attempts. -/
def requestLoop : List Attempt → Text → AICircuitBreaker → RequestResult
  | [], reason, breaker => ⟨none, reason, breaker⟩
  | .timedOut clock :: rest, _, breaker =>
      requestLoop rest "AI_TIMEOUT".toList (breaker.recordFailure clock)
  | .failed clock :: rest, _, breaker =>
      requestLoop rest "AI_REQUEST_FAILED".toList (breaker.recordFailure clock)
  | .answered response :: _, reason, breaker =>
      ⟨some response, reason, breaker.recordSuccess⟩

/-- The loop stops at the first answer. -/
theorem requestLoop_response (attempts : List Attempt) (reason : Text)
    (breaker : AICircuitBreaker) :
    (requestLoop attempts reason breaker).response = attempts.findSome? Attempt.response? := by
  induction attempts generalizing reason breaker with
  | nil => rfl
  | cons attempt rest ih =>
      cases attempt with
      | timedOut clock => exact ih _ _
      | failed clock => exact ih _ _
      | answered response => rfl

/-! ## The analysis -/

/-- Read of the cached analysis of the symbol; a failed read counts as a miss. -/
inductive CacheRead where
  | miss
  | hit (v : ModelVerdict)
deriving Repr, DecidableEq

/-- Everything one analysis meets.  `candles` is how many were fetched; `none` is a
fetch that raised.  No caller passes flow data, so the short-squeeze boost of a verdict
never applies. -/
structure AnalystAnswers where
  isShadow : Bool
  breaker : AICircuitBreaker
  now : ℚ
  cache : CacheRead
  candles : Option Nat
  attempts : Nat → Attempt

/-- `max_retries + 1`. -/
def AnalystAnswers.attemptCount (b : AnalystAnswers) : Nat :=
  if b.isShadow then 1 else 3

/-- The attempts that may be made. -/
def AnalystAnswers.attemptList (b : AnalystAnswers) : List Attempt :=
  (List.range b.attemptCount).map b.attempts

/-- What became of an analysis. -/
inductive Analysis where
  | raised
  | unavailable
  | returned (report : AnalystReport)
deriving Repr, DecidableEq

/-- The report on what the request brought. -/
def reportOn (r : RequestResult) : Analysis :=
  match r.response with
  | none | some .empty => .returned (.placeholder r.lastErrorReason)
  | some .unparsable => .unavailable
  | some (.verdict v) => .returned (.verdict v)

/-- `CryptoAnalyst.analyze`, with the breaker it leaves. -/
def analyze (b : AnalystAnswers) : Analysis × AICircuitBreaker :=
  match b.breaker.allowRequest b.now with
  | (false, breaker) => (.returned (.placeholder "AI_CIRCUIT_OPEN".toList), breaker)
  | (true, breaker) =>
      match b.cache with
      | .hit v => (.returned (.verdict v), breaker)
      | .miss =>
          match b.candles with
          | none => (.raised, breaker)
          | some count =>
              if count < 50 then (.unavailable, breaker)
              else
                let r := requestLoop b.attemptList "AI_REQUEST_FAILED".toList breaker
                (reportOn r, r.breaker)

/-! ## Outages and views -/

/-- The breaker lets the analysis through, the cache misses and the candles suffice. -/
def AnalystAnswers.asks (b : AnalystAnswers) : Prop :=
  (b.breaker.allowRequest b.now).1 = true ∧ b.cache = .miss ∧ ∃ count ∈ b.candles, 50 ≤ count

/-- The model is out of reach: the breaker is open, no attempt is answered, or the first
answer is empty. -/
def Outage (b : AnalystAnswers) : Prop :=
  (b.breaker.allowRequest b.now).1 = false ∨
    b.asks ∧ (b.attemptList.findSome? Attempt.response?).getD .empty = .empty

/-- The model's view of a signal: the cached one, or the first answer. -/
def View (b : AnalystAnswers) (v : ModelVerdict) : Prop :=
  ((b.breaker.allowRequest b.now).1 = true ∧ b.cache = .hit v) ∨
    b.asks ∧ b.attemptList.findSome? Attempt.response? = some (.verdict v)

/-- An analysis that asks reports on the first answer. -/
theorem analyze_of_asks {b : AnalystAnswers} (hasks : b.asks) :
    ∃ r, (analyze b).1 = reportOn r ∧
      r.response = b.attemptList.findSome? Attempt.response? := by
  rcases hasks with ⟨hallow, hcache, count, hcandles, hcount⟩
  rcases hrequest : b.breaker.allowRequest b.now with ⟨allowed, breaker⟩
  rw [hrequest] at hallow
  dsimp only at hallow
  subst hallow
  refine ⟨requestLoop b.attemptList "AI_REQUEST_FAILED".toList breaker, ?_,
    requestLoop_response _ _ _⟩
  unfold analyze
  rw [hrequest, hcache, Option.mem_def.mp hcandles]
  dsimp only
  rw [if_neg (not_lt.mpr hcount)]

/-- One that does not ask has an open breaker, a cached view, or nothing to say. -/
theorem analyze_of_not_asks {b : AnalystAnswers} (hasks : ¬ b.asks) :
    ((b.breaker.allowRequest b.now).1 = false ∧
        (analyze b).1 = .returned (.placeholder "AI_CIRCUIT_OPEN".toList)) ∨
      (b.breaker.allowRequest b.now).1 = true ∧
        ((∃ v, b.cache = .hit v ∧ (analyze b).1 = .returned (.verdict v)) ∨
          b.cache = .miss ∧
            ((analyze b).1 = .raised ∨ (analyze b).1 = .unavailable)) := by
  unfold AnalystAnswers.asks at hasks
  unfold analyze
  rcases hrequest : b.breaker.allowRequest b.now with ⟨allowed, breaker⟩
  cases allowed with
  | false => simp
  | true =>
      rw [hrequest] at hasks
      cases hcache : b.cache with
      | hit v => simp
      | miss =>
          cases hcandles : b.candles with
          | none => simp
          | some count =>
              have hfew : count < 50 := by
                by_contra henough
                exact hasks ⟨rfl, hcache, count, hcandles, not_lt.mp henough⟩
              simp [hfew]

/-- A placeholder is returned exactly in an outage. -/
theorem analyze_eq_placeholder_iff (b : AnalystAnswers) :
    (∃ reason, (analyze b).1 = .returned (.placeholder reason)) ↔ Outage b := by
  by_cases hasks : b.asks
  · rcases analyze_of_asks hasks with ⟨r, hreport, hresponse⟩
    unfold Outage
    rw [hreport, ← hresponse, hasks.1]
    unfold reportOn
    rcases r.response with _ | _ | _ | v <;> simp [hasks]
  · unfold Outage
    rcases analyze_of_not_asks hasks with
      ⟨hopen, hreport⟩ | ⟨hallow, ⟨v, -, hreport⟩ | ⟨-, hreport | hreport⟩⟩
    · simp [hopen, hreport]
    · simp [hallow, hreport, hasks]
    · simp [hallow, hreport, hasks]
    · simp [hallow, hreport, hasks]

/-- A view of the model is returned exactly when it has one. -/
theorem analyze_eq_verdict_iff (b : AnalystAnswers) (v : ModelVerdict) :
    (analyze b).1 = .returned (.verdict v) ↔ View b v := by
  by_cases hasks : b.asks
  · rcases analyze_of_asks hasks with ⟨r, hreport, hresponse⟩
    unfold View
    rw [hreport, ← hresponse, hasks.2.1]
    unfold reportOn
    rcases r.response with _ | _ | _ | answer <;> simp [hasks]
  · unfold View
    rcases analyze_of_not_asks hasks with
      ⟨hopen, hreport⟩ | ⟨hallow, ⟨w, hcache, hreport⟩ | ⟨hcache, hreport | hreport⟩⟩
    · simp [hopen, hreport, hasks]
    · simp [hallow, hreport, hasks, hcache]
    · simp [hreport, hasks, hcache]
    · simp [hreport, hasks, hcache]

end Alpha
end Karsa
