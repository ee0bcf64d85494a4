import Karsa.Alpha.Analyst
import Karsa.Foundations.Pools
import Karsa.Foundations.Runs

/-!
# AI analyst - The breaker in an outage

One `CryptoAnalyst` serves many analyses at a time.  Each asks its circuit breaker when it
begins, waits for its cache and its candles, and then sends up to three requests; the breaker
hears of each as it ends.

Beside the breaker the state keeps what an outage is: three requests in a row that brought no
text, until a probe brings some.

Main results:

- Theorem `Gated.maySend`: what the breaker has let in is sent in time.
- Theorem `step_inv`: what a step keeps that brings no crowd to the breaker and no empty answer.
- Theorem `prompt_lawful`: in runs of such steps the breaker follows the outages.
-/

namespace Karsa
namespace Alpha
namespace Outages

/-! ## Requests to the router -/

/-- A message of the router; a field that is absent or null is empty. -/
structure ChatMessage where
  content : Text
  reasoningContent : Text
  reasoning : Text
deriving Repr, DecidableEq

/-- `content or reasoning_content or reasoning`. -/
def ChatMessage.text (m : ChatMessage) : Text :=
  if m.content ≠ [] then m.content
  else if m.reasoningContent ≠ [] then m.reasoningContent
  else m.reasoning

/-- What became of one POST: a response, with its choices if it is JSON, a timeout, another
error of the client, or any other exception. -/
inductive RouterReply where
  | response (status : Nat) (choices : List ChatMessage)
  | timedOut
  | clientError
  | raised
deriving Repr, DecidableEq

/-- How `AIClient.complete` ends. -/
inductive Completion where
  | returned (text : Option Text)
  | raised
deriving Repr, DecidableEq

/-- `AIClient.complete`, with one reply for each of its attempts. -/
def complete : List RouterReply → Completion
  | [] => .returned none
  | .response status choices :: rest =>
      if status = 200 then .returned (choices.head?.map ChatMessage.text)
      else if status = 429 then complete rest
      else if 400 ≤ status ∧ status < 500 then .returned none
      else complete rest
  | .timedOut :: rest => complete rest
  | .clientError :: rest => complete rest
  | .raised :: _ => .raised

/-- How `asyncio.wait_for` of a request ends. -/
inductive RequestEnd where
  | timedOut
  | completed (replies : List RouterReply)
deriving Repr, DecidableEq

/-- What the retry loop gets: nothing if the request raised. -/
def RequestEnd.response : RequestEnd → Option (Option Text)
  | timedOut => none
  | completed replies =>
      match complete replies with
      | .returned text => some text
      | .raised => none

/-- Is there text in it? -/
def answers (response : Option (Option Text)) : Bool :=
  match response with
  | some (some text) => decide (text ≠ [])
  | some none | none => false

/-! ## Analyses -/

/-- What the breaker did against the outages: a request was sent in an outage before its time
or beside a probe, the breaker closed without the answer of a probe, it did not open when a
probe brought none, or it refused an analysis that was due. -/
structure Breaches where
  sentEarly : Bool
  closedWrongly : Bool
  notReopened : Bool
  refusedWrongly : Bool
deriving Repr, DecidableEq

/-- The breaker and the clock, how many requests in a row brought no text, when the last of
them ended, whether there is an outage, and whether a probe is out. -/
structure AnalystState where
  breaker : AICircuitBreaker
  clock : ℚ
  failed : Nat
  lastFailure : ℚ
  outage : Bool
  probing : Bool
  breaches : Breaches
deriving Repr, DecidableEq

/-- Where an analysis waits: for its data, for the answer to a request, which may be a probe,
or for its next attempt. -/
inductive AnalysisTask where
  | preparing
  | asking (attempt : Nat) (probe : Bool)
  | sleeping (attempt : Nat)
  | done
deriving Repr, DecidableEq

/-- Is it a probe? -/
def AnalysisTask.isProbe : AnalysisTask → Bool
  | asking _ probe => probe
  | preparing | sleeping _ | done => false

/-- What a turn meets: the cached analysis, the candles, or the end of the request. -/
structure Meets where
  cache : CacheRead
  candles : Option Nat
  request : RequestEnd
deriving Repr, DecidableEq

/-- The cache misses and the candles suffice. -/
def Meets.ready (m : Meets) : Bool :=
  decide (m.cache = .miss) && m.candles.any fun count => decide (50 ≤ count)

/-- `max_retries`. -/
def maxRetries (isShadow : Bool) : Nat :=
  if isShadow then 0 else 2

/-- The time at which a probe is due has come. -/
def AnalystState.due (s : AnalystState) : Bool :=
  decide (s.lastFailure + AICircuitBreaker.resetTimeout ≤ s.clock) && !s.probing

/-- An attempt sends its request; in an outage it is a probe. -/
def send (s : AnalystState) (attempt : Nat) : AnalystState × AnalysisTask :=
  ({ s with
      probing := s.probing || s.outage
      breaches := { s.breaches with
        sentEarly := s.breaches.sentEarly || (s.outage && !s.due) } },
    .asking attempt s.outage)

/-- A request has ended, and the breaker with it. -/
def settle (s : AnalystState) (breaker : AICircuitBreaker) (probe answered : Bool) :
    AnalystState where
  breaker := breaker
  clock := s.clock
  failed := if answered then 0 else s.failed + 1
  lastFailure := if answered then s.lastFailure else s.clock
  outage :=
    if answered then s.outage && !probe
    else s.outage || decide (AICircuitBreaker.failureThreshold ≤ s.failed + 1)
  probing := s.probing && !probe
  breaches := { s.breaches with
    closedWrongly := s.breaches.closedWrongly ||
      (decide (s.breaker.state ≠ .CLOSED ∧ breaker.state = .CLOSED) && !(probe && answered))
    notReopened := s.breaches.notReopened ||
      (probe && !answered && decide (breaker.state ≠ .OPEN)) }

/-- The loop hears how its request ended; what it got counts as a success as it is. -/
def hear (isShadow : Bool) (s : AnalystState) (attempt : Nat) (probe : Bool)
    (response : Option (Option Text)) : AnalystState × AnalysisTask :=
  match response with
  | none =>
      (settle s (s.breaker.recordFailure s.clock) probe false,
        if attempt < maxRetries isShadow then .sleeping attempt else .done)
  | some text => (settle s s.breaker.recordSuccess probe (answers (some text)), .done)

/-- One turn of an analysis. -/
def act (isShadow : Bool) (m : Meets) (s : AnalystState) :
    AnalysisTask → AnalystState × AnalysisTask
  | .preparing => if m.ready then send s 0 else (s, .done)
  | .asking attempt probe => hear isShadow s attempt probe m.request.response
  | .sleeping attempt => send s (attempt + 1)
  | .done => (s, .done)

/-- What happens next: an analysis begins, one gets its turn, or the clock shows a time. -/
inductive AnalystInput where
  | analyze
  | turn (i : Nat) (meets : Meets)
  | tick (now : ℚ)
deriving DecidableEq

/-- The breaker after it was asked. -/
def AnalystState.asked (s : AnalystState) : AnalystState :=
  { s with
    breaker := (s.breaker.allowRequest s.clock).2
    breaches := { s.breaches with
      refusedWrongly := s.breaches.refusedWrongly ||
        (!(s.breaker.allowRequest s.clock).1 && (!s.outage ||
          decide (s.lastFailure + AICircuitBreaker.resetTimeout < s.clock) && !s.probing)) } }

/-- One step. -/
def step (isShadow : Bool) (p : Pool AnalystState AnalysisTask) :
    AnalystInput → Pool AnalystState AnalysisTask
  | .analyze =>
      (p.update AnalystState.asked).spawn
        (if (p.shared.breaker.allowRequest p.shared.clock).1 then .preparing else .done)
  | .turn i meets => p.turn (act isShadow meets) i
  | .tick now => p.update fun s => { s with clock := now }

/-- A new analyst. -/
def start (clock : ℚ) : Pool AnalystState AnalysisTask where
  shared :=
    { breaker := ⟨0, .CLOSED, 0⟩, clock := clock, failed := 0, lastFailure := 0, outage := false
      probing := false, breaches := ⟨false, false, false, false⟩ }
  tasks := []

/-! ## Law and condition -/

/-- In an outage requests wait for their time, and then go out one at a time; the breaker
closes with the answer of a probe, opens again without one, and refuses nothing else. -/
def Lawful (p : Pool AnalystState AnalysisTask) : Prop :=
  p.shared.breaches = ⟨false, false, false, false⟩

/-- Open, and its time has not passed. -/
def Waiting (s : AnalystState) : Prop :=
  s.breaker.state = .OPEN ∧ s.clock - s.breaker.lastFailureTime ≤ AICircuitBreaker.resetTimeout

instance (s : AnalystState) : Decidable (Waiting s) :=
  inferInstanceAs (Decidable (_ ∧ _))

/-- One more failed request leaves the breaker closed. -/
def Bears (s : AnalystState) : Prop :=
  s.breaker.state = .CLOSED ∧ s.breaker.failures + 1 < AICircuitBreaker.failureThreshold

instance (s : AnalystState) : Decidable (Bears s) :=
  inferInstanceAs (Decidable (_ ∧ _))

/-- No request opens the breaker beside an analysis that has been let in, or ends with an empty
answer; one that is no probe is answered, and a retry is sent, while the breaker is closed. -/
def Prompt (m : Meets) (p : Pool AnalystState AnalysisTask) : AnalysisTask → Prop
  | .asking _ probe =>
      m.request.response = none ∧ (Bears p.shared ∨ .preparing ∉ p.tasks) ∨
        answers m.request.response = true ∧ (p.shared.breaker.state = .CLOSED ∨ probe = true)
  | .sleeping _ => p.shared.breaker.state = .CLOSED
  | .preparing | .done => True

instance (m : Meets) (p : Pool AnalystState AnalysisTask) : DecidablePred (Prompt m p)
  | .asking _ _ => inferInstanceAs (Decidable (_ ∧ _ ∨ _))
  | .sleeping _ => inferInstanceAs (Decidable (_ = _))
  | .preparing | .done => isTrue trivial

/-- In an outage no analysis begins beside a probe or another analysis that has been let in,
but any number while the breaker waits; turns are prompt, and the clock of a half open breaker
does not go back. -/
def PromptStep (p : Pool AnalystState AnalysisTask) : AnalystInput → Prop
  | .analyze =>
      p.shared.breaker.state = .CLOSED ∨ Waiting p.shared ∨
        p.shared.probing = false ∧ .preparing ∉ p.tasks
  | .turn i meets => ∀ t ∈ p.tasks[i]?, Prompt meets p t
  | .tick now => p.shared.breaker.state = .HALF_OPEN → p.shared.clock ≤ now

instance (p : Pool AnalystState AnalysisTask) : DecidablePred (PromptStep p)
  | .analyze => inferInstanceAs (Decidable (_ ∨ _ ∨ _))
  | .turn i _ => inferInstanceAs (Decidable (∀ t ∈ p.tasks[i]?, _))
  | .tick _ => inferInstanceAs (Decidable (_ → _))

/-! ## Invariant -/

/-- The breaker knows the outages: it counted every failed request, and it is closed exactly
when there is none. -/
structure Agrees (s : AnalystState) : Prop where
  lawful : s.breaches = ⟨false, false, false, false⟩
  failed : s.failed = s.breaker.failures
  lastFailure : s.lastFailure = s.breaker.lastFailureTime
  outage : s.outage = true ↔ s.breaker.state ≠ .CLOSED
  probing : s.probing = true → s.outage = true

/-- The breaker is closed; or it has been left alone long enough, and no probe is out. -/
def MaySend (s : AnalystState) : Prop :=
  s.breaker.state = .CLOSED ∨
    s.probing = false ∧ s.breaker.lastFailureTime + AICircuitBreaker.resetTimeout ≤ s.clock

/-- Does its next turn send a request? -/
def AnalysisTask.Sends : AnalysisTask → Prop
  | preparing | sleeping _ => True
  | asking _ _ | done => False

/-- The breaker is half open only when its time has come, and in an outage it has let in at
most one analysis that has not sent its request yet, beside no probe. -/
structure Gated (p : Pool AnalystState AnalysisTask) : Prop where
  rested : p.shared.breaker.state = .HALF_OPEN →
    p.shared.breaker.lastFailureTime + AICircuitBreaker.resetTimeout ≤ p.shared.clock
  admitted : .preparing ∈ p.tasks → p.shared.breaker.state ≠ .CLOSED →
    p.shared.breaker.state = .HALF_OPEN ∧ p.shared.probing = false
  alone : p.shared.breaker.state ≠ .CLOSED → p.tasks.count .preparing ≤ 1

/-- A probe is out. -/
def Known (s : AnalystState) (t : AnalysisTask) : Prop :=
  t.isProbe = true → s.probing = true

/-- Not two probes at a time. -/
def Apart (t u : AnalysisTask) : Prop :=
  t.isProbe = false ∨ u.isProbe = false

theorem apart_symm (t u : AnalysisTask) (h : Apart t u) : Apart u t :=
  h.symm

/-- What may be sent is due if there is an outage. -/
theorem Agrees.due {s : AnalystState} (h : Agrees s) (hsend : MaySend s)
    (houtage : s.outage = true) : s.due = true ∧ s.probing = false := by
  rcases hsend with hclosed | ⟨hprobing, htime⟩
  · exact absurd hclosed (h.outage.mp houtage)
  · rw [← h.lastFailure] at htime
    simp [AnalystState.due, hprobing, htime]

/-- A request that may be sent leaves everything in agreement. -/
theorem send_agrees {s : AnalystState} (h : Agrees s) (hsend : MaySend s) (attempt : Nat) :
    Agrees (send s attempt).1 where
  lawful := by
    cases houtage : s.outage with
    | false => simp [send, h.lawful, houtage]
    | true => simp [send, h.lawful, (h.due hsend houtage).1]
  failed := h.failed
  lastFailure := h.lastFailure
  outage := h.outage
  probing := by
    intro hprobing
    rcases Bool.or_eq_true_iff.mp hprobing with hold | hnew
    · exact h.probing hold
    · exact hnew

/-- A failed request is counted by both, and opens the breaker if it was a probe. -/
theorem failure_agrees {s : AnalystState} (h : Agrees s) {probe : Bool}
    (hprobe : probe = true → s.probing = true) :
    Agrees (settle s (s.breaker.recordFailure s.clock) probe false) where
  lawful := by
    have hopens : probe = true → (s.breaker.recordFailure s.clock).state = .OPEN := by
      intro hp
      have hne := h.outage.mp (h.probing (hprobe hp))
      rw [AICircuitBreaker.recordFailure]
      cases hstate : s.breaker.state with
      | CLOSED => exact absurd hstate hne
      | OPEN => simp
      | HALF_OPEN => simp
    have hcloses : (s.breaker.recordFailure s.clock).state = .CLOSED →
        s.breaker.state = .CLOSED := by
      intro hclosed
      by_contra hne
      rw [AICircuitBreaker.recordFailure] at hclosed
      split at hclosed
      · cases hclosed
      · exact hne hclosed
    cases probe with
    | false => simpa [settle, h.lawful] using fun hne hclosed => hne (hcloses hclosed)
    | true => simp [settle, h.lawful, hopens]
  failed := by simp [settle, AICircuitBreaker.recordFailure, h.failed]
  lastFailure := rfl
  outage := by
    have houtage := h.outage
    have hfailed := h.failed
    simp only [settle, AICircuitBreaker.recordFailure]
    cases hstate : s.breaker.state with
    | CLOSED => simp_all
    | OPEN => simp_all
    | HALF_OPEN => simp_all
  probing := by
    intro hprobing
    have hold : s.probing = true := (Bool.and_eq_true_iff.mp hprobing).1
    simp [settle, h.probing hold]

/-- An answer closes the breaker and ends the outage, if it is one of a probe or there is no
outage. -/
theorem answer_agrees {s : AnalystState} (h : Agrees s) {probe : Bool}
    (hclosed : s.breaker.state = .CLOSED ∨ probe = true) :
    Agrees (settle s s.breaker.recordSuccess probe true) := by
  have houtage : (s.outage && !probe) = false := by
    rcases hclosed with hclosed | hprobe
    · cases houtage : s.outage with
      | false => rfl
      | true => exact absurd hclosed (h.outage.mp houtage)
    · simp [hprobe]
  refine ⟨?_, rfl, h.lastFailure, ?_, ?_⟩
  · rcases hclosed with hclosed | hprobe
    · simp [settle, h.lawful, hclosed]
    · simp [settle, h.lawful, hprobe]
  · simp [settle, houtage, AICircuitBreaker.recordSuccess]
  · intro hprobing
    rcases Bool.and_eq_true_iff.mp hprobing with ⟨hold, hnot⟩
    rw [h.probing hold, hnot] at houtage
    cases houtage

/-! ## The gate -/

/-- An analysis that the breaker has let in may send its request. -/
theorem Gated.maySend {p : Pool AnalystState AnalysisTask} (h : Gated p)
    (hmem : .preparing ∈ p.tasks) : MaySend p.shared := by
  by_cases hclosed : p.shared.breaker.state = .CLOSED
  · exact Or.inl hclosed
  · rcases h.admitted hmem hclosed with ⟨hhalf, hprobing⟩
    exact Or.inr ⟨hprobing, h.rested hhalf⟩

/-- A closed breaker lets in everybody. -/
theorem gated_of_closed {p : Pool AnalystState AnalysisTask}
    (hclosed : p.shared.breaker.state = .CLOSED) : Gated p where
  rested := by simp [hclosed]
  admitted _ hopen := absurd hclosed hopen
  alone hopen := absurd hclosed hopen

/-- Without an analysis that has been let in, only the time matters. -/
theorem gated_of_not_mem {p : Pool AnalystState AnalysisTask} (hnone : .preparing ∉ p.tasks)
    (hrested : p.shared.breaker.state = .HALF_OPEN →
      p.shared.breaker.lastFailureTime + AICircuitBreaker.resetTimeout ≤ p.shared.clock) :
    Gated p where
  rested := hrested
  admitted hmem := absurd hmem hnone
  alone _ := by simp [List.count_eq_zero_of_not_mem hnone]

/-- A task that goes on leaves the others at the gate. -/
theorem not_mem_set {tasks : List AnalysisTask} {i : Nat} {t : AnalysisTask}
    (ht : t ≠ .preparing) (hnone : .preparing ∉ tasks) : .preparing ∉ tasks.set i t := by
  intro hmem
  rcases Pool.mem_set hmem with hself | ⟨j, -, hj⟩
  · exact ht hself.symm
  · exact hnone (List.mem_of_getElem? hj)

/-- A task that ends changes nothing at the gate. -/
theorem Gated.set {p : Pool AnalystState AnalysisTask} (h : Gated p) (i : Nat)
    {t : AnalysisTask} (ht : t ≠ .preparing) : Gated ⟨p.shared, p.tasks.set i t⟩ where
  rested := h.rested
  admitted hmem := by
    refine h.admitted ?_
    by_contra hnone
    exact not_mem_set ht hnone hmem
  alone hopen := by
    refine le_trans ?_ (h.alone hopen)
    by_cases hlt : i < p.tasks.length
    · simp [List.count_set hlt, ht]
    · rw [List.set_eq_of_length_le (Nat.le_of_not_lt hlt)]

/-- The only one at the gate leaves nobody behind. -/
theorem not_mem_set_of_count_le_one {tasks : List AnalysisTask} {i : Nat} {t : AnalysisTask}
    (hi : tasks[i]? = some .preparing) (ht : t ≠ .preparing)
    (hcount : tasks.count .preparing ≤ 1) : .preparing ∉ tasks.set i t := by
  rcases List.getElem?_eq_some_iff.mp hi with ⟨hlt, hget⟩
  rw [← List.count_eq_zero, List.count_set hlt, hget]
  simp [ht]
  omega

/-- A turn leaves the gate as the breaker wants it. -/
theorem turn_gated (isShadow : Bool) {p : Pool AnalystState AnalysisTask} (h : Gated p) (i : Nat)
    (meets : Meets) (hprompt : PromptStep p (.turn i meets)) :
    Gated (p.turn (act isShadow meets) i) := by
  cases hi : p.tasks[i]? with
  | none => rwa [Pool.turn_of_none hi]
  | some t =>
      rw [Pool.turn_of_some hi]
      have ht := hprompt t hi
      cases t with
      | preparing =>
          simp only [act]
          split
          · by_cases hclosed : p.shared.breaker.state = .CLOSED
            · exact gated_of_closed hclosed
            · exact gated_of_not_mem (not_mem_set_of_count_le_one hi nofun (h.alone hclosed))
                h.rested
          · exact h.set i nofun
      | asking attempt probe =>
          simp only [act]
          rcases ht with ⟨hfailed, hgate⟩ | ⟨hanswers, -⟩
          · rw [hfailed]
            rcases hgate with ⟨hclosed, hbears⟩ | hnone
            · refine gated_of_closed ?_
              simp [hear, settle, AICircuitBreaker.recordFailure, hclosed, hbears]
            · refine gated_of_not_mem (not_mem_set ?_ hnone) fun hhalf => ?_
              · simp only [hear]
                split <;> exact nofun
              · simp only [hear, settle, AICircuitBreaker.recordFailure] at hhalf
                split at hhalf
                · cases hhalf
                · rename_i hopens
                  exact absurd (Or.inl hhalf) hopens
          · cases hresponse : meets.request.response with
            | none => simp [hresponse, answers] at hanswers
            | some text => exact gated_of_closed rfl
      | sleeping attempt => exact gated_of_closed ht
      | done => exact h.set i nofun

/-- The invariant of prompt runs. -/
structure Sound (p : Pool AnalystState AnalysisTask) : Prop
    extends Pool.Inv Agrees Known Apart p, Gated p

/-- What the tasks beside one that sends see of it. -/
theorem send_beside {s : AnalystState} (h : Agrees s) (hsend : MaySend s) (attempt : Nat)
    {u : AnalysisTask} (hu : Known s u) :
    Known (send s attempt).1 u ∧ Apart (send s attempt).2 u := by
  refine ⟨fun hprobe => ?_, ?_⟩
  · simp [send, hu hprobe]
  · cases houtage : s.outage with
    | false => exact Or.inl houtage
    | true =>
        refine Or.inr (Bool.eq_false_iff.mpr fun hprobe => ?_)
        have hprobing := (h.due hsend houtage).2
        rw [hu hprobe] at hprobing
        cases hprobing

/-- A task that sends knows of its probe. -/
theorem send_known (s : AnalystState) (attempt : Nat) :
    Known (send s attempt).1 (send s attempt).2 := by
  intro hprobe
  have houtage : s.outage = true := hprobe
  simp [send, houtage]

/-- No probe is out behind a request that has ended. -/
theorem isProbe_hear (isShadow : Bool) (s : AnalystState) (attempt : Nat) (probe : Bool)
    (response : Option (Option Text)) :
    (hear isShadow s attempt probe response).2.isProbe = false := by
  cases response with
  | none =>
      simp only [hear]
      split <;> rfl
  | some text => rfl

/-- What the tasks beside one that hears see of it. -/
theorem hear_beside (isShadow : Bool) {s : AnalystState} (attempt : Nat) {probe : Bool}
    (response : Option (Option Text)) {u : AnalysisTask} (hu : Known s u)
    (hapart : probe = false ∨ u.isProbe = false) :
    Known (hear isShadow s attempt probe response).1 u := by
  intro hprobe
  have hbeside : probe = false := by
    rcases hapart with hprobe' | hnone
    · exact hprobe'
    · rw [hprobe] at hnone
      cases hnone
  cases response with
  | none => simp [hear, settle, hu hprobe, hbeside]
  | some text => simp [hear, settle, hu hprobe, hbeside]

/-- A request that ends with text, or raises, leaves everything in agreement. -/
theorem hear_agrees (isShadow : Bool) {s : AnalystState} (h : Agrees s) (attempt : Nat)
    {probe : Bool} (hprobe : probe = true → s.probing = true) {response : Option (Option Text)}
    (hprompt : response = none ∨
      answers response = true ∧ (s.breaker.state = .CLOSED ∨ probe = true)) :
    Agrees (hear isShadow s attempt probe response).1 := by
  cases response with
  | none => exact failure_agrees h hprobe
  | some text =>
      rcases hprompt with hnone | ⟨hanswers, hclosed⟩
      · cases hnone
      · simp only [hear, hanswers]
        exact answer_agrees h hclosed

/-- A prompt turn keeps the invariant. -/
theorem turn_inv (isShadow : Bool) {p : Pool AnalystState AnalysisTask} (h : Sound p) (i : Nat)
    (meets : Meets) (hprompt : PromptStep p (.turn i meets)) :
    Sound (p.turn (act isShadow meets) i) := by
  have hsends : ∀ t, p.tasks[i]? = some t → t.Sends → MaySend p.shared := by
    intro t hi hsends
    cases t with
    | preparing => exact h.maySend (List.mem_of_getElem? hi)
    | sleeping attempt => exact Or.inl (hprompt _ hi)
    | asking _ _ | done => exact absurd hsends id
  refine ⟨h.toInv.turn apart_symm i (fun t hi => ?_) fun t hi u hu hapart => ?_,
    turn_gated isShadow h.toGated i meets hprompt⟩
  · have hknown := h.each t (List.mem_of_getElem? hi)
    have ht := hprompt t hi
    cases t with
    | preparing =>
        simp only [act]
        split
        · exact ⟨send_agrees h.shared (hsends _ hi trivial) 0, send_known _ _⟩
        · exact ⟨h.shared, nofun⟩
    | asking attempt probe =>
        refine ⟨hear_agrees isShadow h.shared attempt hknown (ht.imp_left And.left),
          fun hprobe => ?_⟩
        rw [act, isProbe_hear] at hprobe
        cases hprobe
    | sleeping attempt => exact ⟨send_agrees h.shared (hsends _ hi trivial) _, send_known _ _⟩
    | done => exact ⟨h.shared, nofun⟩
  · have hknown := h.each u hu
    have ht := hprompt t hi
    cases t with
    | preparing =>
        simp only [act]
        split
        · exact send_beside h.shared (hsends _ hi trivial) 0 hknown
        · exact ⟨hknown, Or.inl rfl⟩
    | asking attempt probe =>
        exact ⟨hear_beside isShadow attempt _ hknown hapart,
          Or.inl (isProbe_hear isShadow _ attempt probe _)⟩
    | sleeping attempt => exact send_beside h.shared (hsends _ hi trivial) _ hknown
    | done => exact ⟨hknown, Or.inl rfl⟩

/-- The breaker refuses only while it is open and its time has not passed, and stays so. -/
theorem allowRequest_eq_false {b : AICircuitBreaker} {now : ℚ}
    (h : (b.allowRequest now).1 = false) :
    (b.allowRequest now).2.state = .OPEN ∧
      b.state = .OPEN ∧ ¬ AICircuitBreaker.resetTimeout < now - b.lastFailureTime := by
  rw [AICircuitBreaker.allowRequest] at h ⊢
  cases hstate : b.state with
  | CLOSED | HALF_OPEN => simp [hstate] at h
  | OPEN =>
      by_cases htime : AICircuitBreaker.resetTimeout < now - b.lastFailureTime
      · simp [hstate, htime] at h
      · simp [hstate, htime]

/-- In an outage it lets in only when its time has passed or it is half open, and is half open
afterwards. -/
theorem allowRequest_eq_true {b : AICircuitBreaker} {now : ℚ}
    (h : (b.allowRequest now).1 = true) (hopen : b.state ≠ .CLOSED) :
    (b.allowRequest now).2.state = .HALF_OPEN ∧
      (b.state = .HALF_OPEN ∨ AICircuitBreaker.resetTimeout < now - b.lastFailureTime) := by
  rw [AICircuitBreaker.allowRequest] at h ⊢
  cases hstate : b.state with
  | CLOSED => exact absurd hstate hopen
  | HALF_OPEN => simp [hstate]
  | OPEN =>
      by_cases htime : AICircuitBreaker.resetTimeout < now - b.lastFailureTime
      · simp [htime]
      · simp [hstate, htime] at h

/-- Asking it changes nothing but that it may be half open afterwards. -/
theorem allowRequest_keeps (b : AICircuitBreaker) (now : ℚ) :
    (b.allowRequest now).2.failures = b.failures ∧
      (b.allowRequest now).2.lastFailureTime = b.lastFailureTime ∧
      ((b.allowRequest now).2.state = .CLOSED ↔ b.state = .CLOSED) := by
  rw [AICircuitBreaker.allowRequest]
  cases hstate : b.state with
  | CLOSED | HALF_OPEN => simp [hstate]
  | OPEN =>
      by_cases htime : AICircuitBreaker.resetTimeout < now - b.lastFailureTime
      · simp [htime]
      · simp [htime, hstate]

/-- The breaker may be asked at any time, and refuses only what is not due. -/
theorem asked_agrees {s : AnalystState} (h : Agrees s) : Agrees s.asked := by
  rcases allowRequest_keeps s.breaker s.clock with ⟨hfailures, hlast, hstate⟩
  refine ⟨?_, h.failed.trans hfailures.symm, h.lastFailure.trans hlast.symm,
    h.outage.trans (not_congr hstate.symm), h.probing⟩
  cases hallowed : (s.breaker.allowRequest s.clock).1 with
  | true => simp [AnalystState.asked, h.lawful, hallowed]
  | false =>
      rcases allowRequest_eq_false hallowed with ⟨-, hopen, htime⟩
      have houtage : s.outage = true := h.outage.mpr (by simp [hopen])
      have hearly : ¬ s.lastFailure + AICircuitBreaker.resetTimeout < s.clock := by
        rwa [h.lastFailure, ← lt_sub_iff_add_lt']
      simp [AnalystState.asked, h.lawful, hallowed, houtage, hearly]

/-- The breaker lets in, at the right time, only what may be at the gate. -/
theorem analyze_gated (isShadow : Bool) {p : Pool AnalystState AnalysisTask} (h : Gated p)
    (hprompt : PromptStep p .analyze) : Gated (step isShadow p .analyze) := by
  rcases allowRequest_keeps p.shared.breaker p.shared.clock with ⟨-, hlast, hstate⟩
  by_cases hclosed : p.shared.breaker.state = .CLOSED
  · exact gated_of_closed (hstate.mpr hclosed)
  simp only [step]
  cases hallowed : (p.shared.breaker.allowRequest p.shared.clock).1 with
  | false =>
      rcases allowRequest_eq_false hallowed with ⟨hafter, hopen, -⟩
      have hnone : .preparing ∉ p.tasks := by
        intro hmem
        have hhalf := (h.admitted hmem hclosed).1
        rw [hopen] at hhalf
        cases hhalf
      refine gated_of_not_mem (fun hmem => ?_) fun hhalf => ?_
      · rcases Pool.mem_spawn.mp hmem with hold | hnew
        · exact hnone hold
        · cases hnew
      · exact absurd (hafter.symm.trans hhalf) nofun
  | true =>
      rcases allowRequest_eq_true hallowed hclosed with ⟨hafter, htime⟩
      have hcalm : p.shared.probing = false ∧ .preparing ∉ p.tasks := by
        rcases hprompt with hclosed' | ⟨hopen, hearly⟩ | hcalm
        · exact absurd hclosed' hclosed
        · rcases htime with hhalf | hpassed
          · exact absurd (hopen.symm.trans hhalf) nofun
          · exact absurd hearly (not_le.mpr hpassed)
        · exact hcalm
      refine ⟨fun _ => ?_, fun _ _ => ⟨hafter, hcalm.1⟩, fun _ => ?_⟩
      · change (p.shared.breaker.allowRequest p.shared.clock).2.lastFailureTime + _ ≤ _
        rw [hlast]
        rcases htime with hhalf | hpassed
        · exact h.rested hhalf
        · exact (lt_sub_iff_add_lt'.mp hpassed).le
      · simp [Pool.spawn, List.count_eq_zero_of_not_mem hcalm.2]

/-- Every prompt step keeps the invariant. -/
theorem step_inv (isShadow : Bool) {p : Pool AnalystState AnalysisTask} (h : Sound p)
    (input : AnalystInput) (hprompt : PromptStep p input) : Sound (step isShadow p input) := by
  cases input with
  | analyze =>
      have hasked : Pool.Inv Agrees Known Apart (p.update AnalystState.asked) :=
        h.toInv.update (asked_agrees h.shared) fun t ht => h.each t ht
      refine ⟨hasked.spawn (fun hprobe => ?_) fun u hu => Or.inr ?_,
        analyze_gated isShadow h.toGated hprompt⟩
      · split at hprobe <;> cases hprobe
      · split <;> rfl
  | turn i meets => exact turn_inv isShadow h i meets hprompt
  | tick now =>
      have hshared : Agrees { p.shared with clock := now } :=
        ⟨h.shared.lawful, h.shared.failed, h.shared.lastFailure, h.shared.outage,
          h.shared.probing⟩
      have hgated : Gated (step isShadow p (.tick now)) :=
        ⟨fun hhalf => (h.rested hhalf).trans (hprompt hhalf), h.admitted, h.alone⟩
      exact ⟨⟨hshared, h.each, h.pair⟩, hgated⟩

/-- A new analyst meets the invariant. -/
theorem start_inv (clock : ℚ) : Sound (start clock) := by
  refine ⟨⟨⟨rfl, rfl, rfl, ?_, nofun⟩, fun t ht => ?_, List.Pairwise.nil⟩, gated_of_closed rfl⟩
  · simp [start]
  · simp [start] at ht

/-- In runs that bring no crowd to the breaker in an outage, and whose requests are answered with
text or not at all, the breaker follows the outages. -/
theorem prompt_lawful (isShadow : Bool) (clock : ℚ) (inputs : List AnalystInput)
    (hprompt : Admits (step isShadow) PromptStep (start clock) inputs) (n : Nat) :
    Lawful (run (step isShadow) (start clock) (inputs.take n)) := by
  have hsound : Sound (run (step isShadow) (start clock) (inputs.take n)) :=
    @invariant_run_take _ _ (step isShadow) PromptStep Sound
      (fun _ input h hcond => step_inv isShadow h input hcond) _ _ (start_inv clock) hprompt n
  exact hsound.shared.lawful

/-- Data that suffice, and a request that times out. -/
def lost : Meets := ⟨.miss, some 200, .timedOut⟩

/-- Data that suffice, and a request that is answered. -/
def answered : Meets :=
  ⟨.miss, some 200, .completed [.response 200 [⟨"ok".toList, [], []⟩]]⟩

/-- Data that suffice, and a request whose attempts all come to nothing. -/
def exhausted : Meets :=
  ⟨.miss, some 200, .completed [.response 503 [], .response 503 [], .response 503 []]⟩

/-- Two analyses begin together; one is answered, all three requests of the other are lost.
Two more are refused before a probe brings the breaker back. -/
def outageRun : List AnalystInput :=
  [.analyze, .analyze, .turn 0 lost, .turn 1 answered, .turn 1 answered, .turn 0 lost,
    .turn 0 lost, .turn 0 lost, .turn 0 lost, .turn 0 lost, .analyze, .analyze, .tick 301,
    .analyze, .turn 4 answered, .turn 4 answered]

theorem outageRun_lawful :
    (run (step false) (start 0) (outageRun.take 10)).shared.breaker.state = .OPEN ∧
      (run (step false) (start 0) (outageRun.take 15)).tasks =
        [.done, .done, .done, .done, .asking 0 true] ∧
      (run (step false) (start 0) outageRun).shared.breaker.state = .CLOSED ∧
      ∀ n, Lawful (run (step false) (start 0) (outageRun.take n)) :=
  ⟨by decide +kernel, by decide +kernel, by decide +kernel,
    prompt_lawful false 0 outageRun (by decide +kernel)⟩

/-- Three requests come to nothing, and a fourth is sent. -/
def silentOutage : List AnalystInput :=
  [.analyze, .turn 0 exhausted, .turn 0 exhausted, .analyze, .turn 1 exhausted,
    .turn 1 exhausted, .analyze, .turn 2 exhausted, .turn 2 exhausted, .analyze,
    .turn 3 exhausted]

/-- Requests that come to nothing never open the breaker. -/
theorem silentOutage_not_lawful :
    ¬ ∀ (isShadow : Bool) (clock : ℚ) (inputs : List AnalystInput) (n : Nat),
      Lawful (run (step isShadow) (start clock) (inputs.take n)) := by
  intro h
  have hlawful := h false 0 silentOutage 11
  revert hlawful
  unfold Lawful
  decide +kernel

end Outages
end Alpha
end Karsa
