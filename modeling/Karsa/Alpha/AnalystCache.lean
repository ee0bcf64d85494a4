import Karsa.Alpha.Analyst
import Karsa.Foundations.Dicts
import Karsa.Foundations.Runs
import Mathlib.Data.Rat.Floor

/-!
# AI analyst - The cache of results

`analyze` keeps each result for one window of five minutes under the symbol and the number
of the window.  The direction that was asked about and the flow data are not in the key,
although the prompt contains both and a long with squeeze flows has its confidence raised
before the result is stored.

A stored result carries the request it was made for, so that a run with the cache can be
compared with one that asks the model anew for every call.

Main results:

- Theorem `analyzeRequest_eq_analyze`: without squeeze flows the request changes nothing.
- Theorem `AnalystCache.step_sound`: every stored result is what the model said to the
  request stored with it.
- Theorem `reply_eq_recomputed`: a call whose stored result was made for its direction and
  flow data is answered as by the model.
-/

namespace Karsa
namespace Alpha

/-! ## Requests -/

/-- `flow_data` with the defaults of `analyze`. -/
structure FlowData where
  usdtInflowM : ℚ := 0
  btcOutflowCount : ℚ := 0
  liqVolumeM : ℚ := 0
  liqDominantSide : Text := "Neutral".toList
deriving Repr, DecidableEq

/-- The arguments of `analyze` that its own code looks at.  The others only reach the
prompt. -/
@[ext]
structure AnalystRequest where
  symbol : Text
  direction : Text
  flow : FlowData
deriving Repr, DecidableEq

section Analyze

variable (showFloat : ℚ → Text)

/-- A long into large inflows and liquidations. -/
def AnalystRequest.SqueezeSetup (r : AnalystRequest) : Prop :=
  (r.direction = "LONG".toList ∨ r.direction = "buy".toList) ∧
    10 ≤ r.flow.usdtInflowM ∧ 20 ≤ r.flow.liqVolumeM

instance (r : AnalystRequest) : Decidable r.SqueezeSetup :=
  inferInstanceAs (Decidable (_ ∧ _))

/-- Short squeeze confluence boost. -/
def squeezeBoost (r : AnalystRequest) (v : ModelVerdict) : ModelVerdict :=
  if r.SqueezeSetup then
    { v with
      aiConfidence := min 100 (v.aiConfidence + 20)
      reasoning := v.reasoning ++ " | Boost: +20% short squeeze setup (USDT inflow $".toList ++
        showFloat r.flow.usdtInflowM ++ "M + Liq $".toList ++ showFloat r.flow.liqVolumeM ++
        "M)".toList }
  else v

/-- What a call comes to: its reply, the breaker it leaves and the result it stores. -/
structure AnalysisOutcome where
  reply : Analysis
  breaker : AICircuitBreaker
  stored : Option ModelVerdict
deriving DecidableEq

/-- The part of `analyze` behind the cache. -/
def askModel (r : AnalystRequest) (b : AnalystAnswers) (breaker : AICircuitBreaker) :
    AnalysisOutcome :=
  match b.candles with
  | none => ⟨.raised, breaker, none⟩
  | some count =>
      if count < 50 then ⟨.unavailable, breaker, none⟩
      else
        let result := requestLoop b.attemptList "AI_REQUEST_FAILED".toList breaker
        match result.response with
        | some (.verdict v) =>
            let v := squeezeBoost showFloat r v
            ⟨.returned (.verdict v), result.breaker, some v⟩
        | some .unparsable | some .empty | none => ⟨reportOn result, result.breaker, none⟩

/-- `CryptoAnalyst.analyze` for a request, with what it stores. -/
def analyzeRequest (r : AnalystRequest) (b : AnalystAnswers) : AnalysisOutcome :=
  match b.breaker.allowRequest b.now with
  | (false, breaker) => ⟨.returned (.placeholder "AI_CIRCUIT_OPEN".toList), breaker, none⟩
  | (true, breaker) =>
      match b.cache with
      | .hit v => ⟨.returned (.verdict v), breaker, none⟩
      | .miss => askModel showFloat r b breaker

/-- The view of the model if it is asked. -/
def AnalystAnswers.verdict? (b : AnalystAnswers) : Option ModelVerdict :=
  match b.candles with
  | none => none
  | some count =>
      if count < 50 then none
      else match b.attemptList.findSome? Attempt.response? with
        | some (.verdict v) => some v
        | some .unparsable | some .empty | none => none

/-- Without squeeze flows the request plays no part. -/
theorem squeezeBoost_of_not {r : AnalystRequest} (h : ¬ r.SqueezeSetup) (v : ModelVerdict) :
    squeezeBoost showFloat r v = v :=
  if_neg h

/-- Without squeeze flows an analysis is the one that takes no request. -/
theorem analyzeRequest_eq_analyze {r : AnalystRequest} (h : ¬ r.SqueezeSetup)
    (b : AnalystAnswers) :
    ((analyzeRequest showFloat r b).reply, (analyzeRequest showFloat r b).breaker) =
      analyze b := by
  unfold analyzeRequest analyze
  rcases b.breaker.allowRequest b.now with ⟨_ | _, breaker⟩
  · rfl
  · cases b.cache with
    | hit v => rfl
    | miss =>
        dsimp only
        unfold askModel
        cases b.candles with
        | none => rfl
        | some count =>
            dsimp only
            by_cases hfew : count < 50
            · rw [if_pos hfew, if_pos hfew]
            · rw [if_neg hfew, if_neg hfew]
              unfold reportOn
              rcases (requestLoop b.attemptList "AI_REQUEST_FAILED".toList breaker).response
                with _ | _ | _ | v
              · rfl
              · rfl
              · rfl
              · simp only [squeezeBoost_of_not showFloat h]

/-! ## Asking the model -/

/-- What the retry loop brings does not depend on the breaker. -/
theorem requestLoop_lastErrorReason (attempts : List Attempt) (reason : Text)
    (breaker breaker' : AICircuitBreaker) :
    (requestLoop attempts reason breaker).lastErrorReason =
      (requestLoop attempts reason breaker').lastErrorReason := by
  induction attempts generalizing reason breaker breaker' with
  | nil => rfl
  | cons attempt rest ih =>
      cases attempt with
      | timedOut clock => exact ih _ _ _
      | failed clock => exact ih _ _ _
      | answered response => rfl

/-- Neither does the reply. -/
theorem askModel_reply_congr (r : AnalystRequest) (b : AnalystAnswers)
    (breaker breaker' : AICircuitBreaker) :
    (askModel showFloat r b breaker).reply = (askModel showFloat r b breaker').reply := by
  unfold askModel
  cases b.candles with
  | none => rfl
  | some count =>
      dsimp only
      by_cases hfew : count < 50
      · rw [if_pos hfew, if_pos hfew]
      · rw [if_neg hfew, if_neg hfew]
        have hreason := requestLoop_lastErrorReason b.attemptList "AI_REQUEST_FAILED".toList
          breaker breaker'
        unfold reportOn
        rw [requestLoop_response, requestLoop_response]
        rcases b.attemptList.findSome? Attempt.response? with _ | _ | _ | v
        · exact congrArg (fun reason => Analysis.returned (.placeholder reason)) hreason
        · exact congrArg (fun reason => Analysis.returned (.placeholder reason)) hreason
        · rfl
        · rfl

/-- A result is stored exactly when the model has a view, boosted for the request. -/
theorem askModel_stored (r : AnalystRequest) (b : AnalystAnswers) (breaker : AICircuitBreaker) :
    (askModel showFloat r b breaker).stored = b.verdict?.map (squeezeBoost showFloat r) := by
  unfold askModel AnalystAnswers.verdict?
  cases b.candles with
  | none => rfl
  | some count =>
      dsimp only
      by_cases hfew : count < 50
      · rw [if_pos hfew, if_pos hfew, Option.map_none]
      · rw [if_neg hfew, if_neg hfew, requestLoop_response]
        rcases b.attemptList.findSome? Attempt.response? with _ | _ | _ | v <;> rfl

/-- The reply is then the stored result. -/
theorem askModel_reply_of_verdict {b : AnalystAnswers} {v : ModelVerdict}
    (h : b.verdict? = some v) (r : AnalystRequest) (breaker : AICircuitBreaker) :
    (askModel showFloat r b breaker).reply =
      .returned (.verdict (squeezeBoost showFloat r v)) := by
  unfold AnalystAnswers.verdict? at h
  unfold askModel
  cases hcandles : b.candles with
  | none => simp [hcandles] at h
  | some count =>
      by_cases hfew : count < 50
      · simp [hcandles, hfew] at h
      · simp only [hcandles, hfew, if_false] at h
        dsimp only
        rw [if_neg hfew, requestLoop_response]
        rcases hresponse : b.attemptList.findSome? Attempt.response? with _ | _ | _ | w
        · rw [hresponse] at h
          cases h
        · rw [hresponse] at h
          cases h
        · rw [hresponse] at h
          cases h
        · rw [hresponse] at h
          cases h
          rfl

/-- An open breaker answers for the model. -/
theorem analyzeRequest_of_open {b : AnalystAnswers}
    (h : (b.breaker.allowRequest b.now).1 = false) (r : AnalystRequest) :
    (analyzeRequest showFloat r b).reply =
      .returned (.placeholder "AI_CIRCUIT_OPEN".toList) := by
  unfold analyzeRequest
  rcases hrequest : b.breaker.allowRequest b.now with ⟨_ | _, breaker⟩
  · rfl
  · rw [hrequest] at h
    cases h

/-- A cached result is returned as it is. -/
theorem analyzeRequest_of_hit {b : AnalystAnswers} {v : ModelVerdict}
    (h : (b.breaker.allowRequest b.now).1 = true) (hcache : b.cache = .hit v)
    (r : AnalystRequest) :
    (analyzeRequest showFloat r b).reply = .returned (.verdict v) := by
  unfold analyzeRequest
  rcases hrequest : b.breaker.allowRequest b.now with ⟨_ | _, breaker⟩
  · rw [hrequest] at h
    cases h
  · rw [hcache]

/-- Without a cached result the model is asked. -/
theorem analyzeRequest_of_miss {b : AnalystAnswers}
    (h : (b.breaker.allowRequest b.now).1 = true) (hcache : b.cache = .miss)
    (r : AnalystRequest) :
    ∃ breaker, analyzeRequest showFloat r b = askModel showFloat r b breaker := by
  unfold analyzeRequest
  rcases hrequest : b.breaker.allowRequest b.now with ⟨_ | _, breaker⟩
  · rw [hrequest] at h
    cases h
  · rw [hcache]
    exact ⟨breaker, rfl⟩

/-- Only what the model said to this request is stored. -/
theorem analyzeRequest_stored {r : AnalystRequest} {b : AnalystAnswers} {v : ModelVerdict}
    (h : (analyzeRequest showFloat r b).stored = some v) :
    ∃ w, b.verdict? = some w ∧ v = squeezeBoost showFloat r w := by
  unfold analyzeRequest at h
  rcases hrequest : b.breaker.allowRequest b.now with ⟨_ | _, breaker⟩
  · simp [hrequest] at h
  · rw [hrequest] at h
    cases hcache : b.cache with
    | hit w => simp [hcache] at h
    | miss =>
        simp only [hcache] at h
        rw [askModel_stored] at h
        rcases Option.map_eq_some_iff.mp h with ⟨w, hverdict, hboost⟩
        exact ⟨w, hverdict, hboost.symm⟩

end Analyze

/-! ## Calls -/

/-- One call of `analyze`: which analyst is asked, and what the call meets.  `candles` and
`attempts` are what it would meet behind the cache. -/
structure AnalystCall where
  analyst : Nat
  isShadow : Bool
  request : AnalystRequest
  now : ℚ
  cacheRead : Bool
  cacheWrite : Bool
  candles : Option Nat
  attempts : Nat → Attempt

namespace AnalystCall

/-- `cache_key`: the symbol and the number of the window. -/
def key (c : AnalystCall) : Text × ℤ :=
  (c.request.symbol, ⌊c.now⌋ / 300)

/-- What the call meets, with a breaker and a cached result. -/
def answers (c : AnalystCall) (breaker : AICircuitBreaker) (cache : CacheRead) :
    AnalystAnswers where
  isShadow := c.isShadow
  breaker := breaker
  now := c.now
  cache := cache
  candles := c.candles
  attempts := c.attempts

/-- What the model would say to this call. -/
def verdict? (c : AnalystCall) : Option ModelVerdict :=
  (c.answers ⟨0, .CLOSED, 0⟩ .miss).verdict?

end AnalystCall

/-- A stored result with the request it was made for. -/
structure CachedResult where
  request : AnalystRequest
  result : ModelVerdict
deriving Repr, DecidableEq

/-- The analysts and the cache they share.  A result lives for 300 seconds, which is past
the end of its window. -/
structure AnalystCache where
  breakers : Nat → AICircuitBreaker
  results : Dict (Text × ℤ) CachedResult

namespace AnalystCache

variable (showFloat : ℚ → Text)

/-- The read of the cache. -/
def lookup (s : AnalystCache) (c : AnalystCall) : Option CachedResult :=
  if c.cacheRead then s.results.get c.key else none

/-- The call is let through by its breaker. -/
def allows (s : AnalystCache) (c : AnalystCall) : Bool :=
  ((s.breakers c.analyst).allowRequest c.now).1

/-- The stored result that answers the call. -/
def served (s : AnalystCache) (c : AnalystCall) : Option CachedResult :=
  if s.allows c then s.lookup c else none

/-- The cached result as the call meets it. -/
def cacheRead (s : AnalystCache) (c : AnalystCall) : CacheRead :=
  match s.lookup c with
  | some e => .hit e.result
  | none => .miss

/-- A call answered with the cache. -/
def analyze (s : AnalystCache) (c : AnalystCall) : AnalysisOutcome :=
  analyzeRequest showFloat c.request (c.answers (s.breakers c.analyst) (s.cacheRead c))

/-- A call with its effect on the breaker and the cache. -/
def step (s : AnalystCache) (c : AnalystCall) : AnalystCache where
  breakers := Function.update s.breakers c.analyst (s.analyze showFloat c).breaker
  results :=
    match (s.analyze showFloat c).stored with
    | none => s.results
    | some v => if c.cacheWrite then s.results.set c.key ⟨c.request, v⟩ else s.results

end AnalystCache

/-! ## Runs with and without the cache -/

/-- A run with the cache beside a run of the same calls in which the cache always misses. -/
structure TwoRuns where
  cached : AnalystCache
  recomputing : AnalystCache

section Runs

variable (showFloat : ℚ → Text)

/-- A call that asks the model whatever is stored. -/
def AnalystCache.recompute (s : AnalystCache) (c : AnalystCall) : AnalysisOutcome :=
  s.analyze showFloat { c with cacheRead := false }

namespace TwoRuns

/-- One call in both runs. -/
def step (s : TwoRuns) (c : AnalystCall) : TwoRuns where
  cached := s.cached.step showFloat c
  recomputing := s.recomputing.step showFloat { c with cacheRead := false }

/-- The stored result that answers the call was made for its direction and flow data, and
the breakers of the two runs agree on letting the call through. -/
def Repeats (s : TwoRuns) (c : AnalystCall) : Prop :=
  (∀ e ∈ s.cached.served c,
      e.request.direction = c.request.direction ∧ e.request.flow = c.request.flow) ∧
    s.cached.allows c = s.recomputing.allows c

instance (s : TwoRuns) : DecidablePred s.Repeats := fun _ =>
  inferInstanceAs (Decidable (_ ∧ _))

end TwoRuns

/-- Within a window the model says the same to calls with the same symbol, direction and
flow data. -/
def SameAnswers (calls : List AnalystCall) : Prop :=
  ∀ c ∈ calls, ∀ d ∈ calls, c.key = d.key → c.request = d.request → c.verdict? = d.verdict?

instance (calls : List AnalystCall) : Decidable (SameAnswers calls) :=
  inferInstanceAs (Decidable (∀ c ∈ calls, ∀ d ∈ calls, _ → _ → _))

/-- Every stored result is what the model said to a call that asked the request stored with
it. -/
def AnalystCache.Sound (calls : List AnalystCall) (s : AnalystCache) : Prop :=
  ∀ key e, s.results.get key = some e →
    ∃ d ∈ calls, d.key = key ∧ d.request = e.request ∧
      ∃ v, d.verdict? = some v ∧ e.result = squeezeBoost showFloat d.request v

variable {showFloat} {calls : List AnalystCall}

/-- A call keeps the stored results sound. -/
theorem AnalystCache.step_sound {s : AnalystCache} {c : AnalystCall}
    (hsound : s.Sound showFloat calls) (hc : c ∈ calls) :
    (s.step showFloat c).Sound showFloat calls := by
  intro key e hget
  unfold step at hget
  dsimp only at hget
  cases hstored : (s.analyze showFloat c).stored with
  | none =>
      rw [hstored] at hget
      exact hsound key e hget
  | some v =>
      rw [hstored] at hget
      dsimp only at hget
      by_cases hwrite : c.cacheWrite = true
      · rw [if_pos hwrite] at hget
        by_cases hkey : key = c.key
        · rw [hkey, Dict.get_set_self] at hget
          cases hget
          rcases analyzeRequest_stored showFloat hstored with ⟨w, hverdict, hboost⟩
          exact ⟨c, hc, hkey.symm, rfl, w, hverdict, hboost⟩
        · rw [Dict.get_set_of_ne hkey] at hget
          exact hsound key e hget
      · rw [if_neg hwrite] at hget
        exact hsound key e hget

/-- A served result was stored under the key of the call. -/
theorem AnalystCache.served_eq_some {s : AnalystCache} {c : AnalystCall} {e : CachedResult}
    (h : s.served c = some e) :
    s.allows c = true ∧ s.lookup c = some e ∧ s.results.get c.key = some e := by
  unfold served at h
  by_cases hallows : s.allows c = true
  · rw [if_pos hallows] at h
    refine ⟨hallows, h, ?_⟩
    unfold lookup at h
    by_cases hread : c.cacheRead = true
    · rwa [if_pos hread] at h
    · rw [if_neg hread] at h
      cases h
  · rw [if_neg hallows] at h
    cases h

/-- Asked anew, the model answers every call that is let through. -/
theorem AnalystCache.recompute_reply {s : AnalystCache} {c : AnalystCall}
    (hallows : s.allows c = true) (breaker : AICircuitBreaker) :
    (s.recompute showFloat c).reply =
      (askModel showFloat c.request (c.answers ⟨0, .CLOSED, 0⟩ .miss) breaker).reply := by
  have hmiss : s.cacheRead { c with cacheRead := false } = .miss := by
    unfold cacheRead lookup
    simp
  rcases analyzeRequest_of_miss showFloat (b := ({ c with cacheRead := false } :
      AnalystCall).answers (s.breakers c.analyst) (s.cacheRead { c with cacheRead := false }))
    hallows hmiss c.request with ⟨breaker', hask⟩
  have hreply : (s.recompute showFloat c).reply =
      (askModel showFloat c.request (({ c with cacheRead := false } : AnalystCall).answers
        (s.breakers c.analyst) (s.cacheRead { c with cacheRead := false })) breaker').reply :=
    congrArg AnalysisOutcome.reply hask
  rw [hreply]
  exact askModel_reply_congr showFloat c.request _ breaker' breaker

/-- An open breaker answers for cache and model. -/
theorem AnalystCache.analyze_of_not_allows {s : AnalystCache} {c : AnalystCall}
    (h : s.allows c = false) :
    (s.analyze showFloat c).reply = .returned (.placeholder "AI_CIRCUIT_OPEN".toList) := by
  unfold analyze
  apply analyzeRequest_of_open
  exact h

/-- A miss is answered as by a run without the cache, a hit with the stored result. -/
theorem AnalystCache.analyze_reply {s s' : AnalystCache} {c : AnalystCall}
    (hallows : s.allows c = s'.allows c) :
    (s.analyze showFloat c).reply =
      match s.served c with
      | some e => .returned (.verdict e.result)
      | none => (s'.recompute showFloat c).reply := by
  cases hopen : s.allows c with
  | false =>
      have hserved : s.served c = none := by
        unfold served
        simp [hopen]
      have hopen' : s'.allows { c with cacheRead := false } = false :=
        hallows.symm.trans hopen
      rw [hserved, analyze_of_not_allows hopen]
      exact (analyze_of_not_allows hopen').symm
  | true =>
      have hserved : s.served c = s.lookup c := if_pos hopen
      rw [hserved]
      cases hlookup : s.lookup c with
      | some e =>
          have hhit : s.cacheRead c = .hit e.result := by
            unfold cacheRead
            rw [hlookup]
          unfold analyze
          apply analyzeRequest_of_hit showFloat _ hhit
          exact hopen
      | none =>
          have hmiss : s.cacheRead c = .miss := by
            unfold cacheRead
            rw [hlookup]
          have hopen' : s'.allows c = true := hallows ▸ hopen
          rcases analyzeRequest_of_miss showFloat (b := c.answers (s.breakers c.analyst)
            (s.cacheRead c)) hopen hmiss c.request with ⟨breaker, hask⟩
          dsimp only
          rw [recompute_reply hopen' breaker]
          exact congrArg AnalysisOutcome.reply hask

/-- A call whose stored result was made for its direction and flow data is answered as
without the cache. -/
theorem reply_eq_recomputed {s : TwoRuns} {c : AnalystCall} (hsame : SameAnswers calls)
    (hsound : s.cached.Sound showFloat calls) (hc : c ∈ calls) (hrepeats : s.Repeats c) :
    (∀ e ∈ s.cached.served c, e.request = c.request) ∧
      (s.cached.analyze showFloat c).reply = (s.recomputing.recompute showFloat c).reply := by
  rw [AnalystCache.analyze_reply hrepeats.2]
  cases hserved : s.cached.served c with
  | none => exact ⟨fun e he => (Option.not_mem_none e he).elim, rfl⟩
  | some e =>
      rcases AnalystCache.served_eq_some hserved with ⟨hallows, -, hget⟩
      rcases hsound c.key e hget with ⟨d, hd, hkey, hrequest, v, hverdict, hresult⟩
      have hflow := hrepeats.1 e hserved
      have hsymbol : e.request.symbol = c.request.symbol := by
        rw [← hrequest]
        exact congrArg Prod.fst hkey
      have hequal : e.request = c.request := by
        exact AnalystRequest.ext hsymbol hflow.1 hflow.2
      refine ⟨fun e' he' => by cases he'; exact hequal, ?_⟩
      have hask : c.verdict? = some v := by
        rw [hsame c hc d hd hkey.symm (hequal.symm.trans hrequest.symm), hverdict]
      have hopen : s.recomputing.allows c = true := hrepeats.2 ▸ hallows
      dsimp only
      rw [AnalystCache.recompute_reply hopen ⟨0, .CLOSED, 0⟩,
        askModel_reply_of_verdict showFloat hask, hresult, hrequest, hequal]

end Runs

end Alpha
end Karsa
