import Karsa.Alpha.AnalystCache
import Karsa.Consumer.Admission

/-!
# Live loop - The analyst gate

The handler calls its analyst gate mandatory and fail-closed.  A missing report ends the
handler; every other report lets the signal go on with a changed score, and the test that
is supposed to read that score stands in `DecisionEngine.evaluate`, which the signal has
already passed.

Main results:

- Theorem `analystGate_failsClosed_iff`: when a signal reaches the executor only on a
  view of the model that supports it.
- Theorem `cachedViews_transparent`: the runs in which the cache of the analyst changes no
  decision of the gate.
-/

namespace Karsa
namespace Live

open Alpha Bybit Router

/-- The handler's answer for an analysis. -/
def analystAnswer : Analysis → Except Text (Option AnalystResult)
  | .raised => .error []
  | .unavailable => .ok none
  | .returned report => .ok (some ⟨report.direction, report.aiConfidence⟩)

/-- The services of the handler with a configured analyst. -/
def SignalAnswers.withAnalyst (a : SignalAnswers) (b : AnalystAnswers) : SignalAnswers :=
  { a with analyst := some (analystAnswer (analyze b).1) }

/-- `effective_gate` of `DecisionEngine.evaluate`: the threshold that the score of an
emitted signal has met, lowered for a dip-buy candidate. -/
def effectiveGate (baseGate volFactor : ℚ) (dipBuy : Bool) : ℚ :=
  if dipBuy then baseGate * volFactor * (9 / 10) else baseGate * volFactor

/-- The view shares the signal's direction, or its penalty leaves the score at the
threshold. -/
def Supports (signal : TradeSignal) (gate : ℚ) (v : ModelVerdict) : Prop :=
  v.direction = signal.direction ∨
    gate ≤ adjustedScore signal ⟨v.direction, v.aiConfidence⟩ signal.score

/-- The executor is reached only on a view of the model that supports the signal. -/
def FailsClosed (symbol : Text) (signal : TradeSignal) (gate : ℚ) (a : SignalAnswers)
    (b : AnalystAnswers) (store : PositionStore) : Prop :=
  Reached symbol signal (a.withAnalyst b)
      (onSignalLive symbol signal (a.withAnalyst b) store).state →
    ∃ v, (analyze b).1 = .returned (.verdict v) ∧ Supports signal gate v

/-- The gate's decision on an analysis: the score the signal goes on with. -/
def gateDecision (signal : TradeSignal) (analysis : Analysis) : Option ℚ :=
  match analystAnswer analysis with
  | .error _ | .ok none => none
  | .ok (some verdict) => some (adjustedScore signal verdict signal.score)

/-- The handler decides so on what `analyze` returns. -/
theorem analystScore_withAnalyst (signal : TradeSignal) (a : SignalAnswers)
    (b : AnalystAnswers) :
    analystScore signal (a.withAnalyst b) signal.score = gateDecision signal (analyze b).1 := by
  unfold analystScore SignalAnswers.withAnalyst gateDecision
  rcases analystAnswer (analyze b).1 with _ | _ | verdict <;> rfl

/-- The analyst ends the handler unless it returns a report. -/
theorem exists_report_of_admitted {symbol : Text} {signal : TradeSignal} {a : SignalAnswers}
    {b : AnalystAnswers} {store : PositionStore}
    (h : Admitted symbol signal (a.withAnalyst b) store) :
    ∃ report, (analyze b).1 = .returned report := by
  have hrisk := h.risk
  rw [analystScore_withAnalyst] at hrisk
  cases hanalysis : (analyze b).1 with
  | raised =>
      rw [hanalysis] at hrisk
      cases hrisk
  | unavailable =>
      rw [hanalysis] at hrisk
      cases hrisk
  | returned report => exact ⟨report, rfl⟩

/-- The gate fails closed exactly when every admitted signal meets a model that is in
reach and whose view supports it. -/
theorem analystGate_failsClosed_iff (symbol : Text) (signal : TradeSignal)
    (baseGate volFactor : ℚ) (dipBuy : Bool) (a : SignalAnswers) (b : AnalystAnswers)
    (store : PositionStore) :
    FailsClosed symbol signal (effectiveGate baseGate volFactor dipBuy) a b store ↔
      (Admitted symbol signal (a.withAnalyst b) store →
        ¬ Outage b ∧
          ∀ v, View b v → Supports signal (effectiveGate baseGate volFactor dipBuy) v) := by
  unfold FailsClosed
  rw [reached_iff_admitted]
  constructor
  · intro h hadmitted
    rcases h hadmitted with ⟨v, hverdict, hsupports⟩
    constructor
    · intro houtage
      rcases (analyze_eq_placeholder_iff b).mpr houtage with ⟨reason, hplaceholder⟩
      rw [hverdict] at hplaceholder
      cases hplaceholder
    · intro w hview
      have hreturned := (analyze_eq_verdict_iff b w).mpr hview
      rw [hverdict] at hreturned
      cases hreturned
      exact hsupports
  · intro h hadmitted
    rcases h hadmitted with ⟨hreach, hviews⟩
    rcases exists_report_of_admitted hadmitted with ⟨report, hreport⟩
    cases report with
    | placeholder reason =>
        exact (hreach ((analyze_eq_placeholder_iff b).mp ⟨reason, hreport⟩)).elim
    | verdict v => exact ⟨v, hreport, hviews v ((analyze_eq_verdict_iff b v).mp hreport)⟩

/-- An analyst whose breaker has just opened. -/
def openBreaker : AnalystAnswers where
  isShadow := false
  breaker := { failures := 3, state := .OPEN, lastFailureTime := 0 }
  now := 10
  cache := .miss
  candles := some 200
  attempts := fun _ => .failed 0

/-- During an outage a signal whose score was exactly at the threshold is executed with
a lower one. -/
theorem analystGate_passes_outage :
    ¬ FailsClosed "BTC/USDT".toList longSignal (effectiveGate 80 1 false)
      (filledAnswers .absent) openBreaker ∅ := by
  intro h
  have hreached : Reached "BTC/USDT".toList longSignal
      ((filledAnswers .absent).withAnalyst openBreaker)
      (onSignalLive "BTC/USDT".toList longSignal
        ((filledAnswers .absent).withAnalyst openBreaker) ∅).state := by
    decide +kernel
  rcases h hreached with ⟨v, hverdict, -⟩
  have hplaceholder : (analyze openBreaker).1 =
      .returned (.placeholder "AI_CIRCUIT_OPEN".toList) := by
    decide +kernel
  rw [hplaceholder] at hverdict
  cases hverdict

/-! ## Cached views -/

section CachedViews

variable (showFloat : ℚ → Text)

/-- The cache is transparent for the call: a stored result that answers it was made for its
symbol, direction and flow data, and the gate decides as on a fresh analysis. -/
def Transparent (s : TwoRuns) (c : AnalystCall) : Prop :=
  (∀ e ∈ s.cached.served c, e.request = c.request) ∧
    ∀ signal : TradeSignal, signal.direction = c.request.direction →
      gateDecision signal (s.cached.analyze showFloat c).reply =
        gateDecision signal (s.recomputing.recompute showFloat c).reply

/-- The cache is transparent in every run in which each call that it answers repeats the
direction and the flow data of the call that stored the result. -/
theorem cachedViews_transparent (calls : List AnalystCall) (s : TwoRuns)
    (hempty : s.cached.results = []) (hsame : SameAnswers calls)
    (hadmits : Admits (TwoRuns.step showFloat) TwoRuns.Repeats s calls) :
    Admits (TwoRuns.step showFloat) (Transparent showFloat) s calls := by
  have hcond : Admits (TwoRuns.step showFloat) (fun s c => c ∈ calls ∧ s.Repeats c) s calls :=
    hadmits.and_forall fun c hc => hc
  have hinit : s.cached.Sound showFloat calls := by
    intro key e hget
    rw [hempty] at hget
    cases hget
  have hstep : ∀ (s : TwoRuns) (c : AnalystCall), s.cached.Sound showFloat calls →
      c ∈ calls ∧ s.Repeats c → (s.step showFloat c).cached.Sound showFloat calls := by
    intro s c hsound hc
    exact AnalystCache.step_sound hsound hc.1
  have htransparent : ∀ (s : TwoRuns) (c : AnalystCall), s.cached.Sound showFloat calls →
      c ∈ calls ∧ s.Repeats c → Transparent showFloat s c := by
    intro s c hsound hc
    rcases reply_eq_recomputed hsame hsound hc.1 hc.2 with ⟨hrequest, hreply⟩
    refine ⟨hrequest, ?_⟩
    intro signal hdirection
    rw [hreply]
  exact Admits.of_invariant hstep htransparent hinit hcond

/-- A call for `BTC/USDT` that the model answers at once. -/
def btcCall (direction : String) (flow : FlowData) (now : ℚ) (v : ModelVerdict) :
    AnalystCall where
  analyst := 0
  isShadow := false
  request := ⟨"BTC/USDT".toList, direction.toList, flow⟩
  now := now
  cacheRead := true
  cacheWrite := true
  candles := some 200
  attempts := fun _ => .answered (.verdict v)

/-- Large inflows and liquidations. -/
def squeezeFlow : FlowData where
  usdtInflowM := 12
  liqVolumeM := 25

/-- The analysts at the start of a window. -/
def windowStart : TwoRuns where
  cached := ⟨fun _ => ⟨0, .CLOSED, 0⟩, []⟩
  recomputing := ⟨fun _ => ⟨0, .CLOSED, 0⟩, []⟩

theorem cachedViews_transparent_repeated :
    let v : ModelVerdict := ⟨"LONG".toList, 70, [], []⟩
    let calls := [btcCall "LONG" squeezeFlow 10 v, btcCall "LONG" squeezeFlow 20 v]
    Admits (TwoRuns.step fun _ => []) (Transparent fun _ => []) windowStart calls :=
  cachedViews_transparent _ _ _ rfl (by decide +kernel) (by decide +kernel)

/-- The boosted result of a long answers a short ten seconds later. -/
theorem cachedViews_serve_other_direction :
    let calls := [btcCall "LONG" squeezeFlow 10 ⟨"LONG".toList, 70, [], []⟩,
      btcCall "SHORT" {} 20 ⟨"SHORT".toList, 80, [], []⟩]
    SameAnswers calls ∧
      ¬ Admits (TwoRuns.step fun _ => []) (Transparent fun _ => []) windowStart calls := by
  constructor
  · decide +kernel
  · rintro ⟨-, hshort, -⟩
    have hrequest := hshort.1 ⟨⟨"BTC/USDT".toList, "LONG".toList, squeezeFlow⟩,
      ⟨"LONG".toList, 90, " | Boost: +20% short squeeze setup (USDT inflow $M + Liq $M)".toList,
        []⟩⟩ (by decide +kernel)
    revert hrequest
    decide +kernel

end CachedViews

end Live
end Karsa
