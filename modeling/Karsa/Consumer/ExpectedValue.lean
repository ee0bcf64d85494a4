import Karsa.Consumer.Rejections
import Karsa.Risk.PortfolioAllocator

/-!
# Decision engine - Expected values

A signal's expected value should weigh what it gains at its target against what it loses at
its stop, as shares of the entry price.  The call returns the signal of highest expected value
and the allocator keeps only positive ones, so a signal with an edge should survive.  The
division of a float by a `Decimal` raises instead, and every expected value is zero.

Main results:

- Theorem `edge_eq_zero_iff`: the signals without an edge.
- Theorem `evaluateDirections_best`: the signal kept is the best of those built.
- Theorem `evaluate_valued_iff`: the calls whose signals have the expected values they should.
-/

namespace Karsa
namespace Decision

open Live (MarketRegime)
open MarketFeed (Candle)
open Shadow (RiskProfile)
open Risk

/-! ## Edges -/

namespace TradeSignal

/-- `risk_dist`. -/
def riskDist (s : TradeSignal) : ℚ :=
  if s.slPrice ≠ 0 then |s.entryPrice - s.slPrice| else s.atr

/-- `reward_dist`. -/
def rewardDist (s : TradeSignal) : ℚ :=
  match s.tpPrice with
  | some tp => |tp - s.entryPrice|
  | none => s.atr * 2

/-- What the expected value of a signal should be. -/
def edge (s : TradeSignal) : ℚ :=
  winProbability s.score * (s.rewardDist / s.entryPrice) -
    (1 - winProbability s.score) * (s.riskDist / s.entryPrice)

end TradeSignal

/-- The distance to the target, in average true ranges. -/
def rewardMultiple (profile : RiskProfile) : ℚ :=
  if profile.takeProfitType = "TRAILING".toList then 2 else |profile.trailAtrMult|

/-- The distance to a stop at some price, in average true ranges. -/
def riskMultiple (profile : RiskProfile) (sl : ℚ) : ℚ :=
  if sl ≠ 0 then |profile.slAtrBuffer| else 1

namespace DecisionEngine

/-- Gain and loss balance: the candles do not move, or the score is the one at which the
multiples of the profile break even. -/
def Balanced (e : DecisionEngine) (direction : Side) (regime : MarketRegime) (score : ℚ)
    (candles : List Candle) : Prop :=
  let profile := e.riskGate.getProfile regime
  let atr := TrueRange.decisionAtr TrueRange.atrPeriod candles
  let sl := slPrice (e.entryPrice (lastClose candles) direction) direction atr profile.slAtrBuffer
  atr = 0 ∨ winProbability score * rewardMultiple profile =
    (1 - winProbability score) * riskMultiple profile sl

instance (e : DecisionEngine) (direction : Side) (regime : MarketRegime) (score : ℚ)
    (candles : List Candle) : Decidable (e.Balanced direction regime score candles) :=
  inferInstanceAs (Decidable (_ ∨ _))

variable {e : DecisionEngine} {symbol : Text} {direction : Side} {regime : MarketRegime}
  {score : ℚ} {candles : List Candle} {session : ℚ} {a : SizingAnswers} {s : TradeSignal}

/-- The target of a signal is some average true ranges away. -/
theorem rewardDist_eq
    (h : e.buildSignal symbol direction regime score candles session a = some s) :
    s.rewardDist = TrueRange.decisionAtr TrueRange.atrPeriod candles *
      rewardMultiple (e.riskGate.getProfile regime) := by
  have hatr := TrueRange.decisionAtr_nonneg TrueRange.atrPeriod candles
  rcases Option.map_eq_some_iff.1 h with ⟨amount, -, rfl⟩
  unfold TradeSignal.rewardDist tpPrice rewardMultiple
  dsimp only
  split_ifs with htrailing
  · rfl
  · cases direction with
    | LONG =>
        dsimp only
        rw [add_sub_cancel_left, abs_mul, abs_of_nonneg hatr]
    | SHORT =>
        dsimp only
        rw [sub_sub_cancel_left, abs_neg, abs_mul, abs_of_nonneg hatr]

/-- So is its stop. -/
theorem riskDist_eq
    (h : e.buildSignal symbol direction regime score candles session a = some s) :
    s.riskDist = TrueRange.decisionAtr TrueRange.atrPeriod candles *
      riskMultiple (e.riskGate.getProfile regime) s.slPrice := by
  have hatr := TrueRange.decisionAtr_nonneg TrueRange.atrPeriod candles
  rcases Option.map_eq_some_iff.1 h with ⟨amount, -, rfl⟩
  unfold TradeSignal.riskDist riskMultiple
  dsimp only
  split_ifs with hstop
  · rw [abs_entry_sub_sl, abs_mul, abs_of_nonneg hatr]
  · rw [mul_one]

/-- A signal has no edge exactly where gain and loss balance. -/
theorem edge_eq_zero_iff (hclose : 0 < lastClose candles)
    (h : e.buildSignal symbol direction regime score candles session a = some s) :
    s.edge = 0 ↔ e.Balanced direction regime score candles := by
  have hreward := rewardDist_eq h
  have hrisk := riskDist_eq h
  have hentry := (entryPrice_pos (e := e) hclose direction).ne'
  unfold TradeSignal.edge Balanced
  rw [hreward, hrisk]
  rcases Option.map_eq_some_iff.1 h with ⟨amount, -, rfl⟩
  dsimp only
  rw [← mul_div_assoc, ← mul_div_assoc, ← sub_div, div_eq_zero_iff, or_iff_left hentry,
    mul_left_comm, mul_left_comm (1 - _), ← mul_sub, mul_eq_zero, sub_eq_zero]

/-- Its expected value is its edge there, and nowhere else. -/
theorem expectedValue_eq_edge_iff (hclose : 0 < lastClose candles)
    (h : e.buildSignal symbol direction regime score candles session a = some s) :
    s.expectedValue = s.edge ↔ e.Balanced direction regime score candles := by
  have hzero : s.expectedValue = 0 := by
    rcases Option.map_eq_some_iff.1 h with ⟨amount, -, rfl⟩
    exact expectedValue_eq_zero _ _ _ _ _
  rw [hzero, eq_comm, edge_eq_zero_iff hclose h]

end DecisionEngine

/-! ## What a call should value -/

/-- The expected values are the edges, the signal returned has the highest one, and a signal
with an edge has a positive value and stays with the allocator. -/
structure Evaluation.Valued (result : Evaluation) : Prop where
  formula : ∀ s ∈ result.built, s.expectedValue = s.edge
  best : ∀ s, result.outcome = .returned (some s) →
    s ∈ result.built ∧ ∀ t ∈ result.built, t.expectedValue ≤ s.expectedValue
  survives : ∀ s ∈ result.built, 0 < s.edge →
    0 < s.expectedValue ∧ ∀ signals, s ∈ signals → s ∈ positiveEv signals

namespace DecisionEngine

variable (e : DecisionEngine) (x : Call) (regime : MarketRegime)

/-- If the direction gets a signal, it breaks even. -/
def BreaksEven (direction : Side) (s : Locals) : Prop :=
  e.Safe x regime direction s → e.Passes x s.sectorReturns direction →
    e.Balanced direction regime (e.finalScore x s.sectorReturns direction) x.candles

/-- Every direction that gets a signal breaks even. -/
def AllBreakEven : Prop :=
  e.rejectedEarly x = true ∨
    Flow.Met (e.evaluateDirection x (settledRegime x)) (e.BreaksEven x (settledRegime x))
      (determineDirections (settledRegime x)) (e.startLocals x)

/-- How many of the signals built have a wrong expected value. -/
def misvalued (s : Locals) : ℕ :=
  s.built.countP fun t => decide (t.expectedValue ≠ t.edge)

variable {e x regime}

/-! ## One direction -/

/-- A direction adds its signal and keeps the better one, or leaves both alone. -/
theorem evaluateDirection_built (e : DecisionEngine) (x : Call) (regime : MarketRegime)
    (direction : Side) (s : Locals) :
    (∃ signal, e.Safe x regime direction s ∧ e.Passes x s.sectorReturns direction ∧
        e.signalOf x regime s.sectorReturns direction = some signal ∧
        (e.evaluateDirection x regime direction s).state.built = s.built ++ [signal] ∧
        (e.evaluateDirection x regime direction s).state.best = better s.best signal) ∨
      (¬ (e.Safe x regime direction s ∧ e.Passes x s.sectorReturns direction) ∧
        (e.evaluateDirection x regime direction s).state.built = s.built ∧
        (e.evaluateDirection x regime direction s).state.best = s.best) := by
  have hraises := @evaluateDirection_raises_iff e x regime direction s
  rcases @evaluateDirection_cases e x regime direction s with
    ⟨hlog, heq⟩ | ⟨hlog, hreaches, heq⟩ | ⟨hlog, hreaches, score, heq⟩
  · rw [heq] at hraises ⊢
    exact Or.inr ⟨fun h => hraises.1 trivial h.1, rfl, rfl⟩
  · cases hlosses : consecutiveLosses x.recentTrades with
    | true =>
        rw [heq, if_pos hlosses]
        refine Or.inr ⟨fun h => ?_, rfl, rfl⟩
        have hno := h.2.2
        rw [hlosses] at hno
        cases hno
    | false =>
        rw [hlosses, if_neg Bool.false_ne_true] at heq
        rw [heq] at hraises ⊢
        cases hsignal : e.signalOf x regime s.sectorReturns direction with
        | none =>
            rw [hsignal] at hraises
            exact Or.inr ⟨fun h => hraises.1 trivial h.1, rfl, rfl⟩
        | some signal =>
            rw [hsignal] at hraises
            exact Or.inl ⟨signal, not_not.1 (mt hraises.2 id), ⟨hreaches, hlosses⟩, rfl, rfl, rfl⟩
  · rw [heq]
    exact Or.inr ⟨fun h => hreaches h.2.1, rfl, rfl⟩

/-- No direction takes a wrong value back. -/
theorem misvalued_le (direction : Side) (s : Locals) :
    misvalued s ≤ misvalued (e.evaluateDirection x regime direction s).state := by
  unfold misvalued
  rcases evaluateDirection_built e x regime direction s with
    ⟨signal, _, _, _, hbuilt, _⟩ | ⟨_, hbuilt, _⟩
  · rw [hbuilt, List.countP_append]
    exact Nat.le_add_right _ _
  · rw [hbuilt]

/-- It adds none exactly where it breaks even. -/
theorem misvalued_eq_iff (hclose : 0 < lastClose x.candles) (direction : Side) (s : Locals) :
    misvalued (e.evaluateDirection x regime direction s).state = misvalued s ↔
      e.BreaksEven x regime direction s := by
  unfold misvalued BreaksEven
  rcases evaluateDirection_built e x regime direction s with
    ⟨signal, hsafe, hpasses, hsignal, hbuilt, _⟩ | ⟨hnone, hbuilt, _⟩
  · have hvalue := expectedValue_eq_edge_iff hclose hsignal
    rw [hbuilt, List.countP_append, List.countP_singleton, ← hvalue]
    by_cases heq : signal.expectedValue = signal.edge
    · simp [heq]
    · simp [heq, hsafe, hpasses]
  · rw [hbuilt]
    exact iff_of_true rfl fun hsafe hpasses => absurd ⟨hsafe, hpasses⟩ hnone

/-! ## A whole call -/

/-- The signal kept is the best of those built. -/
theorem evaluateDirections_best (e : DecisionEngine) (x : Call) :
    (e.evaluateDirections x).state.best =
      (e.evaluateDirections x).state.built.foldl better none := by
  let inv := fun s : Locals => s.best = s.built.foldl better none
  have hstep : ∀ block ∈ (determineDirections (settledRegime x)).map
      (e.evaluateDirection x (settledRegime x)), Flow.Spec inv block inv inv := by
    intro block hblock s hs
    rcases List.mem_map.1 hblock with ⟨direction, -, rfl⟩
    have hstate : inv (e.evaluateDirection x (settledRegime x) direction s).state := by
      rcases evaluateDirection_built e x (settledRegime x) direction s with
        ⟨signal, _, _, _, hbuilt, hbest⟩ | ⟨_, hbuilt, hbest⟩
      · show _ = _
        rw [hbuilt, hbest, List.foldl_append, ← hs]
        rfl
      · show _ = _
        rw [hbuilt, hbest, ← hs]
    exact Flow.ends_of_state hstate
  exact (Flow.Spec.blocks hstep (e.startLocals x) rfl).state fun _ h => h

/-- The last close of a call that is not rejected early is positive. -/
theorem lastClose_pos (hearly : ¬ e.rejectedEarly x = true) : 0 < lastClose x.candles := by
  have hlong : ¬ x.candles.length < 50 := by
    intro hshort
    exact hearly (by simp [rejectedEarly, hshort])
  have hne : x.candles ≠ [] := by
    intro hnil
    rw [hnil] at hlong
    exact hlong (by decide)
  rw [lastClose, List.getLast?_eq_some_getLast hne]
  exact (x.series.positive _ (List.getLast_mem hne)).2.2.2

/-- The list of signals is the one the directions leave. -/
theorem built_ofFlow (flow : Flow Locals) : (Evaluation.ofFlow flow).built = flow.state.built := by
  cases flow <;> rfl

/-- A signal that is returned is the best of the directions. -/
theorem best_of_returned {flow : Flow Locals} {s : TradeSignal}
    (h : (Evaluation.ofFlow flow).outcome = .returned (some s)) : flow.state.best = some s := by
  cases flow with
  | next t => exact Outcome.returned.inj h
  | ret t => cases h
  | raise t => cases h

/-- The directions leave the values they should exactly where they leave no wrong one: the
choice and the allocator then follow. -/
theorem valued_iff_misvalued (e : DecisionEngine) (x : Call) :
    (Evaluation.ofFlow (e.evaluateDirections x)).Valued ↔
      misvalued (e.evaluateDirections x).state = 0 := by
  have hformula : misvalued (e.evaluateDirections x).state = 0 ↔
      ∀ s ∈ (Evaluation.ofFlow (e.evaluateDirections x)).built, s.expectedValue = s.edge := by
    rw [built_ofFlow, misvalued, List.countP_eq_zero]
    simp
  rw [hformula]
  constructor
  · intro h
    exact h.formula
  · intro h
    refine ⟨h, ?_, ?_⟩
    · intro s hs
      have hbest := evaluateDirections_best e x
      rw [best_of_returned hs] at hbest
      rw [built_ofFlow]
      exact foldl_keepBest TradeSignal.expectedValue hbest.symm
    · intro s hs hedge
      have hpos : 0 < s.expectedValue := by
        rw [h s hs]
        exact hedge
      exact ⟨hpos, fun signals hmem => PortfolioAllocator.mem_positiveEv.2 ⟨hmem, hpos⟩⟩

/-- A call that builds no signal has none of wrong value. -/
theorem valued_of_nothing_built : (⟨.returned none, []⟩ : Evaluation).Valued where
  formula := by
    intro s hs
    cases hs
  best := by
    intro s hs
    cases hs
  survives := by
    intro s hs
    cases hs

/-- The signals have the values they should exactly where all that are built break even. -/
theorem evaluate_valued_iff (e : DecisionEngine) (x : Call) :
    (e.evaluate x).Valued ↔ e.AllBreakEven x := by
  unfold evaluate AllBreakEven
  by_cases hearly : e.rejectedEarly x = true
  · rw [if_pos hearly]
    exact iff_of_true valued_of_nothing_built (Or.inl hearly)
  · rw [if_neg hearly, or_iff_right hearly, valued_iff_misvalued]
    exact (Flow.met_iff_counter_eq misvalued_le (misvalued_eq_iff (lastClose_pos hearly))
      (determineDirections (settledRegime x)) (e.startLocals x)).symm

/-- A trend signal of full conviction has an edge and the value zero, and is dropped. -/
theorem evaluate_values_edge_at_zero :
    (fundedEngine.evaluate (trendCall 1)).built ≠ [] ∧
      (∀ s ∈ (fundedEngine.evaluate (trendCall 1)).built,
        (fundedEngine.evaluate (trendCall 1)).outcome = .returned (some s) ∧
          0 < s.edge ∧ s.expectedValue = 0 ∧ s ∉ positiveEv [s]) ∧
      ¬ (fundedEngine.evaluate (trendCall 1)).Valued := by
  have hne : (fundedEngine.evaluate (trendCall 1)).built ≠ [] := by decide +kernel
  have hsignals : ∀ s ∈ (fundedEngine.evaluate (trendCall 1)).built,
      (fundedEngine.evaluate (trendCall 1)).outcome = .returned (some s) ∧
        0 < s.edge ∧ s.expectedValue = 0 := by
    decide +kernel
  have hdropped : ∀ s : TradeSignal, s.expectedValue = 0 → s ∉ positiveEv [s] := by
    intro s hzero hmem
    exact (PortfolioAllocator.mem_positiveEv.1 hmem).2.ne' hzero
  refine ⟨hne, ?_, ?_⟩
  · intro s hs
    rcases hsignals s hs with ⟨houtcome, hedge, hzero⟩
    exact ⟨houtcome, hedge, hzero, hdropped s hzero⟩
  · intro hvalued
    rcases List.exists_mem_of_ne_nil _ hne with ⟨s, hs⟩
    rcases hsignals s hs with ⟨_, hedge, hzero⟩
    exact (hvalued.survives s hs hedge).1.ne' hzero

end DecisionEngine
end Decision
end Karsa
