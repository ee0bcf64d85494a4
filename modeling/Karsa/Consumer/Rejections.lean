import Karsa.Consumer.DecisionEngine
import Karsa.Consumer.SizingCeilings

/-!
# Decision engine - Rejected directions

A rejected direction should be skipped and leave the others alone: the call then returns the
best of the signals that the directions have on their own.  Two rejections raise instead.
Below the conviction floor the builder returns no signal, and the attribute that is set on it
next fails.  A sector score other than one is logged with a score that no direction has yet.

Main results:

- Theorem `evaluateDirection_raises_iff`: the directions that raise.
- Theorem `evaluateDirection_ends`: what the others add.
- Theorem `evaluate_clean_iff`: the calls that return the best of the directions' own signals.
-/

namespace Karsa
namespace Decision
namespace DecisionEngine

open Live (MarketRegime)
open Risk

variable (e : DecisionEngine) (x : Call) (regime : MarketRegime)

/-! ## The directions on their own -/

/-- The direction passes its filters and its score reaches the gate. -/
def Reaches (returns : Dict Text ℚ) (direction : Side) : Prop :=
  e.approved x returns direction = true ∧ fundingBlocked x.fundingRate direction = false ∧
    multiTfBlocked x direction = false ∧
    e.effectiveGate x direction ≤ e.finalScore x returns direction

instance (returns : Dict Text ℚ) (direction : Side) : Decidable (e.Reaches x returns direction) :=
  inferInstanceAs (Decidable (_ ∧ _ ∧ _ ∧ _))

/-- The direction passes all rules up to the builder. -/
def Passes (returns : Dict Text ℚ) (direction : Side) : Prop :=
  e.Reaches x returns direction ∧ consecutiveLosses x.recentTrades = false

instance (returns : Dict Text ℚ) (direction : Side) : Decidable (e.Passes x returns direction) :=
  inferInstanceAs (Decidable (_ ∧ _))

/-- The signal a direction has on its own, if no rule rejects it. -/
def ownSignal (returns : Dict Text ℚ) (direction : Side) : Option TradeSignal :=
  if e.Passes x returns direction then e.signalOf x regime returns direction else none

/-- The signals of all directions, each on its own. -/
def ownSignals : List Side → Dict Text ℚ → List TradeSignal
  | [], _ => []
  | direction :: rest, returns =>
      (e.ownSignal x regime returns direction).toList ++
        ownSignals rest (e.returnsBehind x returns direction)

/-- What the call should return: the best of these signals, and none where a gate rejects
the call. -/
def cleanResult : Option TradeSignal :=
  if e.rejectedEarly x then none
  else
    (e.ownSignals x (settledRegime x) (determineDirections (settledRegime x))
      (e.startLocals x).sectorReturns).foldl better none

/-- The direction is logged with a score it may read, and is not left to the conviction floor. -/
def Safe (direction : Side) (s : Locals) : Prop :=
  (e.approved x s.sectorReturns direction = true →
      e.sectorScore x s.sectorReturns direction = 1 ∨ s.score ≠ none) ∧
    (e.Passes x s.sectorReturns direction →
      ¬ e.BelowFloor regime x.candles (x.answers direction).sizing)

instance (direction : Side) : DecidablePred (e.Safe x regime direction) :=
  fun _ => inferInstanceAs (Decidable (_ ∧ _))

/-- Every direction that is tried is safe, where any is. -/
def Clean : Prop :=
  e.rejectedEarly x = true ∨
    Flow.Met (e.evaluateDirection x (settledRegime x)) (e.Safe x (settledRegime x))
      (determineDirections (settledRegime x)) (e.startLocals x)

instance : Decidable (e.Clean x) :=
  inferInstanceAs (Decidable (_ ∨ _))

/-! ## One direction -/

variable {e x regime}

/-- A direction has no signal exactly below the conviction floor. -/
theorem signalOf_eq_none_iff (returns : Dict Text ℚ) (direction : Side) :
    e.signalOf x regime returns direction = none ↔
      e.BelowFloor regime x.candles (x.answers direction).sizing :=
  buildSignal_eq_none_iff

/-- The log of the sector score reads a score that is not there. -/
def Unlogged (e : DecisionEngine) (x : Call) (direction : Side) (s : Locals) : Prop :=
  e.approved x s.sectorReturns direction = true ∧
    e.sectorScore x s.sectorReturns direction ≠ 1 ∧ s.score = none

instance (direction : Side) (s : Locals) : Decidable (Unlogged e x direction s) :=
  inferInstanceAs (Decidable (_ ∧ _ ∧ _))

/-- The local variables behind the score of a direction. -/
def scoredLocals (e : DecisionEngine) (x : Call) (direction : Side) (s : Locals) : Locals :=
  { s with
    score := some (e.finalScore x s.sectorReturns direction)
    sectorReturns := e.returnsBehind x s.sectorReturns direction }

/-- A direction raises at the log; or it reaches its gate, and then the losses end the call or
the builder decides; or it is skipped. -/
theorem evaluateDirection_cases (direction : Side) (s : Locals) :
    (Unlogged e x direction s ∧ e.evaluateDirection x regime direction s = .raise s) ∨
      (¬ Unlogged e x direction s ∧ e.Reaches x s.sectorReturns direction ∧
        e.evaluateDirection x regime direction s =
          if consecutiveLosses x.recentTrades then .ret (scoredLocals e x direction s)
          else match e.signalOf x regime s.sectorReturns direction with
            | none => .raise (scoredLocals e x direction s)
            | some signal =>
                .next { scoredLocals e x direction s with
                  best := better s.best signal
                  built := s.built ++ [signal] }) ∨
      (¬ Unlogged e x direction s ∧ ¬ e.Reaches x s.sectorReturns direction ∧
        ∃ score, e.evaluateDirection x regime direction s =
          .next { s with
            score := score
            sectorReturns := e.returnsBehind x s.sectorReturns direction }) := by
  unfold Unlogged Reaches
  rw [evaluateDirection]
  cases happroved : e.approved x s.sectorReturns direction with
  | false =>
      refine Or.inr (Or.inr ⟨by simp, by simp, s.score, ?_⟩)
      simp [returnsBehind, happroved]
  | true =>
      by_cases hlog : e.sectorScore x s.sectorReturns direction ≠ 1 ∧ s.score = none
      · exact Or.inl ⟨⟨rfl, hlog⟩, by simp [hlog]⟩
      · have hread : ¬ (true = true ∧ e.sectorScore x s.sectorReturns direction ≠ 1 ∧
            s.score = none) := fun h => hlog h.2
        cases hfunding : fundingBlocked x.fundingRate direction with
        | true =>
            refine Or.inr (Or.inr ⟨hread, by simp, s.score, ?_⟩)
            simp [hlog, returnsBehind, hfunding]
        | false =>
            cases hmulti : multiTfBlocked x direction with
            | true => exact Or.inr (Or.inr ⟨hread, by simp, s.score, by simp [hlog]⟩)
            | false =>
                by_cases hgate : e.effectiveGate x direction ≤
                    e.finalScore x s.sectorReturns direction
                · refine Or.inr (Or.inl ⟨hread, ⟨rfl, rfl, rfl, hgate⟩, ?_⟩)
                  simp only [Bool.not_true, Bool.false_eq_true, if_false, if_neg hlog,
                    if_pos hgate]
                  rfl
                · refine Or.inr (Or.inr ⟨hread, fun h => hgate h.2.2.2,
                    some (e.finalScore x s.sectorReturns direction), ?_⟩)
                  simp [hlog, hgate]

/-- Reading the score of the log is the first half of safety. -/
theorem not_unlogged_iff {direction : Side} {s : Locals} :
    ¬ Unlogged e x direction s ↔ (e.approved x s.sectorReturns direction = true →
      e.sectorScore x s.sectorReturns direction = 1 ∨ s.score ≠ none) := by
  unfold Unlogged
  tauto

/-- The directions that raise. -/
theorem evaluateDirection_raises_iff (direction : Side) (s : Locals) :
    (e.evaluateDirection x regime direction s).Raises ↔ ¬ e.Safe x regime direction s := by
  unfold Safe Passes
  rw [← not_unlogged_iff]
  rcases evaluateDirection_cases (e := e) (x := x) direction s with
    ⟨hlog, heq⟩ | ⟨hlog, hreaches, heq⟩ | ⟨hlog, hreaches, score, heq⟩
  · rw [heq]
    simp [hlog, Flow.Raises]
  · rw [heq]
    cases hlosses : consecutiveLosses x.recentTrades with
    | true => simp [hlog, Flow.Raises]
    | false =>
        rw [← signalOf_eq_none_iff s.sectorReturns]
        cases e.signalOf x regime s.sectorReturns direction with
        | none => simp [hreaches, Flow.Raises]
        | some signal => simp [hlog, Flow.Raises]
  · rw [heq]
    simp [hlog, hreaches, Flow.Raises]

/-- What a direction leaves where it does not raise: the best of the signals so far and its
own one.  Where the losses end the call, no direction has a signal. -/
theorem evaluateDirection_ends {direction : Side} {s : Locals}
    (hsafe : e.Safe x regime direction s) :
    (e.evaluateDirection x regime direction s).Ends
      (fun t => t.best = (e.ownSignal x regime s.sectorReturns direction).toList.foldl
          better s.best ∧
        t.sectorReturns = e.returnsBehind x s.sectorReturns direction)
      (fun _ => consecutiveLosses x.recentTrades = true) := by
  have hraises := mt (evaluateDirection_raises_iff direction s).1 (not_not.2 hsafe)
  rcases evaluateDirection_cases (e := e) (x := x) direction s with
    ⟨_, heq⟩ | ⟨_, hreaches, heq⟩ | ⟨_, hreaches, score, heq⟩
  · rw [heq] at hraises
    exact (hraises trivial).elim
  · rw [heq] at hraises ⊢
    cases hlosses : consecutiveLosses x.recentTrades with
    | true =>
        rw [if_pos rfl]
        exact rfl
    | false =>
        rw [hlosses, if_neg Bool.false_ne_true] at hraises
        have hown : e.ownSignal x regime s.sectorReturns direction =
            e.signalOf x regime s.sectorReturns direction := if_pos ⟨hreaches, hlosses⟩
        rw [if_neg Bool.false_ne_true, hown]
        cases hsignal : e.signalOf x regime s.sectorReturns direction with
        | none =>
            rw [hsignal] at hraises
            exact (hraises trivial).elim
        | some signal => exact ⟨rfl, rfl⟩
  · have hown : e.ownSignal x regime s.sectorReturns direction = none :=
      if_neg fun h => hreaches h.1
    rw [heq, hown]
    exact ⟨rfl, rfl⟩

/-! ## A whole call -/

/-- After too many losses no direction has a signal. -/
theorem ownSignal_of_losses (hlosses : consecutiveLosses x.recentTrades = true)
    (returns : Dict Text ℚ) (direction : Side) : e.ownSignal x regime returns direction = none := by
  refine if_neg fun h => ?_
  have hfew := h.2
  rw [hlosses] at hfew
  contradiction

/-- Nor have all of them together. -/
theorem ownSignals_of_losses (hlosses : consecutiveLosses x.recentTrades = true)
    (directions : List Side) (returns : Dict Text ℚ) :
    e.ownSignals x regime directions returns = [] := by
  induction directions generalizing returns with
  | nil => rfl
  | cons direction rest ih =>
      rw [ownSignals, ownSignal_of_losses hlosses, ih]
      rfl

/-- Safe directions, one after the other, end with the best of their own signals. -/
theorem evaluateDirections_clean {directions : List Side} {s : Locals}
    (hmet : Flow.Met (e.evaluateDirection x regime) (e.Safe x regime) directions s)
    (hbest : consecutiveLosses x.recentTrades = true → s.best = none) :
    (Evaluation.ofFlow (Flow.blocks (directions.map (e.evaluateDirection x regime)) s)).outcome =
      .returned ((e.ownSignals x regime directions s.sectorReturns).foldl better s.best) := by
  induction directions generalizing s with
  | nil => rfl
  | cons direction rest ih =>
      have hends := evaluateDirection_ends hmet.1
      have hraises := mt (evaluateDirection_raises_iff direction s).1 (not_not.2 hmet.1)
      rw [List.map_cons, Flow.blocks_cons]
      cases hblock : e.evaluateDirection x regime direction s with
      | next t =>
          rw [hblock] at hends
          rcases hends with ⟨htbest, hreturns⟩
          have hrest : consecutiveLosses x.recentTrades = true → t.best = none := by
            intro hlosses
            rw [htbest, ownSignal_of_losses hlosses, hbest hlosses]
            rfl
          rw [Flow.next_andThen, ih (hmet.2 t hblock) hrest, ownSignals, List.foldl_append,
            ← htbest, hreturns]
      | ret t =>
          rw [hblock] at hends
          have hlosses : consecutiveLosses x.recentTrades = true := hends
          rw [ownSignals_of_losses hlosses, Flow.ret_andThen, hbest hlosses]
          rfl
      | raise t =>
          rw [hblock] at hraises
          exact (hraises trivial).elim

/-- A flow that raises returns nothing. -/
theorem not_raises_of_returned {flow : Flow Locals} {signal : Option TradeSignal}
    (h : (Evaluation.ofFlow flow).outcome = .returned signal) : ¬ flow.Raises := by
  cases flow with
  | next s => exact id
  | ret s => exact id
  | raise s => cases h

/-- A call returns the best of the directions' own signals exactly where every direction that
is tried is safe; elsewhere it raises. -/
theorem evaluate_clean_iff (e : DecisionEngine) (x : Call) :
    (e.evaluate x).outcome = .returned (e.cleanResult x) ↔ e.Clean x := by
  unfold evaluate cleanResult Clean
  by_cases hearly : e.rejectedEarly x = true
  · simp [hearly]
  · rw [if_neg hearly, if_neg hearly, or_iff_right hearly]
    constructor
    · intro h
      exact (Flow.met_iff_not_raises evaluateDirection_raises_iff _ _).2
        (not_raises_of_returned h)
    · intro hmet
      exact evaluateDirections_clean hmet fun _ => rfl

/-- The first direction is always logged: one sector makes no ranking. -/
theorem startLocals_logged (e : DecisionEngine) (x : Call) (direction : Side) :
    e.sectorScore x (e.startLocals x).sectorReturns direction = 1 := by
  have hfew : (e.startLocals x).sectorReturns.length < 3 := by
    unfold startLocals
    dsimp only
    cases moveOver x.candles 4 with
    | none => exact Nat.succ_pos 2
    | some r =>
        have hone := Sectors.length_updateSectorReturns_singleton e.getSector x.symbol r
        dsimp only
        omega
  exact Sectors.getSectorScore_of_few e.getSector hfew x.symbol direction

/-! ## A weak regime -/

/-- Steady hourly candles that range over a tenth of the price. -/
def wideSeries : PriceSeries where
  candles := wideCandles 50
  positive := by decide +kernel

/-- A direction of full confidence, sized at some conviction. -/
def confidentAnswers (conviction : ℚ) : DirectionAnswers where
  multiTf := none
  confidence := 90
  volFactor := 1
  symbolMult := none
  elo := none
  correlation := none
  carryBonus := none
  termSignal := none
  liquidationBonus := none
  crossAssetBonus := none
  unlockPenalty := none
  hmm := none
  hour := 8
  dynamicThreshold := none
  sizing := { goodAnswers with conviction := some conviction }
  sectorUpdates := []

/-- A call in a trend. -/
def trendCall (conviction : ℚ) : Call where
  symbol := "SOL/USDT".toList
  series := wideSeries
  fundingRate := none
  ranking := "PROMOTE".toList
  volFloor := none
  blockHour := 8
  book := none
  analyzerRegime := .TREND_BULL
  previousRegime := none
  transitions := 0
  recentTrades := none
  answers := fun _ => confidentAnswers conviction

/-- At a conviction of one fifth the call raises. -/
theorem evaluate_raises_below_floor :
    (fundedEngine.evaluate (trendCall (1 / 5))).outcome = .raised ∧
      (fundedEngine.evaluate (trendCall (1 / 5))).outcome ≠
        .returned (fundedEngine.cleanResult (trendCall (1 / 5))) := by
  decide +kernel

end DecisionEngine
end Decision
end Karsa
