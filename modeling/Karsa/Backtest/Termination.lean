import Karsa.Backtest.Engine

/-!
# Backtests - Termination of the replay

The loop of `run` goes one bar further unless the last reports show a trade; it looks at as
many of them as the bar has directions.  A direction that a live gate skips leaves no report,
and an earlier trade takes its place.  Where all directions of a bar are skipped behind a
trade, the pass changes nothing and is repeated for ever.

Main results:

- Theorem `advances_iff`: the passes on which the bar index grows.
- Theorem `replay_advances_iff`: the replays that end with an index growing on every pass,
  and those that end at all.
-/

namespace Karsa
namespace Backtest
namespace BacktestEngine

open MarketFeed (Candle)

variable (e : BacktestEngine) (job : Job) (candles : List Candle)

/-- A direction of the bar enters, or the reports that the gated directions leave open to
the check show no trade. -/
def Unobstructed (s : Replay) : Prop :=
  ∀ v, e.viewAt job candles s.idx = some v →
    ((determineDirections v.regime).any (e.enters job v) = true ∨
      takenLately (e.gatedCount job v) s.decisions = false)

/-- All directions of the bar are gated, and the reports in their place show a trade. -/
def Stuck (s : Replay) : Prop :=
  ∃ v, e.viewAt job candles s.idx = some v ∧
    e.gatedCount job v = (determineDirections v.regime).length ∧
    takenLately (e.gatedCount job v) s.decisions = true

variable {e job candles} {s : Replay}

/-- No direction enters where the search for one fails. -/
theorem any_enters_eq_false {v : BarView} {directions : List Side}
    (h : directions.find? (e.enters job v) = none) :
    directions.any (e.enters job v) = false := by
  rw [List.any_eq_false]
  exact List.find?_eq_none.1 h

/-- A direction enters where the search finds one. -/
theorem any_enters_of_find {v : BarView} {directions : List Side} {direction : Side}
    (h : directions.find? (e.enters job v) = some direction) :
    directions.any (e.enters job v) = true :=
  List.any_eq_true.2 ⟨direction, List.mem_of_find?_eq_some h, List.find?_some h⟩

/-- The loop goes on behind the bar of a trade. -/
theorem lt_behind (d : Decision) : d.bar + d.report.barsHeld < behind d := by
  unfold behind
  omega

/-- The bar index grows on the unobstructed passes. -/
theorem advances_iff (hinside : Inside candles s) :
    s.idx < (e.pass job candles s).idx ↔ e.Unobstructed job candles s := by
  rcases e.viewAt_of_inside job hinside with ⟨v, hview⟩
  rw [pass_eq e job hview]
  cases hfind : (determineDirections v.regime).find? (e.enters job v) with
  | some direction =>
      have hbehind := lt_behind (e.entered job v s.idx direction)
      have hbar : (e.entered job v s.idx direction).bar = s.idx := rfl
      refine iff_of_true (by dsimp only; omega) ?_
      intro w hw
      rw [hview, Option.some_inj] at hw
      subst hw
      exact Or.inl (any_enters_of_find hfind)
  | none =>
      have hnone := any_enters_eq_false hfind
      dsimp only
      constructor
      · intro hgrows w hw
        rw [hview, Option.some_inj] at hw
        subst hw
        refine Or.inr ?_
        by_contra htaken
        rw [Bool.not_eq_false] at htaken
        rw [if_pos htaken] at hgrows
        exact lt_irrefl _ hgrows
      · intro hfree
        rcases hfree v hview with hany | hlate
        · rw [hnone] at hany
          contradiction
        · rw [if_neg (by simp [hlate])]
          omega

/-- Gated directions do not enter. -/
theorem find_enters_of_all_gated {v : BarView}
    (hall : e.gatedCount job v = (determineDirections v.regime).length) :
    (determineDirections v.regime).find? (e.enters job v) = none := by
  rw [List.find?_eq_none]
  intro direction hmem
  have hskip := List.countP_eq_length.1 hall direction hmem
  simp [enters, hskip]

/-- Nor are they rejected. -/
theorem rejections_of_all_gated {v : BarView}
    (hall : e.gatedCount job v = (determineDirections v.regime).length) (idx : ℕ) :
    e.rejections job v idx (determineDirections v.regime) = [] := by
  have hlength := e.length_rejections_add job (find_enters_of_all_gated hall) idx
  unfold gatedCount at hall
  exact List.eq_nil_of_length_eq_zero (by omega)

/-- A stuck pass changes nothing. -/
theorem Stuck.pass (hstuck : e.Stuck job candles s) : e.pass job candles s = s := by
  rcases hstuck with ⟨v, hview, hall, htaken⟩
  rw [pass_eq e job hview, find_enters_of_all_gated hall, rejections_of_all_gated hall]
  dsimp only
  rw [if_pos htaken, List.append_nil]

/-- The last report shows a trade. -/
def lastTaken (s : Replay) : Bool :=
  takenLately 1 s.decisions

/-- The bar index, and whether the last report is a rejection. -/
def progress (s : Replay) : ℕ :=
  2 * s.idx + if lastTaken s then 0 else 1

/-- Some progress is made on every pass that is not stuck: where the index stays, a rejection
takes the place of the trade behind which the loop waits. -/
theorem progress_lt (hinside : Inside candles s) (hfree : ¬ e.Stuck job candles s) :
    progress s < progress (e.pass job candles s) := by
  have hbound : ∀ t : Replay, 2 * t.idx ≤ progress t ∧ progress t ≤ 2 * t.idx + 1 := by
    intro t
    unfold progress
    split_ifs <;> omega
  rcases em (s.idx < (e.pass job candles s).idx) with hgrows | hstays
  · have hlow := hbound (e.pass job candles s)
    have hhigh := hbound s
    omega
  · rcases e.viewAt_of_inside job hinside with ⟨v, hview⟩
    rw [pass_eq e job hview] at hstays ⊢
    cases hfind : (determineDirections v.regime).find? (e.enters job v) with
    | some direction =>
        rw [hfind] at hstays
        have hbehind := lt_behind (e.entered job v s.idx direction)
        have hbar : (e.entered job v s.idx direction).bar = s.idx := rfl
        dsimp only at hstays
        omega
    | none =>
        rw [hfind] at hstays
        dsimp only at hstays ⊢
        have htaken : takenLately (e.gatedCount job v) s.decisions = true := by
          by_contra hlate
          rw [if_neg hlate] at hstays
          omega
        have hsome : e.gatedCount job v ≠ 0 := by
          intro hzero
          rw [hzero, takenLately_zero] at htaken
          contradiction
        have hnot : e.gatedCount job v ≠ (determineDirections v.regime).length :=
          fun hall => hfree ⟨v, hview, hall, htaken⟩
        have htwo := length_determineDirections_le v.regime
        have hlength := e.length_rejections_add job hfind s.idx
        unfold gatedCount at hsome hnot htaken
        have hgated : (determineDirections v.regime).countP
            (e.skips job.symbol v.entryCandle.ts) = 1 := by omega
        have hlast : takenLately 1 (s.decisions ++
            e.rejections job v s.idx (determineDirections v.regime)) = false :=
          (takenLately_append (fun d hd => (e.not_taken_of_mem_rejections job hd).2)
            (by omega)).trans (takenLately_zero s.decisions)
        rw [hgated] at htaken
        simp [progress, lastTaken, hlast, htaken, gatedCount, hgated]

/-- The replays whose index grows on every pass, and those that end.  The first condition is
about the reports of earlier passes that the check reaches when directions are gated; the
second excludes that it waits for a bar none of whose directions is tried. -/
theorem replay_advances_iff (e : BacktestEngine) (job : Job) (candles : List Candle) :
    (Halts (Inside candles) (e.pass job candles) start ∧
        EveryPass (Inside candles) (e.pass job candles)
          (fun s => s.idx < (e.pass job candles s).idx) start ↔
      EveryPass (Inside candles) (e.pass job candles) (e.Unobstructed job candles) start) ∧
    (Halts (Inside candles) (e.pass job candles) start ↔
      EveryPass (Inside candles) (e.pass job candles)
        (fun s => ¬ e.Stuck job candles s) start) := by
  have hcongr : EveryPass (Inside candles) (e.pass job candles)
      (fun s => s.idx < (e.pass job candles s).idx) start ↔
      EveryPass (Inside candles) (e.pass job candles) (e.Unobstructed job candles) start :=
    everyPass_congr fun t ht => advances_iff ht
  refine ⟨⟨fun h => hcongr.1 h.2, fun h => ⟨?_, hcongr.2 h⟩⟩, ?_, ?_⟩
  · have hbound : ∀ t : Replay, Inside candles t → t.idx < candles.length := fun _ ht => ht
    exact halts_of_advances hbound (hcongr.2 h)
  · intro hhalts n hinside hstuck
    rw [← halts_passes_iff n] at hhalts
    exact not_halts_of_fixed hinside hstuck.pass hhalts
  · intro hfree
    have hbound : ∀ t : Replay, Inside candles t → progress t < 2 * candles.length := by
      intro t ht
      have hlt : t.idx < candles.length := ht
      unfold progress
      split_ifs <;> omega
    exact halts_of_advances hbound fun n hinside => progress_lt hinside (hfree n hinside)

/-! ## A night in which altcoins are not traded -/

/-- Flat hourly candles whose bar 52 opens at midnight. -/
def flatCandles : List Candle :=
  (List.range 53).map fun i => ⟨3600000 * (i + 20), 100, 100, 100, 100, 0⟩

/-- An engine with live gates that enters wherever it may. -/
def eagerEngine : BacktestEngine where
  classify := fun _ => .RANGE
  evaluateSignal := fun _ _ _ => (100, 1)
  riskGate := .default
  baseSize := 1 / 1000
  slippagePct := 5 / 10000
  takerFee := 55 / 100000
  makerFee := 2 / 10000
  fundingRate := 0
  fundingInterval := 8
  gate := 65
  enableLiveGates := true
  sectorFilter := none

/-- A job for an altcoin. -/
def altcoinJob : Job :=
  ⟨"SOL/USDT".toList, none, none, none, none⟩

/-- A trade from bar 50 to bar 51 is followed by a bar at midnight, where the replay stays. -/
theorem replay_waits_for_ever :
    ¬ Halts (Inside flatCandles) (eagerEngine.pass altcoinJob flatCandles) start := by
  rw [← halts_passes_iff 1]
  exact not_halts_of_fixed (by decide +kernel) (by decide +kernel)

end BacktestEngine
end Backtest
end Karsa
