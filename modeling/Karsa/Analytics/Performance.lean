import Karsa.Foundations.Depths
import Mathlib.Algebra.Order.Field.Basic
import Mathlib.Algebra.Order.Ring.Rat
import Mathlib.Data.List.Basic

/-!
# Analytics - Drawdown of the equity curve

`_compute_drawdown` adds up the results of the trades and follows the highest sum.  It notes
the percentage of a drawdown when the drawdown is deeper than those before, so what it returns
as the greatest percentage is that of the deepest drawdown.

Main results:

- Theorem `computeDrawdown_eq`: the loop in terms of the equity curve.
- Theorem `drawdownStatistics_iff`: when the percentage is the greatest one.
-/

namespace Karsa
namespace Performance

/-! ## The loop -/

/-- Locals of the loop; the last four are returned. -/
structure DrawdownLoop where
  equity : ℚ
  pnlValues : List ℚ
  peak : ℚ
  maxDd : ℚ
  maxDdPct : ℚ
deriving Repr, DecidableEq

/-- Body of the loop. -/
def DrawdownLoop.observe (s : DrawdownLoop) (pnl : ℚ) : DrawdownLoop :=
  let equity := s.equity + pnl
  let peak := max s.peak equity
  let dd := peak - equity
  if s.maxDd < dd then
    ⟨equity, s.pnlValues ++ [equity], peak, dd, if peak ≠ 0 then dd / peak * 100 else 0⟩
  else ⟨equity, s.pnlValues ++ [equity], peak, s.maxDd, s.maxDdPct⟩

/-- `_compute_drawdown` on the results of the trades. -/
def computeDrawdown (pnls : List ℚ) : DrawdownLoop :=
  pnls.foldl DrawdownLoop.observe ⟨0, [], 0, 0, 0⟩

/-! ## The equity curve -/

variable (pnls : List ℚ)

/-- Sum of the first results. -/
def equityAt (n : ℕ) : ℚ :=
  (pnls.take n).sum

/-- Percentage of the running peak that is lost; none of a peak of zero. -/
def lostPct (n : ℕ) : ℚ :=
  depth (equityAt pnls) n / runningPeak (equityAt pnls) n * 100

@[simp] theorem equityAt_zero : equityAt pnls 0 = 0 := rfl

variable {pnls}

theorem equityAt_succ {n : ℕ} (hn : n < pnls.length) :
    equityAt pnls (n + 1) = equityAt pnls n + pnls[n] := by
  rw [equityAt, equityAt, List.take_add_one, List.getElem?_eq_getElem hn, List.sum_append]
  simp

/-- The running peak starts at zero. -/
theorem runningPeak_nonneg (n : ℕ) : 0 ≤ runningPeak (equityAt pnls) n :=
  le_runningPeak (equityAt pnls) (Nat.zero_le n)

variable (pnls) in
/-- The locals behind the first results, in terms of the equity curve. -/
def localsAt (n : ℕ) : DrawdownLoop where
  equity := equityAt pnls n
  pnlValues := (List.range n).map fun i => equityAt pnls (i + 1)
  peak := runningPeak (equityAt pnls) n
  maxDd := depth (equityAt pnls) (deepest (equityAt pnls) n)
  maxDdPct := lostPct pnls (deepest (equityAt pnls) n)

/-- The loop takes in one more result. -/
theorem observe_localsAt {n : ℕ} (hn : n < pnls.length) :
    (localsAt pnls n).observe pnls[n] = localsAt pnls (n + 1) := by
  have hequity : (localsAt pnls n).equity + pnls[n] = equityAt pnls (n + 1) :=
    (equityAt_succ hn).symm
  have hpeak : max (localsAt pnls n).peak (equityAt pnls (n + 1)) =
      runningPeak (equityAt pnls) (n + 1) := rfl
  have hdepth : runningPeak (equityAt pnls) (n + 1) - equityAt pnls (n + 1) =
      depth (equityAt pnls) (n + 1) := rfl
  have hvalues : (localsAt pnls n).pnlValues ++ [equityAt pnls (n + 1)] =
      (List.range (n + 1)).map fun i => equityAt pnls (i + 1) := by
    rw [List.range_succ, List.map_append]
    rfl
  unfold DrawdownLoop.observe
  dsimp only
  rw [hequity, hpeak, hdepth, hvalues]
  by_cases hdeeper : (localsAt pnls n).maxDd < depth (equityAt pnls) (n + 1)
  · have hdeepest : deepest (equityAt pnls) (n + 1) = n + 1 := if_pos hdeeper
    rw [if_pos hdeeper, localsAt, hdeepest, lostPct]
    congr 1
    split_ifs with hzero
    · rfl
    · rw [not_not.mp hzero, div_zero, zero_mul]
  · have hdeepest : deepest (equityAt pnls) (n + 1) = deepest (equityAt pnls) n :=
      if_neg hdeeper
    rw [if_neg hdeeper]
    simp only [localsAt, hdeepest]

/-- The loop behind the first results. -/
theorem foldl_observe_take {n : ℕ} (hn : n ≤ pnls.length) :
    (pnls.take n).foldl DrawdownLoop.observe ⟨0, [], 0, 0, 0⟩ = localsAt pnls n := by
  induction n with
  | zero => simp [localsAt, runningPeak, deepest, lostPct]
  | succ n ih =>
      rw [List.take_add_one, List.getElem?_eq_getElem hn, Option.toList_some, List.foldl_append,
        ih (Nat.le_of_succ_le hn)]
      exact observe_localsAt hn

/-- What the loop returns. -/
theorem computeDrawdown_eq (pnls : List ℚ) :
    computeDrawdown pnls = localsAt pnls pnls.length := by
  have h := foldl_observe_take (Nat.le_refl pnls.length)
  rwa [List.take_length] at h

/-! ## The statistics -/

variable (pnls)

/-- The sums of the results, the greatest of them and zero, the largest fall between two of
them, and the greatest percentage of a positive running peak that is lost. -/
structure DrawdownStatistics : Prop where
  series : (computeDrawdown pnls).pnlValues =
    (List.range pnls.length).map fun i => equityAt pnls (i + 1)
  peak : IsGreatest {x | ∃ i ≤ pnls.length, x = equityAt pnls i} (computeDrawdown pnls).peak
  maxDd : IsGreatest
    {d | ∃ i j, i ≤ j ∧ j ≤ pnls.length ∧ d = equityAt pnls i - equityAt pnls j}
    (computeDrawdown pnls).maxDd
  maxDdPct : IsGreatest
    (insert 0 {d | ∃ j ≤ pnls.length, 0 < runningPeak (equityAt pnls) j ∧ d = lostPct pnls j})
    (computeDrawdown pnls).maxDdPct

/-- No point loses a greater percentage than the first of the deepest ones. -/
def DeepestIsSteepest : Prop :=
  ∀ i, FirstDeepest (equityAt pnls) pnls.length i →
    ∀ j ≤ pnls.length, lostPct pnls j ≤ lostPct pnls i

/-- The percentages of the points with a positive peak, and zero. -/
theorem mem_lostPcts_iff {d : ℚ} :
    d ∈ insert 0 {d | ∃ j ≤ pnls.length,
        0 < runningPeak (equityAt pnls) j ∧ d = lostPct pnls j} ↔
      ∃ j ≤ pnls.length, d = lostPct pnls j := by
  constructor
  · rintro (rfl | ⟨j, hj, -, rfl⟩)
    · exact ⟨0, Nat.zero_le _, by simp [lostPct]⟩
    · exact ⟨j, hj, rfl⟩
  · rintro ⟨j, hj, rfl⟩
    have hpeak : 0 ≤ runningPeak (equityAt pnls) j := runningPeak_nonneg j
    rcases hpeak.eq_or_lt with hzero | hpos
    · left
      rw [lostPct, ← hzero, div_zero, zero_mul]
    · exact Or.inr ⟨j, hj, hpos, rfl⟩

/-- The statistics are right exactly if the first of the deepest points is the steepest. -/
theorem drawdownStatistics_iff : DrawdownStatistics pnls ↔ DeepestIsSteepest pnls := by
  have hfirst := firstDeepest_deepest (equityAt pnls) pnls.length
  constructor
  · intro h i hi j hj
    have hpct := h.maxDdPct.2 ((mem_lostPcts_iff pnls).mpr ⟨j, hj, rfl⟩)
    rw [computeDrawdown_eq] at hpct
    rw [(firstDeepest_iff _).mp hi]
    exact hpct
  · intro h
    refine ⟨?_, ?_, ?_, ?_⟩
    · rw [computeDrawdown_eq]
      rfl
    · rw [computeDrawdown_eq]
      exact isGreatest_runningPeak _ _
    · rw [computeDrawdown_eq]
      exact isGreatest_fall _ _
    · rw [computeDrawdown_eq]
      refine ⟨(mem_lostPcts_iff pnls).mpr ⟨_, hfirst.1, rfl⟩, fun d hd => ?_⟩
      rcases (mem_lostPcts_iff pnls).mp hd with ⟨j, hj, rfl⟩
      exact h _ hfirst j hj

/-- A fall from 10 to 5 is steeper than one from 100 to 94, but less deep. -/
theorem drawdownStatistics_two_falls : ¬ DrawdownStatistics [10, -5, 95, -6] := by
  intro h
  have hpct := h.maxDdPct.2 ((mem_lostPcts_iff [10, -5, 95, -6]).mpr ⟨2, by decide, rfl⟩)
  exact absurd hpct (by decide +kernel)

end Performance
end Karsa
