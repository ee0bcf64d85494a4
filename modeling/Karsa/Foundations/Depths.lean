import Mathlib.Algebra.Order.Group.Defs
import Mathlib.Order.Bounds.Basic
import Mathlib.Order.Lattice

/-!
# Foundations - Depths below a running peak

A sequence is followed together with the highest value so far.  Its depth at an index is its
distance below that peak, and the greatest depth is the largest fall between two indices.

Main results:

- Theorem `isGreatest_runningPeak`: the running peak is the greatest value so far.
- Theorem `isGreatest_fall`: the greatest depth is the largest fall from one index to a
  later one.
- Theorem `firstDeepest_iff`: the deepest index is the first that has the greatest depth.
-/

namespace Karsa

variable {G : Type*} [LinearOrder G]

/-- The highest value of a sequence up to an index. -/
def runningPeak (E : ℕ → G) : ℕ → G
  | 0 => E 0
  | n + 1 => max (runningPeak E n) (E (n + 1))

/-- The running peak is the greatest value so far. -/
theorem isGreatest_runningPeak (E : ℕ → G) (n : ℕ) :
    IsGreatest {x | ∃ i ≤ n, x = E i} (runningPeak E n) := by
  induction n with
  | zero =>
      refine ⟨⟨0, le_rfl, rfl⟩, ?_⟩
      rintro x ⟨i, hi, rfl⟩
      rw [Nat.le_zero.mp hi]
      exact le_rfl
  | succ n ih =>
      constructor
      · rcases le_total (runningPeak E n) (E (n + 1)) with hle | hle
        · exact ⟨n + 1, le_rfl, max_eq_right hle⟩
        · rcases ih.1 with ⟨i, hi, heq⟩
          exact ⟨i, hi.trans (Nat.le_succ n), (max_eq_left hle).trans heq⟩
      · rintro x ⟨i, hi, rfl⟩
        rcases Nat.le_succ_iff.mp hi with hi | rfl
        · exact (ih.2 ⟨i, hi, rfl⟩).trans (le_max_left _ _)
        · exact le_max_right _ _

/-- No value so far is above the running peak. -/
theorem le_runningPeak (E : ℕ → G) {i n : ℕ} (hi : i ≤ n) : E i ≤ runningPeak E n :=
  (isGreatest_runningPeak E n).2 ⟨i, hi, rfl⟩

variable [AddCommGroup G] [IsOrderedAddMonoid G]

/-- The distance of a sequence below its running peak. -/
def depth (E : ℕ → G) (n : ℕ) : G :=
  runningPeak E n - E n

omit [IsOrderedAddMonoid G] in
@[simp] theorem depth_zero (E : ℕ → G) : depth E 0 = 0 :=
  sub_self (E 0)

/-- A depth is never negative. -/
theorem depth_nonneg (E : ℕ → G) (n : ℕ) : 0 ≤ depth E n :=
  sub_nonneg.mpr (le_runningPeak E le_rfl)

/-- The deepest index so far, the first one among equals. -/
def deepest (E : ℕ → G) : ℕ → ℕ
  | 0 => 0
  | n + 1 => if depth E (deepest E n) < depth E (n + 1) then n + 1 else deepest E n

/-- An index is the first that has the greatest depth up to another. -/
def FirstDeepest (E : ℕ → G) (n i : ℕ) : Prop :=
  i ≤ n ∧ (∀ j < i, depth E j < depth E i) ∧ ∀ j ≤ n, depth E j ≤ depth E i

omit [IsOrderedAddMonoid G] in
/-- The deepest index is the first that has the greatest depth. -/
theorem firstDeepest_deepest (E : ℕ → G) (n : ℕ) : FirstDeepest E n (deepest E n) := by
  induction n with
  | zero =>
      refine ⟨le_rfl, fun j hj => absurd hj (Nat.not_lt_zero j), fun j hj => ?_⟩
      rw [Nat.le_zero.mp hj]
      exact le_rfl
  | succ n ih =>
      rcases ih with ⟨hle, hbefore, hall⟩
      rw [deepest]
      split_ifs with hdeeper
      · refine ⟨le_rfl, fun j hj => (hall j (Nat.lt_succ_iff.mp hj)).trans_lt hdeeper,
          fun j hj => ?_⟩
        rcases Nat.le_succ_iff.mp hj with hj | rfl
        · exact (hall j hj).trans hdeeper.le
        · exact le_rfl
      · refine ⟨hle.trans (Nat.le_succ n), hbefore, fun j hj => ?_⟩
        rcases Nat.le_succ_iff.mp hj with hj | rfl
        · exact hall j hj
        · exact not_lt.mp hdeeper

omit [IsOrderedAddMonoid G] in
/-- There is one first index of the greatest depth. -/
theorem firstDeepest_iff (E : ℕ → G) {n i : ℕ} : FirstDeepest E n i ↔ i = deepest E n := by
  constructor
  · rintro ⟨hle, hbefore, hall⟩
    rcases firstDeepest_deepest E n with ⟨hle', hbefore', hall'⟩
    rcases lt_trichotomy i (deepest E n) with hlt | heq | hlt
    · exact absurd (hbefore' i hlt) (hall (deepest E n) hle').not_gt
    · exact heq
    · exact absurd (hbefore (deepest E n) hlt) (hall' i hle).not_gt
  · rintro rfl
    exact firstDeepest_deepest E n

/-- The greatest depth is the largest fall from one index to a later one. -/
theorem isGreatest_fall (E : ℕ → G) (n : ℕ) :
    IsGreatest {d | ∃ i j, i ≤ j ∧ j ≤ n ∧ d = E i - E j} (depth E (deepest E n)) := by
  rcases firstDeepest_deepest E n with ⟨hle, -, hall⟩
  constructor
  · rcases (isGreatest_runningPeak E (deepest E n)).1 with ⟨i, hi, heq⟩
    exact ⟨i, deepest E n, hi, hle, by rw [depth, heq]⟩
  · rintro d ⟨i, j, hij, hj, rfl⟩
    calc
      E i - E j ≤ depth E j := sub_le_sub_right (le_runningPeak E hij) (E j)
      _ ≤ depth E (deepest E n) := hall j hj

end Karsa
