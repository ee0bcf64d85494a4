import Mathlib.Algebra.Order.Field.Basic
import Mathlib.Algebra.Order.Group.MinMax
import Mathlib.Tactic.Linarith

/-!
# Foundations - Saturated scores

A measured value is brought to a score between minus one and one, either by cutting it off at
both ends or by its sign alone.  Both are odd: the score of the opposite value is the opposite
score.  Terms of a weighted sum of scores speak for its being positive or against it.

Main results:

- Theorem `saturate_neg`, `signBeyond_neg`: both scores are odd.
- Theorem `saturate_pos_iff`: cutting off keeps the sign.
- Theorem `sum_pos_iff`: a sum is positive when the terms for it outweigh those against it.
-/

namespace Karsa

variable {K : Type*} [Field K] [LinearOrder K]

/-! ## Scores -/

/-- The value, cut off at minus one and one. -/
def saturate (x : K) : K :=
  max (-1) (min 1 x)

/-- The sign of a value that is more than a bound away from zero. -/
def signBeyond (bound x : K) : K :=
  if bound < |x| then if 0 < x then 1 else -1 else 0

theorem neg_one_le_saturate (x : K) : -1 ≤ saturate x :=
  le_max_left ..

/-- A value in the range is its own score. -/
theorem saturate_of_mem {x : K} (hlow : -1 ≤ x) (hhigh : x ≤ 1) : saturate x = x := by
  unfold saturate
  rw [min_eq_right hhigh, max_eq_right hlow]

variable [IsStrictOrderedRing K]

theorem saturate_of_one_le {x : K} (h : 1 ≤ x) : saturate x = 1 := by
  unfold saturate
  rw [min_eq_left h, max_eq_right (by linarith [zero_lt_one (α := K)])]

theorem saturate_of_le_neg_one {x : K} (h : x ≤ -1) : saturate x = -1 := by
  unfold saturate
  rw [min_eq_right (by linarith [zero_lt_one (α := K)]), max_eq_left h]

/-- Cutting off is odd. -/
@[simp] theorem saturate_neg (x : K) : saturate (-x) = -saturate x := by
  rcases le_total 1 x with hhigh | hhigh
  · rw [saturate_of_one_le hhigh, saturate_of_le_neg_one (neg_le_neg hhigh)]
  · rcases le_total x (-1) with hlow | hlow
    · rw [saturate_of_le_neg_one hlow, saturate_of_one_le (by linarith), neg_neg]
    · rw [saturate_of_mem hlow hhigh, saturate_of_mem (by linarith) (by linarith)]

/-- Cutting off keeps the sign. -/
theorem saturate_pos_iff {x : K} : 0 < saturate x ↔ 0 < x := by
  have hnot : ¬ (0 : K) < -1 := by linarith [zero_lt_one (α := K)]
  simp [saturate, hnot]

/-- The sign is odd. -/
theorem signBeyond_neg {bound : K} (hbound : 0 ≤ bound) (x : K) :
    signBeyond bound (-x) = -signBeyond bound x := by
  unfold signBeyond
  rw [abs_neg]
  by_cases hfar : bound < |x|
  · have hne : x ≠ 0 := abs_pos.mp (hbound.trans_lt hfar)
    rcases lt_or_gt_of_ne hne with hneg | hpos
    · simp [hfar, hneg, hneg.not_gt]
    · simp [hfar, hpos, hpos.not_gt]
  · simp [hfar]

theorem abs_signBeyond_le_one (bound x : K) : |signBeyond bound x| ≤ 1 := by
  unfold signBeyond
  split_ifs <;> simp

/-! ## Terms for and against -/

/-- What the positive terms add. -/
def evidence (terms : List K) : K :=
  (terms.map (max 0)).sum

/-- The terms for a sum less those against it. -/
theorem evidence_sub_evidence_neg (terms : List K) :
    evidence terms - evidence (terms.map (-·)) = terms.sum := by
  induction terms with
  | nil => simp [evidence]
  | cons x rest ih =>
      have hsplit : max 0 x - max 0 (-x) = x := by
        rcases le_total 0 x with hpos | hneg
        · rw [max_eq_right hpos, max_eq_left (by linarith), sub_zero]
        · rw [max_eq_left hneg, max_eq_right (by linarith), zero_sub, neg_neg]
      unfold evidence at ih ⊢
      simp only [List.map_cons, List.sum_cons]
      linarith

/-- A sum is positive when the terms for it outweigh those against it. -/
theorem sum_pos_iff {terms : List K} :
    0 < terms.sum ↔ evidence (terms.map (-·)) < evidence terms := by
  rw [← evidence_sub_evidence_neg, sub_pos]

end Karsa
