import Mathlib.Algebra.BigOperators.Group.List.Basic
import Mathlib.Algebra.Order.BigOperators.Group.List
import Mathlib.Algebra.Order.Field.Basic
import Mathlib.Tactic.Push

/-!
# Foundations - Weighted means

Volumes weigh prices: a mean of values with weights is the weighted sum over the total
weight.  With weights that are not negative and not all zero it lies between the values that
carry weight.

Main results:

- Theorem `weightedMean_mem_Icc`: the mean keeps the bounds of the values.
- Theorem `exists_le_weightedMean`, `exists_weightedMean_le`: some value is not above the
  mean, and some value is not below it.
-/

namespace Karsa

variable {K : Type*} [Field K]

/-- The weights of a list of values with weights. -/
def totalWeight (items : List (K × K)) : K :=
  (items.map Prod.snd).sum

/-- The values times their weights. -/
def weightedSum (items : List (K × K)) : K :=
  (items.map fun item => item.1 * item.2).sum

/-- Weighted sum over total weight. -/
def weightedMean (items : List (K × K)) : K :=
  weightedSum items / totalWeight items

@[simp] theorem totalWeight_nil : totalWeight ([] : List (K × K)) = 0 := rfl

@[simp] theorem weightedSum_nil : weightedSum ([] : List (K × K)) = 0 := rfl

@[simp] theorem totalWeight_cons (item : K × K) (rest : List (K × K)) :
    totalWeight (item :: rest) = item.2 + totalWeight rest :=
  List.sum_cons

@[simp] theorem weightedSum_cons (item : K × K) (rest : List (K × K)) :
    weightedSum (item :: rest) = item.1 * item.2 + weightedSum rest :=
  List.sum_cons

variable [LinearOrder K] [IsStrictOrderedRing K] {items : List (K × K)}

/-- Weights that are not negative add up to one that is not negative. -/
theorem totalWeight_nonneg (hweight : ∀ item ∈ items, 0 ≤ item.2) : 0 ≤ totalWeight items := by
  apply List.sum_nonneg
  intro w hw
  rcases List.mem_map.mp hw with ⟨item, hitem, rfl⟩
  exact hweight item hitem

/-- There is a total weight exactly if some value carries weight. -/
theorem totalWeight_pos_iff (hweight : ∀ item ∈ items, 0 ≤ item.2) :
    0 < totalWeight items ↔ ∃ item ∈ items, 0 < item.2 := by
  induction items with
  | nil => simp
  | cons item rest ih =>
      have hrestWeight : ∀ x ∈ rest, 0 ≤ x.2 := fun x hx =>
        hweight x (List.mem_cons_of_mem item hx)
      have hitem := hweight item List.mem_cons_self
      have hrest := totalWeight_nonneg hrestWeight
      rw [totalWeight_cons, List.exists_mem_cons_iff, ← ih hrestWeight]
      constructor
      · intro hpos
        by_contra hnone
        rw [not_or, not_lt, not_lt] at hnone
        exact hpos.not_ge (add_nonpos hnone.1 hnone.2)
      · rintro (h | h)
        · exact add_pos_of_pos_of_nonneg h hrest
        · exact add_pos_of_nonneg_of_pos hitem h

/-- An upper bound of the values bounds the weighted sum. -/
theorem weightedSum_le {bound : K} (hweight : ∀ item ∈ items, 0 ≤ item.2)
    (hbound : ∀ item ∈ items, item.1 ≤ bound) :
    weightedSum items ≤ bound * totalWeight items := by
  induction items with
  | nil => simp
  | cons item rest ih =>
      have hrest := ih (fun x hx => hweight x (List.mem_cons_of_mem item hx))
        (fun x hx => hbound x (List.mem_cons_of_mem item hx))
      have hitem := mul_le_mul_of_nonneg_right (hbound item List.mem_cons_self)
        (hweight item List.mem_cons_self)
      rw [weightedSum_cons, totalWeight_cons, mul_add]
      exact add_le_add hitem hrest

/-- A lower bound of the values bounds the weighted sum. -/
theorem le_weightedSum {bound : K} (hweight : ∀ item ∈ items, 0 ≤ item.2)
    (hbound : ∀ item ∈ items, bound ≤ item.1) :
    bound * totalWeight items ≤ weightedSum items := by
  induction items with
  | nil => simp
  | cons item rest ih =>
      have hrest := ih (fun x hx => hweight x (List.mem_cons_of_mem item hx))
        (fun x hx => hbound x (List.mem_cons_of_mem item hx))
      have hitem := mul_le_mul_of_nonneg_right (hbound item List.mem_cons_self)
        (hweight item List.mem_cons_self)
      rw [weightedSum_cons, totalWeight_cons, mul_add]
      exact add_le_add hitem hrest

/-- The mean keeps the bounds of the values. -/
theorem weightedMean_mem_Icc {low high : K} (hweight : ∀ item ∈ items, 0 ≤ item.2)
    (htotal : 0 < totalWeight items) (hbound : ∀ item ∈ items, low ≤ item.1 ∧ item.1 ≤ high) :
    low ≤ weightedMean items ∧ weightedMean items ≤ high := by
  rw [weightedMean, le_div_iff₀ htotal, div_le_iff₀ htotal]
  exact ⟨le_weightedSum hweight fun item hitem => (hbound item hitem).1,
    weightedSum_le hweight fun item hitem => (hbound item hitem).2⟩

/-- Values that are all above a bound have their weighted sum above it. -/
theorem lt_weightedSum {bound : K} (hweight : ∀ item ∈ items, 0 ≤ item.2)
    (htotal : 0 < totalWeight items) (hbound : ∀ item ∈ items, bound < item.1) :
    bound * totalWeight items < weightedSum items := by
  induction items with
  | nil => exact absurd htotal (lt_irrefl 0)
  | cons item rest ih =>
      have hrestWeight : ∀ x ∈ rest, 0 ≤ x.2 := fun x hx =>
        hweight x (List.mem_cons_of_mem item hx)
      have hrestBound : ∀ x ∈ rest, bound < x.1 := fun x hx =>
        hbound x (List.mem_cons_of_mem item hx)
      have hitem := hbound item List.mem_cons_self
      rw [weightedSum_cons, totalWeight_cons, mul_add]
      rw [totalWeight_cons] at htotal
      rcases (hweight item List.mem_cons_self).eq_or_lt with hzero | hpos
      · have hrest := ih hrestWeight (by rwa [← hzero, zero_add] at htotal) hrestBound
        rw [← hzero, mul_zero, mul_zero, zero_add, zero_add]
        exact hrest
      · exact add_lt_add_of_lt_of_le (mul_lt_mul_of_pos_right hitem hpos)
          (le_weightedSum hrestWeight fun x hx => (hrestBound x hx).le)

/-- Some value is not above the mean. -/
theorem exists_le_weightedMean (hweight : ∀ item ∈ items, 0 ≤ item.2)
    (htotal : 0 < totalWeight items) : ∃ item ∈ items, item.1 ≤ weightedMean items := by
  by_contra hnone
  push Not at hnone
  have hlt := lt_weightedSum hweight htotal hnone
  rw [weightedMean, div_mul_cancel₀ _ htotal.ne'] at hlt
  exact lt_irrefl _ hlt

/-- Negated values. -/
def negValues (items : List (K × K)) : List (K × K) :=
  items.map fun item => (-item.1, item.2)

omit [LinearOrder K] [IsStrictOrderedRing K] in
@[simp] theorem totalWeight_negValues (items : List (K × K)) :
    totalWeight (negValues items) = totalWeight items := by
  rw [totalWeight, negValues, List.map_map]
  rfl

omit [LinearOrder K] [IsStrictOrderedRing K] in
@[simp] theorem weightedSum_negValues (items : List (K × K)) :
    weightedSum (negValues items) = -weightedSum items := by
  induction items with
  | nil => simp [negValues]
  | cons item rest ih =>
      rw [negValues] at ih
      simp only [negValues, List.map_cons, weightedSum_cons, ih, neg_mul, neg_add]

/-- Some value is not below the mean. -/
theorem exists_weightedMean_le (hweight : ∀ item ∈ items, 0 ≤ item.2)
    (htotal : 0 < totalWeight items) : ∃ item ∈ items, weightedMean items ≤ item.1 := by
  have hneg : ∀ item ∈ negValues items, 0 ≤ item.2 := by
    intro item hitem
    rcases List.mem_map.mp hitem with ⟨x, hx, rfl⟩
    exact hweight x hx
  rcases exists_le_weightedMean hneg (by rwa [totalWeight_negValues]) with ⟨item, hitem, hle⟩
  rcases List.mem_map.mp hitem with ⟨x, hx, rfl⟩
  refine ⟨x, hx, ?_⟩
  rw [weightedMean, weightedSum_negValues, totalWeight_negValues, neg_div, neg_le_neg_iff] at hle
  exact hle

end Karsa
