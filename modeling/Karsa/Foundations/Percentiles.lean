import Mathlib.Algebra.Order.Field.Basic
import Mathlib.Algebra.Order.Floor.Ring
import Mathlib.Data.List.Sort

/-!
# Foundations - Percentiles of sorted values

A program sorts its values and takes the one at a rank as a percentile.  Which values are below a
bound is then a matter of counting.

Main results:

- Theorem `sorted_eq`: what the order of some values is.
- Theorem `getElem_iff`: how far a sorted list satisfies a predicate that passes down.
- Theorem `percentile_lt_iff`: when a percentile is below a bound.
- Theorem `percentile_mono`: percentiles rise with the rank.
-/

namespace Karsa
namespace Percentiles

variable {K : Type*} [LinearOrder K]

/-! ## Sorted values -/

/-- The values in rising order. -/
def sorted (xs : List K) : List K :=
  xs.mergeSort fun a b => decide (a ≤ b)

theorem pairwise_sorted (xs : List K) : (sorted xs).Pairwise fun a b => a ≤ b := by
  have htrans : ∀ a b c : K, decide (a ≤ b) = true → decide (b ≤ c) = true →
      decide (a ≤ c) = true := by
    intro a b c hab hbc
    rw [decide_eq_true_eq] at hab hbc ⊢
    exact hab.trans hbc
  have htotal : ∀ a b : K, (decide (a ≤ b) || decide (b ≤ a)) = true := by
    intro a b
    rw [Bool.or_eq_true, decide_eq_true_eq, decide_eq_true_eq]
    exact le_total _ _
  exact (List.pairwise_mergeSort htrans htotal xs).imp fun h => of_decide_eq_true h

theorem sorted_perm (xs : List K) : (sorted xs).Perm xs :=
  List.mergeSort_perm xs _

/-- Values that rise are their own order. -/
theorem sorted_eq {xs ys : List K} (hperm : xs.Perm ys) (hrising : ys.Pairwise fun a b => a ≤ b) :
    sorted xs = ys :=
  ((sorted_perm xs).trans hperm).eq_of_pairwise (fun _ _ _ _ hab hba => le_antisymm hab hba)
    (pairwise_sorted xs) hrising

@[simp] theorem length_sorted (xs : List K) : (sorted xs).length = xs.length :=
  (sorted_perm xs).length_eq

/-- How many values are below a bound. -/
def below (c : K) (xs : List K) : ℕ :=
  xs.countP fun x => decide (x < c)

@[simp] theorem below_sorted (c : K) (xs : List K) : below c (sorted xs) = below c xs :=
  (sorted_perm xs).countP_eq _

theorem below_le_length (c : K) (xs : List K) : below c xs ≤ xs.length :=
  List.countP_le_length

/-- In a sorted list the values that satisfy a predicate come first, if it passes down. -/
theorem getElem_iff {xs : List K} (hxs : xs.Pairwise fun a b => a ≤ b) {q : K → Bool}
    (hq : ∀ a b, a ≤ b → q b = true → q a = true) {k : ℕ} (hk : k < xs.length) :
    q xs[k] = true ↔ k < xs.countP q := by
  induction xs generalizing k with
  | nil => simp at hk
  | cons x rest ih =>
      rw [List.pairwise_cons] at hxs
      by_cases hx : q x = true
      · rw [List.countP_cons_of_pos hx]
        cases k with
        | zero => exact iff_of_true hx (Nat.succ_pos _)
        | succ k =>
            rw [List.getElem_cons_succ, Nat.add_lt_add_iff_right]
            exact ih hxs.2 (Nat.lt_of_succ_lt_succ hk)
      · -- nothing behind the first value satisfies it
        have hnone : ∀ y ∈ x :: rest, ¬ q y = true := by
          intro y hy hqy
          rcases List.mem_cons.mp hy with rfl | hrest
          · exact hx hqy
          · exact hx (hq x y (hxs.1 y hrest) hqy)
        rw [List.countP_eq_zero.mpr hnone]
        exact iff_of_false (hnone _ (List.getElem_mem hk)) (Nat.not_lt_zero k)

/-- A sorted list is below a bound as far as it has values below it. -/
theorem getElem_lt_iff {xs : List K} (hxs : xs.Pairwise fun a b => a ≤ b) {c : K} {k : ℕ}
    (hk : k < xs.length) : xs[k] < c ↔ k < below c xs := by
  have hdown : ∀ a b : K, a ≤ b → decide (b < c) = true → decide (a < c) = true :=
    fun a b hab hb => decide_eq_true (hab.trans_lt (of_decide_eq_true hb))
  rw [below, ← getElem_iff hxs hdown hk, decide_eq_true_eq]

/-! ## Percentiles -/

section Percentile

variable [Zero K] {F : Type*} [Field F] [LinearOrder F] [IsStrictOrderedRing F] [FloorRing F]

/-- The rank of a share of `n` values. -/
def rank (n : ℕ) (p : F) : ℕ :=
  min ⌊(n : F) * p⌋.toNat (n - 1)

/-- The value at a rank. -/
def percentile (xs : List K) (p : F) : K :=
  xs.getD (rank xs.length p) 0

omit [IsStrictOrderedRing F] in
/-- A rank is one of the values'. -/
theorem rank_lt {n : ℕ} (hn : 0 < n) (p : F) : rank n p < n :=
  (min_le_right _ _).trans_lt (Nat.sub_lt hn Nat.one_pos)

/-- Ranks rise with the share. -/
theorem rank_mono (n : ℕ) {p q : F} (h : p ≤ q) : rank n p ≤ rank n q :=
  min_le_min_right _
    (Int.toNat_le_toNat (Int.floor_mono (mul_le_mul_of_nonneg_left h n.cast_nonneg)))

omit [LinearOrder K] [IsStrictOrderedRing F] in
/-- A percentile is the value at its rank. -/
theorem percentile_eq {xs : List K} (hne : xs ≠ []) (p : F) :
    percentile xs p = xs.get ⟨rank xs.length p, rank_lt (List.length_pos_of_ne_nil hne) p⟩ := by
  rw [percentile, List.getD_eq_getElem?_getD, List.getElem?_eq_getElem
    (rank_lt (List.length_pos_of_ne_nil hne) p), Option.getD_some]
  rfl

omit [IsStrictOrderedRing F] in
/-- A percentile is below a bound if more values than its rank are. -/
theorem percentile_lt_iff {xs : List K} (hxs : xs.Pairwise fun a b => a ≤ b) (hne : xs ≠ [])
    (p : F) {c : K} : percentile xs p < c ↔ rank xs.length p < below c xs := by
  rw [percentile_eq hne]
  exact getElem_lt_iff hxs _

omit [IsStrictOrderedRing F] in
/-- The values up to the rank are at most the percentile. -/
theorem rank_lt_atMost {xs : List K} (hxs : xs.Pairwise fun a b => a ≤ b) (hne : xs ≠ [])
    (p : F) : rank xs.length p < xs.countP fun x => decide (x ≤ percentile xs p) := by
  have hdown : ∀ a b : K, a ≤ b → decide (b ≤ percentile xs p) = true →
      decide (a ≤ percentile xs p) = true :=
    fun a b hab hb => decide_eq_true (hab.trans (of_decide_eq_true hb))
  refine (getElem_iff hxs hdown (rank_lt (List.length_pos_of_ne_nil hne) p)).mp ?_
  exact decide_eq_true (percentile_eq hne p).ge

/-- Percentiles rise with the rank. -/
theorem percentile_mono {xs : List K} (hxs : xs.Pairwise fun a b => a ≤ b) (hne : xs ≠ [])
    {p q : F} (h : p ≤ q) : percentile xs p ≤ percentile xs q := by
  by_contra hlt
  rw [not_le] at hlt
  have hq := (percentile_lt_iff hxs hne q).mp hlt
  exact absurd ((percentile_lt_iff hxs hne p).mpr ((rank_mono _ h).trans_lt hq)) (lt_irrefl _)

end Percentile

end Percentiles
end Karsa
