import Mathlib.Algebra.BigOperators.Intervals
import Mathlib.Algebra.Order.Group.Unbundled.Basic
import Mathlib.Tactic.Abel

/-!
# Foundations - Histograms

A range is cut into cells by ascending edges.  The cell of a value is found by counting the
edges up to it, and an amount that is spread over an interval gives every cell the part of the
interval that lies in it.

Main results:

- Theorems `edge_cellOf_le`, `le_edge_cellOf_succ`: a value lies in its cell.
- Theorem `total_foldl_addAt`: what additions to the cells make of the total.
- Theorem `sum_overlap`: the overlaps of an interval with the cells from that of its lower end
  to that of its upper end add up to its length.
-/

namespace Karsa

open Finset

/-! ## Cells -/

section Cells

variable {K : Type*} [LinearOrder K] {edge : ℕ → K} {n : ℕ} {x y : K}

/-- How many of the first edges are not right of a value. -/
def rightOf (edge : ℕ → K) (n : ℕ) (x : K) : ℕ :=
  (List.range n).countP fun k => edge k ≤ x

/-- The cell of a value, the first or the last one for values outside. -/
def cellOf (edge : ℕ → K) (n : ℕ) (x : K) : ℕ :=
  min (rightOf edge (n + 1) x - 1) (n - 1)

theorem rightOf_succ (edge : ℕ → K) (n : ℕ) (x : K) :
    rightOf edge (n + 1) x = rightOf edge n x + if edge n ≤ x then 1 else 0 := by
  unfold rightOf
  rw [List.range_succ, List.countP_append, List.countP_singleton]
  simp

theorem rightOf_le (edge : ℕ → K) (n : ℕ) (x : K) : rightOf edge n x ≤ n := by
  simpa [rightOf] using List.countP_le_length (p := fun k => edge k ≤ x) (l := List.range n)

/-- All edges up to one that is not right of the value are counted. -/
theorem rightOf_eq_self (hedge : Monotone edge) (h : edge n ≤ x) : rightOf edge n x = n := by
  induction n with
  | zero => rfl
  | succ n ih =>
      have hlast : edge n ≤ x := (hedge (Nat.le_succ n)).trans h
      rw [rightOf_succ, if_pos hlast, ih hlast]

/-- The edges that are counted are those not right of the value. -/
theorem lt_rightOf_iff (hedge : Monotone edge) {k : ℕ} (hk : k < n) :
    k < rightOf edge n x ↔ edge k ≤ x := by
  induction n with
  | zero => exact absurd hk (Nat.not_lt_zero k)
  | succ n ih =>
      rw [rightOf_succ]
      by_cases hlast : edge n ≤ x
      · rw [rightOf_eq_self hedge hlast, if_pos hlast]
        exact iff_of_true hk ((hedge (Nat.le_of_lt_succ hk)).trans hlast)
      · rw [if_neg hlast, Nat.add_zero]
        rcases Nat.lt_succ_iff_lt_or_eq.mp hk with hlt | heq
        · exact ih hlt
        · rw [heq]
          exact iff_of_false (rightOf_le edge n x).not_gt hlast

theorem cellOf_lt (hn : 0 < n) (x : K) : cellOf edge n x < n := by
  unfold cellOf
  omega

/-- Greater values are in the same cell or behind it. -/
theorem cellOf_mono (hxy : x ≤ y) : cellOf edge n x ≤ cellOf edge n y := by
  have hcount : rightOf edge (n + 1) x ≤ rightOf edge (n + 1) y := by
    refine List.countP_mono_left fun k _ hk => ?_
    exact decide_eq_true ((of_decide_eq_true hk).trans hxy)
  unfold cellOf
  omega

/-- A value is not left of its cell. -/
theorem edge_cellOf_le (hedge : Monotone edge) (hx : edge 0 ≤ x) :
    edge (cellOf edge n x) ≤ x := by
  have hfirst : 0 < rightOf edge (n + 1) x := (lt_rightOf_iff hedge (Nat.succ_pos n)).mpr hx
  have hcount := rightOf_le edge (n + 1) x
  have hcell : cellOf edge n x < rightOf edge (n + 1) x := by
    unfold cellOf
    omega
  exact (lt_rightOf_iff hedge (hcell.trans_le hcount)).mp hcell

/-- A value is not right of its cell. -/
theorem le_edge_cellOf_succ (hedge : Monotone edge) (hn : 0 < n) (hx : x ≤ edge n) :
    x ≤ edge (cellOf edge n x + 1) := by
  rcases le_total n (cellOf edge n x + 1) with hlast | hinner
  · exact hx.trans (hedge hlast)
  · have hcell : rightOf edge (n + 1) x ≤ cellOf edge n x + 1 ∨ cellOf edge n x + 1 = n := by
      unfold cellOf at hinner ⊢
      omega
    rcases hcell with hcount | heq
    · by_contra hlt
      have hcounted := (lt_rightOf_iff hedge (Nat.lt_succ_of_le hinner)).mpr (not_le.mp hlt).le
      exact hcounted.not_ge hcount
    · rw [heq]
      exact hx

end Cells

/-! ## Additions -/

section Additions

variable {K : Type*} [AddCommGroup K] {n : ℕ}

/-- Add to one cell. -/
def addAt (profile : ℕ → K) (b : ℕ) (x : K) : ℕ → K :=
  Function.update profile b (profile b + x)

/-- The amounts of all cells. -/
def total (profile : ℕ → K) (n : ℕ) : K :=
  ∑ b ∈ range n, profile b

@[simp] theorem addAt_zero (profile : ℕ → K) (b : ℕ) : addAt profile b 0 = profile := by
  unfold addAt
  rw [add_zero, Function.update_eq_self]

/-- One addition. -/
theorem total_addAt {b : ℕ} (hb : b < n) (profile : ℕ → K) (x : K) :
    total (addAt profile b x) n = total profile n + x := by
  have hmem : b ∈ range n := mem_range.mpr hb
  unfold total addAt
  rw [sum_update_of_mem hmem, sdiff_singleton_eq_erase, ← add_sum_erase _ _ hmem]
  abel

/-- Additions to several cells. -/
theorem total_foldl_addAt {bs : List ℕ} (hbs : ∀ b ∈ bs, b < n) (share : ℕ → K)
    (profile : ℕ → K) :
    total (bs.foldl (fun profile b => addAt profile b (share b)) profile) n =
      total profile n + (bs.map share).sum := by
  induction bs generalizing profile with
  | nil => simp
  | cons b bs ih =>
      rw [List.foldl_cons, ih fun b' hb' => hbs b' (List.mem_cons_of_mem b hb'),
        total_addAt (hbs b List.mem_cons_self), List.map_cons, List.sum_cons, add_assoc]

/-- Cells stay nonnegative. -/
theorem addAt_nonneg [PartialOrder K] [IsOrderedAddMonoid K] {profile : ℕ → K}
    (h : ∀ b, 0 ≤ profile b) {x : K} (hx : 0 ≤ x) (b b' : ℕ) : 0 ≤ addAt profile b x b' := by
  unfold addAt
  by_cases hb : b' = b
  · rw [hb, Function.update_self]
    exact add_nonneg (h b) hx
  · rw [Function.update_of_ne hb]
    exact h b'

/-- Cells stay nonnegative under several additions. -/
theorem foldl_addAt_nonneg [PartialOrder K] [IsOrderedAddMonoid K] {profile share : ℕ → K}
    (h : ∀ b, 0 ≤ profile b) (hshare : ∀ b, 0 ≤ share b) (bs : List ℕ) (b' : ℕ) :
    0 ≤ bs.foldl (fun profile b => addAt profile b (share b)) profile b' := by
  induction bs generalizing profile with
  | nil => exact h b'
  | cons b bs ih =>
      rw [List.foldl_cons]
      exact ih (addAt_nonneg h (hshare b) b)

end Additions

/-! ## Overlaps -/

section Overlaps

variable {K : Type*} [AddCommGroup K] [LinearOrder K] {edge : ℕ → K} {n : ℕ} {low high : K}

/-- The length that two intervals have in common. -/
def overlap (low high low' high' : K) : K :=
  if max low low' < min high high' then min high high' - max low low' else 0

/-- The place of a value in an interval. -/
def place (low high x : K) : K :=
  max low (min high x)

theorem overlap_nonneg [IsOrderedAddMonoid K] (low high low' high' : K) :
    0 ≤ overlap low high low' high' := by
  unfold overlap
  split_ifs with h
  · exact sub_nonneg.mpr h.le
  · exact le_rfl

/-- What lies between two values. -/
theorem overlap_eq {low' high' : K} (h : low ≤ high) (h' : low' ≤ high') :
    overlap low high low' high' = place low high high' - place low high low' := by
  unfold overlap place
  rcases le_total low low' with hlow | hlow <;> rcases le_total high high' with hhigh | hhigh
  · rw [max_eq_right hlow, min_eq_left hhigh, max_eq_right h]
    split_ifs with hlt
    · rw [min_eq_right hlt.le, max_eq_right hlow]
    · rw [min_eq_left (not_lt.mp hlt), max_eq_right h, sub_self]
  · rw [max_eq_right hlow, min_eq_right hhigh, max_eq_right (hlow.trans h'),
      min_eq_right (h'.trans hhigh), max_eq_right hlow]
    split_ifs with hlt
    · rfl
    · rw [le_antisymm (not_lt.mp hlt) h', sub_self]
  · rw [max_eq_left hlow, min_eq_left hhigh, max_eq_right h,
      max_eq_left ((min_le_right ..).trans hlow)]
    split_ifs with hlt
    · rfl
    · rw [le_antisymm (not_lt.mp hlt) h, sub_self]
  · rw [max_eq_left hlow, min_eq_right hhigh, max_eq_left ((min_le_right ..).trans hlow)]
    split_ifs with hlt
    · rw [max_eq_right hlt.le]
    · rw [max_eq_left (not_lt.mp hlt), sub_self]

/-- The overlaps with neighbouring cells. -/
theorem sum_overlap_range (hedge : Monotone edge) (h : low ≤ high) (start k : ℕ) :
    ((List.range' start k).map fun b => overlap low high (edge b) (edge (b + 1))).sum =
      place low high (edge (start + k)) - place low high (edge start) := by
  induction k generalizing start with
  | zero => simp
  | succ k ih =>
      rw [List.range'_succ, List.map_cons, List.sum_cons, ih,
        overlap_eq h (hedge (Nat.le_succ start)), Nat.add_right_comm, Nat.add_assoc]
      abel

/-- The overlaps with the cells from the lower end to the upper one make up the interval. -/
theorem sum_overlap (hedge : Monotone edge) (hn : 0 < n) (h : low ≤ high) (hlow : edge 0 ≤ low)
    (hhigh : high ≤ edge n) :
    ((List.range' (cellOf edge n low) (cellOf edge n high + 1 - cellOf edge n low)).map
      fun b => overlap low high (edge b) (edge (b + 1))).sum = high - low := by
  have hcells : cellOf edge n low ≤ cellOf edge n high := cellOf_mono h
  rw [sum_overlap_range hedge h, Nat.add_sub_cancel' (by omega)]
  have hstart := edge_cellOf_le (n := n) hedge hlow
  have hend := le_edge_cellOf_succ hedge hn hhigh
  unfold place
  rw [min_eq_left hend, max_eq_right h, max_eq_left ((min_le_right ..).trans hstart)]

end Overlaps

end Karsa
