import Mathlib.Algebra.BigOperators.Group.Finset.Basic
import Mathlib.Algebra.BigOperators.Intervals
import Mathlib.Algebra.Order.Floor.Ring
import Mathlib.Data.Rat.Floor

/-!
# Foundations - Charges that fall due after a period

A running total is looked at once per unit of time.  When a period has passed since the last
charge, another one is made and its time is noted.

Main results:

- Theorem `accrued_eq`: charges are made at the multiples of the period.
- Theorem `onceEach_charge_iff`: a look at the total keeps every due period charged once exactly
  where it charges the last new one and no other is due.
- Theorem `OnceEach.sum_eq`: the total is then the sum of all the charges.
-/

namespace Karsa

variable {K : Type*} [AddCommMonoid K]

/-- A total and the time of the last charge. -/
structure Accrual (K : Type*) where
  last : ℕ
  total : K
deriving Repr, DecidableEq

/-- Look at the total at time `i`. -/
def Accrual.tick (period : ℕ) (fee : ℕ → K) (a : Accrual K) (i : ℕ) : Accrual K :=
  if period ≤ i - a.last then ⟨i, a.total + fee i⟩ else a

/-- The total after the first `m` units of time. -/
def accrued (period : ℕ) (fee : ℕ → K) : ℕ → Accrual K
  | 0 => ⟨0, 0⟩
  | m + 1 => (accrued period fee m).tick period fee (m + 1)

/-- Charges are made at the multiples of the period. -/
theorem accrued_eq {period : ℕ} (hperiod : 0 < period) (fee : ℕ → K) (m : ℕ) :
    accrued period fee m =
      ⟨period * (m / period), ∑ k ∈ Finset.range (m / period), fee (period * (k + 1))⟩ := by
  induction m with
  | zero => simp [accrued]
  | succ m ih =>
      have hdiv := Nat.div_add_mod m period
      have hmod := Nat.mod_lt m hperiod
      rw [accrued, ih, Accrual.tick]
      by_cases hdvd : period ∣ m + 1
      · have hsucc : (m + 1) / period = m / period + 1 := Nat.succ_div_of_dvd hdvd
        have hmul : period * (m / period + 1) = m + 1 := by
          rw [← hsucc, Nat.mul_div_cancel' hdvd]
        rw [mul_add, mul_one] at hmul
        rw [if_pos (by dsimp only; omega), hsucc, Finset.sum_range_succ, mul_add, mul_one, hmul]
      · have hsucc : (m + 1) / period = m / period := Nat.succ_div_of_not_dvd hdvd
        have hshort : m % period + 1 ≠ period := by
          intro hfull
          refine hdvd ⟨m / period + 1, ?_⟩
          rw [mul_add, mul_one]
          omega
        rw [if_neg (by dsimp only; omega), hsucc]

/-! ## Charges for periods on a grid -/

/-- Whole periods that have passed since a moment. -/
def elapsedPeriods (since period t : ℚ) : ℕ :=
  ⌊(t - since) / period⌋.toNat

/-- A period has passed by the time its end is reached. -/
theorem le_elapsedPeriods {since period t : ℚ} (hperiod : 0 < period) (k : ℕ)
    (h : since + period * k ≤ t) : k ≤ elapsedPeriods since period t := by
  have hfloor : (k : ℤ) ≤ ⌊(t - since) / period⌋ := by
    rw [Int.le_floor, Int.cast_natCast, le_div_iff₀ hperiod]
    linarith
  unfold elapsedPeriods
  omega

/-- The end of every period that has passed is reached. -/
theorem elapsedPeriods_le {since period t : ℚ} (hperiod : 0 < period) (ht : since ≤ t) :
    since + period * elapsedPeriods since period t ≤ t := by
  have hratio : 0 ≤ (t - since) / period := div_nonneg (sub_nonneg.mpr ht) hperiod.le
  have hcast : ((elapsedPeriods since period t : ℕ) : ℤ) = ⌊(t - since) / period⌋ :=
    Int.toNat_of_nonneg (Int.floor_nonneg.mpr hratio)
  have hfloor := Int.floor_le ((t - since) / period)
  rw [← hcast, Int.cast_natCast, le_div_iff₀ hperiod] at hfloor
  linarith

/-- More of them pass with time. -/
theorem elapsedPeriods_mono {since period t t' : ℚ} (hperiod : 0 < period) (h : t ≤ t') :
    elapsedPeriods since period t ≤ elapsedPeriods since period t' := by
  apply Int.toNat_le_toNat
  apply Int.floor_le_floor
  gcongr

/-- Every due period up to the last one seen has been charged exactly once, and no other. -/
def OnceEach (due : ℕ → Prop) (charges : List ℕ) (seen : ℕ) : Prop :=
  ∀ k, due k → charges.count k = if 1 ≤ k ∧ k ≤ seen then 1 else 0

/-- Nothing is charged before a period has passed. -/
theorem onceEach_nil (due : ℕ → Prop) : OnceEach due [] 0 := by
  intro k _
  rw [List.count_nil, if_neg (by omega)]

/-- Looking at the total after `n` periods keeps this exactly where the last period is the only
new one that is due, and is charged. -/
theorem onceEach_charge_iff {due : ℕ → Prop} {charges : List ℕ} {seen n : ℕ} {charged : Prop}
    [Decidable charged] (hseen : seen ≤ n) (hfresh : charged → due n ∧ 1 ≤ n ∧ n ∉ charges)
    (h : OnceEach due charges seen) :
    OnceEach due (if charged then charges ++ [n] else charges) n ↔
      ∀ k, seen < k → k ≤ n → due k → k = n ∧ charged := by
  constructor
  · intro hnext k hk hkn hdue
    have hold : charges.count k = 0 := (h k hdue).trans (if_neg (by omega))
    have hnew := (hnext k hdue).trans (if_pos ⟨by omega, hkn⟩)
    by_cases hcharged : charged
    · rw [if_pos hcharged, List.count_append, hold, List.count_singleton] at hnew
      by_cases hlast : n = k
      · exact ⟨hlast.symm, hcharged⟩
      · simp [hlast] at hnew
    · rw [if_neg hcharged, hold] at hnew
      cases hnew
  · intro hcond k hdue
    have hold := h k hdue
    by_cases hcharged : charged
    · rcases hfresh hcharged with ⟨hn, hpos, hnotin⟩
      have hlate : seen < n := by
        by_contra hearly
        have hcount := h n hn
        rw [if_pos (by omega), List.count_eq_zero_of_not_mem hnotin] at hcount
        cases hcount
      rw [if_pos hcharged, List.count_append, hold, List.count_singleton]
      by_cases hlast : n = k
      · subst hlast
        rw [if_neg (by omega), if_pos (by simp), if_pos (by omega)]
      · have hbetween : k ≤ n → k ≤ seen := by
          intro hkn
          by_contra hk
          exact hlast (hcond k (by omega) hkn hdue).1.symm
        simp only [beq_iff_eq, hlast, if_false, add_zero]
        have hiff : (1 ≤ k ∧ k ≤ seen) ↔ (1 ≤ k ∧ k ≤ n) := by omega
        simp only [hiff]
    · have hbetween : k ≤ n → k ≤ seen := by
        intro hkn
        by_contra hk
        exact hcharged (hcond k (by omega) hkn hdue).2
      have hiff : (1 ≤ k ∧ k ≤ seen) ↔ (1 ≤ k ∧ k ≤ n) := by omega
      rw [if_neg hcharged, hold]
      simp only [hiff]

/-- The total is then the sum over all periods seen, where those that are not due are free. -/
theorem OnceEach.sum_eq {due : ℕ → Prop} {charges : List ℕ} {seen : ℕ}
    (h : OnceEach due charges seen) {fee : ℕ → K} (hfree : ∀ k, ¬ due k → fee k = 0) :
    (charges.map fee).sum = ∑ k ∈ Finset.Icc 1 seen, fee k := by
  classical
  rw [Finset.sum_list_map_count]
  have hterm : ∀ k, charges.count k • fee k = if k ∈ Finset.Icc 1 seen then fee k else 0 := by
    intro k
    by_cases hdue : due k
    · rw [h k hdue]
      simp only [Finset.mem_Icc]
      split_ifs
      · rw [one_nsmul]
      · rw [zero_nsmul]
    · rw [hfree k hdue, nsmul_zero, ite_self]
  rw [Finset.sum_congr rfl fun k _ => hterm k, Finset.sum_ite_mem]
  apply Finset.sum_subset Finset.inter_subset_right
  intro k hk hnotin
  have hcount : charges.count k = 0 := by
    apply List.count_eq_zero_of_not_mem
    intro hin
    exact hnotin (Finset.mem_inter.mpr ⟨List.mem_toFinset.mpr hin, hk⟩)
  have hfee := hterm k
  rw [if_pos hk, hcount, zero_nsmul] at hfee
  exact hfee.symm

end Karsa
