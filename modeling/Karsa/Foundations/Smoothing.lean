import Mathlib.Algebra.BigOperators.Group.List.Basic
import Mathlib.Algebra.Field.Basic
import Mathlib.Algebra.Order.BigOperators.Group.List
import Mathlib.Algebra.Order.Field.Basic
import Mathlib.Data.List.Induction
import Mathlib.Data.Nat.Cast.Order.Field
import Mathlib.Tactic.Ring

/-!
# Foundations - Wilder's moving average

The average of a period starts with the mean of the first values and then takes in one value
after the other.  A program may keep the running average in a variable, or fill a table whose
entry for each position is computed from the entry before it; both are folds of one step.

Main results:

- Theorem `wilder_append`: a longer series takes one more step.
- Theorem `wilder_nonneg`: the average of values that are not negative is not negative.
- Theorem `wilderTable_getElem?`: the entries of the table are the averages of the prefixes.
- Theorems `wilderMean_mem`, `wilderMean_eq_zero_iff`: bounds of the average.
- Theorem `wilderSum_nonneg`: the sign of Wilder's running sum, and where it vanishes.
-/

namespace Karsa

variable {K : Type*} [Field K]

/-- Take one more value into the average. -/
def smooth (period : ℕ) (average x : K) : K :=
  (average * (period - 1) + x) / period

/-- Wilder's moving average, zero for a series shorter than the period. -/
def wilder (period : ℕ) (xs : List K) : K :=
  if xs.length < period then 0
  else (xs.drop period).foldl (smooth period) ((xs.take period).sum / period)

/-- Averages of all prefixes of at least one period, one entry per prefix. -/
def wilderTable (period : ℕ) (xs : List K) : List K :=
  (xs.drop period).scanl (smooth period) ((xs.take period).sum / period)

variable {period : ℕ} {xs : List K}

/-- A short series has no average. -/
theorem wilder_of_lt (h : xs.length < period) : wilder period xs = 0 :=
  if_pos h

/-- A series of one period has its mean. -/
theorem wilder_of_eq (h : xs.length = period) : wilder period xs = xs.sum / period := by
  rw [wilder, if_neg (by omega), List.drop_of_length_le h.le, List.take_of_length_le h.le]
  rfl

/-- A longer series takes one more step. -/
theorem wilder_append (h : period ≤ xs.length) (x : K) :
    wilder period (xs ++ [x]) = smooth period (wilder period xs) x := by
  have hlong : ¬ (xs ++ [x]).length < period := by
    rw [List.length_append]
    omega
  rw [wilder, wilder, if_neg hlong, if_neg (by omega), List.drop_append_of_le_length h,
    List.take_append_of_le_length h, List.foldl_append]
  rfl

/-- The entries of the table are the averages of the prefixes. -/
theorem wilderTable_getElem? {i : ℕ} (h : period + i ≤ xs.length) :
    (wilderTable period xs)[i]? = some (wilder period (xs.take (period + i))) := by
  have hlength : (xs.take (period + i)).length = period + i := by
    rw [List.length_take]
    omega
  have htake : (xs.take (period + i)).take period = xs.take period := by
    rw [List.take_take, min_eq_left (by omega)]
  have hdrop : (xs.take (period + i)).drop period = (xs.drop period).take i := by
    rw [List.drop_take, Nat.add_sub_cancel_left]
  rw [wilder, if_neg (by omega), htake, hdrop, wilderTable, List.getElem?_scanl]
  rw [if_pos (by rw [List.length_drop]; omega)]

/-- The table has an entry for each prefix of at least one period. -/
theorem length_wilderTable :
    (wilderTable period xs).length = xs.length - period + 1 := by
  rw [wilderTable, List.length_scanl, List.length_drop]

/-! ## Averages in an ordered field -/

section Ordered

variable [LinearOrder K] [IsStrictOrderedRing K]

/-- The step keeps the sign, from a period of one on. -/
theorem smooth_nonneg (hperiod : 0 < period) {average x : K} (haverage : 0 ≤ average)
    (hx : 0 ≤ x) : 0 ≤ smooth period average x := by
  have hfactor : (0 : K) ≤ period - 1 := by
    rw [sub_nonneg]
    exact_mod_cast hperiod
  exact div_nonneg (add_nonneg (mul_nonneg haverage hfactor) hx) period.cast_nonneg

/-- The average of values that are not negative is not negative. -/
theorem wilder_nonneg (hperiod : 0 < period) (hxs : ∀ x ∈ xs, 0 ≤ x) : 0 ≤ wilder period xs := by
  induction xs using List.reverseRecOn with
  | nil => rw [wilder_of_lt hperiod]
  | append_singleton xs x ih =>
      have hinit : ∀ y ∈ xs, 0 ≤ y := fun y hy => hxs y (List.mem_append_left [x] hy)
      rcases lt_trichotomy (xs ++ [x]).length period with hlt | heq | hgt
      · rw [wilder_of_lt hlt]
      · rw [wilder_of_eq heq]
        exact div_nonneg (List.sum_nonneg hxs) period.cast_nonneg
      · rw [List.length_append, List.length_singleton] at hgt
        rw [wilder_append (by omega)]
        exact smooth_nonneg hperiod (ih hinit) (hxs x (by simp))

end Ordered

/-! ## The average of any series -/

/-- The sum of the first values over the period, with the others taken in: the average of a
series of at least one period. -/
def wilderMean (period : ℕ) (xs : List K) : K :=
  (xs.drop period).foldl (smooth period) ((xs.take period).sum / period)

/-- The average of a series that is long enough. -/
theorem wilder_eq_wilderMean (h : period ≤ xs.length) :
    wilder period xs = wilderMean period xs :=
  if_neg (by omega)

section OrderedMeans

variable [LinearOrder K] [IsStrictOrderedRing K]

/-- Values that are not negative add up to zero only if all of them are zero. -/
theorem sum_eq_zero_iff_of_nonneg (hxs : ∀ x ∈ xs, 0 ≤ x) : xs.sum = 0 ↔ ∀ x ∈ xs, x = 0 :=
  ⟨fun h _ hx => List.all_zero_of_le_zero_le_of_sum_eq_zero hxs h hx, List.sum_eq_zero⟩

/-- The step stays between zero and a bound. -/
theorem foldl_smooth_mem (hperiod : 0 < period) {average bound : K}
    (haverage : 0 ≤ average ∧ average ≤ bound) (hxs : ∀ x ∈ xs, 0 ≤ x ∧ x ≤ bound) :
    0 ≤ xs.foldl (smooth period) average ∧ xs.foldl (smooth period) average ≤ bound := by
  induction xs generalizing average with
  | nil => exact haverage
  | cons x xs ih =>
      rw [List.forall_mem_cons] at hxs
      have hcast : (1 : K) ≤ period := by exact_mod_cast hperiod
      have hnext : smooth period average x ≤ bound := by
        rw [smooth, div_le_iff₀ (zero_lt_one.trans_le hcast)]
        have hscaled : average * (period - 1) ≤ bound * (period - 1) :=
          mul_le_mul_of_nonneg_right haverage.2 (sub_nonneg.mpr hcast)
        calc average * (period - 1) + x ≤ bound * (period - 1) + bound := add_le_add hscaled hxs.1.2
          _ = bound * period := by ring
      exact ih ⟨smooth_nonneg hperiod haverage.1 hxs.1.1, hnext⟩ hxs.2

/-- The average lies between the bounds of its values. -/
theorem wilderMean_mem (hperiod : 0 < period) {bound : K} (hbound : 0 ≤ bound)
    (hxs : ∀ x ∈ xs, 0 ≤ x ∧ x ≤ bound) :
    0 ≤ wilderMean period xs ∧ wilderMean period xs ≤ bound := by
  have hcast : (0 : K) < period := by exact_mod_cast hperiod
  have hfront : ∀ x ∈ xs.take period, 0 ≤ x ∧ x ≤ bound := fun x hx =>
    hxs x (List.mem_of_mem_take hx)
  have hsum : (xs.take period).sum ≤ bound * period := by
    calc (xs.take period).sum ≤ (xs.take period).length • bound :=
          List.sum_le_card_nsmul _ _ fun x hx => (hfront x hx).2
      _ ≤ period • bound := nsmul_le_nsmul_left hbound (List.length_take_le _ _)
      _ = bound * period := by rw [nsmul_eq_mul, mul_comm]
  refine foldl_smooth_mem hperiod ⟨?_, ?_⟩ fun x hx => hxs x (List.mem_of_mem_drop hx)
  · exact div_nonneg (List.sum_nonneg fun x hx => (hfront x hx).1) hcast.le
  · rwa [div_le_iff₀ hcast]

/-- Steps keep the sign of an average. -/
theorem foldl_smooth_nonneg (hperiod : 0 < period) {average : K} (haverage : 0 ≤ average)
    (hxs : ∀ x ∈ xs, 0 ≤ x) : 0 ≤ xs.foldl (smooth period) average := by
  induction xs generalizing average with
  | nil => exact haverage
  | cons x xs ih =>
      rw [List.forall_mem_cons] at hxs
      exact ih (smooth_nonneg hperiod haverage hxs.1) hxs.2

/-- Steps from an average that is not negative end at zero only if all values are zero. -/
theorem foldl_smooth_eq_zero_iff (hperiod : 1 < period) {average : K} (haverage : 0 ≤ average)
    (hxs : ∀ x ∈ xs, 0 ≤ x) :
    xs.foldl (smooth period) average = 0 ↔ average = 0 ∧ ∀ x ∈ xs, x = 0 := by
  induction xs generalizing average with
  | nil => simp
  | cons x xs ih =>
      rw [List.forall_mem_cons] at hxs
      have hcast : (0 : K) < period - 1 := by
        rw [sub_pos]
        exact_mod_cast hperiod
      have hzero : smooth period average x = 0 ↔ average = 0 ∧ x = 0 := by
        rw [smooth, div_eq_zero_iff, or_iff_left (by exact_mod_cast (by omega : period ≠ 0)),
          add_eq_zero_iff_of_nonneg (mul_nonneg haverage hcast.le) hxs.1, mul_eq_zero,
          or_iff_left hcast.ne']
      rw [List.foldl_cons, ih (smooth_nonneg (by omega) haverage hxs.1) hxs.2, hzero, and_assoc,
        List.forall_mem_cons]

/-- What is added to an average fades with every step. -/
theorem foldl_smooth_add (average change : K) :
    xs.foldl (smooth period) (average + change) =
      xs.foldl (smooth period) average + ((period - 1) / period) ^ xs.length * change := by
  induction xs generalizing average change with
  | nil => simp
  | cons x xs ih =>
      have hnext : smooth period (average + change) x =
          smooth period average x + (period - 1) / period * change := by
        simp only [smooth]
        ring
      rw [List.foldl_cons, List.foldl_cons, hnext, ih, List.length_cons, pow_succ, mul_assoc]

/-- The average of values that are not negative is zero only if all of them are. -/
theorem wilderMean_eq_zero_iff (hperiod : 1 < period) (hxs : ∀ x ∈ xs, 0 ≤ x) :
    wilderMean period xs = 0 ↔ ∀ x ∈ xs, x = 0 := by
  have hfront : ∀ x ∈ xs.take period, 0 ≤ x := fun x hx => hxs x (List.mem_of_mem_take hx)
  have hrest : ∀ x ∈ xs.drop period, 0 ≤ x := fun x hx => hxs x (List.mem_of_mem_drop hx)
  have hseed : 0 ≤ (xs.take period).sum / (period : K) :=
    div_nonneg (List.sum_nonneg hfront) period.cast_nonneg
  rw [wilderMean, foldl_smooth_eq_zero_iff hperiod hseed hrest, div_eq_zero_iff,
    or_iff_left (by exact_mod_cast (by omega : period ≠ 0)), sum_eq_zero_iff_of_nonneg hfront,
    ← List.forall_mem_append, List.take_append_drop]

end OrderedMeans

/-! ## Running sums -/

/-- Take one more value into a running sum. -/
def accumulate (period : ℕ) (total x : K) : K :=
  total - total / period + x

/-- Wilder's running sum: the first values are added, and from then on a sum loses one part in
`period` before it takes in a value. -/
def wilderSum (period : ℕ) (xs : List K) : K :=
  (xs.drop period).foldl (accumulate period) (xs.take period).sum

/-- Running sums of differences. -/
theorem wilderSum_map_sub {α : Type*} (f g : α → K) (l : List α) :
    wilderSum period (l.map fun a => f a - g a) =
      wilderSum period (l.map f) - wilderSum period (l.map g) := by
  have hfold : ∀ (rest : List α) (x y : K),
      (rest.map fun a => f a - g a).foldl (accumulate period) (x - y) =
        (rest.map f).foldl (accumulate period) x - (rest.map g).foldl (accumulate period) y := by
    intro rest
    induction rest with
    | nil => exact fun _ _ => rfl
    | cons a rest ih =>
        intro x y
        rw [List.map_cons, List.map_cons, List.map_cons, List.foldl_cons, List.foldl_cons,
          List.foldl_cons, ← ih]
        congr 1
        simp only [accumulate]
        ring
  have hsum : ∀ front : List α,
      (front.map fun a => f a - g a).sum = (front.map f).sum - (front.map g).sum := by
    intro front
    induction front with
    | nil => simp
    | cons a front ih =>
        rw [List.map_cons, List.map_cons, List.map_cons, List.sum_cons, List.sum_cons,
          List.sum_cons, ih]
        ring
  simp only [wilderSum, ← List.map_take, ← List.map_drop]
  rw [hsum, hfold]

section OrderedSums

variable [LinearOrder K] [IsStrictOrderedRing K]

/-- Taking values in keeps a sum that is not negative, and it is zero only if nothing came in. -/
theorem foldl_accumulate_nonneg (hperiod : 1 < period) {total : K} (htotal : 0 ≤ total)
    (hxs : ∀ x ∈ xs, 0 ≤ x) :
    0 ≤ xs.foldl (accumulate period) total ∧
      (xs.foldl (accumulate period) total = 0 ↔ total = 0 ∧ ∀ x ∈ xs, x = 0) := by
  induction xs generalizing total with
  | nil => simpa using htotal
  | cons x xs ih =>
      rw [List.forall_mem_cons] at hxs
      have hcast : (1 : K) < period := by exact_mod_cast hperiod
      have hkeep : total - total / period = total * (1 - 1 / period) := by ring
      have hfactor : (0 : K) < 1 - 1 / period := by
        rw [sub_pos, div_lt_one (zero_lt_one.trans hcast)]
        exact hcast
      have hrest : 0 ≤ total * (1 - 1 / period) := mul_nonneg htotal hfactor.le
      have hnext : 0 ≤ accumulate period total x := by
        rw [accumulate, hkeep]
        exact add_nonneg hrest hxs.1
      have hzero : accumulate period total x = 0 ↔ total = 0 ∧ x = 0 := by
        rw [accumulate, hkeep, add_eq_zero_iff_of_nonneg hrest hxs.1, mul_eq_zero,
          or_iff_left hfactor.ne']
      rw [List.foldl_cons, List.forall_mem_cons, ← and_assoc, ← hzero]
      exact ih hnext hxs.2

/-- A running sum is not negative, and zero only if all values are. -/
theorem wilderSum_nonneg (hperiod : 1 < period) (hxs : ∀ x ∈ xs, 0 ≤ x) :
    0 ≤ wilderSum period xs ∧ (wilderSum period xs = 0 ↔ ∀ x ∈ xs, x = 0) := by
  have hfront : ∀ x ∈ xs.take period, 0 ≤ x := fun x hx => hxs x (List.mem_of_mem_take hx)
  have hrest : ∀ x ∈ xs.drop period, 0 ≤ x := fun x hx => hxs x (List.mem_of_mem_drop hx)
  have hfold := foldl_accumulate_nonneg hperiod (List.sum_nonneg hfront) hrest
  refine ⟨hfold.1, hfold.2.trans ?_⟩
  rw [sum_eq_zero_iff_of_nonneg hfront, ← List.forall_mem_append, List.take_append_drop]

end OrderedSums

end Karsa
