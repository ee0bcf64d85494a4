import Karsa.Foundations.Histograms
import Karsa.Foundations.Loops
import Karsa.Foundations.Selection
import Mathlib.Algebra.BigOperators.Ring.List
import Mathlib.Algebra.Order.BigOperators.Group.Finset
import Mathlib.Algebra.Order.Field.Basic
import Mathlib.Data.Rat.Init
import Mathlib.Tactic.Linarith
import Mathlib.Tactic.Ring

/-!
# Technical indicators - Volume profile

`calculate_vpvr` spreads the volume of every candle over price bins, takes the bin of greatest
volume as the point of control, and widens an area around it until the area holds seventy
percent of the volume.

Main results:

- Theorem `total_distribute`: a candle's volume is distributed completely.
- Theorem `Grown.expand`: what one pass of the loop does to the area.
- Theorem `exactProfile`: the profile, the area and the three prices.
-/

namespace Karsa
namespace VolumeProfile

/-! ## The profile -/

/-- The columns of the array that are read. -/
structure Row where
  high : ℚ
  low : ℚ
  volume : ℚ
deriving Repr, DecidableEq

/-- `bin_edges`: `np.linspace(min_price, max_price, bins + 1)`. -/
def binEdge (minPrice maxPrice : ℚ) (bins k : ℕ) : ℚ :=
  minPrice + k * ((maxPrice - minPrice) / bins)

section Profile

variable (edge : ℕ → ℚ) (bins : ℕ)

/-- `bin_centers`. -/
def binCenter (k : ℕ) : ℚ :=
  (edge k + edge (k + 1)) / 2

/-- The candle's volume on the bins that it overlaps. -/
def distribute (profile : ℕ → ℚ) (row : Row) : ℕ → ℚ :=
  if row.high = row.low then addAt profile (cellOf edge bins row.low) row.volume
  else
    let startIdx := cellOf edge bins row.low
    let endIdx := cellOf edge bins row.high
    if startIdx = endIdx then addAt profile startIdx row.volume
    else
      let volPerPrice := row.volume / (row.high - row.low)
      (List.range' startIdx (endIdx + 1 - startIdx)).foldl
        (fun profile b =>
          let overlapLow := max row.low (edge b)
          let overlapHigh := min row.high (edge (b + 1))
          if overlapLow < overlapHigh then
            addAt profile b (volPerPrice * (overlapHigh - overlapLow))
          else profile)
        profile

/-- `profile` behind the loop over the candles. -/
def profileOf (arr : List Row) : ℕ → ℚ :=
  arr.foldl (distribute edge bins) fun _ => 0

end Profile

/-! ## The value area -/

/-- `lower_idx`, `upper_idx` and `va_vol`. -/
structure Area where
  lower : ℕ
  upper : ℕ
  volume : ℚ
deriving Repr, DecidableEq

section ValueArea

variable (profile : ℕ → ℚ) (bins : ℕ)

/-- `poc_idx`: the first bin of greatest volume. -/
def pocIdx : ℕ :=
  ((List.range bins).foldl (keepBest profile) none).getD 0

/-- `va_vol_target`. -/
def target : ℚ :=
  total profile bins * (70 / 100)

/-- The guard of the loop. -/
def Unfilled (a : Area) : Prop :=
  a.volume < target profile bins ∧ (0 < a.lower ∨ a.upper < bins - 1)

instance : DecidablePred (Unfilled profile bins) :=
  fun _ => inferInstanceAs (Decidable (_ ∧ _))

/-- One pass of the loop. -/
def expand (a : Area) : Area :=
  let volLower := if 0 < a.lower then profile (a.lower - 1) else -1
  let volUpper := if a.upper < bins - 1 then profile (a.upper + 1) else -1
  if volUpper < volLower then
    ⟨a.lower - 1, a.upper, a.volume + profile (a.lower - 1)⟩
  else if volLower < volUpper then
    ⟨a.lower, a.upper + 1, a.volume + profile (a.upper + 1)⟩
  else if 0 < a.lower ∧ a.upper < bins - 1 then
    ⟨a.lower - 1, a.upper + 1, a.volume + (profile (a.lower - 1) + profile (a.upper + 1))⟩
  else if 0 < a.lower then
    ⟨a.lower - 1, a.upper, a.volume + profile (a.lower - 1)⟩
  else if a.upper < bins - 1 then
    ⟨a.lower, a.upper + 1, a.volume + profile (a.upper + 1)⟩
  else a

/-- The area before the loop. -/
def pocArea : Area :=
  ⟨pocIdx profile bins, pocIdx profile bins, profile (pocIdx profile bins)⟩

/-- The area behind the loop; the loop makes at most as many passes as there are bins. -/
def valueArea : Area :=
  passes (Unfilled profile bins) (expand profile bins) bins (pocArea profile bins)

end ValueArea

/-- `calculate_vpvr`: point of control, upper and lower end of the value area. -/
def calculateVpvr (arr : List Row) (bins : ℕ) : Option (ℚ × ℚ × ℚ) :=
  if arr.length < 2 then none
  else
    match (arr.map Row.low).min?, (arr.map Row.high).max? with
    | some minPrice, some maxPrice =>
        if minPrice = maxPrice then some (minPrice, minPrice, minPrice)
        else
          let edge := binEdge minPrice maxPrice bins
          let profile := profileOf edge bins arr
          let area := valueArea profile bins
          some (binCenter edge (pocIdx profile bins), binCenter edge area.upper,
            binCenter edge area.lower)
    | _, _ => none

/-! ## Distribution of the volume -/

section Distribution

variable {edge : ℕ → ℚ} {bins : ℕ} {row : Row} {arr : List Row}

/-- A candle between the first edge and the last one. -/
structure Within (edge : ℕ → ℚ) (bins : ℕ) (row : Row) : Prop where
  low_le_high : row.low ≤ row.high
  first_le : edge 0 ≤ row.low
  le_last : row.high ≤ edge bins
  volume_nonneg : 0 ≤ row.volume

/-- The share of a bin in the volume of a candle. -/
def share (edge : ℕ → ℚ) (row : Row) (b : ℕ) : ℚ :=
  row.volume / (row.high - row.low) * overlap row.low row.high (edge b) (edge (b + 1))

/-- The candle over several bins gives each of them its share. -/
theorem distribute_eq_foldl (hne : row.high ≠ row.low)
    (hcells : cellOf edge bins row.low ≠ cellOf edge bins row.high) (profile : ℕ → ℚ) :
    distribute edge bins profile row =
      (List.range' (cellOf edge bins row.low)
        (cellOf edge bins row.high + 1 - cellOf edge bins row.low)).foldl
        (fun profile b => addAt profile b (share edge row b)) profile := by
  unfold distribute
  rw [if_neg hne, if_neg hcells]
  refine List.foldl_ext _ _ _ fun profile b _ => ?_
  unfold share overlap
  dsimp only
  split_ifs
  · rfl
  · rw [mul_zero, addAt_zero]

/-- The shares make up the volume. -/
theorem sum_share (hedge : Monotone edge) (hbins : 0 < bins) (h : Within edge bins row)
    (hne : row.high ≠ row.low) :
    ((List.range' (cellOf edge bins row.low)
      (cellOf edge bins row.high + 1 - cellOf edge bins row.low)).map (share edge row)).sum =
      row.volume := by
  have hoverlaps := sum_overlap hedge hbins h.low_le_high h.first_le h.le_last
  unfold share
  rw [List.sum_map_mul_left, hoverlaps]
  exact div_mul_cancel₀ _ (sub_ne_zero.mpr hne)

/-- A candle's volume is distributed completely. -/
theorem total_distribute (hedge : Monotone edge) (hbins : 0 < bins) (h : Within edge bins row)
    (profile : ℕ → ℚ) :
    total (distribute edge bins profile row) bins = total profile bins + row.volume := by
  have hlow : cellOf edge bins row.low < bins := cellOf_lt hbins row.low
  by_cases hpoint : row.high = row.low
  · unfold distribute
    rw [if_pos hpoint, total_addAt hlow]
  · by_cases hcells : cellOf edge bins row.low = cellOf edge bins row.high
    · unfold distribute
      rw [if_neg hpoint, if_pos hcells, total_addAt hlow]
    · rw [distribute_eq_foldl hpoint hcells, total_foldl_addAt ?_ (share edge row),
        sum_share hedge hbins h hpoint]
      intro b hb
      have hhigh : cellOf edge bins row.high < bins := cellOf_lt hbins row.high
      rw [List.mem_range'_1] at hb
      omega

/-- No bin falls below zero. -/
theorem distribute_nonneg (h : Within edge bins row) {profile : ℕ → ℚ}
    (hprofile : ∀ b, 0 ≤ profile b) (b : ℕ) : 0 ≤ distribute edge bins profile row b := by
  by_cases hpoint : row.high = row.low
  · unfold distribute
    rw [if_pos hpoint]
    exact addAt_nonneg hprofile h.volume_nonneg _ b
  · by_cases hcells : cellOf edge bins row.low = cellOf edge bins row.high
    · unfold distribute
      rw [if_neg hpoint, if_pos hcells]
      exact addAt_nonneg hprofile h.volume_nonneg _ b
    · rw [distribute_eq_foldl hpoint hcells]
      refine foldl_addAt_nonneg hprofile (fun b => ?_) _ b
      have hlength : 0 ≤ row.high - row.low := sub_nonneg.mpr h.low_le_high
      exact mul_nonneg (div_nonneg h.volume_nonneg hlength) (overlap_nonneg ..)

/-- The profile of all candles sums to their volume. -/
theorem total_profileOf (hedge : Monotone edge) (hbins : 0 < bins)
    (h : ∀ row ∈ arr, Within edge bins row) :
    total (profileOf edge bins arr) bins = (arr.map Row.volume).sum := by
  have hfold : ∀ profile, total (arr.foldl (distribute edge bins) profile) bins =
      total profile bins + (arr.map Row.volume).sum := by
    induction arr with
    | nil => intro profile; simp
    | cons row arr ih =>
        intro profile
        rw [List.foldl_cons, ih fun row' hrow' => h row' (List.mem_cons_of_mem row hrow'),
          total_distribute hedge hbins (h row List.mem_cons_self), List.map_cons, List.sum_cons,
          add_assoc]
  unfold profileOf
  rw [hfold]
  simp [total]

/-- No bin of the profile is below zero. -/
theorem profileOf_nonneg (h : ∀ row ∈ arr, Within edge bins row) (b : ℕ) :
    0 ≤ profileOf edge bins arr b := by
  have hfold : ∀ profile : ℕ → ℚ, (∀ b, 0 ≤ profile b) →
      0 ≤ arr.foldl (distribute edge bins) profile b := by
    induction arr with
    | nil => intro profile hprofile; exact hprofile b
    | cons row arr ih =>
        intro profile hprofile
        rw [List.foldl_cons]
        exact ih (fun row' hrow' => h row' (List.mem_cons_of_mem row hrow')) _
          (distribute_nonneg (h row List.mem_cons_self) hprofile)
  exact hfold _ fun _ => le_rfl

end Distribution

/-! ## The point of control and the area around it -/

section Growth

variable {profile : ℕ → ℚ} {bins : ℕ} {a : Area}

/-- The point of control is a bin, and no bin has more volume. -/
theorem pocIdx_spec (hbins : 0 < bins) :
    pocIdx profile bins < bins ∧ ∀ b < bins, profile b ≤ profile (pocIdx profile bins) := by
  have hrange : List.range bins = 0 :: (List.range (bins - 1)).map Nat.succ := by
    rw [← List.range_succ_eq_map, Nat.sub_add_cancel hbins]
  rcases foldl_keepBest_some profile ((List.range (bins - 1)).map Nat.succ) 0 with
    ⟨best, hbest, hmem, hall⟩
  have hpoc : pocIdx profile bins = best := by
    unfold pocIdx
    rw [hrange, List.foldl_cons, keepBest, hbest]
    rfl
  rw [← hrange] at hmem hall
  rw [hpoc]
  exact ⟨List.mem_range.mp hmem, fun b hb => hall b (List.mem_range.mpr hb)⟩

/-- One pass widens the area to the left, to the right or to both sides. -/
theorem expand_cases (hprofile : ∀ b, 0 ≤ profile b) (hroom : 0 < a.lower ∨ a.upper < bins - 1) :
    (0 < a.lower ∧ expand profile bins a =
        ⟨a.lower - 1, a.upper, a.volume + profile (a.lower - 1)⟩) ∨
      (a.upper < bins - 1 ∧ expand profile bins a =
        ⟨a.lower, a.upper + 1, a.volume + profile (a.upper + 1)⟩) ∨
      (0 < a.lower ∧ a.upper < bins - 1 ∧ expand profile bins a =
        ⟨a.lower - 1, a.upper + 1,
          a.volume + (profile (a.lower - 1) + profile (a.upper + 1))⟩) := by
  have hleft := hprofile (a.lower - 1)
  have hright := hprofile (a.upper + 1)
  unfold expand
  by_cases hlower : 0 < a.lower <;> by_cases hupper : a.upper < bins - 1
  · simp only [hlower, hupper, if_true, true_and]
    rcases lt_trichotomy (profile (a.lower - 1)) (profile (a.upper + 1)) with hlt | heq | hgt
    · rw [if_neg hlt.not_gt, if_pos hlt]
      exact Or.inr (Or.inl rfl)
    · rw [if_neg heq.not_gt, if_neg heq.not_lt]
      exact Or.inr (Or.inr rfl)
    · rw [if_pos hgt]
      exact Or.inl rfl
  · simp only [hlower, hupper, if_true, if_false]
    rw [if_pos (by linarith)]
    exact Or.inl ⟨trivial, rfl⟩
  · simp only [hlower, hupper, if_true, if_false]
    rw [if_neg (by linarith), if_pos (by linarith)]
    exact Or.inr (Or.inl ⟨trivial, rfl⟩)
  · exact absurd hroom (not_or.mpr ⟨hlower, hupper⟩)

/-- An area around a bin, with the volume of its bins. -/
structure Grown (profile : ℕ → ℚ) (bins poc : ℕ) (a : Area) : Prop where
  lower_le : a.lower ≤ poc
  le_upper : poc ≤ a.upper
  upper_lt : a.upper < bins
  volume_eq : a.volume = ∑ b ∈ Finset.Ico a.lower (a.upper + 1), profile b

/-- A bin alone. -/
theorem Grown.single {poc : ℕ} (hpoc : poc < bins) :
    Grown profile bins poc ⟨poc, poc, profile poc⟩ :=
  ⟨le_rfl, le_rfl, hpoc, by simp⟩

/-- One bin more on the left. -/
theorem sum_Ico_left {lower upper : ℕ} (h : 0 < lower) (hle : lower ≤ upper) :
    ∑ b ∈ Finset.Ico (lower - 1) (upper + 1), profile b =
      profile (lower - 1) + ∑ b ∈ Finset.Ico lower (upper + 1), profile b := by
  rw [Finset.sum_eq_sum_Ico_succ_bot (by omega), Nat.sub_add_cancel h]

/-- One bin more on the right. -/
theorem sum_Ico_right {lower upper : ℕ} (hle : lower ≤ upper + 1) :
    ∑ b ∈ Finset.Ico lower (upper + 1 + 1), profile b =
      ∑ b ∈ Finset.Ico lower (upper + 1), profile b + profile (upper + 1) :=
  Finset.sum_Ico_succ_top hle _

/-- One pass keeps the volume that of the bins and makes the area wider. -/
theorem Grown.expand {poc : ℕ} (hprofile : ∀ b, 0 ≤ profile b) (h : Grown profile bins poc a)
    (hroom : 0 < a.lower ∨ a.upper < bins - 1) :
    Grown profile bins poc (VolumeProfile.expand profile bins a) ∧
      a.upper - a.lower < (VolumeProfile.expand profile bins a).upper -
        (VolumeProfile.expand profile bins a).lower := by
  have hle : a.lower ≤ a.upper := h.lower_le.trans h.le_upper
  have hlower := h.lower_le
  have hupper := h.le_upper
  have hlt := h.upper_lt
  rcases expand_cases hprofile hroom with ⟨hleft, heq⟩ | ⟨hright, heq⟩ | ⟨hleft, hright, heq⟩
  · rw [heq]
    refine ⟨⟨?_, h.le_upper, h.upper_lt, ?_⟩, ?_⟩
    · dsimp only; omega
    · rw [h.volume_eq, sum_Ico_left hleft hle, add_comm]
    · dsimp only; omega
  · rw [heq]
    refine ⟨⟨h.lower_le, ?_, ?_, ?_⟩, ?_⟩
    · dsimp only; omega
    · dsimp only; omega
    · rw [h.volume_eq]
      exact (sum_Ico_right (by omega)).symm
    · dsimp only; omega
  · rw [heq]
    refine ⟨⟨?_, ?_, ?_, ?_⟩, ?_⟩
    · dsimp only; omega
    · dsimp only; omega
    · dsimp only; omega
    · have hboth : ∑ b ∈ Finset.Ico (a.lower - 1) (a.upper + 1 + 1), profile b = _ :=
        sum_Ico_right (by omega)
      rw [h.volume_eq]
      refine Eq.trans ?_ hboth.symm
      rw [sum_Ico_left hleft hle]
      ring
    · dsimp only; omega

/-- The width of an area in the range. -/
def width (bins : ℕ) (a : Area) : ℕ :=
  min a.upper (bins - 1) - a.lower

/-- Every area that the loop passes through is grown from the point of control. -/
theorem grown_passes (hprofile : ∀ b, 0 ≤ profile b) (hbins : 0 < bins) (n : ℕ) :
    Grown profile bins (pocIdx profile bins)
      (passes (Unfilled profile bins) (expand profile bins) n (pocArea profile bins)) :=
  passes_invariant (fun _ hguard h => (h.expand hprofile hguard.2).1)
    (Grown.single (pocIdx_spec hbins).1) n

/-- The loop is left after at most as many passes as there are bins. -/
theorem valueArea_filled (hprofile : ∀ b, 0 ≤ profile b) (hbins : 0 < bins) :
    ¬ Unfilled profile bins (valueArea profile bins) := by
  have hbound : ∀ a, Unfilled profile bins a → width bins a < bins := by
    intro a _
    unfold width
    omega
  have hadvances : EveryPass (Unfilled profile bins) (expand profile bins)
      (fun a => width bins a < width bins (expand profile bins a)) (pocArea profile bins) := by
    intro n hguard
    have hgrown := grown_passes hprofile hbins n
    have hwider := hgrown.expand hprofile hguard.2
    have hlt := hgrown.upper_lt
    have hlt' := hwider.1.upper_lt
    have hstep := hwider.2
    unfold width
    omega
  exact halted_of_advances hbound hadvances

/-- The area behind the loop has its part of the volume. -/
theorem target_le_valueArea (hprofile : ∀ b, 0 ≤ profile b) (hbins : 0 < bins) :
    target profile bins ≤ (valueArea profile bins).volume := by
  have hgrown : Grown profile bins (pocIdx profile bins) (valueArea profile bins) :=
    grown_passes hprofile hbins bins
  rcases not_and_or.mp (valueArea_filled hprofile hbins) with hfilled | hfull
  · exact not_lt.mp hfilled
  · have hlower : (valueArea profile bins).lower = 0 := by omega
    have hupper : (valueArea profile bins).upper + 1 = bins := by
      have hlt := hgrown.upper_lt
      omega
    rw [hgrown.volume_eq, hlower, hupper, Nat.Ico_zero_eq_range]
    have htotal : 0 ≤ total profile bins := Finset.sum_nonneg fun b _ => hprofile b
    change total profile bins * (70 / 100) ≤ total profile bins
    linarith

end Growth

/-! ## The whole computation -/

section Whole

variable {arr : List Row} {bins : ℕ} {minPrice maxPrice : ℚ}

/-- The edges ascend. -/
theorem binEdge_monotone (h : minPrice ≤ maxPrice) (bins : ℕ) :
    Monotone (binEdge minPrice maxPrice bins) := by
  intro j k hjk
  have hstep : 0 ≤ (maxPrice - minPrice) / bins :=
    div_nonneg (sub_nonneg.mpr h) (Nat.cast_nonneg bins)
  unfold binEdge
  gcongr

theorem binEdge_zero (minPrice maxPrice : ℚ) (bins : ℕ) :
    binEdge minPrice maxPrice bins 0 = minPrice := by
  simp [binEdge]

theorem binEdge_bins (hbins : 0 < bins) : binEdge minPrice maxPrice bins bins = maxPrice := by
  have hne : (bins : ℚ) ≠ 0 := Nat.cast_ne_zero.mpr hbins.ne'
  unfold binEdge
  rw [mul_div_cancel₀ _ hne]
  ring

/-- Centres ascend with the edges. -/
theorem binCenter_monotone {edge : ℕ → ℚ} (hedge : Monotone edge) : Monotone (binCenter edge) := by
  intro j k hjk
  have hleft := hedge hjk
  have hright := hedge (Nat.succ_le_succ hjk)
  unfold binCenter
  linarith

/-- What `calculate_vpvr` is for: every volume is distributed, the loop ends, and its result is
the centre of a bin of greatest volume between the centres of the outer bins of an area that
holds seventy percent. -/
structure ExactProfile (arr : List Row) (bins : ℕ) (edge : ℕ → ℚ) : Prop where
  distributed : ∀ row ∈ arr, ∀ profile,
    total (distribute edge bins profile row) bins = total profile bins + row.volume
  total_eq : total (profileOf edge bins arr) bins = (arr.map Row.volume).sum
  nonneg : ∀ b, 0 ≤ profileOf edge bins arr b
  halts : Halts (Unfilled (profileOf edge bins arr) bins) (expand (profileOf edge bins arr) bins)
    (pocArea (profileOf edge bins arr) bins)
  left : ¬ Unfilled (profileOf edge bins arr) bins (valueArea (profileOf edge bins arr) bins)
  result : ∃ poc lower upper, calculateVpvr arr bins =
      some (binCenter edge poc, binCenter edge upper, binCenter edge lower) ∧
    (poc < bins ∧ ∀ b < bins, profileOf edge bins arr b ≤ profileOf edge bins arr poc) ∧
    (lower ≤ poc ∧ poc ≤ upper ∧ upper < bins) ∧
    (binCenter edge lower ≤ binCenter edge poc ∧ binCenter edge poc ≤ binCenter edge upper) ∧
    (arr.map Row.volume).sum * (70 / 100) ≤
      ∑ b ∈ Finset.Ico lower (upper + 1), profileOf edge bins arr b

/-- Candles lie between the least low and the greatest high. -/
theorem within_of_mem (hbins : 0 < bins) (hmin : (arr.map Row.low).min? = some minPrice)
    (hmax : (arr.map Row.high).max? = some maxPrice)
    (hrows : ∀ row ∈ arr, row.low ≤ row.high ∧ 0 ≤ row.volume) :
    ∀ row ∈ arr, Within (binEdge minPrice maxPrice bins) bins row := by
  intro row hrow
  refine ⟨(hrows row hrow).1, ?_, ?_, (hrows row hrow).2⟩
  · rw [binEdge_zero]
    exact (List.min?_eq_some_iff.mp hmin).2 _ (List.mem_map_of_mem hrow)
  · rw [binEdge_bins hbins]
    exact (List.max?_eq_some_iff.mp hmax).2 _ (List.mem_map_of_mem hrow)

/-- The least low is below the greatest high unless all candles are at one price. -/
theorem minPrice_lt_maxPrice (hmin : (arr.map Row.low).min? = some minPrice)
    (hmax : (arr.map Row.high).max? = some maxPrice)
    (hrows : ∀ row ∈ arr, row.low ≤ row.high ∧ 0 ≤ row.volume)
    (hprices : ¬ ∃ price, ∀ row ∈ arr, row.low = price ∧ row.high = price) :
    minPrice < maxPrice := by
  have hlow : ∀ row ∈ arr, minPrice ≤ row.low := fun row hrow =>
    (List.min?_eq_some_iff.mp hmin).2 _ (List.mem_map_of_mem hrow)
  have hhigh : ∀ row ∈ arr, row.high ≤ maxPrice := fun row hrow =>
    (List.max?_eq_some_iff.mp hmax).2 _ (List.mem_map_of_mem hrow)
  by_contra hle
  apply hprices
  refine ⟨minPrice, fun row hrow => ?_⟩
  have hbelow := hlow row hrow
  have habove := hhigh row hrow
  have horder := (hrows row hrow).1
  exact ⟨by linarith, by linarith⟩

/-- The result of `calculate_vpvr` for candles between two prices. -/
theorem calculateVpvr_eq (hlength : 2 ≤ arr.length)
    (hmin : (arr.map Row.low).min? = some minPrice) (hmax : (arr.map Row.high).max? = some maxPrice)
    (hne : minPrice ≠ maxPrice) :
    calculateVpvr arr bins =
      let edge := binEdge minPrice maxPrice bins
      let profile := profileOf edge bins arr
      some (binCenter edge (pocIdx profile bins), binCenter edge (valueArea profile bins).upper,
        binCenter edge (valueArea profile bins).lower) := by
  unfold calculateVpvr
  rw [if_neg (by omega), hmin, hmax]
  exact if_neg hne

/-- For candles that are not all at one price, the volume profile is exact. -/
theorem exactProfile (hlength : 2 ≤ arr.length)
    (hrows : ∀ row ∈ arr, row.low ≤ row.high ∧ 0 ≤ row.volume)
    (hprices : ¬ ∃ price, ∀ row ∈ arr, row.low = price ∧ row.high = price) (hbins : 1 ≤ bins) :
    ∃ minPrice maxPrice, (arr.map Row.low).min? = some minPrice ∧
      (arr.map Row.high).max? = some maxPrice ∧
      ExactProfile arr bins (binEdge minPrice maxPrice bins) := by
  have hne : arr ≠ [] := by
    rintro rfl
    simp at hlength
  have hlow : (arr.map Row.low).min? ≠ none := by simpa using hne
  have hhigh : (arr.map Row.high).max? ≠ none := by simpa using hne
  rcases Option.ne_none_iff_exists'.mp hlow with ⟨minPrice, hmin⟩
  rcases Option.ne_none_iff_exists'.mp hhigh with ⟨maxPrice, hmax⟩
  have hlt := minPrice_lt_maxPrice hmin hmax hrows hprices
  have hedge := binEdge_monotone hlt.le bins
  have hwithin := within_of_mem hbins hmin hmax hrows
  have hprofile := profileOf_nonneg hwithin
  have htotal := total_profileOf hedge hbins hwithin
  have hleft := valueArea_filled hprofile hbins
  have hgrown := grown_passes hprofile hbins bins
  have hcenter := binCenter_monotone hedge
  refine ⟨minPrice, maxPrice, hmin, hmax, ?_, htotal, hprofile, ⟨bins, hleft⟩, hleft, ?_⟩
  · exact fun row hrow => total_distribute hedge hbins (hwithin row hrow)
  · refine ⟨_, _, _, calculateVpvr_eq hlength hmin hmax hlt.ne, pocIdx_spec hbins, ?_, ?_, ?_⟩
    · exact ⟨hgrown.lower_le, hgrown.le_upper, hgrown.upper_lt⟩
    · exact ⟨hcenter hgrown.lower_le, hcenter hgrown.le_upper⟩
    · have htarget := target_le_valueArea hprofile hbins
      rw [target, htotal] at htarget
      exact htarget.trans_eq hgrown.volume_eq

/-- Three candles over four bins: one on the first bin, one at a single price, one over all bins. -/
def threeRows : List Row :=
  [⟨101, 100, 10⟩, ⟨103, 103, 4⟩, ⟨104, 100, 8⟩]

/-- Their profile is exact. -/
theorem exactProfile_threeRows :
    calculateVpvr threeRows 4 = some (201 / 2, 205 / 2, 201 / 2) ∧
      ∃ minPrice maxPrice, (threeRows.map Row.low).min? = some minPrice ∧
        (threeRows.map Row.high).max? = some maxPrice ∧
        ExactProfile threeRows 4 (binEdge minPrice maxPrice 4) := by
  refine ⟨by decide +kernel, exactProfile (by decide) (by decide +kernel) ?_ (by decide)⟩
  rintro ⟨price, hprice⟩
  have hfirst := hprice ⟨101, 100, 10⟩ (by simp [threeRows])
  have heq := hfirst.1.trans hfirst.2.symm
  norm_num at heq

end Whole

end VolumeProfile
end Karsa
