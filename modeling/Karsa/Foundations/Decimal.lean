import Mathlib.Algebra.Order.Round
import Mathlib.Tactic.FieldSimp
import Mathlib.Tactic.Linarith
import Mathlib.Tactic.Ring

/-!
# Foundations - Decimal quantization

Python's `decimal` rounds half to even.  The two idioms of the code,
`x.quantize(Decimal("0.001"))` and `(x / step).to_integral_value() * step`,
are one operation: rounding to the nearest multiple of a step.  It is defined
here over any ordered field with a floor, in exact arithmetic.

Texts that should hold a decimal arrive from JSON and may be empty; `Numeral`
keeps that case apart, since `Decimal("")` raises while a guarded conversion
falls back to a default.

Main results:

- Theorem `quantize_mul_step`: multiples of the step are fixed points.
- Theorem `abs_quantize_sub_le`: rounding moves a value by at most half a step.
- Theorem `quantize_mono`: rounding keeps the order.
-/

namespace Karsa

section Quantize

variable {K : Type*} [Field K] [LinearOrder K] [IsStrictOrderedRing K] [FloorRing K]

/-- Nearest integer, ties to the even one (`ROUND_HALF_EVEN`). -/
def roundHalfEven (x : K) : ℤ :=
  let low := ⌊x⌋
  if Int.fract x < 1 / 2 then low
  else if 1 / 2 < Int.fract x then low + 1
  else if low % 2 = 0 then low
  else low + 1

/-- The multiple of `step` nearest to `x`. -/
def quantize (step x : K) : K :=
  (roundHalfEven (x / step) : K) * step

/-- Integers are left alone by rounding. -/
@[simp] theorem roundHalfEven_intCast (n : ℤ) : roundHalfEven (n : K) = n := by
  have hhalf : (0 : K) < 1 / 2 := by positivity
  simp [roundHalfEven]

/-- Rounding moves a number by at most one half. -/
theorem abs_roundHalfEven_sub_le (x : K) : |(roundHalfEven x : K) - x| ≤ 1 / 2 := by
  have hfract : (⌊x⌋ : K) = x - Int.fract x := by
    rw [← Int.self_sub_floor]
    ring
  have hnonneg : 0 ≤ Int.fract x := Int.fract_nonneg x
  have hlt : Int.fract x < 1 := Int.fract_lt_one x
  unfold roundHalfEven
  dsimp only
  rw [abs_le]
  split_ifs with hlow hhigh heven
  · rw [hfract]
    constructor <;> linarith
  · push_cast
    rw [hfract]
    constructor <;> linarith
  · rw [hfract]
    constructor <;> linarith
  · push_cast
    rw [hfract]
    constructor <;> linarith

/-- Rounding stays above an integer. -/
theorem le_roundHalfEven {n : ℤ} {x : K} (h : (n : K) ≤ x) : n ≤ roundHalfEven x := by
  have hclose := (abs_le.mp (abs_roundHalfEven_sub_le x)).1
  have hlt : ((n : ℤ) : K) < ((roundHalfEven x + 1 : ℤ) : K) := by
    push_cast
    linarith
  rw [Int.cast_lt] at hlt
  omega

/-- Rounding stays below an integer. -/
theorem roundHalfEven_le {n : ℤ} {x : K} (h : x ≤ (n : K)) : roundHalfEven x ≤ n := by
  have hclose := (abs_le.mp (abs_roundHalfEven_sub_le x)).2
  have hlt : ((roundHalfEven x : ℤ) : K) < ((n + 1 : ℤ) : K) := by
    push_cast
    linarith
  rw [Int.cast_lt] at hlt
  omega

/-- Rounding keeps the order. -/
theorem roundHalfEven_mono {x y : K} (h : x ≤ y) : roundHalfEven x ≤ roundHalfEven y := by
  by_contra hlt
  rw [not_le, Int.lt_iff_add_one_le] at hlt
  have hbelow := (abs_le.mp (abs_roundHalfEven_sub_le x)).2
  have habove := (abs_le.mp (abs_roundHalfEven_sub_le y)).1
  have hcast : (roundHalfEven y : K) + 1 ≤ (roundHalfEven x : K) := by exact_mod_cast hlt
  have hsame : x = y := by linarith
  rw [hsame] at hlt
  omega

/-- Rounding commutes with the reflection at an integer. -/
theorem roundHalfEven_intCast_sub {n : ℤ} (hn : n % 2 = 0) (x : K) :
    roundHalfEven ((n : K) - x) = n - roundHalfEven x := by
  by_cases hint : Int.fract x = 0
  · have hx : x = (⌊x⌋ : K) := by
      rw [← Int.self_sub_floor] at hint
      exact sub_eq_zero.mp hint
    rw [hx, ← Int.cast_sub, roundHalfEven_intCast, roundHalfEven_intCast]
  · have hpos : 0 < Int.fract x := lt_of_le_of_ne (Int.fract_nonneg x) (Ne.symm hint)
    have hlt := Int.fract_lt_one x
    have hsplit : x = (⌊x⌋ : K) + Int.fract x := (Int.floor_add_fract x).symm
    have hfloor : ⌊(n : K) - x⌋ = n - ⌊x⌋ - 1 := by
      rw [Int.floor_eq_iff]
      push_cast
      constructor <;> linarith
    have hfract : Int.fract ((n : K) - x) = 1 - Int.fract x := by
      rw [← Int.self_sub_floor, hfloor]
      push_cast
      linarith
    unfold roundHalfEven
    dsimp only
    rw [hfloor, hfract]
    rcases lt_trichotomy (Int.fract x) (1 / 2) with hlow | htie | hhigh
    · rw [if_neg (by linarith), if_pos (by linarith), if_pos hlow]
      omega
    · have hlow : ¬ 1 - Int.fract x < 1 / 2 := by linarith
      have hhigh : ¬ 1 / 2 < 1 - Int.fract x := by linarith
      rw [if_neg hlow, if_neg hhigh, if_neg htie.not_lt, if_neg htie.not_gt]
      split_ifs <;> omega
    · rw [if_pos (by linarith), if_neg (by linarith), if_pos hhigh]
      omega

/-- An even integer is reached from half a unit below it. -/
theorem le_roundHalfEven_iff_of_even {n : ℤ} (hn : n % 2 = 0) (x : K) :
    n ≤ roundHalfEven x ↔ (n : K) - 1 / 2 ≤ x := by
  constructor
  · intro h
    have hbelow := (abs_le.mp (abs_roundHalfEven_sub_le x)).2
    have hcast : (n : K) ≤ (roundHalfEven x : K) := by exact_mod_cast h
    linarith
  · intro h
    have hfloor : ⌊(1 / 2 : K)⌋ = 0 := by
      rw [Int.floor_eq_zero_iff]
      constructor <;> norm_num
    have hhalf : roundHalfEven (1 / 2 : K) = 0 := by
      have hfract : Int.fract (1 / 2 : K) = 1 / 2 := by
        rw [← Int.self_sub_floor, hfloor]
        norm_num
      unfold roundHalfEven
      dsimp only
      rw [hfract, hfloor, if_neg (lt_irrefl _), if_neg (lt_irrefl _)]
      rfl
    have hround := roundHalfEven_mono h
    rwa [roundHalfEven_intCast_sub hn, hhalf, sub_zero] at hround

/-- Multiples of a nonzero step are fixed points of quantization. -/
theorem quantize_mul_step {step : K} (hstep : step ≠ 0) (n : ℤ) :
    quantize step ((n : K) * step) = (n : K) * step := by
  unfold quantize
  rw [mul_div_assoc, div_self hstep, mul_one, roundHalfEven_intCast]

/-- Quantization moves a value by at most half a step. -/
theorem abs_quantize_sub_le {step : K} (hstep : 0 < step) (x : K) :
    |quantize step x - x| ≤ step / 2 := by
  have hx : x = x / step * step := by
    field_simp
  have hsplit : quantize step x - x =
      ((roundHalfEven (x / step) : K) - x / step) * step := by
    unfold quantize
    rw [sub_mul, ← hx]
  rw [hsplit, abs_mul, abs_of_pos hstep]
  calc
    |(roundHalfEven (x / step) : K) - x / step| * step ≤ 1 / 2 * step :=
      mul_le_mul_of_nonneg_right (abs_roundHalfEven_sub_le _) hstep.le
    _ = step / 2 := by ring

/-- Quantization keeps the order. -/
theorem quantize_mono {step : K} (hstep : 0 < step) {x y : K} (h : x ≤ y) :
    quantize step x ≤ quantize step y := by
  have hround : roundHalfEven (x / step) ≤ roundHalfEven (y / step) :=
    roundHalfEven_mono (div_le_div_of_nonneg_right h hstep.le)
  exact mul_le_mul_of_nonneg_right (Int.cast_le.mpr hround) hstep.le

end Quantize

/-! ## Texts that should hold a decimal -/

/-- A JSON text meant as a decimal: empty or otherwise unreadable, or a value. -/
inductive Numeral (K : Type*) where
  | malformed
  | value (x : K)
deriving Repr, DecidableEq

namespace Numeral

variable {K : Type*}

/-- `Decimal(str(text))`; `none` stands for the exception it raises. -/
def decimal : Numeral K → Option K
  | malformed => none
  | value x => some x

/-- `_safe_decimal(value)`: zero for an absent or unreadable text. -/
def safeDecimal [Zero K] : Option (Numeral K) → K
  | some (value x) => x
  | some malformed | none => 0

@[simp] theorem decimal_value (x : K) : (value x).decimal = some x := rfl

@[simp] theorem decimal_malformed : (malformed : Numeral K).decimal = none := rfl

end Numeral
end Karsa
