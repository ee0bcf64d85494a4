import Karsa.Foundations.Decimal
import Karsa.Foundations.Text
import Mathlib.Algebra.Order.Field.Rat
import Mathlib.Data.Int.Log
import Mathlib.Data.Rat.Floor

/-!
# Foundations - Python numbers and their texts

`int` and `float` convert texts, and each other's values.  A float is a rational on the
binary64 grid, an infinity or not a number.  A text may hold the digits of any script and
single underscores between digits, and a text of too many digits is no integer.

What Unicode says of characters outside ASCII is a parameter.

Main results:

- Theorem `UnicodeTables.notMem_upperText`: `str.upper` leaves no small ASCII letter.
-/

namespace Karsa

/-! ## Floats -/

/-- A Python float; the sign of a zero is not kept. -/
inductive PyFloat where
  | nan
  | infinity (negative : Bool)
  | finite (x : ℚ)
deriving Repr, DecidableEq

namespace PyFloat

/-- Distance of neighbouring floats around a number. -/
def spacing (x : ℚ) : ℚ :=
  2 ^ max (Int.log 2 |x| - 52) (-1074)

/-- The nearest float, ties to even; numbers that round to `2 ^ 1024` overflow. -/
def ofRat (x : ℚ) : PyFloat :=
  let nearest := quantize (spacing x) x
  if 2 ^ 1024 ≤ |nearest| then .infinity (decide (x < 0)) else .finite nearest

/-- `round(x, digits)`: the nearest decimal to the float's own value, as a float. -/
def roundTo (digits : ℕ) : PyFloat → PyFloat
  | finite x => ofRat (quantize (1 / 10 ^ digits) x)
  | x => x

/-- Towards zero. -/
def truncate (x : ℚ) : ℤ :=
  if 0 ≤ x then ⌊x⌋ else ⌈x⌉

end PyFloat

/-! ## Digits -/

/-- Value of an ASCII digit. -/
def asciiDigit (c : Char) : Option Nat :=
  if '0' ≤ c ∧ c ≤ '9' then some (c.toNat - '0'.toNat) else none

/-- The number that a row of digits writes. -/
def digitsValue (digits : List Nat) : Nat :=
  digits.foldl (fun n d => 10 * n + d) 0

/-- The digits at the front of a text and what follows them. -/
def takeDigits : Text → List Nat × Text
  | [] => ([], [])
  | c :: rest =>
      match asciiDigit c with
      | none => ([], c :: rest)
      | some d => (d :: (takeDigits rest).1, (takeDigits rest).2)

/-- What follows a row of digits is no longer than the text. -/
theorem length_takeDigits_le (text : Text) : (takeDigits text).2.length ≤ text.length := by
  induction text with
  | nil => exact le_rfl
  | cons c rest ih =>
      rw [takeDigits]
      split
      · exact le_rfl
      · exact ih.trans (Nat.le_succ _)

/-- An optional sign. -/
def takeSign : Text → Bool × Text
  | '-' :: rest => (true, rest)
  | '+' :: rest => (false, rest)
  | text => (false, text)

/-- The value of sign, digits, fraction and exponent. -/
def decimalValue (negative : Bool) (digits fraction : List Nat) (exponent : ℤ) : ℚ :=
  let magnitude := (digitsValue (digits ++ fraction) : ℚ) * 10 ^ (exponent - fraction.length)
  if negative then -magnitude else magnitude

/-- The exponent at the front of a text, when there is one. -/
def takeExponent : Text → Option (ℤ × Text)
  | [] => none
  | c :: rest =>
      if c = 'e' ∨ c = 'E' then
        let (negative, text) := takeSign rest
        let (digits, rest) := takeDigits text
        if digits = [] then none
        else some (if negative then -(digitsValue digits : ℤ) else digitsValue digits, rest)
      else none

/-- The fraction at the front of a text, with its digits. -/
def takeFraction : Text → List Nat × Text
  | '.' :: rest => takeDigits rest
  | text => ([], text)

/-! ## Unicode -/

/-- The tables behind `str.upper` and `str.isdecimal`. -/
structure UnicodeTables where
  upper : Char → Text
  decimal : Char → Option Nat
  upper_ascii : ∀ c, c.toNat < 128 → upper c = [c.toUpper]
  upper_small : ∀ c, ∀ d ∈ upper c, ¬ ('a' ≤ d ∧ d ≤ 'z')
  decimal_ascii : ∀ c, c.toNat < 128 → decimal c = asciiDigit c
  decimal_lt : ∀ c d, decimal c = some d → d < 10

namespace UnicodeTables

variable (u : UnicodeTables)

/-- `s.upper()`. -/
def upperText (s : Text) : Text :=
  s.flatMap u.upper

/-- Capital letters are left. -/
theorem notMem_upperText {c : Char} (hc : 'a' ≤ c ∧ c ≤ 'z') (s : Text) : c ∉ u.upperText s := by
  intro hmem
  rcases List.mem_flatMap.mp hmem with ⟨d, -, hd⟩
  exact u.upper_small d c hd hc

/-- The ASCII text that `int`, `float` and `Decimal` read. -/
def toAscii (s : Text) : Text :=
  s.map fun c =>
    match u.decimal c with
    | some d => Char.ofNat ('0'.toNat + d)
    | none => if c.toNat < 128 then c else if Text.isSpace c then ' ' else '?'

end UnicodeTables

/-! ## Texts of numbers -/

/-- Leave out the underscores, each of which stands between two digits. -/
def dropUnderscores : (afterDigit : Bool) → Text → Option Text
  | _, [] => some []
  | afterDigit, c :: rest =>
      if c = '_' then
        if afterDigit = true ∧ rest.head?.any (fun d => (asciiDigit d).isSome) = true then
          dropUnderscores false rest
        else none
      else (dropUnderscores (asciiDigit c).isSome rest).map fun text => c :: text

/-- `sys.get_int_max_str_digits()`. -/
def maxStrDigits : Nat := 4300

section Conversions

variable (u : UnicodeTables)

/-- `int(s)`; `none` stands for its `ValueError`. -/
def parseInt (s : Text) : Option ℤ :=
  let (negative, text) := takeSign ((u.toAscii s).stripBy Text.isBlank)
  (dropUnderscores false text).bind fun text =>
    match takeDigits text with
    | (digits, []) =>
        if digits = [] ∨ maxStrDigits < digits.length then none
        else some (if negative then -(digitsValue digits : ℤ) else digitsValue digits)
    | _ => none

/-- The words of `float(s)` for values that are not finite. -/
def parseSpecial (negative : Bool) (text : Text) : Option PyFloat :=
  let word := text.map Char.toLower
  if word = "inf".toList ∨ word = "infinity".toList then some (.infinity negative)
  else if word = "nan".toList then some .nan
  else none

/-- A decimal with an optional fraction and exponent. -/
def parseDecimal (negative : Bool) (text : Text) : Option PyFloat :=
  let (digits, text) := takeDigits text
  let (fraction, text) := takeFraction text
  if digits = [] ∧ fraction = [] then none
  else if text = [] then some (.ofRat (decimalValue negative digits fraction 0))
  else
    match takeExponent text with
    | some (exponent, []) => some (.ofRat (decimalValue negative digits fraction exponent))
    | _ => none

/-- `float(s)`; `none` stands for its `ValueError`. -/
def parseFloat (s : Text) : Option PyFloat :=
  let (negative, text) := takeSign ((u.toAscii s).stripBy Text.isBlank)
  (parseSpecial negative text).or
    ((dropUnderscores false text).bind (parseDecimal negative))

end Conversions

/-! ## Arithmetic across types -/

/-- A float or a `Decimal`, in exact arithmetic. -/
inductive PyNumber where
  | float (x : ℚ)
  | decimal (x : ℚ)
deriving Repr, DecidableEq

namespace PyNumber

/-- The number. -/
def value : PyNumber → ℚ
  | float x | decimal x => x

/-- An operator; on a float and a `Decimal` it raises `TypeError`. -/
def operate (op : ℚ → ℚ → ℚ) : PyNumber → PyNumber → Option PyNumber
  | float x, float y => some (float (op x y))
  | decimal x, decimal y => some (decimal (op x y))
  | float _, decimal _ | decimal _, float _ => none

/-- `x / y`. -/
def div (x y : PyNumber) : Option PyNumber :=
  if y.value = 0 then none else operate (· / ·) x y

/-- A float is not divided by a `Decimal`. -/
@[simp] theorem div_float_decimal (x y : ℚ) : div (float x) (decimal y) = none := by
  unfold div
  split_ifs <;> rfl

end PyNumber
end Karsa
