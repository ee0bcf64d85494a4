import Karsa.Foundations.PythonNumbers
import Mathlib.Data.Nat.Digits.Lemmas
import Mathlib.Tactic.FieldSimp

/-!
# Foundations - Numbers written out

`str` writes an integer, a float or a `Decimal` as a text, and `int`, `float` and `Decimal`
read one.  A number that is not an integer is written as a literal: a sign, digits, a fraction
and an exponent.  Which literal `repr` takes for a float is a parameter of those who use it.

Main results:

- Theorem `parseFloat_toText`: `float` reads the value of a literal.
- Theorem `decimalOf_toText`: `Decimal` keeps the value of a literal.
- Theorem `parseFloat_decimalText`: `float` reads the value of a `Decimal` that was written.
-/

namespace Karsa

/-! ## Digits -/

/-- An ASCII digit. -/
def digitChar (d : Nat) : Char :=
  Char.ofNat ('0'.toNat + d)

/-- A row of digits. -/
def digitsText (digits : List Nat) : Text :=
  digits.map digitChar

/-- The decimal digits of a natural number, the first one first. -/
def natDigits (n : Nat) : List Nat :=
  if n = 0 then [0] else (Nat.digits 10 n).reverse

@[simp] theorem digitsText_nil : digitsText [] = [] := rfl

@[simp] theorem digitsText_cons (d : Nat) (digits : List Nat) :
    digitsText (d :: digits) = digitChar d :: digitsText digits := rfl

/-- A digit is read back. -/
theorem asciiDigit_digitChar {d : Nat} (hd : d < 10) : asciiDigit (digitChar d) = some d := by
  interval_cases d <;> decide

/-- A character that reads as a digit is that digit. -/
theorem digitChar_of_asciiDigit {c : Char} {d : Nat} (h : asciiDigit c = some d) :
    Char.ofNat ('0'.toNat + d) = c := by
  unfold asciiDigit at h
  split_ifs at h with hc
  have hle : '0'.toNat ≤ c.toNat := hc.1
  have hd : c.toNat - '0'.toNat = d := by simpa using h
  rw [← hd, Nat.add_sub_cancel' hle]
  exact Char.ofNat_toNat c

/-- The digits at the front of a text end where no digit follows. -/
theorem takeDigits_append {digits : List Nat} (hdigits : ∀ d ∈ digits, d < 10) {rest : Text}
    (hrest : ∀ c ∈ rest.head?, asciiDigit c = none) :
    takeDigits (digitsText digits ++ rest) = (digits, rest) := by
  induction digits with
  | nil =>
      cases rest with
      | nil => rfl
      | cons c rest => simp [takeDigits, hrest c (by simp)]
  | cons d digits ih =>
      have hd : asciiDigit (digitChar d) = some d := asciiDigit_digitChar (hdigits d (by simp))
      have htail := ih fun e he => hdigits e (List.mem_cons_of_mem d he)
      simp [takeDigits, hd, htail]

/-- The digits of a natural number are digits. -/
theorem natDigits_lt {n d : Nat} (hd : d ∈ natDigits n) : d < 10 := by
  unfold natDigits at hd
  split_ifs at hd with hn
  · have hzero : d = 0 := by simpa using hd
    omega
  · exact Nat.digits_lt_base (by omega) (List.mem_reverse.mp hd)

/-- There is at least one digit. -/
theorem natDigits_ne_nil (n : Nat) : natDigits n ≠ [] := by
  unfold natDigits
  split_ifs with hn
  · simp
  · simpa [Nat.digits_eq_nil_iff_eq_zero] using hn

/-- Only zero is written with a leading zero. -/
theorem natDigits_head {n : Nat} (h : (natDigits n).head? = some 0) : natDigits n = [0] := by
  unfold natDigits at h ⊢
  split_ifs at h ⊢ with hn
  · rfl
  · rw [List.head?_reverse] at h
    have hne : Nat.digits 10 n ≠ [] := by simpa [Nat.digits_eq_nil_iff_eq_zero] using hn
    rw [List.getLast?_eq_some_getLast hne, Option.some.injEq] at h
    exact absurd h (Nat.getLast_digit_ne_zero 10 hn)

/-- One more digit on the left. -/
theorem digitsValue_append (digits more : List Nat) :
    digitsValue (digits ++ more) = digitsValue digits * 10 ^ more.length + digitsValue more := by
  have hfold : ∀ (l : List Nat) (n : Nat), l.foldl (fun n d => 10 * n + d) n =
      n * 10 ^ l.length + l.foldl (fun n d => 10 * n + d) 0 := by
    intro l
    induction l with
    | nil => simp
    | cons d l ih =>
        intro n
        rw [List.foldl_cons, List.foldl_cons, ih (10 * n + d), ih (10 * 0 + d), List.length_cons,
          pow_succ]
        ring
  unfold digitsValue
  rw [List.foldl_append, hfold more]

/-- The number that the digits of a number write. -/
@[simp] theorem digitsValue_natDigits (n : Nat) : digitsValue (natDigits n) = n := by
  have hof : ∀ l : List Nat, digitsValue l.reverse = Nat.ofDigits 10 l := by
    intro l
    induction l with
    | nil => rfl
    | cons d l ih =>
        rw [List.reverse_cons, digitsValue_append, ih, Nat.ofDigits_cons]
        simp [digitsValue]
        ring
  unfold natDigits
  split_ifs with hn
  · rw [hn]
    rfl
  · rw [hof, Nat.ofDigits_digits]

/-- Different numbers are written differently. -/
theorem digitsText_natDigits_injective : Function.Injective fun n => digitsText (natDigits n) := by
  have hread : ∀ n : ℕ, takeDigits (digitsText (natDigits n)) = (natDigits n, []) := by
    intro n
    have hdigits : takeDigits (digitsText (natDigits n) ++ []) = (natDigits n, []) :=
      takeDigits_append (fun d hd => natDigits_lt hd) (by simp)
    rwa [List.append_nil] at hdigits
  intro p q h
  have hdigits : natDigits p = natDigits q := by
    have hpair := congrArg takeDigits h
    dsimp only at hpair
    rw [hread, hread] at hpair
    exact congrArg Prod.fst hpair
  have hvalue := congrArg digitsValue hdigits
  rwa [digitsValue_natDigits, digitsValue_natDigits] at hvalue

/-- Only digits stand in the text of a number. -/
theorem not_mem_digitsText_natDigits {c : Char} (hc : asciiDigit c = none) (n : ℕ) :
    c ∉ digitsText (natDigits n) := by
  intro hmem
  rcases List.mem_map.mp hmem with ⟨d, hd, rfl⟩
  rw [asciiDigit_digitChar (natDigits_lt hd)] at hc
  contradiction

/-- Zeros write nothing. -/
@[simp] theorem digitsValue_replicate_zero (n : Nat) : digitsValue (List.replicate n 0) = 0 := by
  induction n with
  | zero => rfl
  | succ n ih => rw [List.replicate_succ', digitsValue_append, ih]; rfl

/-! ## Texts of numbers -/

/-- A character that stands in the texts of numbers. -/
def isPlain (c : Char) : Bool :=
  decide (c.toNat < 128) && !Text.isSpace c && c ≠ '_'

/-- Digits are plain. -/
theorem isPlain_digitsText {digits : List Nat} (hdigits : ∀ d ∈ digits, d < 10) :
    ∀ c ∈ digitsText digits, isPlain c = true := by
  intro c hc
  rcases List.mem_map.mp hc with ⟨d, hd, rfl⟩
  have hlt : d < 10 := hdigits d hd
  interval_cases d <;> decide

/-- Nothing is stripped from a text without anything to drop. -/
theorem Text.stripBy_of_forall {drops : Char → Bool} {s : Text} (hs : ∀ c ∈ s, drops c = false) :
    s.stripBy drops = s := by
  have hdrop : ∀ t : Text, (∀ c ∈ t, drops c = false) → t.dropWhile drops = t := by
    intro t ht
    cases t with
    | nil => rfl
    | cons c t => simp [ht c (by simp)]
  rw [Text.stripBy, hdrop s hs, hdrop s.reverse (by simpa using hs), List.reverse_reverse]

/-- Blanks are white space. -/
theorem Text.isBlank_eq_false {c : Char} (hspace : Text.isSpace c = false) :
    Text.isBlank c = false := by
  simp only [Text.isSpace, Text.isBlank, Bool.or_eq_false_iff, Bool.and_eq_false_iff,
    decide_eq_false_iff_not] at hspace ⊢
  omega

/-- No underscore is left out of a text without any. -/
theorem dropUnderscores_of_forall {s : Text} (hs : ∀ c ∈ s, c ≠ '_') (afterDigit : Bool) :
    dropUnderscores afterDigit s = some s := by
  induction s generalizing afterDigit with
  | nil => rfl
  | cons c s ih =>
      have htail := fun e he => hs e (List.mem_cons_of_mem c he)
      rw [dropUnderscores, if_neg (hs c (by simp)), ih htail]
      rfl

/-- A sign at the front leaves plain characters. -/
theorem takeSign_plain {s : Text} (hs : ∀ c ∈ s, isPlain c = true) :
    ∀ c ∈ (takeSign s).2, isPlain c = true := by
  intro c hc
  unfold takeSign at hc
  split at hc
  · exact hs c (List.mem_cons_of_mem _ hc)
  · exact hs c (List.mem_cons_of_mem _ hc)
  · exact hs c hc

section Readers

variable (u : UnicodeTables)

/-- ASCII texts stay as they are. -/
theorem UnicodeTables.toAscii_of_plain {s : Text} (hs : ∀ c ∈ s, isPlain c = true) :
    u.toAscii s = s := by
  unfold toAscii
  refine (List.map_congr_left fun c hc => ?_).trans (List.map_id s)
  have hplain := hs c hc
  simp only [isPlain, Bool.and_eq_true, decide_eq_true_eq, Bool.not_eq_true', ne_eq] at hplain
  rcases hplain with ⟨⟨hascii, -⟩, -⟩
  rw [u.decimal_ascii c hascii]
  cases hdigit : asciiDigit c with
  | some d => exact digitChar_of_asciiDigit hdigit
  | none => simp [hascii]

/-- The text of a number is read as it stands. -/
theorem stripBy_toAscii_of_plain {drops : Char → Bool}
    (hdrops : ∀ c, Text.isSpace c = false → drops c = false) {s : Text}
    (hs : ∀ c ∈ s, isPlain c = true) : (u.toAscii s).stripBy drops = s := by
  rw [u.toAscii_of_plain hs]
  refine Text.stripBy_of_forall fun c hc => hdrops c ?_
  have hplain := hs c hc
  simp only [isPlain, Bool.and_eq_true, Bool.not_eq_true'] at hplain
  exact hplain.1.2

/-- There are no underscores in it. -/
theorem ne_underscore_of_plain {s : Text} (hs : ∀ c ∈ s, isPlain c = true) :
    ∀ c ∈ s, c ≠ '_' := by
  intro c hc
  have hplain := hs c hc
  simp only [isPlain, Bool.and_eq_true, decide_eq_true_eq] at hplain
  exact hplain.2

/-- `float` of a plain text. -/
theorem parseFloat_of_plain {s : Text} (hs : ∀ c ∈ s, isPlain c = true) :
    parseFloat u s = (parseSpecial (takeSign s).1 (takeSign s).2).or
      (parseDecimal (takeSign s).1 (takeSign s).2) := by
  have hsign := ne_underscore_of_plain (takeSign_plain hs)
  rw [parseFloat, stripBy_toAscii_of_plain u (fun _ => Text.isBlank_eq_false) hs]
  simp only [dropUnderscores_of_forall hsign, Option.bind_some]

/-! ## Integers -/

/-- The text of an integer. -/
def intText (z : ℤ) : Text :=
  if z < 0 then '-' :: digitsText (natDigits z.natAbs) else digitsText (natDigits z.natAbs)

/-- `str(z)`; `none` stands for the `ValueError` of an integer of too many digits. -/
def strInt (z : ℤ) : Option Text :=
  if (natDigits z.natAbs).length ≤ maxStrDigits then some (intText z) else none

/-- The sign and the magnitude of an integer make the integer. -/
theorem ite_neg_natAbs (z : ℤ) :
    (if decide (z < 0) = true then -(z.natAbs : ℤ) else (z.natAbs : ℤ)) = z := by
  by_cases hz : z < 0
  · simp only [hz, decide_true, if_true]
    omega
  · simp only [hz, decide_false, Bool.false_eq_true, if_false]
    omega

/-- A digit is no sign. -/
theorem takeSign_digitsText {digits : List Nat} (hne : digits ≠ []) (hlt : ∀ d ∈ digits, d < 10)
    (rest : Text) : takeSign (digitsText digits ++ rest) = (false, digitsText digits ++ rest) := by
  cases digits with
  | nil => exact absurd rfl hne
  | cons d digits =>
      have hd : d < 10 := hlt d (by simp)
      rw [digitsText_cons, List.cons_append]
      unfold takeSign
      split
      · rename_i rest' heq
        have hchar : digitChar d = '-' := (List.cons.inj heq).1
        interval_cases d <;> exact absurd hchar (by decide)
      · rename_i rest' heq
        have hchar : digitChar d = '+' := (List.cons.inj heq).1
        interval_cases d <;> exact absurd hchar (by decide)
      · rfl

end Readers

/-! ## Literals -/

/-- Sign, digits, fraction and exponent of a number that is not written as an integer. -/
structure Literal where
  negative : Bool
  whole : List Nat
  fraction : List Nat
  exponent : Option (Bool × List Nat)
  whole_ne : whole ≠ []
  whole_lt : ∀ d ∈ whole, d < 10
  fraction_lt : ∀ d ∈ fraction, d < 10
  exponent_ne : ∀ e ∈ exponent, e.2 ≠ []
  exponent_lt : ∀ e ∈ exponent, ∀ d ∈ e.2, d < 10

namespace Literal

/-- The number behind the exponent letter. -/
def exponentValue (l : Literal) : ℤ :=
  match l.exponent with
  | none => 0
  | some (negative, digits) =>
      if negative then -(digitsValue digits : ℤ) else digitsValue digits

/-- The number that a literal writes. -/
def value (l : Literal) : ℚ :=
  decimalValue l.negative l.whole l.fraction l.exponentValue

/-- The point and the digits behind it. -/
def fractionText (l : Literal) : Text :=
  if l.fraction = [] then [] else '.' :: digitsText l.fraction

/-- The exponent with its letter and its sign. -/
def exponentText (letter : Char) (l : Literal) : Text :=
  match l.exponent with
  | none => []
  | some (negative, digits) => letter :: (if negative then '-' else '+') :: digitsText digits

/-- What stands behind the sign. -/
def body (letter : Char) (l : Literal) : Text :=
  digitsText l.whole ++ (l.fractionText ++ l.exponentText letter)

/-- The text of a literal. -/
def toText (letter : Char) (l : Literal) : Text :=
  if l.negative then '-' :: l.body letter else l.body letter

end Literal

/-- No number goes on here. -/
def EndsNumber (rest : Text) : Prop :=
  ∀ c ∈ rest.head?, asciiDigit c = none ∧ c ≠ '.' ∧ c ≠ 'e' ∧ c ≠ 'E'

/-- The two exponent letters. -/
def IsExponentLetter (letter : Char) : Prop :=
  letter = 'e' ∨ letter = 'E'

namespace Literal

variable {letter : Char} (l : Literal) {rest : Text}

/-- An exponent begins with its letter. -/
theorem exponentText_head (hrest : EndsNumber rest) {c : Char}
    (hc : c ∈ (l.exponentText letter ++ rest).head?) (hletter : IsExponentLetter letter) :
    asciiDigit c = none ∧ c ≠ '.' := by
  unfold exponentText at hc
  cases hexp : l.exponent with
  | none =>
      rw [hexp] at hc
      exact ⟨(hrest c hc).1, (hrest c hc).2.1⟩
  | some e =>
      rw [hexp] at hc
      have hchar : letter = c := by simpa using hc
      subst hchar
      rcases hletter with rfl | rfl <;> decide

/-- A fraction begins with a point. -/
theorem fractionText_head (hrest : EndsNumber rest) (hletter : IsExponentLetter letter) {c : Char}
    (hc : c ∈ (l.fractionText ++ (l.exponentText letter ++ rest)).head?) :
    asciiDigit c = none := by
  unfold fractionText at hc
  split_ifs at hc with hfraction
  · exact (l.exponentText_head hrest (by simpa using hc) hletter).1
  · have hchar : '.' = c := by simpa using hc
    subst hchar
    decide

/-- The digits before the point. -/
theorem takeDigits_body (hrest : EndsNumber rest) (hletter : IsExponentLetter letter) :
    takeDigits (l.body letter ++ rest) =
      (l.whole, l.fractionText ++ (l.exponentText letter ++ rest)) := by
  rw [body, List.append_assoc, List.append_assoc]
  exact takeDigits_append l.whole_lt fun c hc => l.fractionText_head hrest hletter hc

/-- The digits behind the point. -/
theorem takeFraction_text (hrest : EndsNumber rest) (hletter : IsExponentLetter letter) :
    takeFraction (l.fractionText ++ (l.exponentText letter ++ rest)) =
      (l.fraction, l.exponentText letter ++ rest) := by
  unfold fractionText
  split_ifs with hfraction
  · rw [hfraction, List.nil_append]
    unfold takeFraction
    split
    · rename_i rest' heq
      have hpoint : '.' ∈ (l.exponentText letter ++ rest).head? := by simp [heq]
      exact absurd rfl (l.exponentText_head hrest hpoint hletter).2
    · rfl
  · exact takeDigits_append l.fraction_lt fun c hc => (l.exponentText_head hrest hc hletter).1

/-- The exponent. -/
theorem takeExponent_text (hrest : EndsNumber rest) (hletter : IsExponentLetter letter) :
    takeExponent (l.exponentText letter ++ rest) =
      l.exponent.map fun _ => (l.exponentValue, rest) := by
  unfold exponentText exponentValue
  cases hexp : l.exponent with
  | none =>
      cases rest with
      | nil => rfl
      | cons c rest =>
          have hc := hrest c (by simp)
          simp [takeExponent, hc.2.2.1, hc.2.2.2]
  | some e =>
      have hdigits : takeDigits (digitsText e.2 ++ rest) = (e.2, rest) :=
        takeDigits_append (l.exponent_lt e hexp) fun c hc => (hrest c hc).1
      have hne : e.2 ≠ [] := l.exponent_ne e hexp
      have heither : letter = 'e' ∨ letter = 'E' := hletter
      cases hneg : e.1 <;> simp [takeExponent, takeSign, heither, hneg, hdigits, hne]

/-- What stands behind the sign is plain. -/
theorem isPlain_body (hletter : IsExponentLetter letter) :
    ∀ c ∈ l.body letter, isPlain c = true := by
  have hfraction : ∀ c ∈ l.fractionText, isPlain c = true := by
    unfold fractionText
    split_ifs
    · simp
    · exact List.forall_mem_cons.mpr ⟨by decide, isPlain_digitsText l.fraction_lt⟩
  have hexponent : ∀ c ∈ l.exponentText letter, isPlain c = true := by
    unfold exponentText
    cases hexp : l.exponent with
    | none => simp
    | some e =>
        have hdigits := isPlain_digitsText (l.exponent_lt e hexp)
        have hchar : isPlain letter = true := by rcases hletter with rfl | rfl <;> decide
        have hsign : isPlain (if e.1 then '-' else '+') = true := by
          cases e.1 <;> decide
        exact List.forall_mem_cons.mpr ⟨hchar, List.forall_mem_cons.mpr ⟨hsign, hdigits⟩⟩
  intro c hc
  rcases List.mem_append.mp hc with hwhole | hc
  · exact isPlain_digitsText l.whole_lt c hwhole
  · rcases List.mem_append.mp hc with hc | hc
    · exact hfraction c hc
    · exact hexponent c hc

/-- A literal is plain. -/
theorem isPlain_toText (hletter : IsExponentLetter letter) :
    ∀ c ∈ l.toText letter, isPlain c = true := by
  have hbody := l.isPlain_body hletter
  unfold toText
  split_ifs
  · exact List.forall_mem_cons.mpr ⟨by decide, hbody⟩
  · exact hbody

/-- The sign of a literal. -/
theorem takeSign_toText : takeSign (l.toText letter) = (l.negative, l.body letter) := by
  unfold toText
  split_ifs with hneg
  · simp [takeSign, hneg]
  · have hsign := takeSign_digitsText l.whole_ne l.whole_lt
      (l.fractionText ++ l.exponentText letter)
    simpa [body, hneg] using hsign

/-- A literal is none of the special words. -/
theorem body_head (letter : Char) : ∃ d rest, d < 10 ∧ l.body letter = digitChar d :: rest := by
  cases hwhole : l.whole with
  | nil => exact absurd hwhole l.whole_ne
  | cons d digits =>
      have hd : d < 10 := l.whole_lt d (by simp [hwhole])
      exact ⟨d, digitsText digits ++ (l.fractionText ++ l.exponentText letter), hd,
        by simp [body, hwhole]⟩

/-- Nothing follows. -/
theorem endsNumber_nil : EndsNumber [] := by
  intro c hc
  cases hc

/-- The value of a literal as `float` computes it. -/
theorem parseDecimal_body (hletter : IsExponentLetter letter) (negative : Bool) :
    parseDecimal negative (l.body letter) =
      some (.ofRat (decimalValue negative l.whole l.fraction l.exponentValue)) := by
  have hdigits := l.takeDigits_body endsNumber_nil hletter
  have hfraction := l.takeFraction_text endsNumber_nil hletter
  have hexponent := l.takeExponent_text endsNumber_nil hletter
  simp only [List.append_nil] at hdigits hfraction hexponent
  unfold parseDecimal
  simp only [hdigits, hfraction, hexponent, l.whole_ne, false_and, if_false]
  cases hexp : l.exponent with
  | none => simp [exponentText, exponentValue, hexp]
  | some e => simp [exponentText, hexp]

/-- A literal begins with a digit. -/
theorem parseSpecial_body (negative : Bool) : parseSpecial negative (l.body letter) = none := by
  rcases l.body_head letter with ⟨d, rest, hd, hbody⟩
  rw [hbody]
  unfold parseSpecial
  interval_cases d <;> rfl

end Literal

section Readers

variable (u : UnicodeTables) {letter : Char}

/-- `float` reads the value of a literal. -/
theorem parseFloat_toText (hletter : IsExponentLetter letter) (l : Literal) :
    parseFloat u (l.toText letter) = some (.ofRat l.value) := by
  rw [parseFloat_of_plain u (l.isPlain_toText hletter), l.takeSign_toText, l.parseSpecial_body,
    l.parseDecimal_body hletter]
  rfl

/-! ## Decimals -/

/-- A Python `Decimal`: a coefficient with a sign and an exponent of ten. -/
inductive PyDecimal where
  | nan
  | infinity (negative : Bool)
  | finite (negative : Bool) (coefficient : Nat) (exponent : ℤ)
deriving Repr, DecidableEq

namespace PyDecimal

/-- The nearest float. -/
def toFloat : PyDecimal → PyFloat
  | nan => .nan
  | infinity negative => .infinity negative
  | finite negative coefficient exponent =>
      let magnitude := (coefficient : ℚ) * 10 ^ exponent
      .ofRat (if negative then -magnitude else magnitude)

end PyDecimal

/-- The finite texts that `Decimal` reads. -/
def finiteDecimal (negative : Bool) (text : Text) : Option PyDecimal :=
  let (digits, text) := takeDigits text
  let (fraction, text) := takeFraction text
  let coefficient := digitsValue (digits ++ fraction)
  if digits = [] ∧ fraction = [] then none
  else if text = [] then some (.finite negative coefficient (-fraction.length))
  else
    match takeExponent text with
    | some (exponent, []) => some (.finite negative coefficient (exponent - fraction.length))
    | _ => none

/-- The words that `Decimal` reads; the payload of a NaN is left out. -/
def specialDecimal (negative : Bool) (text : Text) : Option PyDecimal :=
  let word := text.map Char.toLower
  if word = "inf".toList ∨ word = "infinity".toList then some (.infinity negative)
  else if word = "nan".toList then some .nan
  else none

/-- `Decimal(s)`; `none` stands for its `InvalidOperation`. -/
def decimalOf (s : Text) : Option PyDecimal :=
  let (negative, text) := takeSign (Text.without '_' (u.toAscii s).strip)
  (specialDecimal negative text).or (finiteDecimal negative text)

/-- `Decimal` of a plain text. -/
theorem decimalOf_of_plain {s : Text} (hs : ∀ c ∈ s, isPlain c = true) :
    decimalOf u s = (specialDecimal (takeSign s).1 (takeSign s).2).or
      (finiteDecimal (takeSign s).1 (takeSign s).2) := by
  have hunder : Text.without '_' s = s := by
    rw [Text.without, List.filter_eq_self]
    intro c hc
    exact decide_eq_true (ne_underscore_of_plain hs c hc)
  rw [decimalOf, Text.strip, stripBy_toAscii_of_plain u (fun _ => id) hs, hunder]

/-- `Decimal` keeps the digits of a literal. -/
theorem decimalOf_toText (hletter : IsExponentLetter letter) (l : Literal) :
    decimalOf u (l.toText letter) =
      some (.finite l.negative (digitsValue (l.whole ++ l.fraction))
        (l.exponentValue - l.fraction.length)) := by
  have hspecial : specialDecimal l.negative (l.body letter) = none := by
    rcases l.body_head letter with ⟨d, rest, hd, hbody⟩
    rw [hbody]
    unfold specialDecimal
    interval_cases d <;> rfl
  have hdigits := l.takeDigits_body Literal.endsNumber_nil hletter
  have hfraction := l.takeFraction_text Literal.endsNumber_nil hletter
  have hexponent := l.takeExponent_text Literal.endsNumber_nil hletter
  simp only [List.append_nil] at hdigits hfraction hexponent
  rw [decimalOf_of_plain u (l.isPlain_toText hletter), l.takeSign_toText, hspecial, Option.none_or]
  unfold finiteDecimal
  simp only [hdigits, hfraction, hexponent, l.whole_ne, false_and, if_false]
  cases hexp : l.exponent with
  | none => simp [Literal.exponentText, Literal.exponentValue, hexp]
  | some e => simp [Literal.exponentText, hexp]

/-- The place of the point when a `Decimal` of so many digits is written. -/
def pointPlace (digits : Nat) (exponent : ℤ) : ℤ :=
  if exponent ≤ 0 ∧ -6 < exponent + digits then exponent + digits else 1

/-- The literal of a finite `Decimal`. -/
def decimalLiteral (negative : Bool) (coefficient : Nat) (exponent : ℤ) : Literal :=
  let digits := natDigits coefficient
  let left := exponent + digits.length
  let place := pointPlace digits.length exponent
  { negative
    whole :=
      if place ≤ 0 then [0]
      else digits.take place.toNat ++ List.replicate (place.toNat - digits.length) 0
    fraction :=
      if place ≤ 0 then List.replicate (-place).toNat 0 ++ digits
      else digits.drop place.toNat
    exponent :=
      if left = place then none
      else some (decide (left - place < 0), natDigits (left - place).natAbs)
    whole_ne := by
      split_ifs with hplace
      · simp
      · have hne : natDigits coefficient ≠ [] := natDigits_ne_nil coefficient
        simp [List.take_eq_nil_iff, hne, digits]
        omega
    whole_lt := by
      intro d hd
      split_ifs at hd
      · have hzero : d = 0 := by simpa using hd
        omega
      · rcases List.mem_append.mp hd with hd | hd
        · exact natDigits_lt (List.mem_of_mem_take hd)
        · have hzero : d = 0 := List.eq_of_mem_replicate hd
          omega
    fraction_lt := by
      intro d hd
      split_ifs at hd
      · rcases List.mem_append.mp hd with hd | hd
        · have hzero : d = 0 := List.eq_of_mem_replicate hd
          omega
        · exact natDigits_lt hd
      · exact natDigits_lt (List.mem_of_mem_drop hd)
    exponent_ne := by
      intro e he
      split_ifs at he
      · cases he
      · cases he
        exact natDigits_ne_nil _
    exponent_lt := by
      intro e he d hd
      split_ifs at he
      · cases he
      · cases he
        exact natDigits_lt hd }

/-- `str(d)`. -/
def decimalText : PyDecimal → Text
  | .nan => "NaN".toList
  | .infinity negative => if negative then "-Infinity".toList else "Infinity".toList
  | .finite negative coefficient exponent =>
      (decimalLiteral negative coefficient exponent).toText 'E'

/-- The exponent that is written makes up for the place of the point. -/
theorem exponentValue_decimalLiteral (negative : Bool) (coefficient : Nat) (exponent : ℤ) :
    (decimalLiteral negative coefficient exponent).exponentValue =
      exponent + (natDigits coefficient).length -
        pointPlace (natDigits coefficient).length exponent := by
  unfold Literal.exponentValue decimalLiteral
  dsimp only
  split_ifs with hplace
  · dsimp only
    omega
  · dsimp only
    rw [digitsValue_natDigits]
    exact ite_neg_natAbs _

/-- A finite `Decimal` is written as it is. -/
theorem value_decimalLiteral (negative : Bool) (coefficient : Nat) (exponent : ℤ) :
    (decimalLiteral negative coefficient exponent).value =
      let magnitude := (coefficient : ℚ) * 10 ^ exponent
      if negative then -magnitude else magnitude := by
  have hexponent := exponentValue_decimalLiteral negative coefficient exponent
  have hten : (10 : ℚ) ≠ 0 := by norm_num
  have hmagnitude : (digitsValue ((decimalLiteral negative coefficient exponent).whole ++
      (decimalLiteral negative coefficient exponent).fraction) : ℚ) *
        10 ^ ((decimalLiteral negative coefficient exponent).exponentValue -
          (decimalLiteral negative coefficient exponent).fraction.length) =
      (coefficient : ℚ) * 10 ^ exponent := by
    rw [hexponent]
    unfold decimalLiteral
    dsimp only
    set digits := natDigits coefficient with hdigits
    set place := pointPlace digits.length exponent
    by_cases hplace : place ≤ 0
    · have hvalue : digitsValue ([0] ++ (List.replicate (-place).toNat 0 ++ digits)) =
          coefficient := by
        rw [digitsValue_append, digitsValue_append, hdigits, digitsValue_natDigits,
          digitsValue_replicate_zero]
        simp [digitsValue]
      rw [if_pos hplace, if_pos hplace, hvalue, List.length_append, List.length_replicate]
      congr 2
      push_cast
      omega
    · rw [if_neg hplace, if_neg hplace]
      by_cases hlength : place.toNat ≤ digits.length
      · have hvalue : digitsValue (digits.take place.toNat ++
            List.replicate (place.toNat - digits.length) 0 ++ digits.drop place.toNat) =
              coefficient := by
          rw [Nat.sub_eq_zero_of_le hlength, List.replicate_zero, List.append_nil,
            List.take_append_drop, hdigits, digitsValue_natDigits]
        rw [hvalue, List.length_drop]
        congr 2
        omega
      · have hvalue : digitsValue (digits.take place.toNat ++
            List.replicate (place.toNat - digits.length) 0 ++ digits.drop place.toNat) =
              coefficient * 10 ^ (place.toNat - digits.length) := by
          rw [List.take_of_length_le (by omega), List.drop_eq_nil_of_le (by omega),
            List.append_nil, digitsValue_append, digitsValue_replicate_zero, List.length_replicate,
            hdigits, digitsValue_natDigits, add_zero]
        rw [hvalue, List.drop_eq_nil_of_le (by omega), List.length_nil]
        push_cast
        rw [mul_assoc, ← zpow_natCast, ← zpow_add₀ hten]
        congr 2
        omega
  unfold Literal.value decimalValue
  rw [hmagnitude]
  rfl

/-- `float` reads the value of a `Decimal` that was written. -/
theorem parseFloat_decimalText (d : PyDecimal) :
    parseFloat u (decimalText d) = some d.toFloat := by
  cases d with
  | nan =>
      rw [decimalText, parseFloat_of_plain u (List.all_eq_true.mp (by decide))]
      decide
  | infinity negative =>
      cases negative with
      | false =>
          rw [decimalText, if_neg Bool.false_ne_true,
            parseFloat_of_plain u (List.all_eq_true.mp (by decide))]
          decide
      | true =>
          rw [decimalText, if_pos rfl, parseFloat_of_plain u (List.all_eq_true.mp (by decide))]
          decide
  | finite negative coefficient exponent =>
      rw [decimalText, parseFloat_toText u (Or.inr rfl), value_decimalLiteral]
      rfl

end Readers

end Karsa
