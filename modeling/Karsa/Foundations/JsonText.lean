import Karsa.Foundations.Json
import Karsa.Foundations.NumberTexts

/-!
# Foundations - Python's JSON encoder

`json.dumps` writes a value on one line in ASCII: other characters are escaped as code units of
UTF-16, and floats are written by `repr`.  What is written is read back by `json.loads`, as long
as the containers are not nested too deeply and the integers do not have too many digits.

Main results:

- Theorem `scanString_escape`: a string is read back.
- Theorem `scanOnce_write`: a value is read back at the front of a text.
- Theorem `loads_dumps`: the decoder inverts the encoder.
-/

namespace Karsa
namespace Json

/-! ## Strings -/

/-- A hexadecimal digit. -/
def hexChar (d : Nat) : Char :=
  if d < 10 then Char.ofNat ('0'.toNat + d) else Char.ofNat ('a'.toNat + (d - 10))

/-- The escape of a code unit. -/
def unitEscape (unit : Nat) : Text :=
  ['\\', 'u', hexChar (unit / 4096), hexChar (unit / 256 % 16), hexChar (unit / 16 % 16),
    hexChar (unit % 16)]

/-- The code units of a character. -/
def units (c : Char) : List Nat :=
  if c.toNat < 0x10000 then [c.toNat]
  else [0xD800 + (c.toNat - 0x10000) / 0x400, 0xDC00 + (c.toNat - 0x10000) % 0x400]

/-- A character inside a string. -/
def escapeChar (c : Char) : Text :=
  if c = '"' then ['\\', '"']
  else if c = '\\' then ['\\', '\\']
  else if c = '\n' then ['\\', 'n']
  else if c = '\r' then ['\\', 'r']
  else if c = '\t' then ['\\', 't']
  else if c.toNat = 8 then ['\\', 'b']
  else if c.toNat = 12 then ['\\', 'f']
  else if 32 ≤ c.toNat ∧ c.toNat < 127 then [c]
  else (units c).flatMap unitEscape

/-- A string behind its opening quote. -/
def escape (s : Text) : Text :=
  s.flatMap escapeChar ++ ['"']

/-- Units before those of the rest. -/
def consUnits (front : List Nat) (scan : Scan (List Nat)) : Scan (List Nat) :=
  front.foldr consUnit scan

/-- A hexadecimal digit is read back. -/
theorem hexDigit_hexChar {d : Nat} (hd : d < 16) : hexDigit (hexChar d) = some d := by
  interval_cases d <;> decide

/-- The escape of a unit is read back. -/
theorem scanUnits_unitEscape {unit : Nat} (hunit : unit < 0x10000) (text : Text) :
    scanUnits (unitEscape unit ++ text) = consUnit unit (scanUnits text) := by
  have h₁ := hexDigit_hexChar (show unit / 4096 < 16 by omega)
  have h₂ := hexDigit_hexChar (show unit / 256 % 16 < 16 by omega)
  have h₃ := hexDigit_hexChar (show unit / 16 % 16 < 16 by omega)
  have h₄ := hexDigit_hexChar (show unit % 16 < 16 by omega)
  have hvalue : hexValue [hexChar (unit / 4096), hexChar (unit / 256 % 16),
      hexChar (unit / 16 % 16), hexChar (unit % 16)] = some unit := by
    simp [hexValue, h₁, h₂, h₃, h₄]
    omega
  unfold unitEscape
  simp [scanUnits, hvalue]

/-- A character is a code point. -/
theorem codePoint_lt (c : Char) : c.toNat < 0x110000 := by
  rcases c.valid with h | h
  · exact lt_of_lt_of_le h (by norm_num)
  · exact h.2

/-- A character has one unit or two, each of them small. -/
theorem units_lt {c : Char} : ∀ unit ∈ units c, unit < 0x10000 := by
  have hvalid := codePoint_lt c
  unfold units
  split_ifs with hsmall
  · simpa using hsmall
  · simp only [List.mem_cons, List.not_mem_nil, or_false, forall_eq_or_imp, forall_eq]
    omega

/-- The escapes of units are read back. -/
theorem scanUnits_flatMap_unitEscape {front : List Nat} (hfront : ∀ unit ∈ front, unit < 0x10000)
    (text : Text) :
    scanUnits (front.flatMap unitEscape ++ text) = consUnits front (scanUnits text) := by
  induction front with
  | nil => rfl
  | cons unit front ih =>
      have hhead : unit < 0x10000 := hfront unit (by simp)
      have htail := ih fun other hother => hfront other (List.mem_cons_of_mem unit hother)
      rw [List.flatMap_cons, List.append_assoc, scanUnits_unitEscape hhead, htail]
      rfl

/-- An escape by a letter is read back. -/
theorem scanUnits_letter {e : Char} {unit : Nat} (hu : e ≠ 'u') (he : escaped e = some unit)
    (text : Text) : scanUnits ('\\' :: e :: text) = consUnit unit (scanUnits text) := by
  rw [scanUnits.eq_def]
  simp [hu, he]

/-- A character is read back. -/
theorem scanUnits_escapeChar (c : Char) (text : Text) :
    scanUnits (escapeChar c ++ text) = consUnits (units c) (scanUnits text) := by
  have hascii : ∀ {n : Nat}, c.toNat = n → n < 0x10000 → units c = [n] := by
    intro n hn hlt
    rw [units, hn, if_pos hlt]
  unfold escapeChar
  split_ifs with hquote hback hnew hret htab hbs hff hplain
  · rw [hascii (show c.toNat = 34 by rw [hquote]; rfl) (by norm_num)]
    exact scanUnits_letter (by decide) (by decide) text
  · rw [hascii (show c.toNat = 92 by rw [hback]; rfl) (by norm_num)]
    exact scanUnits_letter (by decide) (by decide) text
  · rw [hascii (show c.toNat = 10 by rw [hnew]; rfl) (by norm_num)]
    exact scanUnits_letter (by decide) (by decide) text
  · rw [hascii (show c.toNat = 13 by rw [hret]; rfl) (by norm_num)]
    exact scanUnits_letter (by decide) (by decide) text
  · rw [hascii (show c.toNat = 9 by rw [htab]; rfl) (by norm_num)]
    exact scanUnits_letter (by decide) (by decide) text
  · rw [hascii hbs (by norm_num)]
    exact scanUnits_letter (by decide) (by decide) text
  · rw [hascii hff (by norm_num)]
    exact scanUnits_letter (by decide) (by decide) text
  · rw [hascii rfl (by omega)]
    rw [List.singleton_append, scanUnits.eq_def]
    simp [hquote, hback, Nat.not_lt.mpr hplain.1, consUnits]
  · exact scanUnits_flatMap_unitEscape units_lt text

/-- Units that were put before others. -/
theorem consUnits_ok (front : List Nat) (units : List Nat) (rest : Text) :
    consUnits front (.ok (units, rest)) = .ok (front ++ units, rest) := by
  induction front with
  | nil => rfl
  | cons unit front ih =>
      rw [consUnits, List.foldr_cons, ← consUnits, ih]
      rfl

/-- The units of a string are read back. -/
theorem scanUnits_escape (s rest : Text) :
    scanUnits (escape s ++ rest) = .ok (s.flatMap units, rest) := by
  induction s with
  | nil =>
      rw [escape, List.flatMap_nil, List.nil_append, List.singleton_append, scanUnits.eq_def]
      rfl
  | cons c s ih =>
      have hsplit : escape (c :: s) ++ rest = escapeChar c ++ (escape s ++ rest) := by
        simp [escape]
      rw [hsplit, scanUnits_escapeChar, ih, consUnits_ok, List.flatMap_cons]

/-- No character is a surrogate. -/
theorem not_surrogate (c : Char) : isHigh c.toNat = false ∧ isLow c.toNat = false := by
  have hvalid : c.toNat < 0xD800 ∨ 0xDFFF < c.toNat := by
    rcases c.valid with h | h
    · exact Or.inl h
    · exact Or.inr h.1
  simp only [isHigh, isLow, Bool.and_eq_false_iff, decide_eq_false_iff_not]
  omega

/-- A unit that begins no pair stands for itself. -/
theorem joinSurrogates_cons {unit : Nat} (hunit : isHigh unit = false) (rest : List Nat) :
    joinSurrogates (unit :: rest) = unitChar unit :: joinSurrogates rest := by
  cases rest with
  | nil => rfl
  | cons low rest => simp [joinSurrogates, hunit]

/-- The pairs of a string are joined again. -/
theorem joinSurrogates_units (s : Text) : joinSurrogates (s.flatMap units) = s := by
  induction s with
  | nil => rfl
  | cons c s ih =>
      rw [List.flatMap_cons, units]
      split_ifs with hsmall
      · have hnot := not_surrogate c
        have hchar : unitChar c.toNat = c := by
          rw [unitChar, hnot.1, hnot.2]
          exact Char.ofNat_toNat c
        rw [List.singleton_append, joinSurrogates_cons hnot.1, hchar, ih]
      · have hvalid := codePoint_lt c
        have hhigh : isHigh (0xD800 + (c.toNat - 0x10000) / 0x400) = true := by
          simp only [isHigh, Bool.and_eq_true, decide_eq_true_eq]
          omega
        have hlow : isLow (0xDC00 + (c.toNat - 0x10000) % 0x400) = true := by
          simp only [isLow, Bool.and_eq_true, decide_eq_true_eq]
          omega
        have hjoin : 0x10000 + (0xD800 + (c.toNat - 0x10000) / 0x400 - 0xD800) * 0x400 +
            (0xDC00 + (c.toNat - 0x10000) % 0x400 - 0xDC00) = c.toNat := by
          omega
        rw [List.cons_append, List.singleton_append, joinSurrogates, hhigh, hlow, hjoin, ih]
        simp

/-- A string is read back. -/
theorem scanString_escape (s rest : Text) :
    scanString (escape s ++ rest) = .ok (s, rest) := by
  rw [scanString, scanUnits_escape]
  simp [Except.map, joinSurrogates_units]

/-! ## Values -/

/-- The literal that `repr` takes for a finite float: a point or an exponent shows that it is
no integer, and there is no leading zero. -/
structure FloatLiteral extends Literal where
  lead : whole.head? = some 0 → whole = [0]
  shown : fraction ≠ [] ∨ exponent ≠ none

/-- Digits on both sides of a point, without a leading zero. -/
def pointDigits (whole fraction : List Nat) : Bool :=
  (whole == [0] || (whole != [] && whole.head? != some 0)) && fraction != [] &&
    (whole ++ fraction).all fun d => d < 10

/-- What the check of the digits says. -/
theorem pointDigits_spec {whole fraction : List Nat} (h : pointDigits whole fraction = true) :
    whole ≠ [] ∧ (whole.head? = some 0 → whole = [0]) ∧ fraction ≠ [] ∧
      (∀ d ∈ whole, d < 10) ∧ ∀ d ∈ fraction, d < 10 := by
  simp only [pointDigits, Bool.and_eq_true, Bool.or_eq_true, beq_iff_eq, bne_iff_ne, ne_eq,
    List.all_append, List.all_eq_true, decide_eq_true_eq] at h
  rcases h with ⟨⟨hlead, hfraction⟩, hdigits⟩
  rcases hlead with rfl | ⟨hne, hhead⟩
  · exact ⟨by simp, fun _ => rfl, hfraction, hdigits⟩
  · exact ⟨hne, fun hzero => absurd hzero hhead, hfraction, hdigits⟩

/-- A literal of digits around a point. -/
def FloatLiteral.point (negative : Bool) (whole fraction : List Nat)
    (h : pointDigits whole fraction = true) : FloatLiteral where
  negative := negative
  whole := whole
  fraction := fraction
  exponent := none
  whole_ne := (pointDigits_spec h).1
  whole_lt := (pointDigits_spec h).2.2.2.1
  fraction_lt := (pointDigits_spec h).2.2.2.2
  exponent_ne := by simp
  exponent_lt := by simp
  lead := (pointDigits_spec h).2.1
  shown := Or.inl (pointDigits_spec h).2.2.1

section Encoder

variable (repr : ℚ → FloatLiteral)

/-- A float as JSON. -/
def floatText : PyFloat → Text
  | .nan => "NaN".toList
  | .infinity negative => if negative then "-Infinity".toList else "Infinity".toList
  | .finite x => (repr x).toText 'e'

mutual

/-- A value on one line. -/
def write : Json → Text
  | .null => "null".toList
  | .bool b => if b then "true".toList else "false".toList
  | .int n => intText n
  | .float x => floatText repr x
  | .str s => '"' :: escape s
  | .list items => '[' :: (writeItems items ++ [']'])
  | .dict items => '{' :: (writeMembers items ++ ['}'])

/-- Items with a comma and a blank between them. -/
def writeItems : List Json → Text
  | [] => []
  | item :: rest => write item ++ ((if rest.isEmpty then [] else [',', ' ']) ++ writeItems rest)

/-- Members with a colon behind each key. -/
def writeMembers : List (Text × Json) → Text
  | [] => []
  | (key, value) :: rest =>
      '"' :: (escape key ++ (':' :: ' ' :: (write value ++
        ((if rest.isEmpty then [] else [',', ' ']) ++ writeMembers rest))))

end

mutual

/-- No integer has too many digits. -/
def fits : Json → Bool
  | .int n => decide ((natDigits n.natAbs).length ≤ maxStrDigits)
  | .list items => itemsFit items
  | .dict items => membersFit items
  | .null | .bool _ | .float _ | .str _ => true

/-- No integer of the items has too many digits. -/
def itemsFit : List Json → Bool
  | [] => true
  | item :: rest => fits item && itemsFit rest

/-- No integer of the members has too many digits. -/
def membersFit : List (Text × Json) → Bool
  | [] => true
  | (_, value) :: rest => fits value && membersFit rest

end

/-- `json.dumps`; `none` stands for the `ValueError` of an integer of too many digits. -/
def dumps (v : Json) : Option Text :=
  if fits v then some (write repr v) else none

/-! ## Reading back -/

/-- A value without containers that reads back: `repr` has to keep its float. -/
def LeafReadable : Json → Prop
  | .int n => (natDigits n.natAbs).length ≤ maxStrDigits
  | .float (.finite x) => PyFloat.ofRat (repr x).value = .finite x
  | .list _ | .dict _ => False
  | .null | .bool _ | .float _ | .str _ => True

/-- A value nested no deeper than `depth` that reads back; a dictionary has every key once. -/
def Readable : (depth : Nat) → Json → Prop
  | 0, v => LeafReadable repr v
  | depth + 1, v =>
      match v with
      | .list items => ∀ item ∈ items, Readable depth item
      | .dict items => (Dict.keys items).Nodup ∧ ∀ item ∈ items, Readable depth item.2
      | v => LeafReadable repr v

end Encoder

/-- A value may begin with this character. -/
def startsValue (c : Char) : Bool :=
  c ≠ ' ' && c ≠ '\t' && c ≠ '\n' && c ≠ '\r' && c ≠ ']' && c ≠ '}' && c ≠ Char.ofNat 0xFEFF

/-- No blank is skipped before a value. -/
theorem skipSpace_of_starts {c : Char} (hc : startsValue c = true) (rest : Text) :
    skipSpace (c :: rest) = c :: rest := by
  simp only [startsValue, Bool.and_eq_true, decide_eq_true_eq, ne_eq] at hc
  rcases hc with ⟨⟨⟨⟨⟨⟨hblank, htab⟩, hnew⟩, hret⟩, -⟩, -⟩, -⟩
  simp [skipSpace, hblank, htab, hnew, hret]

/-- A digit begins a value. -/
theorem startsValue_digitChar {d : Nat} (hd : d < 10) : startsValue (digitChar d) = true := by
  interval_cases d <;> decide

section RoundTrip

variable {repr : ℚ → FloatLiteral}

/-- A literal begins a value, and no container. -/
theorem toText_head (l : Literal) :
    ∃ c rest, l.toText 'e' = c :: rest ∧ startsValue c = true ∧ c ≠ '{' ∧ c ≠ '[' := by
  rcases l.body_head 'e' with ⟨d, rest, hd, hbody⟩
  unfold Literal.toText
  split_ifs
  · exact ⟨'-', l.body 'e', rfl, by decide⟩
  · refine ⟨digitChar d, rest, hbody, startsValue_digitChar hd, ?_⟩
    interval_cases d <;> decide

/-- The literal of an integer: digits only. -/
def intLiteral (n : ℤ) : Literal where
  negative := decide (n < 0)
  whole := natDigits n.natAbs
  fraction := []
  exponent := none
  whole_ne := natDigits_ne_nil _
  whole_lt := fun _ hd => natDigits_lt hd
  fraction_lt := by simp
  exponent_ne := by simp
  exponent_lt := by simp

/-- An integer is written as its literal. -/
theorem intText_eq (letter : Char) (n : ℤ) : intText n = (intLiteral n).toText letter := by
  simp [intText, intLiteral, Literal.toText, Literal.body, Literal.fractionText,
    Literal.exponentText]

/-- Every value begins with such a character, and only a container with its bracket. -/
theorem write_head (v : Json) :
    ∃ c rest, write repr v = c :: rest ∧ startsValue c = true ∧
      (LeafReadable repr v → c ≠ '{' ∧ c ≠ '[') := by
  cases v with
  | null => exact ⟨'n', "ull".toList, rfl, by decide, fun _ => by decide⟩
  | bool b =>
      cases b with
      | false => exact ⟨'f', "alse".toList, rfl, by decide, fun _ => by decide⟩
      | true => exact ⟨'t', "rue".toList, rfl, by decide, fun _ => by decide⟩
  | int n =>
      rcases toText_head (intLiteral n) with ⟨c, rest, htext, hc, hscalar⟩
      exact ⟨c, rest, by rw [write, intText_eq 'e', htext], hc, fun _ => hscalar⟩
  | float x =>
      cases x with
      | nan => exact ⟨'N', "aN".toList, rfl, by decide, fun _ => by decide⟩
      | infinity negative =>
          cases negative with
          | false => exact ⟨'I', "nfinity".toList, rfl, by decide, fun _ => by decide⟩
          | true => exact ⟨'-', "Infinity".toList, rfl, by decide, fun _ => by decide⟩
      | finite x =>
          rcases toText_head (repr x).toLiteral with ⟨c, rest, htext, hc, hscalar⟩
          exact ⟨c, rest, by rw [write, floatText, htext], hc, fun _ => hscalar⟩
  | str s => exact ⟨'"', escape s, by rw [write], by decide, fun _ => by decide⟩
  | list items => exact ⟨'[', _, by rw [write], by decide, fun h => h.elim⟩
  | dict items => exact ⟨'{', _, by rw [write], by decide, fun h => h.elim⟩

/-- A digit is none of the words. -/
theorem find_constants_digit {d : Nat} (hd : d < 10) (rest : Text) :
    constants.find? (fun c => c.1.isPrefixOf (digitChar d :: rest)) = none := by
  interval_cases d <;> simp [constants, digitChar, List.isPrefixOf]

/-- A digit behind a minus sign is none of the words. -/
theorem find_constants_minus {d : Nat} (hd : d < 10) (rest : Text) :
    constants.find? (fun c => c.1.isPrefixOf ('-' :: digitChar d :: rest)) = none := by
  interval_cases d <;> simp [constants, digitChar, List.isPrefixOf]

/-- The digits before the point, where there is no leading zero. -/
theorem takeWhole_body {l : Literal} (hlead : l.whole.head? = some 0 → l.whole = [0])
    {rest : Text} (hrest : EndsNumber rest) :
    takeWhole (l.body 'e' ++ rest) =
      (l.whole, l.fractionText ++ (l.exponentText 'e' ++ rest)) := by
  have hdigits := l.takeDigits_body hrest (Or.inl rfl)
  unfold takeWhole
  rw [hdigits]
  split_ifs with hzero
  · have hwhole : l.whole = [0] := hlead hzero
    rw [hwhole]
    simp [Literal.body, hwhole]
  · rfl

/-- The digits behind the point. -/
theorem numberFraction_text (l : Literal) {rest : Text} (hrest : EndsNumber rest) :
    numberFraction (l.fractionText ++ (l.exponentText 'e' ++ rest)) =
      (l.fraction, l.exponentText 'e' ++ rest) := by
  have hfraction := l.takeFraction_text hrest (Or.inl rfl)
  unfold numberFraction
  rw [hfraction]
  split_ifs with hnil
  · have hnone : l.fraction = [] := hnil
    simp [Literal.fractionText, hnone]
  · rfl

/-- A literal goes to `finishNumber`. -/
theorem scanScalar_toText {l : Literal} (hlead : l.whole.head? = some 0 → l.whole = [0])
    {rest : Text} (hrest : EndsNumber rest) :
    scanScalar (l.toText 'e' ++ rest) =
      finishNumber l.negative l.whole l.fraction (l.exponentText 'e' ++ rest) := by
  have hunsigned : ∀ negative, scanUnsigned negative (l.body 'e' ++ rest) =
      finishNumber negative l.whole l.fraction (l.exponentText 'e' ++ rest) := by
    intro negative
    unfold scanUnsigned
    simp only [takeWhole_body hlead hrest, l.whole_ne, if_false, numberFraction_text l hrest]
  rcases l.body_head 'e' with ⟨d, tail, hd, hbody⟩
  rw [Literal.toText]
  split_ifs with hneg
  · have hwords := find_constants_minus hd (tail ++ rest)
    have htext : '-' :: l.body 'e' ++ rest = '-' :: digitChar d :: (tail ++ rest) := by
      rw [hbody]
      rfl
    rw [scanScalar, htext, hwords]
    simp only [List.head?_cons, Option.some.injEq, scanNumber]
    rw [if_neg (by decide), if_pos trivial, List.tail_cons, ← List.cons_append, ← hbody,
      hunsigned true, hneg]
  · have hwords := find_constants_digit hd (tail ++ rest)
    have htext : l.body 'e' ++ rest = digitChar d :: (tail ++ rest) := by
      rw [hbody]
      rfl
    have hquote : digitChar d ≠ '"' := by interval_cases d <;> decide
    have hminus : digitChar d ≠ '-' := by interval_cases d <;> decide
    have hfalse : l.negative = false := by simpa using hneg
    rw [scanScalar, htext, hwords]
    simp only [List.head?_cons, Option.some.injEq, scanNumber, hquote, hminus, if_false]
    rw [← htext, hunsigned false, hfalse]

/-- A value without containers is read back. -/
theorem scanScalar_write {v : Json} (hv : LeafReadable repr v) {rest : Text}
    (hrest : EndsNumber rest) : scanScalar (write repr v ++ rest) = .ok (v, rest) := by
  cases v with
  | null => rfl
  | bool b => cases b <;> rfl
  | int n =>
      have hshort : ¬ maxStrDigits < (natDigits n.natAbs).length := Nat.not_lt.mpr hv
      have hexponent := (intLiteral n).takeExponent_text hrest (Or.inl rfl)
      rw [write, intText_eq 'e', scanScalar_toText natDigits_head hrest]
      unfold finishNumber
      rw [hexponent]
      simp only [intLiteral, Option.map_none, ne_eq, not_true_eq_false, if_false, hshort,
        digitsValue_natDigits, ite_neg_natAbs, Literal.exponentText, List.nil_append]
  | float x =>
      cases x with
      | nan => rfl
      | infinity negative => cases negative <;> rfl
      | finite x =>
          have hvalue : PyFloat.ofRat (repr x).value = .finite x := hv
          have hexponent := (repr x).takeExponent_text hrest (Or.inl rfl)
          rw [write, floatText, scanScalar_toText (repr x).lead hrest]
          unfold finishNumber
          rw [hexponent, ← hvalue]
          cases hexp : (repr x).exponent with
          | none =>
              have hfraction : (repr x).fraction ≠ [] := by
                rcases (repr x).shown with h | h
                · exact h
                · exact absurd hexp h
              simp [hfraction, Literal.value, Literal.exponentValue, Literal.exponentText, hexp]
          | some e => rfl
  | str s =>
      have hscan := scanString_escape s rest
      simp [write, scanScalar, constants, List.isPrefixOf, hscan, Except.map]
  | list items => exact hv.elim
  | dict items => exact hv.elim

/-! ## Containers -/

/-- Behind a value in a container. -/
theorem endsNumber_cons {c : Char} (hc : c = ',' ∨ c = ']' ∨ c = '}') (rest : Text) :
    EndsNumber (c :: rest) := by
  intro d hd
  have heq : c = d := by simpa using hd
  subst heq
  rcases hc with rfl | rfl | rfl <;> decide

/-- The blank before a value is skipped. -/
theorem skipSpace_write (v : Json) (rest : Text) :
    skipSpace (' ' :: (write repr v ++ rest)) = write repr v ++ rest := by
  rcases @write_head repr v with ⟨c, tail, hwrite, hc, -⟩
  have hblank : ∀ text, skipSpace (' ' :: text) = skipSpace text := fun text => by
    simp [skipSpace]
  rw [hblank, hwrite, List.cons_append, skipSpace_of_starts hc]

/-- Every value takes a character. -/
theorem write_ne_nil (v : Json) : 1 ≤ (write repr v).length := by
  rcases @write_head repr v with ⟨c, tail, hwrite, -, -⟩
  rw [hwrite]
  simp

section Scan

variable {scan : Text → Scan Json}

/-- The items of a list are read back. -/
theorem scanItems_write {items : List Json} (hne : items ≠ [])
    (hscan : ∀ item ∈ items, ∀ rest, EndsNumber rest →
      scan (write repr item ++ rest) = .ok (item, rest))
    {fuel : Nat} (hfuel : items.length ≤ fuel) (rest : Text) :
    scanItems scan fuel (writeItems repr items ++ ']' :: rest) = .ok (items, rest) := by
  induction items generalizing fuel with
  | nil => exact absurd rfl hne
  | cons item more ih =>
      cases fuel with
      | zero => simp at hfuel
      | succ fuel =>
          have hitem := hscan item (by simp)
          cases more with
          | nil =>
              have htext : writeItems repr [item] ++ ']' :: rest =
                  write repr item ++ ']' :: rest := by simp [writeItems]
              rw [htext, scanItems, hitem _ (endsNumber_cons (by simp) rest)]
              simp [skipSpace]
          | cons next more =>
              have htext : writeItems repr (item :: next :: more) ++ ']' :: rest =
                  write repr item ++
                    ',' :: ' ' :: (writeItems repr (next :: more) ++ ']' :: rest) := by
                simp [writeItems]
              have hblank : skipSpace (' ' :: (writeItems repr (next :: more) ++ ']' :: rest)) =
                  writeItems repr (next :: more) ++ ']' :: rest := by
                rw [writeItems, List.append_assoc, skipSpace_write]
              have hlength : (next :: more).length ≤ fuel := by simpa using hfuel
              have htail := ih (by simp)
                (fun other hother => hscan other (List.mem_cons_of_mem item hother)) hlength
              have hcomma : ∀ text, skipSpace (',' :: text) = ',' :: text := fun text => by
                simp [skipSpace]
              rw [htext, scanItems, hitem _ (endsNumber_cons (by simp) _)]
              simp only [hcomma, hblank, htail]
              rfl

/-- A key is read back. -/
theorem scanKey_escape (key : Text) {text : Text} (htext : skipSpace (' ' :: text) = text) :
    scanKey ('"' :: (escape key ++ (':' :: ' ' :: text))) = .ok (key, text) := by
  have hcolon : ∀ text, skipSpace (':' :: text) = ':' :: text := fun text => by simp [skipSpace]
  rw [scanKey, List.head?_cons, if_pos rfl, List.tail_cons, scanString_escape]
  simp only [hcolon, htext]
  rfl

/-- The members of a dictionary are read back. -/
theorem scanMembers_write {items : List (Text × Json)} (hne : items ≠ [])
    (hscan : ∀ item ∈ items, ∀ rest, EndsNumber rest →
      scan (write repr item.2 ++ rest) = .ok (item.2, rest))
    {fuel : Nat} (hfuel : items.length ≤ fuel) (rest : Text) :
    scanMembers scan fuel (writeMembers repr items ++ '}' :: rest) = .ok (items, rest) := by
  induction items generalizing fuel with
  | nil => exact absurd rfl hne
  | cons item more ih =>
      cases fuel with
      | zero => simp at hfuel
      | succ fuel =>
          have hitem := hscan item (by simp)
          cases more with
          | nil =>
              have htext : writeMembers repr [item] ++ '}' :: rest =
                  '"' :: (escape item.1 ++
                    (':' :: ' ' :: (write repr item.2 ++ '}' :: rest))) := by
                simp [writeMembers]
              rw [htext, scanMembers, scanKey_escape _ (skipSpace_write _ _)]
              simp only [hitem _ (endsNumber_cons (Or.inr (Or.inr rfl)) rest)]
              simp [skipSpace]
          | cons next more =>
              have htext : writeMembers repr (item :: next :: more) ++ '}' :: rest =
                  '"' :: (escape item.1 ++ (':' :: ' ' :: (write repr item.2 ++
                    ',' :: ' ' :: (writeMembers repr (next :: more) ++ '}' :: rest)))) := by
                simp [writeMembers]
              have hblank : skipSpace (' ' :: (writeMembers repr (next :: more) ++ '}' :: rest)) =
                  writeMembers repr (next :: more) ++ '}' :: rest := by
                simp [writeMembers, skipSpace]
              have hlength : (next :: more).length ≤ fuel := by simpa using hfuel
              have htail := ih (by simp)
                (fun other hother => hscan other (List.mem_cons_of_mem item hother)) hlength
              have hcomma : ∀ text, skipSpace (',' :: text) = ',' :: text := fun text => by
                simp [skipSpace]
              rw [htext, scanMembers, scanKey_escape _ (skipSpace_write _ _)]
              simp only [hitem _ (endsNumber_cons (Or.inl rfl) _), hcomma, hblank, htail]
              rfl

end Scan

/-- There are at least as many characters as items. -/
theorem length_writeItems (items : List Json) : items.length ≤ (writeItems repr items).length := by
  induction items with
  | nil => exact Nat.zero_le _
  | cons item more ih =>
      have hitem := @write_ne_nil repr item
      rw [writeItems]
      simp only [List.length_append, List.length_cons]
      omega

/-- There are at least as many characters as members. -/
theorem length_writeMembers (items : List (Text × Json)) :
    items.length ≤ (writeMembers repr items).length := by
  induction items with
  | nil => exact Nat.zero_le _
  | cons item more ih =>
      have hitem := @write_ne_nil repr item.2
      rw [writeMembers]
      simp only [List.length_append, List.length_cons]
      omega

/-- A value without containers, as `scanValue` reads it. -/
theorem scanValue_write (inner : Option (Text → Scan Json)) {v : Json}
    (hv : LeafReadable repr v) {rest : Text} (hrest : EndsNumber rest) :
    scanValue inner (write repr v ++ rest) = .ok (v, rest) := by
  have hscalar := scanScalar_write hv hrest
  rcases @write_head repr v with ⟨c, tail, hwrite, -, hc⟩
  rw [hwrite, List.cons_append] at hscalar ⊢
  rw [scanValue.eq_def]
  simp only [(hc hv).1, (hc hv).2, if_false, hscalar]

/-- A list is read back behind its bracket. -/
theorem scanList_write {scan : Text → Scan Json} {items : List Json}
    (hscan : ∀ item ∈ items, ∀ rest, EndsNumber rest →
      scan (write repr item ++ rest) = .ok (item, rest)) (rest : Text) :
    scanList scan (writeItems repr items ++ ']' :: rest) = .ok (.list items, rest) := by
  cases items with
  | nil => simp [writeItems, scanList, skipSpace]
  | cons item more =>
      rcases @write_head repr item with ⟨c, tail, hwrite, hc, -⟩
      have hfront : ∃ back, writeItems repr (item :: more) ++ ']' :: rest = c :: back := by
        rw [writeItems, hwrite]
        exact ⟨_, rfl⟩
      rcases hfront with ⟨back, hfront⟩
      have hclose : c ≠ ']' := by
        rintro rfl
        exact absurd hc (by decide)
      have hlength := @length_writeItems repr (item :: more)
      have hitems := scanItems_write (by simp) hscan
        (show (item :: more).length ≤ (writeItems repr (item :: more) ++ ']' :: rest).length + 1 by
          rw [List.length_append]
          omega) rest
      unfold scanList
      rw [hfront] at hitems ⊢
      rw [skipSpace_of_starts hc]
      dsimp only
      rw [hitems]
      simp [hclose, Except.map]

/-- A dictionary is read back behind its brace. -/
theorem scanDict_write {scan : Text → Scan Json} {items : List (Text × Json)}
    (hnodup : (Dict.keys items).Nodup)
    (hscan : ∀ item ∈ items, ∀ rest, EndsNumber rest →
      scan (write repr item.2 ++ rest) = .ok (item.2, rest)) (rest : Text) :
    scanDict scan (writeMembers repr items ++ '}' :: rest) = .ok (.dict items, rest) := by
  cases items with
  | nil => simp [writeMembers, scanDict, skipSpace]
  | cons item more =>
      have hfront : ∃ back, writeMembers repr (item :: more) ++ '}' :: rest = '"' :: back := by
        rw [writeMembers]
        exact ⟨_, rfl⟩
      rcases hfront with ⟨back, hfront⟩
      have hlength := @length_writeMembers repr (item :: more)
      have hitems := scanMembers_write (by simp) hscan
        (show (item :: more).length ≤
            (writeMembers repr (item :: more) ++ '}' :: rest).length + 1 by
          rw [List.length_append]
          omega) rest
      unfold scanDict
      rw [hfront] at hitems ⊢
      rw [skipSpace_of_starts (by decide)]
      dsimp only
      rw [hitems]
      simp [Except.map, Dict.index_of_nodup hnodup]

/-- A value is read back at the front of a text. -/
theorem scanOnce_write {depth : Nat} {v : Json} (hv : Readable repr depth v) {rest : Text}
    (hrest : EndsNumber rest) : scanOnce depth (write repr v ++ rest) = .ok (v, rest) := by
  induction depth generalizing v rest with
  | zero => exact scanValue_write none hv hrest
  | succ depth ih =>
      have hleaf : LeafReadable repr v →
          scanOnce (depth + 1) (write repr v ++ rest) = .ok (v, rest) :=
        fun hleaf => scanValue_write _ hleaf hrest
      cases v with
      | null => exact hleaf hv
      | bool b => exact hleaf hv
      | int n => exact hleaf hv
      | float x => exact hleaf hv
      | str s => exact hleaf hv
      | list items =>
          have hitems : ∀ item ∈ items, ∀ rest, EndsNumber rest →
              scanOnce depth (write repr item ++ rest) = .ok (item, rest) :=
            fun item hitem rest hrest => ih (hv item hitem) hrest
          have htext : write repr (.list items) ++ rest =
              '[' :: (writeItems repr items ++ ']' :: rest) := by simp [write]
          have hlist : scanList (scanOnce depth) (writeItems repr items ++ ']' :: rest) =
              .ok (.list items, rest) := scanList_write hitems rest
          rw [htext, scanOnce, scanValue.eq_def]
          simpa using hlist
      | dict items =>
          have hitems : ∀ item ∈ items, ∀ rest, EndsNumber rest →
              scanOnce depth (write repr item.2 ++ rest) = .ok (item.2, rest) :=
            fun item hitem rest hrest => ih (hv.2 item hitem) hrest
          have htext : write repr (.dict items) ++ rest =
              '{' :: (writeMembers repr items ++ '}' :: rest) := by simp [write]
          have hdict : scanDict (scanOnce depth) (writeMembers repr items ++ '}' :: rest) =
              .ok (.dict items, rest) := scanDict_write hv.1 hitems rest
          rw [htext, scanOnce, scanValue.eq_def]
          simpa using hdict

/-- A value without containers may be nested anywhere. -/
theorem LeafReadable.readable {v : Json} (hv : LeafReadable repr v) (depth : Nat) :
    Readable repr depth v := by
  cases depth with
  | zero => exact hv
  | succ depth =>
      cases v with
      | list items => exact hv.elim
      | dict items => exact hv.elim
      | null | bool _ | int _ | float _ | str _ => exact hv

/-- Items without integers of too many digits. -/
theorem itemsFit_of_forall {items : List Json} (h : ∀ item ∈ items, fits item = true) :
    itemsFit items = true := by
  induction items with
  | nil => rfl
  | cons item more ih =>
      rw [itemsFit, h item (by simp), ih fun other hother => h other (by simp [hother])]
      rfl

/-- Members without integers of too many digits. -/
theorem membersFit_of_forall {items : List (Text × Json)}
    (h : ∀ item ∈ items, fits item.2 = true) : membersFit items = true := by
  induction items with
  | nil => rfl
  | cons item more ih =>
      rw [membersFit, h item (by simp), ih fun other hother => h other (by simp [hother])]
      rfl

/-- What reads back has no integer of too many digits. -/
theorem fits_of_readable {depth : Nat} {v : Json} (hv : Readable repr depth v) :
    fits v = true := by
  have hleaf : ∀ v, LeafReadable repr v → fits v = true := by
    intro v hv
    cases v with
    | int n => exact decide_eq_true hv
    | list items => exact hv.elim
    | dict items => exact hv.elim
    | null | bool _ | float _ | str _ => rfl
  induction depth generalizing v with
  | zero => exact hleaf v hv
  | succ depth ih =>
      cases v with
      | null | bool _ | int _ | float _ | str _ => exact hleaf _ hv
      | list items =>
          rw [fits]
          exact itemsFit_of_forall fun item hitem => ih (hv item hitem)
      | dict items =>
          rw [fits]
          exact membersFit_of_forall fun item hitem => ih (hv.2 item hitem)

/-- The decoder inverts the encoder. -/
theorem loads_dumps {depth : Nat} {v : Json} (hv : Readable repr depth v) :
    ∃ text, dumps repr v = some text ∧ loads depth text = .ok v := by
  refine ⟨write repr v, by rw [dumps, if_pos (fits_of_readable hv)], ?_⟩
  have hscan := scanOnce_write hv Literal.endsNumber_nil
  rcases @write_head repr v with ⟨c, tail, hwrite, hc, -⟩
  have hbom : c ≠ Char.ofNat 0xFEFF := by
    rintro rfl
    exact absurd hc (by decide)
  rw [List.append_nil] at hscan
  unfold loads
  rw [hwrite] at hscan ⊢
  rw [skipSpace_of_starts hc, hscan]
  simp [hbom, skipSpace]

/-- Different values are written differently. -/
theorem write_injOn {depth : Nat} {v w : Json} (hv : Readable repr depth v)
    (hw : Readable repr depth w) (h : write repr v = write repr w) : v = w := by
  have hscan := scanOnce_write hv Literal.endsNumber_nil
  rw [h, scanOnce_write hw Literal.endsNumber_nil, Except.ok.injEq, Prod.mk.injEq] at hscan
  exact hscan.1.symm

end RoundTrip

end Json
end Karsa
