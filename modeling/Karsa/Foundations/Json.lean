import Karsa.Foundations.Dicts
import Karsa.Foundations.PythonNumbers

/-!
# Foundations - Python's JSON decoder

`json.loads` reads more than JSON: the words `NaN` and `Infinity`, floats that overflow, and
escaped surrogates without a partner.  It raises `JSONDecodeError` for a text that is not
JSON, the plain `ValueError` of `int` for an integer of too many digits, and
`RecursionError` for containers nested deeper than the interpreter's stack allows; the
first of these that is met wins.

The depth that is left at the call is a parameter.  The loops over the members of a
container get the length of the text as fuel.

Main results:

- Theorem `scanOnce_consumes`: a value that was read is not empty.
- Theorem `scanItems_fuel`, `scanMembers_fuel`: the fuel is enough.
-/

namespace Karsa

/-! ## Values and errors -/

/-- What `json.loads` returns. -/
inductive Json where
  | null
  | bool (b : Bool)
  | int (n : ℤ)
  | float (x : PyFloat)
  | str (s : Text)
  | list (items : List Json)
  | dict (items : List (Text × Json))

/-- What it raises: `JSONDecodeError`, the `ValueError` of `int`, or `RecursionError`. -/
inductive JsonError where
  | decode
  | digits
  | recursion
deriving Repr, DecidableEq

/-- A value at the front of a text, and what follows it. -/
abbrev Scan (α : Type) := Except JsonError (α × Text)

namespace Json

/-- Whitespace between tokens. -/
def skipSpace (text : Text) : Text :=
  text.dropWhile fun c => c = ' ' || c = '\t' || c = '\n' || c = '\r'

/-! ## Strings -/

/-- Value of a hexadecimal digit. -/
def hexDigit (c : Char) : Option Nat :=
  if '0' ≤ c ∧ c ≤ '9' then some (c.toNat - '0'.toNat)
  else if 'a' ≤ c ∧ c ≤ 'f' then some (c.toNat - 'a'.toNat + 10)
  else if 'A' ≤ c ∧ c ≤ 'F' then some (c.toNat - 'A'.toNat + 10)
  else none

/-- The number that a row of hexadecimal digits writes. -/
def hexValue (digits : Text) : Option Nat :=
  digits.foldlM (fun n c => (hexDigit c).map fun d => 16 * n + d) 0

/-- The character behind a backslash. -/
def escaped (c : Char) : Option Nat :=
  if c = '"' ∨ c = '\\' ∨ c = '/' then some c.toNat
  else if c = 'b' then some 8
  else if c = 'f' then some 12
  else if c = 'n' then some 10
  else if c = 'r' then some 13
  else if c = 't' then some 9
  else none

/-- Put one unit before those of the rest. -/
def consUnit (unit : Nat) (scan : Scan (List Nat)) : Scan (List Nat) :=
  scan.map fun s => (unit :: s.1, s.2)

/-- Code points of a string behind its opening quote, escaped surrogates one by one. -/
def scanUnits : Text → Scan (List Nat)
  | [] => .error .decode
  | c :: rest =>
      if c = '"' then .ok ([], rest)
      else if c = '\\' then
        match rest with
        | [] => .error .decode
        | e :: rest =>
            if e = 'u' then
              match rest with
              | h₁ :: h₂ :: h₃ :: h₄ :: rest =>
                  match hexValue [h₁, h₂, h₃, h₄] with
                  | none => .error .decode
                  | some unit => consUnit unit (scanUnits rest)
              | _ => .error .decode
            else
              match escaped e with
              | none => .error .decode
              | some unit => consUnit unit (scanUnits rest)
      else if c.toNat < 32 then .error .decode
      else consUnit c.toNat (scanUnits rest)

/-- First half of a surrogate pair. -/
def isHigh (unit : Nat) : Bool :=
  0xD800 ≤ unit && unit < 0xDC00

/-- Second half of a surrogate pair. -/
def isLow (unit : Nat) : Bool :=
  0xDC00 ≤ unit && unit < 0xE000

/-- The character of a unit; the replacement character stands for a lone surrogate. -/
def unitChar (unit : Nat) : Char :=
  if isHigh unit || isLow unit then Char.ofNat 0xFFFD else Char.ofNat unit

/-- Join the surrogate pairs. -/
def joinSurrogates : List Nat → Text
  | [] => []
  | [unit] => [unitChar unit]
  | high :: low :: rest =>
      if isHigh high && isLow low then
        Char.ofNat (0x10000 + (high - 0xD800) * 0x400 + (low - 0xDC00)) :: joinSurrogates rest
      else unitChar high :: joinSurrogates (low :: rest)

/-- A string behind its opening quote. -/
def scanString (text : Text) : Scan Text :=
  (scanUnits text).map fun s => (joinSurrogates s.1, s.2)

/-! ## Numbers and constants -/

/-- The digits before a fraction: no leading zero. -/
def takeWhole (text : Text) : List Nat × Text :=
  if (takeDigits text).1.head? = some 0 then ([0], text.tail) else takeDigits text

/-- The fraction of a number: a point without digits behind it is none. -/
def numberFraction (text : Text) : List Nat × Text :=
  if (takeFraction text).1 = [] then ([], text) else takeFraction text

/-- A number from its exponent on. -/
def finishNumber (negative : Bool) (digits fraction : List Nat) (text : Text) : Scan Json :=
  match takeExponent text with
  | some (exponent, rest) =>
      .ok (.float (.ofRat (decimalValue negative digits fraction exponent)), rest)
  | none =>
      if fraction ≠ [] then
        .ok (.float (.ofRat (decimalValue negative digits fraction 0)), text)
      else if maxStrDigits < digits.length then .error .digits
      else .ok (.int (if negative then -(digitsValue digits : ℤ) else digitsValue digits), text)

/-- A number behind its sign. -/
def scanUnsigned (negative : Bool) (text : Text) : Scan Json :=
  let (digits, text) := takeWhole text
  if digits = [] then .error .decode
  else finishNumber negative digits (numberFraction text).1 (numberFraction text).2

/-- A number. -/
def scanNumber (text : Text) : Scan Json :=
  if text.head? = some '-' then scanUnsigned true text.tail else scanUnsigned false text

/-- The words that stand for values. -/
def constants : List (Text × Json) :=
  [("null".toList, .null), ("true".toList, .bool true), ("false".toList, .bool false),
    ("NaN".toList, .float .nan), ("Infinity".toList, .float (.infinity false)),
    ("-Infinity".toList, .float (.infinity true))]

/-- A value that is no container. -/
def scanScalar (text : Text) : Scan Json :=
  match constants.find? fun c => c.1.isPrefixOf text with
  | some (word, value) => .ok (value, text.drop word.length)
  | none =>
      if text.head? = some '"' then
        (scanString text.tail).map fun s => (.str s.1, s.2)
      else scanNumber text

/-! ## Containers -/

section Containers

variable (scan : Text → Scan Json)

/-- The items of a list from one on. -/
def scanItems : (fuel : Nat) → Text → Scan (List Json)
  | 0, _ => .error .decode
  | fuel + 1, text =>
      match scan text with
      | .error e => .error e
      | .ok (item, text) =>
          match skipSpace text with
          | [] => .error .decode
          | c :: rest =>
              if c = ']' then .ok ([item], rest)
              else if c = ',' then
                (scanItems fuel (skipSpace rest)).map fun s => (item :: s.1, s.2)
              else .error .decode

/-- A key with the colon behind it. -/
def scanKey (text : Text) : Scan Text :=
  if text.head? = some '"' then
    match scanString text.tail with
    | .error e => .error e
    | .ok (key, text) =>
        match skipSpace text with
        | [] => .error .decode
        | c :: rest => if c = ':' then .ok (key, skipSpace rest) else .error .decode
  else .error .decode

/-- The members of a dictionary from one on. -/
def scanMembers : (fuel : Nat) → Text → Scan (List (Text × Json))
  | 0, _ => .error .decode
  | fuel + 1, text =>
      match scanKey text with
      | .error e => .error e
      | .ok (key, text) =>
          match scan text with
          | .error e => .error e
          | .ok (value, text) =>
              match skipSpace text with
              | [] => .error .decode
              | c :: rest =>
                  if c = '}' then .ok ([(key, value)], rest)
                  else if c = ',' then
                    (scanMembers fuel (skipSpace rest)).map fun s => ((key, value) :: s.1, s.2)
                  else .error .decode

/-- A list behind its bracket. -/
def scanList (text : Text) : Scan Json :=
  let text := skipSpace text
  if text.head? = some ']' then .ok (.list [], text.tail)
  else (scanItems scan (text.length + 1) text).map fun s => (.list s.1, s.2)

/-- A dictionary behind its brace: of equal keys the last one counts. -/
def scanDict (text : Text) : Scan Json :=
  let text := skipSpace text
  if text.head? = some '}' then .ok (.dict [], text.tail)
  else (scanMembers scan (text.length + 1) text).map fun s => (.dict (Dict.index s.1), s.2)

end Containers

/-- One value, with a scanner for what a container holds unless the stack is used up. -/
def scanValue (inner : Option (Text → Scan Json)) : Text → Scan Json
  | [] => .error .decode
  | c :: rest =>
      if c = '{' then
        match inner with
        | none => .error .recursion
        | some scan => scanDict scan rest
      else if c = '[' then
        match inner with
        | none => .error .recursion
        | some scan => scanList scan rest
      else scanScalar (c :: rest)

/-- `scan_once` with the depth that is left. -/
def scanOnce : (depth : Nat) → Text → Scan Json
  | 0 => scanValue none
  | depth + 1 => scanValue (some (scanOnce depth))

/-- `json.loads`. -/
def loads (depth : Nat) (text : Text) : Except JsonError Json :=
  if text.head? = some (Char.ofNat 0xFEFF) then .error .decode
  else
    match scanOnce depth (skipSpace text) with
    | .error e => .error e
    | .ok (value, rest) => if skipSpace rest = [] then .ok value else .error .decode

/-! ## The fuel is enough -/

/-- What is read of a text is not empty. -/
def Consumes {α : Type} (scan : Text → Scan α) : Prop :=
  ∀ text value rest, scan text = .ok (value, rest) → rest.length < text.length

theorem length_skipSpace_le (text : Text) : (skipSpace text).length ≤ text.length :=
  (List.dropWhile_suffix _).length_le

/-- A text whose front was read off and whose next token is a character. -/
theorem length_behind {text rest : Text} {c : Char} (h : skipSpace text = c :: rest) :
    rest.length < text.length := by
  have hle := length_skipSpace_le text
  rw [h, List.length_cons] at hle
  omega

/-- Reading on and mapping the result. -/
theorem map_eq_ok {α β : Type} {scan : Scan α} {f : α × Text → β × Text} {value : β}
    {rest : Text} (h : scan.map f = .ok (value, rest)) :
    ∃ s, scan = .ok s ∧ f s = (value, rest) := by
  cases hscan : scan with
  | error e =>
      rw [hscan] at h
      cases h
  | ok s =>
      rw [hscan] at h
      exact ⟨s, rfl, Except.ok.inj h⟩

/-- Units before a row of units do not change what follows it. -/
theorem consUnit_consumes {unit : Nat} {scan : Scan (List Nat)} {n : Nat}
    (h : ∀ units rest, scan = .ok (units, rest) → rest.length < n) :
    ∀ units rest, consUnit unit scan = .ok (units, rest) → rest.length < n := by
  intro units rest hcons
  rcases map_eq_ok hcons with ⟨s, hscan, heq⟩
  have hrest : s.2 = rest := congrArg Prod.snd heq
  exact h s.1 rest (by rw [hscan, ← hrest])

theorem scanUnits_consumes : Consumes scanUnits := by
  intro text
  fun_induction scanUnits text with
  | case2 rest =>
      intro units rest' h
      cases h
      exact Nat.lt_succ_self _
  | case5 h₁ h₂ h₃ h₄ rest unit _ _ ih =>
      refine consUnit_consumes fun units rest' h => (ih units rest' h).trans ?_
      simp only [List.length_cons]
      omega
  | case8 e rest _ unit _ _ ih =>
      refine consUnit_consumes fun units rest' h => (ih units rest' h).trans ?_
      simp only [List.length_cons]
      omega
  | case10 c rest _ _ _ ih =>
      refine consUnit_consumes fun units rest' h => (ih units rest' h).trans ?_
      exact Nat.lt_succ_self _
  | _ =>
      intro units rest' h
      cases h

theorem scanString_consumes : Consumes scanString := by
  intro text value rest h
  rcases map_eq_ok h with ⟨s, hscan, heq⟩
  have hrest : s.2 = rest := congrArg Prod.snd heq
  exact scanUnits_consumes text s.1 rest (by rw [hscan, ← hrest])

/-- A row of digits is not empty. -/
theorem length_takeDigits_lt {text : Text} (h : (takeDigits text).1 ≠ []) :
    (takeDigits text).2.length < text.length := by
  cases text with
  | nil => exact absurd rfl h
  | cons c rest =>
      rw [takeDigits] at h ⊢
      split at h
      · exact absurd rfl h
      · exact Nat.lt_succ_of_le (length_takeDigits_le rest)

theorem length_takeWhole_lt {text : Text} (h : (takeWhole text).1 ≠ []) :
    (takeWhole text).2.length < text.length := by
  unfold takeWhole at h ⊢
  split_ifs at h ⊢ with hzero
  · cases text with
    | nil => cases hzero
    | cons c rest => exact Nat.lt_succ_self _
  · exact length_takeDigits_lt h

theorem length_takeSign_le (text : Text) : (takeSign text).2.length ≤ text.length := by
  unfold takeSign
  split
  · exact Nat.le_succ _
  · exact Nat.le_succ _
  · exact le_rfl

theorem length_takeFraction_le (text : Text) :
    (takeFraction text).2.length ≤ text.length := by
  unfold takeFraction
  split
  · exact (length_takeDigits_le _).trans (Nat.le_succ _)
  · exact le_rfl

theorem length_takeExponent_le {text rest : Text} {exponent : ℤ}
    (h : takeExponent text = some (exponent, rest)) : rest.length ≤ text.length := by
  cases text with
  | nil => cases h
  | cons c tail =>
      rw [takeExponent] at h
      dsimp only at h
      split_ifs at h
      all_goals
        have hrest : (takeDigits (takeSign tail).2).2 = rest :=
          congrArg Prod.snd (Option.some.inj h)
        rw [← hrest]
        exact ((length_takeDigits_le _).trans (length_takeSign_le tail)).trans (Nat.le_succ _)

theorem length_numberFraction_le (text : Text) :
    (numberFraction text).2.length ≤ text.length := by
  unfold numberFraction
  split_ifs
  · exact le_rfl
  · exact length_takeFraction_le text

theorem finishNumber_length_le {negative : Bool} {digits fraction : List Nat} {text : Text}
    {value : Json} {rest : Text}
    (h : finishNumber negative digits fraction text = .ok (value, rest)) :
    rest.length ≤ text.length := by
  unfold finishNumber at h
  cases hexponent : takeExponent text with
  | some e =>
      rw [hexponent] at h
      have hrest : e.2 = rest := congrArg Prod.snd (Except.ok.inj h)
      exact length_takeExponent_le (hexponent.trans (by rw [← hrest]))
  | none =>
      rw [hexponent] at h
      dsimp only at h
      split_ifs at h
      all_goals
        have hrest : text = rest := congrArg Prod.snd (Except.ok.inj h)
        rw [hrest]

theorem scanUnsigned_consumes (negative : Bool) : Consumes (scanUnsigned negative) := by
  intro text value rest h
  unfold scanUnsigned at h
  dsimp only at h
  split_ifs at h with hdigits
  calc
    rest.length ≤ (numberFraction (takeWhole text).2).2.length := finishNumber_length_le h
    _ ≤ (takeWhole text).2.length := length_numberFraction_le _
    _ < text.length := length_takeWhole_lt hdigits

theorem scanNumber_consumes : Consumes scanNumber := by
  intro text value rest h
  unfold scanNumber at h
  split_ifs at h
  · exact (scanUnsigned_consumes true _ _ _ h).trans_le (List.length_tail ▸ Nat.sub_le _ _)
  · exact scanUnsigned_consumes false _ _ _ h

theorem scanScalar_consumes : Consumes scanScalar := by
  intro text value rest h
  unfold scanScalar at h
  cases hword : constants.find? fun c => c.1.isPrefixOf text with
  | some c =>
      rw [hword] at h
      have hrest : text.drop c.1.length = rest := congrArg Prod.snd (Except.ok.inj h)
      have hfound : c.1.isPrefixOf text = true := by simpa using List.find?_some hword
      have hprefix : c.1 <+: text := List.isPrefixOf_iff_prefix.mp hfound
      have hlong : ∀ c ∈ constants, 0 < c.1.length := by decide
      have hpos := hlong c (List.mem_of_find?_eq_some hword)
      have hle := hprefix.length_le
      rw [← hrest, List.length_drop]
      omega
  | none =>
      rw [hword] at h
      dsimp only at h
      split_ifs at h
      · rcases map_eq_ok h with ⟨s, hscan, heq⟩
        have hrest : s.2 = rest := congrArg Prod.snd heq
        have hlt := scanString_consumes text.tail s.1 rest (by rw [hscan, ← hrest])
        exact hlt.trans_le (List.length_tail ▸ Nat.sub_le _ _)
      · exact scanNumber_consumes _ _ _ h

section ContainerFuel

variable {scan : Text → Scan Json}

/-- Each item takes a part of the text, so that fuel beyond its length changes nothing. -/
theorem scanItems_fuel (hscan : Consumes scan) {text : Text} {fuel fuel' : Nat}
    (h : text.length < fuel) (h' : text.length < fuel') :
    scanItems scan fuel text = scanItems scan fuel' text := by
  induction fuel generalizing text fuel' with
  | zero => omega
  | succ fuel ih =>
      cases fuel' with
      | zero => omega
      | succ fuel' =>
          rw [scanItems, scanItems]
          cases hitem : scan text with
          | error e => rfl
          | ok s =>
              have hlt := hscan text s.1 s.2 hitem
              dsimp only
              cases hspace : skipSpace s.2 with
              | nil => rfl
              | cons c rest =>
                  have hrest := length_behind hspace
                  have hnext := length_skipSpace_le rest
                  dsimp only
                  rw [@ih (skipSpace rest) fuel' (by omega) (by omega)]

theorem scanKey_consumes : Consumes scanKey := by
  intro text key rest h
  unfold scanKey at h
  split_ifs at h
  cases hstring : scanString text.tail with
  | error e =>
      rw [hstring] at h
      cases h
  | ok s =>
      rw [hstring] at h
      dsimp only at h
      have hlt := scanString_consumes text.tail s.1 s.2 hstring
      cases hspace : skipSpace s.2 with
      | nil =>
          rw [hspace] at h
          cases h
      | cons c tail =>
          rw [hspace] at h
          dsimp only at h
          split_ifs at h
          have hrest : skipSpace tail = rest := congrArg Prod.snd (Except.ok.inj h)
          have hbehind := length_behind hspace
          have hnext := length_skipSpace_le tail
          have htail : text.tail.length ≤ text.length := List.length_tail ▸ Nat.sub_le _ _
          rw [← hrest]
          omega

/-- The same for the members of a dictionary. -/
theorem scanMembers_fuel (hscan : Consumes scan) {text : Text} {fuel fuel' : Nat}
    (h : text.length < fuel) (h' : text.length < fuel') :
    scanMembers scan fuel text = scanMembers scan fuel' text := by
  induction fuel generalizing text fuel' with
  | zero => omega
  | succ fuel ih =>
      cases fuel' with
      | zero => omega
      | succ fuel' =>
          rw [scanMembers, scanMembers]
          cases hkey : scanKey text with
          | error e => rfl
          | ok k =>
              have hkeylt := scanKey_consumes text k.1 k.2 hkey
              dsimp only
              cases hvalue : scan k.2 with
              | error e => rfl
              | ok s =>
                  have hlt := hscan k.2 s.1 s.2 hvalue
                  dsimp only
                  cases hspace : skipSpace s.2 with
                  | nil => rfl
                  | cons c rest =>
                      have hrest := length_behind hspace
                      have hnext := length_skipSpace_le rest
                      dsimp only
                      rw [@ih (skipSpace rest) fuel' (by omega) (by omega)]

/-- Behind an item stands the closing bracket, or a comma and more items: either way a part of
the text is taken. -/
theorem closeOrMore_consumes {α : Type} {close : Char} {single : α} {build : α → α}
    {more : Text → Scan α} (hmore : Consumes more) {text rest : Text} {result : α}
    (h : (match skipSpace text with
      | [] => .error .decode
      | c :: tail =>
          if c = close then .ok (single, tail)
          else if c = ',' then (more (skipSpace tail)).map fun s => (build s.1, s.2)
          else .error .decode) = (.ok (result, rest) : Except JsonError (α × Text))) :
    rest.length < text.length := by
  cases hspace : skipSpace text with
  | nil =>
      rw [hspace] at h
      cases h
  | cons c tail =>
      rw [hspace] at h
      dsimp only at h
      have htail := length_behind hspace
      have hnext := length_skipSpace_le tail
      split_ifs at h
      · have hrest : tail = rest := congrArg Prod.snd (Except.ok.inj h)
        rw [← hrest]
        exact htail
      · rcases map_eq_ok h with ⟨s, hs, heq⟩
        have hrest : s.2 = rest := congrArg Prod.snd heq
        have hshort := hmore (skipSpace tail) s.1 s.2 hs
        rw [← hrest]
        omega

/-- What follows the items of a list is shorter than what they stand in. -/
theorem scanItems_consumes (hscan : Consumes scan) (fuel : Nat) :
    Consumes (scanItems scan fuel) := by
  induction fuel with
  | zero =>
      intro text items rest h
      cases h
  | succ fuel ih =>
      intro text items rest h
      rw [scanItems] at h
      cases hitem : scan text with
      | error e =>
          rw [hitem] at h
          cases h
      | ok s =>
          rw [hitem] at h
          exact (closeOrMore_consumes ih h).trans (hscan text s.1 s.2 hitem)

/-- The same for the members of a dictionary. -/
theorem scanMembers_consumes (hscan : Consumes scan) (fuel : Nat) :
    Consumes (scanMembers scan fuel) := by
  induction fuel with
  | zero =>
      intro text members rest h
      cases h
  | succ fuel ih =>
      intro text members rest h
      rw [scanMembers] at h
      cases hkey : scanKey text with
      | error e =>
          rw [hkey] at h
          cases h
      | ok k =>
          rw [hkey] at h
          dsimp only at h
          have hkeylt := scanKey_consumes text k.1 k.2 hkey
          cases hvalue : scan k.2 with
          | error e =>
              rw [hvalue] at h
              cases h
          | ok s =>
              rw [hvalue] at h
              have hlt := hscan k.2 s.1 s.2 hvalue
              exact (closeOrMore_consumes ih h).trans (hlt.trans hkeylt)

end ContainerFuel

/-- A list or dictionary takes a part of the text, once its closing bracket is read. -/
theorem scanBrackets_consumes {close : Char} {empty : Json} {α : Type}
    {items : (fuel : Nat) → Text → Scan α} {build : α → Json}
    (hitems : ∀ fuel, Consumes (items fuel)) :
    Consumes fun text : Text =>
      if (skipSpace text).head? = some close then .ok (empty, (skipSpace text).tail)
      else (items ((skipSpace text).length + 1) (skipSpace text)).map
        fun s => (build s.1, s.2) := by
  intro text value rest h
  have hspace := length_skipSpace_le text
  dsimp only at h
  split_ifs at h with hclose
  · have hrest : (skipSpace text).tail = rest := congrArg Prod.snd (Except.ok.inj h)
    cases htext : skipSpace text with
    | nil =>
        rw [htext] at hclose
        cases hclose
    | cons c tail =>
        rw [htext] at hrest hspace
        rw [← hrest]
        exact hspace
  · rcases map_eq_ok h with ⟨s, hs, heq⟩
    have hrest : s.2 = rest := congrArg Prod.snd heq
    have hlt := hitems _ _ s.1 s.2 hs
    rw [← hrest]
    omega

theorem scanValue_consumes {inner : Option (Text → Scan Json)}
    (hinner : ∀ scan ∈ inner, Consumes scan) : Consumes (scanValue inner) := by
  intro text value rest h
  cases text with
  | nil => cases h
  | cons c tail =>
      rw [scanValue.eq_def] at h
      dsimp only at h
      split_ifs at h
      · cases inner with
        | none => cases h
        | some scan =>
            have hscan := hinner scan rfl
            have hdict : Consumes (scanDict scan) :=
              @scanBrackets_consumes '}' (.dict []) _ _ (fun members => .dict (Dict.index members))
                (scanMembers_consumes hscan)
            exact (hdict tail value rest h).trans (Nat.lt_succ_self _)
      · cases inner with
        | none => cases h
        | some scan =>
            have hscan := hinner scan rfl
            have hlist : Consumes (scanList scan) :=
              @scanBrackets_consumes ']' (.list []) _ _ .list (scanItems_consumes hscan)
            exact (hlist tail value rest h).trans (Nat.lt_succ_self _)
      · exact scanScalar_consumes _ _ _ h

/-- A value that was read took a part of the text. -/
theorem scanOnce_consumes (depth : Nat) : Consumes (scanOnce depth) := by
  induction depth with
  | zero => exact scanValue_consumes fun scan h => absurd h (Option.not_mem_none scan)
  | succ depth ih =>
      refine scanValue_consumes fun scan h => ?_
      rw [← Option.some.inj h]
      exact ih

end Json
end Karsa
