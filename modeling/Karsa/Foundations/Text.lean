import Mathlib.Data.List.Infix

/-!
# Foundations - Texts as character lists

Python strings appear in the model as lists of characters, so that slices,
suffix tests and character removal are the list operations Mathlib knows.

Main results:

- Theorem `without_append`: removing a character distributes over concatenation.
- Theorem `eq_nil_of_append_eq`: a prefix that leaves a text unchanged is empty.
-/

namespace Karsa

/-- A Python string. -/
abbrev Text := List Char

instance : LawfulBEq Text :=
  inferInstance

namespace Text

/-- `s.replace(c, "")` for a one-character pattern. -/
def without (c : Char) (s : Text) : Text :=
  s.filter (· ≠ c)

/-- `pattern in s`. -/
def contains (s pattern : Text) : Bool :=
  decide (pattern <:+: s)

/-- `s[:-n]`. -/
def dropRight (n : Nat) (s : Text) : Text :=
  s.take (s.length - n)

/-- `s[-n:]`. -/
def takeRight (n : Nat) (s : Text) : Text :=
  s.drop (s.length - n)

/-- Whitespace in the sense of `str.isspace`. -/
def isSpace (c : Char) : Bool :=
  let code := c.toNat
  (9 ≤ code && code ≤ 13) || (28 ≤ code && code ≤ 32) || code = 133 || code = 160 ||
    code = 5760 || (8192 ≤ code && code ≤ 8202) || code = 8232 || code = 8233 ||
    code = 8239 || code = 8287 || code = 12288

/-- The whitespace of the C library. -/
def isBlank (c : Char) : Bool :=
  let code := c.toNat
  (9 ≤ code && code ≤ 13) || code = 32

/-- A text without what a predicate drops at its ends. -/
def stripBy (drops : Char → Bool) (s : Text) : Text :=
  ((s.dropWhile drops).reverse.dropWhile drops).reverse

/-- `s.strip()`. -/
def strip (s : Text) : Text :=
  s.stripBy isSpace

/-- `s <= t`, by code points from the first on. -/
def atMost : Text → Text → Bool
  | [], _ => true
  | _ :: _, [] => false
  | c :: s, d :: t => if c = d then atMost s t else decide (c.toNat < d.toNat)

theorem without_append (c : Char) (s t : Text) :
    without c (s ++ t) = without c s ++ without c t := by
  simp [without]

/-- Slicing off a known suffix leaves what stood before it. -/
@[simp] theorem dropRight_append (s t : Text) : dropRight t.length (s ++ t) = s := by
  simp [dropRight]

/-- Slicing out a known suffix returns it. -/
@[simp] theorem takeRight_append (s t : Text) : takeRight t.length (s ++ t) = t := by
  simp [takeRight]

/-- A prefix that leaves a text unchanged is empty. -/
theorem eq_nil_of_append_eq {front s : Text} (h : front ++ s = s) : front = [] := by
  have hlength : front.length + s.length = s.length := by
    simpa using congrArg List.length h
  exact List.eq_nil_of_length_eq_zero (by omega)

/-- A text with its last separator tells its parts. -/
theorem append_cons_inj_right {c : Char} {s s' t t' : Text} (ht : c ∉ t) (ht' : c ∉ t')
    (h : s ++ c :: t = s' ++ c :: t') : s = s' ∧ t = t' := by
  -- whatever one side has beyond the other's front would hold a second separator
  rcases List.append_eq_append_iff.mp h with ⟨mid, rfl, hmid⟩ | ⟨mid, rfl, hmid⟩
  · cases mid with
    | nil => exact ⟨(List.append_nil s).symm, (List.cons.inj hmid).2⟩
    | cons d rest =>
        rw [(List.cons.inj hmid).2] at ht
        exact absurd (List.mem_append_right rest List.mem_cons_self) ht
  · cases mid with
    | nil => exact ⟨List.append_nil s', (List.cons.inj hmid).2.symm⟩
    | cons d rest =>
        rw [(List.cons.inj hmid).2] at ht'
        exact absurd (List.mem_append_right rest List.mem_cons_self) ht'

end Text
end Karsa
