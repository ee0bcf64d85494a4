import Karsa.Foundations.Json
import Mathlib.Tactic.NormNum

/-!
# AI answers - Parsing what the model wrote

The analyst and the position judge ask for a JSON object and convert its fields with `int`,
`float` and `str.upper`.  Each parser catches some of the exceptions this raises.  For an
answer that is not JSON the analyst looks for words in it.

The tables of Unicode and the depth the decoder may nest are parameters.

Main results:

- Theorem `confidenceMatch_upperText`: the analyst never finds a confidence in free text.
- Theorem `parsedSafely_iff`: the answers that both parsers handle as promised.
-/

namespace Karsa
namespace Alpha

/-! ## Conversions -/

/-- Exceptions by class. -/
inductive PyError where
  | valueError
  | typeError
  | attributeError
  | overflowError
  | recursionError
deriving Repr, DecidableEq

/-- An answer without the fence of a code block. -/
def unfence (response : Text) : Text :=
  let text := response.strip
  if "```".toList.isPrefixOf text then
    let body := if '\n' ∈ text then (text.dropWhile (· ≠ '\n')).tail else text.drop 3
    let body := if "```".toList.isSuffixOf body then Text.dropRight 3 body else body
    Text.strip body
  else text

/-- `data.get(key)`. -/
def field (items : Dict Text Json) (key : String) : Option Json :=
  items.lookup key.toList

section Conversions

variable (u : UnicodeTables)

/-- `value.upper()`. -/
def upperOf : Json → Except PyError Text
  | .str s => .ok (u.upperText s)
  | .null | .bool _ | .int _ | .float _ | .list _ | .dict _ => .error .attributeError

/-- `int(value)`. -/
def intOf : Json → Except PyError ℤ
  | .bool b => .ok (if b then 1 else 0)
  | .int n => .ok n
  | .float (.finite x) => .ok (PyFloat.truncate x)
  | .float .nan => .error .valueError
  | .float (.infinity _) => .error .overflowError
  | .str s =>
      match parseInt u s with
      | none => .error .valueError
      | some n => .ok n
  | .null | .list _ | .dict _ => .error .typeError

/-- `float(value)`. -/
def floatOf : Json → Except PyError PyFloat
  | .bool b => .ok (.finite (if b then 1 else 0))
  | .int n =>
      match PyFloat.ofRat n with
      | .infinity _ => .error .overflowError
      | x => .ok x
  | .float x => .ok x
  | .str s =>
      match parseFloat u s with
      | none => .error .valueError
      | some x => .ok x
  | .null | .list _ | .dict _ => .error .typeError

end Conversions

/-! ## The analyst -/

/-- What the analyst reads off an answer. -/
structure Extracted where
  decision : Text
  confidence : ℤ
  primaryEdge : Json
  criticalRiskFlag : Json
  multiplier : PyFloat

/-- `AnalystResult`, without the text that joins its edge and its risk. -/
structure AnalystResult where
  direction : Text
  aiConfidence : ℤ
  decisionRecommendation : Text
  primaryEdge : Json
  criticalRiskFlag : Json
  suggestedPositionMultiplier : ℚ

section Analyst

variable (u : UnicodeTables)

/-- The decimals at the front of a text. -/
def takeDecimals : Text → List Nat
  | [] => []
  | c :: rest =>
      match u.decimal c with
      | none => []
      | some d => d :: takeDecimals rest

/-- `confidence[:\s]*(\d+)` at the front of a text. -/
def confidenceAt (text : Text) : Option (List Nat) :=
  if "confidence".toList.isPrefixOf text then
    let behind := (text.drop "confidence".length).dropWhile fun c => c = ':' || Text.isSpace c
    if takeDecimals u behind = [] then none else some (takeDecimals u behind)
  else none

/-- `re.search(r"confidence[:\s]*(\d+)", text)`: the digits of the first match. -/
def confidenceMatch : Text → Option (List Nat)
  | [] => none
  | c :: rest => (confidenceAt u (c :: rest)).or (confidenceMatch rest)

/-- The fields of a JSON answer. -/
def fromJson : Json → Except PyError Extracted
  | .dict items => do
      let decision ← upperOf u ((field items "decision_recommendation").getD
        (.str "NO_TRADE".toList))
      let confidence ← intOf u (((field items "confidence_score").or
        (field items "confidence")).getD (.int 0))
      let multiplier ← floatOf u ((field items "suggested_position_multiplier").getD
        (.float (.finite 1)))
      .ok { decision, confidence, multiplier
            primaryEdge := (field items "primary_edge").getD (.str [])
            criticalRiskFlag := (field items "critical_risk_flag").getD (.str []) }
  | .null | .bool _ | .int _ | .float _ | .str _ | .list _ => .error .attributeError

/-- The recommendation named in a free text in capitals. -/
def namedDecision (text : Text) : Text :=
  if text.contains "STRONG_BUY".toList then "STRONG_BUY".toList
  else if text.contains "WEAK_BUY".toList then "WEAK_BUY".toList
  else if text.contains "STRONG_SHORT".toList then "STRONG_SHORT".toList
  else if text.contains "WEAK_SHORT".toList then "WEAK_SHORT".toList
  else "NO_TRADE".toList

/-- What is read off a free text. -/
def fromText (text : Text) : Except PyError Extracted := do
  let upper := u.upperText text
  let decision := namedDecision upper
  let confidence ← match confidenceMatch u upper with
    | some digits =>
        if maxStrDigits < digits.length then .error .valueError
        else .ok (digitsValue digits : ℤ)
    | none => .ok (if decision = "NO_TRADE".toList then 0 else 50)
  .ok { decision, confidence
        primaryEdge := .str "Extracted from freeform text".toList
        criticalRiskFlag := .str "JSON parse failed".toList
        multiplier := .finite 1 }

/-- `max(0, min(100, confidence))`. -/
def clampConfidence (confidence : ℤ) : ℤ :=
  max 0 (min 100 confidence)

/-- `max(0.5, min(1.5, multiplier))`: not a number compares as not smaller than 1.5. -/
def clampMultiplier : PyFloat → ℚ
  | .nan | .infinity false => 3 / 2
  | .infinity true => 1 / 2
  | .finite x => max (1 / 2) (min (3 / 2) x)

/-- The direction of a recommendation. -/
def directionOf (decision : Text) : Text :=
  if decision.contains "BUY".toList then "LONG".toList
  else if decision.contains "SHORT".toList then "SHORT".toList
  else "FLAT".toList

/-- The result of what was read. -/
def Extracted.result (e : Extracted) : AnalystResult where
  direction := directionOf e.decision
  aiConfidence := clampConfidence e.confidence
  decisionRecommendation := e.decision
  primaryEdge := e.primaryEdge
  criticalRiskFlag := e.criticalRiskFlag
  suggestedPositionMultiplier := clampMultiplier e.multiplier

/-- Run a parser whose handler returns `None` for some exceptions. -/
def caught {α : Type} (handled : PyError → Bool) : Except PyError α → Except PyError (Option α)
  | .ok value => .ok (some value)
  | .error e => if handled e then .ok none else .error e

/-- `CryptoAnalyst._parse_response`. -/
def parseResponse (depth : Nat) (response : Text) : Except PyError (Option AnalystResult) :=
  let text := unfence response
  let extracted := match Json.loads depth text with
    | .ok data => fromJson u data
    | .error .decode => fromText u text
    | .error .digits => .error .valueError
    | .error .recursion => .error .recursionError
  caught (fun e => e = .valueError || e = .typeError) (extracted.map Extracted.result)

end Analyst

/-! ## The position judge -/

/-- `JudgeVerdict`. -/
structure JudgeVerdict where
  action : Text
  confidence : ℤ
  reasoning : Json
  tierUsed : Text

/-- The actions of a verdict. -/
def judgeActions : List Text :=
  ["HOLD".toList, "EXIT".toList, "TIGHTEN_STOP".toList]

section Judge

variable (u : UnicodeTables)

/-- The verdict in a JSON answer. -/
def verdictOf (tier : Text) : Json → Except PyError JudgeVerdict
  | .dict items => do
      let action ← upperOf u ((field items "action").getD (.str "HOLD".toList))
      let confidence ← intOf u ((field items "confidence").getD (.int 50))
      .ok { action := if action ∈ judgeActions then action else "HOLD".toList
            confidence := clampConfidence confidence
            reasoning := (field items "reasoning").getD (.str [])
            tierUsed := tier }
  | .null | .bool _ | .int _ | .float _ | .str _ | .list _ => .error .attributeError

/-- `PositionJudge._parse_response`. -/
def parseVerdict (depth : Nat) (response tier : Text) : Except PyError (Option JudgeVerdict) :=
  let verdict := match Json.loads depth (unfence response) with
    | .ok data => verdictOf u tier data
    | .error .decode | .error .digits => .error .valueError
    | .error .recursion => .error .recursionError
  caught (fun e => e = .valueError) verdict

end Judge

/-! ## What the parsers promise -/

section Promise

variable (u : UnicodeTables) (depth : Nat) (response : Text)

/-- The number that an answer states as its confidence, in any letter case. -/
def statedConfidence (text : Text) : Option Nat :=
  (confidenceMatch u (text.map Char.toLower)).map digitsValue

/-- A direction is one that was recommended. -/
def Recommended (direction decision : Text) : Prop :=
  (direction = "LONG".toList →
      decision = "STRONG_BUY".toList ∨ decision = "WEAK_BUY".toList) ∧
    (direction = "SHORT".toList →
      decision = "STRONG_SHORT".toList ∨ decision = "WEAK_SHORT".toList)

/-- A result in range, with a direction that was recommended. -/
def AnalystResult.Sound (a : AnalystResult) : Prop :=
  0 ≤ a.aiConfidence ∧ a.aiConfidence ≤ 100 ∧ 1 / 2 ≤ a.suggestedPositionMultiplier ∧
    a.suggestedPositionMultiplier ≤ 3 / 2 ∧ Recommended a.direction a.decisionRecommendation

/-- A verdict in range. -/
def JudgeVerdict.Sound (v : JudgeVerdict) : Prop :=
  v.action ∈ judgeActions ∧ 0 ≤ v.confidence ∧ v.confidence ≤ 100

/-- The analyst raises nothing, its results are sound, and a stated confidence counts. -/
def AnalystSafe : Prop :=
  ∃ result, parseResponse u depth response = .ok result ∧ (∀ a ∈ result, a.Sound) ∧
    (Json.loads depth (unfence response) = .error .decode →
      ∀ n, statedConfidence u (unfence response) = some n →
        ∃ a ∈ result, a.aiConfidence = min 100 n)

/-- The judge raises nothing, and its verdicts are sound. -/
def JudgeSafe (tier : Text) : Prop :=
  ∃ verdict, parseVerdict u depth response tier = .ok verdict ∧ ∀ v ∈ verdict, v.Sound

/-! ## The answers they handle -/

/-- A number that is not infinite. -/
def NotInfinite (value : Json) : Prop :=
  ∀ negative, value ≠ .float (.infinity negative)

/-- An integer that a float can hold, or no integer. -/
def FitsFloat (value : Json) : Prop :=
  ∀ n negative, value = .int n → PyFloat.ofRat n ≠ .infinity negative

/-- A number, a text or a truth value. -/
def IsScalar (value : Json) : Prop :=
  value ≠ .null ∧ (∀ items, value ≠ .list items) ∧ ∀ items, value ≠ .dict items

/-- A value that `int` and then one that `float` converts. -/
def Converts (confidence multiplier : Json) : Prop :=
  (∃ n, intOf u confidence = .ok n) ∧ ∃ x, floatOf u multiplier = .ok x

/-- The fields that the analyst reads of an object. -/
def AnalystFields (items : Dict Text Json) : Prop :=
  let confidence := ((field items "confidence_score").or (field items "confidence")).getD (.int 0)
  let multiplier := (field items "suggested_position_multiplier").getD (.float (.finite 1))
  ∃ decision, (field items "decision_recommendation").getD (.str "NO_TRADE".toList) =
      .str decision ∧
    NotInfinite confidence ∧
      ((∃ n, intOf u confidence = .ok n) → FitsFloat multiplier) ∧
        (Converts u confidence multiplier →
          Recommended (directionOf (u.upperText decision)) (u.upperText decision))

/-- The fields that the judge reads of an object. -/
def JudgeFields (items : Dict Text Json) : Prop :=
  let confidence := (field items "confidence").getD (.int 50)
  (∃ action, (field items "action").getD (.str "HOLD".toList) = .str action) ∧
    NotInfinite confidence ∧ IsScalar confidence

/-- The confidence that a free text gets whatever it states. -/
def freeConfidence (text : Text) : Nat :=
  if namedDecision (u.upperText text) = "NO_TRADE".toList then 0 else 50

/-- An answer that both parsers handle: an object whose fields convert, an integer of too
many digits, or a free text that states the confidence it gets. -/
def Readable : Prop :=
  match Json.loads depth (unfence response) with
  | .ok data => ∃ items, data = .dict items ∧ AnalystFields u items ∧ JudgeFields items
  | .error .decode =>
      ∀ n, statedConfidence u (unfence response) = some n →
        min 100 n = freeConfidence u (unfence response)
  | .error .digits => True
  | .error .recursion => False

end Promise

/-! ## Free texts -/

section FreeText

variable {u : UnicodeTables}

/-- A match of the pattern holds its small letters. -/
theorem mem_of_confidenceMatch {text : Text} {digits : List Nat}
    (h : confidenceMatch u text = some digits) : 'c' ∈ text := by
  induction text with
  | nil => cases h
  | cons c rest ih =>
      rw [confidenceMatch, Option.or_eq_some_iff] at h
      rcases h with hhere | ⟨-, hrest⟩
      · unfold confidenceAt at hhere
        split_ifs at hhere with hprefix
        have hword : "confidence".toList <+: c :: rest := List.isPrefixOf_iff_prefix.mp hprefix
        exact hword.subset (by decide)
      · exact List.mem_cons_of_mem c (ih hrest)

/-- In capitals the pattern for a confidence never matches. -/
theorem confidenceMatch_upperText (text : Text) : confidenceMatch u (u.upperText text) = none := by
  cases hmatch : confidenceMatch u (u.upperText text) with
  | none => rfl
  | some digits =>
      have hsmall : 'c' ∉ u.upperText text := u.notMem_upperText (by decide) text
      exact absurd (mem_of_confidenceMatch hmatch) hsmall

/-- What is read off a free text. -/
theorem fromText_eq (text : Text) :
    fromText u text = .ok
      { decision := namedDecision (u.upperText text)
        confidence := freeConfidence u text
        primaryEdge := .str "Extracted from freeform text".toList
        criticalRiskFlag := .str "JSON parse failed".toList
        multiplier := .finite 1 } := by
  unfold fromText freeConfidence
  dsimp only
  rw [confidenceMatch_upperText]
  split_ifs
  · rfl
  · rfl

/-- A named recommendation gives its own direction. -/
theorem recommended_namedDecision (text : Text) :
    Recommended (directionOf (namedDecision text)) (namedDecision text) := by
  unfold namedDecision
  split_ifs
  any_goals exact ⟨by decide, by decide⟩

end FreeText

/-! ## Ranges -/

theorem clampConfidence_mem (n : ℤ) : 0 ≤ clampConfidence n ∧ clampConfidence n ≤ 100 := by
  unfold clampConfidence
  omega

theorem clampMultiplier_mem (x : PyFloat) :
    1 / 2 ≤ clampMultiplier x ∧ clampMultiplier x ≤ 3 / 2 := by
  cases x with
  | nan => norm_num [clampMultiplier]
  | infinity negative => cases negative <;> norm_num [clampMultiplier]
  | finite x => exact ⟨le_max_left _ _, max_le (by norm_num) (min_le_left _ _)⟩

/-- A result is in range, and right about its direction if that was recommended. -/
theorem Extracted.result_range (e : Extracted) :
    0 ≤ e.result.aiConfidence ∧ e.result.aiConfidence ≤ 100 ∧
      1 / 2 ≤ e.result.suggestedPositionMultiplier ∧
        e.result.suggestedPositionMultiplier ≤ 3 / 2 :=
  ⟨(clampConfidence_mem _).1, (clampConfidence_mem _).2, (clampMultiplier_mem _).1,
    (clampMultiplier_mem _).2⟩

/-! ## Exceptions of the conversions -/

section Exceptions

variable {u : UnicodeTables}

/-- How `int` ends: with a number, or by the kind of the value. -/
theorem intOf_cases (value : Json) :
    (∃ n, intOf u value = .ok n ∧ NotInfinite value ∧ IsScalar value) ∨
      (intOf u value = .error .valueError ∧ NotInfinite value ∧ IsScalar value) ∨
      (intOf u value = .error .typeError ∧ NotInfinite value ∧ ¬ IsScalar value) ∨
      intOf u value = .error .overflowError ∧ ¬ NotInfinite value := by
  unfold intOf NotInfinite IsScalar
  cases value with
  | null => simp
  | bool b => simp
  | int n => simp
  | float x => cases x <;> simp
  | str s => cases hparse : parseInt u s <;> simp [hparse]
  | list items => simp
  | dict items => simp

theorem fitsFloat_int (n : ℤ) :
    FitsFloat (.int n) ↔ ∀ negative, PyFloat.ofRat n ≠ .infinity negative := by
  constructor
  · exact fun h negative => h n negative rfl
  · intro h m negative heq
    rw [← Json.int.inj heq]
    exact h negative

/-- How `float` ends. -/
theorem floatOf_cases (value : Json) :
    (∃ x, floatOf u value = .ok x ∧ FitsFloat value) ∨
      ((floatOf u value = .error .valueError ∨ floatOf u value = .error .typeError) ∧
        FitsFloat value) ∨
      floatOf u value = .error .overflowError ∧ ¬ FitsFloat value := by
  unfold floatOf
  cases value with
  | null => simp [FitsFloat]
  | bool b => simp [FitsFloat]
  | int n => cases hfloat : PyFloat.ofRat n <;> simp [fitsFloat_int, hfloat]
  | float x => simp [FitsFloat]
  | str s => cases hparse : parseFloat u s <;> simp [FitsFloat, hparse]
  | list items => simp [FitsFloat]
  | dict items => simp [FitsFloat]

end Exceptions

/-! ## The decision -/

section Decision

variable {u : UnicodeTables} {depth : Nat} {response : Text}

/-- A parser without a decision about free text is safe if what it raises is handled and what
it returns is as promised. -/
theorem caught_iff {α : Type} {handled : PyError → Bool} {outcome : Except PyError α}
    {promise : α → Prop} :
    (∃ result, caught handled outcome = .ok result ∧ ∀ a ∈ result, promise a) ↔
      (∀ a, outcome = .ok a → promise a) ∧ ∀ e, outcome = .error e → handled e = true := by
  cases outcome with
  | ok value => simp [caught]
  | error e =>
      cases hhandled : handled e with
      | true => simp [caught, hhandled]
      | false => simp [caught, hhandled]

/-- A result is sound if its direction was recommended. -/
theorem Extracted.result_sound_iff (e : Extracted) :
    e.result.Sound ↔ Recommended (directionOf e.decision) e.decision := by
  rcases e.result_range with ⟨hlow, hhigh, hleast, hmost⟩
  exact ⟨fun h => h.2.2.2.2, fun h => ⟨hlow, hhigh, hleast, hmost, h⟩⟩

/-- The analyst on an object. -/
theorem fromJson_dict_iff (items : Dict Text Json) :
    ((∀ e, fromJson u (.dict items) = .ok e → e.result.Sound) ∧
        ∀ e, fromJson u (.dict items) = .error e → (e = .valueError ∨ e = .typeError)) ↔
      AnalystFields u items := by
  unfold AnalystFields fromJson
  dsimp only
  generalize (field items "decision_recommendation").getD (.str "NO_TRADE".toList) = decision
  generalize ((field items "confidence_score").or (field items "confidence")).getD (.int 0) =
    confidence
  generalize (field items "suggested_position_multiplier").getD (.float (.finite 1)) = multiplier
  cases decision with
  | str d =>
      rcases @intOf_cases u confidence with ⟨n, hn, hfinite, -⟩ | ⟨herror, hfinite, -⟩ |
        ⟨herror, hfinite, -⟩ | ⟨herror, hinfinite⟩
      · rcases @floatOf_cases u multiplier with ⟨x, hx, hfits⟩ | ⟨herror, hfits⟩ |
          ⟨herror, hlarge⟩
        · simp [upperOf, hn, hx, hfinite, hfits, Converts, Extracted.result_sound_iff,
            Except.bind, bind]
        · rcases herror with herror | herror <;>
          simp [upperOf, hn, herror, hfinite, hfits, Converts, Except.bind, bind]
        · simp [upperOf, hn, herror, hfinite, hlarge, Converts, Except.bind, bind]
      · simp [upperOf, herror, hfinite, Converts, Except.bind, bind]
      · simp [upperOf, herror, hfinite, Converts, Except.bind, bind]
      · simp [upperOf, herror, hinfinite, Converts, Except.bind, bind]
  | _ => simp [upperOf, Except.bind, bind]

/-- The judge on an object. -/
theorem verdictOf_dict_iff (tier : Text) (items : Dict Text Json) :
    ((∀ v, verdictOf u tier (.dict items) = .ok v → v.Sound) ∧
        ∀ e, verdictOf u tier (.dict items) = .error e → e = .valueError) ↔
      JudgeFields items := by
  have hactions : ∀ action : Text,
      (if action ∈ judgeActions then action else "HOLD".toList) ∈ judgeActions := by
    intro action
    split_ifs with haction
    · exact haction
    · decide
  unfold JudgeFields verdictOf
  dsimp only
  generalize (field items "action").getD (.str "HOLD".toList) = action
  generalize (field items "confidence").getD (.int 50) = confidence
  cases action with
  | str w =>
      rcases @intOf_cases u confidence with ⟨n, hn, hfinite, hscalar⟩ |
        ⟨herror, hfinite, hscalar⟩ | ⟨herror, hfinite, hcontainer⟩ | ⟨herror, hinfinite⟩
      · simpa [upperOf, hn, hfinite, hscalar, Except.bind, bind, JudgeVerdict.Sound,
          clampConfidence_mem] using hactions (u.upperText w)
      · simp [upperOf, herror, hfinite, hscalar, Except.bind, bind]
      · simp [upperOf, herror, hfinite, hcontainer, Except.bind, bind]
      · simp [upperOf, herror, hinfinite, Except.bind, bind]
  | _ => simp [upperOf, Except.bind, bind]

/-- The analyst on an answer in JSON. -/
theorem analystSafe_of_loads {data : Json}
    (h : Json.loads depth (unfence response) = .ok data) :
    AnalystSafe u depth response ↔ ∃ items, data = .dict items ∧ AnalystFields u items := by
  have hsafe : AnalystSafe u depth response ↔
      (∀ e, fromJson u data = .ok e → e.result.Sound) ∧
        ∀ e, fromJson u data = .error e → (e = .valueError ∨ e = .typeError) := by
    unfold AnalystSafe parseResponse
    dsimp only
    rw [h]
    simp only [reduceCtorEq, false_imp_iff, and_true, caught_iff]
    cases fromJson u data with
    | ok e => simp [Except.map]
    | error e => simp [Except.map]
  rw [hsafe]
  cases data with
  | dict items => simp [fromJson_dict_iff]
  | _ => simp [fromJson]

/-- The judge on an answer in JSON. -/
theorem judgeSafe_of_loads {data : Json} {tier : Text}
    (h : Json.loads depth (unfence response) = .ok data) :
    JudgeSafe u depth response tier ↔ ∃ items, data = .dict items ∧ JudgeFields items := by
  have hsafe : JudgeSafe u depth response tier ↔
      (∀ v, verdictOf u tier data = .ok v → v.Sound) ∧
        ∀ e, verdictOf u tier data = .error e → e = .valueError := by
    unfold JudgeSafe parseVerdict
    rw [h]
    dsimp only
    rw [caught_iff]
    simp
  rw [hsafe]
  cases data with
  | dict items => simp [verdictOf_dict_iff]
  | _ => simp [verdictOf]

/-- The analyst on a free text. -/
theorem analystSafe_of_decode
    (h : Json.loads depth (unfence response) = .error .decode) :
    AnalystSafe u depth response ↔
      ∀ n, statedConfidence u (unfence response) = some n →
        min 100 n = freeConfidence u (unfence response) := by
  have hclamp : clampConfidence (freeConfidence u (unfence response)) =
      freeConfidence u (unfence response) := by
    unfold freeConfidence
    split_ifs
    · rfl
    · rfl
  obtain ⟨e, he, hdecision, hconfidence⟩ : ∃ e, fromText u (unfence response) = .ok e ∧
      e.decision = namedDecision (u.upperText (unfence response)) ∧
        e.confidence = freeConfidence u (unfence response) := ⟨_, fromText_eq _, rfl, rfl⟩
  have hsound : e.result.Sound := by
    rw [e.result_sound_iff, hdecision]
    exact recommended_namedDecision _
  have hstated : e.result.aiConfidence = freeConfidence u (unfence response) := by
    rw [Extracted.result, hconfidence, hclamp]
  unfold AnalystSafe parseResponse
  dsimp only
  rw [h, he]
  simp only [Except.map, caught, Except.ok.injEq, exists_eq_left', Option.mem_def,
    Option.some.injEq, forall_eq', forall_const, hsound, true_and, hstated]
  refine forall_congr' fun n => imp_congr_right fun _ => ?_
  rw [eq_comm]
  exact_mod_cast Iff.rfl

end Decision

/-- Both parsers handle an answer as promised exactly when it is an object whose fields they
convert and whose direction was recommended, an integer of too many digits, or a free text
that states the confidence it gets. -/
theorem parsedSafely_iff (u : UnicodeTables) (depth : Nat) (response tier : Text) :
    AnalystSafe u depth response ∧ JudgeSafe u depth response tier ↔
      Readable u depth response := by
  unfold Readable
  cases hloads : Json.loads depth (unfence response) with
  | ok data =>
      rw [analystSafe_of_loads hloads, judgeSafe_of_loads hloads]
      constructor
      · rintro ⟨⟨items, hdata, hanalyst⟩, ⟨items', hdata', hjudge⟩⟩
        obtain rfl : items = items' := Json.dict.inj (hdata.symm.trans hdata')
        exact ⟨items, hdata, hanalyst, hjudge⟩
      · rintro ⟨items, hdata, hanalyst, hjudge⟩
        exact ⟨⟨items, hdata, hanalyst⟩, ⟨items, hdata, hjudge⟩⟩
  | error e =>
      have hjudge : JudgeSafe u depth response tier ↔ e ≠ .recursion := by
        unfold JudgeSafe parseVerdict
        rw [hloads]
        cases e <;> simp [caught]
      cases e with
      | decode =>
          rw [analystSafe_of_decode hloads]
          simp [hjudge]
      | digits => simp [hjudge, AnalystSafe, parseResponse, hloads, caught, Except.map]
      | recursion => simp [hjudge]

/-- `Char.toUpper` leaves no small letter. -/
theorem toUpper_not_small (c : Char) : ¬ ('a' ≤ c.toUpper ∧ c.toUpper ≤ 'z') := by
  unfold Char.toUpper
  split_ifs with hsmall
  · rintro ⟨hlow, -⟩
    have hsum : 'a'.val ≤ c.val + ('A'.val - 'a'.val) := hlow
    have hleast := hsmall.1
    have hmost := hsmall.2
    rw [UInt32.le_iff_toNat_le] at hsum hleast hmost
    -- The difference of the letters wraps around.
    have hshift : ('A'.val - 'a'.val).toNat = 2 ^ 32 - 32 := rfl
    have ha : 'a'.val.toNat = 97 := rfl
    have hz : 'z'.val.toNat = 122 := rfl
    rw [UInt32.toNat_add, ha, hshift] at hsum
    omega
  · exact hsmall

/-- The tables of a world without letters beyond ASCII. -/
def asciiTables : UnicodeTables where
  upper c := [c.toUpper]
  decimal := asciiDigit
  upper_ascii := fun _ _ => rfl
  upper_small := by
    intro c d hd
    rw [List.mem_singleton.mp hd]
    exact toUpper_not_small c
  decimal_ascii := fun _ _ => rfl
  decimal_lt := by
    intro c d h
    unfold asciiDigit at h
    split_ifs at h with hdigit
    have hle : c.toNat ≤ '9'.toNat := hdigit.2
    have hd : c.toNat - '0'.toNat = d := Option.some.inj h
    have hnine : '9'.toNat = 57 := rfl
    have hzero : '0'.toNat = 48 := rfl
    omega

/-- An empty list makes both parsers raise. -/
theorem parsedSafely_list :
    ¬ ∀ (u : UnicodeTables) (depth : Nat) (response tier : Text),
      AnalystSafe u depth response ∧ JudgeSafe u depth response tier := by
  intro h
  rcases (h asciiTables 900 "[]".toList []).1 with ⟨result, hresult, -⟩
  cases hresult

end Alpha
end Karsa
