import Karsa.Core.PositionRecord
import Karsa.Foundations.Runs
import Mathlib.Logic.Function.Basic
import Mathlib.Tactic.Linarith
import Mathlib.Tactic.NormNum

/-!
# Position judge - The count of losing holds

`PositionJudge` forces an exit when a position is losing and its last verdicts were holds of a
loser.  It counts them in a dictionary under symbol and side.  The count outlives the position, it
survives some holds in profit, and loss is tested with a sign that is turned for the side word
`sell` only, which no record carries.

Main results:

- Theorem `judge_eq`: a call by what the answers amount to.
- Theorem `step_holds_iff`: when a call keeps the rule of the losing holds.
- Theorem `threeHolds_iff`: the runs in which every call keeps it.
-/

namespace Karsa
namespace Judge

/-! ## Calls and answers -/

inductive Action where
  | HOLD
  | EXIT
  | TIGHTEN_STOP
deriving Repr, DecidableEq

inductive Tier where
  | cheap
  | escalated
  | forced
  | fallback
deriving Repr, DecidableEq

/-- The AI judge's verdict on an open position. -/
structure JudgeVerdict where
  action : Action
  confidence : ℤ
  reasoning : Text
  tierUsed : Tier
deriving Repr, DecidableEq

/-- What `_parse_response` finds in an answer. -/
structure Reply where
  action : Action
  confidence : ℤ
  reasoning : Text
deriving Repr, DecidableEq

/-- The verdict of a pass. -/
def Reply.verdict (r : Reply) (tier : Tier) : JudgeVerdict :=
  ⟨r.action, r.confidence, r.reasoning, tier⟩

/-- How a pass ends: with an exception, without a verdict, or with one. -/
inductive Answer where
  | raised
  | unavailable
  | reply (r : Reply)
deriving Repr, DecidableEq

/-- A position; the serial number tells it from others with the same data. -/
@[ext] structure Position where
  serial : ℕ
  symbol : Text
  side : Side
  entryPrice : ℚ
  entry_pos : 0 < entryPrice

instance : DecidableEq Position :=
  fun _ _ => decidable_of_iff _ Position.ext_iff.symm

/-- One call of `judge` with the answers of its passes. -/
structure JudgeCall where
  position : Position
  currentPrice : ℚ
  isCheckpointReview : Bool
  cheap : Answer
  escalated : Answer

/-- `pnl_pct`. -/
def pnlPct (side : Text) (entryPrice currentPrice : ℚ) : ℚ :=
  let pct := (currentPrice - entryPrice) / entryPrice * 100
  if side = "sell".toList then -pct else pct

/-- `hold_key`. -/
def Position.holdKey (p : Position) : Text :=
  p.symbol ++ ':' :: p.side.word

/-- `max_holds`. -/
def JudgeCall.maxHolds (c : JudgeCall) : ℕ :=
  if c.isCheckpointReview then 2 else 3

/-- The verdict that needs no AI. -/
def forcedVerdict (holdCount : ℕ) : JudgeVerdict where
  action := .EXIT
  confidence := 90
  reasoning := "Forced exit after ".toList ++ Nat.toDigits 10 holdCount ++
    " consecutive HOLDs on losing position".toList
  tierUsed := .forced

/-- The verdict without AI. -/
def fallbackVerdict : JudgeVerdict where
  action := .HOLD
  confidence := 30
  reasoning := "AI unavailable, conservative hold".toList
  tierUsed := .fallback

/-- The escalated pass of `judge` and what follows it. -/
def judgeEscalated (counters : Text → ℕ) (c : JudgeCall) : (Text → ℕ) × Option JudgeVerdict :=
  let key := c.position.holdKey
  let holdCount := counters key
  let pnl := pnlPct c.position.side.word c.position.entryPrice c.currentPrice
  match c.escalated with
  | .raised => (counters, none)
  | .reply r =>
      if r.action = .HOLD ∧ pnl < 0 then
        (Function.update counters key (holdCount + 1), some (r.verdict .escalated))
      else (Function.update counters key 0, some (r.verdict .escalated))
  | .unavailable =>
      if pnl < 0 then (Function.update counters key (holdCount + 1), some fallbackVerdict)
      else (counters, some fallbackVerdict)

/-- `PositionJudge.judge`: the hold counters and the verdict, which an exception prevents. -/
def judge (counters : Text → ℕ) (c : JudgeCall) : (Text → ℕ) × Option JudgeVerdict :=
  let key := c.position.holdKey
  let holdCount := counters key
  let pnl := pnlPct c.position.side.word c.position.entryPrice c.currentPrice
  if c.maxHolds ≤ holdCount ∧ pnl < 0 then
    (Function.update counters key 0, some (forcedVerdict holdCount))
  else
    match c.cheap with
    | .raised => (counters, none)
    | .reply r =>
        if r.action ≠ .HOLD then (Function.update counters key 0, some (r.verdict .cheap))
        else if 70 ≤ r.confidence then
          if pnl < 0 then
            (Function.update counters key (holdCount + 1), some (r.verdict .cheap))
          else (counters, some (r.verdict .cheap))
        else judgeEscalated counters c
    | .unavailable => judgeEscalated counters c

/-! ## What a call amounts to -/

/-- The price is below the entry price. -/
def JudgeCall.below (c : JudgeCall) : Prop :=
  c.currentPrice < c.position.entryPrice

instance (c : JudgeCall) : Decidable c.below :=
  inferInstanceAs (Decidable (c.currentPrice < c.position.entryPrice))

/-- The position is losing, by its direction. -/
def JudgeCall.losing (c : JudgeCall) : Prop :=
  match c.position.side with
  | .LONG => c.currentPrice < c.position.entryPrice
  | .SHORT => c.position.entryPrice < c.currentPrice

instance (c : JudgeCall) : Decidable c.losing := by
  unfold JudgeCall.losing
  cases c.position.side <;> infer_instance

/-- What the answers amount to.  A hold that is `kept` has no escalated answer behind it. -/
inductive Response where
  | raised
  | restart (v : JudgeVerdict)
  | hold (v : JudgeVerdict) (kept : Bool)

/-- Without a clear answer of the cheap pass. -/
def JudgeCall.escalation (c : JudgeCall) : Response :=
  match c.escalated with
  | .raised => .raised
  | .reply r =>
      if r.action = .HOLD then .hold (r.verdict .escalated) false
      else .restart (r.verdict .escalated)
  | .unavailable => .hold fallbackVerdict true

/-- The response to a call. -/
def JudgeCall.response (c : JudgeCall) : Response :=
  match c.cheap with
  | .raised => .raised
  | .reply r =>
      if r.action ≠ .HOLD then .restart (r.verdict .cheap)
      else if 70 ≤ r.confidence then .hold (r.verdict .cheap) true
      else c.escalation
  | .unavailable => c.escalation

/-- Whatever the side of the record, the percentage is negative below the entry price. -/
theorem pnlPct_neg_iff (c : JudgeCall) :
    pnlPct c.position.side.word c.position.entryPrice c.currentPrice < 0 ↔ c.below := by
  have hword : c.position.side.word ≠ "sell".toList := by
    cases c.position.side <;> decide
  unfold pnlPct JudgeCall.below
  dsimp only
  rw [if_neg hword, div_mul_eq_mul_div, div_neg_iff]
  have hentry := c.position.entry_pos
  constructor
  · rintro (⟨-, hneg⟩ | ⟨hneg, -⟩)
    · exact absurd hneg hentry.not_gt
    · linarith
  · intro hbelow
    exact Or.inr ⟨by linarith, hentry⟩

/-- A call by its response. -/
theorem judge_eq (counters : Text → ℕ) (c : JudgeCall) :
    judge counters c =
      if c.maxHolds ≤ counters c.position.holdKey ∧ c.below then
        (Function.update counters c.position.holdKey 0,
          some (forcedVerdict (counters c.position.holdKey)))
      else
        match c.response with
        | .raised => (counters, none)
        | .restart v => (Function.update counters c.position.holdKey 0, some v)
        | .hold v kept =>
            (if c.below then
                Function.update counters c.position.holdKey (counters c.position.holdKey + 1)
              else if kept then counters else Function.update counters c.position.holdKey 0,
              some v) := by
  have hescalated : judgeEscalated counters c =
      match c.escalation with
      | .raised => (counters, none)
      | .restart v => (Function.update counters c.position.holdKey 0, some v)
      | .hold v kept =>
          (if c.below then
              Function.update counters c.position.holdKey (counters c.position.holdKey + 1)
            else if kept then counters else Function.update counters c.position.holdKey 0,
            some v) := by
    unfold judgeEscalated JudgeCall.escalation
    simp only [pnlPct_neg_iff]
    cases c.escalated with
    | raised => rfl
    | unavailable => by_cases hbelow : c.below <;> simp [hbelow]
    | reply r =>
        by_cases hhold : r.action = .HOLD <;> by_cases hbelow : c.below <;> simp [hhold, hbelow]
  unfold judge JudgeCall.response
  simp only [pnlPct_neg_iff]
  by_cases hforced : c.maxHolds ≤ counters c.position.holdKey ∧ c.below
  · rw [if_pos hforced, if_pos hforced]
  · rw [if_neg hforced, if_neg hforced]
    cases c.cheap with
    | raised => rfl
    | unavailable => exact hescalated
    | reply r =>
        by_cases hhold : r.action = .HOLD
        · by_cases hconfident : 70 ≤ r.confidence
          · by_cases hbelow : c.below <;> simp [hhold, hconfident, hbelow]
          · simp only [hhold, ne_eq, not_true_eq_false, if_false, hconfident]
            exact hescalated
        · simp [hhold]

/-! ## The rule -/

/-- A call as it went: the count it met, the action of its verdict unless it raised, and whether
the exit was forced. -/
structure Given where
  position : Position
  action : Option Action
  losing : Bool
  forced : Bool
  maxHolds : ℕ
  count : ℕ

/-- The verdict was a hold of a loser. -/
def Given.losingHold (g : Given) : Bool :=
  decide (g.action = some .HOLD) && g.losing

/-- The calls that gave a verdict, newest first. -/
def verdicts (calls : List Given) : List Given :=
  calls.filter fun g => g.action.isSome

/-- How many verdicts for a position in a row, up to the last one, were holds of a loser. -/
def streak (p : Position) (calls : List Given) : ℕ :=
  (((verdicts calls).filter fun g => decide (g.position = p)).takeWhile Given.losingHold).length

/-- The position of the last verdict under a key. -/
def lastUnder (key : Text) (calls : List Given) : Option Position :=
  ((verdicts calls).find? fun g => decide (g.position.holdKey = key)).map Given.position

/-- The streak of that position. -/
def carried (key : Text) (calls : List Given) : ℕ :=
  (lastUnder key calls).elim 0 fun p => streak p calls

/-- At every call the count was the streak of its position, and the exit was forced exactly if
that reached the limit and the position was losing. -/
def RuleKept : List Given → Prop
  | [] => True
  | g :: earlier =>
      g.count = streak g.position earlier ∧
        (g.forced = true ↔ g.maxHolds ≤ streak g.position earlier ∧ g.losing = true) ∧
          RuleKept earlier

instance RuleKept.decidable : DecidablePred RuleKept
  | [] => isTrue trivial
  | g :: earlier =>
      have := RuleKept.decidable earlier
      inferInstanceAs (Decidable (g.count = streak g.position earlier ∧
        (g.forced = true ↔ g.maxHolds ≤ streak g.position earlier ∧ g.losing = true) ∧
          RuleKept earlier))

/-! ## Runs -/

/-- The counters of a judge, with the calls so far. -/
structure JudgeState where
  counters : Text → ℕ
  calls : List Given

/-- A new judge. -/
def JudgeState.start : JudgeState :=
  ⟨fun _ => 0, []⟩

/-- A call that met a count and gave a verdict, or raised. -/
def JudgeCall.given (c : JudgeCall) (count : ℕ) (v : Option JudgeVerdict) : Given where
  position := c.position
  action := v.map JudgeVerdict.action
  losing := decide c.losing
  forced := v.any fun v => decide (v.tierUsed = .forced)
  maxHolds := c.maxHolds
  count := count

/-- One call. -/
def step (s : JudgeState) (c : JudgeCall) : JudgeState where
  counters := (judge s.counters c).1
  calls := c.given (s.counters c.position.holdKey) (judge s.counters c).2 :: s.calls

/-- The rule was kept, and every count is the streak of the position that was last judged under
its key. -/
def Holds (s : JudgeState) : Prop :=
  RuleKept s.calls ∧ ∀ key, s.counters key = carried key s.calls

/-- When a call keeps the rule: nothing is carried over to a new position; where the limit is
reached or the answers amount to a hold, the position is losing exactly below its entry price; and
a hold in profit without an escalated answer meets no count. -/
structure Faithful (s : JudgeState) (c : JudgeCall) : Prop where
  fresh : carried c.position.holdKey s.calls = streak c.position s.calls
  direction : (c.maxHolds ≤ streak c.position s.calls ∨ ∃ v kept, c.response = .hold v kept) →
    (c.below ↔ c.losing)
  kept : ∀ v, c.response = .hold v true → ¬ c.losing → streak c.position s.calls = 0

/-! ## Streaks -/

/-- A call that raised changes no streak. -/
theorem streak_cons_raised {g : Given} (hraised : g.action = none) (p : Position)
    (calls : List Given) : streak p (g :: calls) = streak p calls := by
  simp [streak, verdicts, hraised]

/-- A verdict for another position changes no streak. -/
theorem streak_cons_ne {g : Given} {p : Position} (hne : g.position ≠ p) (calls : List Given) :
    streak p (g :: calls) = streak p calls := by
  cases haction : g.action <;> simp [streak, verdicts, haction, hne]

/-- A verdict adds one to the streak of its position or ends it. -/
theorem streak_cons_self {g : Given} (hgiven : g.action.isSome = true) (calls : List Given) :
    streak g.position (g :: calls) =
      if g.losingHold then streak g.position calls + 1 else 0 := by
  cases hhold : g.losingHold <;> simp [streak, verdicts, hgiven, hhold]

/-- A call that raised is not the last verdict. -/
theorem carried_cons_raised {g : Given} (hraised : g.action = none) (key : Text)
    (calls : List Given) : carried key (g :: calls) = carried key calls := by
  have hlast : lastUnder key (g :: calls) = lastUnder key calls := by
    simp [lastUnder, verdicts, hraised]
  rw [carried, carried, hlast]
  cases lastUnder key calls with
  | none => rfl
  | some p => exact streak_cons_raised hraised p calls

/-- What is carried under the key of a verdict is the streak of its position. -/
theorem carried_cons_self {g : Given} (hgiven : g.action.isSome = true) (calls : List Given) :
    carried g.position.holdKey (g :: calls) = streak g.position (g :: calls) := by
  simp [carried, lastUnder, verdicts, hgiven]

/-- Under other keys nothing changes. -/
theorem carried_cons_ne {g : Given} {key : Text} (hne : g.position.holdKey ≠ key)
    (calls : List Given) : carried key (g :: calls) = carried key calls := by
  have hlast : lastUnder key (g :: calls) = lastUnder key calls := by
    cases haction : g.action <;> simp [lastUnder, verdicts, haction, hne]
  rw [carried, carried, hlast]
  cases hunder : lastUnder key calls with
  | none => rfl
  | some p =>
      have hkey : p.holdKey = key := by
        rcases Option.map_eq_some_iff.mp hunder with ⟨last, hfind, rfl⟩
        have hfound := List.find?_some hfind
        exact of_decide_eq_true hfound
      have hother : g.position ≠ p := fun heq => hne (heq ▸ hkey)
      exact streak_cons_ne hother calls

/-! ## One call -/

/-- A verdict on a count that is its position's streak keeps the rule if it was forced exactly
when due, and the counter is set to the new streak. -/
theorem holds_given_iff {s : JudgeState} (hholds : Holds s) {g : Given} {n : ℕ}
    (hgiven : g.action.isSome = true) (hcount : g.count = streak g.position s.calls) :
    Holds ⟨Function.update s.counters g.position.holdKey n, g :: s.calls⟩ ↔
      (g.forced = true ↔ g.maxHolds ≤ streak g.position s.calls ∧ g.losing = true) ∧
        n = if g.losingHold then streak g.position s.calls + 1 else 0 := by
  rw [← streak_cons_self hgiven, ← carried_cons_self hgiven]
  constructor
  · rintro ⟨⟨-, hdue, -⟩, hcounters⟩
    have hself := hcounters g.position.holdKey
    dsimp only at hself
    rw [Function.update_self] at hself
    exact ⟨hdue, hself⟩
  · rintro ⟨hdue, hself⟩
    refine ⟨⟨hcount, hdue, hholds.1⟩, fun key => ?_⟩
    by_cases hkey : key = g.position.holdKey
    · rw [hkey]
      exact (Function.update_self _ _ _).trans hself
    · rw [carried_cons_ne (Ne.symm hkey), ← hholds.2 key]
      exact Function.update_of_ne hkey _ _

/-- The verdict of a response is not forced; it is a hold unless it restarts the count. -/
def Response.Answers : Response → Prop
  | .raised => True
  | .restart v => v.tierUsed ≠ .forced ∧ v.action ≠ .HOLD
  | .hold v _ => v.tierUsed ≠ .forced ∧ v.action = .HOLD

/-- So is the verdict of the escalated pass. -/
theorem escalation_answers (c : JudgeCall) : c.escalation.Answers := by
  unfold JudgeCall.escalation
  cases c.escalated with
  | raised => trivial
  | unavailable => exact ⟨by decide, rfl⟩
  | reply r =>
      dsimp only
      split_ifs with hhold
      · exact ⟨by simp [Reply.verdict], hhold⟩
      · exact ⟨by simp [Reply.verdict], hhold⟩

/-- And that of the call. -/
theorem response_answers (c : JudgeCall) : c.response.Answers := by
  unfold JudgeCall.response
  cases c.cheap with
  | raised => trivial
  | unavailable => exact escalation_answers c
  | reply r =>
      dsimp only
      split_ifs with hhold hconfident
      · exact ⟨by simp [Reply.verdict], hhold⟩
      · exact ⟨by simp [Reply.verdict], not_not.mp hhold⟩
      · exact escalation_answers c

/-- A call keeps the rule exactly if it is faithful. -/
theorem step_holds_iff {s : JudgeState} (hholds : Holds s) (c : JudgeCall) :
    Holds (step s c) ↔ Faithful s c := by
  have hcount : s.counters c.position.holdKey = carried c.position.holdKey s.calls := hholds.2 _
  by_cases hfresh : carried c.position.holdKey s.calls = streak c.position s.calls
  case neg =>
    refine iff_of_false (fun h => hfresh ?_) (fun h => hfresh h.fresh)
    exact hcount.symm.trans h.1.1
  rw [hfresh] at hcount
  have hgiven : ∀ v n, Holds ⟨Function.update s.counters c.position.holdKey n,
      c.given (streak c.position s.calls) (some v) :: s.calls⟩ ↔
        (v.tierUsed = .forced ↔ c.maxHolds ≤ streak c.position s.calls ∧ c.losing) ∧
          n = if v.action = .HOLD ∧ c.losing then streak c.position s.calls + 1 else 0 := by
    intro v n
    have hlosingHold : (c.given (streak c.position s.calls) (some v)).losingHold =
        decide (v.action = .HOLD ∧ c.losing) := by
      simp [Given.losingHold, JudgeCall.given]
    have hiff := @holds_given_iff s hholds (c.given (streak c.position s.calls) (some v)) n rfl rfl
    rw [hlosingHold] at hiff
    simpa [JudgeCall.given] using hiff
  unfold step
  rw [judge_eq, hcount]
  by_cases hforced : c.maxHolds ≤ streak c.position s.calls ∧ c.below
  · rw [if_pos hforced, hgiven]
    have haction : ¬ ((forcedVerdict (streak c.position s.calls)).action = .HOLD ∧ c.losing) :=
      fun h => absurd h.1 (by simp [forcedVerdict])
    rw [if_neg haction]
    constructor
    · rintro ⟨hdue, -⟩
      have hlosing := (hdue.mp rfl).2
      exact ⟨hfresh, fun _ => iff_of_true hforced.2 hlosing, fun _ _ h => absurd hlosing h⟩
    · intro h
      exact ⟨iff_of_true rfl ⟨hforced.1, (h.direction (Or.inl hforced.1)).mp hforced.2⟩, rfl⟩
  · rw [if_neg hforced]
    -- without a forced exit the rule asks for none
    have hdue : Faithful s c → ¬ (c.maxHolds ≤ streak c.position s.calls ∧ c.losing) :=
      fun h hdue => hforced ⟨hdue.1, (h.direction (Or.inl hdue.1)).mpr hdue.2⟩
    have hsides : ¬ (c.maxHolds ≤ streak c.position s.calls ∧ c.losing) →
        c.maxHolds ≤ streak c.position s.calls → (c.below ↔ c.losing) :=
      fun hnot hle => iff_of_false (fun hb => hforced ⟨hle, hb⟩) (fun hl => hnot ⟨hle, hl⟩)
    have hanswers := response_answers c
    cases hresponse : c.response with
    | raised =>
        dsimp only
        constructor
        · rintro ⟨⟨-, hnone, -⟩, -⟩
          have hnot : ¬ (c.maxHolds ≤ streak c.position s.calls ∧ c.losing) := by
            simpa [JudgeCall.given] using hnone
          refine ⟨hfresh, ?_, fun v h => ?_⟩
          · rintro (hle | ⟨v, kept, h⟩)
            · exact hsides hnot hle
            · simp [hresponse] at h
          · simp [hresponse] at h
        · intro h
          refine ⟨⟨rfl, ?_, hholds.1⟩, fun key => ?_⟩
          · simpa [JudgeCall.given] using hdue h
          · rw [carried_cons_raised rfl]
            exact hholds.2 key
    | restart v =>
        rw [hresponse] at hanswers
        rcases hanswers with ⟨htier, haction⟩
        dsimp only
        rw [hgiven, if_neg (fun h => haction h.1)]
        constructor
        · rintro ⟨hnone, -⟩
          have hnot := mt hnone.mpr htier
          refine ⟨hfresh, ?_, fun v h => ?_⟩
          · rintro (hle | ⟨v, kept, h⟩)
            · exact hsides hnot hle
            · simp [hresponse] at h
          · simp [hresponse] at h
        · intro h
          exact ⟨iff_of_false htier (hdue h), rfl⟩
    | hold v kept =>
        rw [hresponse] at hanswers
        rcases hanswers with ⟨htier, haction⟩
        have hcounters : (if c.below then
              Function.update s.counters c.position.holdKey (streak c.position s.calls + 1)
            else if kept then s.counters
            else Function.update s.counters c.position.holdKey 0) =
            Function.update s.counters c.position.holdKey
              (if c.below then streak c.position s.calls + 1
                else if kept then streak c.position s.calls else 0) := by
          split_ifs
          · rfl
          · rw [← hcount, Function.update_eq_self]
          · rfl
        dsimp only
        rw [hcounters, hgiven]
        simp only [haction, true_and]
        constructor
        · rintro ⟨hnone, hstreak⟩
          have hsame : c.below ↔ c.losing := by
            by_cases hbelow : c.below <;> by_cases hlosing : c.losing <;>
              simp only [hbelow, hlosing, if_true, if_false] at hstreak ⊢
            · omega
            · cases kept <;> simp at hstreak
          refine ⟨hfresh, fun _ => hsame, fun w h hlosing => ?_⟩
          rw [hresponse, Response.hold.injEq] at h
          rw [if_neg (mt hsame.mp hlosing), if_neg hlosing, h.2, if_pos rfl] at hstreak
          exact hstreak
        · intro h
          have hsame := h.direction (Or.inr ⟨v, kept, hresponse⟩)
          refine ⟨iff_of_false htier (hdue h), ?_⟩
          by_cases hlosing : c.losing
          · rw [if_pos (hsame.mpr hlosing), if_pos hlosing]
          · rw [if_neg (mt hsame.mp hlosing), if_neg hlosing]
            cases kept with
            | true => exact h.kept v hresponse hlosing
            | false => rfl

/-! ## Runs -/

/-- A new judge has kept the rule. -/
theorem holds_start : Holds JudgeState.start :=
  ⟨trivial, fun _ => rfl⟩

/-- Over any calls for any positions, every count is the streak of its position and every forced
exit is due, exactly if every call is faithful. -/
theorem threeHolds_iff (calls : List JudgeCall) :
    (∀ n, Holds (run step JudgeState.start (calls.take n))) ↔
      Admits step Faithful JudgeState.start calls :=
  @invariant_iff_admits _ _ step Faithful Holds (fun _ c hs => step_holds_iff hs c) _ calls
    holds_start

/-- A short position that gains, with no answer of the AI. -/
def gainingShort : JudgeCall where
  position := ⟨0, "BTC/USDT".toList, .SHORT, 100, by norm_num⟩
  currentPrice := 99
  isCheckpointReview := false
  cheap := .unavailable
  escalated := .unavailable

/-- Behind three holds its exit is forced, though it never lost. -/
theorem gainingShort_forced :
    ¬ Holds (run step JudgeState.start (List.replicate 4 gainingShort)) := by
  intro h
  have hwrong : ¬ RuleKept (run step JudgeState.start (List.replicate 4 gainingShort)).calls := by
    decide +kernel
  exact hwrong h.1

end Judge
end Karsa
