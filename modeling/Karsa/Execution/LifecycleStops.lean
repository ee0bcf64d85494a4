import Mathlib.Algebra.Order.Group.Unbundled.Abs
import Karsa.Alpha.PositionJudge
import Karsa.Execution.PositionLifecycle
import Karsa.Foundations.Runs

/-!
# Position lifecycle - Two managers and one stop

`TrailingStopManager` and `CheckpointManager` send stops for the same position.  The first one
compares its stop with a key that nobody writes, the second one compares it with nothing; neither
knows what the other has sent, and both compute the stop of a short.

Main results:

- Theorem `checkpointEvaluate_tightened`: the stops that a checkpoint evaluation sends, in order.
- Theorem `onlyTighten_iff`: the runs of both managers in which stops only tighten.
- Theorem `trailing_loosens`: the next trailing stop takes back every tighter one.
-/

namespace Karsa
namespace Lifecycle

open Bybit Judge

/-! ## Checkpoint evaluations -/

/-- The key `checkpoint` of a record. -/
inductive Checkpoint where
  | OPEN
  | H1
  | H4
  | H24
  | TRAILING
deriving Repr, DecidableEq

/-- Configuration of `CheckpointManager`. -/
structure CheckpointLimits where
  hardFail30min : ℚ
  hardFailEver : ℚ
  clearWinAtrMult : ℚ
  minProfitToProtectUsd : ℚ
  profitDrawdownRatio : ℚ
  hardFail30minUsd : Option ℚ
  hardFailEverUsd : Option ℚ
  positionJudge : Bool

/-- A checkpoint that is due: its name, the least return asked for, and the share of the range
that is left to the stop. -/
structure Review where
  checkpoint : Checkpoint
  minPnl : ℚ
  decayFactor : ℚ

/-- The checkpoint that follows, once its time has come. -/
def dueReview (checkpoint : Checkpoint) (elapsed : ℚ) : Option Review :=
  match checkpoint with
  | .OPEN => if 3600 ≤ elapsed then some ⟨.H1, -1 / 200, 4 / 5⟩ else none
  | .H1 => if 14400 ≤ elapsed then some ⟨.H4, 0, 1 / 2⟩ else none
  | .H4 => if 86400 ≤ elapsed then some ⟨.H24, 1 / 200, 1 / 5⟩ else none
  | .H24 | .TRAILING => none

/-- What the exchange makes of a stop; the last one is taken, but the call raises. -/
inductive StopReply where
  | unsent
  | refused
  | accepted
  | unanswered
deriving Repr, DecidableEq

/-- The stop reaches the exchange. -/
def StopReply.sent (reply : StopReply) : Bool :=
  decide (reply ≠ .unsent)

/-- The stop is in force. -/
def StopReply.inForce (reply : StopReply) : Bool :=
  decide (reply = .accepted ∨ reply = .unanswered)

/-- What one evaluation meets: the clock, the price, the verdicts, which writes of the checkpoint
get through, and the replies to the stops.  A judge that raises is an error. -/
structure CheckpointMoment where
  now : ℚ
  price : Option ℚ
  verdict : Except Text (Option Action)
  reviewVerdict : Except Text (Option Action)
  clearWinWritten : Bool
  reviewWritten : Bool
  replies : ℕ → StopReply

/-- The distances handed to `_tighten_stop` so far, the reasons of exits, and the checkpoint in
the store. -/
structure CheckpointState where
  tightened : List ℚ
  exits : List Text
  checkpoint : Checkpoint
deriving Repr, DecidableEq

/-- Call `_exit` and return. -/
def CheckpointState.exit (s : CheckpointState) (reason : Text) : Flow CheckpointState :=
  .ret { s with exits := s.exits ++ [reason] }

/-- Call `_tighten_stop`, which returns at once for no distance. -/
def CheckpointState.tighten (s : CheckpointState) (distance : ℚ) : CheckpointState :=
  if distance ≤ 0 then s else { s with tightened := s.tightened ++ [distance] }

section Evaluate

variable (limits : CheckpointLimits) (m : CheckpointMoment) (pos : PositionRecord)
  (checkpoint : Checkpoint) (elapsed price : ℚ)

/-- `pnl_pct`. -/
def checkpointPnl : ℚ :=
  checkpointPnlPct pos.side.word pos.entryPrice price

/-- The range of the record. -/
def checkpointAtr : ℚ :=
  Numeral.safeDecimal pos.atr

/-- Profit in money at a price. -/
def profitUsd (mark : ℚ) : ℚ :=
  if pos.side.word = "buy".toList then (mark - pos.entryPrice) * pos.amount
  else (pos.entryPrice - mark) * pos.amount

/-- The loss is at a limit in percent. -/
def HardFails : Prop :=
  elapsed < 1800 ∧ checkpointPnl pos price ≤ limits.hardFail30min ∨
    checkpointPnl pos price ≤ limits.hardFailEver

/-- A profit worth protecting has gone back far enough. -/
def DrawsDown : Prop :=
  let peak := profitUsd pos (pos.peakPrice.getD pos.entryPrice)
  let current := profitUsd pos price
  (limits.minProfitToProtectUsd ≤ peak ∧ 0 ≤ current) ∧ 0 < peak ∧
    limits.profitDrawdownRatio ≤ (peak - current) / peak

/-- A gain of several ranges that is not yet marked. -/
def ClearWin : Prop :=
  (0 < checkpointAtr pos ∧ 0 < checkpointPnl pos price) ∧
    limits.clearWinAtrMult ≤ |price - pos.entryPrice| / checkpointAtr pos ∧
      checkpoint ≠ .TRAILING

/-- The loss is at a limit in money; a limit of zero is none. -/
def HardFailsUsd : Prop :=
  let pnlUsd := checkpointPnl pos price * pos.amount * pos.entryPrice
  (∃ limit ∈ limits.hardFail30minUsd, limit ≠ 0 ∧ elapsed < 1800 ∧ pnlUsd ≤ limit) ∨
    ∃ limit ∈ limits.hardFailEverUsd, limit ≠ 0 ∧ pnlUsd ≤ limit

instance : Decidable (HardFails limits pos elapsed price) :=
  inferInstanceAs (Decidable (_ ∧ _ ∨ _))

instance : Decidable (DrawsDown limits pos price) :=
  inferInstanceAs (Decidable ((_ ∧ _) ∧ _ ∧ _))

instance : Decidable (ClearWin limits pos checkpoint price) :=
  inferInstanceAs (Decidable ((_ ∧ _) ∧ _ ∧ _))

instance : Decidable (HardFailsUsd limits pos elapsed price) :=
  inferInstanceAs (Decidable (_ ∨ _))

/-- Exits on a loss in percent and on a drawdown of profit. -/
def exitEarly (s : CheckpointState) : Flow CheckpointState :=
  if HardFails limits pos elapsed price then s.exit "checkpoint".toList
  else if DrawsDown limits pos price then s.exit "profit_drawdown".toList
  else .next s

/-- The judge in the zone between a hard fail and a clear win. -/
def askJudge (s : CheckpointState) : Flow CheckpointState :=
  if limits.positionJudge ∧ limits.hardFailEver < checkpointPnl pos price then
    match m.verdict with
    | .error _ => .raise s
    | .ok (some .EXIT) => s.exit "checkpoint".toList
    | .ok (some .TIGHTEN_STOP) => .next (s.tighten (checkpointAtr pos))
    | .ok (some .HOLD) | .ok none => .next s
  else .next s

/-- Mark a clear win. -/
def markClearWin (s : CheckpointState) : Flow CheckpointState :=
  if ClearWin limits pos checkpoint price then
    if m.clearWinWritten then .next { s with checkpoint := .TRAILING } else .raise s
  else .next s

/-- Exits after three days and on a loss in money. -/
def exitLate (s : CheckpointState) : Flow CheckpointState :=
  if 259200 ≤ elapsed then s.exit "time_stop".toList
  else if HardFailsUsd limits pos elapsed price then s.exit "hard_fail_usd".toList
  else .next s

/-- The reason of an exit at a checkpoint. -/
def reviewReason : Checkpoint → Text
  | .H1 => "checkpoint_1H_fail".toList
  | .H4 => "checkpoint_4H_fail".toList
  | .H24 => "checkpoint_24H_fail".toList
  | .OPEN => "checkpoint_OPEN_fail".toList
  | .TRAILING => "checkpoint_TRAILING_fail".toList

/-- Position confidence decay. -/
def decay (review : Review) (s : CheckpointState) : CheckpointState :=
  if review.decayFactor < 1 ∧ 0 < checkpointAtr pos then
    s.tighten (checkpointAtr pos * review.decayFactor)
  else s

/-- The judge for a return that is too small. -/
def askReviewJudge (review : Review) (s : CheckpointState) : Flow CheckpointState :=
  if checkpointPnl pos price < review.minPnl ∧ limits.positionJudge then
    match m.reviewVerdict with
    | .error _ => .raise s
    | .ok (some .EXIT) => s.exit (reviewReason review.checkpoint)
    | .ok (some .TIGHTEN_STOP) => .next (s.tighten (checkpointAtr pos))
    | .ok (some .HOLD) | .ok none => .next s
  else .next s

/-- A checkpoint that is due. -/
def reviewCheckpoint (s : CheckpointState) : Flow CheckpointState :=
  match dueReview checkpoint elapsed with
  | none => .next s
  | some review =>
      if m.reviewWritten then
        askReviewJudge limits m pos price review
          (decay pos review { s with checkpoint := review.checkpoint })
      else .raise s

/-- `CheckpointManager._evaluate` from the first price on; a record without an entry price cannot
be evaluated. -/
def evaluateAt (s : CheckpointState) : Flow CheckpointState :=
  if pos.entryPrice = 0 then .raise s
  else
    Flow.blocks [exitEarly limits pos elapsed price, askJudge limits m pos price,
      markClearWin limits m pos checkpoint price, exitLate limits pos elapsed price,
      reviewCheckpoint limits m pos checkpoint elapsed price] s

/-- `CheckpointManager._evaluate`. -/
def checkpointEvaluate : CheckpointState :=
  match pos.enteredAt, m.price with
  | some enteredAt, some price =>
      (evaluateAt limits m pos checkpoint (m.now - enteredAt) price ⟨[], [], checkpoint⟩).state
  | _, _ => ⟨[], [], checkpoint⟩

/-! ### The distances of an evaluation -/

/-- The judge asks for an action. -/
def asks (action : Action) : Except Text (Option Action) → Bool
  | .ok verdict => decide (verdict = some action)
  | .error _ => false

/-- There is an entry price, and no early exit. -/
def Survives : Prop :=
  pos.entryPrice ≠ 0 ∧ ¬ HardFails limits pos elapsed price ∧ ¬ DrawsDown limits pos price

/-- The judge, if there is one, answers and does not ask for the exit. -/
def Kept : Prop :=
  limits.positionJudge = true → m.verdict.isOk = true ∧ asks .EXIT m.verdict = false

/-- The evaluation goes on to its checkpoint after the verdict. -/
def GetsToReview : Prop :=
  Kept limits m ∧ (ClearWin limits pos checkpoint price → m.clearWinWritten = true) ∧
    elapsed < 259200 ∧ ¬ HardFailsUsd limits pos elapsed price ∧ m.reviewWritten = true

instance : Decidable (Survives limits pos elapsed price) :=
  inferInstanceAs (Decidable (_ ∧ _ ∧ _))

instance : Decidable (Kept limits m) :=
  inferInstanceAs (Decidable (_ → _))

instance : Decidable (GetsToReview limits m pos checkpoint elapsed price) :=
  inferInstanceAs (Decidable (_ ∧ _ ∧ _ ∧ _ ∧ _))

/-- The distance that the judge asks for. -/
def verdictDistances : List ℚ :=
  if limits.positionJudge ∧ asks .TIGHTEN_STOP m.verdict then [checkpointAtr pos] else []

/-- The distances at a checkpoint: decay, and what the judge asks for. -/
def reviewDistances (review : Review) : List ℚ :=
  checkpointAtr pos * review.decayFactor ::
    if checkpointPnl pos price < review.minPnl ∧ limits.positionJudge ∧
      asks .TIGHTEN_STOP m.reviewVerdict then [checkpointAtr pos] else []

/-- The distances of an evaluation, in order. -/
def tightenings : List ℚ :=
  if Survives limits pos elapsed price ∧ 0 < checkpointAtr pos then
    verdictDistances limits m pos ++
      if GetsToReview limits m pos checkpoint elapsed price then
        (dueReview checkpoint elapsed).elim [] (reviewDistances limits m pos price)
      else []
  else []

variable {limits m pos checkpoint elapsed price}

/-- Every checkpoint that is due has a factor between zero and one. -/
theorem decayFactor_mem {review : Review} (h : dueReview checkpoint elapsed = some review) :
    0 < review.decayFactor ∧ review.decayFactor < 1 := by
  unfold dueReview at h
  split at h
  · split_ifs at h
    cases h
    norm_num
  · split_ifs at h
    cases h
    norm_num
  · split_ifs at h
    cases h
    norm_num
  · cases h
  · cases h

/-- A positive distance is tightened to. -/
theorem tightened_tighten (s : CheckpointState) (distance : ℚ) :
    (s.tighten distance).tightened = s.tightened ++ if 0 < distance then [distance] else [] := by
  unfold CheckpointState.tighten
  by_cases hdistance : distance ≤ 0
  · simp [hdistance, not_lt.mpr hdistance]
  · simp [hdistance, not_le.mp hdistance]

/-- The distances of the judge. -/
theorem askJudge_ends (s : CheckpointState)
    (hpnl : limits.hardFailEver < checkpointPnl pos price) :
    (askJudge limits m pos price s).Ends
      (fun s' => Kept limits m ∧ s'.tightened = s.tightened ++
        if 0 < checkpointAtr pos then verdictDistances limits m pos else [])
      (fun s' => ¬ Kept limits m ∧ verdictDistances limits m pos = [] ∧
        s'.tightened = s.tightened) := by
  unfold askJudge Kept verdictDistances
  cases hjudge : limits.positionJudge with
  | false => simp
  | true =>
      rcases m.verdict with message | (_ | (_ | _ | _))
      · simp [hpnl, asks, Except.isOk, Except.toBool]
      · simp [hpnl, asks, Except.isOk, Except.toBool]
      · simp [hpnl, asks, Except.isOk, Except.toBool]
      · simp [hpnl, asks, Except.isOk, Except.toBool, CheckpointState.exit]
      · simp [hpnl, asks, Except.isOk, Except.toBool, tightened_tighten]

/-- The distance of the decay. -/
theorem decay_tightened {review : Review} (h : dueReview checkpoint elapsed = some review)
    (s : CheckpointState) :
    (decay pos review s).tightened = s.tightened ++
      if 0 < checkpointAtr pos then [checkpointAtr pos * review.decayFactor] else [] := by
  rcases decayFactor_mem h with ⟨hpositive, hless⟩
  unfold decay
  by_cases hatr : 0 < checkpointAtr pos
  · rw [if_pos ⟨hless, hatr⟩, tightened_tighten, if_pos hatr, if_pos (mul_pos hatr hpositive)]
  · rw [if_neg fun h => hatr h.2, if_neg hatr, List.append_nil]

/-- The distance of the judge at a checkpoint. -/
theorem askReviewJudge_tightened (review : Review) (s : CheckpointState) :
    (askReviewJudge limits m pos price review s).state.tightened = s.tightened ++
      if checkpointPnl pos price < review.minPnl ∧ limits.positionJudge ∧
        asks .TIGHTEN_STOP m.reviewVerdict ∧ 0 < checkpointAtr pos then [checkpointAtr pos]
      else [] := by
  unfold askReviewJudge
  by_cases hasked : checkpointPnl pos price < review.minPnl ∧ limits.positionJudge = true
  · rw [if_pos hasked]
    rcases m.reviewVerdict with message | (_ | (_ | _ | _))
    · simp [asks]
    · simp [asks]
    · simp [asks]
    · simp [asks, CheckpointState.exit]
    · simp [asks, tightened_tighten, hasked]
  · rw [if_neg hasked, if_neg fun h => hasked ⟨h.1, h.2.1⟩]
    simp

/-- The distances at a checkpoint. -/
theorem reviewCheckpoint_tightened (s : CheckpointState) :
    (reviewCheckpoint limits m pos checkpoint elapsed price s).state.tightened = s.tightened ++
      if m.reviewWritten ∧ 0 < checkpointAtr pos then
        (dueReview checkpoint elapsed).elim [] (reviewDistances limits m pos price)
      else [] := by
  unfold reviewCheckpoint
  cases hdue : dueReview checkpoint elapsed with
  | none => simp
  | some review =>
      dsimp only [Option.elim]
      by_cases hwritten : m.reviewWritten = true
      · rw [if_pos hwritten, askReviewJudge_tightened, decay_tightened hdue, reviewDistances]
        by_cases hatr : 0 < checkpointAtr pos
        · simp [hwritten, hatr]
        · simp [hatr]
      · simp [hwritten]

/-- The exits behind the clear win leave the distances alone. -/
theorem exitLate_ends (s : CheckpointState) :
    (exitLate limits pos elapsed price s).Ends
      (fun s' => (elapsed < 259200 ∧ ¬ HardFailsUsd limits pos elapsed price) ∧ s' = s)
      (fun s' => ¬ (elapsed < 259200 ∧ ¬ HardFailsUsd limits pos elapsed price) ∧
        s'.tightened = s.tightened) := by
  unfold exitLate
  split_ifs with htime hfails
  · exact ⟨fun h => absurd h.1 (not_lt.mpr htime), rfl⟩
  · exact ⟨fun h => h.2 hfails, rfl⟩
  · exact ⟨⟨not_le.mp htime, hfails⟩, rfl⟩

/-- Marking a clear win leaves the distances alone. -/
theorem markClearWin_ends (s : CheckpointState) :
    (markClearWin limits m pos checkpoint price s).Ends
      (fun s' => (ClearWin limits pos checkpoint price → m.clearWinWritten = true) ∧
        s'.tightened = s.tightened)
      (fun s' => ¬ (ClearWin limits pos checkpoint price → m.clearWinWritten = true) ∧
        s'.tightened = s.tightened) := by
  unfold markClearWin
  split_ifs with hwin hwritten
  · exact ⟨fun _ => hwritten, rfl⟩
  · exact ⟨fun h => hwritten (h hwin), rfl⟩
  · exact ⟨fun h => absurd h hwin, rfl⟩

/-- The distances behind the judge. -/
theorem afterJudge_tightened (hkept : Kept limits m) (s : CheckpointState) :
    (Flow.blocks [markClearWin limits m pos checkpoint price, exitLate limits pos elapsed price,
      reviewCheckpoint limits m pos checkpoint elapsed price] s).state.tightened =
        s.tightened ++ if GetsToReview limits m pos checkpoint elapsed price ∧ 0 < checkpointAtr pos
          then (dueReview checkpoint elapsed).elim [] (reviewDistances limits m pos price)
          else [] := by
  generalize hdistances : s.tightened ++ (if GetsToReview limits m pos checkpoint elapsed price ∧
    0 < checkpointAtr pos then _ else _) = distances
  have hstop : ∀ s' : CheckpointState, ¬ GetsToReview limits m pos checkpoint elapsed price →
      s'.tightened = s.tightened → s'.tightened = distances := by
    intro s' hnot hsame
    rw [← hdistances, if_neg fun h => hnot h.1, List.append_nil, hsame]
  rw [Flow.blocks_cons]
  refine @Flow.Ends.andThen_state _ _ _ (fun s' => s'.tightened = distances) _ _
    (markClearWin_ends s) ?_ ?_
  · rintro won ⟨hwritten, hsame⟩
    rw [Flow.blocks_cons, Flow.blocks_singleton]
    refine @Flow.Ends.andThen_state _ _ _ (fun s' => s'.tightened = distances) _ _
      (exitLate_ends won) ?_ ?_
    · rintro late ⟨hlate, rfl⟩
      rw [reviewCheckpoint_tightened, hsame, ← hdistances]
      congr 2
      exact propext ⟨fun h => ⟨⟨hkept, hwritten, hlate.1, hlate.2, h.1⟩, h.2⟩,
        fun h => ⟨h.1.2.2.2.2, h.2⟩⟩
    · rintro late ⟨hlate, hsame'⟩
      exact hstop late (fun h => hlate ⟨h.2.2.1, h.2.2.2.1⟩) (hsame'.trans hsame)
  · rintro won ⟨hwritten, hsame⟩
    exact hstop won (fun h => hwritten h.2.1) hsame

/-- The distances of an evaluation at a price. -/
theorem evaluateAt_tightened :
    (evaluateAt limits m pos checkpoint elapsed price ⟨[], [], checkpoint⟩).state.tightened =
      tightenings limits m pos checkpoint elapsed price := by
  unfold evaluateAt tightenings
  by_cases hentry : pos.entryPrice = 0
  · rw [if_pos hentry, if_neg fun h => h.1.1 hentry]
    rfl
  rw [if_neg hentry, Flow.blocks_cons, exitEarly]
  by_cases hfails : HardFails limits pos elapsed price
  · rw [if_pos hfails, if_neg fun h => h.1.2.1 hfails]
    rfl
  rw [if_neg hfails]
  by_cases hdraws : DrawsDown limits pos price
  · rw [if_pos hdraws, if_neg fun h => h.1.2.2 hdraws]
    rfl
  rw [if_neg hdraws, Flow.next_andThen, Flow.blocks_cons]
  have hpnl : limits.hardFailEver < checkpointPnl pos price :=
    not_le.mp fun h => hfails (Or.inr h)
  have hsurvives : Survives limits pos elapsed price := ⟨hentry, hfails, hdraws⟩
  generalize hdistances : (if Survives limits pos elapsed price ∧ 0 < checkpointAtr pos then _
    else _) = distances
  refine @Flow.Ends.andThen_state _ _ _ (fun s' => s'.tightened = distances) _ _
    (askJudge_ends _ hpnl) ?_ ?_
  · rintro judged ⟨hkept, htightened⟩
    rw [afterJudge_tightened hkept, htightened, ← hdistances]
    by_cases hatr : 0 < checkpointAtr pos
    · simp [hatr, hsurvives]
    · simp [hatr]
  · rintro judged ⟨hkept, hverdict, htightened⟩
    have hnot : ¬ GetsToReview limits m pos checkpoint elapsed price := fun h => hkept h.1
    rw [htightened, ← hdistances, hverdict, if_neg hnot]
    simp

/-- The distances of an evaluation. -/
theorem checkpointEvaluate_tightened :
    (checkpointEvaluate limits m pos checkpoint).tightened =
      match pos.enteredAt, m.price with
      | some enteredAt, some price =>
          tightenings limits m pos checkpoint (m.now - enteredAt) price
      | _, _ => [] := by
  unfold checkpointEvaluate
  cases pos.enteredAt with
  | none => rfl
  | some enteredAt =>
      cases m.price with
      | none => rfl
      | some price => exact evaluateAt_tightened

end Evaluate

/-! ## Both managers on one position -/

/-- The stop of `_tighten_stop`. -/
def tightenStop (side : Text) (price distance : ℚ) : ℚ :=
  if side = "buy".toList then price - distance * 1 else price + distance * 1

/-- A stop as it is sent: the one in force before, and the price it is to be close to, if that is
its purpose. -/
structure StopSend where
  before : Option ℚ
  stop : ℚ
  tightenedAt : Option ℚ
deriving Repr, DecidableEq

/-- The position in the store, the stop in force, the manager's last amendment, and the stops sent
so far. -/
structure StopState where
  record : PositionRecord
  checkpoint : Checkpoint
  accepted : Option ℚ
  lastAmend : Option ℚ
  sends : List StopSend
deriving Repr, DecidableEq

/-- What happens to the position: the two managers evaluate it, and others may place a stop, or
write its record under the same key. -/
inductive StopEvent where
  | trailing (a : TrailingAnswers) (reply : StopReply)
  | checkpoint (m : CheckpointMoment)
  | placed (stop : ℚ)
  | written (pos : PositionRecord)

section Runs

variable (t : InstrumentTables) (settings : TrailingSettings) (limits : CheckpointLimits)

/-- `set_trading_stop`. -/
def StopState.send (s : StopState) (stop : ℚ) (tightenedAt : Option ℚ) (reply : StopReply) :
    StopState :=
  let rounded := t.roundPrice s.record.symbol stop
  { s with
    accepted := if reply.inForce then some rounded else s.accepted
    sends := if reply.sent then s.sends ++ [⟨s.accepted, rounded, tightenedAt⟩] else s.sends }

/-- The stops of one evaluation, from the `n`-th reply on. -/
def StopState.sendTightened (price : ℚ) (replies : ℕ → StopReply) :
    ℕ → List ℚ → StopState → StopState
  | _, [], s => s
  | n, distance :: rest, s =>
      StopState.sendTightened price replies (n + 1) rest
        (s.send t (tightenStop s.record.side.word price distance) (some price) (replies n))

/-- One event. -/
def stopStep (s : StopState) : StopEvent → StopState
  | .trailing a reply =>
      let result := trailingEvaluate settings { a with lastAmend := s.lastAmend } s.record
      match result.stop with
      | none => { s with record := result.record }
      | some stop =>
          { s.send t stop none reply with
            record := result.record
            lastAmend := if reply = .accepted then some a.now else s.lastAmend }
  | .checkpoint m =>
      let result := checkpointEvaluate limits m s.record s.checkpoint
      { s.sendTightened t (m.price.getD 0) m.replies 0 result.tightened with
        checkpoint := result.checkpoint }
  | .placed stop => { s with accepted := some stop }
  | .written pos =>
      { s with record := { pos with symbol := s.record.symbol, side := s.record.side } }

/-! ## Tightening -/

/-- Not lower for a long, not higher for a short. -/
def AsProtective : Side → (new old : ℚ) → Prop
  | .LONG, new, old => old ≤ new
  | .SHORT, new, old => new ≤ old

/-- A stop is as protective as the one before, and one that is to be close to the price is not
further from it. -/
def StopSend.Tightens (side : Side) (send : StopSend) : Prop :=
  ∀ old ∈ send.before, AsProtective side send.stop old ∧
    ∀ price ∈ send.tightenedAt, |send.stop - price| ≤ |old - price|

/-- Every stop sent so far tightens. -/
def OnlyTightens (s : StopState) : Prop :=
  ∀ send ∈ s.sends, send.Tightens s.record.side

/-- How far a stop is on the losing side of a price. -/
def margin : Side → (price stop : ℚ) → ℚ
  | .LONG, price, stop => price - stop
  | .SHORT, price, stop => stop - price

/-- The stop of a short: some ranges above the peak, and at most the loss limit above the entry. -/
def shortStop (pos : PositionRecord) : ℚ :=
  let limit := pos.entryPrice + settings.maxLossUsd / pos.amount
  if Numeral.safeDecimal pos.atr ≤ 0 then limit
  else min (pos.peakPrice.getD pos.entryPrice +
    Numeral.safeDecimal pos.atr * settings.atrMultiplier) limit

/-- The trailing manager sends its stop. -/
def TrailingDue (s : StopState) (a : TrailingAnswers) : Prop :=
  a.price.isSome = true ∧ 0 < s.record.amount ∧ a.slPrice.getD 0 = 0 ∧
    settings.cooldownSeconds ≤ a.now - s.lastAmend.getD 0

/-- Each distance above the price ends at the stop in force, or within that stop's own margin. -/
def KeepsDistance (symbol : Text) (side : Side) (price : ℚ) (replies : ℕ → StopReply) :
    Option ℚ → ℕ → List ℚ → Prop
  | _, _, [] => True
  | accepted, n, distance :: rest =>
      let stop := t.roundPrice symbol (price + distance)
      ((replies n).sent = true →
        ∀ old ∈ accepted, old = stop ∨ |stop - price| ≤ margin side price old) ∧
        KeepsDistance symbol side price replies
          (if (replies n).inForce then some stop else accepted) (n + 1) rest

/-- The event sends no stop that is looser than the one in force. -/
def Tighter (s : StopState) : StopEvent → Prop
  | .trailing a reply => reply.sent = true → TrailingDue settings s a → ∀ old ∈ s.accepted,
      AsProtective s.record.side (t.roundPrice s.record.symbol (shortStop settings s.record)) old
  | .checkpoint m => ∀ enteredAt price, s.record.enteredAt = some enteredAt →
      m.price = some price →
        KeepsDistance t s.record.symbol s.record.side price m.replies s.accepted 0
          (tightenings limits m s.record s.checkpoint (m.now - enteredAt) price)
  | .placed _ | .written _ => True

end Runs

/-! ## Steps and runs -/

/-- A stop close to the price is as protective as another one and not further from the price
exactly when it is the same, or within the other's margin. -/
theorem tightens_iff (side : Side) (new old price : ℚ) :
    (AsProtective side new old ∧ |new - price| ≤ |old - price|) ↔
      old = new ∨ |new - price| ≤ margin side price old := by
  cases side with
  | LONG =>
      simp only [AsProtective, margin]
      constructor
      · rintro ⟨hle, hnear⟩
        rcases le_or_gt old price with hbelow | habove
        · right
          rwa [abs_sub_comm old price, abs_of_nonneg (sub_nonneg.mpr hbelow)] at hnear
        · left
          rw [abs_of_pos (sub_pos.mpr habove), abs_of_pos (by linarith)] at hnear
          linarith
      · rintro (rfl | hnear)
        · exact ⟨le_rfl, le_rfl⟩
        · have hbounds := abs_le.mp hnear
          refine ⟨by linarith, hnear.trans ?_⟩
          rw [abs_sub_comm]
          exact le_abs_self _
  | SHORT =>
      simp only [AsProtective, margin]
      constructor
      · rintro ⟨hle, hnear⟩
        rcases le_or_gt price old with habove | hbelow
        · right
          rwa [abs_of_nonneg (sub_nonneg.mpr habove)] at hnear
        · left
          rw [abs_of_neg (sub_neg.mpr hbelow), abs_of_neg (by linarith)] at hnear
          linarith
      · rintro (rfl | hnear)
        · exact ⟨le_rfl, le_rfl⟩
        · have hbounds := abs_le.mp hnear
          exact ⟨by linarith, hnear.trans (le_abs_self _)⟩

/-- A stored record has a stop on its losing side only if it is a short. -/
theorem tightenStop_word (side : Side) (price distance : ℚ) :
    tightenStop side.word price distance = price + distance := by
  rw [tightenStop, if_neg (word_ne_buy side), mul_one]

section Steps

variable {t : InstrumentTables} {settings : TrailingSettings} {limits : CheckpointLimits}
  {s : StopState}

instance (settings : TrailingSettings) (s : StopState) (a : TrailingAnswers) :
    Decidable (TrailingDue settings s a) :=
  inferInstanceAs (Decidable (_ ∧ _ ∧ _ ∧ _))

/-- The stop that the trailing manager sends. -/
theorem trailingEvaluate_stop (a : TrailingAnswers) :
    (trailingEvaluate settings { a with lastAmend := s.lastAmend } s.record).stop =
      if TrailingDue settings s a then some (shortStop settings s.record) else none := by
  have himproves : ∀ old new, stopImproves s.record.side.word old new = decide (old = 0) := by
    intro old new
    refine decide_eq_decide.mpr (or_iff_left ?_)
    rintro (h | h)
    · exact word_ne_buy s.record.side h.1
    · exact word_ne_sell s.record.side h.1
  have hstop : trailingStop settings s.record.side.word s.record.entryPrice
      (s.record.peakPrice.getD s.record.entryPrice) (Numeral.safeDecimal s.record.atr)
        s.record.amount = shortStop settings s.record :=
    trailingStop_word settings s.record.side _ _ _ _
  rcases a with ⟨_ | price, slPrice, now, lastAmend⟩
  · simp [trailingEvaluate, TrailingDue]
  · unfold trailingEvaluate
    dsimp only
    rw [peakMoves_word, if_neg Bool.false_ne_true, if_neg Bool.false_ne_true, himproves, hstop]
    by_cases hamount : s.record.amount ≤ 0
    · rw [if_pos hamount, if_neg fun h : TrailingDue settings s _ => h.2.1.not_ge hamount]
    · rw [if_neg hamount]
      by_cases hdue : slPrice.getD 0 = 0 ∧ settings.cooldownSeconds ≤ now - s.lastAmend.getD 0
      · rw [if_pos ⟨decide_eq_true hdue.1, decide_eq_true hdue.2⟩,
          if_pos (show TrailingDue settings s _ from ⟨rfl, not_le.mp hamount, hdue⟩)]
      · rw [if_neg fun h => hdue ⟨of_decide_eq_true h.1, of_decide_eq_true h.2⟩,
          if_neg fun h : TrailingDue settings s _ => hdue h.2.2]

/-- What one stop adds. -/
theorem onlyTightens_send (stop : ℚ) (tightenedAt : Option ℚ) (reply : StopReply) :
    OnlyTightens (s.send t stop tightenedAt reply) ↔ OnlyTightens s ∧ (reply.sent = true →
      StopSend.Tightens s.record.side
        ⟨s.accepted, t.roundPrice s.record.symbol stop, tightenedAt⟩) := by
  unfold OnlyTightens StopState.send
  dsimp only
  cases reply.sent with
  | false =>
      rw [if_neg Bool.false_ne_true]
      exact ⟨fun h => ⟨h, fun hsent => absurd hsent Bool.false_ne_true⟩, And.left⟩
  | true =>
      simp only [if_true, List.mem_append, List.mem_singleton, true_implies]
      constructor
      · intro h
        exact ⟨fun send hsend => h send (Or.inl hsend), h _ (Or.inr rfl)⟩
      · rintro ⟨hold, hnew⟩ send (hsend | rfl)
        · exact hold send hsend
        · exact hnew

/-- A stop that is to be close to the price, by its margin. -/
theorem tightens_at_iff (side : Side) (before : Option ℚ) (stop price : ℚ) :
    StopSend.Tightens side ⟨before, stop, some price⟩ ↔
      ∀ old ∈ before, old = stop ∨ |stop - price| ≤ margin side price old := by
  refine forall₂_congr fun old _ => ?_
  rw [← tightens_iff]
  simp

/-- What the stops of an evaluation add. -/
theorem onlyTightens_sendTightened (price : ℚ) (replies : ℕ → StopReply) (n : ℕ)
    (distances : List ℚ) :
    OnlyTightens (s.sendTightened t price replies n distances) ↔ OnlyTightens s ∧
      KeepsDistance t s.record.symbol s.record.side price replies s.accepted n distances := by
  induction distances generalizing n s with
  | nil => exact (and_iff_left trivial).symm
  | cons distance rest ih =>
      rw [StopState.sendTightened, KeepsDistance, tightenStop_word, ih, onlyTightens_send,
        tightens_at_iff, and_assoc]
      exact Iff.rfl

/-- A step keeps the property exactly when it sends nothing looser. -/
theorem onlyTightens_step (h : OnlyTightens s) (event : StopEvent) :
    OnlyTightens (stopStep t settings limits s event) ↔ Tighter t settings limits s event := by
  cases event with
  | trailing a reply =>
      have hrecord := (trailingEvaluate_word settings { a with lastAmend := s.lastAmend }
        s.record).1
      have hadded := @onlyTightens_send t s (shortStop settings s.record) none reply
      unfold stopStep Tighter
      dsimp only
      rw [trailingEvaluate_stop, hrecord]
      by_cases hdue : TrailingDue settings s a
      · rw [if_pos hdue]
        refine hadded.trans ?_
        simp [h, hdue, StopSend.Tightens]
      · rw [if_neg hdue]
        exact iff_of_true h fun _ hnow => absurd hnow hdue
  | checkpoint m =>
      have hadded := @onlyTightens_sendTightened t s (m.price.getD 0) m.replies 0
      unfold stopStep Tighter
      refine (hadded _).trans ?_
      rw [and_iff_right h, checkpointEvaluate_tightened]
      cases s.record.enteredAt with
      | none => simp [KeepsDistance]
      | some enteredAt =>
          cases hprice : m.price with
          | none => simp [hprice, KeepsDistance]
          | some price => simp [hprice]
  | placed stop => exact iff_of_true h trivial
  | written pos => exact iff_of_true h trivial

/-- The next trailing stop takes back every tighter one. -/
theorem trailing_loosens (h : OnlyTightens s) {a : TrailingAnswers} {reply : StopReply} {old : ℚ}
    (hdue : TrailingDue settings s a) (hsent : reply.sent = true) (hold : s.accepted = some old)
    (htighter : ¬ AsProtective s.record.side
      (t.roundPrice s.record.symbol (shortStop settings s.record)) old) :
    ¬ OnlyTightens (stopStep t settings limits s (.trailing a reply)) := by
  rw [onlyTightens_step h]
  exact fun hkept => htighter (hkept hsent hdue old hold)

end Steps

/-- The stops of a run only tighten exactly when no event sends one that is looser than the stop
in force. -/
theorem onlyTighten_iff (t : InstrumentTables) (settings : TrailingSettings)
    (limits : CheckpointLimits) (record : PositionRecord) (checkpoint : Checkpoint)
    (accepted lastAmend : Option ℚ) (events : List StopEvent) :
    (∀ n, OnlyTightens (run (stopStep t settings limits)
        ⟨record, checkpoint, accepted, lastAmend, []⟩ (events.take n))) ↔
      Admits (stopStep t settings limits) (Tighter t settings limits)
        ⟨record, checkpoint, accepted, lastAmend, []⟩ events :=
  @invariant_iff_admits _ _ _ _ OnlyTightens (fun _ event h => onlyTightens_step h event) _ _
    fun _ hsend => absurd hsend List.not_mem_nil

/-- The settings of the main program. -/
def mainLimits : CheckpointLimits where
  hardFail30min := -7 / 200
  hardFailEver := -1 / 20
  clearWinAtrMult := 3
  minProfitToProtectUsd := 1 / 2
  profitDrawdownRatio := 1 / 2
  hardFail30minUsd := none
  hardFailEverUsd := none
  positionJudge := true

/-- An hour after its entry a short has gained three percent. -/
def gainingShort : StopState where
  record := .opened "BTC/USDT".toList .SHORT 100 1 (some 2) none none 2 0
  checkpoint := .OPEN
  accepted := some 104
  lastAmend := none
  sends := []

/-- Its checkpoint, and the next round of the trailing manager. -/
def tightenThenTrail : List StopEvent :=
  [.checkpoint ⟨3700, some 97, .ok none, .ok none, true, true, fun _ => .accepted⟩,
    .trailing ⟨some 97, none, 3730, none⟩ .accepted]

/-- The decayed stop at 98.6 is moved back to 101. -/
theorem gainingShort_loosened :
    ¬ ∀ n, OnlyTightens (run (stopStep .empty .default mainLimits) gainingShort
      (tightenThenTrail.take n)) := by
  intro h
  have hsend : (⟨some (493 / 5), 101, none⟩ : StopSend) ∈
      (run (stopStep .empty .default mainLimits) gainingShort
        (tightenThenTrail.take 2)).sends := by
    decide +kernel
  have hside : (run (stopStep .empty .default mainLimits) gainingShort
      (tightenThenTrail.take 2)).record.side = .SHORT := by
    decide +kernel
  have hprotective := (h 2 _ hsend _ rfl).1
  rw [hside] at hprotective
  norm_num [AsProtective] at hprotective

end Lifecycle
end Karsa
