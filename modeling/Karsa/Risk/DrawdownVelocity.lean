import Karsa.Foundations.Runs
import Karsa.Risk.PortfolioChecks
import Mathlib.Algebra.BigOperators.Group.List.Basic
import Mathlib.Data.NNRat.Defs

/-!
# Portfolio risk manager - Drawdown velocity over time

`_check_drawdown_velocity` adds up the results of the trades closed during the last hour and
stores a pause when they lost too much.  It reads the fifty newest trades only, and a trade
without a result raises an exception that its inner handler does not know.

Main results:

- Theorem `foldlM_addRecent`: what the loop over the listed trades adds up.
- Theorem `rejects_iff`: when a call rejects.
- Theorem `step_paused`: a stored pause outlives whatever happens before its end.
- Theorem `velocity_run_iff`: the runs in which every call decides by all trades of the hour.
-/

namespace Karsa
namespace Risk

/-! ## Trades of the last hour -/

/-- Does the trade count at a moment? -/
def ClosedTrade.since (start : ℚ) (t : ClosedTrade) : Bool :=
  decide (start ≤ t.exitTime)

/-- Realised result of the trades closed since a moment; one without a result adds nothing. -/
def realisedSince (start : ℚ) (trades : List ClosedTrade) : ℚ :=
  ((trades.filter (ClosedTrade.since start)).map fun t => t.realizedPnl.getD 0).sum

/-- Every trade closed since a moment has a result. -/
def ResultsKnown (start : ℚ) (trades : List ClosedTrade) : Prop :=
  ∀ t ∈ trades, start ≤ t.exitTime → t.realizedPnl ≠ none

@[simp] theorem realisedSince_nil (start : ℚ) : realisedSince start [] = 0 := rfl

theorem realisedSince_cons (start : ℚ) (t : ClosedTrade) (rest : List ClosedTrade) :
    realisedSince start (t :: rest) =
      (if start ≤ t.exitTime then t.realizedPnl.getD 0 else 0) + realisedSince start rest := by
  by_cases h : start ≤ t.exitTime
  · simp [realisedSince, ClosedTrade.since, h]
  · simp [realisedSince, ClosedTrade.since, h]

/-! ## The query -/

/-- `ORDER BY exit_time DESC`, with the order of equal times left to the database. -/
structure NewestFirst where
  order : List ClosedTrade → List ClosedTrade
  perm : ∀ rows, (order rows).Perm rows
  sorted : ∀ rows, (order rows).Pairwise fun a b => b.exitTime ≤ a.exitTime

/-- `limit` of the query of the check. -/
def recentTradesLimit : Nat := 50

/-- `get_recent_trades(limit=50)` on the closed rows of the table: a failed query is empty. -/
def getRecentTrades (db : NewestFirst) (answered : Bool) (rows : List ClosedTrade) :
    List ClosedTrade :=
  if answered then (db.order rows).take recentTradesLimit else []

/-- A row as the check parses it. -/
def ClosedTrade.recent (t : ClosedTrade) : RecentTrade where
  exitTime := some t.exitTime
  realizedPnl := t.realizedPnl

/-- The loop adds up the results since a moment, if each of them is there. -/
theorem foldlM_addRecent (start pnl : ℚ) (trades : List ClosedTrade) :
    (trades.map ClosedTrade.recent).foldlM (addRecent start) pnl = none ∧
        ¬ ResultsKnown start trades ∨
      (trades.map ClosedTrade.recent).foldlM (addRecent start) pnl =
          some (pnl + realisedSince start trades) ∧ ResultsKnown start trades := by
  induction trades generalizing pnl with
  | nil => exact Or.inr ⟨by simp, fun t ht => absurd ht List.not_mem_nil⟩
  | cons t rest ih =>
      have hknown : ResultsKnown start (t :: rest) ↔
          (start ≤ t.exitTime → t.realizedPnl ≠ none) ∧ ResultsKnown start rest := by
        simp [ResultsKnown]
      rw [hknown, realisedSince_cons, List.map_cons, List.foldlM_cons]
      by_cases hsince : start ≤ t.exitTime
      · cases hpnl : t.realizedPnl with
        | none =>
            have hraises : addRecent start pnl t.recent = none := by
              simp [addRecent, ClosedTrade.recent, hsince, hpnl]
            rw [hraises]
            exact Or.inl ⟨rfl, by simp [hsince]⟩
        | some q =>
            have hadd : addRecent start pnl t.recent = some (pnl + q) := by
              simp [addRecent, ClosedTrade.recent, hsince, hpnl]
            rw [hadd]
            simpa [hsince, add_assoc] using ih (pnl + q)
      · have hskip : addRecent start pnl t.recent = some pnl := by
          simp [addRecent, ClosedTrade.recent, hsince]
        rw [hskip]
        simpa [hsince] using ih pnl

/-! ## Calls and what happens between them -/

/-- Settings of the check. -/
structure VelocitySettings where
  velocityThreshold : ℚ
  velocityPauseSeconds : ℤ
deriving Repr, DecidableEq

/-- The defaults. -/
def VelocitySettings.default : VelocitySettings where
  velocityThreshold := -(15 / 1000)
  velocityPauseSeconds := 7200

/-- What one call meets: whether the query answers, and the equity. -/
structure VelocityCall where
  queryAnswered : Bool
  equity : ℚ
  equity_pos : 0 < equity
deriving DecidableEq

/-- The closed rows, the clock and the stored pause.  `heldUntil` is the end of the pause that
is due since the last rejection for velocity, `misjudged` tells that a call has not decided by
the pause and the hour, `released` that one has passed although a pause was due. -/
structure VelocitySystem where
  clock : ℚ
  rows : List ClosedTrade
  pauseUntil : Option ℚ
  heldUntil : Option ℚ
  misjudged : Bool
  released : Bool
deriving Repr, DecidableEq

/-- With any history of closed trades and any stored pause. -/
def VelocitySystem.start (clock : ℚ) (rows : List ClosedTrade) (pauseUntil : Option ℚ) :
    VelocitySystem where
  clock := clock
  rows := rows
  pauseUntil := pauseUntil
  heldUntil := none
  misjudged := false
  released := false

/-- What happens next; a trade is recorded some time after it closed. -/
inductive VelocityInput where
  | advance (elapsed : ℚ≥0)
  | close (age : ℚ≥0) (realizedPnl : Option ℚ)
  | check (c : VelocityCall)

/-- Does a pause end after a moment? -/
def pauseHolds (now : ℚ) (pauseUntil : Option ℚ) : Bool :=
  pauseUntil.any fun until' => decide (now < until')

/-- A pause that holds later holds now. -/
theorem pauseHolds_of_le {now later : ℚ} {pauseUntil : Option ℚ} (h : now ≤ later)
    (hholds : pauseHolds later pauseUntil = true) : pauseHolds now pauseUntil = true := by
  cases pauseUntil with
  | none => exact hholds
  | some until' =>
      have hlater : later < until' := of_decide_eq_true hholds
      exact decide_eq_true (h.trans_lt hlater)

namespace VelocitySystem

variable (s : VelocitySystem)

/-- One hour ago. -/
def oneHourAgo : ℚ :=
  s.clock - 3600

/-- What a call reads with Redis and the wallet available. -/
def answers (db : NewestFirst) (c : VelocityCall) : VelocityAnswers where
  now := s.clock
  pauseUntil :=
    match s.pauseUntil with
    | none => .absent
    | some pauseUntil => .value pauseUntil
  pauseDeleted := true
  trades := some (some ((getRecentTrades db c.queryAnswered s.rows).map ClosedTrade.recent))
  wallet := some c.equity
  pauseWritten := true

/-- Is the result of the last hour of some trades below the threshold? -/
def lossOf (settings : VelocitySettings) (c : VelocityCall) (trades : List ClosedTrade) : Bool :=
  decide (realisedSince s.oneHourAgo trades / c.equity < settings.velocityThreshold)

end VelocitySystem

section Step

variable (db : NewestFirst) (settings : VelocitySettings)

/-- Does a call reject? -/
def VelocitySystem.rejects (s : VelocitySystem) (c : VelocityCall) : Bool :=
  decide (drawdownVelocity settings.velocityThreshold (some (s.answers db c)) = .failed)

/-- One step; a call that rejects outside a pause stores a new one. -/
def velocityStep (s : VelocitySystem) : VelocityInput → VelocitySystem
  | .advance elapsed => { s with clock := s.clock + elapsed }
  | .close age realizedPnl => { s with rows := s.rows ++ [⟨s.clock - age, realizedPnl⟩] }
  | .check c =>
      let paused := pauseHolds s.clock s.pauseUntil
      let rejected := s.rejects db settings c
      let next := some (s.clock + settings.velocityPauseSeconds)
      { s with
        pauseUntil := if paused then s.pauseUntil else if rejected then next else none
        heldUntil := if rejected && !paused then next else s.heldUntil
        misjudged := s.misjudged || rejected != (paused || s.lossOf settings c s.rows)
        released := s.released || (pauseHolds s.clock s.heldUntil && !rejected) }

/-- The pause that is due is the one stored. -/
def PauseKept (s : VelocitySystem) : Prop :=
  pauseHolds s.clock s.heldUntil = true → s.pauseUntil = s.heldUntil

/-- Every call so far has decided as it should. -/
def Judged (s : VelocitySystem) : Prop :=
  s.misjudged = false ∧ s.released = false

/-- Does a call get a result for every trade of the hour among the newest fifty? -/
def Legible (s : VelocitySystem) (c : VelocityCall) : Prop :=
  getRecentTrades db c.queryAnswered s.rows ≠ [] ∧
    ResultsKnown s.oneHourAgo (getRecentTrades db c.queryAnswered s.rows)

/-- Outside a pause a call lists no trade or one of the hour without a result only when the
hour's loss is within the threshold, and otherwise the trades behind the fiftieth do not
carry the hour's result over it. -/
def HourVisible (s : VelocitySystem) : VelocityInput → Prop
  | .check c =>
      pauseHolds s.clock s.pauseUntil = false →
        (¬ Legible db s c → s.lossOf settings c s.rows = false) ∧
          (Legible db s c →
            s.lossOf settings c s.rows =
              s.lossOf settings c (getRecentTrades db c.queryAnswered s.rows))
  | _ => True

variable {db settings}

/-- The loss check on what a call reads. -/
theorem velocityLoss_iff (s : VelocitySystem) (c : VelocityCall) :
    velocityLoss settings.velocityThreshold (s.answers db c) = some true ↔
      Legible db s c ∧
        s.lossOf settings c (getRecentTrades db c.queryAnswered s.rows) = true := by
  have hago : s.clock - 3600 = s.oneHourAgo := rfl
  rw [Legible]
  by_cases hempty : getRecentTrades db c.queryAnswered s.rows = []
  · simp [velocityLoss, VelocitySystem.answers, hempty]
  · rcases foldlM_addRecent s.oneHourAgo 0 (getRecentTrades db c.queryAnswered s.rows) with
      ⟨hnone, hunknown⟩ | ⟨hsum, hknown⟩
    · simp [velocityLoss, VelocitySystem.answers, hago, hempty, hnone, hunknown]
    · simp [velocityLoss, VelocitySystem.answers, hago, hempty, hsum, hknown, getWalletBalance,
        c.equity_pos, VelocitySystem.lossOf]

/-- A call rejects during a pause, or for a loss it can read. -/
theorem rejects_iff (s : VelocitySystem) (c : VelocityCall) :
    s.rejects db settings c = true ↔
      pauseHolds s.clock s.pauseUntil = true ∨
        Legible db s c ∧
          s.lossOf settings c (getRecentTrades db c.queryAnswered s.rows) = true := by
  rw [VelocitySystem.rejects, decide_eq_true_iff, ← velocityLoss_iff]
  cases hpause : s.pauseUntil with
  | none =>
      simp [drawdownVelocity, velocityBreaker, VelocitySystem.answers, pauseHolds, hpause]
  | some pauseUntil =>
      by_cases hholds : s.clock < pauseUntil
      · simp [drawdownVelocity, VelocitySystem.answers, pauseHolds, hpause, hholds]
      · simp [drawdownVelocity, velocityBreaker, VelocitySystem.answers, pauseHolds, hpause, hholds]

/-- Every step keeps the pause that is due. -/
theorem step_paused {s : VelocitySystem} (h : PauseKept s) (input : VelocityInput) :
    PauseKept (velocityStep db settings s input) := by
  cases input with
  | advance elapsed =>
      intro hholds
      exact h (pauseHolds_of_le (le_add_of_nonneg_right elapsed.2) hholds)
  | close age realizedPnl => exact h
  | check c =>
      simp only [PauseKept, velocityStep]
      cases hpaused : pauseHolds s.clock s.pauseUntil with
      | true => simpa [PauseKept] using h
      | false =>
          cases s.rejects db settings c with
          | true => exact fun _ => rfl
          | false =>
              intro hheld
              have hholds : pauseHolds s.clock s.pauseUntil = true := by
                rw [h hheld]
                exact hheld
              rw [hpaused] at hholds
              exact absurd hholds Bool.false_ne_true

/-- One step decides as it should exactly if the hour is visible to it. -/
theorem judged_step_iff {s : VelocitySystem} (hkept : PauseKept s) (hjudged : Judged s)
    (input : VelocityInput) :
    Judged (velocityStep db settings s input) ↔ HourVisible db settings s input := by
  rcases hjudged with ⟨hmisjudged, hreleased⟩
  cases input with
  | advance elapsed => exact iff_of_true ⟨hmisjudged, hreleased⟩ trivial
  | close age realizedPnl => exact iff_of_true ⟨hmisjudged, hreleased⟩ trivial
  | check c =>
      have hrejects := @rejects_iff db settings s c
      have hheld : pauseHolds s.clock s.heldUntil = true →
          pauseHolds s.clock s.pauseUntil = true := by
        intro hholds
        rw [hkept hholds]
        exact hholds
      simp only [Judged, velocityStep, hmisjudged, hreleased, Bool.false_or, HourVisible]
      cases hpaused : pauseHolds s.clock s.pauseUntil with
      | true => simp [hrejects.mpr (Or.inl hpaused)]
      | false =>
          have hdue : pauseHolds s.clock s.heldUntil = false :=
            Bool.eq_false_iff.mpr fun hholds => by simp [hheld hholds] at hpaused
          by_cases hlegible : Legible db s c
          · have hlisted : s.rejects db settings c =
                s.lossOf settings c (getRecentTrades db c.queryAnswered s.rows) := by
              rw [Bool.eq_iff_iff, hrejects]
              simp [hpaused, hlegible]
            have heq : ∀ a b : Bool, (a != b) = false ↔ b = a := by decide
            simp [hdue, hlegible, hlisted, heq]
          · have hpasses : s.rejects db settings c = false :=
              Bool.eq_false_iff.mpr fun hr => by simpa [hpaused, hlegible] using hrejects.mp hr
            simp [hdue, hlegible, hpasses]

end Step

/-- A run decides every call by the pause and the result of all trades of the hour exactly
when the hour is visible to every call. -/
theorem velocity_run_iff (db : NewestFirst) (settings : VelocitySettings) (clock : ℚ)
    (rows : List ClosedTrade) (pauseUntil : Option ℚ) (inputs : List VelocityInput) :
    (∀ n, Judged (run (velocityStep db settings) (.start clock rows pauseUntil)
        (inputs.take n))) ↔
      Admits (velocityStep db settings) (HourVisible db settings)
        (.start clock rows pauseUntil) inputs := by
  have hstart : PauseKept (.start clock rows pauseUntil) :=
    fun h => absurd h Bool.false_ne_true
  have hkept : ∀ n, PauseKept (run (velocityStep db settings) (.start clock rows pauseUntil)
      (inputs.take n)) :=
    stateAt_invariant hstart fun _ input h => step_paused h input
  have hadmits := @invariant_iff_admits _ _ (velocityStep db settings)
    (HourVisible db settings) (fun s => PauseKept s ∧ Judged s)
    (fun s input hs => by
      rw [and_iff_right (step_paused hs.1 input)]
      exact judged_step_iff hs.1 hs.2 input)
    (.start clock rows pauseUntil) inputs ⟨hstart, rfl, rfl⟩
  rw [← hadmits]
  exact forall_congr' fun n => (and_iff_right (hkept n)).symm

/-- A loss of a tenth of the equity passes beside a trade of the same hour whose result is
missing. -/
theorem missing_result_passes :
    ¬ ∀ (db : NewestFirst) (settings : VelocitySettings) (clock : ℚ) (rows : List ClosedTrade)
      (pauseUntil : Option ℚ) (inputs : List VelocityInput) (n : Nat),
      Judged (run (velocityStep db settings) (.start clock rows pauseUntil)
        (inputs.take n)) := by
  intro h
  have hjudged := h
    ⟨fun rows => rows.insertionSort fun a b => b.exitTime ≤ a.exitTime,
      fun rows => rows.perm_insertionSort _, fun rows => rows.pairwise_insertionSort _⟩
    .default 7200 [] none
    [.close 60 (some (-10)), .close 30 none, .check ⟨true, 100, by decide +kernel⟩] 3
  exact absurd hjudged.1 (by decide +kernel)

end Risk
end Karsa
