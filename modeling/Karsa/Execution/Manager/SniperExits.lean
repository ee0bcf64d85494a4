import Karsa.Alpha.Answers
import Karsa.Alpha.RsiAgreement
import Karsa.Execution.Bybit.Requests
import Karsa.Execution.Manager.ScaleSchedule

/-!
# Active position manager - Exhaustion exits of SNIPER positions

A SNIPER position in profit is to be force-closed when the relative strength index of its
one-minute closes is extreme.  The check looks for a return code in the reply of
`BybitClient._execute`, which hands on the unwrapped result, and its caller passes one argument
too many to the force close.  `start_monitoring` manages all positions inside one `try` block, so
that an exception of one position, such as that of a blank average true range, ends the pass.

Main results:

- Theorem `momentumExhausted_result`: the check never fires.
- Theorem `Managed.flow_state`: what a pass does to a position is its cycle.
- Theorem `Managed.raises_iff`: when the management of a position raises.
- Theorem `passWorks_iff`: which passes have working exits and local failures.
-/

namespace Karsa
namespace Manager

open Alpha (floatOf asciiTables)
open Rsi (exhaustionRsi wilderRsi)

/-! ## The check of the one-minute closes -/

/-- `current_rsi > 80.0` for a long, `current_rsi < 20.0` for a short. -/
def extremeIndex (side : Side) (index : ℚ) : Bool :=
  match side with
  | .LONG => decide (80 < index)
  | .SHORT => decide (index < 20)

section Check

variable (u : UnicodeTables)

/-- `float(k[4])` of a row, where it is a finite number. -/
def closeOf (row : Json) : Option ℚ :=
  match row with
  | .list fields =>
      match (fields[4]?).map (floatOf u) with
      | some (.ok (.finite x)) => some x
      | _ => none
  | _ => none

/-- What the check makes of the rows, which come with the newest first. -/
def exhaustedRows (side : Side) (rows : List Json) : Bool :=
  if 14 ≤ rows.length then
    match rows.reverse.mapM (closeOf u) with
    | some closes => extremeIndex side (exhaustionRsi closes)
    | none => false
  else false

/-- `_check_momentum_exhaustion`: `raw.get("retCode") == 0 and raw.get("result")`, then the rows
under `list`.  Whatever raises is caught. -/
def momentumExhausted (side : Side) (reply : Except Text Json) : Bool :=
  match reply with
  | .ok (.dict raw) =>
      match Dict.get "retCode".toList raw, Dict.get "result".toList raw with
      | some (.int 0), some (.dict result) =>
          match Dict.get "list".toList result with
          | some (.list rows) => exhaustedRows u side rows
          | _ => false
      | _, _ => false
  | _ => false

/-- One-minute candles as `get_kline` returns them: rows with the newest first, at least fifteen,
each with a close. -/
structure OneMinuteKlines where
  symbol : Text
  rows : List Json
  closes : List ℚ
  long : 15 ≤ rows.length
  read : rows.reverse.mapM (closeOf u) = some closes

variable {u}

/-- The member `result` of the exchange's reply. -/
def OneMinuteKlines.result (k : OneMinuteKlines u) : Json :=
  .dict [("symbol".toList, .str k.symbol), ("category".toList, .str "linear".toList),
    ("list".toList, .list k.rows)]

/-- The whole reply, before it is unwrapped. -/
def OneMinuteKlines.reply (k : OneMinuteKlines u) : Json :=
  .dict [("retCode".toList, .int 0), ("result".toList, k.result)]

/-- The unwrapped result has no return code, so that the check never fires. -/
theorem momentumExhausted_result (k : OneMinuteKlines u) (side : Side) :
    momentumExhausted u side (.ok k.result) = false :=
  rfl

/-- On the whole reply it would compare the index that it computes. -/
theorem momentumExhausted_reply (k : OneMinuteKlines u) (side : Side) :
    momentumExhausted u side (.ok k.reply) = extremeIndex side (exhaustionRsi k.closes) := by
  have hrows : momentumExhausted u side (.ok k.reply) = exhaustedRows u side k.rows := rfl
  have hlong : 14 ≤ k.rows.length := (by omega : 14 ≤ 15).trans k.long
  rw [hrows, exhaustedRows, if_pos hlong, k.read]

end Check

/-! ## One pass of the monitoring loop -/

/-- A position of a pass, with everything that its cycle meets.  The one-minute candles come
through the retry loop of the client; `readable` tells whether the conversions of its prices, its
risk and its holding time succeed behind the reconcile step. -/
structure Managed (u : UnicodeTables) where
  state : ManagerState
  answers : CycleAnswers
  readable : Bool
  attempts : ℕ → Bybit.Attempt Json
  connected : Bool
  klines : OneMinuteKlines u
  answered : (Bybit.execute attempts connected).outcome = .ok klines.result

namespace Managed

variable {u : UnicodeTables}

/-- The answers of the cycle, with the candles that the check asks for. -/
def cycleAnswers (m : Managed u) : CycleAnswers :=
  { m.answers with
    klines := some ⟨m.klines.closes⟩
    rsiExtreme := extremeIndex m.state.pos.side (exhaustionRsi m.klines.closes) }

/-- The state in which the rules of its cycle start. -/
def start (m : Managed u) : ManagerState :=
  rulesStart m.cycleAnswers m.state

/-- The local variables of its cycle. -/
def snap (m : Managed u) : Snapshot :=
  snapshot m.start.pos

/-- `_manage_single_position`, with the exceptions that escape from it. -/
def flow (m : Managed u) : Flow ManagerState :=
  if inCooldown m.cycleAnswers m.state.pos then .ret m.state
  else if !m.readable then .raise (reconcilePosition m.cycleAnswers.reconcile m.state)
  else if m.start.pos.entryPrice ≤ 0 then .ret m.start
  else if m.start.pos.initialRiskPerUnit ≤ 0 then .ret m.start
  else runRules m.cycleAnswers m.snap m.start

/-- Its cycle computes an R-multiple. -/
def ComputesR (m : Managed u) : Prop :=
  m.readable = true ∧ reachesRules m.cycleAnswers m.state = true

/-- A SNIPER position with an R-multiple above a fifth. -/
def SniperInProfit (m : Managed u) : Prop :=
  m.ComputesR ∧ m.snap.entryRegime = "SNIPER".toList ∧ 1 / 5 < m.snap.rMult

/-- Wilder's index of its closes is extreme. -/
def Exhausted (m : Managed u) : Prop :=
  extremeIndex m.state.pos.side (wilderRsi m.klines.closes) = true

end Managed

/-- Is the position closed, or its record removed? -/
def ApmEvent.closes : ApmEvent → Bool
  | .marketSent _ _ accepted => accepted
  | .removed => true
  | .stopSent _ _ | .stopRead _ | .takeProfitSent _ _ | .reduceSent _ _ _ | .limitSent _ _ _
  | .cancelSent _ _ | .written _ => false

section Pass

variable {u : UnicodeTables}

/-- The pass over the positions comes to one of them. -/
def Served (positions : List (Managed u)) (n : ℕ) : Prop :=
  Flow.Reached Managed.flow positions n

/-- Its cycle comes to the exhaustion check, and what that does closes the position. -/
def Managed.ForceClosed (m : Managed u) : Prop :=
  ∃ s, (Flow.blocks ((cycleOrder.takeWhile (· ≠ .sniperExhaustion)).map
      (CycleRule.block m.cycleAnswers m.snap)) m.start).next? = some s ∧
    ∃ e ∈ s.sentSince (CycleRule.sniperExhaustion.block m.cycleAnswers m.snap s).state,
      e.closes = true

/-- A SNIPER position in profit is force-closed exactly where its closes are exhausted. -/
def ExitsWork (positions : List (Managed u)) : Prop :=
  ∀ n m, positions[n]? = some m → m.SniperInProfit →
    (Served positions n ∧ m.ForceClosed ↔ m.Exhausted)

/-- Beside a position whose management raises, all others are managed. -/
def FailuresLocal (positions : List (Managed u)) : Prop :=
  ∀ k n m, k ≠ n → positions[k]? = some m → m.flow.Raises → n < positions.length →
    Served positions n

end Pass

/-! ## What raises -/

/-- Does the rule convert the average true range of the record? -/
def readsAtr (snap : Snapshot) : CycleRule → Bool
  | .moonTrailing => decide (snap.trancheState = .MOON_BAG_ACTIVE)
  | .breakevenTrigger => true
  | .trendTrailing => snap.isTrend && decide (3 / 2 ≤ snap.rMult)
  | .wickGuard | .trackPeak | .ensureTakeProfit | .scaleOutAndLock | .sniperExhaustion
  | .cvdOrTrendTiers | .moonBagExit | .trailingLimit | .halfBreakeven | .profitProtect | .timeExit
  | .regimeShift | .persist => false

/-- The management of a position fails: a conversion raises behind the retry gate, or the average
true range is blank and no rule ends the cycle before the first one that converts it. -/
def Managed.Fails {u : UnicodeTables} (m : Managed u) : Prop :=
  inCooldown m.cycleAnswers m.state.pos = false ∧
    (m.readable = false ∨
      m.ComputesR ∧ m.start.pos.strictAtr = none ∧
        (Flow.blocks ((cycleOrder.takeWhile fun rule => !readsAtr m.snap rule).map
          (CycleRule.block m.cycleAnswers m.snap)) m.start).next?.isSome = true)

section Rules

variable (a : CycleAnswers) (snap : Snapshot) {s : ManagerState}

theorem moonTrailing_raises_iff (accepted : Bool) (s : ManagerState) :
    (moonTrailing snap accepted s).Raises ↔
      snap.trancheState = .MOON_BAG_ACTIVE ∧ s.pos.strictAtr = none := by
  unfold moonTrailing
  by_cases hactive : snap.trancheState = .MOON_BAG_ACTIVE
  · rw [if_pos hactive]
    cases hatr : s.pos.strictAtr with
    | none => simp [Flow.Raises, hactive]
    | some atr =>
        dsimp only
        split_ifs <;> simp [Flow.Raises]
  · simp [hactive, Flow.Raises]

theorem breakevenTrigger_raises_iff (b : BreakevenAnswers) (s : ManagerState) :
    (breakevenTrigger b snap s).Raises ↔ s.pos.strictAtr = none := by
  unfold breakevenTrigger
  cases htriggered : breakevenTriggered snap s.pos with
  | none => simpa [Flow.Raises, breakevenTriggered] using htriggered
  | some triggered =>
      have hatr : s.pos.strictAtr ≠ none := by
        intro hnone
        rw [breakevenTriggered, hnone] at htriggered
        cases htriggered
      dsimp only
      split_ifs <;> simp [Flow.Raises, hatr]

theorem manageTrendTrailingStop_raises_iff (accepted : Bool) (s : ManagerState) :
    (manageTrendTrailingStop snap accepted s).Raises ↔
      (snap.isTrend = true ∧ 3 / 2 ≤ snap.rMult) ∧ s.pos.strictAtr = none := by
  unfold manageTrendTrailingStop Snapshot.isTrend
  by_cases hdue : Text.contains snap.entryRegime "TREND".toList = true ∧ 3 / 2 ≤ snap.rMult
  · rw [if_pos hdue]
    cases hatr : s.pos.strictAtr with
    | none => simp only [Flow.Raises, hdue, true_and]
    | some atr =>
        dsimp only
        split_ifs <;> simp [Flow.Raises]
  · rw [if_neg hdue]
    simp only [Flow.Raises, hdue, false_and]

/-- Only a blank average true range makes a rule raise. -/
theorem CycleRule.raises_iff (rule : CycleRule) (s : ManagerState) :
    (rule.block a snap s).Raises ↔ readsAtr snap rule = true ∧ s.pos.strictAtr = none := by
  have hquiet : readsAtr snap rule = false → ¬ (rule.block a snap s).Raises →
      ((rule.block a snap s).Raises ↔ readsAtr snap rule = true ∧ s.pos.strictAtr = none) := by
    intro hreads hraises
    rw [hreads]
    simp [hraises]
  cases rule with
  | wickGuard =>
      refine hquiet rfl ?_
      unfold CycleRule.block Manager.wickGuard
      dsimp only
      split_ifs <;> exact id
  | trackPeak =>
      refine hquiet rfl ?_
      unfold CycleRule.block Manager.trackPeak
      dsimp only
      split_ifs <;> exact id
  | ensureTakeProfit =>
      refine hquiet rfl ?_
      unfold CycleRule.block Manager.ensureTakeProfit
      dsimp only
      split_ifs <;> exact id
  | sniperExhaustion =>
      refine hquiet rfl ?_
      rw [CycleRule.block, sniperExhaustion_next]
      exact id
  | scaleOutAndLock | cvdOrTrendTiers | halfBreakeven | profitProtect | persist =>
      exact hquiet rfl id
  | moonBagExit =>
      refine hquiet rfl ?_
      rw [CycleRule.block]
      rcases moonBagExit_outcome a.reduce a.moonStop snap s with
        ⟨-, hflow⟩ | ⟨-, -, hflow⟩ | ⟨-, -, -, hflow⟩ | ⟨rest, -, -, -, -, hflow⟩ |
        ⟨rest, -, -, -, -, hflow⟩
      all_goals
        rw [hflow]
        exact id
  | moonTrailing =>
      rw [CycleRule.block, moonTrailing_raises_iff, readsAtr, decide_eq_true_iff]
  | trailingLimit =>
      refine hquiet rfl ?_
      unfold CycleRule.block Manager.trailingLimit
      dsimp only
      split_ifs <;> exact id
  | breakevenTrigger =>
      rw [CycleRule.block, breakevenTrigger_raises_iff, readsAtr]
      simp
  | trendTrailing =>
      rw [CycleRule.block, manageTrendTrailingStop_raises_iff, readsAtr, Bool.and_eq_true,
        decide_eq_true_iff]
  | timeExit =>
      refine hquiet rfl ?_
      unfold CycleRule.block manageTimeExit
      cases snap.entryTime with
      | none => exact id
      | some entryTime =>
          dsimp only
          cases (timeExitReason a.exitClock snap entryTime s.pos).1 <;> exact id
  | regimeShift =>
      refine hquiet rfl ?_
      unfold CycleRule.block checkRegimeShift
      split_ifs
      · exact id
      · cases a.currentRegime with
        | error message => exact id
        | ok current =>
            dsimp only
            split_ifs <;> exact id

/-- The rules leave the average true range alone. -/
theorem CycleRule.strictAtr_eq (rule : CycleRule) (s : ManagerState) :
    (rule.block a snap s).state.pos.strictAtr = s.pos.strictAtr := by
  have hcarries : Carries (fun v => v.atr = s.pos.atr) (fun _ => True) s :=
    ⟨rfl, fun _ _ => trivial⟩
  have hatr := (hcarries.anyRule (fun _ _ => trivial) (fun _ _ hv => hv) a snap rule).pos
  exact congrArg (fun atr => (atr.getD (.value 0)).decimal) hatr

/-- A rule that falls through leaves it alone, too. -/
theorem CycleRule.strictAtr_of_next {rule : CycleRule} {s' : ManagerState}
    (hnext : rule.block a snap s = .next s') : s'.pos.strictAtr = s.pos.strictAtr := by
  have hkept := rule.strictAtr_eq a snap s
  rw [hnext] at hkept
  exact hkept

/-- The rules of a cycle raise exactly where the average true range is blank and they come to one
that converts it. -/
theorem runRules_raises_iff (s : ManagerState) :
    (runRules a snap s).Raises ↔ s.pos.strictAtr = none ∧
      (Flow.blocks ((cycleOrder.takeWhile fun rule => !readsAtr snap rule).map
        (CycleRule.block a snap)) s).next?.isSome = true := by
  have hkeep : ∀ atr (rule : CycleRule) (s s' : ManagerState), s.pos.strictAtr = atr →
      rule.block a snap s = .next s' → s'.pos.strictAtr = atr :=
    fun _ rule s s' hs hnext => (rule.strictAtr_of_next a snap hnext).trans hs
  by_cases hatr : s.pos.strictAtr = none
  · have hstep : ∀ (rule : CycleRule) (s : ManagerState), s.pos.strictAtr = none →
        ((rule.block a snap s).Raises ↔ readsAtr snap rule = true) := by
      intro rule s hs
      rw [rule.raises_iff, and_iff_left hs]
    have htrigger : ∃ rule ∈ cycleOrder, readsAtr snap rule = true :=
      ⟨.breakevenTrigger, by decide, rfl⟩
    rw [runRules, Flow.raises_blocks_iff (hkeep none) hstep cycleOrder hatr,
      and_iff_right htrigger, and_iff_right hatr]
  · -- none of the rules is of the kind that raises
    have hstep : ∀ (rule : CycleRule) (s' : ManagerState), s'.pos.strictAtr = s.pos.strictAtr →
        ((rule.block a snap s').Raises ↔ (fun _ => false) rule = true) := by
      intro rule s' hs'
      rw [rule.raises_iff, hs']
      simp [hatr]
    rw [runRules, Flow.raises_blocks_iff (hkeep s.pos.strictAtr) hstep cycleOrder rfl]
    simp [hatr]

end Rules

section Pass

variable {u : UnicodeTables}

/-- Where its prices are readable, the flow of a position is its cycle. -/
theorem Managed.flow_state {m : Managed u} (hreadable : m.readable = true) :
    m.flow.state = manageSinglePosition m.cycleAnswers m.state := by
  unfold flow manageSinglePosition
  rw [hreadable, Bool.not_true, if_neg Bool.false_ne_true]
  simp only [apply_ite Flow.state, Flow.state_ret]
  rfl

/-- The management of a position raises exactly where it fails. -/
theorem Managed.raises_iff (m : Managed u) : m.flow.Raises ↔ m.Fails := by
  unfold flow Fails ComputesR reachesRules
  cases hcooldown : inCooldown m.cycleAnswers m.state.pos with
  | true => simp [Flow.Raises]
  | false =>
      cases hreadable : m.readable with
      | false => simp [Flow.Raises]
      | true =>
          have hstart : rulesStart m.cycleAnswers m.state = m.start := rfl
          rw [hstart]
          by_cases hentry : m.start.pos.entryPrice ≤ 0
          · simp [Flow.Raises, hentry, not_lt.mpr hentry]
          · by_cases hrisk : m.start.pos.initialRiskPerUnit ≤ 0
            · simp [Flow.Raises, hentry, hrisk, not_lt.mpr hrisk]
            · simp [hentry, hrisk, not_le.mp hentry, not_le.mp hrisk, runRules_raises_iff]

/-- The exhaustion rule with the check of what the client hands on. -/
theorem Managed.sniperExhaustion_eq (m : Managed u) (s : ManagerState) :
    CycleRule.sniperExhaustion.block m.cycleAnswers m.snap s =
      if m.snap.entryRegime = "SNIPER".toList ∧ 1 / 5 < m.snap.rMult ∧
          momentumExhausted u m.state.pos.side (Bybit.execute m.attempts m.connected).outcome then
        .raise s
      else .next s := by
  have hcheck : checkMomentumExhaustion m.cycleAnswers.klines m.cycleAnswers.rsiExtreme = false :=
    rfl
  rw [CycleRule.block, sniperExhaustion, m.answered, momentumExhausted_result, hcheck]

/-- The exhaustion exit closes nothing. -/
theorem Managed.not_forceClosed (m : Managed u) : ¬ m.ForceClosed := by
  rintro ⟨s, -, e, hmem, -⟩
  rw [m.sniperExhaustion_eq, m.answered, momentumExhausted_result,
    if_neg fun hdue => Bool.false_ne_true hdue.2.2, Flow.state_next, ManagerState.sentSince,
    List.drop_length] at hmem
  cases hmem

/-- No SNIPER position in profit has exhausted closes, and none but the last position fails. -/
structure PassMeets (positions : List (Managed u)) : Prop where
  neutral : ∀ m ∈ positions, m.SniperInProfit → ¬ m.Exhausted
  sound : ∀ m ∈ positions.dropLast, ¬ m.Fails

/-- Exits work where none of them is due. -/
theorem exitsWork_iff (positions : List (Managed u)) :
    ExitsWork positions ↔ ∀ m ∈ positions, m.SniperInProfit → ¬ m.Exhausted := by
  constructor
  · intro h m hm hprofit hexhausted
    rcases List.getElem?_of_mem hm with ⟨n, hn⟩
    exact m.not_forceClosed ((h n m hn hprofit).2 hexhausted).2
  · intro h n m hn hprofit
    have hneutral := h m (List.mem_of_getElem? hn) hprofit
    exact ⟨fun hclosed => (m.not_forceClosed hclosed.2).elim, fun hdue => (hneutral hdue).elim⟩

/-- Failures stay local where only the last position may fail. -/
theorem failuresLocal_iff (positions : List (Managed u)) :
    FailuresLocal positions ↔ ∀ m ∈ positions.dropLast, ¬ m.Fails := by
  have hraises : (∀ m ∈ positions.dropLast, ¬ m.flow.Raises) ↔
      ∀ m ∈ positions.dropLast, ¬ m.Fails := by
    simp only [Managed.raises_iff]
  exact Flow.each_reached_iff.trans hraises

/-- The exits of a pass work and its failures stay local exactly under the condition. -/
theorem passWorks_iff (positions : List (Managed u)) :
    ExitsWork positions ∧ FailuresLocal positions ↔ PassMeets positions := by
  rw [exitsWork_iff, failuresLocal_iff]
  exact ⟨fun h => ⟨h.1, h.2⟩, fun h => ⟨h.neutral, h.sound⟩⟩

end Pass

/-! ## A pass that fails -/

/-- Fifteen rows with rising closes, the newest first. -/
def risingRows : List Json :=
  (List.range 15).map fun n =>
    .list (["0", "0", "0", "0", Nat.repr (114 - n), "0", "0"].map fun text => .str text.toList)

/-- Their closes. -/
def risingCloses : List ℚ :=
  (List.range 15).map fun n => 100 + n

theorem length_risingRows : risingRows.length = 15 := rfl

theorem risingRows_read : risingRows.reverse.mapM (closeOf asciiTables) = some risingCloses := by
  decide +kernel

/-- One-minute candles of a coin without a loss. -/
def risingKlines (base : Text) : OneMinuteKlines asciiTables where
  symbol := base ++ "USDT".toList
  rows := risingRows
  closes := risingCloses
  long := length_risingRows.ge
  read := risingRows_read

/-- A SNIPER long of one coin, entered at 100 with a risk of 2 and without an average true range,
whose price is 102. -/
def sniperLong (base : Text) : Managed asciiTables where
  state := startCycle (some 102)
    (.opened (base ++ "/USDT".toList) .LONG 100 1 none none (some "SNIPER".toList) 2 0)
    (.ofRecord (.opened (base ++ "/USDT".toList) .LONG 100 1 none none (some "SNIPER".toList) 2 0))
  answers := acceptingAnswers (holdingReport .Buy 98)
  readable := true
  attempts := fun _ => ⟨true, .ok (risingKlines base).result, fun _ => rfl⟩
  connected := true
  klines := risingKlines base
  answered := rfl

/-- Two of them. -/
def sniperLongs : List (Managed asciiTables) :=
  [sniperLong "BTC".toList, sniperLong "ETH".toList]

/-- Neither is the first one closed, nor does the pass come to the position behind it. -/
theorem sniperLongs_fail : ¬ ExitsWork sniperLongs ∧ ¬ FailuresLocal sniperLongs := by
  have hprofit : (sniperLong "BTC".toList).SniperInProfit := by
    refine ⟨⟨rfl, ?_⟩, ?_, ?_⟩ <;> decide +kernel
  have hexhausted : (sniperLong "BTC".toList).Exhausted := by
    unfold Managed.Exhausted
    decide +kernel
  have hfails : (sniperLong "BTC".toList).Fails := by
    refine ⟨?_, Or.inr ⟨hprofit.1, ?_, ?_⟩⟩ <;> decide +kernel
  rw [exitsWork_iff, failuresLocal_iff]
  exact ⟨fun h => h _ List.mem_cons_self hprofit hexhausted,
    fun h => h _ List.mem_cons_self hfails⟩

end Manager
end Karsa
