import Karsa.Execution.Shadow.Monitor
import Karsa.Foundations.Accrual
import Mathlib.Data.NNRat.Defs

/-!
# Shadow trading - Funding fees

Every eight hours a position pays the funding rate on its notional, or gets it when it is short.
The monitor keeps the time of the last payment in the record and makes the next one in the first
check that comes to its funding eight hours later, at the rate it then finds.

Main results:

- Theorem `check_funding`: what one check does to the clock and the fees.
- Theorem `fundingRight_iff`: which runs pay every interval exactly once.
-/

namespace Karsa
namespace Shadow

/-! ## One check -/

/-- What a position pays for one interval; a short gets it. -/
def fundingFee (pos : ShadowRecord) (rate : ℚ) : ℚ :=
  match pos.side with
  | .LONG => pos.entryPrice * pos.amount * rate
  | .SHORT => -(pos.entryPrice * pos.amount * rate)

/-- The part of a record that the funding is about. -/
def fundingPart (record : ShadowRecord) : Option ℚ × ℚ :=
  (record.lastFundingTs, record.totalFundingFees)

/-- Eight hours have passed since the last payment, and the rate is positive. -/
def chargeDue (a : CheckAnswers) (record : ShadowRecord) : Bool :=
  match record.lastFundingTs with
  | none => false
  | some last => decide (8 * 3600 ≤ a.fundingClock - last) && decide (0 < a.fundingRate)

/-- The next check comes to its funding, and a fee is due. -/
def charges (settings : ShadowSettings) (s : MonitorState) (a : CheckAnswers) : Bool :=
  match s.stored with
  | none => false
  | some record =>
      match priceAt a record with
      | none => false
      | some mid =>
          (comesTo settings a mid .funding (startCheck record s)).isSome && chargeDue a record

/-- The fee follows from what the entry wrote. -/
theorem fundingFee_of_entry {pos pos' : ShadowRecord} (h : pos.entryPart = pos'.entryPart)
    (rate : ℚ) : fundingFee pos rate = fundingFee pos' rate := by
  have hsame : fundingFee pos.entryPart rate = fundingFee pos'.entryPart rate := by rw [h]
  exact hsame

/-- Only the funding touches it. -/
theorem spares_fundingPart {r : CheckRule} (hr : r ≠ .funding) : r.Spares fundingPart := by
  cases r with
  | funding => exact absurd rfl hr
  | wickGuard | breakevenLock | stepTrailing | trendTrailing | lossCap => exact fun _ _ => rfl
  | regimeKillSwitch | timeExit | persist | staleCleanup | slHit | tpHit => trivial

/-- The funding of a check, with or without a fee. -/
theorem applyFundingIfDue_viewed (a : CheckAnswers) {s : MonitorState} {part : Option ℚ × ℚ}
    (h : Viewed fundingPart (· = part) (· = part) s) {charged : Bool}
    (hcharged : chargeDue a s.pos = charged) :
    Viewed fundingPart
      (fun p => p.2 = part.2 + if charged then fundingFee s.pos a.fundingRate else 0)
      (· = (if charged then some a.fundingClock else part.1,
        part.2 + if charged then fundingFee s.pos a.fundingRate else 0))
      (applyFundingIfDue a s) := by
  have hpart : (s.pos.lastFundingTs, s.pos.totalFundingFees) = part := h.pos
  have hlast : s.pos.lastFundingTs = part.1 := congrArg Prod.fst hpart
  have htotal : s.pos.totalFundingFees = part.2 := congrArg Prod.snd hpart
  unfold chargeDue at hcharged
  unfold applyFundingIfDue
  cases hclock : s.pos.lastFundingTs with
  | none =>
      rw [hclock] at hcharged
      obtain rfl := hcharged
      simp only [Bool.false_eq_true, if_false, add_zero]
      exact ⟨htotal, h.stored⟩
  | some last =>
      rw [hclock] at hcharged
      dsimp only at hcharged ⊢
      by_cases hearly : a.fundingClock - last < 8 * 3600
      · rw [decide_eq_false (not_le.mpr hearly), Bool.false_and] at hcharged
        subst hcharged
        simp only [hearly, Bool.false_eq_true, if_true, if_false, add_zero]
        exact ⟨htotal, h.stored⟩
      by_cases hrate : a.fundingRate ≤ 0
      · -- the time is noted in memory only
        rw [decide_eq_false (not_lt.mpr hrate), Bool.and_false] at hcharged
        subst hcharged
        simp only [hearly, hrate, Bool.false_eq_true, if_true, if_false, add_zero]
        exact ⟨htotal, h.stored⟩
      · rw [decide_eq_true (not_lt.mp hearly), decide_eq_true (not_le.mp hrate)] at hcharged
        subst hcharged
        have hfee : fundingFee s.pos a.fundingRate = (match s.pos.side with
            | .LONG => s.pos.entryPrice * s.pos.amount * a.fundingRate
            | .SHORT => s.pos.entryPrice * s.pos.amount * a.fundingRate * -1) := by
          unfold fundingFee
          cases s.pos.side with
          | LONG => rfl
          | SHORT => exact (mul_neg_one _).symm
        simp only [hearly, hrate, Bool.and_self, if_true, if_false]
        rw [hfee, ← htotal]
        refine ⟨rfl, fun record hrecord => ?_⟩
        obtain rfl := Option.some.inj hrecord
        rfl

/-- One check charges at most one fee and, if so, sets the clock. -/
theorem check_funding {settings : ShadowSettings} {a : CheckAnswers} {s : MonitorState}
    {record : ShadowRecord} (hstored : s.stored = some record)
    (hstatus : record.status.getD "OPEN".toList ≠ "PENDING_VIRTUAL_FILL".toList) :
    Viewed fundingPart
      (fun p => p.2 = record.totalFundingFees +
        if charges settings s a then fundingFee record a.fundingRate else 0)
      (· = (if charges settings s a then some a.fundingClock else record.lastFundingTs,
        record.totalFundingFees +
          if charges settings s a then fundingFee record a.fundingRate else 0))
      (check settings s a) := by
  have hstart : Viewed fundingPart (· = fundingPart record) (· = fundingPart record)
      (startCheck record s) := by
    refine ⟨rfl, fun other hother => ?_⟩
    obtain rfl := Option.some.inj (hstored.symm.trans hother)
    rfl
  cases hprice : priceAt a record with
  | none =>
      have hnot : charges settings s a = false := by simp only [charges, hstored, hprice]
      rw [check_of_priceAt_eq_none hstored hstatus hprice, hnot]
      simp only [Bool.false_eq_true, if_false, add_zero]
      exact ⟨rfl, hstart.stored⟩
  | some mid =>
      have hobserved : Viewed fundingPart (· = fundingPart record) (· = fundingPart record)
          (observe mid (startCheck record s)) := by
        refine ⟨rfl, fun other hother => ?_⟩
        rcases Option.map_eq_some_iff.mp hother with ⟨old, hold, rfl⟩
        have hpeak : fundingPart (updatePeak mid old) = fundingPart old := by
          unfold updatePeak
          dsimp only
          split_ifs <;> rfl
        exact hpeak.trans (hstart.stored old hold)
      have hspares : ∀ r ∈ checkOrder.takeWhile (· ≠ .funding), r.Spares fundingPart := by
        intro r hr
        exact spares_fundingPart (ne_of_before hr)
      rw [check_of_priceAt hstored hprice]
      cases hcomes : comesTo settings a mid .funding (startCheck record s) with
      | none =>
          have hnot : charges settings s a = false := by
            simp only [charges, hstored, hprice, hcomes, Option.isSome_none, Bool.false_and]
          have hfront := Viewed.blocks settings a (locals record mid) hspares
            (fun _ _ _ _ h => h) _ hobserved
          rw [runChecks_of_comesTo_eq_none hcomes, hnot]
          simp only [Bool.false_eq_true, if_false, add_zero]
          have hend := hfront.state fun _ hs => hs
          exact ⟨congrArg Prod.snd hend.pos, hend.stored⟩
      | some s' =>
          have hcharged : charges settings s a = chargeDue a record := by
            simp only [charges, hstored, hprice, hcomes, Option.isSome_some, Bool.true_and]
          have hbefore := hobserved.comesTo hspares (fun _ _ _ _ h => h) hcomes
          have hentry := (comesTo_entry (startCheck_entry hstored) hcomes).pos
          have hsame : chargeDue a s'.pos = charges settings s a := by
            rw [hcharged, chargeDue, chargeDue]
            have hlast : s'.pos.lastFundingTs = record.lastFundingTs :=
              congrArg Prod.fst hbefore.pos
            rw [hlast]
          have hpaid := applyFundingIfDue_viewed a hbefore hsame
          rw [fundingFee_of_entry hentry] at hpaid
          have hrest : checkOrder.dropWhile (· ≠ .funding) = .funding :: [.slHit, .tpHit] := by
            decide
          have hhits : ∀ r ∈ [CheckRule.slHit, CheckRule.tpHit], r.Spares fundingPart := by
            simp [CheckRule.Spares]
          have hend := Viewed.blocks settings a (locals record mid) hhits
            (by simp [CheckRule.writers]) _ hpaid
          rw [runChecks_of_comesTo hcomes, hrest, List.map_cons, Flow.blocks_cons, CheckRule.block,
            Flow.next_andThen]
          exact hend.state fun _ hs => hs

/-! ## Runs -/

/-- An open position that has paid nothing yet, at its opening; its clock starts then, if at
all. -/
structure FundedOpening where
  record : ShadowRecord
  since : ℚ
  fresh : record.totalFundingFees = 0
  clocked : record.lastFundingTs = none ∨ record.lastFundingTs = some since
  isOpen : record.status ≠ some "PENDING_VIRTUAL_FILL".toList

/-- Intervals that have elapsed since the opening. -/
def FundedOpening.elapsed (o : FundedOpening) (t : ℚ) : ℕ :=
  elapsedPeriods o.since (8 * 3600) t

/-- One pass of the monitor: the time since the last one, and what it meets. -/
structure FundingCycle where
  wait : ℚ≥0
  answers : CheckAnswers

/-- The monitor with the time of its last pass, the intervals elapsed by then, and those for
which a fee was charged. -/
structure FundingRun where
  monitor : MonitorState
  clock : ℚ
  seen : ℕ
  charged : List ℕ

/-- The run at the opening. -/
def FundedOpening.start (o : FundedOpening) : FundingRun where
  monitor := .ofRecord o.record
  clock := o.since
  seen := 0
  charged := []

section Runs

variable (settings : ShadowSettings) (o : FundedOpening) (rates : ℕ → ℚ)

/-- What a pass meets at its time, where Redis holds the rate of the last interval. -/
def fundingAnswers (r : FundingRun) (c : FundingCycle) : CheckAnswers :=
  { c.answers with
    fundingClock := r.clock + c.wait
    fundingRate := rates (o.elapsed (r.clock + c.wait)) }

/-- One pass over a position that is still there. -/
def fundingStep (r : FundingRun) (c : FundingCycle) : FundingRun :=
  match r.monitor.stored with
  | none => r
  | some _ =>
      let a := fundingAnswers o rates r c
      { monitor := check settings r.monitor a
        clock := r.clock + c.wait
        seen := o.elapsed (r.clock + c.wait)
        charged :=
          if charges settings r.monitor a then r.charged ++ [o.elapsed (r.clock + c.wait)]
          else r.charged }

/-- Fees that the position has accumulated, or had when it was closed. -/
def FundingRun.fees (r : FundingRun) : ℚ :=
  (r.monitor.stored.getD r.monitor.pos).totalFundingFees

/-- Every elapsed interval with a rate has been charged exactly once, and the fees are the sum
over the elapsed intervals. -/
structure FundingRight (r : FundingRun) : Prop where
  once : OnceEach (fun k => rates k ≠ 0) r.charged r.seen
  total : r.fees = ∑ k ∈ Finset.Icc 1 r.seen, fundingFee o.record (rates k)

/-- Of the intervals that have elapsed since the last pass none has a rate, except the last one
where this pass charges its fee. -/
def ChargesDue (r : FundingRun) (c : FundingCycle) : Prop :=
  r.monitor.stored ≠ none →
    ∀ k, r.seen < k → k ≤ o.elapsed (r.clock + c.wait) → rates k ≠ 0 →
      k = o.elapsed (r.clock + c.wait) ∧
        charges settings r.monitor (fundingAnswers o rates r c) = true

/-- What holds in every run. -/
structure FundingInv (r : FundingRun) : Prop where
  entry : EntryKept o.record.entryPart r.monitor
  since : o.since ≤ r.clock
  seen : r.seen = o.elapsed r.clock
  fees : r.fees = (r.charged.map fun k => fundingFee o.record (rates k)).sum
  clocked : ∀ record last, r.monitor.stored = some record → record.lastFundingTs = some last →
    o.since ≤ last ∧ ∀ k ∈ r.charged, o.since + 8 * 3600 * k ≤ last

variable {settings o rates}

/-- A fee is due at a positive rate, eight hours after the last one. -/
theorem charges_due {s : MonitorState} {a : CheckAnswers} (h : charges settings s a = true) :
    ∃ record last, s.stored = some record ∧ record.lastFundingTs = some last ∧
      8 * 3600 ≤ a.fundingClock - last ∧ 0 < a.fundingRate := by
  unfold charges at h
  cases hstored : s.stored with
  | none => simp [hstored] at h
  | some record =>
      rw [hstored] at h
      dsimp only at h
      cases hprice : priceAt a record with
      | none => simp [hprice] at h
      | some mid =>
          rw [hprice] at h
          have hdue := (Bool.and_eq_true_iff.mp h).2
          unfold chargeDue at hdue
          cases hlast : record.lastFundingTs with
          | none => simp [hlast] at hdue
          | some last =>
              rw [hlast] at hdue
              simp only [Bool.and_eq_true, decide_eq_true_eq] at hdue
              exact ⟨record, last, rfl, hlast, hdue.1, hdue.2⟩

/-- It is charged for the last interval, which had not been charged. -/
theorem FundingInv.fresh {r : FundingRun} (h : FundingInv o rates r) {settings : ShadowSettings}
    {c : FundingCycle}
    (hcharges : charges settings r.monitor (fundingAnswers o rates r c) = true) :
    rates (o.elapsed (r.clock + c.wait)) ≠ 0 ∧ 1 ≤ o.elapsed (r.clock + c.wait) ∧
      o.elapsed (r.clock + c.wait) ∉ r.charged := by
  rcases charges_due hcharges with ⟨record, last, hstored, hlast, hlate, hrate⟩
  rcases h.clocked record last hstored hlast with ⟨hsince, hbefore⟩
  have hclock : 8 * 3600 ≤ r.clock + c.wait - last := hlate
  refine ⟨hrate.ne', ?_, ?_⟩
  · apply le_elapsedPeriods (by norm_num)
    push_cast
    linarith
  · intro hcharged
    have hearlier := hbefore _ hcharged
    have hnext : o.elapsed (r.clock + c.wait) + 1 ≤ o.elapsed (r.clock + c.wait) := by
      apply le_elapsedPeriods (by norm_num)
      push_cast
      linarith
    omega

/-- What a pass over a position does to its clock and fees. -/
theorem FundingInv.paid {r : FundingRun} (h : FundingInv o rates r) (settings : ShadowSettings)
    (c : FundingCycle) {record : ShadowRecord} (hstored : r.monitor.stored = some record) :
    Viewed fundingPart
      (fun p => p.2 = r.fees + if charges settings r.monitor (fundingAnswers o rates r c) then
        fundingFee o.record (rates (o.elapsed (r.clock + c.wait))) else 0)
      (· = (if charges settings r.monitor (fundingAnswers o rates r c) then some (r.clock + c.wait)
          else record.lastFundingTs,
        r.fees + if charges settings r.monitor (fundingAnswers o rates r c) then
          fundingFee o.record (rates (o.elapsed (r.clock + c.wait))) else 0))
      (check settings r.monitor (fundingAnswers o rates r c)) := by
  have hopen : o.record.entryPart.status ≠ some "PENDING_VIRTUAL_FILL".toList := o.isOpen
  have hfees : r.fees = record.totalFundingFees := by
    rw [FundingRun.fees, hstored, Option.getD_some]
  rw [hfees, fundingFee_of_entry (h.entry.stored record hstored).symm]
  exact check_funding hstored (h.entry.not_pending hopen hstored)

/-- A pass adds the fee that it charges. -/
theorem FundingInv.fees_step {r : FundingRun} (h : FundingInv o rates r)
    (settings : ShadowSettings) (c : FundingCycle) {record : ShadowRecord}
    (hstored : r.monitor.stored = some record) :
    (fundingStep settings o rates r c).fees =
      r.fees + if charges settings r.monitor (fundingAnswers o rates r c) then
        fundingFee o.record (rates (o.elapsed (r.clock + c.wait))) else 0 := by
  have hpaid := h.paid settings c hstored
  have hview : (fundingStep settings o rates r c).fees =
      ((check settings r.monitor (fundingAnswers o rates r c)).stored.getD
        (check settings r.monitor (fundingAnswers o rates r c)).pos).totalFundingFees := by
    unfold fundingStep
    rw [hstored]
    rfl
  rw [hview]
  cases hnext : (check settings r.monitor (fundingAnswers o rates r c)).stored with
  | none => exact hpaid.pos
  | some next => exact congrArg Prod.snd (hpaid.stored next hnext)

/-- A pass keeps what holds in every run. -/
theorem FundingInv.step {r : FundingRun} (h : FundingInv o rates r) (c : FundingCycle) :
    FundingInv o rates (fundingStep settings o rates r c) := by
  cases hstored : r.monitor.stored with
  | none =>
      unfold fundingStep
      rw [hstored]
      exact h
  | some record =>
      have hopen : o.record.entryPart.status ≠ some "PENDING_VIRTUAL_FILL".toList := o.isOpen
      have hpaid := h.paid settings c hstored
      have hfees := h.fees_step settings c hstored
      have hwait : (0 : ℚ) ≤ c.wait := c.wait.coe_nonneg
      have hlater : o.since ≤ r.clock + c.wait := h.since.trans (le_add_of_nonneg_right hwait)
      have hsum := h.fees
      unfold fundingStep at hfees ⊢
      rw [hstored] at hfees ⊢
      refine ⟨h.entry.check hopen settings _, hlater, rfl, ?_, ?_⟩
      · rw [hfees, hsum]
        dsimp only
        split_ifs
        · rw [List.map_append, List.sum_append, List.map_singleton, List.sum_singleton]
        · rw [add_zero]
      · intro next last hnext hlast
        have hpart := congrArg Prod.fst (hpaid.stored next hnext)
        change next.lastFundingTs = _ at hpart
        rw [hlast] at hpart
        dsimp only
        split_ifs at hpart ⊢ with hcharged
        · obtain rfl := Option.some.inj hpart
          refine ⟨hlater, fun k hk => ?_⟩
          rcases List.mem_append.mp hk with hearlier | hnew
          · rcases charges_due hcharged with ⟨record', last, hstored', hlast', hlate, -⟩
            have hbefore := (h.clocked record' last hstored' hlast').2 k hearlier
            have hclock : 8 * 3600 ≤ r.clock + c.wait - last := hlate
            linarith
          · obtain rfl := List.mem_singleton.mp hnew
            exact elapsedPeriods_le (by norm_num) hlater
        · exact h.clocked record last hstored hpart.symm

/-- A pass keeps the fees right exactly where it charges what is due. -/
theorem fundingRight_step_iff {r : FundingRun} (h : FundingInv o rates r)
    (hright : FundingRight o rates r) (c : FundingCycle) :
    FundingRight o rates (fundingStep settings o rates r c) ↔ ChargesDue settings o rates r c := by
  have hfree : ∀ k, ¬ rates k ≠ 0 → fundingFee o.record (rates k) = 0 := by
    intro k hk
    rw [not_not.mp hk]
    unfold fundingFee
    cases o.record.side <;> simp
  have honce : FundingRight o rates (fundingStep settings o rates r c) ↔
      OnceEach (fun k => rates k ≠ 0) (fundingStep settings o rates r c).charged
        (fundingStep settings o rates r c).seen := by
    refine ⟨fun hnext => hnext.once, fun hnext => ⟨hnext, ?_⟩⟩
    rw [(h.step c).fees, hnext.sum_eq hfree]
  rw [honce]
  cases hstored : r.monitor.stored with
  | none =>
      unfold fundingStep ChargesDue
      rw [hstored]
      exact iff_of_true hright.once fun hgone => absurd rfl hgone
  | some record =>
      have hwait : (0 : ℚ) ≤ c.wait := c.wait.coe_nonneg
      have hseen : r.seen ≤ o.elapsed (r.clock + c.wait) := by
        rw [h.seen]
        exact elapsedPeriods_mono (by norm_num) (le_add_of_nonneg_right hwait)
      have hfresh : charges settings r.monitor (fundingAnswers o rates r c) = true →
          rates (o.elapsed (r.clock + c.wait)) ≠ 0 ∧ 1 ≤ o.elapsed (r.clock + c.wait) ∧
            o.elapsed (r.clock + c.wait) ∉ r.charged := h.fresh
      have hiff := onceEach_charge_iff hseen hfresh hright.once
      unfold fundingStep ChargesDue
      rw [hstored]
      rw [hiff]
      exact ⟨fun hall _ => hall, fun hall => hall (by simp)⟩

/-- The runs in which every elapsed interval is paid exactly once, with the sign of the side, are
those in which every pass charges what is due. -/
theorem fundingRight_iff (settings : ShadowSettings) (o : FundedOpening) (rates : ℕ → ℚ)
    (cycles : List FundingCycle) :
    (∀ n, FundingRight o rates (run (fundingStep settings o rates) o.start (cycles.take n))) ↔
      Admits (fundingStep settings o rates) (ChargesDue settings o rates) o.start cycles := by
  apply invariant_iff_admits_beside (FundingInv o rates) (FundingRight o rates)
  · intro r c h
    exact h.step c
  · intro r c h hright
    exact fundingRight_step_iff h hright c
  · refine ⟨.ofRecord o.record, le_refl o.since, ?_, ?_, ?_⟩
    · simp [FundedOpening.start, FundedOpening.elapsed, elapsedPeriods]
    · exact o.fresh
    · intro record last hrecord hlast
      obtain rfl := Option.some.inj hrecord
      refine ⟨?_, fun k hk => absurd hk List.not_mem_nil⟩
      rcases o.clocked with hnone | hsince
      · rw [hlast] at hnone
        cases hnone
      · exact (Option.some.inj (hlast.symm.trans hsince)).ge
  · exact ⟨onceEach_nil _, by simp [FundedOpening.start, FundingRun.fees, o.fresh,
      MonitorState.ofRecord]⟩

end Runs

/-- A long of one unit at 100, whose clock starts as given. -/
def fundedLong (lastFundingTs : Option ℚ) : ShadowRecord :=
  { save "BTC/USDT".toList .LONG 100 1 none "RANGE".toList
      (some [("sl_pct".toList, .decimal (10 / 100))]) none none 0 with
    lastFundingTs := lastFundingTs }

/-- It is opened at time zero, its clock set. -/
def clockedLong : FundedOpening where
  record := fundedLong (some 0)
  since := 0
  fresh := rfl
  clocked := Or.inr rfl
  isOpen := by rintro ⟨⟩

/-- It is opened at time zero as it was saved, without a clock. -/
def clocklessLong : FundedOpening where
  record := fundedLong none
  since := 0
  fresh := rfl
  clocked := Or.inl rfl
  isOpen := by rintro ⟨⟩

/-- A pass at 103, at the end of the first interval. -/
def firstFunding : FundingCycle where
  wait := 28800
  answers :=
    { checkAt 103 with
      pendingClock := 28800
      fillClock := 28800
      exitClock := 28800
      staleClock := 28800 }

/-- With its clock set the long pays, without it the first interval is not charged. -/
theorem clocklessLong_pays_nothing :
    (run (fundingStep defaultSettings clockedLong fun _ => 1 / 10000) clockedLong.start
        [firstFunding]).fees = 1 / 100 ∧
      ¬ ∀ n, FundingRight clocklessLong (fun _ => 1 / 10000)
        (run (fundingStep defaultSettings clocklessLong fun _ => 1 / 10000) clocklessLong.start
          ([firstFunding].take n)) := by
  refine ⟨by decide +kernel, fun h => ?_⟩
  have hrate : (1 / 10000 : ℚ) ≠ 0 := by norm_num
  have honce := (h 1).once 1 hrate
  revert honce
  decide +kernel

end Shadow
end Karsa
