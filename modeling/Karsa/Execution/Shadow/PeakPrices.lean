import Karsa.Execution.Shadow.LossCap

/-!
# Shadow trading - Peak prices

Every check notes a new peak under the key, through the store.  It then goes on with the
dictionary that it read before, with the old peak in it, trails the stop behind that one, and
writes the dictionary back.

Main results:

- Theorem `check_peakPrice`: the peak that a check leaves.
- Theorem `check_stop`: the stop that it leaves where the trend trailing is active.
- Theorem `peakHolds_iff`: the runs that never lose a peak.
-/

namespace Karsa
namespace Shadow

/-! ## Peaks -/

/-- The better of two prices: the higher one for a long, the lower one for a short. -/
def furthest (side : Side) (x y : ℚ) : ℚ :=
  match side with
  | .LONG => max x y
  | .SHORT => min x y

/-- A price goes beyond a peak. -/
def Beyond (side : Side) (peak price : ℚ) : Prop :=
  match side with
  | .LONG => peak < price
  | .SHORT => price < peak

/-- A peak stays where the price does not go beyond it. -/
theorem furthest_eq_left_iff {side : Side} {peak price : ℚ} :
    furthest side peak price = peak ↔ ¬ Beyond side peak price := by
  cases side with
  | LONG => exact max_eq_left_iff.trans not_lt.symm
  | SHORT => exact min_eq_left_iff.trans not_lt.symm

/-- The store moves the peak to a price beyond it. -/
theorem updatePeak_peakPrice {record : ShadowRecord} {peak : ℚ} (h : record.peakPrice = some peak)
    (mid : ℚ) : (updatePeak mid record).peakPrice = some (furthest record.side peak mid) := by
  unfold updatePeak furthest
  rw [h]
  cases record.side with
  | LONG =>
      simp only [decide_eq_true_eq]
      split_ifs with hbeyond
      · rw [max_eq_right hbeyond.le]
      · rw [max_eq_left (not_lt.mp hbeyond), h]
  | SHORT =>
      simp only [decide_eq_true_eq]
      split_ifs with hbeyond
      · rw [min_eq_right hbeyond.le]
      · rw [min_eq_left (not_lt.mp hbeyond), h]

/-- The stop of the trend trailing behind a peak. -/
def trailedStop (side : Side) (peak atr : ℚ) : ℚ :=
  match side with
  | .LONG => peak - atr * (5 / 2)
  | .SHORT => peak + atr * (5 / 2)

theorem NoLooser.trans {side : Side} {stop middle old : ℚ} (h : NoLooser side stop middle)
    (h' : NoLooser side middle old) : NoLooser side stop old := by
  cases side with
  | LONG => exact le_trans h' h
  | SHORT => exact le_trans h h'

theorem NoLooser.refl (side : Side) (stop : ℚ) : NoLooser side stop stop := by
  cases side <;> exact le_refl stop

/-! ## The peak after a check -/

section Check

variable {settings : ShadowSettings} {a : CheckAnswers} {s : MonitorState}
  {record : ShadowRecord} {mid : ℚ}

/-- No rule changes the peak of the dictionary. -/
theorem spares_peakPrice (r : CheckRule) : r.Spares ShadowRecord.peakPrice := by
  cases r with
  | wickGuard | breakevenLock | stepTrailing | trendTrailing | lossCap | funding =>
      exact fun _ _ => by intros; rfl
  | regimeKillSwitch | timeExit | persist | staleCleanup | slHit | tpHit => trivial

/-- A check that goes on to write the dictionary back leaves the old peak, any other one the
peak of the store. -/
theorem check_peakPrice (hstored : s.stored = some record)
    (hprice : priceAt a record = some mid) {next : ShadowRecord}
    (hnext : (check settings s a).stored = some next) :
    next.peakPrice = if (comesTo settings a mid .persist (startCheck record s)).isSome then
      record.peakPrice else (updatePeak mid record).peakPrice := by
  have hobserved : Viewed ShadowRecord.peakPrice (· = record.peakPrice)
      (· = (updatePeak mid record).peakPrice) (observe mid (startCheck record s)) := by
    refine ⟨rfl, fun other hother => ?_⟩
    rcases Option.map_eq_some_iff.mp hother with ⟨old, hold, rfl⟩
    obtain rfl := Option.some.inj (hold.symm.trans hstored)
    rfl
  have hreads : ∀ r ∈ checkOrder.takeWhile (· ≠ .persist), r ∉ CheckRule.writers := by decide
  have himp : ∀ r ∈ checkOrder.takeWhile (· ≠ .persist), r ∈ CheckRule.writers →
      ∀ v, v = record.peakPrice → v = (updatePeak mid record).peakPrice :=
    fun r hr hwrites => absurd hwrites (hreads r hr)
  rw [check_of_priceAt hstored hprice] at hnext
  cases hcomes : comesTo settings a mid .persist (startCheck record s) with
  | none =>
      rw [runChecks_of_comesTo_eq_none hcomes] at hnext
      have hfront := Viewed.blocks settings a (locals record mid)
        (fun r _ => spares_peakPrice r) himp _ hobserved
      exact (hfront.state fun _ hs => hs).stored next hnext
  | some s' =>
      have hbefore := hobserved.comesTo (fun r _ => spares_peakPrice r) himp hcomes
      have hwritten : Viewed ShadowRecord.peakPrice (· = record.peakPrice) (· = record.peakPrice)
          s'.persist := by
        refine ⟨hbefore.pos, fun other hother => ?_⟩
        obtain rfl := Option.some.inj hother
        exact hbefore.pos
      have hrest : checkOrder.dropWhile (· ≠ .persist) =
          .persist :: [.lossCap, .staleCleanup, .funding, .slHit, .tpHit] := by decide
      rw [runChecks_of_comesTo hcomes, hrest, List.map_cons, Flow.blocks_cons, CheckRule.block,
        Flow.next_andThen] at hnext
      have hspares : ∀ r ∈ [CheckRule.lossCap, .staleCleanup, .funding, .slHit, .tpHit],
          r.Spares ShadowRecord.peakPrice := fun r _ => spares_peakPrice r
      have hend := Viewed.blocks settings a (locals record mid) hspares (fun _ _ _ _ h => h) _
        hwritten
      exact (hend.state fun _ hs => hs).stored next hnext

/-! ## The stop after a check -/

/-- The dictionary and the local copy have the same stop. -/
def Synced (s : MonitorState) : Prop :=
  s.pos.virtualSl.getD 0 = s.virtualSl

/-- Only the loss cap parts them. -/
theorem Synced.rule (h : Synced s) (loc : CheckLocals) {r : CheckRule} (hr : r ≠ .lossCap) :
    Synced (r.block settings a loc s).state := by
  have houtcome := ruleOutcome settings a loc r s
  generalize (r.block settings a loc s).state = s' at houtcome ⊢
  cases houtcome with
  | capped stop hstop => exact absurd rfl hr
  | locked | trailed => rfl
  | same | shifted | killed | closed | ticked | persisted | clocked | charged | hit => exact h

/-- They are the same when the dictionary is written back. -/
theorem comesTo_persist_synced {s' : MonitorState}
    (hcomes : comesTo settings a mid .persist (startCheck record s) = some s') : Synced s' := by
  have hspec : Flow.Spec Synced
      (Flow.blocks ((checkOrder.takeWhile (· ≠ .persist)).map
        (CheckRule.block settings a (locals record mid)))) Synced Synced := by
    apply Flow.Spec.blocks_of_state
    intro r hr s' hs'
    have hne : r ≠ .lossCap := by
      rintro rfl
      revert hr
      decide
    exact hs'.rule _ hne
  have hstart : Synced (observe mid (startCheck record s)) := rfl
  exact (hspec _ hstart).of_next? hcomes

/-- What is written back has a stop no looser than that. -/
theorem written_stop {s' : MonitorState} (hsynced : Synced s') {next : ShadowRecord}
    (hnext : (Flow.blocks ((checkOrder.dropWhile (· ≠ .persist)).map
      (CheckRule.block settings a (locals record mid))) s').state.stored = some next) :
    NoLooser s'.pos.side (next.virtualSl.getD 0) s'.virtualSl := by
  have hrest : checkOrder.dropWhile (· ≠ .persist) =
      .persist :: .lossCap :: [.staleCleanup, .funding, .slHit, .tpHit] := by decide
  have hspares : ∀ r ∈ [CheckRule.staleCleanup, .funding, .slHit, .tpHit],
      r.Spares ShadowRecord.virtualSl := by
    simp [CheckRule.Spares]
  rw [hrest, List.map_cons, List.map_cons, Flow.blocks_cons, CheckRule.block, Flow.next_andThen,
    Flow.blocks_cons, CheckRule.block, Flow.next_andThen] at hnext
  have hcapped : NoLooser s'.pos.side ((lossCap s'.persist).pos.virtualSl.getD 0) s'.virtualSl ∧
      (lossCap s'.persist).stored = some (lossCap s'.persist).pos := by
    unfold lossCap
    split_ifs with hdue
    · exact ⟨(cappedStop_tighter hdue).1, rfl⟩
    · refine ⟨?_, rfl⟩
      have hsame : s'.persist.pos.virtualSl.getD 0 = s'.virtualSl := hsynced
      rw [hsame]
      exact NoLooser.refl _ _
  have hviewed : Viewed ShadowRecord.virtualSl (· = (lossCap s'.persist).pos.virtualSl)
      (· = (lossCap s'.persist).pos.virtualSl) (lossCap s'.persist) := by
    refine ⟨rfl, fun other hother => ?_⟩
    obtain rfl := Option.some.inj (hother.symm.trans hcapped.2)
    rfl
  have hend := Viewed.blocks settings a (locals record mid) hspares (fun _ _ _ _ h => h) _ hviewed
  rw [(hend.state fun _ hs => hs).stored next hnext]
  exact hcapped.1

/-- An active trend trailing leaves a stop no looser than its own. -/
theorem trendTrailing_noLooser {loc : CheckLocals} (hdue : trendDue loc s.pos = true) {atr : ℚ}
    (hatr : (s.pos.atr.getD (.value 0)).decimal = some atr) (hpos : 0 < atr) :
    ∃ s', trendTrailing loc s = .next s' ∧ s'.pos.side = s.pos.side ∧
      NoLooser s.pos.side s'.virtualSl (trailedStop s.pos.side loc.peak atr) := by
  have hstop : trendStop loc s.pos atr = trailedStop s.pos.side loc.peak atr := rfl
  unfold trendTrailing
  rw [if_pos hdue, hatr]
  dsimp only
  split_ifs with htight
  · refine ⟨_, rfl, rfl, ?_⟩
    rw [← hstop]
    exact NoLooser.refl _ _
  · refine ⟨s, rfl, rfl, ?_⟩
    rw [not_and] at htight
    have hloose := htight hpos
    rw [hstop] at hloose
    unfold tightens at hloose
    cases hside : s.pos.side with
    | LONG =>
        rw [hside] at hloose
        simpa [NoLooser] using hloose
    | SHORT =>
        rw [hside] at hloose
        simp only [decide_eq_true_eq, not_or, not_lt] at hloose
        exact hloose.1

/-- Where it is active, the stop of the record after the check is no looser than 2.5 average true
ranges behind the peak that was read. -/
theorem check_stop (hstored : s.stored = some record) (hprice : priceAt a record = some mid)
    {s' : MonitorState}
    (hcomes : comesTo settings a mid .trendTrailing (startCheck record s) = some s')
    (hdue : trendDue (locals record mid) s'.pos = true) {atr : ℚ}
    (hatr : (s'.pos.atr.getD (.value 0)).decimal = some atr) (hpos : 0 < atr)
    {next : ShadowRecord} (hnext : (check settings s a).stored = some next) :
    (comesTo settings a mid .persist (startCheck record s)).isSome ∧
      NoLooser record.side (next.virtualSl.getD 0)
        (trailedStop record.side (record.peakPrice.getD mid) atr) := by
  have hentry := (comesTo_entry (startCheck_entry hstored) hcomes).pos
  have hside : s'.pos.side = record.side := by
    have hsame : s'.pos.entryPart.side = record.entryPart.side := by rw [hentry]
    exact hsame
  rcases trendTrailing_noLooser hdue hatr hpos with ⟨after, hafter, hkept, htight⟩
  have hsplit : checkOrder.takeWhile (· ≠ .persist) =
      checkOrder.takeWhile (· ≠ .trendTrailing) ++ [.trendTrailing] := by decide
  have hpersist : comesTo settings a mid .persist (startCheck record s) = some after := by
    unfold comesTo at hcomes ⊢
    rw [hsplit, List.map_append, Flow.blocks_append, Flow.next?_andThen, hcomes,
      Option.bind_some, List.map_singleton, Flow.blocks_singleton, CheckRule.block]
    have hloc : locals (startCheck record s).pos mid = locals record mid := rfl
    rw [hloc, hafter, Flow.next?_next]
  rw [check_of_priceAt hstored hprice, runChecks_of_comesTo hpersist] at hnext
  have hwritten := written_stop (comesTo_persist_synced hpersist) hnext
  refine ⟨by rw [hpersist]; rfl, ?_⟩
  rw [hside] at hkept htight
  rw [hkept] at hwritten
  exact hwritten.trans htight

end Check

/-! ## Runs -/

/-- An open position whose peak is its entry price, as it is saved. -/
structure PeakOpening where
  record : ShadowRecord
  atEntry : record.peakPrice = some record.entryPrice
  isOpen : record.status ≠ some "PENDING_VIRTUAL_FILL".toList

/-- The monitor with the furthest of the entry price and the prices seen. -/
structure PeakRun where
  monitor : MonitorState
  furthestSeen : ℚ

/-- The run at the opening. -/
def PeakOpening.start (o : PeakOpening) : PeakRun where
  monitor := .ofRecord o.record
  furthestSeen := o.record.entryPrice

section Runs

variable (settings : ShadowSettings) (o : PeakOpening)

/-- The price that the next check sees, if any. -/
def PeakRun.sees (r : PeakRun) (a : CheckAnswers) : Option ℚ :=
  r.monitor.stored.bind (priceAt a)

/-- One check. -/
def peakStep (r : PeakRun) (a : CheckAnswers) : PeakRun where
  monitor := check settings r.monitor a
  furthestSeen := match r.sees a with
    | none => r.furthestSeen
    | some mid => furthest o.record.side r.furthestSeen mid

/-- The stored peak is the furthest price. -/
def PeakKept (r : PeakRun) : Prop :=
  ∀ record, r.monitor.stored = some record → record.peakPrice = some r.furthestSeen

/-- The next check leaves the furthest price as the peak and, where the trend trailing is active,
a stop no looser than 2.5 average true ranges behind it. -/
structure PeakHolds (r : PeakRun) (a : CheckAnswers) : Prop where
  kept : PeakKept (peakStep settings o r a)
  trailed : ∀ record mid s' atr next, r.monitor.stored = some record →
    priceAt a record = some mid →
      comesTo settings a mid .trendTrailing (startCheck record r.monitor) = some s' →
        trendDue (locals record mid) s'.pos = true →
          (s'.pos.atr.getD (.value 0)).decimal = some atr → 0 < atr →
            (peakStep settings o r a).monitor.stored = some next →
              NoLooser o.record.side (next.virtualSl.getD 0)
                (trailedStop o.record.side (peakStep settings o r a).furthestSeen atr)

/-- If the next check writes the dictionary back and leaves the position open, it sees no price
beyond the furthest one. -/
def PeakSafe (r : PeakRun) (a : CheckAnswers) : Prop :=
  ∀ record mid, r.monitor.stored = some record → priceAt a record = some mid →
    (comesTo settings a mid .persist (startCheck record r.monitor)).isSome →
      (check settings r.monitor a).stored ≠ none → ¬ Beyond o.record.side r.furthestSeen mid

variable {settings o}

/-- One check keeps the peak exactly where it is safe. -/
theorem peakHolds_step_iff {r : PeakRun} (hentry : EntryKept o.record.entryPart r.monitor)
    (hkept : PeakKept r) (a : CheckAnswers) :
    PeakHolds settings o r a ↔ PeakSafe settings o r a := by
  have hside : ∀ record, r.monitor.stored = some record → record.side = o.record.side := by
    intro record hstored
    have hsame : record.entryPart.side = o.record.entryPart.side := by
      rw [hentry.stored record hstored]
    exact hsame
  constructor
  · intro h record mid hstored hprice hwrites hopen
    rcases Option.ne_none_iff_exists'.mp hopen with ⟨next, hnext⟩
    have hpeak := h.kept next hnext
    have hsees : r.sees a = some mid := by rw [PeakRun.sees, hstored, Option.bind_some, hprice]
    rw [check_peakPrice hstored hprice hnext, if_pos hwrites, hkept record hstored,
      peakStep, hsees] at hpeak
    exact furthest_eq_left_iff.mp (Option.some.inj hpeak).symm
  · intro h
    refine ⟨fun next hnext => ?_, ?_⟩
    · change (check settings r.monitor a).stored = some next at hnext
      cases hstored : r.monitor.stored with
      | none =>
          unfold check at hnext
          rw [hstored] at hnext
          cases hnext
      | some record =>
          have hsees : r.sees a = priceAt a record := by
            rw [PeakRun.sees, hstored, Option.bind_some]
          cases hprice : priceAt a record with
          | none =>
              rw [check_of_priceAt_eq_none hstored (hentry.not_pending o.isOpen hstored) hprice]
                at hnext
              rw [peakStep, hsees, hprice]
              exact hkept next hnext
          | some mid =>
              rw [check_peakPrice hstored hprice hnext, peakStep, hsees, hprice]
              dsimp only
              split_ifs with hwrites
              · have hnot := h record mid hstored hprice hwrites (by simp [hnext])
                rw [hkept record hstored, furthest_eq_left_iff.mpr hnot]
              · rw [updatePeak_peakPrice (hkept record hstored), hside record hstored]
    · intro record mid s' atr next hstored hprice hcomes hdue hatr hpos hnext
      rcases check_stop hstored hprice hcomes hdue hatr hpos hnext with ⟨hwrites, htight⟩
      change (check settings r.monitor a).stored = some next at hnext
      have hnot := h record mid hstored hprice hwrites (by simp [hnext])
      have hsees : r.sees a = some mid := by rw [PeakRun.sees, hstored, Option.bind_some, hprice]
      have hfurthest : (peakStep settings o r a).furthestSeen = r.furthestSeen := by
        rw [peakStep, hsees]
        exact furthest_eq_left_iff.mpr hnot
      rw [hside record hstored, hkept record hstored, Option.getD_some] at htight
      rw [hfurthest]
      exact htight

/-- The runs that never lose a peak, and trail no stop behind a lost one, are those whose checks
are all safe. -/
theorem peakHolds_iff (settings : ShadowSettings) (o : PeakOpening) (checks : List CheckAnswers) :
    Admits (peakStep settings o) (PeakHolds settings o) o.start checks ↔
      Admits (peakStep settings o) (PeakSafe settings o) o.start checks := by
  have hinit : EntryKept o.record.entryPart o.start.monitor ∧ PeakKept o.start := by
    refine ⟨.ofRecord o.record, fun record hrecord => ?_⟩
    obtain rfl := Option.some.inj hrecord
    exact o.atEntry
  have hstep : ∀ r a, EntryKept o.record.entryPart r.monitor ∧ PeakKept r →
      PeakHolds settings o r a → EntryKept o.record.entryPart (peakStep settings o r a).monitor ∧
        PeakKept (peakStep settings o r a) :=
    fun r a hr hholds => ⟨hr.1.check o.isOpen settings a, hholds.kept⟩
  constructor
  · intro h
    exact h.of_invariant hstep
      (fun r a hr hholds => (peakHolds_step_iff hr.1 hr.2 a).mp hholds) hinit
  · intro h
    have hsafe : ∀ r a, EntryKept o.record.entryPart r.monitor ∧ PeakKept r →
        PeakSafe settings o r a → EntryKept o.record.entryPart (peakStep settings o r a).monitor ∧
          PeakKept (peakStep settings o r a) :=
      fun r a hr hsafe => hstep r a hr ((peakHolds_step_iff hr.1 hr.2 a).mpr hsafe)
    exact h.of_invariant hsafe
      (fun r a hr hsafe => (peakHolds_step_iff hr.1 hr.2 a).mpr hsafe) hinit

end Runs

/-- A long of one unit at 100 as it is saved. -/
def savedLong : PeakOpening where
  record := save "BTC/USDT".toList .LONG 100 1 none "RANGE".toList
    (some [("sl_pct".toList, .decimal (10 / 100))]) none none 0
  atEntry := rfl
  isOpen := by rintro ⟨⟩

/-- After a check at 101 its peak is 100 again. -/
theorem savedLong_loses_peak :
    ¬ Admits (peakStep defaultSettings savedLong) (PeakHolds defaultSettings savedLong)
      savedLong.start [checkAt 101] := by
  rintro ⟨h, -⟩
  have hpeak : ((peakStep defaultSettings savedLong savedLong.start
      (checkAt 101)).monitor.stored.map ShadowRecord.peakPrice) = some (some 100) := by
    decide +kernel
  rcases Option.map_eq_some_iff.mp hpeak with ⟨record, hstored, hold⟩
  have hkept := h.kept record hstored
  rw [hold] at hkept
  revert hkept
  decide +kernel

end Shadow
end Karsa
