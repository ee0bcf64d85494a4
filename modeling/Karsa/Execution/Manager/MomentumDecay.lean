import Karsa.Execution.Manager.ExitRules
import Karsa.Foundations.Peaks
import Karsa.Foundations.Runs
import Mathlib.Tactic.Linarith

/-!
# Active position manager - The memory of the best R-multiple

The time exit of a winning position remembers the best R-multiple and when it was reached, and
closes a position whose R-multiple has decayed since.  What is compared with the present value
defaults to the present value itself, so that a record without a memory never gets one.

Main results:

- Theorem `timeExitReason_seen`: what happens to a positive R-multiple.
- Theorem `decayWorks_of_recorded`: with a memory, one call does what it is meant to do.
- Theorem `decayWorks_iff`: which sequences of calls do.
-/

namespace Karsa
namespace Manager

/-! ## Calls -/

/-- One call of `_manage_time_exit`, with the answers to a force close. -/
structure TimeExitCall where
  clock : ℚ
  snap : Snapshot
  close : CloseAnswers

/-- Is a quick profit taken? -/
def quickProfit (clock : ℚ) (snap : Snapshot) (entryTime : ℚ) : Bool :=
  decide ((clock - entryTime) / 60 ≤ (if snap.startsHyper then 3 else 5) ∧
    (if snap.startsHyper then 1 else 3) ≤ snap.rMult)

/-- The call sees a positive R-multiple, and no earlier rule closes the position. -/
def TimeExitCall.sees (c : TimeExitCall) : Bool :=
  c.snap.entryTime.any fun entryTime =>
    decide (0 < c.snap.rMult) && !quickProfit c.clock c.snap entryTime

/-- The R-multiple has decayed since its peak. -/
def TimeExitCall.Decayed (c : TimeExitCall) (peak : ℚ × ℚ) : Prop :=
  c.sees = true ∧ 10 ≤ (c.clock - peak.2) / 60 ∧ c.snap.rMult < peak.1 * (8 / 10)

/-- The call as it works on the dictionary. -/
def TimeExitCall.run (c : TimeExitCall) (s : ManagerState) : Flow ManagerState :=
  manageTimeExit c.clock c.close c.snap s

/-- The call closes the position for the decay. -/
def TimeExitCall.ClosesByDecay (c : TimeExitCall) (s : ManagerState) : Prop :=
  c.run s = .ret (forceClosePosition c.close "momentum_decay_exit".toList s)

/-! ## Sequences of calls -/

/-- The manager, and the R-multiples seen so far with their times. -/
structure DecayState where
  manager : ManagerState
  sightings : List (ℚ × ℚ)

/-- The next call. -/
def decayStep (s : DecayState) (c : TimeExitCall) : DecayState where
  manager := (c.run s.manager).state
  sightings := if c.sees then s.sightings ++ [(c.snap.rMult, c.clock)] else s.sightings

/-- The memory of the record is the first peak of what was seen. -/
structure Remembers (s : DecayState) : Prop where
  blank : s.sightings = [] → s.manager.pos.peakRMultiple = none
  peak : ∀ peak, FirstPeak s.sightings peak →
    s.manager.pos.peakRMultiple = some peak.1 ∧ s.manager.pos.peakRTs = peak.2

/-- The next call leaves the memory right, and closes a position that has decayed. -/
structure DecayWorks (s : DecayState) (c : TimeExitCall) : Prop where
  remembers : Remembers (decayStep s c)
  closes : ∀ peak, FirstPeak s.sightings peak → c.Decayed peak → c.ClosesByDecay s.manager

/-- The start of a sequence; a memory that the record comes with has been seen. -/
def decayStart (s : ManagerState) : DecayState where
  manager := s
  sightings := s.pos.peakRMultiple.toList.map fun peak => (peak, s.pos.peakRTs)

theorem remembers_decayStart (s : ManagerState) : Remembers (decayStart s) := by
  unfold decayStart
  cases hmemory : s.pos.peakRMultiple with
  | none => exact ⟨fun _ => hmemory, fun peak hpeak => absurd rfl hpeak.ne_nil⟩
  | some peak =>
      refine ⟨fun h => by simp at h, fun peak' hpeak' => ?_⟩
      rw [← (FirstPeak.singleton (peak, s.pos.peakRTs)).unique hpeak']
      exact ⟨hmemory, rfl⟩

/-! ## One call -/

section Memory

variable {clock : ℚ} {snap : Snapshot} {entryTime : ℚ} {pos : PositionRecord}

/-- A losing or an even position has no use for the memory. -/
theorem timeExitReason_idle (hidle : snap.rMult ≤ 0) :
    (timeExitReason clock snap entryTime pos).2 = pos := by
  unfold timeExitReason
  dsimp only
  rcases hidle.lt_or_eq with hlosing | heven
  · rw [if_pos hlosing]
    split_ifs <;> rfl
  · rw [if_neg heven.not_lt, if_pos heven]
    split_ifs <;> rfl

/-- Nor has one whose profit is taken. -/
theorem timeExitReason_quick (hwinning : 0 < snap.rMult)
    (hquick : quickProfit clock snap entryTime = true) :
    (timeExitReason clock snap entryTime pos).2 = pos := by
  unfold timeExitReason
  dsimp only
  rw [if_neg hwinning.not_gt, if_neg hwinning.ne', if_pos (of_decide_eq_true hquick)]

/-- Otherwise a value above the memory is written, and one that is not is compared with it. -/
theorem timeExitReason_seen (hwinning : 0 < snap.rMult)
    (hquick : quickProfit clock snap entryTime = false) :
    timeExitReason clock snap entryTime pos =
      let peak := pos.peakRMultiple.getD snap.rMult
      let hardLimit : Option Text :=
        if snap.maxHoldMins < (clock - entryTime) / 60 then some "time_exit".toList else none
      if peak < snap.rMult then
        (hardLimit, { pos with peakRMultiple := some snap.rMult, peakRTs := clock })
      else if 10 ≤ (clock - pos.peakRTs) / 60 ∧ snap.rMult < peak * (8 / 10) then
        (some "momentum_decay_exit".toList, pos)
      else (hardLimit, pos) := by
  unfold timeExitReason
  dsimp only
  rw [if_neg hwinning.not_gt, if_neg hwinning.ne', if_neg (of_decide_eq_false hquick)]

end Memory

section Call

variable {s : ManagerState} {c : TimeExitCall}

/-- What a call leaves of the memory. -/
theorem TimeExitCall.run_memory (c : TimeExitCall) (s : ManagerState) {entryTime : ℚ}
    (hentry : c.snap.entryTime = some entryTime) :
    (c.run s).state.pos.peakRMultiple =
        (timeExitReason c.clock c.snap entryTime s.pos).2.peakRMultiple ∧
      (c.run s).state.pos.peakRTs =
        (timeExitReason c.clock c.snap entryTime s.pos).2.peakRTs := by
  unfold TimeExitCall.run manageTimeExit
  rw [hentry]
  dsimp only
  cases hreason : (timeExitReason c.clock c.snap entryTime s.pos).1 with
  | none => exact ⟨rfl, rfl⟩
  | some reason =>
      rcases forceClosePosition_pos c.close reason
        { s with pos := (timeExitReason c.clock c.snap entryTime s.pos).2 } with
        ⟨price, text, retryAt, hpos⟩
      rw [Flow.state_ret, hpos]
      exact ⟨rfl, rfl⟩

/-- What a call sees. -/
theorem TimeExitCall.sees_iff :
    c.sees = true ↔ ∃ entryTime, c.snap.entryTime = some entryTime ∧ 0 < c.snap.rMult ∧
      quickProfit c.clock c.snap entryTime = false := by
  unfold sees
  cases c.snap.entryTime <;> simp

/-- A call that sees nothing, or no more than is remembered, leaves the memory alone. -/
theorem TimeExitCall.run_memory_of_le
    (h : c.sees = true → c.snap.rMult ≤ s.pos.peakRMultiple.getD c.snap.rMult) :
    (c.run s).state.pos.peakRMultiple = s.pos.peakRMultiple ∧
      (c.run s).state.pos.peakRTs = s.pos.peakRTs := by
  cases hentry : c.snap.entryTime with
  | none =>
      have hsame : c.run s = .next s := by
        unfold TimeExitCall.run manageTimeExit
        rw [hentry]
      rw [hsame]
      exact ⟨rfl, rfl⟩
  | some entryTime =>
      have hkept : (timeExitReason c.clock c.snap entryTime s.pos).2 = s.pos := by
        rcases le_or_gt c.snap.rMult 0 with hidle | hwinning
        · exact timeExitReason_idle hidle
        · cases hquick : quickProfit c.clock c.snap entryTime with
          | true => exact timeExitReason_quick hwinning hquick
          | false =>
              have hle := h (sees_iff.2 ⟨entryTime, hentry, hwinning, hquick⟩)
              rw [timeExitReason_seen hwinning hquick]
              dsimp only
              rw [if_neg hle.not_gt]
              split_ifs <;> rfl
      have hmemory := c.run_memory s hentry
      rw [hkept] at hmemory
      exact hmemory

/-- A call that sees more than is remembered writes the memory. -/
theorem TimeExitCall.run_memory_of_lt (hsees : c.sees = true) {peak : ℚ}
    (hpeak : s.pos.peakRMultiple = some peak) (hlt : peak < c.snap.rMult) :
    (c.run s).state.pos.peakRMultiple = some c.snap.rMult ∧
      (c.run s).state.pos.peakRTs = c.clock := by
  rcases sees_iff.1 hsees with ⟨entryTime, hentry, hwinning, hquick⟩
  have hmemory := c.run_memory s hentry
  rw [timeExitReason_seen hwinning hquick, hpeak, Option.getD_some] at hmemory
  dsimp only at hmemory
  rw [if_pos hlt] at hmemory
  exact hmemory

/-- A call that sees a decayed R-multiple closes the position. -/
theorem TimeExitCall.closesByDecay {peak : ℚ × ℚ} (hdecayed : c.Decayed peak)
    (hpeak : s.pos.peakRMultiple = some peak.1) (hts : s.pos.peakRTs = peak.2) :
    c.ClosesByDecay s := by
  rcases hdecayed with ⟨hsees, hstale, hlow⟩
  rcases sees_iff.1 hsees with ⟨entryTime, hentry, hwinning, hquick⟩
  have hbelow : ¬ peak.1 < c.snap.rMult := by linarith
  have hexit : timeExitReason c.clock c.snap entryTime s.pos =
      (some "momentum_decay_exit".toList, s.pos) := by
    rw [timeExitReason_seen hwinning hquick, hpeak, Option.getD_some, hts]
    dsimp only
    rw [if_neg hbelow, if_pos ⟨hstale, hlow⟩]
  unfold TimeExitCall.ClosesByDecay TimeExitCall.run manageTimeExit
  rw [hentry]
  dsimp only
  rw [hexit]

end Call

/-! ## Sequences -/

section Steps

variable {s : DecayState} {c : TimeExitCall}

/-- With a memory, one call does what it is meant to do, and leaves one. -/
theorem decayWorks_of_recorded (h : Remembers s) {peak : ℚ × ℚ}
    (hpeak : FirstPeak s.sightings peak) :
    DecayWorks s c ∧ ∃ peak', FirstPeak (decayStep s c).sightings peak' := by
  rcases h.peak peak hpeak with ⟨hmemory, hts⟩
  have hcloses : ∀ peak', FirstPeak s.sightings peak' → c.Decayed peak' →
      c.ClosesByDecay s.manager := by
    intro peak' hpeak' hdecayed
    rw [← hpeak.unique hpeak'] at hdecayed
    exact c.closesByDecay hdecayed hmemory hts
  have hknown : ∀ peak', FirstPeak (decayStep s c).sightings peak' →
      (decayStep s c).manager.pos.peakRMultiple = some peak'.1 →
      (decayStep s c).manager.pos.peakRTs = peak'.2 → Remembers (decayStep s c) := by
    intro peak' hpeak' hwritten hwrittenTs
    refine ⟨fun hnone => absurd hnone hpeak'.ne_nil, fun other hother => ?_⟩
    rw [← hpeak'.unique hother]
    exact ⟨hwritten, hwrittenTs⟩
  by_cases hlt : c.sees = true ∧ peak.1 < c.snap.rMult
  · have hseen : (decayStep s c).sightings = s.sightings ++ [(c.snap.rMult, c.clock)] :=
      if_pos hlt.1
    have hnext : FirstPeak (decayStep s c).sightings (c.snap.rMult, c.clock) := by
      rw [hseen]
      exact hpeak.append_of_lt hlt.2
    rcases c.run_memory_of_lt hlt.1 hmemory hlt.2 with ⟨hwritten, hwrittenTs⟩
    exact ⟨⟨hknown _ hnext hwritten hwrittenTs, hcloses⟩, _, hnext⟩
  · have hle : c.sees = true → c.snap.rMult ≤ peak.1 := fun hsees =>
      le_of_not_gt fun hgt => hlt ⟨hsees, hgt⟩
    have hnext : FirstPeak (decayStep s c).sightings peak := by
      unfold decayStep
      dsimp only
      split_ifs with hsees
      · exact hpeak.append_of_le (hle hsees)
      · exact hpeak
    rcases c.run_memory_of_le (s := s.manager) (fun hsees => by
      rw [hmemory]
      exact hle hsees) with ⟨hkept, hkeptTs⟩
    exact ⟨⟨hknown _ hnext (hkept.trans hmemory) (hkeptTs.trans hts), hcloses⟩, _, hnext⟩

/-- Without one, a call that sees nothing changes nothing. -/
theorem decayWorks_of_blind (h : Remembers s) (hblind : c.sees = false) :
    DecayWorks s c ∧ Remembers (decayStep s c) ∧ (decayStep s c).sightings = s.sightings := by
  have hseen : (decayStep s c).sightings = s.sightings := by simp [decayStep, hblind]
  have hblind' : c.sees ≠ true := by simp [hblind]
  rcases c.run_memory_of_le (s := s.manager) (fun hsees => absurd hsees hblind') with
    ⟨hkept, hkeptTs⟩
  have hnext : Remembers (decayStep s c) := by
    refine ⟨fun hnone => ?_, fun peak hpeak => ?_⟩
    · exact hkept.trans (h.blank (hseen ▸ hnone))
    · rw [hseen] at hpeak
      exact ⟨hkept.trans (h.peak peak hpeak).1, hkeptTs.trans (h.peak peak hpeak).2⟩
  exact ⟨⟨hnext, fun peak _ hdecayed => absurd hdecayed.1 hblind'⟩, hnext, hseen⟩

/-- The first positive R-multiple is not remembered. -/
theorem not_decayWorks_of_first (h : Remembers s) (hnone : s.sightings = [])
    (hsees : c.sees = true) : ¬ DecayWorks s c := by
  intro hworks
  have hmemory := h.blank hnone
  have hkept := (c.run_memory_of_le (s := s.manager) fun _ => by rw [hmemory]; rfl).1
  have hseen : (decayStep s c).sightings = [(c.snap.rMult, c.clock)] := by
    simp [decayStep, hsees, hnone]
  have hpeak := (hworks.remembers.peak (c.snap.rMult, c.clock) (hseen ▸ FirstPeak.singleton _)).1
  have hlost : (decayStep s c).manager.pos.peakRMultiple = none := hkept.trans hmemory
  rw [hlost] at hpeak
  cases hpeak

/-- Sequences of calls from a state whose memory is right. -/
theorem admits_decayWorks_iff (h : Remembers s)
    (hstart : s.sightings = [] ∨ ∃ peak, FirstPeak s.sightings peak) (calls : List TimeExitCall) :
    Admits decayStep DecayWorks s calls ↔ s.sightings ≠ [] ∨ ∀ c ∈ calls, c.sees = false := by
  induction calls generalizing s with
  | nil => simp [Admits]
  | cons c rest ih =>
      rw [Admits]
      rcases hstart with hnone | ⟨peak, hpeak⟩
      · cases hsees : c.sees with
        | true => simp [not_decayWorks_of_first h hnone hsees, hnone, hsees]
        | false =>
            rcases decayWorks_of_blind h hsees with ⟨hworks, hnext, hseen⟩
            rw [ih hnext (Or.inl (hseen.trans hnone)), hseen]
            simp [hworks, hnone, hsees]
      · rcases decayWorks_of_recorded (c := c) h hpeak with ⟨hworks, hnext⟩
        have hrest := ih hworks.remembers (Or.inr hnext)
        rcases hnext with ⟨peak', hpeak'⟩
        rw [hrest]
        simp [hworks, hpeak.ne_nil, hpeak'.ne_nil]

end Steps

/-- A sequence of calls keeps the memory and closes what has decayed exactly where the record
comes with a memory, or no call sees a positive R-multiple. -/
theorem decayWorks_iff (s : ManagerState) (calls : List TimeExitCall) :
    Admits decayStep DecayWorks (decayStart s) calls ↔
      s.pos.peakRMultiple ≠ none ∨ ∀ c ∈ calls, c.sees = false := by
  have hstart : (decayStart s).sightings = [] ∨
      ∃ peak, FirstPeak (decayStart s).sightings peak := by
    unfold decayStart
    cases s.pos.peakRMultiple with
    | none => exact Or.inl rfl
    | some peak => exact Or.inr ⟨_, FirstPeak.singleton _⟩
  have hnone : (decayStart s).sightings ≠ [] ↔ s.pos.peakRMultiple ≠ none := by
    unfold decayStart
    cases s.pos.peakRMultiple <;> simp
  rw [admits_decayWorks_iff (remembers_decayStart s) hstart, hnone]

/-- A new long of one unit, entered at 100 with a risk of 2. -/
def newLong : ManagerState :=
  .ofRecord (.opened "BTC/USDT".toList .LONG 100 1 (some 2) none (some "RANGE".toList) 2 0)

/-- A call for it at a price. -/
def callAt (clock price : ℚ) : TimeExitCall where
  clock := clock
  snap := snapshot { newLong.pos with livePrice := some price }
  close := acceptedClose 0

/-- Its peak of 2R is not remembered, and half an R eleven minutes later does not close it. -/
theorem newLong_peak_forgotten :
    ¬ Admits decayStep DecayWorks (decayStart newLong) [callAt 600 104, callAt 1260 101] ∧
      ¬ (callAt 1260 101).ClosesByDecay ((callAt 600 104).run newLong).state := by
  have hsees : (callAt 600 104).sees = true := by decide +kernel
  refine ⟨fun h => ?_, ?_⟩
  · exact not_decayWorks_of_first (remembers_decayStart newLong) rfl hsees h.1
  · unfold TimeExitCall.ClosesByDecay
    decide +kernel

end Manager
end Karsa
