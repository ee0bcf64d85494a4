import Karsa.Execution.Shadow.Monitor

/-!
# Shadow trading - R-multiples of saved positions

The monitor measures profit in units of the initial risk, the distance between entry and
stop.  It takes that distance from the key `sl_pct` of the stored risk profile, with a
default of zero; `RiskProfile.to_json` writes no such key.

Main results:

- Theorem `initialRisk_saved`: the initial risk of every saved position is zero, however often
  it has been checked.
- Theorem `rMultiple_saved_iff`: its R-multiple is right at the entry price only.
-/

namespace Karsa
namespace Shadow

/-- The R-multiple of a price for a given entry and stop. -/
def stopRMultiple (side : Side) (entry stop price : ℚ) : ℚ :=
  match side with
  | .LONG => (price - entry) / |entry - stop|
  | .SHORT => (entry - price) / |entry - stop|

/-- It is zero at the entry price only. -/
theorem stopRMultiple_eq_zero {side : Side} {entry stop : ℚ} (hne : entry ≠ stop) (price : ℚ) :
    stopRMultiple side entry stop price = 0 ↔ price = entry := by
  have hrisk : |entry - stop| ≠ 0 := abs_ne_zero.mpr (sub_ne_zero.mpr hne)
  cases side with
  | LONG => rw [stopRMultiple, div_eq_zero_iff, or_iff_left hrisk, sub_eq_zero]
  | SHORT => rw [stopRMultiple, div_eq_zero_iff, or_iff_left hrisk, sub_eq_zero, eq_comm]

/-- The encoder writes no `sl_pct`. -/
theorem toJson_slPct (p : RiskProfile) : p.toJson.get "sl_pct".toList = none := by
  rfl

section Saved

variable {settings : ShadowSettings} {a : EntryAnswers} {signal : ShadowSignal}
  {record : ShadowRecord}

/-- Every record of a saved position agrees with the one saved. -/
theorem stored_entryPart (hsaved : onSignalShadow settings a signal = some record)
    (checks : List CheckAnswers) {current : ShadowRecord}
    (hcurrent : (run (check settings) (.ofRecord record) checks).stored = some current) :
    current.entryPart = record.entryPart := by
  have hopen : record.entryPart.status ≠ some "PENDING_VIRTUAL_FILL".toList := by
    rcases onSignalShadow_cases hsaved with ⟨order, -, rfl⟩
    rintro ⟨⟩
  exact ((EntryKept.ofRecord record).run hopen settings checks).stored current hcurrent

/-- The initial risk of a saved position is zero at every check. -/
theorem initialRisk_saved (hsaved : onSignalShadow settings a signal = some record)
    (checks : List CheckAnswers) {current : ShadowRecord}
    (hcurrent : (run (check settings) (.ofRecord record) checks).stored = some current) :
    initialRisk current = 0 := by
  have hprofile : current.entryPart.riskProfile = record.entryPart.riskProfile :=
    congrArg ShadowRecord.riskProfile (stored_entryPart hsaved checks hcurrent)
  rcases onSignalShadow_cases hsaved with ⟨order, -, rfl⟩
  change current.riskProfile = some signal.riskProfile.toJson at hprofile
  unfold initialRisk
  rw [hprofile]
  dsimp only
  rw [toJson_slPct]
  exact mul_zero _

/-- At every check of a saved position, the R-multiple is the one that entry and stop define
exactly when the price is the entry price. -/
theorem rMultiple_saved_iff (hsaved : onSignalShadow settings a signal = some record)
    (hne : record.entryPrice ≠ signal.slPrice) (checks : List CheckAnswers)
    {current : ShadowRecord}
    (hcurrent : (run (check settings) (.ofRecord record) checks).stored = some current)
    (mid : ℚ) :
    rMultiple current mid = stopRMultiple record.side record.entryPrice signal.slPrice mid ↔
      mid = record.entryPrice := by
  have hzero : rMultiple current mid = 0 := by
    unfold rMultiple calculateRMultiple
    rw [initialRisk_saved hsaved checks hcurrent, if_pos (le_refl 0)]
  rw [hzero, eq_comm, stopRMultiple_eq_zero hne]

end Saved

/-- A long position in a range, filled at 100.05 with its stop at 98, behind two checks. -/
theorem rMultiple_saved_iff_checked :
    ∃ current, (run (check defaultSettings) (.ofRecord rangeRecord)
        [checkAt (201 / 2), checkAt 101]).stored = some current ∧
      ¬ rMultiple current 102 =
        stopRMultiple rangeRecord.side rangeRecord.entryPrice rangeSignal.slPrice 102 := by
  have hsaved : onSignalShadow defaultSettings quotedAt100 rangeSignal = some rangeRecord := by
    decide +kernel
  have hstored : (run (check defaultSettings) (.ofRecord rangeRecord)
      [checkAt (201 / 2), checkAt 101]).stored.isSome = true := by decide +kernel
  rcases Option.isSome_iff_exists.mp hstored with ⟨current, hcurrent⟩
  refine ⟨current, hcurrent, ?_⟩
  rw [rMultiple_saved_iff hsaved (by decide +kernel) _ hcurrent 102]
  decide +kernel

/-- At 104.15 it is two units of risk in profit, and counts as none. -/
theorem rMultiple_saved_zero :
    ¬ rMultiple rangeRecord (10415 / 100) = stopRMultiple rangeRecord.side
      rangeRecord.entryPrice rangeSignal.slPrice (10415 / 100) := by
  decide +kernel

end Shadow
end Karsa
