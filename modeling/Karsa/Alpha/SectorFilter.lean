import Karsa.Core.PositionRecord
import Karsa.Foundations.Dicts
import Karsa.Foundations.Selection
import Mathlib.Algebra.Order.Field.Rat

/-!
# Alpha - Sector rotation

`SectorRotationFilter` ranks the sectors by their average return.  Longs are refused in the
cold sectors and shorts in the hot ones, and the score of a direction gets a factor by the
rank of its sector.  With fewer than three sectors there is no ranking.

The filter keeps the returns of the last update only; `evaluate` updates it with the return
of its own symbol.

Main results:

- Theorem `length_updateSectorReturns_singleton`: such an update leaves one sector at most.
- Theorem `getSectorScore_of_few`: the factor is one then.
-/

namespace Karsa
namespace Sectors

/-- Sectors that are not ranked. -/
def unranked (sector : Text) : Bool :=
  sector = "MAJORS".toList || sector = "UNKNOWN".toList

section Filter

variable (getSector : Text → Text)

/-- `update_sector_returns`: the average return of each sector. -/
def updateSectorReturns (symbolReturns : Dict Text ℚ) : Dict Text ℚ :=
  (Dict.group ((symbolReturns.map fun item => (getSector item.1, item.2)).filter fun item =>
      !unranked item.1)).map fun group => (group.1, group.2.sum / group.2.length)

/-- `sorted(self._sector_returns.items(), key=lambda x: x[1], reverse=True)`. -/
def sortedSectors (returns : Dict Text ℚ) : List (Text × ℚ) :=
  ranked Prod.snd returns

/-- The percentile of a sector, where there is a ranking and the sector is in it. -/
def percentile (returns : Dict Text ℚ) (sector : Text) : Option ℚ :=
  if unranked sector ∨ returns.length < 3 then none
  else
    ((sortedSectors returns).findIdx? fun item => item.1 = sector).map fun rank =>
      1 - rank / (returns.length - 1)

/-- `check_sector_alignment(symbol, direction)["approved"]`. -/
def approved (returns : Dict Text ℚ) (symbol : Text) (direction : Side) : Bool :=
  match percentile returns (getSector symbol), direction with
  | none, _ => true
  | some p, .LONG => !decide (p < 3 / 10)
  | some p, .SHORT => !decide (7 / 10 < p)

/-- `get_sector_score`. -/
def getSectorScore (returns : Dict Text ℚ) (symbol : Text) (direction : Side) : ℚ :=
  match percentile returns (getSector symbol), direction with
  | none, _ => 1
  | some p, .LONG =>
      if 8 / 10 ≤ p then 110 / 100
      else if 6 / 10 ≤ p then 105 / 100
      else if p ≤ 2 / 10 then 90 / 100
      else if p ≤ 4 / 10 then 95 / 100
      else 1
  | some p, .SHORT =>
      if p ≤ 2 / 10 then 110 / 100
      else if p ≤ 4 / 10 then 105 / 100
      else if 8 / 10 ≤ p then 90 / 100
      else if 6 / 10 ≤ p then 95 / 100
      else 1

/-- An update with one symbol leaves one sector at most. -/
theorem length_updateSectorReturns_singleton (symbol : Text) (r : ℚ) :
    (updateSectorReturns getSector [(symbol, r)]).length ≤ 1 := by
  unfold updateSectorReturns
  rw [List.length_map]
  cases h : !unranked (getSector symbol) with
  | true => simp [h, Dict.group, Dict.push]
  | false => simp [h, Dict.group]

/-- With fewer than three sectors there is no percentile. -/
theorem percentile_of_few {returns : Dict Text ℚ} (hfew : returns.length < 3) (sector : Text) :
    percentile returns sector = none :=
  if_pos (Or.inr hfew)

/-- The factor is one then. -/
theorem getSectorScore_of_few {returns : Dict Text ℚ} (hfew : returns.length < 3)
    (symbol : Text) (direction : Side) :
    getSectorScore getSector returns symbol direction = 1 := by
  unfold getSectorScore
  rw [percentile_of_few hfew]

end Filter
end Sectors
end Karsa
