import Karsa.Consumer.LiveSignal
import Karsa.Execution.Shadow.Records

/-!
# Risk - Profiles of the market regimes

`DynamicRiskGate` looks up the risk profile of a regime: how large a position may be, how its
stop and its target are placed, how long it is held and whether its entry must be post-only.
A regime without a profile gets that of CHOP.

Main results:

- Theorem `getProfile_size_le_one`: no profile enlarges a position.
-/

namespace Karsa
namespace Risk

open Live (MarketRegime)
open Shadow (RiskProfile rangeProfile)

/-- The profile of both trends. -/
def trendProfile (regime : Text) : RiskProfile where
  regime := regime
  sizeMultiplier := 1
  takeProfitType := "TRAILING".toList
  stopLossType := "WIDE".toList
  maxHoldTimeMins := 2880
  usePostOnly := false
  trailAtrMult := 3
  slAtrBuffer := 3 / 2

/-- The profile of both hyper regimes. -/
def hyperProfile (regime : Text) : RiskProfile where
  regime := regime
  sizeMultiplier := 1 / 2
  takeProfitType := "SCALP".toList
  stopLossType := "MICRO".toList
  maxHoldTimeMins := 15
  usePostOnly := false
  trailAtrMult := 1 / 2
  slAtrBuffer := 1 / 2

/-- The profile of CHOP. -/
def chopProfile : RiskProfile where
  regime := "CHOP".toList
  sizeMultiplier := 3 / 10
  takeProfitType := "SCALP".toList
  stopLossType := "TIGHT".toList
  maxHoldTimeMins := 30
  usePostOnly := true
  trailAtrMult := 3 / 2
  slAtrBuffer := 3 / 2

/-- `_PROFILES.get(regime)`, with CHOP for a regime that has none. -/
def presetProfile : MarketRegime → RiskProfile
  | .TREND_BULL => trendProfile "TREND_BULL".toList
  | .TREND_BEAR => trendProfile "TREND_BEAR".toList
  | .HYPER_BULL => hyperProfile "HYPER_BULL".toList
  | .HYPER_BEAR => hyperProfile "HYPER_BEAR".toList
  | .RANGE => rangeProfile
  | .CHOP | .SNIPER => chopProfile

/-- The presets neither enlarge a position nor shut it. -/
theorem presetProfile_size_le_one (regime : MarketRegime) :
    0 < (presetProfile regime).sizeMultiplier ∧ (presetProfile regime).sizeMultiplier ≤ 1 := by
  cases regime <;> decide +kernel

/-- `DynamicRiskGate`. -/
structure DynamicRiskGate where
  overrideSlBuffer : Option ℚ
  overrideTrailMult : Option ℚ
deriving Repr, DecidableEq

namespace DynamicRiskGate

/-- The gate without overrides. -/
def default : DynamicRiskGate :=
  ⟨none, none⟩

/-- `get_profile`. -/
def getProfile (gate : DynamicRiskGate) (regime : MarketRegime) : RiskProfile :=
  let profile := presetProfile regime
  { profile with
    slAtrBuffer := gate.overrideSlBuffer.getD profile.slAtrBuffer
    trailAtrMult := gate.overrideTrailMult.getD profile.trailAtrMult }

/-- Overrides leave the size alone. -/
theorem getProfile_size_le_one (gate : DynamicRiskGate) (regime : MarketRegime) :
    0 < (gate.getProfile regime).sizeMultiplier ∧ (gate.getProfile regime).sizeMultiplier ≤ 1 :=
  presetProfile_size_le_one regime

end DynamicRiskGate
end Risk
end Karsa
