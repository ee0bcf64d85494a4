import Karsa.Execution.Bybit.AccountReads

/-!
# Position records

A position lives in Redis as one JSON dictionary under a key made of its symbol
and its canonical side.  This module fixes the dictionary's keys that the
position manager reads, with the defaults under which they are read.

Every numeric key holds a decimal text.  Keys whose absence or blank text reads
as zero are plain rationals; the average true range is the one key that is read
both as a possible blank and strictly, so it stays a `Numeral`.  The stop is
stored twice, as `current_sl` and `stop_loss`; no writer sets only one of them.

Main results:

- Theorem `normalizeSide_word`: canonical side words are fixed points of the
  normalization.
-/

namespace Karsa

open Bybit

/-! ## Sides -/

/-- Canonical side of a stored position. -/
inductive Side where
  | LONG
  | SHORT
deriving Repr, DecidableEq

namespace Side

/-- The canonical word. -/
def word : Side → Text
  | LONG => "LONG".toList
  | SHORT => "SHORT".toList

/-- `"buy" if side == "LONG" else "sell"`. -/
def apiSide : Side → OrderSide
  | LONG => .buy
  | SHORT => .sell

/-- `"LONG" if p.get("side") == "buy" else "SHORT"`. -/
def ofOrderSide : OrderSide → Side
  | .buy => LONG
  | .sell => SHORT

@[simp] theorem ofOrderSide_apiSide (side : Side) : ofOrderSide side.apiSide = side := by
  cases side <;> rfl

end Side

/-- `_normalize_side`: unknown words fall back to `LONG`. -/
def normalizeSide (word : Text) : Side :=
  if word = "buy".toList ∨ word = "Buy".toList ∨ word = "LONG".toList then .LONG
  else if word = "sell".toList ∨ word = "Sell".toList ∨ word = "SHORT".toList then .SHORT
  else .LONG

/-- Canonical words are fixed points of the normalization. -/
@[simp] theorem normalizeSide_word (side : Side) : normalizeSide side.word = side := by
  cases side <;> decide

/-! ## The dictionary -/

/-- Value of `tranche_state`. -/
inductive TrancheState where
  | INITIAL
  | MOON_BAG_ACTIVE
deriving Repr, DecidableEq

/-- Value of `trailing_limit_state`. -/
inductive TrailingLimitState where
  | INACTIVE
  | TRAILING_LIMIT_ACTIVE
  | FILLED
deriving Repr, DecidableEq

/-- A stored position; `none` is an absent key, times are in seconds. -/
structure PositionRecord where
  symbol : Text
  side : Side
  entryPrice : ℚ
  amount : ℚ
  initialRiskPerUnit : ℚ
  atr : Option (Numeral ℚ)
  entryRegime : Option Text
  regime : Option Text
  currentSl : ℚ
  takeProfit : ℚ
  livePrice : Option ℚ
  lastTickPrice : Option ℚ
  lastWickGuardTs : ℚ
  peakPrice : Option ℚ
  tpPlaced : Bool
  scaleTier : Nat
  scaledOut : Bool
  proactiveScaleOutExecuted : Bool
  movedToBreakeven : Bool
  movedToHalfBe : Bool
  trancheState : TrancheState
  highestSincePartial : ℚ
  trailingLimitState : TrailingLimitState
  trailingLimitPlacedAt : Option ℚ
  trailingLimitOrderId : Text
  trailingLimitPrice : ℚ
  peakRMultiple : Option ℚ
  peakRTs : ℚ
  entryTime : Option ℚ
  enteredAt : Option ℚ
  maxHoldTimeMins : ℤ
  forceCloseRetryAt : ℚ
  exitPrice : Option ℚ
  exitReason : Option Text
deriving Repr, DecidableEq

namespace PositionRecord

/-- What `PositionStore.save` writes: blanks for unknown values, every flag
down, the first stop not yet recorded. -/
def opened (symbol : Text) (side : Side) (entryPrice amount : ℚ) (atr : Option ℚ)
    (regime entryRegime : Option Text) (initialRiskPerUnit : ℚ) (now : ℚ) :
    PositionRecord where
  symbol := symbol
  side := side
  entryPrice := entryPrice
  amount := amount
  initialRiskPerUnit := initialRiskPerUnit
  atr := match atr with
    | some a => if 0 < a then some (.value a) else some .malformed
    | none => some .malformed
  entryRegime := some ((entryRegime.filter (· ≠ [])).getD (regime.getD []))
  regime := some (regime.getD [])
  currentSl := 0
  takeProfit := 0
  livePrice := none
  lastTickPrice := none
  lastWickGuardTs := 0
  peakPrice := some entryPrice
  tpPlaced := false
  scaleTier := 0
  scaledOut := false
  proactiveScaleOutExecuted := false
  movedToBreakeven := false
  movedToHalfBe := false
  trancheState := .INITIAL
  highestSincePartial := 0
  trailingLimitState := .INACTIVE
  trailingLimitPlacedAt := none
  trailingLimitOrderId := []
  trailingLimitPrice := 0
  peakRMultiple := none
  peakRTs := 0
  entryTime := some now
  enteredAt := some now
  maxHoldTimeMins := 1440
  forceCloseRetryAt := 0
  exitPrice := none
  exitReason := none

/-- `Decimal(str(pos.get("atr", "0")))`; a blank raises. -/
def strictAtr (pos : PositionRecord) : Option ℚ :=
  (pos.atr.getD (.value 0)).decimal

/-- Set `current_sl` and `stop_loss`. -/
def recordStop (pos : PositionRecord) (stop : ℚ) : PositionRecord :=
  { pos with currentSl := stop }

end PositionRecord
end Karsa
