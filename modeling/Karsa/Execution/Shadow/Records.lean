import Karsa.Core.PositionRecord
import Karsa.Foundations.Decimal
import Karsa.Foundations.Dicts
import Karsa.Foundations.PythonNumbers

/-!
# Shadow trading - Virtual entries and their records

`_on_signal_shadow` executes a signal virtually and saves what it got: `ShadowExecutor`
answers with an order whose status, fee type and time of submission say whether it is a
resting limit order, and `PositionStore.save` writes the dictionary the monitor works on.
Between the two stands the call of `save`, which has parameters for some of this only.

Main results:

- Definition `execute`: the order a signal gets.
- Definition `onSignalShadow`: the record it leaves in Redis.
- Theorem `onSignalShadow_cases`: that record in terms of the order.
-/

namespace Karsa
namespace Shadow

/-! ## Risk profiles -/

/-- A value of a decoded risk profile: a text that `Decimal` reads, another text, a number
or a flag. -/
inductive ProfileValue where
  | decimal (x : ℚ)
  | text (t : Text)
  | number (x : ℚ)
  | flag (b : Bool)
deriving Repr, DecidableEq

/-- `Decimal(str(value))`; `none` where it raises. -/
def ProfileValue.toDecimal : ProfileValue → Option ℚ
  | decimal x | number x => some x
  | text _ | flag _ => none

/-- The value as a number of minutes; comparing a text with a number raises. -/
def ProfileValue.minutes : ProfileValue → Option ℚ
  | number x => some x
  | flag b => some (if b then 1 else 0)
  | decimal _ | text _ => none

/-- `RiskProfile`. -/
structure RiskProfile where
  regime : Text
  sizeMultiplier : ℚ
  takeProfitType : Text
  stopLossType : Text
  maxHoldTimeMins : ℤ
  usePostOnly : Bool
  trailAtrMult : ℚ
  slAtrBuffer : ℚ
deriving Repr, DecidableEq

/-- `RiskProfile.to_json`, as `json.loads` decodes it. -/
def RiskProfile.toJson (p : RiskProfile) : Dict Text ProfileValue :=
  [("regime".toList, .text p.regime),
    ("size_multiplier".toList, .decimal p.sizeMultiplier),
    ("take_profit_type".toList, .text p.takeProfitType),
    ("stop_loss_type".toList, .text p.stopLossType),
    ("max_hold_time_mins".toList, .number p.maxHoldTimeMins),
    ("use_post_only".toList, .flag p.usePostOnly),
    ("trail_atr_mult".toList, .decimal p.trailAtrMult),
    ("sl_atr_buffer".toList, .decimal p.slAtrBuffer)]

/-! ## Stored positions -/

/-- A shadow position as it lies in Redis; `none` is an absent key, times are in seconds.
`riskProfile` is `risk_profile_json` decoded, `none` where that fails. -/
structure ShadowRecord where
  symbol : Text
  side : Side
  entryPrice : ℚ
  amount : ℚ
  peakPrice : Option ℚ
  atr : Option (Numeral ℚ)
  regime : Text
  status : Option Text
  enteredAt : Option ℚ
  riskProfile : Option (Dict Text ProfileValue)
  movedToBreakeven : Bool
  virtualSl : Option ℚ
  virtualTp : Option ℚ
  worstPriceSeen : Option ℚ
  lastTickPrice : Option ℚ
  pendingSince : Option ℚ
  lastFundingTs : Option ℚ
  totalFundingFees : ℚ
  feeType : Option Text
deriving Repr, DecidableEq

/-- `ShadowPositionStore.save`, inherited from `PositionStore`. -/
def save (symbol : Text) (side : Side) (entryPrice amount : ℚ) (atr : Option ℚ) (regime : Text)
    (riskProfile : Option (Dict Text ProfileValue)) (virtualSl virtualTp : Option ℚ)
    (now : ℚ) : ShadowRecord where
  symbol := symbol
  side := side
  entryPrice := entryPrice
  amount := amount
  peakPrice := some entryPrice
  atr := match atr with
    | some a => if 0 < a then some (.value a) else some .malformed
    | none => some .malformed
  regime := regime
  status := none
  enteredAt := some now
  riskProfile := riskProfile
  movedToBreakeven := false
  virtualSl := virtualSl
  virtualTp := virtualTp
  worstPriceSeen := none
  lastTickPrice := none
  pendingSince := none
  lastFundingTs := none
  totalFundingFees := 0
  feeType := none

/-! ## Virtual execution -/

/-- The settings of shadow trading. -/
structure ShadowSettings where
  slippagePct : ℚ
  takerFeePct : ℚ
  makerFeePct : ℚ
deriving Repr, DecidableEq

/-- `_pick_fee`. -/
def pickFee (settings : ShadowSettings) (isPostOnly : Bool) : ℚ :=
  if isPostOnly then settings.makerFeePct else settings.takerFeePct

/-- `quantize(Decimal("0.00000001"), rounding=ROUND_DOWN)`. -/
def quantizeDown (x : ℚ) : ℚ :=
  (PyFloat.truncate (x * 100000000) : ℚ) / 100000000

/-- `_apply_slippage`. -/
def applySlippage (settings : ShadowSettings) (price : ℚ) : Side → ℚ
  | .LONG => quantizeDown (price * (1 + settings.slippagePct))
  | .SHORT => quantizeDown (price * (1 - settings.slippagePct))

/-- What an entry meets: the price the caches hold, the best bid and ask, the clock and the
fresh ids. -/
structure EntryAnswers where
  quoted : Option ℚ
  book : Option (ℚ × ℚ)
  now : ℚ
  saveClock : ℚ
  orderId : Text
  slOrderId : Text

/-- `_get_mid_price`; `none` stands for the `ValueError`. -/
def getMidPrice (quoted : Option ℚ) (fallbackPrice : Option ℚ) : Option ℚ :=
  quoted.or (fallbackPrice.filter (0 < ·))

/-- `_compute_dynamic_slippage`: half the spread, between 2 and 15 basis points. -/
def computeDynamicSlippage (settings : ShadowSettings) (book : Option (ℚ × ℚ)) (price : ℚ)
    (side : Side) : ℚ :=
  match book with
  | none => applySlippage settings price side
  | some (bid, ask) =>
      if 0 < bid ∧ bid < ask then
        let mid := (bid + ask) / 2
        let spreadBps := (ask - bid) / mid * 10000
        let slipMult := max 2 (min 15 (spreadBps / 2)) / 10000
        match side with
        | .LONG => quantize (1 / 100000000) (price * (1 + slipMult))
        | .SHORT => quantize (1 / 100000000) (price * (1 - slipMult))
      else applySlippage settings price side

/-- The order `execute` returns. -/
structure ShadowOrder where
  id : Text
  symbol : Text
  side : Side
  price : ℚ
  amount : ℚ
  status : Text
  slOrderId : Text
  fee : ℚ
  feeType : Text
  pendingSince : Option ℚ
deriving Repr, DecidableEq

/-- `ShadowExecutor.execute`: nothing for a non-positive amount, an exception without a
price. -/
def execute (settings : ShadowSettings) (a : EntryAnswers) (symbol : Text) (side : Side)
    (amount price : ℚ) (isPostOnly : Bool) : Except Text (Option ShadowOrder) :=
  if amount ≤ 0 then .ok none
  else match getMidPrice a.quoted (some price) with
    | none => .error "ValueError".toList
    | some mid =>
        let fillPrice := computeDynamicSlippage settings a.book mid side
        .ok (some {
          id := a.orderId
          symbol := symbol
          side := side
          price := fillPrice
          amount := amount
          status := if isPostOnly then "PENDING_VIRTUAL_FILL".toList else "filled".toList
          slOrderId := a.slOrderId
          fee := quantize (1 / 100) (fillPrice * amount * pickFee settings isPostOnly)
          feeType := if isPostOnly then "maker".toList else "taker".toList
          pendingSince := if isPostOnly then some a.now else none })

/-- Fields of a `TradeSignal` that the shadow handler executes and saves. -/
structure ShadowSignal where
  symbol : Text
  direction : Side
  regime : Text
  riskProfile : RiskProfile
  entryPrice : ℚ
  slPrice : ℚ
  tpPrice : Option ℚ
  amount : ℚ
  atr : ℚ
deriving Repr, DecidableEq

/-- `str(x) if x else None`. -/
def orNone (x : ℚ) : Option ℚ :=
  if x = 0 then none else some x

/-- The record `_on_signal_shadow` saves for an order. -/
def savedRecord (signal : ShadowSignal) (order : ShadowOrder) (now : ℚ) : ShadowRecord :=
  save signal.symbol signal.direction order.price signal.amount (some signal.atr) signal.regime
    (some signal.riskProfile.toJson) (orNone signal.slPrice) (signal.tpPrice.bind orNone) now

/-- `_on_signal_shadow` behind its gates: the record under the key, if one is written. -/
def onSignalShadow (settings : ShadowSettings) (a : EntryAnswers) (signal : ShadowSignal) :
    Option ShadowRecord :=
  match execute settings a signal.symbol signal.direction signal.amount signal.entryPrice
      signal.riskProfile.usePostOnly with
  | .error _ => none
  | .ok none => none
  | .ok (some order) => some (savedRecord signal order a.saveClock)

/-- A saved record belongs to an order that `execute` returned. -/
theorem onSignalShadow_cases {settings : ShadowSettings} {a : EntryAnswers}
    {signal : ShadowSignal} {record : ShadowRecord}
    (h : onSignalShadow settings a signal = some record) :
    ∃ order, execute settings a signal.symbol signal.direction signal.amount signal.entryPrice
        signal.riskProfile.usePostOnly = .ok (some order) ∧
      record = savedRecord signal order a.saveClock := by
  unfold onSignalShadow at h
  split at h
  · cases h
  · cases h
  · next order horder => exact ⟨order, horder, (Option.some.inj h).symm⟩

/-! ## A limit order -/

/-- The settings' defaults. -/
def defaultSettings : ShadowSettings :=
  ⟨5 / 10000, 55 / 100000, 2 / 10000⟩

/-- The profile of the RANGE regime. -/
def rangeProfile : RiskProfile where
  regime := "RANGE".toList
  sizeMultiplier := 7 / 10
  takeProfitType := "FIXED".toList
  stopLossType := "TIGHT".toList
  maxHoldTimeMins := 240
  usePostOnly := true
  trailAtrMult := 2
  slAtrBuffer := 12 / 10

/-- A long signal in a range, entry 100, stop 98. -/
def rangeSignal : ShadowSignal where
  symbol := "BTC/USDT".toList
  direction := .LONG
  regime := "RANGE".toList
  riskProfile := rangeProfile
  entryPrice := 100
  slPrice := 98
  tpPrice := none
  amount := 1
  atr := 1

/-- The caches quote 100, without a book. -/
def quotedAt100 : EntryAnswers where
  quoted := some 100
  book := none
  now := 0
  saveClock := 0
  orderId := "SHADOW-1".toList
  slOrderId := "SHADOW-SL-1".toList

/-- The order filled at 100.05. -/
def rangeOrder : ShadowOrder where
  id := "SHADOW-1".toList
  symbol := "BTC/USDT".toList
  side := .LONG
  price := 10005 / 100
  amount := 1
  status := "PENDING_VIRTUAL_FILL".toList
  slOrderId := "SHADOW-SL-1".toList
  fee := 2 / 100
  feeType := "maker".toList
  pendingSince := some 0

/-- The record it leaves. -/
def rangeRecord : ShadowRecord :=
  savedRecord rangeSignal rangeOrder 0

end Shadow
end Karsa
