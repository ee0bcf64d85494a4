import Karsa.Core.PositionStore
import Karsa.Execution.ClosingRoutines

/-!
# Position lifecycle - Trailing stops, checkpoints and micro positions

Three managers read the records of the position store and branch on their side word.
`TrailingStopManager` tests for `buy` and `sell`, `CheckpointManager` and
`MicroPositionManager` for `buy` only; the store writes `LONG` and `SHORT`.

Main results:

- Theorem `trailingStop_word`: a stored record always gets the stop of a short.
- Theorem `checkpointExit_buys`, `microClose_buys`: both closing routines always buy.
- Theorem `directionRespected_iff`: when the managers treat a saved record correctly.
-/

namespace Karsa
namespace Lifecycle

open Bybit Closing NetPosition Router

/-! ## Trailing stops -/

/-- Configuration of the trailing-stop manager; multiplier and loss limit are positive. -/
structure TrailingSettings where
  atrMultiplier : ℚ
  cooldownSeconds : ℚ
  maxLossUsd : ℚ
  multiplier_pos : 0 < atrMultiplier
  loss_pos : 0 < maxLossUsd

/-- The defaults of the constructor. -/
def TrailingSettings.default : TrailingSettings where
  atrMultiplier := 2
  cooldownSeconds := 60
  maxLossUsd := 1
  multiplier_pos := by decide +kernel
  loss_pos := by decide +kernel

/-- What one evaluation meets; `slPrice` is the key `sl_price`, which no writer sets. -/
structure TrailingAnswers where
  price : Option ℚ
  slPrice : Option ℚ
  now : ℚ
  lastAmend : Option ℚ

/-- `PositionStore.update_peak`. -/
def updatePeak (pos : PositionRecord) (price : ℚ) : PositionRecord :=
  let updated := pos.peakPrice.all fun peak =>
    match pos.side with
    | .LONG => decide (peak < price)
    | .SHORT => decide (price < peak)
  if updated then { pos with peakPrice := some price } else pos

/-- `side == "buy" and price > peak or side == "sell" and price < peak`. -/
def peakMoves (side : Text) (peak price : ℚ) : Bool :=
  decide (side = "buy".toList ∧ peak < price ∨ side = "sell".toList ∧ price < peak)

/-- `_calc_sl`. -/
def calcSl (settings : TrailingSettings) (side : Text) (peak atr : ℚ) : ℚ :=
  if side = "buy".toList then peak - atr * settings.atrMultiplier
  else peak + atr * settings.atrMultiplier

/-- The new stop before the check of its sign, with the loss limit as its bound. -/
def boundedStop (settings : TrailingSettings) (side : Text) (entry peak atr amount : ℚ) : ℚ :=
  if atr ≤ 0 then
    if side = "buy".toList then entry - settings.maxLossUsd / amount
    else entry + settings.maxLossUsd / amount
  else if side = "buy".toList then
    max (calcSl settings side peak atr) (entry - settings.maxLossUsd / amount)
  else min (calcSl settings side peak atr) (entry + settings.maxLossUsd / amount)

/-- The new stop. -/
def trailingStop (settings : TrailingSettings) (side : Text) (entry peak atr amount : ℚ) : ℚ :=
  if side = "buy".toList ∧ boundedStop settings side entry peak atr amount ≤ 0 then 1 / 1000000
  else boundedStop settings side entry peak atr amount

/-- Is there no stop yet, or is the new one better? -/
def stopImproves (side : Text) (oldSl newSl : ℚ) : Bool :=
  decide (oldSl = 0 ∨ side = "buy".toList ∧ oldSl < newSl ∨
    side = "sell".toList ∧ newSl < oldSl)

/-- The record after an evaluation and the stop passed to `set_trading_stop`. -/
structure TrailingResult where
  record : PositionRecord
  stop : Option ℚ
deriving Repr, DecidableEq

/-- `TrailingStopManager._evaluate`. -/
def trailingEvaluate (settings : TrailingSettings) (a : TrailingAnswers)
    (pos : PositionRecord) : TrailingResult :=
  match a.price with
  | none => ⟨pos, none⟩
  | some price =>
      let side := pos.side.word
      let old := pos.peakPrice.getD pos.entryPrice
      let peak := if peakMoves side old price then price else old
      let record := if peakMoves side old price then updatePeak pos price else pos
      if pos.amount ≤ 0 then ⟨record, none⟩
      else
        let newSl := trailingStop settings side pos.entryPrice peak
          (Numeral.safeDecimal pos.atr) pos.amount
        let cooled := decide (settings.cooldownSeconds ≤ a.now - a.lastAmend.getD 0)
        if stopImproves side (a.slPrice.getD 0) newSl ∧ cooled then ⟨record, some newSl⟩
        else ⟨record, none⟩

/-! ## Checkpoints and micro positions -/

/-- `pnl_pct` of `CheckpointManager._evaluate`. -/
def checkpointPnlPct (side : Text) (entry price : ℚ) : ℚ :=
  if side = "buy".toList then (price - entry) / entry else (entry - price) / entry

/-- `"sell" if side.lower() == "buy" else "buy"`. -/
def microCloseSide (side : Text) : OrderSide :=
  if side.map Char.toLower = "buy".toList then .sell else .buy

/-- The order of `MicroPositionManager._close_position`. -/
def microClose (t : InstrumentTables) (pos : PositionRecord) : OrderRequest :=
  marketRequest t pos.symbol (microCloseSide pos.side.word) pos.amount true

/-! ## Treating a direction correctly -/

/-- What `PositionStore.save` writes. -/
structure SavedRecord where
  symbol : Text
  side : Text
  entryPrice : ℚ
  amount : ℚ
  atr : Option ℚ
  regime : Option Text
  entryRegime : Option Text
  initialRiskPerUnit : ℚ
  now : ℚ

/-- The record in the store. -/
def SavedRecord.record (s : SavedRecord) : PositionRecord :=
  .opened s.symbol (normalizeSide s.side) s.entryPrice s.amount s.atr s.regime s.entryRegime
    s.initialRiskPerUnit s.now

/-- The better of two prices for a position. -/
def favourable : Side → ℚ → ℚ → ℚ
  | .LONG, peak, price => max peak price
  | .SHORT, peak, price => min peak price

/-- Below the reference for a long, above it for a short. -/
def OnLosingSide : Side → ℚ → ℚ → Prop
  | .LONG, stop, reference => stop < reference
  | .SHORT, stop, reference => reference < stop

/-- Gain of a position as a share of its entry price. -/
def signedReturn : Side → ℚ → ℚ → ℚ
  | .LONG, entry, price => (price - entry) / entry
  | .SHORT, entry, price => (entry - price) / entry

/-- Net size of the position on the exchange. -/
def netSize (pos : PositionRecord) : ℚ :=
  signedQty pos.side.apiSide pos.amount

/-- One evaluation, exit and close of a saved record. -/
structure LifecycleCall where
  tables : InstrumentTables
  trailing : TrailingSettings
  price : ℚ
  slPrice : Option ℚ
  now : ℚ
  lastAmend : Option ℚ
  checkpoint : CheckpointSettings
  reason : Text
  answers : CheckpointAnswers

section Purpose

variable (c : LifecycleCall) (pos : PositionRecord)

/-- The trailing evaluation of the call. -/
def LifecycleCall.evaluated : TrailingResult :=
  trailingEvaluate c.trailing ⟨some c.price, c.slPrice, c.now, c.lastAmend⟩ pos

/-- The orders of the checkpoint exit and of the micro close. -/
def LifecycleCall.closing : List OrderRequest :=
  microClose c.tables pos ::
    checkpointExit c.tables c.checkpoint pos c.reason (some c.price) c.answers

/-- The favourable extreme is tracked and the stop lies on its losing side, the return has
the position's sign, and closing orders are on the opposite side and never increase the
exposure. -/
structure DirectionRespected : Prop where
  tracked : (c.evaluated pos).record.peakPrice =
    some (favourable pos.side (pos.peakPrice.getD pos.entryPrice) c.price)
  protective : ∀ stop ∈ (c.evaluated pos).stop,
    OnLosingSide pos.side stop (favourable pos.side (pos.peakPrice.getD pos.entryPrice) c.price)
  pnl : checkpointPnlPct pos.side.word pos.entryPrice c.price =
    signedReturn pos.side pos.entryPrice c.price
  opposite : ∀ request ∈ c.closing pos, request.side = pos.side.apiSide.opposite
  reduces : ∀ request ∈ c.closing pos, ∀ qty : ℚ, 0 ≤ qty → qty ≤ pos.amount →
    Within (applyFill request.reduceOnly (signedQty request.side qty) (netSize pos)) (netSize pos)

end Purpose

/-! ## Canonical words match no test -/

/-- No stored side is `buy`. -/
theorem word_ne_buy (side : Side) : side.word ≠ "buy".toList := by
  cases side <;> decide

/-- No stored side is `sell`. -/
theorem word_ne_sell (side : Side) : side.word ≠ "sell".toList := by
  cases side <;> decide

/-- The peak of a stored record never moves. -/
theorem peakMoves_word (side : Side) (peak price : ℚ) : peakMoves side.word peak price = false := by
  apply decide_eq_false
  rintro (⟨hbuy, -⟩ | ⟨hsell, -⟩)
  · exact word_ne_buy side hbuy
  · exact word_ne_sell side hsell

/-- A stored record always gets the stop of a short. -/
theorem trailingStop_word (settings : TrailingSettings) (side : Side)
    (entry peak atr amount : ℚ) :
    trailingStop settings side.word entry peak atr amount =
      if atr ≤ 0 then entry + settings.maxLossUsd / amount
      else min (peak + atr * settings.atrMultiplier) (entry + settings.maxLossUsd / amount) := by
  have hbuy := word_ne_buy side
  rw [trailingStop, if_neg fun h => hbuy h.1, boundedStop, calcSl]
  rw [if_neg hbuy, if_neg hbuy, if_neg hbuy]

/-- The record is left alone, and a stop is the one of a short. -/
theorem trailingEvaluate_word (settings : TrailingSettings) (a : TrailingAnswers)
    (pos : PositionRecord) :
    (trailingEvaluate settings a pos).record = pos ∧
      ∀ stop ∈ (trailingEvaluate settings a pos).stop, 0 < pos.amount ∧
        stop = trailingStop settings pos.side.word pos.entryPrice
          (pos.peakPrice.getD pos.entryPrice) (Numeral.safeDecimal pos.atr) pos.amount := by
  unfold trailingEvaluate
  cases a.price with
  | none => simp
  | some price =>
      dsimp only
      rw [peakMoves_word, if_neg Bool.false_ne_true, if_neg Bool.false_ne_true]
      by_cases hamount : pos.amount ≤ 0
      · simp [hamount]
      · rw [if_neg hamount]
        split_ifs
        · refine ⟨rfl, fun stop hstop => ⟨not_le.mp hamount, ?_⟩⟩
          exact (Option.some.inj hstop).symm
        · simp

/-- The micro close always buys. -/
theorem microClose_buys (t : InstrumentTables) (pos : PositionRecord) :
    (microClose t pos).side = .buy := by
  have hside : microCloseSide pos.side.word = .buy := by
    cases pos.side <;> decide
  exact hside

/-- Every order of a checkpoint exit buys. -/
theorem checkpointExit_buys (t : InstrumentTables) (settings : CheckpointSettings)
    (pos : PositionRecord) (reason : Text) (currentPrice : Option ℚ) (a : CheckpointAnswers) :
    ∀ request ∈ checkpointExit t settings pos reason currentPrice a, request.side = .buy := by
  have hmarket : ∀ amount, (checkpointMarket t pos amount).side = .buy :=
    fun _ => checkpointCloseSide_word pos.side
  have hremainder : ∀ order, ∀ request ∈ closeRemainder t pos a order, request.side = .buy := by
    intro order request hrequest
    unfold closeRemainder at hrequest
    split_ifs at hrequest
    · cases hrequest
    · split at hrequest
      · cases hrequest
      · rw [List.mem_singleton.mp hrequest]
        exact hmarket _
  have hexit : ∀ request ∈ exitByMarket t pos a, request.side = .buy := by
    intro request hrequest
    rcases List.mem_cons.mp hrequest with rfl | hrest
    · exact hmarket _
    · split at hrest
      · exact hremainder _ request hrest
      · cases hrest
  unfold checkpointExit
  cases hsor : useSor settings reason currentPrice with
  | none => exact hexit
  | some used =>
      rcases used with ⟨router, price⟩
      intro request hrequest
      rcases List.mem_append.mp hrequest with hrouted | hafter
      · have hprice := useSor_price settings reason currentPrice hsor
        have hmarked := executeExit_marked t (exitRequest pos price) a.exit router hprice request
          hrouted
        exact hmarked.2.trans (checkpointCloseSide_word pos.side)
      · split at hafter
        · cases hafter
        · exact hexit request hafter
        · exact hremainder _ request hafter

/-! ## Directions -/

section Directions

variable {c : LifecycleCall} {pos : PositionRecord}

/-- Every closing order buys. -/
theorem closing_buys : ∀ request ∈ c.closing pos, request.side = .buy := by
  intro request hrequest
  rcases List.mem_cons.mp hrequest with rfl | hexit
  · exact microClose_buys c.tables pos
  · exact checkpointExit_buys _ _ _ _ _ _ request hexit

/-- A buy of at most the size reduces a short. -/
theorem buy_within (reduceOnly : Bool) {size qty : ℚ} (hqty : 0 ≤ qty) (hsize : qty ≤ size) :
    Within (applyFill reduceOnly qty (-size)) (-size) := by
  cases reduceOnly with
  | true => exact applyFill_within qty (-size)
  | false =>
      refine Or.inr ⟨?_, ?_⟩
      · rw [applyFill, if_neg Bool.false_ne_true]
        linarith
      · rw [applyFill, if_neg Bool.false_ne_true]
        linarith

/-- The stop of a saved record lies above its entry price. -/
theorem entry_lt_trailingStop (settings : TrailingSettings) (side : Side) {entry atr amount : ℚ}
    (hamount : 0 < amount) : entry < trailingStop settings side.word entry entry atr amount := by
  have hdistance : 0 < settings.maxLossUsd / amount := div_pos settings.loss_pos hamount
  rw [trailingStop_word]
  split_ifs with hatr
  · linarith
  · have hband : 0 < atr * settings.atrMultiplier :=
      mul_pos (not_le.mp hatr) settings.multiplier_pos
    exact lt_min (by linarith) (by linarith)

end Directions

/-- A saved record is treated correctly exactly when it is a short whose price is not below
its entry. -/
theorem directionRespected_iff (c : LifecycleCall) (s : SavedRecord) :
    DirectionRespected c s.record ↔ s.record.side = .SHORT ∧ s.entryPrice ≤ c.price := by
  have hpeak : s.record.peakPrice.getD s.record.entryPrice = s.entryPrice := rfl
  have hrecord := trailingEvaluate_word c.trailing ⟨some c.price, c.slPrice, c.now, c.lastAmend⟩
    s.record
  constructor
  · intro hrespected
    have hside : s.record.side = .SHORT := by
      have hmicro := hrespected.opposite _ List.mem_cons_self
      rw [microClose_buys] at hmicro
      cases hword : s.record.side with
      | LONG =>
          rw [hword] at hmicro
          cases hmicro
      | SHORT => rfl
    refine ⟨hside, ?_⟩
    have htracked := hrespected.tracked
    rw [LifecycleCall.evaluated, hrecord.1, hside, hpeak] at htracked
    have hmin : s.entryPrice = min s.entryPrice c.price := Option.some.inj htracked
    exact min_eq_left_iff.mp hmin.symm
  · rintro ⟨hside, hprice⟩
    have hextreme : favourable s.record.side (s.record.peakPrice.getD s.record.entryPrice)
        c.price = s.entryPrice := by
      rw [hpeak, hside]
      exact min_eq_left hprice
    constructor
    · rw [LifecycleCall.evaluated, hrecord.1, hextreme]
      rfl
    · intro stop hstop
      rcases hrecord.2 stop hstop with ⟨hamount, hvalue⟩
      rw [hextreme, hvalue, hpeak]
      have habove := @entry_lt_trailingStop c.trailing s.record.side s.entryPrice
        (Numeral.safeDecimal s.record.atr) s.record.amount hamount
      rw [hside] at habove ⊢
      exact habove
    · rw [hside]
      rfl
    · intro request hrequest
      rw [closing_buys request hrequest, hside]
      rfl
    · intro request hrequest qty hqty hsize
      have hsizeOf : netSize s.record = -s.record.amount := by
        rw [netSize, hside]
        rfl
      rw [closing_buys request hrequest, hsizeOf]
      exact buy_within request.reduceOnly hqty hsize

/-- A long bought at 100 and priced at 110. -/
theorem directionRespected_long :
    ¬ ∀ (c : LifecycleCall) (s : SavedRecord), DirectionRespected c s.record := by
  intro h
  have htracked := (h
    ⟨.empty, .default, 110, none, 1000, none, ⟨none⟩, "hard_fail_usd".toList,
      ⟨⟨.failed, .failed, fun _ => .failed, .failed, fun _ => none, fun _ => .ok ()⟩, .failed,
        none⟩⟩
    ⟨"BTC/USDT".toList, "LONG".toList, 100, 1, some 2, none, none, 1, 0⟩).tracked
  revert htracked
  decide +kernel

end Lifecycle
end Karsa
