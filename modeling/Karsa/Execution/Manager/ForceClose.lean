import Karsa.Execution.Manager.State

/-!
# Active position manager - Force close

`_force_close_position` cancels the open orders of the symbol, sends a
reduce-only market order, reads the positions back after a second, and removes
the record unless an exception was raised.  Both comparisons with the exchange's
answers use the record's unified symbol, while orders and positions carry Bybit's
spelling.

Main results:

- Theorem `closeAttempt_cases`: no order is ever cancelled and the read-back never
  finds the position.
- Theorem `forceClosePosition_safe_iff`: when a force close forgets nothing.
-/

namespace Karsa
namespace Manager

open Bybit

/-! ## The routine -/

/-- The exchange during one force close: its open orders and what is left of its
positions when they are read back, with the answers of the calls. -/
structure CloseAnswers where
  orders : List RawOrder
  ordersRead : Except Text Unit
  cancel : Nat → Except Text Unit
  market : Except Text OrderReply
  remaining : List RawPosition
  readBack : Except Text Unit
  clock : ℚ

/-- Cancel the open orders whose symbol is the record's, up to the first
cancellation that raises. -/
def cancelOpenOrders (cancel : Nat → Except Text Unit) (symbol : Text) :
    Nat → List OpenOrder → ManagerState → ManagerState × Option Text
  | _, [], s => (s, none)
  | n, order :: rest, s =>
      if order.symbol = symbol then
        match cancel n with
        | .ok () =>
            cancelOpenOrders cancel symbol (n + 1) rest (s.emit (.cancelSent order.id true))
        | .error message => (s.emit (.cancelSent order.id false), some message)
      else cancelOpenOrders cancel symbol n rest s

/-- `Decimal(str(close_result.get("avgPrice", close_result.get("price", "0"))))`. -/
def closeFillPrice (order : OrderReply) : Option ℚ :=
  ((order.avgPrice.or order.price).getD (.value 0)).decimal

/-- Text of the exception that `Decimal` raises on an unreadable text. -/
def conversionSyntax : Text := "[<class 'decimal.ConversionSyntax'>]".toList

/-- Text of the exception for a position found after the market order. -/
def stillOpenMessage : Text :=
  "Bybit accepted the order but position is still open (Price Protection or partial fill).".toList

/-- The verification loop over the positions read back. -/
def stillOpen (pos : PositionRecord) (positions : List ExchangePosition) : Bool :=
  positions.any fun p => p.symbol = pos.symbol && p.side = pos.side.apiSide && 0 < p.contracts

/-- The `try` block: the fill price, or the exception's text. -/
def closeAttempt (a : CloseAnswers) (s : ManagerState) : ManagerState × Except Text ℚ :=
  match a.ordersRead with
  | .error message => (s, .error message)
  | .ok () =>
      match cancelOpenOrders a.cancel s.pos.symbol 0 (fetchOpenOrders a.orders) s with
      | (s, some message) => (s, .error message)
      | (s, none) =>
          if 0 < s.pos.amount then
            let side := s.pos.side.apiSide.opposite
            match a.market with
            | .error message => (s.emit (.marketSent side s.pos.amount false), .error message)
            | .ok order =>
                let s := s.emit (.marketSent side s.pos.amount true)
                match closeFillPrice order with
                | none => (s, .error conversionSyntax)
                | some fill =>
                    match a.readBack with
                    | .error message => (s, .error message)
                    | .ok () =>
                        if stillOpen s.pos (fetchPositions a.remaining) then
                          (s, .error stillOpenMessage)
                        else (s, .ok fill)
          else (s, .ok 0)

/-- `"110017" in err_str or "position is zero" in err_str`. -/
def alreadyClosed (message : Text) : Bool :=
  Text.contains message "110017".toList || Text.contains message "position is zero".toList

/-- Write the exit price when there is one, then remove the record. -/
def finishClose (reason : Text) (fill : ℚ) (s : ManagerState) : ManagerState :=
  if 0 < fill then
    (s.edit ({ · with exitPrice := some fill, exitReason := some reason })).persist.remove
  else s.remove

/-- `_force_close_position`: a failure keeps the record with a retry time. -/
def forceClosePosition (a : CloseAnswers) (reason : Text) (s : ManagerState) : ManagerState :=
  match closeAttempt a s with
  | (s, .ok fill) => finishClose reason fill { s with forceClosedAt := some a.clock }
  | (s, .error message) =>
      if alreadyClosed message then
        finishClose reason 0 { s with forceClosedAt := some a.clock }
      else (s.edit ({ · with forceCloseRetryAt := a.clock + 300 })).persist

@[simp] theorem finishClose_stored (reason : Text) (fill : ℚ) (s : ManagerState) :
    (finishClose reason fill s).stored = none := by
  unfold finishClose
  split_ifs <;> rfl

/-! ## What an attempt leaves alone -/

theorem cancelOpenOrders_called (cancel : Nat → Except Text Unit) (symbol : Text) (n : Nat)
    (orders : List OpenOrder) (s : ManagerState) :
    Called s (cancelOpenOrders cancel symbol n orders s).1 := by
  induction orders generalizing n s with
  | nil => exact Called.refl s
  | cons order rest ih =>
      unfold cancelOpenOrders
      by_cases hsymbol : order.symbol = symbol
      · rw [if_pos hsymbol]
        cases cancel n with
        | ok _ => exact (Called.emit s rfl).trans (ih (n + 1) _)
        | error message => exact Called.emit s rfl
      · rw [if_neg hsymbol]
        exact ih n s

/-- The attempt makes exchange calls and leaves everything else as it was. -/
theorem closeAttempt_called (a : CloseAnswers) (s : ManagerState) :
    Called s (closeAttempt a s).1 := by
  unfold closeAttempt
  cases a.ordersRead with
  | error message => exact Called.refl s
  | ok _ =>
      have hcancel :=
        cancelOpenOrders_called a.cancel s.pos.symbol 0 (fetchOpenOrders a.orders) s
      dsimp only
      split
      · rename_i s' message heq
        rw [heq] at hcancel
        exact hcancel
      · rename_i s' heq
        rw [heq] at hcancel
        by_cases hqty : 0 < s'.pos.amount
        · rw [if_pos hqty]
          cases a.market with
          | error message => exact hcancel.trans (Called.emit s' rfl)
          | ok order =>
              dsimp only
              split
              · exact hcancel.trans (Called.emit s' rfl)
              · cases a.readBack with
                | error message => exact hcancel.trans (Called.emit s' rfl)
                | ok _ =>
                    dsimp only
                    split <;> exact hcancel.trans (Called.emit s' rfl)
        · rw [if_neg hqty]
          exact hcancel

theorem Called.pos {s s' : ManagerState} (h : Called s s') : s'.pos = s.pos := by
  rw [h.eq]

theorem finishClose_pos (reason : Text) (fill : ℚ) (s : ManagerState) :
    ∃ price text, (finishClose reason fill s).pos =
      { s.pos with exitPrice := price, exitReason := text } := by
  unfold finishClose
  split_ifs
  · exact ⟨some fill, some reason, rfl⟩
  · exact ⟨s.pos.exitPrice, s.pos.exitReason, rfl⟩

/-- A force close writes its own fields of the dictionary and no others. -/
theorem forceClosePosition_pos (a : CloseAnswers) (reason : Text) (s : ManagerState) :
    ∃ price text retryAt, (forceClosePosition a reason s).pos =
      { s.pos with exitPrice := price, exitReason := text, forceCloseRetryAt := retryAt } := by
  have hfinished : ∀ fill, ∀ s' : ManagerState, s'.pos = s.pos →
      ∃ price text retryAt, (finishClose reason fill s').pos =
        { s.pos with exitPrice := price, exitReason := text, forceCloseRetryAt := retryAt } := by
    intro fill s' hpos
    rcases finishClose_pos reason fill s' with ⟨price, text, hfinish⟩
    exact ⟨price, text, s.pos.forceCloseRetryAt, by rw [hfinish, hpos]⟩
  have hcalled := closeAttempt_called a s
  unfold forceClosePosition
  rcases hresult : closeAttempt a s with ⟨s', message | fill⟩
  · rw [hresult] at hcalled
    have hpos : s'.pos = s.pos := hcalled.pos
    dsimp only
    split_ifs
    · exact hfinished 0 _ hpos
    · exact ⟨s.pos.exitPrice, s.pos.exitReason, a.clock + 300, by
        rw [ManagerState.persist_pos, ManagerState.edit_pos, hpos]⟩
  · rw [hresult] at hcalled
    exact hfinished fill _ hcalled.pos

/-! ## Comparisons between the two spellings -/

/-- Without a slash in the exchange's symbols no open order matches. -/
theorem cancelOpenOrders_eq {symbol : Text} (hsymbol : '/' ∈ symbol)
    (cancel : Nat → Except Text Unit) (n : Nat) {orders : List OpenOrder}
    (horders : ∀ o ∈ orders, '/' ∉ o.symbol) (s : ManagerState) :
    cancelOpenOrders cancel symbol n orders s = (s, none) := by
  induction orders with
  | nil => rfl
  | cons order rest ih =>
      have hne : order.symbol ≠ symbol := by
        intro heq
        exact horders order (by simp) (heq ▸ hsymbol)
      simp only [cancelOpenOrders, hne, if_false]
      exact ih fun o ho => horders o (by simp [ho])

/-- Without a slash in the exchange's symbols no position is found open. -/
theorem stillOpen_eq_false {pos : PositionRecord} (hsymbol : '/' ∈ pos.symbol)
    {positions : List ExchangePosition} (hpositions : ∀ p ∈ positions, '/' ∉ p.symbol) :
    stillOpen pos positions = false := by
  simp only [stillOpen, List.any_eq_false]
  intro p hp
  have hne : p.symbol ≠ pos.symbol := by
    intro heq
    exact hpositions p hp (heq ▸ hsymbol)
  simp [hne]

/-- The first exception of a force close that cancels nothing. -/
def CloseAnswers.firstError (a : CloseAnswers) (pos : PositionRecord) : Option Text :=
  match a.ordersRead with
  | .error message => some message
  | .ok () =>
      if 0 < pos.amount then
        match a.market with
        | .error message => some message
        | .ok order => match closeFillPrice order with
            | none => some conversionSyntax
            | some _ => match a.readBack with
                | .error message => some message
                | .ok () => none
      else none

section Spelling

variable {pos : PositionRecord} {a : CloseAnswers}

/-- With the exchange's spelling the attempt cancels nothing, and it fails only
by a call that raises. -/
theorem closeAttempt_cases (hsymbol : '/' ∈ pos.symbol)
    (horders : ∀ o ∈ a.orders, '/' ∉ o.symbol)
    (hremaining : ∀ p ∈ a.remaining, '/' ∉ p.symbol) :
    ∃ s : ManagerState, s.pos = pos ∧ (∀ id, .cancelSent id true ∉ s.log) ∧
      ((∃ m, a.firstError pos = some m ∧
          closeAttempt a (.ofRecord pos) = (s, .error m)) ∨
        (∃ fill, a.firstError pos = none ∧
          closeAttempt a (.ofRecord pos) = (s, .ok fill))) := by
  have hspelled : ∀ o ∈ fetchOpenOrders a.orders, '/' ∉ o.symbol := by
    simpa [fetchOpenOrders, RawOrder.toOpenOrder] using horders
  have hcancel := cancelOpenOrders_eq hsymbol a.cancel 0 hspelled (.ofRecord pos)
  have hopen : stillOpen pos (fetchPositions a.remaining) = false := by
    apply stillOpen_eq_false hsymbol
    intro p hp
    simp only [fetchPositions, List.mem_map, List.mem_filter] at hp
    rcases hp with ⟨raw, ⟨hraw, -⟩, rfl⟩
    exact hremaining raw hraw
  have hfresh : ∀ id, ApmEvent.cancelSent id true ∉ (ManagerState.ofRecord pos).log := by
    simp [ManagerState.ofRecord]
  have hsent : ∀ accepted id, ApmEvent.cancelSent id true ∉ ((ManagerState.ofRecord pos).emit
      (.marketSent pos.side.apiSide.opposite pos.amount accepted)).log := by
    simp [ManagerState.ofRecord, ManagerState.emit]
  have hpos : (ManagerState.ofRecord pos).pos = pos := rfl
  unfold closeAttempt CloseAnswers.firstError
  rw [hpos, hcancel]
  cases hread : a.ordersRead with
  | error message => exact ⟨.ofRecord pos, rfl, hfresh, Or.inl ⟨message, rfl, rfl⟩⟩
  | ok _ =>
      by_cases hqty : 0 < pos.amount
      · simp only [hpos, hqty, if_true]
        cases hmarket : a.market with
        | error message => exact ⟨_, rfl, hsent false, Or.inl ⟨message, rfl, rfl⟩⟩
        | ok order =>
            cases hfill : closeFillPrice order with
            | none =>
                refine ⟨_, rfl, hsent true, Or.inl ⟨conversionSyntax, ?_, ?_⟩⟩ <;> simp [hfill]
            | some fill =>
                cases hback : a.readBack with
                | error message =>
                    refine ⟨_, rfl, hsent true, Or.inl ⟨message, ?_, ?_⟩⟩ <;> simp [hfill]
                | ok _ =>
                    refine ⟨_, rfl, hsent true, Or.inr ⟨fill, ?_, ?_⟩⟩ <;>
                      simp [hfill, hpos, hopen]
      · refine ⟨.ofRecord pos, rfl, hfresh, Or.inr ⟨0, ?_, ?_⟩⟩ <;> simp [hpos, hqty]

/-- A force close keeps the record with a retry time when some call fails for
another reason than a closed position, and removes it otherwise, in either case
without a cancellation. -/
theorem forceClosePosition_cases (reason : Text) (hsymbol : '/' ∈ pos.symbol)
    (horders : ∀ o ∈ a.orders, '/' ∉ o.symbol)
    (hremaining : ∀ p ∈ a.remaining, '/' ∉ p.symbol) :
    ((∃ m, a.firstError pos = some m ∧ alreadyClosed m = false) ∧
        ∃ record, (forceClosePosition a reason (.ofRecord pos)).stored = some record ∧
          record.forceCloseRetryAt = a.clock + 300) ∨
      ((¬ ∃ m, a.firstError pos = some m ∧ alreadyClosed m = false) ∧
        (forceClosePosition a reason (.ofRecord pos)).stored = none ∧
          ∀ id, .cancelSent id true ∉ (forceClosePosition a reason (.ofRecord pos)).log) := by
  rcases closeAttempt_cases hsymbol horders hremaining with ⟨s, -, hlog, hcases⟩
  have hfinish : ∀ fill, ∀ id, ApmEvent.cancelSent id true ∉
      (finishClose reason fill { s with forceClosedAt := some a.clock }).log := by
    intro fill id
    unfold finishClose
    split_ifs <;>
      simp [ManagerState.remove, ManagerState.persist, ManagerState.edit, hlog id]
  unfold forceClosePosition
  rcases hcases with ⟨m, herror, hattempt⟩ | ⟨fill, herror, hattempt⟩
  · rw [hattempt]
    cases hclosed : alreadyClosed m with
    | false =>
        refine Or.inl ⟨⟨m, herror, hclosed⟩, ?_⟩
        simp [hclosed]
    | true =>
        refine Or.inr ⟨?_, ?_, ?_⟩
        · simp [herror, hclosed]
        · simp [hclosed]
        · simpa [hclosed] using hfinish 0
  · rw [hattempt]
    refine Or.inr ⟨by simp [herror], by simp, ?_⟩
    simpa using hfinish fill

end Spelling

/-! ## When nothing is forgotten -/

/-- The exchange still holds the position of the record when it is read back. -/
def PositionLeft (t : InstrumentTables) (pos : PositionRecord) (a : CloseAnswers) : Prop :=
  ∃ p ∈ a.remaining, p.symbol = t.toBybitSymbol pos.symbol ∧
    p.side.toOrderSide = pos.side.apiSide ∧ p.isOpen = true

/-- Nothing is forgotten: a removed record has no position left and all open
orders of its instrument cancelled, and a position that is left keeps its record
with a retry time. -/
structure ForgetsNothing (t : InstrumentTables) (pos : PositionRecord) (a : CloseAnswers)
    (s : ManagerState) : Prop where
  closed : s.stored = none → ¬ PositionLeft t pos a
  cancelled : s.stored = none → ∀ o ∈ a.orders, o.symbol = t.toBybitSymbol pos.symbol →
    .cancelSent o.orderId true ∈ s.log
  kept : PositionLeft t pos a → ∃ record, s.stored = some record ∧
    record.forceCloseRetryAt = a.clock + 300

/-- With a unified record symbol and Bybit's spelling on the exchange, a force
close forgets nothing exactly when some call fails for another reason than a
closed position, or nothing is left of the position and the instrument has no
open order. -/
theorem forceClosePosition_safe_iff (t : InstrumentTables) (pos : PositionRecord)
    (a : CloseAnswers) (reason : Text) (hsymbol : '/' ∈ pos.symbol)
    (horders : ∀ o ∈ a.orders, '/' ∉ o.symbol)
    (hremaining : ∀ p ∈ a.remaining, '/' ∉ p.symbol) :
    ForgetsNothing t pos a (forceClosePosition a reason (.ofRecord pos)) ↔
      (∃ m, a.firstError pos = some m ∧ alreadyClosed m = false) ∨
        (¬ PositionLeft t pos a ∧ ∀ o ∈ a.orders, o.symbol ≠ t.toBybitSymbol pos.symbol) := by
  rcases forceClosePosition_cases reason hsymbol horders hremaining with
    ⟨hfailed, record, hstored, hretry⟩ | ⟨hnone, hstored, hlog⟩
  · refine iff_of_true ⟨?_, ?_, fun _ => ⟨record, hstored, hretry⟩⟩ (Or.inl hfailed)
    · intro hremoved
      simp [hstored] at hremoved
    · intro hremoved
      simp [hstored] at hremoved
  · constructor
    · intro hsafe
      refine Or.inr ⟨hsafe.closed hstored, ?_⟩
      intro o ho hsame
      exact hlog o.orderId (hsafe.cancelled hstored o ho hsame)
    · rintro (hfailed | ⟨hclosed, hnoOrder⟩)
      · exact absurd hfailed hnone
      · refine ⟨fun _ => hclosed, ?_, fun hleft => absurd hleft hclosed⟩
        intro _ o ho hsame
        exact absurd hsame (hnoOrder o ho)

/-! ## Two concrete closes -/

/-- A long position of one unit entered at 100. -/
def samplePosition : PositionRecord :=
  { PositionRecord.opened "BTC/USDT".toList .LONG 100 1 (some 2) none (some "RANGE".toList) 2 0 with
    currentSl := 98 }

/-- The exchange's entry for that position, with the given size left. -/
def sampleRemaining (size : ℚ) : RawPosition where
  symbol := "BTCUSDT".toList
  side := .Buy
  size := some (.value size)
  avgPrice := some (.value 100)
  unrealisedPnl := none
  stopLoss := some (.value 98)
  takeProfit := none
  trailingStop := none
  liqPrice := none

/-- A market order that is accepted, after which the given size is left. -/
def acceptedClose (size : ℚ) : CloseAnswers where
  orders := []
  ordersRead := .ok ()
  cancel := fun _ => .ok ()
  market := .ok ⟨none, some "close-1".toList, some .closed, some (.value 101),
    some (.value 101), none, some (.value 1), none⟩
  remaining := [sampleRemaining size]
  readBack := .ok ()
  clock := 1000

/-- Nothing is left and there is no open order: the record may go. -/
theorem forceClosePosition_safe_when_flat :
    ForgetsNothing .empty samplePosition (acceptedClose 0)
      (forceClosePosition (acceptedClose 0) "time_exit".toList (.ofRecord samplePosition)) := by
  apply (forceClosePosition_safe_iff .empty samplePosition (acceptedClose 0) "time_exit".toList
    (by decide) (by decide) (by decide)).mpr
  refine Or.inr ⟨?_, by decide⟩
  rintro ⟨p, hp, -, -, hopen⟩
  obtain rfl : p = sampleRemaining 0 := by simpa [acceptedClose] using hp
  exact absurd hopen (by decide +kernel)

/-- Half of the position is left after the accepted order; the record is removed. -/
theorem forceClosePosition_forgets_remainder :
    ¬ ForgetsNothing .empty samplePosition (acceptedClose (1 / 2))
      (forceClosePosition (acceptedClose (1 / 2)) "time_exit".toList
        (.ofRecord samplePosition)) := by
  intro hsafe
  refine hsafe.closed (by decide +kernel) ⟨sampleRemaining (1 / 2), by simp [acceptedClose], ?_⟩
  decide +kernel

end Manager
end Karsa
