import Karsa.Execution.Manager.ExitRules
import Karsa.Execution.Router.Exit
import Karsa.Foundations.NetPosition
import Karsa.Foundations.Runs

/-!
# Closing routines - Telegram, checkpoints and the trailing limit

Three routines besides the flatten submit orders that are meant to close a position: the
bot's `_close_position`, `CheckpointManager._exit` with the router's `execute_exit` under
it, and the trailing-limit rule of the position manager.  Each reads side and size, and
sends its order after further awaits, when a stop may already have filled.

Main results:

- Theorem `checkpointExit_closing_iff`: when a checkpoint exit submits closing orders only.
- Theorem `trailingOrders_closing_iff`: when the trailing limit submits closing orders only.
- Theorem `closingRun_never_opens_iff`: the runs in which closing never opens.
-/

namespace Karsa
namespace Closing

open Bybit Manager Router NetPosition

/-! ## Submitted orders -/

/-- An order with the side of the position it was issued for. -/
structure Submission where
  held : Side
  request : OrderRequest
deriving Repr, DecidableEq

/-- Reduce-only, and on the side opposite to the position. -/
def Submission.Closes (s : Submission) : Prop :=
  s.request.reduceOnly = true ∧ s.request.side = s.held.apiSide.opposite

instance (s : Submission) : Decidable s.Closes :=
  inferInstanceAs (Decidable (_ ∧ _))

/-! ## The Telegram bot -/

/-- `_close_position`: a market order for the first position of the symbol; `none` is a
read that raised. -/
def closePosition (t : InstrumentTables) (symbol : Text)
    (positions : Option (List ExchangePosition)) : List Submission :=
  match (positions.getD []).find? fun p => p.symbol = symbol with
  | none => []
  | some p =>
      [⟨Side.ofOrderSide p.side, marketRequest t symbol p.side.opposite p.contracts false⟩]

/-! ## Checkpoint exits -/

/-- `"sell" if side == "buy" else "buy"`. -/
def checkpointCloseSide (side : Text) : OrderSide :=
  if side = "buy".toList then .sell else .buy

/-- First entry of the order history; `none` is an absent or blank key. -/
structure HistoryEntry where
  avgPrice : Option (Numeral ℚ)
  cumExecQty : Option (Numeral ℚ)
deriving Repr, DecidableEq

/-- Configuration of the manager: its router, if it has one. -/
structure CheckpointSettings where
  sor : Option RouterSettings

/-- Answers met during one checkpoint exit; an unreadable or empty history is `none`. -/
structure CheckpointAnswers where
  exit : ExitAnswers
  market : Placement
  history : Option HistoryEntry

section Checkpoint

variable (t : InstrumentTables) (settings : CheckpointSettings) (pos : PositionRecord)
  (reason : Text) (currentPrice : Option ℚ) (a : CheckpointAnswers)

/-- The call of `execute_exit`. -/
def exitRequest (price : ℚ) : EntryRequest where
  symbol := pos.symbol
  side := checkpointCloseSide pos.side.word
  amount := pos.amount
  price := price

/-- The exit's own market order, which names no parameters. -/
def checkpointMarket (amount : ℚ) : OrderRequest :=
  marketRequest t pos.symbol (checkpointCloseSide pos.side.word) amount false

/-- Router and price of an exit that goes through the router. -/
def useSor : Option (RouterSettings × ℚ) :=
  if "hard_fail".toList <+: reason then none
  else
    match settings.sor, currentPrice with
    | some router, some price => if 0 < price then some (router, price) else none
    | _, _ => none

/-- What the history says is left of the order: `none` for a full fill, for no fill, and
for texts that do not parse. -/
def remainder : Option ℚ :=
  match a.history with
  | none => none
  | some entry =>
      if entry.avgPrice = some .malformed then none
      else
        match numeralOr 0 entry.cumExecQty with
        | none => none
        | some filled =>
            if 0 < filled ∧ filled < pos.amount then some (pos.amount - filled) else none

/-- The order calls after an order was returned: a market order for the remainder of an
order with an id. -/
def closeRemainder (order : OrderReply) : List OrderRequest :=
  if order.orderId.getD [] = [] then []
  else
    match remainder pos a with
    | none => []
    | some rest => [checkpointMarket t pos rest]

/-- The exit's own market order with what follows it. -/
def exitByMarket : List OrderRequest :=
  checkpointMarket t pos pos.amount ::
    match a.market.reply with
    | .ok order => closeRemainder t pos a order
    | .error _ => []

/-- Order calls of `CheckpointManager._exit`. -/
def checkpointExit : List OrderRequest :=
  match useSor settings reason currentPrice with
  | none => exitByMarket t pos a
  | some (router, price) =>
      let sor := executeExit t (exitRequest pos price) a.exit router
      sor.requests ++
        match sor.outcome with
        | .error _ => []
        | .ok none => exitByMarket t pos a
        | .ok (some order) => closeRemainder t pos a order

end Checkpoint

/-! ## The trailing limit -/

/-- Limit orders among logged calls: `"buy" if side == "LONG" else "sell"`, marked
reduce-only. -/
def limitRequest? (t : InstrumentTables) (snap : Snapshot) : ApmEvent → Option OrderRequest
  | .limitSent qty price _ => some (limitRequest t snap.symbol snap.side.apiSide qty price true)
  | _ => none

/-- Limit orders of one pass of the trailing-limit rule. -/
def trailingOrders (t : InstrumentTables) (a : LimitAnswers) (close : CloseAnswers)
    (snap : Snapshot) (s : ManagerState) : List OrderRequest :=
  (trailingLimit a close snap { s with log := [] }).state.log.filterMap (limitRequest? t snap)

/-- Is a new limit order due? -/
def limitDue (a : LimitAnswers) (snap : Snapshot) (s : ManagerState) : Bool :=
  let pos := (activateLimit a.clock snap s).pos
  let price := nextLimitPrice snap pos.trailingLimitPrice
  decide (pos.trailingLimitState = .TRAILING_LIMIT_ACTIVE ∧
    a.clock - pos.trailingLimitPlacedAt.getD a.clock ≤ 60 ∧
    (pos.trailingLimitOrderId = [] ∨ repriceLimit pos price = true) ∧
    0 < pos.amount ∧ 0 < price)

/-! ## Runs -/

/-- One call of a closing routine with everything it reads. -/
inductive ClosingCall where
  | telegram (symbol : Text) (positions : Option (List ExchangePosition))
  | checkpoint (settings : CheckpointSettings) (pos : PositionRecord) (reason : Text)
      (currentPrice : Option ℚ) (a : CheckpointAnswers)
  | trailing (a : LimitAnswers) (close : CloseAnswers) (snap : Snapshot) (s : ManagerState)

/-- Orders a call submits. -/
def ClosingCall.submissions (t : InstrumentTables) : ClosingCall → List Submission
  | .telegram symbol positions => closePosition t symbol positions
  | .checkpoint settings pos reason currentPrice a =>
      (checkpointExit t settings pos reason currentPrice a).map (Submission.mk pos.side)
  | .trailing a close snap s =>
      (trailingOrders t a close snap s).map (Submission.mk snap.side)

/-- What happens to the position on the exchange: a stop or take-profit fills, or a
submitted order is filled in part or in full. -/
inductive Moment where
  | protectiveFill (qty : ℚ≥0)
  | execution (request : OrderRequest) (qty : ℚ≥0)

/-- Signed quantity of a fill. -/
def signedQty : OrderSide → ℚ → ℚ
  | .buy, qty => qty
  | .sell, qty => -qty

/-- The exchange's net position after a moment. -/
def settle (size : ℚ) : Moment → ℚ
  | .protectiveFill qty => reduce qty size
  | .execution request qty => applyFill request.reduceOnly (signedQty request.side qty) size

/-- Calls of the closing routines and any interleaving of protective fills with fills of
the orders they submit. -/
structure ClosingRun (t : InstrumentTables) where
  calls : List ClosingCall
  moments : List Moment
  issued : ∀ request qty, .execution request qty ∈ moments →
    ∃ call ∈ calls, ∃ s ∈ call.submissions t, s.request = request

/-- The moment leaves the position between flat and what it was. -/
def Reduces (size : ℚ) (moment : Moment) : Prop :=
  Within (settle size moment) size

/-- Every order is marked and on the closing side, and no moment of the run enlarges,
turns or opens the position. -/
structure NeverOpens (t : InstrumentTables) (run : ClosingRun t) (size : ℚ) : Prop where
  closes : ∀ call ∈ run.calls, ∀ s ∈ call.submissions t, s.Closes
  reduces : Admits settle Reduces size run.moments

/-- The call submits closing orders only: the bot found no position; a checkpoint exit of
a short goes through the router, which does not give up, and shows no partial fill of an
order with an id; no trailing limit is due. -/
def ClosingCall.Met : ClosingCall → Prop
  | .telegram symbol positions => ∀ p ∈ positions.getD [], p.symbol ≠ symbol
  | .checkpoint settings pos reason currentPrice a =>
      pos.side = .SHORT ∧ ∃ router price,
        useSor settings reason currentPrice = some (router, price) ∧
          ¬ GivesUp (exitRequest pos price) a.exit router ∧
            ((remainder pos a).isSome → ¬ Identified a.exit router)
  | .trailing a _ snap s => limitDue a snap s = false

/-! ## Orders of each routine -/

/-- The bot's order is never marked. -/
theorem closePosition_closing_iff (t : InstrumentTables) (symbol : Text)
    (positions : Option (List ExchangePosition)) :
    (∀ s ∈ closePosition t symbol positions, s.Closes) ↔
      ∀ p ∈ positions.getD [], p.symbol ≠ symbol := by
  unfold closePosition
  cases hfind : (positions.getD []).find? fun p => p.symbol = symbol with
  | none => simpa using hfind
  | some p =>
      have hsymbol : p.symbol = symbol := by simpa using List.find?_some hfind
      constructor
      · intro h
        exact absurd (h _ (List.mem_singleton_self _)).1 Bool.false_ne_true
      · intro h
        exact absurd hsymbol (h p (List.mem_of_find?_eq_some hfind))

section CheckpointOrders

variable (t : InstrumentTables) (settings : CheckpointSettings) (pos : PositionRecord)
  (reason : Text) (currentPrice : Option ℚ) (a : CheckpointAnswers)

/-- Stored sides are `LONG` and `SHORT`, so every exit buys. -/
theorem checkpointCloseSide_word (side : Side) : checkpointCloseSide side.word = .buy := by
  cases side <;> decide

/-- The exit's own market order is not marked. -/
theorem not_closes_checkpointMarket (amount : ℚ) :
    ¬ Submission.Closes ⟨pos.side, checkpointMarket t pos amount⟩ := by
  intro h
  exact absurd h.1 Bool.false_ne_true

/-- Closing orders only, of a list of requests. -/
def AllClose (requests : List OrderRequest) : Prop :=
  ∀ request ∈ requests, Submission.Closes ⟨pos.side, request⟩

theorem not_allClose_exitByMarket : ¬ AllClose pos (exitByMarket t pos a) := by
  intro h
  exact not_closes_checkpointMarket t pos pos.amount (h _ List.mem_cons_self)

/-- The remainder of an order with an id is not marked either. -/
theorem allClose_closeRemainder_iff (order : OrderReply) :
    AllClose pos (closeRemainder t pos a order) ↔
      ((remainder pos a).isSome → order.orderId.getD [] = []) := by
  unfold closeRemainder
  split_ifs with hid
  · simp [AllClose, hid]
  · cases hrest : remainder pos a with
    | none => simp [AllClose]
    | some rest =>
        have hnot := not_closes_checkpointMarket t pos rest
        simp [AllClose, hnot, hid]

/-- The router's orders close a short and nothing else. -/
theorem allClose_executeExit_iff {price : ℚ} (router : RouterSettings) (hprice : 0 < price) :
    AllClose pos (executeExit t (exitRequest pos price) a.exit router).requests ↔
      pos.side = .SHORT := by
  have hbuys : (exitRequest pos price).side = .buy := checkpointCloseSide_word pos.side
  constructor
  · intro h
    have hfirst := h _ (exitLimit_mem_executeExit t (exitRequest pos price) a.exit router hprice)
    have hopposite : OrderSide.buy = pos.side.apiSide.opposite := hbuys.symm.trans hfirst.2
    cases hside : pos.side with
    | LONG =>
        rw [hside] at hopposite
        cases hopposite
    | SHORT => rfl
  · intro hside request hrequest
    have hmarked := executeExit_marked t (exitRequest pos price) a.exit router hprice request
      hrequest
    refine ⟨hmarked.1, hmarked.2.trans (hbuys.trans ?_)⟩
    dsimp only
    rw [hside]
    rfl

/-- The router is only used with a positive price. -/
theorem useSor_price {router : RouterSettings} {price : ℚ}
    (h : useSor settings reason currentPrice = some (router, price)) : 0 < price := by
  unfold useSor at h
  split_ifs at h
  split at h
  · split_ifs at h with hprice
    cases h
    exact hprice
  · cases h

/-- A remainder is left of a positive amount only. -/
theorem amount_pos_of_remainder (h : (remainder pos a).isSome = true) : 0 < pos.amount := by
  unfold remainder at h
  split at h
  · cases h
  · split_ifs at h
    · cases h
    · split at h
      · cases h
      · split_ifs at h with hpartial
        · exact hpartial.1.trans hpartial.2
        · cases h

/-- What follows the router's answer closes the position exactly where the router does not
give up, and no order with an id is partially filled. -/
theorem allClose_afterSor_iff {price : ℚ} (router : RouterSettings) (hprice : 0 < price) :
    AllClose pos (match (executeExit t (exitRequest pos price) a.exit router).outcome with
      | .error _ => []
      | .ok none => exitByMarket t pos a
      | .ok (some order) => closeRemainder t pos a order) ↔
      ¬ GivesUp (exitRequest pos price) a.exit router ∧
        ((remainder pos a).isSome → ¬ Identified a.exit router) := by
  have hbuys : (exitRequest pos price).side = .buy := checkpointCloseSide_word pos.side
  by_cases hamount : 0 < pos.amount
  · have hnone := executeExit_eq_none_iff t (exitRequest pos price) a.exit router hbuys hprice
      hamount
    have hid := executeExit_identified_iff t (exitRequest pos price) a.exit router hbuys hprice
      hamount
    rw [← hnone, ← hid]
    generalize (executeExit t (exitRequest pos price) a.exit router).outcome = outcome
    match outcome with
    | .error _ => simp [AllClose]
    | .ok none => simpa using not_allClose_exitByMarket t pos a
    | .ok (some order) =>
        rw [allClose_closeRemainder_iff]
        constructor
        · intro h
          refine ⟨fun heq => (by cases heq), fun hpartial => ?_⟩
          rintro ⟨order', id, heq, horder, hne⟩
          have hsame : order = order' := Option.some.inj (Except.ok.inj heq)
          have hblank := h hpartial
          rw [hsame, horder] at hblank
          exact hne hblank
        · intro h hpartial
          by_contra hne
          cases horder : order.orderId with
          | none =>
              rw [horder] at hne
              exact hne rfl
          | some id =>
              rw [horder] at hne
              exact h.2 hpartial ⟨order, id, rfl, horder, hne⟩
  · have hfull : (remainder pos a).isSome = false := by
      rw [← Bool.not_eq_true]
      exact fun h => hamount (amount_pos_of_remainder pos a h)
    have hstay : ¬ GivesUp (exitRequest pos price) a.exit router := fun h => hamount h.1
    have hne := executeExit_ne_none t (exitRequest pos price) a.exit router hprice
      (not_lt.mp hamount)
    simp only [hfull, hstay, Bool.false_eq_true, false_implies, not_false_eq_true, and_self,
      iff_true]
    generalize (executeExit t (exitRequest pos price) a.exit router).outcome = outcome at hne
    match outcome with
    | .error _ => simp [AllClose]
    | .ok none => exact absurd rfl hne
    | .ok (some order) =>
        rw [allClose_closeRemainder_iff, hfull]
        exact fun h => by cases h

/-- The checkpoint exit submits closing orders only under the condition of its call. -/
theorem checkpointExit_closing_iff :
    AllClose pos (checkpointExit t settings pos reason currentPrice a) ↔
      pos.side = .SHORT ∧ ∃ router price,
        useSor settings reason currentPrice = some (router, price) ∧
          ¬ GivesUp (exitRequest pos price) a.exit router ∧
            ((remainder pos a).isSome → ¬ Identified a.exit router) := by
  unfold checkpointExit
  cases hsor : useSor settings reason currentPrice with
  | none => simpa using not_allClose_exitByMarket t pos a
  | some route =>
      rcases route with ⟨router, price⟩
      have hprice := useSor_price settings reason currentPrice hsor
      have hsplit : ∀ first rest : List OrderRequest,
          AllClose pos (first ++ rest) ↔ AllClose pos first ∧ AllClose pos rest :=
        fun first rest => List.forall_mem_append
      dsimp only
      rw [hsplit, allClose_executeExit_iff t pos a router hprice,
        allClose_afterSor_iff t pos a router hprice]
      simp

end CheckpointOrders

section TrailingOrders

variable (t : InstrumentTables) (a : LimitAnswers) (close : CloseAnswers) (snap : Snapshot)

/-- Events that are no limit orders leave the requests as they are. -/
def NoLimit (e : ApmEvent) : Prop :=
  limitRequest? t snap e = none

/-- The second log is the first one with no limit order behind it. -/
def Silent (s s' : ManagerState) : Prop :=
  Appended (NoLimit t snap) s.log s'.log

theorem silent_emit (s : ManagerState) {e : ApmEvent} (he : limitRequest? t snap e = none) :
    Silent t snap s (s.emit e) :=
  Appended.single he

theorem cancelOpenOrders_silent (cancel : Nat → Except Text Unit) (symbol : Text) (n : Nat)
    (orders : List OpenOrder) (s : ManagerState) :
    Silent t snap s (cancelOpenOrders cancel symbol n orders s).1 := by
  induction orders generalizing n s with
  | nil => exact Appended.refl _ _
  | cons order rest ih =>
      unfold cancelOpenOrders
      split_ifs
      · cases cancel n with
        | ok _ => exact Appended.trans (silent_emit t snap s rfl) (ih (n + 1) _)
        | error message => exact silent_emit t snap s rfl
      · exact ih n s

/-- An attempt to force close sends cancellations and a market order. -/
theorem closeAttempt_silent (s : ManagerState) : Silent t snap s (closeAttempt close s).1 := by
  unfold closeAttempt
  cases close.ordersRead with
  | error message => exact Appended.refl _ _
  | ok _ =>
      have hcancel := cancelOpenOrders_silent t snap close.cancel s.pos.symbol 0
        (fetchOpenOrders close.orders) s
      dsimp only
      split
      · rename_i s' message heq
        rw [heq] at hcancel
        exact hcancel
      · rename_i s' heq
        rw [heq] at hcancel
        have hmarket : ∀ side qty accepted,
            Silent t snap s (s'.emit (.marketSent side qty accepted)) := fun side qty accepted =>
          Appended.trans hcancel (silent_emit t snap s' rfl)
        by_cases hqty : 0 < s'.pos.amount
        · rw [if_pos hqty]
          cases close.market with
          | error message => exact hmarket _ _ _
          | ok order =>
              dsimp only
              split
              · exact hmarket _ _ _
              · cases close.readBack with
                | error message => exact hmarket _ _ _
                | ok _ =>
                    dsimp only
                    split
                    · exact hmarket _ _ _
                    · exact hmarket _ _ _
        · rw [if_neg hqty]
          exact hcancel

/-- A force close sends no limit order. -/
theorem forceClosePosition_silent (reason : Text) (s : ManagerState) :
    Silent t snap s (forceClosePosition close reason s) := by
  have hattempt := closeAttempt_silent t close snap s
  have hremove : ∀ s' : ManagerState, Silent t snap s' s'.remove := fun s' =>
    silent_emit t snap s' rfl
  have hpersist : ∀ s' : ManagerState, Silent t snap s' s'.persist := fun s' =>
    silent_emit t snap s' rfl
  have hfinish : ∀ (fill clock : ℚ) (s' : ManagerState), Silent t snap s s' →
      Silent t snap s (finishClose reason fill { s' with forceClosedAt := some clock }) := by
    intro fill clock s' h
    unfold finishClose
    split_ifs
    · have hwritten := hpersist ({ s' with forceClosedAt := some clock }.edit
        ({ · with exitPrice := some fill, exitReason := some reason }))
      exact Appended.trans h (Appended.trans hwritten (hremove _))
    · exact Appended.trans h (hremove _)
  unfold forceClosePosition
  split
  · rename_i s' fill heq
    rw [heq] at hattempt
    exact hfinish fill close.clock s' hattempt
  · rename_i s' message heq
    rw [heq] at hattempt
    split_ifs
    · exact hfinish 0 close.clock s' hattempt
    · exact Appended.trans hattempt (hpersist _)

/-- Silent calls leave the limit orders of a log as they are. -/
theorem filterMap_of_silent {s s' : ManagerState} (h : Silent t snap s s') :
    s'.log.filterMap (limitRequest? t snap) = s.log.filterMap (limitRequest? t snap) := by
  rcases h with ⟨new, hlog, hnew⟩
  rw [hlog, List.filterMap_append, List.filterMap_eq_nil_iff.mpr hnew, List.append_nil]

/-- The price rule submits its one order exactly when amount and price are positive. -/
theorem placeLimitExit_requests (price : ℚ) (s : ManagerState) :
    (placeLimitExit a price s).log.filterMap (limitRequest? t snap) =
      s.log.filterMap (limitRequest? t snap) ++
        if 0 < s.pos.amount ∧ 0 < price then
          [limitRequest t snap.symbol snap.side.apiSide s.pos.amount price true]
        else [] := by
  unfold placeLimitExit
  split_ifs
  · cases a.order with
    | ok order =>
        dsimp only
        exact List.filterMap_append
    | error message => exact List.filterMap_append
  · rw [List.append_nil]

/-- The orders that one pass of the rule adds. -/
theorem trailingLimit_requests (s : ManagerState) :
    (trailingLimit a close snap s).state.log.filterMap (limitRequest? t snap) =
      s.log.filterMap (limitRequest? t snap) ++
        if limitDue a snap s then
          [limitRequest t snap.symbol snap.side.apiSide s.pos.amount
            (nextLimitPrice snap (activateLimit a.clock snap s).pos.trailingLimitPrice) true]
        else [] := by
  have hamount : (activateLimit a.clock snap s).pos.amount = s.pos.amount := by
    unfold activateLimit
    split_ifs <;> rfl
  have hlog : (activateLimit a.clock snap s).log = s.log := by
    unfold activateLimit
    split_ifs <;> rfl
  unfold trailingLimit limitDue
  dsimp only
  rw [← hlog]
  generalize activateLimit a.clock snap s = active at hamount ⊢
  by_cases hactive : active.pos.trailingLimitState = .TRAILING_LIMIT_ACTIVE
  · rw [if_pos hactive]
    by_cases htimeout : 60 < a.clock - active.pos.trailingLimitPlacedAt.getD a.clock
    · rw [if_pos htimeout]
      have hlate : ¬ a.clock - active.pos.trailingLimitPlacedAt.getD a.clock ≤ 60 :=
        htimeout.not_ge
      have hcancelled : Silent t snap active
          (if active.pos.trailingLimitOrderId = [] then active else cancelLimit a active) := by
        split_ifs
        · exact Appended.refl _ _
        · exact silent_emit t snap _ rfl
      have hclosed := Appended.trans hcancelled
        (forceClosePosition_silent t close snap "trailing_limit_timeout_60s".toList _)
      refine (filterMap_of_silent t snap hclosed).trans ?_
      simp [hlate]
    · have hearly := not_lt.mp htimeout
      rw [if_neg htimeout]
      by_cases hfresh : active.pos.trailingLimitOrderId = []
      · rw [if_pos hfresh, Flow.state_next, placeLimitExit_requests]
        simp [hactive, hearly, hfresh, hamount]
      · rw [if_neg hfresh]
        by_cases hreprice : repriceLimit active.pos
            (nextLimitPrice snap active.pos.trailingLimitPrice) = true
        · have hcancel : (cancelLimit a active).log.filterMap (limitRequest? t snap) =
              active.log.filterMap (limitRequest? t snap) :=
            filterMap_of_silent t snap (silent_emit t snap active rfl)
          have hsame : (cancelLimit a active).pos = active.pos := rfl
          rw [if_pos hreprice, Flow.state_next, placeLimitExit_requests, hcancel, hsame]
          simp [hactive, hearly, hreprice, hamount]
        · rw [if_neg hreprice]
          simp [hfresh, hreprice]
  · rw [if_neg hactive]
    simp [hactive]

/-- The orders of one pass of the rule. -/
theorem trailingOrders_eq (s : ManagerState) :
    trailingOrders t a close snap s =
      if limitDue a snap s then
        [limitRequest t snap.symbol snap.side.apiSide s.pos.amount
          (nextLimitPrice snap (activateLimit a.clock snap s).pos.trailingLimitPrice) true]
      else [] := by
  have hsame : (activateLimit a.clock snap { s with log := [] }).pos =
      (activateLimit a.clock snap s).pos := by
    unfold activateLimit
    split_ifs <;> rfl
  have hdue : limitDue a snap { s with log := [] } = limitDue a snap s := by
    unfold limitDue
    rw [hsame]
  rw [trailingOrders, trailingLimit_requests, hdue, hsame]
  rfl

/-- The rule's order is on the side of the position, so it closes only when nothing is
due. -/
theorem trailingOrders_closing_iff (s : ManagerState) :
    (∀ request ∈ trailingOrders t a close snap s, Submission.Closes ⟨snap.side, request⟩) ↔
      limitDue a snap s = false := by
  rw [trailingOrders_eq]
  by_cases hdue : limitDue a snap s = true
  · rw [if_pos hdue, hdue]
    refine iff_of_false (fun h => ?_) Bool.noConfusion
    have hside := (h _ (List.mem_singleton_self _)).2
    have hopposite : snap.side.apiSide = snap.side.apiSide.opposite := hside
    cases hsnap : snap.side with
    | LONG =>
        rw [hsnap] at hopposite
        cases hopposite
    | SHORT =>
        rw [hsnap] at hopposite
        cases hopposite
  · rw [if_neg hdue]
    simp [hdue]

end TrailingOrders

/-! ## Runs of closing routines -/

section Runs

variable (t : InstrumentTables)

/-- A call submits closing orders only exactly when its condition is met. -/
theorem closes_iff_met (call : ClosingCall) :
    (∀ s ∈ call.submissions t, s.Closes) ↔ call.Met := by
  cases call with
  | telegram symbol positions => exact closePosition_closing_iff t symbol positions
  | checkpoint settings pos reason currentPrice a =>
      refine Iff.trans ?_ (checkpointExit_closing_iff t settings pos reason currentPrice a)
      exact List.forall_mem_map
  | trailing a close snap s =>
      refine Iff.trans ?_ (trailingOrders_closing_iff t a close snap s)
      exact List.forall_mem_map

/-- A protective fill and a fill of a closing order reduce the position, whatever it is
when they arrive. -/
theorem settle_reduces {moment : Moment}
    (h : ∀ request qty, moment = .execution request qty → request.reduceOnly = true)
    (size : ℚ) : Reduces size moment := by
  cases moment with
  | protectiveFill qty => exact reduce_within qty.coe_nonneg size
  | execution request qty =>
      rw [Reduces, settle, h request qty rfl]
      exact applyFill_within _ size

/-- Moments that reduce every position they meet reduce it along the run. -/
theorem admits_of_forall {moments : List Moment}
    (h : ∀ moment ∈ moments, ∀ size, Reduces size moment) (size : ℚ) :
    Admits settle Reduces size moments := by
  induction moments generalizing size with
  | nil => trivial
  | cons moment rest ih =>
      exact ⟨h moment List.mem_cons_self size,
        ih (fun m hm => h m (List.mem_cons_of_mem moment hm)) _⟩

/-- The whole run leaves the position between flat and what it was. -/
theorem run_within {moments : List Moment} {size : ℚ} (h : Admits settle Reduces size moments) :
    Within (Karsa.run settle size moments) size := by
  induction moments generalizing size with
  | nil => exact Within.refl size
  | cons moment rest ih => exact (ih h.2).trans h.1

end Runs

/-- Closing never opens in a run exactly when every call of it meets its condition. -/
theorem closingRun_never_opens_iff (t : InstrumentTables) (run : ClosingRun t) (size : ℚ) :
    NeverOpens t run size ↔ ∀ call ∈ run.calls, call.Met := by
  constructor
  · intro h call hcall
    exact (closes_iff_met t call).mp (h.closes call hcall)
  · intro h
    have hcloses : ∀ call ∈ run.calls, ∀ s ∈ call.submissions t, s.Closes :=
      fun call hcall => (closes_iff_met t call).mpr (h call hcall)
    refine ⟨hcloses, admits_of_forall (fun moment hmoment => settle_reduces ?_) size⟩
    rintro request qty rfl
    rcases run.issued request qty hmoment with ⟨call, hcall, s, hs, rfl⟩
    exact (hcloses call hcall s hs).1

/-- The bot closes the long, but its stop fills first. -/
def lateTelegramClose : ClosingRun .empty where
  calls := [.telegram "BTCUSDT".toList (some [ExchangePosition.unitLong])]
  moments := [.protectiveFill 1,
    .execution (marketRequest .empty "BTCUSDT".toList .sell 1 false) 1]
  issued := by
    intro request qty h
    simp only [List.mem_cons, reduceCtorEq, List.not_mem_nil, or_false, false_or,
      Moment.execution.injEq] at h
    rcases h with ⟨rfl, -⟩
    exact ⟨_, List.mem_singleton_self _, _, List.mem_singleton_self _, rfl⟩

/-- A hard fail of a stored long. -/
def hardFailOfLong : ClosingCall :=
  .checkpoint ⟨none⟩ (.opened "BTC/USDT".toList .LONG 100 1 none none none 2 0)
    "hard_fail_usd".toList (some 90)
    ⟨⟨.failed, .failed, fun _ => .failed, .failed, fun _ => none, fun _ => .ok ()⟩, .failed,
      none⟩

/-- The exit of the long is filled. -/
def checkpointOfLong : ClosingRun .empty where
  calls := [hardFailOfLong]
  moments := [.execution (marketRequest .empty "BTC/USDT".toList .buy 1 false) 1]
  issued := by
    intro request qty h
    simp only [List.mem_cons, List.not_mem_nil, or_false, Moment.execution.injEq] at h
    rcases h with ⟨rfl, -⟩
    refine ⟨hardFailOfLong, List.mem_singleton_self _,
      ⟨.LONG, marketRequest .empty "BTC/USDT".toList .buy 1 false⟩, ?_, rfl⟩
    exact List.mem_singleton_self _

/-- The bot's order turns the position that its stop has closed, and a checkpoint's exit
doubles the long it should close. -/
theorem closing_opens_short :
    (¬ NeverOpens .empty lateTelegramClose 1 ∧
        Karsa.run settle 1 lateTelegramClose.moments = -1) ∧
      ¬ NeverOpens .empty checkpointOfLong 1 ∧
        Karsa.run settle 1 checkpointOfLong.moments = 2 := by
  have hturned : Karsa.run settle 1 lateTelegramClose.moments = -1 := by
    decide +kernel
  have hdoubled : Karsa.run settle 1 checkpointOfLong.moments = 2 := by
    decide +kernel
  refine ⟨⟨fun h => ?_, hturned⟩, fun h => ?_, hdoubled⟩
  · have hwithin := run_within h.reduces
    rw [hturned] at hwithin
    revert hwithin
    decide +kernel
  · have hwithin := run_within h.reduces
    rw [hdoubled] at hwithin
    revert hwithin
    decide +kernel

end Closing
end Karsa
