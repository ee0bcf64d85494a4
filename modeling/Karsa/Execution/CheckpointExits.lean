import Karsa.Execution.PositionLifecycle
import Karsa.Execution.Router.ExitFills

/-!
# Closing routines - What a checkpoint exit leaves open

`CheckpointManager._exit` takes the first order dictionary that it gets for its exit, looks that
order up once, and removes the record.  It does not ask for what the order has executed in the
end, for what other orders of the router have executed, or for what became of its remainder.

Main results:

- Theorem `executeExit_returned`: the dictionary that the router returns.
- Theorem `length_requests`: how many orders an exit sends.
- Theorem `removed_iff`: when an exit removes the record.
- Theorem `neverForgets_iff`: when an exit leaves nothing open of a record that it removes, and
  never closes more than that.
- Theorem `exists_forgotten`: every position can be removed with nothing closed.
-/

namespace Karsa

/-! ## The order that the router returns -/

namespace Router

open Bybit

section Returned

variable (t : InstrumentTables) (r : EntryRequest) (a : ExitAnswers) (settings : RouterSettings)

/-- The placement whose dictionary an exit returns: the limit order that is reported live, or the
market order that is sent after all of them. -/
def returnedPlacement : Option Placement :=
  ((exitCourse r a settings).find? Placement.taken).or
    (if (marketId a).isSome then some a.market else none)

variable {t r a settings}

/-- No live order among the limit orders. -/
theorem find?_taken_eq_none {course : List Placement} (h : course.any Placement.taken = false) :
    course.find? Placement.taken = none := by
  rw [List.find?_eq_none]
  intro p hp htaken
  rw [List.any_eq_false] at h
  exact h p hp htaken

/-- A reprice that ends the exit returns the live order of its course. -/
theorem exitReprice_took (left attempt : Nat) {s : ExitState} (hbound : Bound s)
    (hremaining : 0 < s.remaining) :
    (exitReprice t r a left attempt s).Ends
      (fun s' => (repriceCourse r a left attempt s.price).any Placement.taken = false ∧
        Bound s' ∧ 0 < s'.remaining)
      (fun s' => ∃ p, (repriceCourse r a left attempt s.price).find? Placement.taken = some p ∧
        Took p s') := by
  induction left generalizing attempt s with
  | zero => exact ⟨rfl, hbound, hremaining⟩
  | succ left ih =>
      rcases hbound with ⟨order, horder, hid⟩
      have htracked := trackPartialFill_eq_self a hid attempt s
      have hcancelled := exitCancelled_eq_true a hid (.reprice attempt)
      rw [exitReprice, horder, repriceCourse]
      dsimp only
      rw [htracked, if_pos hcancelled, if_neg hremaining.not_ge]
      by_cases hopen : r.side = .sell ∧ nextExitPrice r s.price ≤ 0
      · rw [if_pos hopen, if_pos hopen]
        exact ⟨rfl, ⟨order, horder, hid⟩, hremaining⟩
      · rw [if_neg hopen, if_neg hopen]
        have hsent := (sendExitLimit_ends t r (a.reprice attempt) (nextExitPrice r s.price)
          { s with price := nextExitPrice r s.price }).and (@sendExitLimit_course t r
            (a.reprice attempt) (nextExitPrice r s.price)
              { s with price := nextExitPrice r s.price })
        refine Flow.Ends.andThen (hsent.mono (fun _ h => h) ?_) ?_
        · rintro s' ⟨htook, -⟩
          exact ⟨a.reprice attempt, List.find?_cons_of_pos htook.taken, htook⟩
        · rintro s' ⟨⟨hdead, hsame, hanswered, hrefused⟩, -, -, hprice, -⟩
          have hbound' : Bound s' := by
            cases hok : (a.reprice attempt).reply.isOk with
            | true => exact hanswered hok
            | false => exact ⟨order, (hrefused hok).trans horder, hid⟩
          have hrest := ih (attempt + 1) hbound' (hsame ▸ hremaining)
          rw [hprice] at hrest
          rw [hdead, if_neg Bool.false_ne_true]
          have hskip := @List.find?_cons_of_neg _ Placement.taken (a.reprice attempt)
            (repriceCourse r a left (attempt + 1) (nextExitPrice r s.price))
              (Bool.eq_false_iff.mp hdead)
          refine hrest.mono ?_ ?_
          · rintro final ⟨hnone, hfinal⟩
            exact ⟨by simp [hdead, hnone], hfinal⟩
          · rintro final ⟨p, hfind, htook⟩
            exact ⟨p, hskip.trans hfind, htook⟩

/-- A market order that is returned is the one of the answers. -/
theorem exitMarketFallback_returned {s : ExitState} (hremaining : 0 < s.remaining)
    (hbound : Bound s) (hpost : a.postOnly.reply.isOk = true) {order : OrderReply}
    (h : (exitMarketFallback t r a s).state.outcome = .ok (some order)) :
    (marketId a).isSome = true ∧ a.market.reply = .ok order := by
  rcases hbound with ⟨last, hlast, hid⟩
  rw [exitMarketFallback, if_pos hremaining, hlast] at h
  rw [marketId, if_pos hpost]
  dsimp only at h
  rw [if_pos (exitCancelled_eq_true a hid .market)] at h
  cases hreply : a.market.reply with
  | error message =>
      rw [hreply] at h
      cases h
  | ok sold =>
      rw [hreply] at h
      dsimp only at h
      split_ifs at h with hsold
      · cases h
        exact ⟨hsold, rfl⟩
      · cases h

/-- The dictionary that an exit returns. -/
theorem executeExit_returned (hprice : 0 < r.price) (hamount : 0 < r.amount) {order : OrderReply}
    (h : (executeExit t r a settings).outcome = .ok (some order)) :
    ∃ p, returnedPlacement r a settings = some p ∧ p.reply = .ok order := by
  revert h
  rw [executeExit_eq t a settings hprice]
  have hfirst := (sendExitLimit_ends t r a.postOnly r.price (.start r)).and
    (@sendExitLimit_course t r a.postOnly r.price (.start r))
  refine @Flow.Ends.andThen_state _ _ _ (fun s => s.outcome = .ok (some order) →
    ∃ p, returnedPlacement r a settings = some p ∧ p.reply = .ok order) _ _ hfirst ?_ ?_
  · rintro s ⟨⟨hdead, hsame, hanswered, hrefused⟩, -, -, hstay, -⟩
    have hpositive : 0 < s.remaining := hsame ▸ hamount
    rw [Flow.blocks_cons, Flow.blocks_singleton]
    cases hpost : a.postOnly.reply.isOk with
    | false =>
        have hnone : s.order = none := hrefused hpost
        cases settings.maxRepriceAttempts with
        | zero =>
            rw [exitReprice, Flow.next_andThen, exitMarketFallback, if_pos hpositive, hnone]
            rintro ⟨⟩
        | succ left =>
            rw [exitReprice, hnone]
            rintro ⟨⟩
    | true =>
        have hcourse : exitCourse r a settings =
            a.postOnly :: repriceCourse r a settings.maxRepriceAttempts 0 s.price := by
          rw [exitCourse, if_neg (by simp [hdead, hpost]), hstay]
          rfl
        have hskip := @List.find?_cons_of_neg _ Placement.taken a.postOnly
          (repriceCourse r a settings.maxRepriceAttempts 0 s.price) (Bool.eq_false_iff.mp hdead)
        refine @Flow.Ends.andThen_state _ _ _ (fun s => s.outcome = .ok (some order) →
          ∃ p, returnedPlacement r a settings = some p ∧ p.reply = .ok order) _ _
          (exitReprice_took settings.maxRepriceAttempts 0 (hanswered hpost) hpositive) ?_ ?_
        · rintro s' ⟨hnone, hbound, hrest⟩ h
          rcases exitMarketFallback_returned hrest hbound hpost h with ⟨hsome, hreply⟩
          refine ⟨a.market, ?_, hreply⟩
          rw [returnedPlacement, hcourse, hskip, find?_taken_eq_none hnone, if_pos hsome]
          rfl
        · rintro s' ⟨p, hfind, order', hreply, -, houtcome⟩ h
          rw [houtcome] at h
          refine ⟨p, ?_, hreply.trans (by rw [Option.some.inj (Except.ok.inj h)])⟩
          rw [returnedPlacement, hcourse, hskip, hfind]
          rfl
  · rintro s ⟨htook, -⟩ h
    rcases htook with ⟨order', hreply, hlive, houtcome⟩
    rw [houtcome] at h
    have htaken : a.postOnly.taken = true := by
      rw [Placement.taken, hreply]
      exact hlive
    refine ⟨a.postOnly, ?_, hreply.trans (by rw [Option.some.inj (Except.ok.inj h)])⟩
    rw [returnedPlacement, exitCourse, List.find?_cons_of_pos htaken]
    rfl

/-- An exit that raises, or returns nothing, has no placement to return. -/
theorem returnedPlacement_eq_none (hprice : 0 < r.price) (hamount : 0 < r.amount)
    (h : ¬ Returned (executeExit t r a settings)) :
    returnedPlacement r a settings = none := by
  have hend := @executeExit_course t r a settings hprice hamount
  have hdead : ∀ _ : courseTaken r a settings = false, ∀ _ : marketId a = none,
      returnedPlacement r a settings = none := by
    intro htaken hmarket
    rw [returnedPlacement, find?_taken_eq_none htaken, hmarket]
    rfl
  have hunsent : a.postOnly.reply.isOk = false → marketId a = none := by
    intro hpost
    rw [marketId, hpost]
    rfl
  cases hend with
  | taken htaken hsent hreturned => exact absurd hreturned h
  | unbound htaken hpost hattempts hsent houtcome => exact hdead htaken (hunsent hpost)
  | refused htaken hpost hattempts hsent houtcome => exact hdead htaken (hunsent hpost)
  | market htaken hpost before hbefore hsent houtcome =>
      rcases houtcome with ⟨-, hreturned⟩ | ⟨hmarket, -⟩
      · exact absurd hreturned h
      · exact hdead htaken hmarket

end Returned

end Router

namespace Closing

open Bybit Lifecycle Router

/-! ## The end of an exit -/

/-- One exit of an open position with what the exchange does: its answers, and what each order of
the call executes, by its number. -/
structure CheckpointPass where
  tables : InstrumentTables
  settings : CheckpointSettings
  pos : PositionRecord
  reason : Text
  currentPrice : Option ℚ
  answers : CheckpointAnswers
  executed : ℕ → ℚ
  storeRemoves : Bool
  tradeCloses : Bool
  amount_pos : 0 < pos.amount
  executed_nonneg : ∀ n, 0 ≤ executed n

namespace CheckpointPass

variable (c : CheckpointPass)

/-- The orders of the call. -/
def requests : List OrderRequest :=
  checkpointExit c.tables c.settings c.pos c.reason c.currentPrice c.answers

/-- The variable `order`, unless an exception prevents it. -/
def order : Option OrderReply :=
  match useSor c.settings c.reason c.currentPrice with
  | none => c.answers.market.reply.toOption
  | some (router, price) =>
      match (executeExit c.tables (exitRequest c.pos price) c.answers.exit router).outcome with
      | .error _ => none
      | .ok none => c.answers.market.reply.toOption
      | .ok (some order) => some order

/-- The exit price that the order history shows, or zero. -/
def historyPrice (order : OrderReply) : ℚ :=
  if order.orderId.getD [] = [] then 0
  else
    match c.answers.history with
    | none => 0
    | some entry =>
        match entry.avgPrice with
        | some (.value price) => if 0 < price then price else 0
        | some .malformed | none => 0

/-- `exit_price` in the end; a price of the dictionary that does not parse raises. -/
def exitPrice (order : OrderReply) : Option ℚ :=
  let parsed :=
    if c.historyPrice order = 0 then numeralOr 0 (order.average.or order.price)
    else some (c.historyPrice order)
  parsed.map fun price => if price = 0 then max (c.currentPrice.getD 0) 0 else price

/-- The record is removed. -/
def removed : Bool :=
  (c.order.bind c.exitPrice).isSome && c.storeRemoves

/-- The trade is closed. -/
def tradeClosed : Bool :=
  c.removed && c.tradeCloses && (c.order.bind c.exitPrice).any fun price => decide (0 < price)

/-- The record after the call. -/
def recordAfter : Option PositionRecord :=
  if c.removed then none else some c.pos

/-- What the closing orders of the call execute. -/
def closedQty : ℚ :=
  ((List.range c.requests.length).map fun n =>
    if c.requests[n]?.any fun request => decide (request.side = c.pos.side.apiSide.opposite) then
      c.executed n
    else 0).sum

/-- A record that is removed, or whose trade is closed, is closed entirely; any other stays, and
no exit closes more than the amount. -/
structure NeverForgets : Prop where
  complete : c.recordAfter = none ∨ c.tradeClosed = true → c.closedQty = c.pos.amount
  kept : c.recordAfter ≠ none → c.recordAfter = some c.pos
  bounded : c.closedQty ≤ c.pos.amount

/-! ## What the answers lead to -/

/-- The placement whose dictionary the exit goes on with. -/
def held : Option Placement :=
  match useSor c.settings c.reason c.currentPrice with
  | none => some c.answers.market
  | some (router, price) =>
      (returnedPlacement (exitRequest c.pos price) c.answers.exit router).or
        (if GivesUp (exitRequest c.pos price) c.answers.exit router then some c.answers.market
          else none)

/-- A dictionary of the answers, if the placement that is held has one. -/
def heldReply : Option OrderReply :=
  c.held.bind fun p => p.reply.toOption

/-- How many orders the router sends: its limit orders, and its market order if the first of them
is answered and none is taken. -/
def routerOrders (router : RouterSettings) (price : ℚ) : ℕ :=
  (exitCourse (exitRequest c.pos price) c.answers.exit router).length +
    if courseTaken (exitRequest c.pos price) c.answers.exit router = false ∧
      c.answers.exit.postOnly.reply.isOk = true then 1 else 0

/-- The history asks for a remainder, and the held dictionary has an id. -/
def remainderSent : Bool :=
  (remainder c.pos c.answers).isSome &&
    c.heldReply.any fun order => decide (order.orderId.getD [] ≠ [])

/-- How many orders the call sends: those of the router, its own market order where there is no
router or the router gives up, and the one for the remainder. -/
def sentCount : ℕ :=
  (match useSor c.settings c.reason c.currentPrice with
    | none => 1
    | some (router, price) =>
        c.routerOrders router price +
          if GivesUp (exitRequest c.pos price) c.answers.exit router then 1 else 0) +
    if c.remainderSent then 1 else 0

/-- What all orders of the call execute. -/
def total : ℚ :=
  executedBy c.executed c.sentCount

/-- The history shows a price of the order, or the dictionary has none that does not parse. -/
def Priced (order : OrderReply) : Prop :=
  (order.orderId.getD [] ≠ [] ∧ ∃ entry price, c.answers.history = some entry ∧
    entry.avgPrice = some (.value price) ∧ 0 < price) ∨
      order.average.or order.price ≠ some .malformed

/-- An order is answered by a dictionary with a price, and the store answers. -/
def Finishes : Prop :=
  (∃ order, c.heldReply = some order ∧ c.Priced order) ∧ c.storeRemoves = true

/-! ## Orders -/

section Orders

variable {c}

/-- The exit buys. -/
theorem exitRequest_side (price : ℚ) : (exitRequest c.pos price).side = .buy :=
  checkpointCloseSide_word c.pos.side

/-- The orders of the router, counted. -/
theorem length_executeExit {router : RouterSettings} {price : ℚ} (hprice : 0 < price) :
    (executeExit c.tables (exitRequest c.pos price) c.answers.exit router).requests.length =
      c.routerOrders router price := by
  have hend := @executeExit_course c.tables (exitRequest c.pos price) c.answers.exit router hprice
    c.amount_pos
  have hcount : ∀ s : ExitState,
      SentLimits c.tables (exitRequest c.pos price) (.start (exitRequest c.pos price)) s
        (exitCourse (exitRequest c.pos price) c.answers.exit router) →
      s.requests.length = (exitCourse (exitRequest c.pos price) c.answers.exit router).length := by
    intro s hs
    rcases hs.sent with ⟨orders, hsent, hcourse, -⟩
    have hsent' : s.sent = orders := hsent
    rw [ExitState.requests, hsent', ← hcourse, List.length_map, List.length_map]
  rw [routerOrders]
  cases hend with
  | taken htaken hsent hreturned => simp [hcount _ hsent, htaken]
  | unbound htaken hpost hattempts hsent houtcome => simp [hcount _ hsent, hpost]
  | refused htaken hpost hattempts hsent houtcome => simp [hcount _ hsent, hpost]
  | market htaken hpost before hbefore hsent houtcome =>
      have hlength : (executeExit c.tables (exitRequest c.pos price) c.answers.exit
          router).requests.length = before.requests.length + 1 := by
        rw [ExitState.requests, hsent, List.map_append, List.length_append]
        rfl
      rw [hlength, hcount _ hbefore]
      simp [htaken, hpost]

/-- An order with an id is followed by one for its remainder, if there is one. -/
theorem length_closeRemainder (order : OrderReply) :
    (closeRemainder c.tables c.pos c.answers order).length =
      if (remainder c.pos c.answers).isSome && decide (order.orderId.getD [] ≠ []) then 1
      else 0 := by
  unfold closeRemainder
  by_cases hid : order.orderId.getD [] = []
  · simp [hid]
  · rw [if_neg hid]
    cases remainder c.pos c.answers <;> simp [hid]

/-- The own market order with what follows it, counted. -/
theorem length_exitByMarket :
    (exitByMarket c.tables c.pos c.answers).length =
      1 + if (remainder c.pos c.answers).isSome && c.answers.market.reply.toOption.any
        fun order => decide (order.orderId.getD [] ≠ []) then 1 else 0 := by
  unfold exitByMarket
  rw [List.length_cons, add_comm]
  cases c.answers.market.reply with
  | error message => simp [Except.toOption]
  | ok order =>
      dsimp only
      rw [length_closeRemainder]
      rfl

/-- The dictionary that the exit goes on with. -/
theorem order_eq_heldReply : c.order = c.heldReply := by
  unfold order heldReply held
  cases hsor : useSor c.settings c.reason c.currentPrice with
  | none => rfl
  | some route =>
      rcases route with ⟨router, price⟩
      have hprice := useSor_price c.settings c.reason c.currentPrice hsor
      have hnone := executeExit_eq_none_iff c.tables (exitRequest c.pos price) c.answers.exit router
        (exitRequest_side price) hprice c.amount_pos
      have hreturned := @executeExit_returned c.tables (exitRequest c.pos price) c.answers.exit
        router hprice c.amount_pos
      have hempty := @returnedPlacement_eq_none c.tables (exitRequest c.pos price) c.answers.exit
        router hprice c.amount_pos
      unfold Returned at hempty
      dsimp only
      cases houtcome : (executeExit c.tables (exitRequest c.pos price) c.answers.exit
          router).outcome with
      | error message =>
          rw [houtcome] at hnone hempty
          rw [hempty (by simp), if_neg (fun h => nomatch hnone.mpr h)]
          rfl
      | ok result =>
          cases result with
          | none =>
              rw [houtcome] at hnone hempty
              rw [hempty (by simp), if_pos (hnone.mp rfl)]
              rfl
          | some order =>
              rcases hreturned houtcome with ⟨p, hp, hreply⟩
              rw [hp, Option.some_or, Option.bind_some, hreply]
              rfl

/-- The orders of the call, counted. -/
theorem length_requests : c.requests.length = c.sentCount := by
  have hheld := @order_eq_heldReply c
  have hsent : ∀ order, c.order = order → c.remainderSent = ((remainder c.pos c.answers).isSome &&
      order.any fun order => decide (order.orderId.getD [] ≠ [])) := by
    intro order horder
    rw [remainderSent, ← hheld, horder]
  unfold order at hsent
  unfold requests checkpointExit sentCount
  cases hsor : useSor c.settings c.reason c.currentPrice with
  | none =>
      rw [hsor] at hsent
      rw [hsent _ rfl]
      exact length_exitByMarket
  | some route =>
      rcases route with ⟨router, price⟩
      have hprice := useSor_price c.settings c.reason c.currentPrice hsor
      have hnone := executeExit_eq_none_iff c.tables (exitRequest c.pos price) c.answers.exit router
        (exitRequest_side price) hprice c.amount_pos
      rw [hsor] at hsent
      dsimp only at hsent ⊢
      rw [List.length_append, length_executeExit hprice]
      cases houtcome : (executeExit c.tables (exitRequest c.pos price) c.answers.exit
          router).outcome with
      | error message =>
          rw [houtcome] at hnone hsent
          rw [hsent _ rfl, if_neg (fun h => nomatch hnone.mpr h)]
          simp
      | ok result =>
          rw [houtcome] at hnone hsent
          cases result with
          | none =>
              rw [hsent _ rfl, if_pos (hnone.mp rfl), add_assoc]
              exact congrArg _ length_exitByMarket
          | some order =>
              rw [hsent _ rfl, if_neg (fun h => nomatch hnone.mpr h), add_zero]
              exact congrArg _ (length_closeRemainder order)

end Orders

/-! ## What is removed, and what is closed -/

section Removed

variable {c}

/-- The price of the history, unless it is zero. -/
theorem historyPrice_ne_zero_iff (order : OrderReply) :
    c.historyPrice order ≠ 0 ↔ order.orderId.getD [] ≠ [] ∧ ∃ entry price,
      c.answers.history = some entry ∧ entry.avgPrice = some (.value price) ∧ 0 < price := by
  unfold historyPrice
  by_cases hid : order.orderId.getD [] = []
  · simp [hid]
  · rw [if_neg hid]
    cases hhistory : c.answers.history with
    | none => simp
    | some entry =>
        rcases hprice : entry.avgPrice with _ | (_ | price)
        · simp [hprice]
        · simp [hprice]
        · by_cases hpos : 0 < price
          · simp [hprice, hpos, hid, hpos.ne']
          · simp [hprice, hpos]

/-- The exit finds a price exactly when the order is priced. -/
theorem exitPrice_isSome_iff (order : OrderReply) :
    (c.exitPrice order).isSome = true ↔ c.Priced order := by
  unfold exitPrice Priced
  rw [← historyPrice_ne_zero_iff]
  dsimp only
  rw [Option.isSome_map]
  by_cases hhistory : c.historyPrice order = 0
  · rw [if_pos hhistory]
    rcases order.average.or order.price with _ | (_ | price) <;>
      simp [hhistory, numeralOr, Numeral.decimal]
  · simp [hhistory]

/-- The record is removed exactly when the exit finishes. -/
theorem removed_iff : c.removed = true ↔ c.Finishes := by
  rw [removed, order_eq_heldReply, Bool.and_eq_true, Finishes]
  refine and_congr_left fun _ => ?_
  rw [Option.isSome_bind]
  cases c.heldReply with
  | none => simp
  | some order => simp [exitPrice_isSome_iff]

/-- A trade that is closed has no record left. -/
theorem removed_of_tradeClosed (h : c.tradeClosed = true) : c.removed = true := by
  rw [tradeClosed, Bool.and_eq_true, Bool.and_eq_true] at h
  exact h.1.1

/-- There is no record exactly when it is removed. -/
theorem recordAfter_eq_none_iff : c.recordAfter = none ↔ c.removed = true := by
  unfold recordAfter
  split_ifs with h <;> simp [h]

/-- Every order of the call buys. -/
theorem side_of_getElem? {n : ℕ} {request : OrderRequest} (h : c.requests[n]? = some request) :
    request.side = .buy :=
  checkpointExit_buys c.tables c.settings c.pos c.reason c.currentPrice c.answers request
    (List.mem_of_getElem? h)

/-- The orders of the call close a short with all they execute, and nothing of a long. -/
theorem closedQty_eq : c.closedQty = if c.pos.side = .SHORT then c.total else 0 := by
  unfold closedQty total executedBy
  rw [length_requests]
  have heach : ∀ n ∈ List.range c.sentCount,
      (if c.requests[n]?.any fun request => decide (request.side = c.pos.side.apiSide.opposite) then
        c.executed n else 0) = if c.pos.side = .SHORT then c.executed n else 0 := by
    intro n hn
    have hlt : n < c.requests.length := length_requests ▸ List.mem_range.mp hn
    have hside := side_of_getElem? (List.getElem?_eq_getElem hlt)
    rw [List.getElem?_eq_getElem hlt]
    cases hpos : c.pos.side <;> simp [hside, Side.apiSide, OrderSide.opposite]
  rw [List.map_congr_left heach]
  split_ifs with hshort
  · rfl
  · simp

/-- An exit never leaves anything open of a record that it removes exactly when it does not
finish, or closes a short with orders that execute the amount; and of a short it never closes
more. -/
theorem neverForgets_iff (c : CheckpointPass) :
    c.NeverForgets ↔ (c.Finishes → c.pos.side = .SHORT ∧ c.total = c.pos.amount) ∧
      (c.pos.side = .SHORT → c.total ≤ c.pos.amount) := by
  have hgone : c.recordAfter = none ∨ c.tradeClosed = true ↔ c.Finishes := by
    rw [recordAfter_eq_none_iff, ← removed_iff]
    exact ⟨fun h => h.elim id removed_of_tradeClosed, Or.inl⟩
  have hkept : c.recordAfter ≠ none → c.recordAfter = some c.pos := by
    intro h
    have hstays : ¬ c.removed = true := fun hremoved => h (recordAfter_eq_none_iff.mpr hremoved)
    rw [recordAfter, if_neg hstays]
  constructor
  · intro h
    have hcomplete := fun hfinishes => h.complete (hgone.mpr hfinishes)
    have hbounded := h.bounded
    rw [closedQty_eq] at hcomplete hbounded
    refine ⟨fun hfinishes => ?_, fun hshort => by rwa [if_pos hshort] at hbounded⟩
    have hall := hcomplete hfinishes
    by_cases hshort : c.pos.side = .SHORT
    · rw [if_pos hshort] at hall
      exact ⟨hshort, hall⟩
    · rw [if_neg hshort] at hall
      exact absurd hall c.amount_pos.ne
  · rintro ⟨hcomplete, hbounded⟩
    refine ⟨fun h => ?_, hkept, ?_⟩
    · rcases hcomplete (hgone.mp h) with ⟨hshort, hall⟩
      rw [closedQty_eq, if_pos hshort, hall]
    · rw [closedQty_eq]
      split_ifs with hshort
      · exact hbounded hshort
      · exact c.amount_pos.le

end Removed

/-! ## Positions that are forgotten -/

/-- An order that the exchange acknowledges and keeps in the book. -/
def restingOrder : Placement :=
  .answered "1".toList true
    fun _ => .ok (some ⟨"1".toList, .New, some (.value 0), none, some (.value 0)⟩)

/-- The exchange keeps every order in the book, and its history is not available. -/
def restingAnswers : CheckpointAnswers where
  exit := ⟨restingOrder, restingOrder, fun _ => restingOrder, restingOrder, fun _ => none,
    fun _ => .ok ()⟩
  market := restingOrder
  history := none

/-- Nothing of the exit executes. -/
def resting (t : InstrumentTables) (settings : CheckpointSettings) {pos : PositionRecord}
    (hpos : 0 < pos.amount) (reason : Text) (currentPrice : Option ℚ) : CheckpointPass where
  tables := t
  settings := settings
  pos := pos
  reason := reason
  currentPrice := currentPrice
  answers := restingAnswers
  executed := fun _ => 0
  storeRemoves := true
  tradeCloses := true
  amount_pos := hpos
  executed_nonneg := fun _ => le_rfl

/-- Every position can be removed, by every exit, with nothing executed. -/
theorem exists_forgotten (t : InstrumentTables) (settings : CheckpointSettings)
    (pos : PositionRecord) (hpos : 0 < pos.amount) (reason : Text) (currentPrice : Option ℚ) :
    (resting t settings hpos reason currentPrice).removed = true ∧
      (resting t settings hpos reason currentPrice).total = 0 := by
  constructor
  · rw [removed_iff]
    have hheld : (resting t settings hpos reason currentPrice).held = some restingOrder := by
      unfold held
      cases useSor (resting t settings hpos reason currentPrice).settings
          (resting t settings hpos reason currentPrice).reason
            (resting t settings hpos reason currentPrice).currentPrice with
      | none => rfl
      | some route => rfl
    rw [Finishes, heldReply, hheld]
    exact ⟨⟨_, rfl, Or.inr (by decide)⟩, rfl⟩
  · exact List.sum_eq_zero (by simp [resting])

/-- The order of a hard fail executes four of ten, and what is sent for the rest nothing. -/
def partlyClosed : CheckpointPass where
  tables := .empty
  settings := ⟨none⟩
  pos := .opened "BTC/USDT".toList .SHORT 100 10 none none none 2 0
  reason := "hard_fail_usd".toList
  currentPrice := some 110
  answers :=
    ⟨restingAnswers.exit, { restingOrder with lookups := fun _ => .ok none },
      some ⟨some (.value 110), some (.value 4)⟩⟩
  executed := fun n => if n = 0 then 4 else 0
  storeRemoves := true
  tradeCloses := true
  amount_pos := by decide +kernel
  executed_nonneg := fun n => by split_ifs <;> norm_num

/-- Six of ten stay open, without a record. -/
theorem partlyClosed_forgotten : ¬ partlyClosed.NeverForgets := by
  intro h
  have hclosed := h.complete (Or.inl (by decide +kernel))
  revert hclosed
  decide +kernel

end CheckpointPass

end Closing
end Karsa
