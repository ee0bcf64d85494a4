import Karsa.Execution.Router.Exit
import Mathlib.Algebra.BigOperators.Group.List.Basic

/-!
# Smart order router - What the orders of an exit execute

The exit counts what its limit orders have executed and sends the rest to the market.  It
looks an order up, and cancels it, by the key `id` of its dictionary, which the client never
writes.  So nothing is ever counted or cancelled, and a first limit order whose call raised
leaves the variable `order` without a value.

Main results:

- Theorem `executeExit_course`: the orders an exit sends and what it returns, for both sides.
- Theorem `reachesMarket_iff`: when what is not executed goes to the market.
- Theorem `exactlyBooked_iff`: when the orders of an exit add up to its amount.
-/

namespace Karsa
namespace Router

open Bybit

/-! ## The course of an exit -/

/-- An exit of something at a price. -/
structure ExitCall extends EntryRequest where
  price_pos : 0 < price
  amount_pos : 0 < amount

section Course

variable (t : InstrumentTables) (r : EntryRequest) (a : ExitAnswers) (settings : RouterSettings)

/-- The repriced limit orders from an attempt on: they end with one that is taken, or before
the price of a sell is used up. -/
def repriceCourse : (left attempt : Nat) → ℚ → List Placement
  | 0, _, _ => []
  | left + 1, attempt, price =>
      let price := nextExitPrice r price
      if r.side = .sell ∧ price ≤ 0 then []
      else
        a.reprice attempt ::
          if (a.reprice attempt).taken then [] else repriceCourse left (attempt + 1) price

/-- The limit orders of an exit. -/
def exitCourse : List Placement :=
  a.postOnly ::
    if a.postOnly.taken = true ∨ a.postOnly.reply.isOk = false then []
    else repriceCourse r a settings.maxRepriceAttempts 0 r.price

/-- Is one of the limit orders reported live? -/
def courseTaken : Bool :=
  (exitCourse r a settings).any Placement.taken

/-- Between two states limit orders for what is left were sent and nothing was counted. -/
structure SentLimits (s s' : ExitState) (course : List Placement) : Prop where
  sent : ∃ orders : List (OrderRequest × Placement), s'.sent = s.sent ++ orders ∧
    orders.map Prod.snd = course ∧
      ∀ o ∈ orders, o.1.limitPrice.isSome = true ∧ o.1.qty = t.roundQty r.symbol s.remaining
  remaining : s'.remaining = s.remaining
  totalFilled : s'.totalFilled = s.totalFilled
  inspected : s'.inspected = s.inspected

variable {t r a}

/-- Nothing sent. -/
theorem SentLimits.refl (s : ExitState) (price : ℚ) :
    SentLimits t r s { s with price := price } [] :=
  ⟨⟨[], by simp, rfl, fun _ h => absurd h List.not_mem_nil⟩, rfl, rfl, rfl⟩

/-- First these orders, then those. -/
theorem SentLimits.trans {s s' s'' : ExitState} {first second : List Placement}
    (h : SentLimits t r s s' first) (h' : SentLimits t r s' s'' second) :
    SentLimits t r s s'' (first ++ second) := by
  rcases h.sent with ⟨orders, hsent, hcourse, hlimit⟩
  rcases h'.sent with ⟨orders', hsent', hcourse', hlimit'⟩
  refine ⟨⟨orders ++ orders', ?_, ?_, fun o ho => ?_⟩, h'.remaining.trans h.remaining,
    h'.totalFilled.trans h.totalFilled, h'.inspected.trans h.inspected⟩
  · rw [hsent', hsent, List.append_assoc]
  · rw [List.map_append, hcourse, hcourse']
  · rcases List.mem_append.mp ho with hold | hnew
    · exact hlimit o hold
    · rw [← h.remaining]
      exact hlimit' o hnew

/-- The returned value is an order. -/
def Returned (s : ExitState) : Prop :=
  ∃ order, s.outcome = .ok (some order)

/-- One limit order is sent, and returned if it is taken. -/
theorem sendExitLimit_course (p : Placement) (price : ℚ) (s : ExitState) :
    (sendExitLimit t r p price s).Ends
      (fun s' => p.taken = false ∧ SentLimits t r s s' [p] ∧ s'.price = s.price ∧
        (p.reply.isOk = true → Bound s') ∧ (p.reply.isOk = false → s'.order = s.order))
      (fun s' => p.taken = true ∧ SentLimits t r s s' [p] ∧ Returned s') := by
  have hends := sendExitLimit_ends t r p price s
  have hcourse : ∀ s' : ExitState,
      s'.sent = s.sent ++ [(exitLimit t r s.remaining price, p)] → s'.remaining = s.remaining →
        s'.totalFilled = s.totalFilled → s'.inspected = s.inspected →
          SentLimits t r s s' [p] := by
    intro s' hsent hremaining htotal hinspected
    refine ⟨⟨[(exitLimit t r s.remaining price, p)], hsent, rfl, fun o ho => ?_⟩, hremaining,
      htotal, hinspected⟩
    rw [List.mem_singleton.mp ho]
    exact ⟨rfl, rfl⟩
  unfold sendExitLimit at hends ⊢
  cases hreply : p.reply with
  | error message =>
      rw [hreply] at hends
      exact ⟨hends.1, hcourse _ rfl rfl rfl rfl, rfl, hends.2.2⟩
  | ok order =>
      rw [hreply] at hends
      dsimp only at hends ⊢
      split_ifs at hends ⊢
      · exact ⟨hends.taken, hcourse _ rfl rfl rfl rfl, order, rfl⟩
      · exact ⟨hends.1, hcourse _ rfl rfl rfl rfl, rfl, hends.2.2⟩

/-- The reprices send their course: its last order is taken and returned, or none is. -/
theorem exitReprice_course (left attempt : Nat) {s : ExitState} (hbound : Bound s)
    (hremaining : 0 < s.remaining) :
    (exitReprice t r a left attempt s).Ends
      (fun s' => (repriceCourse r a left attempt s.price).any Placement.taken = false ∧
        SentLimits t r s s' (repriceCourse r a left attempt s.price) ∧ Bound s')
      (fun s' => (repriceCourse r a left attempt s.price).any Placement.taken = true ∧
        SentLimits t r s s' (repriceCourse r a left attempt s.price) ∧ Returned s') := by
  induction left generalizing attempt s with
  | zero => exact ⟨rfl, SentLimits.refl s s.price, hbound⟩
  | succ left ih =>
      rcases hbound with ⟨order, horder, hid⟩
      have htracked := trackPartialFill_eq_self a hid attempt s
      have hcancelled := exitCancelled_eq_true a hid (.reprice attempt)
      have hrepriced : SentLimits t r s { s with price := nextExitPrice r s.price } [] :=
        SentLimits.refl s _
      rw [exitReprice, horder, repriceCourse]
      dsimp only
      rw [htracked, if_pos hcancelled, if_neg hremaining.not_ge]
      by_cases hopen : r.side = .sell ∧ nextExitPrice r s.price ≤ 0
      · rw [if_pos hopen, if_pos hopen]
        exact ⟨rfl, hrepriced, order, horder, hid⟩
      · rw [if_neg hopen, if_neg hopen]
        refine Flow.Ends.andThen ((@sendExitLimit_course t r (a.reprice attempt)
          (nextExitPrice r s.price) { s with price := nextExitPrice r s.price }).mono
            (fun _ h => h) ?_) ?_
        · rintro s' ⟨htaken, hsent, hreturned⟩
          rw [htaken, if_pos rfl]
          exact ⟨by simp [htaken], hrepriced.trans hsent, hreturned⟩
        · rintro s' ⟨hdead, hsent, hprice, hanswered, hrefused⟩
          have hbound' : Bound s' := by
            cases hok : (a.reprice attempt).reply.isOk with
            | true => exact hanswered hok
            | false => exact ⟨order, (hrefused hok).trans horder, hid⟩
          have hpositive : 0 < s'.remaining := hsent.remaining ▸ hremaining
          have hrest := ih (attempt + 1) hbound' hpositive
          rw [hprice] at hrest
          rw [hdead, if_neg Bool.false_ne_true]
          refine hrest.mono ?_ ?_
          · rintro final ⟨hnone, hsent', hfinal⟩
            exact ⟨by simp [hdead, hnone], (hrepriced.trans hsent).trans hsent', hfinal⟩
          · rintro final ⟨hsome, hsent', hfinal⟩
            exact ⟨by simp [hsome], (hrepriced.trans hsent).trans hsent', hfinal⟩

/-- If a limit order is taken the first one was answered. -/
theorem isOk_of_courseTaken (h : courseTaken r a settings = true) :
    a.postOnly.reply.isOk = true := by
  by_contra hpost
  have hrefused : a.postOnly.reply.isOk = false := Bool.eq_false_iff.mpr hpost
  rw [courseTaken, exitCourse, if_pos (Or.inr hrefused)] at h
  have htaken : a.postOnly.taken = true := by simpa using h
  rw [Placement.taken] at htaken
  cases hreply : a.postOnly.reply with
  | error message =>
      rw [hreply] at htaken
      exact absurd htaken Bool.false_ne_true
  | ok order => exact hpost (by rw [hreply]; rfl)

variable (t r a)

/-- How an exit ends. -/
inductive ExitEnd (s : ExitState) : Prop
  | taken (htaken : courseTaken r a settings = true)
      (hsent : SentLimits t r (.start r) s (exitCourse r a settings)) (hreturned : Returned s)
  | unbound (htaken : courseTaken r a settings = false) (hpost : a.postOnly.reply.isOk = false)
      (hattempts : settings.maxRepriceAttempts ≠ 0)
      (hsent : SentLimits t r (.start r) s (exitCourse r a settings))
      (houtcome : s.outcome = .error unboundOrder)
  | refused (htaken : courseTaken r a settings = false) (hpost : a.postOnly.reply.isOk = false)
      (hattempts : settings.maxRepriceAttempts = 0)
      (hsent : SentLimits t r (.start r) s (exitCourse r a settings))
      (houtcome : s.outcome = .ok none)
  | market (htaken : courseTaken r a settings = false) (hpost : a.postOnly.reply.isOk = true)
      (before : ExitState) (hbefore : SentLimits t r (.start r) before (exitCourse r a settings))
      (hsent : s.sent = before.sent ++ [(exitMarket t r r.amount, a.market)])
      (houtcome : (marketId a).isSome = true ∧ Returned s ∨
        marketId a = none ∧ s.outcome = .ok none)

variable {t r a}

/-- The market order of an exit that has counted nothing. -/
theorem exitMarketFallback_sends {s : ExitState} (hremaining : 0 < s.remaining)
    (hbound : Bound s) (hpost : a.postOnly.reply.isOk = true) :
    (exitMarketFallback t r a s).state.sent = s.sent ++ [(exitMarket t r s.remaining, a.market)] ∧
      ((marketId a).isSome = true ∧ Returned (exitMarketFallback t r a s).state ∨
        marketId a = none ∧ (exitMarketFallback t r a s).state.outcome = .ok none) := by
  rcases hbound with ⟨order, horder, hid⟩
  have hmarket : marketId a = a.market.reply.toOption.bind OrderReply.orderId := by
    rw [marketId, if_pos hpost]
  rw [exitMarketFallback, if_pos hremaining, horder, hmarket]
  dsimp only
  rw [if_pos (exitCancelled_eq_true a hid .market)]
  cases a.market.reply with
  | error message => exact ⟨rfl, Or.inr ⟨rfl, rfl⟩⟩
  | ok sold =>
      dsimp only
      split_ifs with hsold
      · exact ⟨rfl, Or.inl ⟨hsold, sold, rfl⟩⟩
      · refine ⟨rfl, Or.inr ⟨?_, rfl⟩⟩
        simpa [Except.toOption] using hsold

/-- After a first order that was not answered, an exit ends with the unbound variable, or with
nothing where no reprice is configured. -/
theorem exitUnanswered_ends {s : ExitState} (hdead : a.postOnly.taken = false)
    (hpost : a.postOnly.reply.isOk = false) (hsent : SentLimits t r (.start r) s [a.postOnly])
    (hnone : s.order = none) (hpositive : 0 < s.remaining) :
    ExitEnd t r a settings ((exitReprice t r a settings.maxRepriceAttempts 0 s).andThen
      (exitMarketFallback t r a)).state := by
  have hcourse : exitCourse r a settings = [a.postOnly] := by
    rw [exitCourse, if_pos (Or.inr hpost)]
  have htaken : courseTaken r a settings = false := by
    rw [courseTaken, hcourse]
    simp [hdead]
  have hsent' : SentLimits t r (.start r) s (exitCourse r a settings) := hcourse ▸ hsent
  cases hmax : settings.maxRepriceAttempts with
  | zero =>
      rw [exitReprice, Flow.next_andThen, exitMarketFallback, if_pos hpositive, hnone]
      exact .refused htaken hpost hmax
        ⟨hsent'.sent, hsent'.remaining, hsent'.totalFilled, hsent'.inspected⟩ rfl
  | succ left =>
      rw [exitReprice, hnone]
      exact .unbound htaken hpost (by omega)
        ⟨hsent'.sent, hsent'.remaining, hsent'.totalFilled, hsent'.inspected⟩ rfl

/-- After a first order that was answered and not taken, a reprice is taken, or the rest goes to
the market. -/
theorem exitAnswered_ends {s : ExitState} (hdead : a.postOnly.taken = false)
    (hpost : a.postOnly.reply.isOk = true) (hsent : SentLimits t r (.start r) s [a.postOnly])
    (hprice : s.price = r.price) (hbound : Bound s) (hpositive : 0 < s.remaining) :
    ExitEnd t r a settings ((exitReprice t r a settings.maxRepriceAttempts 0 s).andThen
      (exitMarketFallback t r a)).state := by
  have hcourse : exitCourse r a settings =
      a.postOnly :: repriceCourse r a settings.maxRepriceAttempts 0 s.price := by
    rw [exitCourse, if_neg (by simp [hdead, hpost]), hprice]
  refine @Flow.Ends.andThen_state _ _ _ (ExitEnd t r a settings) _ _
    (exitReprice_course settings.maxRepriceAttempts 0 hbound hpositive) ?_ ?_
  · rintro s' ⟨hnone, hsent', hbound'⟩
    have htaken : courseTaken r a settings = false := by
      rw [courseTaken, hcourse]
      simpa [hdead] using hnone
    have hbefore : SentLimits t r (.start r) s' (exitCourse r a settings) :=
      hcourse ▸ hsent.trans hsent'
    have hremaining : s'.remaining = r.amount := hbefore.remaining
    have hrest : 0 < s'.remaining := hsent'.remaining ▸ hpositive
    rcases exitMarketFallback_sends hrest hbound' hpost with ⟨hmarket, houtcome⟩
    rw [hremaining] at hmarket
    exact .market htaken hpost s' hbefore hmarket houtcome
  · rintro s' ⟨hsome, hsent', hreturned⟩
    have htaken : courseTaken r a settings = true := by
      rw [courseTaken, hcourse]
      simp [hsome]
    exact .taken htaken (hcourse ▸ hsent.trans hsent') hreturned

/-- How an exit of something at a price ends, on either side. -/
theorem executeExit_course (hprice : 0 < r.price) (hamount : 0 < r.amount) :
    ExitEnd t r a settings (executeExit t r a settings) := by
  rw [executeExit_eq t a settings hprice]
  refine @Flow.Ends.andThen_state _ _ _ (ExitEnd t r a settings) _ _
    (sendExitLimit_course a.postOnly r.price (.start r)) ?_ ?_
  · rintro s ⟨hdead, hsent, hstay, hanswered, hrefused⟩
    have hpositive : 0 < s.remaining := hsent.remaining ▸ hamount
    rw [Flow.blocks_cons, Flow.blocks_singleton]
    cases hpost : a.postOnly.reply.isOk with
    | false => exact exitUnanswered_ends settings hdead hpost hsent (hrefused hpost) hpositive
    | true => exact exitAnswered_ends settings hdead hpost hsent hstay (hanswered hpost) hpositive
  · rintro s ⟨htaken, hsent, hreturned⟩
    have hcourse : exitCourse r a settings = [a.postOnly] := by
      rw [exitCourse, if_pos (Or.inl htaken)]
    refine .taken ?_ (hcourse ▸ hsent) hreturned
    rw [courseTaken, hcourse]
    simp [htaken]

end Course

/-! ## Reaching the market order -/

section Fallback

/-- Executed quantity of the first orders of a call, by their number. -/
def executedBy (executed : Nat → ℚ) (n : Nat) : ℚ :=
  ((List.range n).map executed).sum

/-- Number of limit orders sent. -/
def ExitState.limitCount (s : ExitState) : Nat :=
  s.requests.countP fun request => request.limitPrice.isSome

variable (t : InstrumentTables) (c : ExitCall) (a : ExitAnswers) (settings : RouterSettings)
  (executed : Nat → ℚ)

/-- No exception escapes, and what the limit orders have not executed goes to the market. -/
def ReachesMarket : Prop :=
  let s := executeExit t c.toEntryRequest a settings
  let closed := executedBy executed s.limitCount
  (∀ message, s.outcome ≠ .error message) ∧
    (closed < c.amount →
      exitMarket t c.toEntryRequest (c.amount - closed) ∈ s.requests)

/-- The call of the first limit order returns, no limit order is reported live, and what the
limit orders execute is lost in the rounding; or they execute everything, and the call of
the first one returns or no reprice is configured. -/
def MarketReachable : Prop :=
  let closed := executedBy executed (exitCourse c.toEntryRequest a settings).length
  (c.amount ≤ closed ∧
      (a.postOnly.reply.isOk = false → settings.maxRepriceAttempts = 0)) ∨
    (a.postOnly.reply.isOk = true ∧ courseTaken c.toEntryRequest a settings = false ∧
      t.roundQty c.symbol (c.amount - closed) = t.roundQty c.symbol c.amount)

variable {t c a settings}

/-- Limit orders are counted, and none of them is a market order. -/
theorem SentLimits.requests {r : EntryRequest} {s : ExitState} {course : List Placement}
    (h : SentLimits t r (.start r) s course) :
    s.limitCount = course.length ∧ ∀ request ∈ s.requests, request.limitPrice.isSome = true := by
  rcases h.sent with ⟨orders, hsent, hcourse, hlimit⟩
  have hsent' : s.sent = orders := hsent
  have hall : ∀ request ∈ s.requests, request.limitPrice.isSome = true := by
    intro request hrequest
    rw [ExitState.requests, hsent'] at hrequest
    rcases List.mem_map.mp hrequest with ⟨o, ho, rfl⟩
    exact (hlimit o ho).1
  refine ⟨?_, hall⟩
  rw [ExitState.limitCount, List.countP_eq_length.mpr hall, ExitState.requests, hsent', ← hcourse,
    List.length_map, List.length_map]

/-- A market order of an exit is not among its limit orders. -/
theorem exitMarket_notMem {r : EntryRequest} {s : ExitState} {amount : ℚ}
    (h : ∀ request ∈ s.requests, request.limitPrice.isSome = true) :
    exitMarket t r amount ∉ s.requests :=
  fun hmem => Bool.false_ne_true (h _ hmem)

/-- Two market orders of an exit are the same request if their quantities round alike. -/
theorem exitMarket_eq_iff {r : EntryRequest} {amount amount' : ℚ} :
    exitMarket t r amount = exitMarket t r amount' ↔
      t.roundQty r.symbol amount = t.roundQty r.symbol amount' := by
  simp [exitMarket, marketRequest]

end Fallback

/-- An exit raises nothing and sends to the market what its limit orders have not executed
exactly when these execute everything, or none of them is reported live and what they execute
is lost in the rounding, and the first of them is answered. -/
theorem reachesMarket_iff (t : InstrumentTables) (c : ExitCall) (a : ExitAnswers)
    (settings : RouterSettings) (executed : Nat → ℚ) :
    ReachesMarket t c a settings executed ↔ MarketReachable t c a settings executed := by
  have hend := @executeExit_course t c.toEntryRequest a settings c.price_pos c.amount_pos
  unfold ReachesMarket MarketReachable
  dsimp only
  generalize executeExit t c.toEntryRequest a settings = s at hend
  cases hend with
  | taken htaken hsent hreturned =>
      rcases hsent.requests with ⟨hcount, hlimits⟩
      rcases hreturned with ⟨order, houtcome⟩
      rw [hcount, houtcome]
      simp [htaken, isOk_of_courseTaken settings htaken, exitMarket_notMem hlimits]
  | unbound htaken hpost hattempts hsent houtcome =>
      rw [houtcome]
      simp [hpost, hattempts]
  | refused htaken hpost hattempts hsent houtcome =>
      rcases hsent.requests with ⟨hcount, hlimits⟩
      rw [hcount, houtcome]
      simp [hpost, hattempts, exitMarket_notMem hlimits]
  | market htaken hpost before hbefore hsent houtcome =>
      rcases hbefore.requests with ⟨hcount, hlimits⟩
      have hrequests : s.requests =
          before.requests ++ [exitMarket t c.toEntryRequest c.amount] := by
        rw [ExitState.requests, hsent, List.map_append]
        rfl
      have hcount' : s.limitCount = (exitCourse c.toEntryRequest a settings).length := by
        rw [← hcount, ExitState.limitCount, hrequests, List.countP_append]
        rfl
      have hraises : ∀ message, s.outcome ≠ .error message := by
        rcases houtcome with ⟨-, order, hreturned⟩ | ⟨-, hnone⟩
        · simp [hreturned]
        · simp [hnone]
      rw [hcount', hrequests]
      simp only [List.mem_append, exitMarket_notMem hlimits, List.mem_singleton, false_or,
        exitMarket_eq_iff, htaken, hpost, hraises, ne_eq, not_false_eq_true, implies_true,
        true_and, and_true, Bool.true_eq_false, false_imp_iff]
      rw [← not_le, imp_iff_not_or, not_not]

/-- A timeout of the first limit order ends an exit without a market order. -/
theorem reachesMarket_timeout :
    ¬ ∀ (t : InstrumentTables) (c : ExitCall) (a : ExitAnswers) (settings : RouterSettings)
      (executed : Nat → ℚ), ReachesMarket t c a settings executed := by
  intro h
  have hreaches := h .empty
    ⟨⟨"BTC/USDT".toList, .sell, 1, 100⟩, by decide +kernel, by decide +kernel⟩
    ⟨.failed, .failed, fun _ => .failed, .failed, fun _ => none, fun _ => .ok ()⟩ ⟨1, false⟩
    fun _ => 0
  exact hreaches.1 unboundOrder rfl

/-! ## Counting what is executed -/

section Accounting

/-- Executed quantities by order id, the last reading of each order once. -/
def executedOnce : List (Text × ℚ) → ℚ
  | [] => 0
  | (id, filled) :: rest =>
      (if id ∈ rest.map Prod.fst then 0 else filled) + executedOnce rest

/-- Executed and resting quantity of the orders of an exit: of every order call, those that the
exchange keeps alive count with its quantity, and the others with what they executed, by the
number of the call. -/
def bookedQty (executed : Nat → ℚ) (orders : List (ℚ × Placement)) : ℚ :=
  (orders.mapIdx fun n o => o.2.liveOrders.length * o.1 + executed n).sum

/-- Id and executed quantity that the client read when it looked up a new order. -/
def Placement.reading (p : Placement) : Option (Text × ℚ) :=
  p.reply.toOption.bind fun order => order.orderId.bind fun id =>
    (order.cumExecQty.bind Numeral.decimal).map fun filled => (id, filled)

/-- All readings of a call so far. -/
def ExitState.readings (s : ExitState) : List (Text × ℚ) :=
  s.sent.filterMap (fun o => o.2.reading) ++ s.inspected

variable (t : InstrumentTables) (c : ExitCall) (a : ExitAnswers) (settings : RouterSettings)
  (executed : Nat → ℚ)

/-- The call up to a number of reprices. -/
def exitAfter (attempts : Nat) : Flow ExitState :=
  Flow.blocks [exitAtMarket t c.toEntryRequest a, exitPostOnly t c.toEntryRequest a,
    exitReprice t c.toEntryRequest a attempts 0] (.start c.toEntryRequest)

/-- `total_filled` counts every inspected order once, and `remaining` is the rest. -/
def Counted (s : ExitState) : Prop :=
  s.totalFilled = executedOnce s.readings ∧ s.remaining = c.amount - s.totalFilled ∧
    0 ≤ s.remaining

/-- The counts are right at each step from which the call goes on, and the orders of a call
that returns one add up to the amount. -/
def ExactlyBooked : Prop :=
  (∀ attempts ≤ settings.maxRepriceAttempts, ∀ s,
      (exitAfter t c a attempts).next? = some s → Counted c s) ∧
    ∀ order, (executeExit t c.toEntryRequest a settings).outcome = .ok (some order) →
      bookedQty executed ((executeExit t c.toEntryRequest a settings).sent.map fun o =>
        (o.1.qty, o.2)) = c.amount

/-- Placements of orders for the whole amount. -/
def wholeOrders (placements : List Placement) : List (ℚ × Placement) :=
  placements.map fun p => (t.roundQty c.symbol c.amount, p)

/-- The limit orders up to a number of reprices. -/
def courseAfter (attempts : Nat) : List Placement :=
  exitCourse c.toEntryRequest a { settings with maxRepriceAttempts := attempts }

/-- No order that the call goes on from has executed anything when it is looked up. -/
def NothingRead : Prop :=
  ∀ attempts ≤ settings.maxRepriceAttempts,
    (courseAfter c a settings attempts).any Placement.taken = false →
      executedOnce ((courseAfter c a settings attempts).filterMap Placement.reading) = 0

/-- Orders for the rounded amount, of which the exchange keeps some alive, add up to the
amount: the limit orders if one of them is taken, else with them the market order if it gets
an id. -/
def AmountsMatch : Prop :=
  let course := exitCourse c.toEntryRequest a settings
  (courseTaken c.toEntryRequest a settings = true →
      bookedQty executed (wholeOrders t c course) = c.amount) ∧
    (courseTaken c.toEntryRequest a settings = false → (marketId a).isSome = true →
      bookedQty executed (wholeOrders t c (course ++ [a.market])) = c.amount)

variable {t c a settings}

/-- A call that raised returned nothing. -/
theorem toOption_of_refused {p : Placement} (h : p.reply.isOk = false) :
    p.reply.toOption = none := by
  cases hreply : p.reply with
  | error message => rfl
  | ok order => simp [hreply, Except.isOk, Except.toBool] at h

/-- As nothing is counted, the counts are right if nothing was read. -/
theorem SentLimits.counted_iff {s : ExitState} {course : List Placement}
    (h : SentLimits t c.toEntryRequest (.start c.toEntryRequest) s course) :
    Counted c s ↔ executedOnce (course.filterMap Placement.reading) = 0 := by
  have htotal : s.totalFilled = 0 := h.totalFilled
  have hremaining : s.remaining = c.amount := h.remaining
  have hinspected : s.inspected = [] := h.inspected
  have hreadings : s.readings = course.filterMap Placement.reading := by
    rcases h.sent with ⟨orders, hsent, hcourse, -⟩
    have hsent' : s.sent = orders := hsent
    rw [ExitState.readings, hsent', hinspected, List.append_nil, ← hcourse, List.filterMap_map]
    rfl
  rw [Counted, htotal, hremaining, hreadings, sub_zero, eq_comm]
  exact and_iff_left ⟨rfl, c.amount_pos.le⟩

/-- Behind an answered first order the call goes on unless an order is taken. -/
theorem exitAfter_ends (hpost : a.postOnly.reply.isOk = true) (attempts : Nat) :
    (exitAfter t c a attempts).Ends
      (fun s => (courseAfter c a settings attempts).any Placement.taken = false ∧
        SentLimits t c.toEntryRequest (.start c.toEntryRequest) s
          (courseAfter c a settings attempts))
      (fun _ => (courseAfter c a settings attempts).any Placement.taken = true) := by
  rw [exitAfter, Flow.blocks_cons, exitAtMarket_eq_next t a c.price_pos, Flow.next_andThen,
    Flow.blocks_cons]
  refine Flow.Ends.andThen
    ((sendExitLimit_course a.postOnly c.price (.start c.toEntryRequest)).mono (fun _ h => h) ?_) ?_
  · rintro s ⟨htaken, -, -⟩
    simp [courseAfter, exitCourse, htaken]
  · rintro s ⟨hdead, hsent, hprice, hanswered, -⟩
    have hpositive : 0 < s.remaining := hsent.remaining ▸ c.amount_pos
    have hcourse : courseAfter c a settings attempts =
        a.postOnly :: repriceCourse c.toEntryRequest a attempts 0 s.price := by
      rw [courseAfter, exitCourse, if_neg (by simp [hdead, hpost]), hprice]
      rfl
    rw [Flow.blocks_cons, Flow.andThen_blocks_nil, hcourse]
    refine (exitReprice_course attempts 0 (hanswered hpost) hpositive).mono ?_ ?_
    · rintro s' ⟨hnone, hsent', -⟩
      exact ⟨by simp [hdead, hnone], hsent.trans hsent'⟩
    · rintro s' ⟨hsome, -, -⟩
      simp [hsome]

/-- Behind a first order whose call raised it goes on without a reprice only. -/
theorem exitAfter_refused (hpost : a.postOnly.reply.isOk = false) {attempts : Nat}
    {s : ExitState} (h : (exitAfter t c a attempts).next? = some s) :
    SentLimits t c.toEntryRequest (.start c.toEntryRequest) s [a.postOnly] := by
  rw [exitAfter, Flow.blocks_cons, exitAtMarket_eq_next t a c.price_pos, Flow.next_andThen,
    Flow.blocks_cons] at h
  have hfirst := @sendExitLimit_course t c.toEntryRequest a.postOnly c.price
    (.start c.toEntryRequest)
  rw [exitPostOnly] at h
  cases hflow : sendExitLimit t c.toEntryRequest a.postOnly c.price (.start c.toEntryRequest) with
  | ret s' => simp [hflow] at h
  | raise s' => simp [hflow] at h
  | next s' =>
      rw [hflow] at hfirst h
      rcases hfirst with ⟨-, hsent, -, -, hrefused⟩
      have hnone : s'.order = none := hrefused hpost
      rw [Flow.next_andThen, Flow.blocks_cons, Flow.andThen_blocks_nil] at h
      cases attempts with
      | zero =>
          have hsame : s' = s := by simpa [exitReprice] using h
          exact hsame ▸ hsent
      | succ left => simp [exitReprice, hnone, ExitState.fail] at h

/-- The counts of a call are right exactly if nothing is read of the orders it goes on from. -/
theorem counted_iff :
    (∀ attempts ≤ settings.maxRepriceAttempts, ∀ s,
        (exitAfter t c a attempts).next? = some s → Counted c s) ↔
      NothingRead c a settings := by
  refine forall_congr' fun attempts => imp_congr_right fun _ => ?_
  cases hpost : a.postOnly.reply.isOk with
  | true =>
      have hends := @exitAfter_ends t c a settings hpost attempts
      cases hflow : exitAfter t c a attempts with
      | next s =>
          rw [hflow] at hends
          rcases hends with ⟨hnone, hsent⟩
          simp [hnone, hsent.counted_iff]
      | ret s =>
          rw [hflow] at hends
          have htaken : (courseAfter c a settings attempts).any Placement.taken = true := hends
          simp [htaken]
      | raise s =>
          rw [hflow] at hends
          have htaken : (courseAfter c a settings attempts).any Placement.taken = true := hends
          simp [htaken]
  | false =>
      have hread : a.postOnly.reading = none := by
        rw [Placement.reading, toOption_of_refused hpost, Option.bind_none]
      have hcourse : courseAfter c a settings attempts = [a.postOnly] := by
        rw [courseAfter, exitCourse, if_pos (Or.inr hpost)]
      have hzero : executedOnce ((courseAfter c a settings attempts).filterMap
          Placement.reading) = 0 := by
        rw [hcourse, List.filterMap_cons_none hread]
        rfl
      refine iff_of_true (fun s h => ?_) fun _ => hzero
      rw [(exitAfter_refused hpost h).counted_iff, ← hcourse]
      exact hzero

/-- Limit orders are for the whole amount. -/
theorem SentLimits.wholeOrders {s : ExitState} {course : List Placement}
    (h : SentLimits t c.toEntryRequest (.start c.toEntryRequest) s course) :
    (s.sent.map fun o => (o.1.qty, o.2)) = wholeOrders t c course := by
  rcases h.sent with ⟨orders, hsent, hcourse, hlimit⟩
  have hsent' : s.sent = orders := hsent
  rw [hsent', ← hcourse, Router.wholeOrders, List.map_map]
  refine List.map_congr_left fun o ho => ?_
  rw [(hlimit o ho).2]
  rfl

end Accounting

/-- The books of an exit are exact exactly when no order that it goes on from has executed
anything, and the orders that the exchange keeps alive, at the rounded amount, and what the
others execute add up to the amount. -/
theorem exactlyBooked_iff (t : InstrumentTables) (c : ExitCall) (a : ExitAnswers)
    (settings : RouterSettings) (executed : Nat → ℚ) :
    ExactlyBooked t c a settings executed ↔
      NothingRead c a settings ∧ AmountsMatch t c a settings executed := by
  have hend := @executeExit_course t c.toEntryRequest a settings c.price_pos c.amount_pos
  rw [ExactlyBooked, counted_iff]
  refine and_congr_right fun _ => ?_
  unfold AmountsMatch
  dsimp only
  generalize executeExit t c.toEntryRequest a settings = s at hend
  cases hend with
  | taken htaken hsent hreturned =>
      rcases hreturned with ⟨order, houtcome⟩
      rw [houtcome, hsent.wholeOrders]
      simp [htaken]
  | unbound htaken hpost hattempts hsent houtcome =>
      rw [houtcome]
      simp [htaken, marketId, hpost]
  | refused htaken hpost hattempts hsent houtcome =>
      rw [houtcome]
      simp [htaken, marketId, hpost]
  | market htaken hpost before hbefore hsent houtcome =>
      have horders : (s.sent.map fun o => (o.1.qty, o.2)) =
          wholeOrders t c (exitCourse c.toEntryRequest a settings ++ [a.market]) := by
        rw [hsent, List.map_append, hbefore.wholeOrders]
        simp [wholeOrders, exitMarket, marketRequest]
      rw [horders]
      rcases houtcome with ⟨hid, order, hreturned⟩ | ⟨hid, hnone⟩
      · simp [hreturned, htaken, hid]
      · simp [hnone, htaken, hid]

/-- A post-only order that rests unseen and the market order add up to twice the amount. -/
theorem exactlyBooked_unseen :
    ¬ ∀ (t : InstrumentTables) (c : ExitCall) (a : ExitAnswers) (settings : RouterSettings)
      (executed : Nat → ℚ), ExactlyBooked t c a settings executed := by
  intro h
  let unseen := Placement.answered "order-1".toList true fun _ => .ok none
  have hbooked := (h .empty
    ⟨⟨"BTC/USDT".toList, .sell, 1, 100⟩, by decide +kernel, by decide +kernel⟩
    ⟨unseen, unseen, fun _ => unseen, unseen, fun _ => none, fun _ => .ok ()⟩ ⟨0, false⟩
    fun _ => 0).2 _ rfl
  revert hbooked
  decide +kernel

end Router
end Karsa
