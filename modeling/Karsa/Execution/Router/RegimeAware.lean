import Karsa.Execution.Router.EntryStops

/-!
# Smart order router - Entries by regime

`execute_regime_aware` refuses wide spreads, and in a ranging market tries one post-only order.
Otherwise it goes through a pipeline of its own: post-only, repriced limit orders, market order.

The side arrives as a word.  The client turns it into the exchange's word, while the router
compares it with `"buy"` when it moves the price and when it places the stop.

Main results:

- Theorem `executeRegimeAware_stops`: one call asks for the planned stop and no other.
- Theorem `requestSide_long`: a long entry is bought, and its stop is placed as for a sale.
-/

namespace Karsa
namespace Router

open Bybit

/-! ## Requests and answers -/

/-- Arguments of `execute_regime_aware`. -/
structure RegimeRequest where
  symbol : Text
  side : Text
  amount : ℚ
  price : ℚ
  usePostOnly : Bool
  regime : Text
deriving Repr, DecidableEq

/-- `word.capitalize()`, for the ASCII words that name a side. -/
def capitalize : Text → Text
  | [] => []
  | c :: rest => c.toUpper :: rest.map Char.toLower

/-- `{"LONG": "Buy", "SHORT": "Sell"}.get(side.upper(), side.capitalize())`, where the exchange
knows the word. -/
def requestSide (word : Text) : Option OrderSide :=
  let sent :=
    if word.map Char.toUpper = "LONG".toList then "Buy".toList
    else if word.map Char.toUpper = "SHORT".toList then "Sell".toList
    else capitalize word
  if sent = "Buy".toList then some .buy
  else if sent = "Sell".toList then some .sell
  else none

/-- The router tests `side == "buy"`. -/
def routedSide (word : Text) : OrderSide :=
  if word = "buy".toList then .buy else .sell

/-- A long entry is bought, and its stop is placed as for a sale. -/
theorem requestSide_long :
    requestSide "LONG".toList = some .buy ∧ routedSide "LONG".toList = .sell := by
  decide

/-- The request as the router's price and stop code reads it. -/
def RegimeRequest.entry (r : RegimeRequest) : EntryRequest where
  symbol := r.symbol
  side := routedSide r.side
  amount := r.amount
  price := r.price

/-- Best prices of `get_global_state`; absent, empty and zero entries are `none`. -/
structure BookState where
  bestBid : Option (Numeral ℚ)
  bestAsk : Option (Numeral ℚ)

/-- Answers met during one call.  `state` is `none` where the router has no Redis client. -/
structure RegimeAnswers where
  state : Option (Except Text (Option BookState))
  tickers : Except Text (List Ticker)
  postOnly : Placement
  reprice : Nat → Placement
  market : Placement
  cancel : CancelSite → Except Text Unit

/-! ## The spread gate -/

/-- `regime in ("CHOP", "RANGE")`. -/
def isRanging (regime : Text) : Bool :=
  regime = "CHOP".toList || regime = "RANGE".toList

/-- `CHOP_RANGE_SPREAD_PCT` or `TREND_SPREAD_PCT`. -/
def spreadLimit (regime : Text) : ℚ :=
  if isRanging regime then 2 / 1000 else 5 / 1000

/-- A spread over missing prices is let through. -/
def spreadWithin (regime : Text) (bid ask : ℚ) : Bool :=
  if bid ≤ 0 ∨ ask ≤ 0 then true else decide ((ask - bid) / bid ≤ spreadLimit regime)

/-- The fallback to the first ticker. -/
def tickerGate (regime : Text) (a : RegimeAnswers) : Bool :=
  match a.tickers with
  | .error _ => false
  | .ok [] => true
  | .ok (t :: _) => spreadWithin regime t.bid t.ask

/-- `_check_spread_gate`: whatever raises rejects the entry. -/
def checkSpreadGate (r : RegimeRequest) (a : RegimeAnswers) : Bool :=
  match a.state with
  | none => tickerGate r.regime a
  | some (.error _) => false
  | some (.ok (some ⟨some bestBid, some bestAsk⟩)) =>
      match bestBid.decimal, bestAsk.decimal with
      | some bid, some ask => spreadWithin r.regime bid ask
      | _, _ => false
  | some (.ok _) => tickerGate r.regime a

/-- The gate as a block. -/
def spreadGate (r : RegimeRequest) (a : RegimeAnswers) (s : RouteState) : Flow RouteState :=
  if checkSpreadGate r a then .next s else s.leave none

/-! ## Orders -/

/-- The dictionary of a limit order that is reported live, if its fill price parses. -/
def liveOrder (p : Placement) (limitPrice : ℚ) : Option OrderReply :=
  match p.reply with
  | .ok order =>
      if reportedLive order ∧ (fillPrice order limitPrice).isSome then some order else none
  | .error _ => none

/-- Send a limit order, and ask for its stop when it is live; whatever raises is logged. -/
def sendLimit (r : RegimeRequest) (p : Placement) (limitPrice : ℚ) (s : RouteState) :
    Flow RouteState :=
  let s := s.log (.placed r.amount (some limitPrice) p)
  match liveOrder p limitPrice with
  | some order => (s.log (.stopRequested limitPrice r.amount)).leave (some order)
  | none => .next s

/-- `_try_post_only`, with the stop behind it. -/
def tryPostOnly (r : RegimeRequest) (a : RegimeAnswers) (s : RouteState) : Flow RouteState :=
  sendLimit r a.postOnly r.price s

/-- In post-only mode nothing follows that order. -/
def postOnlyMode (r : RegimeRequest) (a : RegimeAnswers) (s : RouteState) : Flow RouteState :=
  if r.usePostOnly then (tryPostOnly r a s).andThen fun s => s.leave none else .next s

/-- Cancel the previous order when its dictionary has an id; no handler catches a failure. -/
def regimeCancel (a : RegimeAnswers) (site : CancelSite) (s : RouteState)
    (done : RouteState → Flow RouteState) : Flow RouteState :=
  match cancellableId s.order with
  | none => done s
  | some id => match a.cancel site with
      | .ok () => done (s.log (.cancelled id))
      | .error message => s.fail message

/-- The next limit price, a thousandth towards the market. -/
def regimeNextPrice (r : RegimeRequest) (price : ℚ) : ℚ :=
  match routedSide r.side with
  | .buy => price + max (r.price * (1 / 1000)) (1 / 100)
  | .sell => price - max (r.price * (1 / 1000)) (1 / 100)

/-- Send one repriced order. -/
def regimeRepriceOnce (r : RegimeRequest) (a : RegimeAnswers) (attempt : Nat) (s : RouteState) :
    Flow RouteState :=
  sendLimit r (a.reprice attempt) s.price
    { s with order := (a.reprice attempt).reply.toOption.or s.order }

/-- Step 2 from attempt `attempt` on, with `left` attempts left. -/
def regimeReprice (r : RegimeRequest) (a : RegimeAnswers) :
    (left attempt : Nat) → RouteState → Flow RouteState
  | 0, _, s => .next s
  | left + 1, attempt, s =>
      let price := regimeNextPrice r s.price
      if price ≤ 0 then .next { s with price := price }
      else
        (regimeCancel a (.reprice attempt) { s with price := price }
          (regimeRepriceOnce r a attempt)).andThen (regimeReprice r a left (attempt + 1))

/-- Send the market order. -/
def regimePlaceMarket (r : RegimeRequest) (a : RegimeAnswers) (s : RouteState) :
    Flow RouteState :=
  let s := s.log (.placed r.amount none a.market)
  match a.market.reply with
  | .ok order =>
      if (fillPrice order r.price).isSome then
        (s.log (.stopRequested r.price r.amount)).leave (some order)
      else s.leave none
  | .error _ => s.leave none

/-- Step 3. -/
def regimeMarket (r : RegimeRequest) (a : RegimeAnswers) (s : RouteState) : Flow RouteState :=
  regimeCancel a .market s (regimePlaceMarket r a)

/-- `CHOP_RANGE_MAX_REPRICE` in a ranging market. -/
def regimeReprices (settings : RouterSettings) (r : RegimeRequest) : Nat :=
  if isRanging r.regime then 1 else settings.maxRepriceAttempts

/-- `SmartOrderRouter.execute_regime_aware`. -/
def executeRegimeAware (settings : RouterSettings) (r : RegimeRequest) (a : RegimeAnswers) :
    RouteState :=
  (Flow.blocks
    [checkPrice r.entry, spreadGate r a, postOnlyMode r a, tryPostOnly r a,
      regimeReprice r a (regimeReprices settings r) 0, regimeMarket r a]
    (RouteState.start r.entry)).state

/-! ## The planned stop -/

/-- The market order asks for a stop if its fill price parses. -/
def regimeMarketStop (r : RegimeRequest) (a : RegimeAnswers) : Option StopRequest :=
  match a.market.reply with
  | .ok order => if (fillPrice order r.price).isSome then some (r.price, r.amount) else none
  | .error _ => none

/-- The stop from reprice attempt `attempt` on: that of the first repriced order that is
reported live, or that of the market order. -/
def regimeRepriceStop (r : RegimeRequest) (a : RegimeAnswers) :
    (left attempt : Nat) → (price : ℚ) → Option StopRequest
  | 0, _, _ => regimeMarketStop r a
  | left + 1, attempt, price =>
      let next := regimeNextPrice r price
      if next ≤ 0 then regimeMarketStop r a
      else if (liveOrder (a.reprice attempt) next).isSome then some (next, r.amount)
      else regimeRepriceStop r a left (attempt + 1) next

/-- The stop that one call asks for. -/
def regimeStop (settings : RouterSettings) (r : RegimeRequest) (a : RegimeAnswers) :
    Option StopRequest :=
  if r.price ≤ 0 ∨ checkSpreadGate r a = false then none
  else if (liveOrder a.postOnly r.price).isSome then some (r.price, r.amount)
  else if r.usePostOnly then none
  else regimeRepriceStop r a (regimeReprices settings r) 0 r.price

/-- Invariant of the pipeline: no stop yet, and nothing to cancel. -/
structure Quiet (s : RouteState) : Prop where
  stops : s.stops = []
  uncancellable : cancellableId s.order = none

theorem quiet_start (r : EntryRequest) : Quiet (RouteState.start r) :=
  ⟨rfl, rfl⟩

/-- Without an id there is nothing to cancel. -/
theorem regimeCancel_eq {a : RegimeAnswers} {s : RouteState} (h : cancellableId s.order = none)
    (site : CancelSite) (done : RouteState → Flow RouteState) :
    regimeCancel a site s done = done s := by
  simp [regimeCancel, h]

/-- A limit order asks for the stop at its own price, or the call goes on quietly. -/
theorem sendLimit_stops (r : RegimeRequest) (p : Placement) (limitPrice : ℚ) {s : RouteState}
    (h : Quiet s) :
    (sendLimit r p limitPrice s).Ends
      (fun s' => (liveOrder p limitPrice).isSome = false ∧ s'.price = s.price ∧ Quiet s')
      (fun s' => (liveOrder p limitPrice).isSome = true ∧
        AskedFor (some (limitPrice, r.amount)) s') := by
  have hlogged : (s.log (.placed r.amount (some limitPrice) p)).stops = [] := by simp [h.stops]
  unfold sendLimit
  dsimp only
  cases liveOrder p limitPrice with
  | some order =>
      refine ⟨rfl, ?_⟩
      have hasked := stops_log (s.log (.placed r.amount (some limitPrice) p))
        (.stopRequested limitPrice r.amount)
      rwa [hlogged] at hasked
  | none => exact ⟨rfl, rfl, hlogged, h.uncancellable⟩

/-- The market order asks for its stop. -/
theorem regimeMarket_stops (r : RegimeRequest) (a : RegimeAnswers) {s : RouteState}
    (h : Quiet s) : AskedFor (regimeMarketStop r a) (regimeMarket r a s).state := by
  rw [regimeMarket, regimeCancel_eq h.uncancellable]
  unfold regimePlaceMarket regimeMarketStop
  cases a.market.reply with
  | ok order =>
      dsimp only
      split_ifs
      · simp [h.stops]
      · simp [h.stops]
  | error message => simp [h.stops]

/-- A repriced order leaves nothing to cancel, either. -/
theorem Quiet.reply {s : RouteState} (h : Quiet s) (p : Placement) :
    Quiet { s with order := p.reply.toOption.or s.order } := by
  refine ⟨h.stops, ?_⟩
  cases hreply : p.reply with
  | ok order => exact cancellableId_reply hreply
  | error message => exact h.uncancellable

/-- From a reprice attempt on, the pipeline asks for the planned stop. -/
theorem regimeReprice_stops (r : RegimeRequest) (a : RegimeAnswers) (left attempt : Nat)
    {s : RouteState} (h : Quiet s) :
    AskedFor (regimeRepriceStop r a left attempt s.price)
      ((regimeReprice r a left attempt s).andThen (regimeMarket r a)).state := by
  induction left generalizing attempt s with
  | zero => exact regimeMarket_stops r a h
  | succ left ih =>
      have hmoved : Quiet { s with price := regimeNextPrice r s.price } :=
        ⟨h.stops, h.uncancellable⟩
      simp only [regimeReprice, regimeRepriceStop]
      by_cases hprice : regimeNextPrice r s.price ≤ 0
      · simp only [if_pos hprice]
        exact regimeMarket_stops r a hmoved
      · simp only [if_neg hprice, regimeCancel_eq hmoved.uncancellable, Flow.andThen_assoc]
        apply (sendLimit_stops r (a.reprice attempt) (regimeNextPrice r s.price)
          (hmoved.reply (a.reprice attempt))).andThen_state
        · rintro s' ⟨hdead, hstay, hquiet⟩
          have hrest := ih (attempt + 1) hquiet
          rw [hstay] at hrest
          simpa [hdead] using hrest
        · rintro s' ⟨hlive, hasked⟩
          simpa [hlive] using hasked

/-- One call asks for the planned stop and no other. -/
theorem executeRegimeAware_stops (settings : RouterSettings) (r : RegimeRequest)
    (a : RegimeAnswers) :
    AskedFor (regimeStop settings r a) (executeRegimeAware settings r a) := by
  unfold executeRegimeAware regimeStop
  by_cases hprice : r.price ≤ 0
  · simp [checkPrice, RegimeRequest.entry, hprice]
  · have hcheck : checkPrice r.entry (RouteState.start r.entry) =
        .next (RouteState.start r.entry) := if_neg hprice
    have hsent := sendLimit_stops r a.postOnly r.price (quiet_start r.entry)
    rw [Flow.blocks_cons, hcheck, Flow.next_andThen, Flow.blocks_cons, spreadGate]
    cases checkSpreadGate r a with
    | false => simp
    | true =>
        simp only [if_true, Flow.next_andThen, Flow.blocks_cons, hprice, Bool.true_eq_false,
          or_false, if_false, postOnlyMode, tryPostOnly]
        cases r.usePostOnly with
        | true =>
            simp only [if_true, Flow.andThen_assoc]
            apply hsent.andThen_state
            · rintro s ⟨hdead, -, hquiet⟩
              simp [hdead, hquiet.stops]
            · rintro s ⟨hlive, hasked⟩
              simpa [hlive] using hasked
        | false =>
            simp only [Bool.false_eq_true, if_false, Flow.next_andThen]
            apply hsent.andThen_state
            · rintro s ⟨hdead, hstay, hquiet⟩
              have hrest := regimeReprice_stops r a (regimeReprices settings r) 0 hquiet
              rw [show s.price = r.price from hstay] at hrest
              simpa [hdead] using hrest
            · rintro s ⟨hlive, hasked⟩
              simpa [hlive] using hasked

end Router
end Karsa
