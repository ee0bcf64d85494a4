import Karsa.Execution.Bybit.Orders

/-!
# Smart order router - Executing an entry

`SmartOrderRouter.execute` tries a post-only limit order, then a bounded number
of repriced limit orders, then a market order.  Large orders are sliced into
four market orders instead, and in latency mode one market order is sent
directly.  One mutable variable holds the dictionary of the last limit order;
every step that sends a new order first tests it for the key `id`.

The model keeps every order call, accepted cancellation and stop request of one
call in order.  Delays, metrics and alerts are left out.

Main results:

- Definition `execute`: the call as a list of blocks, each of which may leave it.
- Theorem `reply_eq_createOrder`: an order call answers what the client's own
  order calls return.
-/

namespace Karsa
namespace Router

open Bybit

/-! ## Requests and answers -/

/-- Arguments of `execute` that reach the exchange. -/
structure EntryRequest where
  symbol : Text
  side : OrderSide
  amount : ℚ
  price : ℚ
deriving Repr, DecidableEq

/-- `"buy" if side in ("buy", "LONG") else "sell"`. -/
def entrySide (word : Text) : OrderSide :=
  if word = "buy".toList ∨ word = "LONG".toList then .buy else .sell

/-- Router attributes that steer an entry. -/
structure RouterSettings where
  maxRepriceAttempts : Nat
  skipToMarket : Bool

/-- One order call with the answers of the exchange.  The client sends the same order up to five
times; every attempt that the exchange carries out makes an order of its own, and `live` gives
its id if the exchange keeps it resting or filled. -/
structure Placement extends PlaceAnswers where
  connected : Bool
  live : Nat → Option Text

namespace Placement

/-- The acknowledgement or exception that the retry loop ends with. -/
def sent (p : Placement) : Except Text OrderAck :=
  if p.connected then (Bybit.execute p.attempts true).outcome
  else .error "Bybit not connected".toList

/-- The dictionary or exception that the order call hands to the router. -/
def reply (p : Placement) : Except Text OrderReply :=
  p.sent.map fun ack => orderReply ack p.lookups

/-- It is what either order call of the client returns. -/
theorem reply_eq_createOrder (p : Placement) (request : OrderRequest) :
    p.reply = (createOrder request p.toPlaceAnswers p.connected).outcome := by
  unfold reply sent createOrder
  cases p.connected <;> rfl

/-- Ids of the orders of the call that the exchange keeps alive, resting or filled. -/
def liveOrders (p : Placement) : List Text :=
  if p.connected then (Bybit.execute p.attempts true).executed.filterMap p.live else []

/-- Does the exchange keep an order of the call alive? -/
def alive (p : Placement) : Bool :=
  !p.liveOrders.isEmpty

/-- The first attempt is answered, and the exchange keeps its order alive or not. -/
def answered (orderId : Text) (kept : Bool) (lookups : Nat → StatusLookup) : Placement where
  attempts := fun _ => ⟨true, .ok ⟨some orderId⟩, fun _ => rfl⟩
  lookups := lookups
  connected := true
  live := fun _ => if kept then some orderId else none

/-- No attempt reaches the exchange. -/
def failed : Placement where
  attempts := fun _ => ⟨false, .timedOut, nofun⟩
  lookups := fun _ => .ok none
  connected := true
  live := fun _ => none

end Placement

/-- The client's dictionaries have no id. -/
theorem reply_id {p : Placement} {order : OrderReply} (h : p.reply = .ok order) :
    order.id = none := by
  unfold Placement.reply at h
  cases hsent : p.sent with
  | error message => simp [hsent, Except.map] at h
  | ok ack =>
      simp only [hsent, Except.map, Except.ok.injEq] at h
      rw [← h]
      exact orderReply_id ack p.lookups

/-- One record of `BybitClient.fetch_tickers`. -/
structure Ticker where
  symbol : Text
  last : ℚ
  bid : ℚ
  ask : ℚ

/-- Numeric keys that are read from a ticker. -/
inductive TickerKey where
  | last
  | bid
  | ask
  | bidVolume
  | askVolume
deriving Repr, DecidableEq

/-- The ticker as a dictionary: the client writes no volumes. -/
def Ticker.get? (t : Ticker) : TickerKey → Option ℚ
  | .last => some t.last
  | .bid => some t.bid
  | .ask => some t.ask
  | .bidVolume | .askVolume => none

/-- Where the router may cancel its previous limit order. -/
inductive CancelSite where
  | toxicPull (attempt : Nat)
  | reprice (attempt : Nat)
  | market
deriving Repr, DecidableEq

/-- Answers met during one call, named by the place that asks for them.
`blocklistWritten` tells whether `_handle_auth_block` gets through its writes;
a missing or unreadable order-book delta is `none`. -/
structure EntryAnswers where
  slice : Nat → Placement
  direct : Placement
  postOnly : Placement
  reprice : Nat → Placement
  market : Placement
  tickersBefore : Option (List Ticker)
  tickersAfter : Option (List Ticker)
  orderbookDelta : Nat → Option ℚ
  cancel : CancelSite → Except Text Unit
  blocklistWritten : Bool

/-! ## State of one call -/

/-- What one call did towards the exchange. -/
inductive RouterEvent where
  | placed (amount : ℚ) (limitPrice : Option ℚ) (answer : Placement)
  | cancelled (orderId : Text)
  | stopRequested (fillPrice amount : ℚ)

/-- The variables `order` and `current_price`, the events so far, and the value
returned or raised once the call is left. -/
structure RouteState where
  order : Option OrderReply
  price : ℚ
  events : List RouterEvent
  outcome : Except Text (Option OrderReply)

/-- State on entry. -/
def RouteState.start (r : EntryRequest) : RouteState where
  order := none
  price := r.price
  events := []
  outcome := .ok none

/-- Append one event. -/
def RouteState.log (s : RouteState) (e : RouterEvent) : RouteState :=
  { s with events := s.events ++ [e] }

/-- Return a value from the call. -/
def RouteState.leave (s : RouteState) (result : Option OrderReply) : Flow RouteState :=
  .ret { s with outcome := .ok result }

/-- Let an exception escape from the call. -/
def RouteState.fail (s : RouteState) (message : Text) : Flow RouteState :=
  .raise { s with outcome := .error message }

/-- `order.get("status") in ("open", "closed")`. -/
def reportedLive (order : OrderReply) : Bool :=
  order.status = some .opened || order.status = some .closed

/-- `order and order.get("id")`: the id the router would cancel. -/
def cancellableId (order : Option OrderReply) : Option Text :=
  (order.bind OrderReply.id).filter (· ≠ [])

/-- `Decimal(str(order.get("average", order.get("avgPrice", price))))`; `none`
when the text raises. -/
def fillPrice (order : OrderReply) (price : ℚ) : Option ℚ :=
  ((order.average.or order.avgPrice).getD (.value price)).decimal

/-! ## Exceptions of order calls -/

/-- Does the text name Bybit's unsigned-agreement error? -/
def agreementRequired (message : Text) : Bool :=
  let lower := message.map Char.toLower
  Text.contains lower "110126".toList ||
    Text.contains lower "sign the required agreement".toList

/-- Handler of a failed order call: `_handle_auth_block` first, and when it does
not apply, `otherwise`. -/
def handleOrderError (a : EntryAnswers) (message : Text) (s : RouteState)
    (otherwise : Flow RouteState) : Flow RouteState :=
  if agreementRequired message then
    if a.blocklistWritten then s.leave none
    else s.fail "blocklist write failed".toList
  else otherwise

/-! ## Steps -/

/-- A non-positive price is refused. -/
def checkPrice (r : EntryRequest) (s : RouteState) : Flow RouteState :=
  if r.price ≤ 0 then s.leave none else .next s

/-- Slice size of iceberg mode. -/
def chunkAmount (r : EntryRequest) : ℚ :=
  quantize (1 / 1000) (r.amount / 4)

/-- Is the order sliced? -/
def EntryRequest.sliced (r : EntryRequest) : Bool :=
  decide (2000 < r.price * r.amount ∧ 0 < chunkAmount r)

/-- Is the dictionary non-empty? -/
def nonEmpty (order : Option OrderReply) : Bool :=
  (order.bind OrderReply.orderId).isSome

/-- The four slices: `filled` sums the slices whose call returned an order. -/
def icebergLoop (r : EntryRequest) (a : EntryAnswers) :
    List Nat → RouteState → ℚ → RouteState × ℚ
  | [], s, filled => (s, filled)
  | i :: rest, s, filled =>
      let current := if i < 3 then chunkAmount r else r.amount - chunkAmount r * 3
      if current ≤ 0 then icebergLoop r a rest s filled
      else
        let s := s.log (.placed current none (a.slice i))
        match (a.slice i).reply with
        | .ok order =>
            icebergLoop r a rest { s with order := some order }
              (if nonEmpty (some order) then filled + current else filled)
        | .error _ =>
            if 0 < filled ∧ nonEmpty s.order then (s, filled)
            else icebergLoop r a rest s filled

/-- Iceberg mode: report the summed quantity, or nothing. -/
def iceberg (r : EntryRequest) (a : EntryAnswers) (s : RouteState) : Flow RouteState :=
  if r.sliced then
    let (s, filled) := icebergLoop r a (List.range 4) s 0
    match s.order with
    | none => s.leave none
    | some last =>
        if nonEmpty (some last) ∧ 0 < filled then
          (s.log (.stopRequested r.price filled)).leave
            (some { last with amount := some (.value filled) })
        else s.leave none
  else .next s

/-- Latency mode: one market order. -/
def latencyMode (settings : RouterSettings) (r : EntryRequest) (a : EntryAnswers)
    (s : RouteState) : Flow RouteState :=
  if settings.skipToMarket then
    let s := s.log (.placed r.amount none a.direct)
    match a.direct.reply with
    | .ok order => (s.log (.stopRequested r.price r.amount)).leave (some order)
    | .error _ => s.leave none
  else .next s

/-- Send one limit order and return it when it is reported live.  A crash while
the fill is processed returns the order all the same. -/
def placeLimit (r : EntryRequest) (a : EntryAnswers) (p : Placement) (limitPrice : ℚ)
    (s : RouteState) : Flow RouteState :=
  let s := s.log (.placed r.amount (some limitPrice) p)
  match p.reply with
  | .ok order =>
      let s := { s with order := some order }
      if reportedLive order then
        match fillPrice order limitPrice with
        | some _ => (s.log (.stopRequested limitPrice r.amount)).leave (some order)
        | none => s.leave (some order)
      else .next s
  | .error message =>
      handleOrderError a message s
        (if s.order.any reportedLive then s.leave s.order else .next s)

/-- Step 1. -/
def postOnly (r : EntryRequest) (a : EntryAnswers) (s : RouteState) : Flow RouteState :=
  placeLimit r a a.postOnly r.price s

/-- The router's own ticker among those fetched. -/
def findTicker (r : EntryRequest) (tickers : List Ticker) : Option Ticker :=
  tickers.find? fun t => t.symbol = r.symbol ∨ t.symbol = r.symbol.without '/'

/-- Number of reprices: more when the book supports the router's side. -/
def maxReprices (settings : RouterSettings) (r : EntryRequest) (a : EntryAnswers) : Nat :=
  match a.tickersBefore.bind (findTicker r) with
  | none => settings.maxRepriceAttempts
  | some t =>
      let bidVol := (t.get? .bidVolume).getD 0
      let askVol := (t.get? .askVolume).getD 0
      let supported := match r.side with
        | .buy => decide (0 < bidVol ∧ 0 < askVol ∧ askVol * 2 ≤ bidVol)
        | .sell => decide (0 < askVol ∧ 0 < bidVol ∧ bidVol * 2 ≤ askVol)
      if supported then max settings.maxRepriceAttempts 4 else settings.maxRepriceAttempts

/-- Is the book being pulled away from the router's side? -/
def toxicPull (r : EntryRequest) (a : EntryAnswers) (attempt : Nat) : Bool :=
  match a.orderbookDelta attempt with
  | none => false
  | some delta => match r.side with
      | .buy => decide (delta < -(2 / 5))
      | .sell => decide (2 / 5 < delta)

/-- Cancel the previous order when its dictionary has an id; `failed` runs when
the cancellation raises. -/
def cancelPrevious (a : EntryAnswers) (site : CancelSite) (s : RouteState)
    (failed : Text → Flow RouteState) (done : RouteState → Flow RouteState) :
    Flow RouteState :=
  match cancellableId s.order with
  | none => done s
  | some id => match a.cancel site with
      | .ok () => done (s.log (.cancelled id))
      | .error message => failed message

/-- A toxic pull abandons the entry, unless the cancellation raises. -/
def abortOnPull (r : EntryRequest) (a : EntryAnswers) (attempt : Nat) (s : RouteState) :
    Flow RouteState :=
  if toxicPull r a attempt then
    cancelPrevious a (.toxicPull attempt) s (fun _ => .next s) (fun s => s.leave none)
  else .next s

/-- Price step between two reprices. -/
def effectiveTick (r : EntryRequest) : ℚ :=
  max (r.price * (2 / 10000)) (1 / 100)

/-- The next limit price, one tick towards the market. -/
def nextPrice (r : EntryRequest) (price : ℚ) : ℚ :=
  match r.side with
  | .buy => price + effectiveTick r
  | .sell => price - effectiveTick r

/-- Would a sell be repriced to zero or below? -/
def priceExhausted (r : EntryRequest) (price : ℚ) : Bool :=
  r.side = .sell && decide (price ≤ 0)

/-- Cancel the previous order and send the repriced one. -/
def repriceOnce (r : EntryRequest) (a : EntryAnswers) (attempt : Nat) (s : RouteState) :
    Flow RouteState :=
  cancelPrevious a (.reprice attempt) s
    (fun message => handleOrderError a message s
      (if s.order.any reportedLive then s.leave s.order else .next s))
    (fun s => placeLimit r a (a.reprice attempt) s.price s)

/-- Step 2 from attempt `attempt` on, with `left` attempts left. -/
def repriceLoop (r : EntryRequest) (a : EntryAnswers) :
    (left attempt : Nat) → RouteState → Flow RouteState
  | 0, _, s => .next s
  | left + 1, attempt, s =>
      (abortOnPull r a attempt s).andThen fun s =>
        let price := nextPrice r s.price
        if priceExhausted r price then .next { s with price := price }
        else
          (repriceOnce r a attempt { s with price := price }).andThen
            (repriceLoop r a left (attempt + 1))

/-- Does the hard slippage limit let the market order through?  A failed ticker
read does not. -/
def slippageAllows (r : EntryRequest) (a : EntryAnswers) : Bool :=
  match a.tickersAfter with
  | none => false
  | some tickers => match findTicker r tickers with
      | none => true
      | some t =>
          let marketPrice := match r.side with
            | .buy => (t.get? .ask).getD 0
            | .sell => (t.get? .bid).getD 0
          !decide (0 < marketPrice ∧ 0 < r.price ∧
            5 / 1000 < |marketPrice - r.price| / r.price)

/-- Send the market order; a dictionary without `orderId`, or a fill price that
does not parse, raises after the order was placed. -/
def placeMarket (r : EntryRequest) (a : EntryAnswers) (s : RouteState) : Flow RouteState :=
  let s := s.log (.placed r.amount none a.market)
  match a.market.reply with
  | .ok order =>
      if order.orderId.isSome ∧ (fillPrice order r.price).isSome then
        (s.log (.stopRequested r.price r.amount)).leave (some order)
      else s.leave none
  | .error message => handleOrderError a message s (s.leave none)

/-- Step 3. -/
def marketFallback (r : EntryRequest) (a : EntryAnswers) (s : RouteState) :
    Flow RouteState :=
  if slippageAllows r a then
    cancelPrevious a .market s
      (fun message => handleOrderError a message s (s.leave none))
      (placeMarket r a)
  else s.leave none

/-- `SmartOrderRouter.execute`. -/
def execute (settings : RouterSettings) (r : EntryRequest) (a : EntryAnswers) :
    RouteState :=
  (Flow.blocks
    [checkPrice r, iceberg r a, latencyMode settings r a, postOnly r a,
      repriceLoop r a (maxReprices settings r a) 0, marketFallback r a]
    (RouteState.start r)).state

end Router
end Karsa
