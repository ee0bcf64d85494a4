import Karsa.Execution.Bybit.AccountReads
import Karsa.Execution.Bybit.Requests

/-!
# Bybit client - Placing orders

`create_limit_order` and `create_market_order` round the request to the
instrument's steps, send it through the retry loop, and then look the new order
up to learn its status.  When no lookup succeeds they return the bare
acknowledgement, which has an order id and nothing else.

Main results:

- Theorem `roundQty_eq_self`, `abs_roundQty_sub_le`: what rounding does to a quantity.
- Theorem `orderReply_id`: the dictionaries they return never have the key `id`.
- Theorem `createOrders_accepted_le_one_iff`: when one call makes the exchange
  accept at most one order.
-/

namespace Karsa
namespace Bybit

/-! ## Rounding to the instrument's steps -/

/-- `BybitClient._round_qty`. -/
def InstrumentTables.roundQty (t : InstrumentTables) (symbol : Text) (qty : ℚ) : ℚ :=
  let lot := (t.lotSizes symbol).getD 1
  let least := (t.minQty symbol).getD 1
  max (if 0 < lot then quantize lot qty else qty) least

/-- `BybitClient._round_price`. -/
def InstrumentTables.roundPrice (t : InstrumentTables) (symbol : Text) (price : ℚ) : ℚ :=
  let tick := (t.priceTicks symbol).getD (1 / 100)
  if 0 < tick then max (quantize tick price) tick else price

/-- The exchange lists positive minimum quantities. -/
def InstrumentTables.PositiveMinimums (t : InstrumentTables) : Prop :=
  ∀ symbol least, t.minQty symbol = some least → 0 < least

/-- Under positive minimums a rounded quantity is positive. -/
theorem roundQty_pos {t : InstrumentTables} (ht : t.PositiveMinimums) (symbol : Text)
    (qty : ℚ) : 0 < t.roundQty symbol qty := by
  unfold InstrumentTables.roundQty
  apply lt_max_of_lt_right
  cases hleast : t.minQty symbol with
  | none => norm_num
  | some least => exact ht symbol least hleast

/-- A multiple of the step that is at least the minimum is sent as it is. -/
theorem roundQty_eq_self {t : InstrumentTables} {symbol : Text} {lot qty : ℚ}
    (hlot : (t.lotSizes symbol).getD 1 = lot) (hpos : 0 < lot)
    (hleast : (t.minQty symbol).getD 1 ≤ qty) (hmultiple : ∃ n : ℤ, qty = n * lot) :
    t.roundQty symbol qty = qty := by
  rcases hmultiple with ⟨n, rfl⟩
  unfold InstrumentTables.roundQty
  dsimp only
  rw [hlot, if_pos hpos, quantize_mul_step hpos.ne']
  exact max_eq_left hleast

/-- From the minimum on, the quantity sent is off by at most half a step. -/
theorem abs_roundQty_sub_le {t : InstrumentTables} {symbol : Text} {lot qty : ℚ}
    (hlot : (t.lotSizes symbol).getD 1 = lot) (hpos : 0 < lot)
    (hleast : (t.minQty symbol).getD 1 ≤ qty) :
    |t.roundQty symbol qty - qty| ≤ lot / 2 := by
  have hrounded := abs_le.mp (abs_quantize_sub_le hpos qty)
  unfold InstrumentTables.roundQty
  dsimp only
  rw [hlot, if_pos hpos, abs_le]
  rcases le_total (quantize lot qty) ((t.minQty symbol).getD 1) with hbelow | habove
  · rw [max_eq_right hbelow]
    constructor
    · linarith [hrounded.1]
    · linarith
  · rw [max_eq_left habove]
    exact hrounded

/-! ## Order dictionaries -/

/-- Bybit V5 order statuses. -/
inductive OrderStatus where
  | New
  | PartiallyFilled
  | Untriggered
  | Triggered
  | Filled
  | Cancelled
  | Rejected
  | Deactivated
  | other (word : Text)
deriving Repr, DecidableEq

/-- The value the client writes under `status`: `"open"`, `"closed"`,
`"canceled"`, or an unmapped word in lower case. -/
inductive UnifiedStatus where
  | opened
  | closed
  | canceled
  | raw (word : Text)
deriving Repr, DecidableEq

/-- The status mapping of `_fetch_placed_order_details`. -/
def OrderStatus.unify : OrderStatus → UnifiedStatus
  | .New | .PartiallyFilled | .Untriggered | .Triggered => .opened
  | .Filled => .closed
  | .Cancelled | .Rejected | .Deactivated => .canceled
  | .other word => .raw (word.map Char.toLower)

/-- One entry of the order history. -/
structure OrderDetails where
  orderId : Text
  orderStatus : OrderStatus
  avgPrice : Option (Numeral ℚ)
  price : Option (Numeral ℚ)
  cumExecQty : Option (Numeral ℚ)
deriving Repr, DecidableEq

/-- Result of `place_order`. -/
structure OrderAck where
  orderId : Option Text
deriving Repr, DecidableEq

/-- An order dictionary as the callers see it; `none` is an absent key. -/
structure OrderReply where
  id : Option Text
  orderId : Option Text
  status : Option UnifiedStatus
  average : Option (Numeral ℚ)
  avgPrice : Option (Numeral ℚ)
  price : Option (Numeral ℚ)
  cumExecQty : Option (Numeral ℚ)
  amount : Option (Numeral ℚ)
deriving Repr, DecidableEq

/-- The bare acknowledgement. -/
def OrderAck.toReply (ack : OrderAck) : OrderReply where
  id := none
  orderId := ack.orderId
  status := none
  average := none
  avgPrice := none
  price := none
  cumExecQty := none
  amount := none

/-- A looked-up order with the two keys the client adds. -/
def OrderDetails.toReply (d : OrderDetails) : OrderReply where
  id := none
  orderId := some d.orderId
  status := some d.orderStatus.unify
  average := d.avgPrice
  avgPrice := d.avgPrice
  price := d.price
  cumExecQty := d.cumExecQty
  amount := none

/-- Answer to one `get_order_status` call. -/
abbrev StatusLookup := Except Text (Option OrderDetails)

/-- A lookup that returns an order with an id. -/
def StatusLookup.found : StatusLookup → Option OrderDetails
  | .ok (some d) => if d.orderId = [] then none else some d
  | .ok none => none
  | .error _ => none

/-- `_fetch_placed_order_details`: the first of three lookups that finds the
order, or nothing. -/
def fetchPlacedOrderDetails (lookups : Nat → StatusLookup) : Option OrderReply :=
  ((List.range 3).findSome? fun n => (lookups n).found).map OrderDetails.toReply

/-! ## The two order calls -/

/-- Parameters of a `place_order` request that the program varies. -/
structure OrderRequest where
  symbol : Text
  side : OrderSide
  limitPrice : Option ℚ
  qty : ℚ
  reduceOnly : Bool
deriving Repr, DecidableEq

/-- What the caller gets for an acknowledged order: the looked-up order, or the
bare acknowledgement when there is no id or no lookup succeeds. -/
def orderReply (ack : OrderAck) (lookups : Nat → StatusLookup) : OrderReply :=
  match ack.orderId with
  | none | some [] => ack.toReply
  | some _ => (fetchPlacedOrderDetails lookups).getD ack.toReply

/-- Answers of the exchange during one order call. -/
structure PlaceAnswers where
  attempts : Nat → Attempt OrderAck
  lookups : Nat → StatusLookup

/-- What an order call leaves: the request that was sent, if any, the dictionary
or exception the caller sees, and how many orders the exchange accepted. -/
structure CreateResult where
  request : Option OrderRequest
  outcome : Except Text OrderReply
  connected : Bool
  accepted : Nat

/-- The common body: refuse without a session, send, then look the order up. -/
def createOrder (request : OrderRequest) (answers : PlaceAnswers) (connected : Bool) :
    CreateResult :=
  if connected then
    let sent := execute answers.attempts connected
    { request := some request
      outcome := sent.outcome.map fun ack => orderReply ack answers.lookups
      connected := sent.connected
      accepted := sent.accepted }
  else
    { request := none
      outcome := .error "Bybit not connected".toList
      connected := connected
      accepted := 0 }

/-- Request sent by `create_limit_order`. -/
def limitRequest (t : InstrumentTables) (symbol : Text) (side : OrderSide)
    (amount price : ℚ) (reduceOnly : Bool) : OrderRequest where
  symbol := t.toBybitSymbol symbol
  side := side
  limitPrice := some (t.roundPrice symbol price)
  qty := t.roundQty symbol amount
  reduceOnly := reduceOnly

/-- Request sent by `create_market_order`. -/
def marketRequest (t : InstrumentTables) (symbol : Text) (side : OrderSide)
    (amount : ℚ) (reduceOnly : Bool) : OrderRequest where
  symbol := t.toBybitSymbol symbol
  side := side
  limitPrice := none
  qty := t.roundQty symbol amount
  reduceOnly := reduceOnly

/-- `BybitClient.create_limit_order`. -/
def createLimitOrder (t : InstrumentTables) (symbol : Text) (side : OrderSide)
    (amount price : ℚ) (reduceOnly : Bool) (answers : PlaceAnswers) (connected : Bool) :
    CreateResult :=
  createOrder (limitRequest t symbol side amount price reduceOnly) answers connected

/-- `BybitClient.create_market_order`. -/
def createMarketOrder (t : InstrumentTables) (symbol : Text) (side : OrderSide)
    (amount : ℚ) (reduceOnly : Bool) (answers : PlaceAnswers) (connected : Bool) :
    CreateResult :=
  createOrder (marketRequest t symbol side amount reduceOnly) answers connected

/-! ## Shape of the returned dictionaries -/

/-- The client never writes the key `id`: Bybit's own key is `orderId`. -/
theorem orderReply_id (ack : OrderAck) (lookups : Nat → StatusLookup) :
    (orderReply ack lookups).id = none := by
  unfold orderReply fetchPlacedOrderDetails
  split
  · rfl
  · rfl
  · cases (List.range 3).findSome? fun n => (lookups n).found <;> rfl

/-! ## Orders accepted by the exchange during one call -/

/-- A call makes the exchange accept at most one order exactly when the client
refuses the call, or the first attempt that is executed is answered, or no later
attempt of the five is executed. -/
theorem createOrder_accepted_le_one_iff (request : OrderRequest) (answers : PlaceAnswers)
    (connected : Bool) :
    (createOrder request answers connected).accepted ≤ 1 ↔
      connected = false ∨
        ∀ i k, i < k → k < maxRetries →
          (∀ j < i, (answers.attempts j).executed = false) →
          (answers.attempts i).executed = true → (answers.attempts k).executed = true →
            (answers.attempts i).reply.isOk = true := by
  cases connected with
  | false => simp [createOrder]
  | true =>
      simp only [createOrder, if_true, Bool.true_eq_false, false_or]
      exact executeLoop_accepted_le_one_iff _ maxRetries 0 answers.attempts true

/-- Both order calls make the exchange accept at most one order exactly when the
client refuses the call, or the first attempt that is executed is answered, or no
later attempt of the five is executed. -/
theorem createOrders_accepted_le_one_iff (t : InstrumentTables) (symbol : Text)
    (side : OrderSide) (amount price : ℚ) (reduceOnly : Bool) (answers : PlaceAnswers)
    (connected : Bool) :
    let answeredOrLast := connected = false ∨
      ∀ i k, i < k → k < maxRetries →
        (∀ j < i, (answers.attempts j).executed = false) →
        (answers.attempts i).executed = true → (answers.attempts k).executed = true →
          (answers.attempts i).reply.isOk = true
    ((createMarketOrder t symbol side amount reduceOnly answers connected).accepted ≤ 1 ↔
        answeredOrLast) ∧
      ((createLimitOrder t symbol side amount price reduceOnly answers connected).accepted ≤ 1 ↔
        answeredOrLast) :=
  ⟨createOrder_accepted_le_one_iff _ answers connected,
    createOrder_accepted_le_one_iff _ answers connected⟩

/-- The exchange executes every attempt, the first reply is lost and the second
arrives. -/
def firstReplyLost : Nat → Attempt OrderAck
  | 0 => ⟨true, .timedOut, fun _ => rfl⟩
  | _ + 1 => ⟨true, .ok ⟨some "order-2".toList⟩, fun _ => rfl⟩

/-- One lost reply is enough for a market order to be accepted twice. -/
theorem createMarketOrder_accepts_twice :
    ¬ (createMarketOrder .empty "BTC/USDT".toList .buy 1 false
        { attempts := firstReplyLost, lookups := fun _ => .ok none } true).accepted ≤ 1 := by
  decide +kernel

end Bybit
end Karsa
