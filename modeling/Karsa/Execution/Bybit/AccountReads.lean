import Karsa.Execution.Bybit.Symbols

/-!
# Bybit client - Position and open-order records

`fetch_positions` and `fetch_open_orders` turn the exchange's entries into
dictionaries.  The rest of the program reads those dictionaries by key, and not
every key it reads is one that was written; each record therefore comes with
the partial lookup `get?` of its dictionary.

Main results:

- Theorem `contracts_pos_of_mem`: every returned position has a positive size.
-/

namespace Karsa
namespace Bybit

/-- `"buy"` or `"sell"`, the side words of the client's records and requests. -/
inductive OrderSide where
  | buy
  | sell
deriving Repr, DecidableEq

/-- The word itself. -/
def OrderSide.word : OrderSide → Text
  | .buy => "buy".toList
  | .sell => "sell".toList

/-- The side that reduces a position of the given side. -/
def OrderSide.opposite : OrderSide → OrderSide
  | .buy => .sell
  | .sell => .buy

/-- `p["side"]` as Bybit sends it; flat entries carry an empty word. -/
inductive ExchangeSide where
  | Buy
  | Sell
  | empty
deriving Repr, DecidableEq

/-- `"buy" if p.get("side") == "Buy" else "sell"`. -/
def ExchangeSide.toOrderSide : ExchangeSide → OrderSide
  | .Buy => .buy
  | .Sell | .empty => .sell

/-- Keys under which position and order records are read. -/
inductive RecordKey where
  | id
  | orderId
  | symbol
  | side
  | contracts
  | amount
  | entryPrice
  | unrealizedPnl
  | stopLoss
  | takeProfit
  | trailingStop
  | liquidationPrice
  | price
  | status
  | type
  | stopOrderType
deriving Repr, DecidableEq

/-- A value stored in such a record. -/
inductive RecordValue where
  | text (t : Text)
  | number (q : ℚ)
deriving Repr, DecidableEq

/-! ## Positions -/

/-- One entry of the exchange's position list. -/
structure RawPosition where
  symbol : Text
  side : ExchangeSide
  size : Option (Numeral ℚ)
  avgPrice : Option (Numeral ℚ)
  unrealisedPnl : Option (Numeral ℚ)
  stopLoss : Option (Numeral ℚ)
  takeProfit : Option (Numeral ℚ)
  trailingStop : Option (Numeral ℚ)
  liqPrice : Option (Numeral ℚ)
deriving Repr, DecidableEq

/-- The record `fetch_positions` builds for one entry. -/
structure ExchangePosition where
  symbol : Text
  side : OrderSide
  contracts : ℚ
  entryPrice : ℚ
  unrealizedPnl : ℚ
  stopLoss : ℚ
  takeProfit : ℚ
  trailingStop : ℚ
  liquidationPrice : ℚ
deriving Repr, DecidableEq

/-- The record as a dictionary. -/
def ExchangePosition.get? (p : ExchangePosition) : RecordKey → Option RecordValue
  | .symbol => some (.text p.symbol)
  | .side => some (.text p.side.word)
  | .contracts => some (.number p.contracts)
  | .entryPrice => some (.number p.entryPrice)
  | .unrealizedPnl => some (.number p.unrealizedPnl)
  | .stopLoss => some (.number p.stopLoss)
  | .takeProfit => some (.number p.takeProfit)
  | .trailingStop => some (.number p.trailingStop)
  | .liquidationPrice => some (.number p.liquidationPrice)
  | _ => none

/-- The record built for one raw entry. -/
def RawPosition.toPosition (p : RawPosition) : ExchangePosition where
  symbol := p.symbol
  side := p.side.toOrderSide
  contracts := Numeral.safeDecimal p.size
  entryPrice := Numeral.safeDecimal p.avgPrice
  unrealizedPnl := Numeral.safeDecimal p.unrealisedPnl
  stopLoss := Numeral.safeDecimal p.stopLoss
  takeProfit := Numeral.safeDecimal p.takeProfit
  trailingStop := Numeral.safeDecimal p.trailingStop
  liquidationPrice := Numeral.safeDecimal p.liqPrice

/-- A long position of one unit. -/
def ExchangePosition.unitLong : ExchangePosition where
  symbol := "BTCUSDT".toList
  side := .buy
  contracts := 1
  entryPrice := 100
  unrealizedPnl := 0
  stopLoss := 98
  takeProfit := 0
  trailingStop := 0
  liquidationPrice := 0

/-- Is the entry an open position? -/
def RawPosition.isOpen (p : RawPosition) : Bool :=
  decide (0 < Numeral.safeDecimal p.size)

/-- `BybitClient.fetch_positions` on a delivered reply: the open entries. -/
def fetchPositions (list : List RawPosition) : List ExchangePosition :=
  (list.filter RawPosition.isOpen).map RawPosition.toPosition

/-- Every returned position has a positive size. -/
theorem contracts_pos_of_mem {list : List RawPosition} {p : ExchangePosition}
    (hp : p ∈ fetchPositions list) : 0 < p.contracts := by
  simp only [fetchPositions, List.mem_map, List.mem_filter] at hp
  rcases hp with ⟨raw, ⟨-, hopen⟩, rfl⟩
  simpa [RawPosition.isOpen, RawPosition.toPosition] using hopen

/-! ## Open orders -/

/-- One entry of the exchange's open-order list. -/
structure RawOrder where
  orderId : Text
  symbol : Text
  side : ExchangeSide
  price : Option (Numeral ℚ)
  qty : Option (Numeral ℚ)
  orderStatus : Text
  orderType : Text
  stopOrderType : Text
deriving Repr, DecidableEq

/-- The record `fetch_open_orders` builds for one entry. -/
structure OpenOrder where
  id : Text
  symbol : Text
  side : OrderSide
  price : ℚ
  amount : ℚ
  status : Text
  type : Text
  stopOrderType : Text
deriving Repr, DecidableEq

/-- The record as a dictionary. -/
def OpenOrder.get? (o : OpenOrder) : RecordKey → Option RecordValue
  | .id => some (.text o.id)
  | .symbol => some (.text o.symbol)
  | .side => some (.text o.side.word)
  | .price => some (.number o.price)
  | .amount => some (.number o.amount)
  | .status => some (.text o.status)
  | .type => some (.text o.type)
  | .stopOrderType => some (.text o.stopOrderType)
  | _ => none

/-- The record built for one raw entry. -/
def RawOrder.toOpenOrder (o : RawOrder) : OpenOrder where
  id := o.orderId
  symbol := o.symbol
  side := o.side.toOrderSide
  price := Numeral.safeDecimal o.price
  amount := Numeral.safeDecimal o.qty
  status := o.orderStatus.map Char.toLower
  type := o.orderType.map Char.toLower
  stopOrderType := o.stopOrderType

/-- `BybitClient.fetch_open_orders` on a delivered reply. -/
def fetchOpenOrders (list : List RawOrder) : List OpenOrder :=
  list.map RawOrder.toOpenOrder

end Bybit
end Karsa
