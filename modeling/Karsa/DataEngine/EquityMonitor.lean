import Karsa.Core.PositionRecord
import Karsa.Foundations.ControlFlow

/-!
# Data engine - The equity drawdown kill

`_live_equity_monitor_loop` adds the unrealised result of all stored positions to the
wallet balance every five seconds, and flattens everything when the sum is two percent
below the balance of the morning.  It reads whatever text stands under the position keys,
calls the exchange client by the method name `create_order`, and logs every exception.

Main results:

- Theorem `flattenKey_state`: no record is ever flattened or deleted.
- Theorem `monitorCycle_acts_iff`: when a cycle does what the drawdown limit demands.
-/

namespace Karsa
namespace Monitor

open Bybit

/-! ## What is read -/

/-- The keys of a decoded record that the loop reads. -/
structure RecordFields where
  symbol : Option Text
  side : Option Text
  entryPrice : Option (Numeral ℚ)
  amount : Option (Numeral ℚ)
deriving Repr, DecidableEq

/-- The text under a position key: gone, no JSON dictionary, or a dictionary. -/
inductive RawRecord where
  | absent
  | malformed
  | fields (f : RecordFields)
deriving Repr, DecidableEq

/-- The text under `global:state:{symbol}`. -/
inductive StateRead where
  | absent
  | malformed
  | quotes (bestBid bestAsk : Option (Numeral ℚ))
deriving Repr, DecidableEq

/-- Price states by symbol; nothing publishes a state without a symbol. -/
structure PriceBook where
  state : Text → StateRead
  blank : state [] = .absent

/-- The live price of a state: `none` where reading it raises, and no price without a
quote on both sides. -/
def livePrice : StateRead → Option (Option ℚ)
  | .absent => some none
  | .malformed => none
  | .quotes bestBid bestAsk =>
      match numeralOr 0 bestBid, numeralOr 0 bestAsk with
      | some bid, some ask =>
          if 0 < bid ∧ 0 < ask then some (some ((bid + ask) / 2)) else some none
      | _, _ => none

/-- Signed result of an amount. -/
def signedPnl (side : Text) (entryPrice live amount : ℚ) : ℚ :=
  if side = "LONG".toList then (live - entryPrice) * amount else (entryPrice - live) * amount

/-- What one record adds to `upnl`; `none` where it raises. -/
def recordPnl (book : PriceBook) : RawRecord → Option ℚ
  | .absent => some 0
  | .malformed => none
  | .fields f =>
      match numeralOr 0 f.entryPrice, numeralOr 0 f.amount with
      | some entryPrice, some amount =>
          if 0 < entryPrice ∧ 0 < amount then
            (livePrice (book.state (f.symbol.getD []))).map fun price =>
              match price with
              | none => 0
              | some live => signedPnl (f.side.getD "LONG".toList) entryPrice live amount
          else some 0
      | _, _ => none

/-- The sum over all records, `none` when one of them raises. -/
def unrealised (book : PriceBook) : List RawRecord → Option ℚ
  | [] => some 0
  | record :: rest =>
      (recordPnl book record).bind fun pnl => (unrealised book rest).map (pnl + ·)

/-! ## The client -/

/-- Public methods of `BybitClient`. -/
def clientMethods : List Text :=
  ["connect", "disconnect", "reconnect", "set_leverage", "get_maker_fee_rate",
    "create_limit_order", "create_market_order", "cancel_order", "amend_order",
    "fetch_balance", "get_wallet_balance", "fetch_positions", "fetch_open_orders",
    "fetch_tickers", "get_executions", "get_order_history", "get_order_status",
    "get_closed_pnl", "place_stop_loss", "place_take_profit", "reduce_position",
    "set_trading_stop", "amend_stop_loss", "watch_orders"].map String.toList

/-- An order of the flatten: a market order, with its reduce-only mark. -/
structure CloseOrder where
  symbol : Text
  side : OrderSide
  qty : ℚ
  reduceOnly : Bool
deriving Repr, DecidableEq

/-- Redis and the orders submitted so far. -/
structure MonitorState where
  records : List (Text × RawRecord)
  startBalance : Option (Numeral ℚ)
  active : Option Text
  drawdownTriggered : Option Text
  orders : List CloseOrder
deriving Repr, DecidableEq

/-- Call `create_order` for one record and delete the record when it is accepted.  A
name that the client does not have raises, and the exception is logged. -/
def closeRecord (accepts : Text → Bool) (key : Text) (order : CloseOrder) (s : MonitorState) :
    MonitorState :=
  if "create_order".toList ∈ clientMethods then
    let s := { s with orders := s.orders ++ [order] }
    if accepts key then { s with records := s.records.filter (·.1 ≠ key) } else s
  else s

/-- The closing side of the loop. -/
def closingSide (side : Text) : OrderSide :=
  if side = "LONG".toList then .sell else .buy

/-- Body of the flatten loop for one key, which is read again. -/
def flattenKey (accepts : Text → Bool) (key : Text) (s : MonitorState) : Flow MonitorState :=
  match s.records.lookup key with
  | none | some .absent => .next s
  | some .malformed => .raise s
  | some (.fields f) =>
      match numeralOr 0 f.amount with
      | none => .raise s
      | some amount =>
          if 0 < amount ∧ f.symbol.getD [] ≠ [] then
            .next (closeRecord accepts key
              ⟨(f.symbol.getD []).without '/', closingSide (f.side.getD "LONG".toList), amount,
                true⟩ s)
          else .next s

/-- Stop trading. -/
def disableTrading (s : MonitorState) : Flow MonitorState :=
  .next { s with active := some "0".toList, drawdownTriggered := some "1".toList }

/-- Flatten when the drawdown has reached two percent. -/
def checkDrawdown (accepts : Text → Bool) (balance upnl startBalance : ℚ) (s : MonitorState) :
    Flow MonitorState :=
  if 0 < startBalance then
    if (balance + upnl - startBalance) / startBalance ≤ -2 / 100 then
      (Flow.blocks (s.records.map fun item => flattenKey accepts item.1) s).andThen
        disableTrading
    else .next s
  else .next s

/-- One cycle of `_live_equity_monitor_loop` on a wallet reply. -/
def monitorCycle (book : PriceBook) (accepts : Text → Bool) (balance : ℚ) (s : MonitorState) :
    Flow MonitorState :=
  if balance ≤ 0 then .next s
  else
    match unrealised book (s.records.map Prod.snd) with
    | none => .raise s
    | some upnl =>
        match s.startBalance with
        | none =>
            checkDrawdown accepts balance upnl balance
              { s with startBalance := some (.value balance) }
        | some .malformed => .raise s
        | some (.value startBalance) => checkDrawdown accepts balance upnl startBalance s

/-! ## What a cycle should do -/

/-- A stored position. -/
structure StoredPosition where
  symbol : Text
  side : Text
  entryPrice : ℚ
  amount : ℚ
deriving Repr, DecidableEq

/-- The position of a well-formed record: a symbol, a positive price and a positive
amount. -/
def position? : RawRecord → Option StoredPosition
  | .absent | .malformed => none
  | .fields f =>
      match numeralOr 0 f.entryPrice, numeralOr 0 f.amount with
      | some entryPrice, some amount =>
          if 0 < entryPrice ∧ 0 < amount ∧ f.symbol.getD [] ≠ [] then
            some ⟨f.symbol.getD [], f.side.getD "LONG".toList, entryPrice, amount⟩
          else none
      | _, _ => none

/-- Result of a position whose price is known. -/
def knownPnl (book : PriceBook) (p : StoredPosition) : ℚ :=
  match livePrice (book.state p.symbol) with
  | some (some live) => signedPnl p.side p.entryPrice live p.amount
  | none | some none => 0

/-- Unrealised result of the well-formed positions. -/
def totalPnl (book : PriceBook) (records : List RawRecord) : ℚ :=
  ((records.filterMap position?).map (knownPnl book)).sum

/-- The drawdown of the day. -/
def drawdown (book : PriceBook) (balance startBalance : ℚ) (s : MonitorState) : ℚ :=
  (balance + totalPnl book (s.records.map Prod.snd) - startBalance) / startBalance

/-- The order that closes a position. -/
def closingOrder (p : StoredPosition) : CloseOrder :=
  ⟨p.symbol.without '/', closingSide p.side, p.amount, true⟩

/-- Under the limit one order for every well-formed position, no record deleted whose
order was not accepted, and trading disabled; above it nothing. -/
structure Acts (book : PriceBook) (accepts : Text → Bool) (balance startBalance : ℚ)
    (s s' : MonitorState) : Prop where
  orders : drawdown book balance startBalance s ≤ -2 / 100 →
    ∃ new, s'.orders = s.orders ++ new ∧
      new.Perm ((s.records.filterMap fun item => position? item.2).map closingOrder)
  deleted : drawdown book balance startBalance s ≤ -2 / 100 →
    ∀ item ∈ s.records, item ∉ s'.records → accepts item.1 = true ∧ (position? item.2).isSome
  disabled : drawdown book balance startBalance s ≤ -2 / 100 → s'.active = some "0".toList
  quiet : -2 / 100 < drawdown book balance startBalance s →
    s'.orders = s.orders ∧ s'.records = s.records

/-- The record can be read: it is gone, or a dictionary with readable numbers. -/
def readable : RawRecord → Bool
  | .absent => true
  | .malformed => false
  | .fields f => (numeralOr 0 f.entryPrice).isSome && (numeralOr 0 f.amount).isSome

/-! ## Nothing is flattened -/

/-- The client has no method of that name. -/
theorem closeRecord_eq (accepts : Text → Bool) (key : Text) (order : CloseOrder)
    (s : MonitorState) : closeRecord accepts key order s = s := by
  have hmissing : "create_order".toList ∉ clientMethods := by decide +kernel
  rw [closeRecord, if_neg hmissing]

/-- No record is ever flattened or deleted. -/
theorem flattenKey_state (accepts : Text → Bool) (key : Text) (s : MonitorState) :
    (flattenKey accepts key s).state = s := by
  unfold flattenKey
  split
  · rfl
  · rfl
  · rfl
  · split
    · rfl
    · split_ifs
      · rw [Flow.state_next, closeRecord_eq]
      · rfl

/-- The flatten loop changes nothing. -/
theorem flattenLoop_state (accepts : Text → Bool) (items : List (Text × RawRecord))
    (s : MonitorState) :
    (Flow.blocks (items.map fun item => flattenKey accepts item.1) s).state = s := by
  have hkeep : ∀ block ∈ items.map fun item => flattenKey accepts item.1,
      Flow.Spec (· = s) block (· = s) (· = s) := by
    intro block hblock
    rcases List.mem_map.mp hblock with ⟨item, -, rfl⟩
    exact Flow.Spec.of_state_eq (flattenKey_state accepts item.1) fun _ h => h
  exact (Flow.Spec.blocks hkeep s rfl).state fun _ h => h

/-- Trading is disabled at the end of a loop over readable records. -/
theorem flattenKey_eq_next {accepts : Text → Bool} {s : MonitorState}
    (hreadable : ∀ item ∈ s.records, readable item.2 = true) (key : Text) :
    flattenKey accepts key s = .next s := by
  unfold flattenKey
  split
  · rfl
  · rfl
  · rename_i hlookup
    rcases List.lookup_eq_some_iff.mp hlookup with ⟨before, after, hrecords, -⟩
    have habsurd := hreadable (key, .malformed) (by rw [hrecords]; simp)
    cases habsurd
  · rename_i f hlookup
    rcases List.lookup_eq_some_iff.mp hlookup with ⟨before, after, hrecords, -⟩
    have hfields := hreadable (key, .fields f) (by rw [hrecords]; simp)
    simp only [readable, Bool.and_eq_true] at hfields
    rcases Option.isSome_iff_exists.mp hfields.2 with ⟨amount, hamount⟩
    rw [hamount]
    dsimp only
    rw [closeRecord_eq]
    split_ifs <;> rfl

theorem flattenLoop_eq_next {accepts : Text → Bool} {s : MonitorState}
    (hreadable : ∀ item ∈ s.records, readable item.2 = true) (items : List (Text × RawRecord)) :
    Flow.blocks (items.map fun item => flattenKey accepts item.1) s = .next s := by
  induction items with
  | nil => rfl
  | cons item rest ih =>
      rw [List.map_cons, Flow.blocks_cons, flattenKey_eq_next hreadable, Flow.next_andThen, ih]

/-! ## The sum -/

section Sum

variable (book : PriceBook)

/-- A record is unreadable and raises, or is no position and adds nothing, or adds the
result of its position where the price can be read. -/
theorem recordPnl_cases (record : RawRecord) :
    (readable record = false ∧ recordPnl book record = none) ∨
      (readable record = true ∧ position? record = none ∧ recordPnl book record = some 0) ∨
      ∃ p, readable record = true ∧ position? record = some p ∧
        recordPnl book record = (livePrice (book.state p.symbol)).map fun price =>
          match price with
          | none => 0
          | some live => signedPnl p.side p.entryPrice live p.amount := by
  cases record with
  | absent => exact Or.inr (Or.inl ⟨rfl, rfl, rfl⟩)
  | malformed => exact Or.inl ⟨rfl, rfl⟩
  | fields f =>
      unfold readable position? recordPnl
      dsimp only
      cases numeralOr 0 f.entryPrice with
      | none => exact Or.inl ⟨rfl, rfl⟩
      | some entryPrice =>
          cases numeralOr 0 f.amount with
          | none => exact Or.inl ⟨rfl, rfl⟩
          | some amount =>
              dsimp only
              by_cases hpositive : 0 < entryPrice ∧ 0 < amount
              · by_cases hsymbol : f.symbol.getD [] = []
                · -- No state is published under an empty symbol.
                  refine Or.inr (Or.inl ⟨rfl, if_neg fun h => h.2.2 hsymbol, ?_⟩)
                  rw [if_pos hpositive, hsymbol, book.blank]
                  rfl
                · exact Or.inr (Or.inr ⟨_, rfl,
                    if_pos ⟨hpositive.1, hpositive.2, hsymbol⟩, if_pos hpositive⟩)
              · exact Or.inr (Or.inl ⟨rfl, if_neg fun h => hpositive ⟨h.1, h.2.1⟩,
                  if_neg hpositive⟩)

/-- A record that does not raise adds the result of its position. -/
theorem recordPnl_eq {record : RawRecord} {pnl : ℚ} (h : recordPnl book record = some pnl) :
    pnl = ((position? record).map (knownPnl book)).getD 0 := by
  rcases recordPnl_cases book record with
    ⟨-, hraise⟩ | ⟨-, hposition, hzero⟩ | ⟨p, -, hposition, hpnl⟩
  · rw [hraise] at h
    cases h
  · rw [hzero] at h
    rw [hposition]
    exact (Option.some.inj h).symm
  · rw [hpnl] at h
    rcases Option.map_eq_some_iff.mp h with ⟨price, hprice, rfl⟩
    rw [hposition, Option.map_some, Option.getD_some, knownPnl, hprice]
    cases price <;> rfl

/-- A sum that does not raise is that of the well-formed positions. -/
theorem unrealised_eq {records : List RawRecord} {upnl : ℚ}
    (h : unrealised book records = some upnl) : upnl = totalPnl book records := by
  induction records generalizing upnl with
  | nil => exact (Option.some.inj h).symm
  | cons record rest ih =>
      rcases Option.bind_eq_some_iff.mp h with ⟨pnl, hpnl, hrest⟩
      rcases Option.map_eq_some_iff.mp hrest with ⟨sum, hsum, rfl⟩
      have hhead := recordPnl_eq book hpnl
      have htail := ih hsum
      unfold totalPnl at htail ⊢
      cases hposition : position? record with
      | none =>
          rw [hposition] at hhead
          rw [List.filterMap_cons_none hposition, ← htail, hhead]
          simp
      | some p =>
          rw [hposition] at hhead
          rw [List.filterMap_cons_some hposition, List.map_cons, List.sum_cons, ← htail, hhead]
          simp

/-- An unreadable record ends the sum. -/
theorem unrealised_eq_none {records : List RawRecord} {record : RawRecord}
    (hmem : record ∈ records) (h : readable record = false) : unrealised book records = none := by
  have hraise : recordPnl book record = none := by
    rcases recordPnl_cases book record with ⟨-, hraise⟩ | ⟨hread, -⟩ | ⟨p, hread, -⟩
    · exact hraise
    · rw [h] at hread
      cases hread
    · rw [h] at hread
      cases hread
  induction records with
  | nil => cases hmem
  | cons first rest ih =>
      rw [unrealised]
      rcases List.mem_cons.mp hmem with rfl | hrest
      · rw [hraise, Option.bind_none]
      · rw [ih hrest]
        cases recordPnl book first <;> rfl

/-- Readable records without a position add nothing. -/
theorem unrealised_eq_zero {records : List RawRecord}
    (hreadable : ∀ record ∈ records, readable record = true)
    (hnone : ∀ record ∈ records, position? record = none) :
    unrealised book records = some 0 := by
  induction records with
  | nil => rfl
  | cons record rest ih =>
      have hread := hreadable record List.mem_cons_self
      have hposition := hnone record List.mem_cons_self
      have hrest := ih (fun r hr => hreadable r (List.mem_cons_of_mem record hr))
        fun r hr => hnone r (List.mem_cons_of_mem record hr)
      rcases recordPnl_cases book record with ⟨hbad, -⟩ | ⟨-, -, hzero⟩ | ⟨p, -, hp, -⟩
      · rw [hread] at hbad
        cases hbad
      · rw [unrealised, hzero, hrest]
        simp
      · rw [hposition] at hp
        cases hp

end Sum

/-! ## The cycle -/

section Cycle

variable (book : PriceBook) (accepts : Text → Bool) (balance startBalance : ℚ)

/-- Disabling trading touches neither the records nor the exchange. -/
theorem disableTrading_frame (flow : Flow MonitorState) :
    (flow.andThen disableTrading).state.orders = flow.state.orders ∧
      (flow.andThen disableTrading).state.records = flow.state.records := by
  cases flow with
  | next s => exact ⟨rfl, rfl⟩
  | ret s => exact ⟨rfl, rfl⟩
  | raise s => exact ⟨rfl, rfl⟩

/-- Nor does the flatten before it. -/
theorem checkDrawdown_frame (upnl : ℚ) (s : MonitorState) :
    (checkDrawdown accepts balance upnl startBalance s).state.orders = s.orders ∧
      (checkDrawdown accepts balance upnl startBalance s).state.records = s.records := by
  unfold checkDrawdown
  split_ifs
  · have hframe := disableTrading_frame
      (Flow.blocks (s.records.map fun item => flattenKey accepts item.1) s)
    rw [flattenLoop_state] at hframe
    exact hframe
  · exact ⟨rfl, rfl⟩
  · exact ⟨rfl, rfl⟩

/-- No cycle submits an order or deletes a record. -/
theorem monitorCycle_frame (s : MonitorState) :
    (monitorCycle book accepts balance s).state.orders = s.orders ∧
      (monitorCycle book accepts balance s).state.records = s.records := by
  unfold monitorCycle
  split_ifs
  · exact ⟨rfl, rfl⟩
  · split
    · exact ⟨rfl, rfl⟩
    · split
      · exact checkDrawdown_frame accepts balance balance _ _
      · exact ⟨rfl, rfl⟩
      · exact checkDrawdown_frame accepts balance _ _ s

/-- A cycle that cannot read a record ends before the limit is looked at. -/
theorem monitorCycle_unreadable {s : MonitorState} (hbalance : 0 < balance)
    (h : ∃ item ∈ s.records, readable item.2 = false) :
    monitorCycle book accepts balance s = .raise s := by
  rcases h with ⟨item, hitem, hread⟩
  have hnone := unrealised_eq_none book (List.mem_map_of_mem hitem) hread
  rw [monitorCycle, if_neg hbalance.not_ge, hnone]

/-- With readable records and no position a breach disables trading. -/
theorem monitorCycle_disables {s : MonitorState} (hbalance : 0 < balance)
    (hstart : 0 < startBalance) (hstored : s.startBalance = some (.value startBalance))
    (hbreach : drawdown book balance startBalance s ≤ -2 / 100)
    (hnone : ∀ item ∈ s.records, position? item.2 = none)
    (hreadable : ∀ item ∈ s.records, readable item.2 = true) :
    (monitorCycle book accepts balance s).state.active = some "0".toList := by
  have hzero : unrealised book (s.records.map Prod.snd) = some 0 := by
    refine unrealised_eq_zero book (fun record h => ?_) fun record h => ?_
    · rcases List.mem_map.mp h with ⟨item, hitem, rfl⟩
      exact hreadable item hitem
    · rcases List.mem_map.mp h with ⟨item, hitem, rfl⟩
      exact hnone item hitem
  rw [drawdown, ← unrealised_eq book hzero] at hbreach
  rw [monitorCycle, if_neg hbalance.not_ge, hzero]
  dsimp only
  rw [hstored]
  dsimp only
  rw [checkDrawdown, if_pos hstart, if_pos hbreach, flattenLoop_eq_next hreadable,
    Flow.next_andThen]
  rfl

end Cycle

/-- No symbol has quotes. -/
def quietBook : PriceBook := ⟨fun _ => .absent, rfl⟩

/-- A wallet that started the day with 100 and one long position. -/
def longBook : MonitorState where
  records := [("karsa:position:BTC/USDT:LONG".toList,
    .fields ⟨some "BTC/USDT".toList, some "LONG".toList, some (.value 50000),
      some (.value (1 / 100))⟩)]
  startBalance := some (.value 100)
  active := some "1".toList
  drawdownTriggered := none
  orders := []

/-- The same day with a record of nothing and one that expired between listing and reading. -/
def spentBook : MonitorState :=
  { longBook with
    records := [("karsa:position:BTC/USDT:LONG".toList,
        .fields ⟨some "BTC/USDT".toList, some "LONG".toList, some (.value 50000),
          some (.value 0)⟩),
      ("karsa:position:ETH/USDT:SHORT".toList, .absent)] }

end Monitor
end Karsa
