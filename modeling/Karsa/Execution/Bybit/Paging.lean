import Karsa.Execution.Bybit.AccountReads

/-!
# Bybit client - Paged list replies

Bybit answers a list request with one page and, while more records follow, with
the cursor of the next one.  `fetch_positions` and `fetch_open_orders` send one
request without a cursor and read `result["list"]`; what stands on later pages is
never asked for.  The callers nevertheless take a record that is not returned as
closed.

Main results:

- Theorem `Lists.exists_rest`: the first page is a prefix of the listed records.
- Theorem `accountReads_complete_iff`: the reads are complete exactly when nothing
  open stands behind the first page.
-/

namespace Karsa
namespace Bybit

/-! ## Pages -/

section Pages

variable {α : Type*}

/-- One page of a list reply; an empty cursor ends the list. -/
structure Page (α : Type*) where
  list : List α
  nextPageCursor : Text

/-- Following the cursors from `cursor` on lists exactly `records`. -/
inductive Lists (serve : Text → Page α) : Text → List α → Prop where
  | last {cursor : Text} (hend : (serve cursor).nextPageCursor = []) :
      Lists serve cursor (serve cursor).list
  | more {cursor : Text} {rest : List α} (hnext : (serve cursor).nextPageCursor ≠ [])
      (hrest : Lists serve (serve cursor).nextPageCursor rest) :
      Lists serve cursor ((serve cursor).list ++ rest)

/-- The page under the first cursor comes first. -/
theorem Lists.exists_rest {serve : Text → Page α} {cursor : Text} {records : List α}
    (h : Lists serve cursor records) : ∃ rest, records = (serve cursor).list ++ rest := by
  cases h with
  | last _ => exact ⟨[], by rw [List.append_nil]⟩
  | @more _ rest _ _ => exact ⟨rest, rfl⟩

/-- Reading a listing through a map and a filter, page one holds everything exactly
when the filter keeps nothing behind it. -/
theorem Lists.perm_iff {β : Type*} {serve : Text → Page α} {cursor : Text} {records : List α}
    (h : Lists serve cursor records) (keep : α → Bool) (read : α → β) :
    (((serve cursor).list.filter keep).map read).Perm ((records.filter keep).map read) ↔
      ∀ r ∈ records.drop (serve cursor).list.length, keep r = false := by
  rcases h.exists_rest with ⟨rest, rfl⟩
  rw [List.drop_left, List.filter_append, List.map_append]
  constructor
  · intro hperm
    have hlength := hperm.length_eq
    have hnil : rest.filter keep = [] := by
      apply List.eq_nil_of_length_eq_zero
      simp only [List.length_append, List.length_map] at hlength
      omega
    intro r hr
    have hdropped := List.filter_eq_nil_iff.mp hnil r hr
    simpa using hdropped
  · intro hnone
    have hnil : rest.filter keep = [] := by
      apply List.filter_eq_nil_iff.mpr
      intro r hr
      simp [hnone r hr]
    rw [hnil, List.map_nil, List.append_nil]

end Pages

/-! ## The account behind the client -/

/-- Open positions and open orders of an account. -/
structure Account where
  positions : List RawPosition
  orders : List RawOrder

/-- Is the order in the scope of a request, a symbol or the whole account? -/
def inScope (scope : Option Text) (order : RawOrder) : Bool :=
  scope.all (order.symbol = ·)

/-- The exchange's list replies, by cursor; the empty cursor asks for the first page. -/
structure Exchange (account : Account) where
  getPositions : Text → Page RawPosition
  getOpenOrders : Option Text → Text → Page RawOrder
  positions_listed : Lists getPositions [] account.positions
  orders_listed : ∀ scope, Lists (getOpenOrders scope) [] (account.orders.filter (inScope scope))

/-- `params["symbol"]` of `fetch_open_orders`; an empty symbol asks for the account. -/
def requestScope (t : InstrumentTables) (symbol : Option Text) : Option Text :=
  match symbol with
  | none | some [] => none
  | some (c :: rest) => some (t.toBybitSymbol (c :: rest))

variable {account : Account}

/-- `BybitClient.fetch_positions`: one request. -/
def Exchange.fetchPositions (e : Exchange account) : List ExchangePosition :=
  Bybit.fetchPositions (e.getPositions []).list

/-- `BybitClient.fetch_open_orders`: one request. -/
def Exchange.fetchOpenOrders (e : Exchange account) (t : InstrumentTables)
    (symbol : Option Text) : List OpenOrder :=
  Bybit.fetchOpenOrders (e.getOpenOrders (requestScope t symbol) []).list

/-! ## Completeness -/

/-- Every open position and every open order of the requested scope is returned
exactly once; a position that is not returned is closed. -/
structure ReadsComplete (e : Exchange account) (t : InstrumentTables) : Prop where
  positions : e.fetchPositions.Perm
    ((account.positions.filter RawPosition.isOpen).map RawPosition.toPosition)
  orders : ∀ symbol, (e.fetchOpenOrders t symbol).Perm
    ((account.orders.filter (inScope (requestScope t symbol))).map RawOrder.toOpenOrder)
  closed_of_absent : ∀ p ∈ account.positions, p.toPosition ∉ e.fetchPositions → p.isOpen = false

/-- Behind the first page there is no open position and no order at all. -/
structure FitsFirstPage (e : Exchange account) (t : InstrumentTables) : Prop where
  positions : ∀ p ∈ account.positions.drop (e.getPositions []).list.length, p.isOpen = false
  orders : ∀ symbol, (account.orders.filter (inScope (requestScope t symbol))).length ≤
    (e.getOpenOrders (requestScope t symbol) []).list.length

/-- An open position that a complete read does not return cannot be. -/
theorem closed_of_perm {list : List ExchangePosition} {positions : List RawPosition}
    (hperm : list.Perm ((positions.filter RawPosition.isOpen).map RawPosition.toPosition))
    {p : RawPosition} (hp : p ∈ positions) (habsent : p.toPosition ∉ list) :
    p.isOpen = false := by
  by_contra hopen
  apply habsent
  apply hperm.mem_iff.mpr
  apply List.mem_map_of_mem
  apply List.mem_filter.mpr
  exact ⟨hp, by simpa using hopen⟩

/-- The orders of one scope are complete exactly when the first page holds them all. -/
theorem openOrders_perm_iff (e : Exchange account) (t : InstrumentTables) (symbol : Option Text) :
    (e.fetchOpenOrders t symbol).Perm
        ((account.orders.filter (inScope (requestScope t symbol))).map RawOrder.toOpenOrder) ↔
      (account.orders.filter (inScope (requestScope t symbol))).length ≤
        (e.getOpenOrders (requestScope t symbol) []).list.length := by
  have hpages := (e.orders_listed (requestScope t symbol)).perm_iff (fun _ => true)
    RawOrder.toOpenOrder
  simp only [List.filter_true] at hpages
  rw [Exchange.fetchOpenOrders, Bybit.fetchOpenOrders, hpages]
  constructor
  · intro hnone
    apply List.drop_eq_nil_iff.mp
    apply List.eq_nil_iff_forall_not_mem.mpr
    intro r hr
    simpa using hnone r hr
  · intro hlength r hr
    rw [List.drop_eq_nil_of_le hlength] at hr
    cases hr

/-- The client's reads are complete exactly when everything fits on the first page. -/
theorem accountReads_complete_iff (e : Exchange account) (t : InstrumentTables) :
    ReadsComplete e t ↔ FitsFirstPage e t := by
  have hpositions := e.positions_listed.perm_iff RawPosition.isOpen RawPosition.toPosition
  constructor
  · intro h
    exact ⟨hpositions.mp h.positions, fun symbol =>
      (openOrders_perm_iff e t symbol).mp (h.orders symbol)⟩
  · intro h
    have hperm := hpositions.mpr h.positions
    exact ⟨hperm, fun symbol => (openOrders_perm_iff e t symbol).mpr (h.orders symbol),
      fun p hp habsent => closed_of_perm hperm hp habsent⟩

/-! ## An account with twenty-one positions -/

/-- Twenty-one longs in as many instruments. -/
def crowdedAccount : Account where
  positions := (List.range 21).map fun n =>
    { symbol := (toString n).toList ++ "COINUSDT".toList, side := .Buy, size := some (.value 1),
      avgPrice := some (.value 100), unrealisedPnl := none, stopLoss := none,
      takeProfit := none, trailingStop := none, liqPrice := none }
  orders := []

/-- Its positions, twenty a page. -/
def crowdedPages (cursor : Text) : Page RawPosition :=
  if cursor = [] then ⟨crowdedAccount.positions.take 20, "page2".toList⟩
  else ⟨crowdedAccount.positions.drop 20, []⟩

/-- An exchange that serves twenty records a page. -/
def crowdedExchange : Exchange crowdedAccount where
  getPositions := crowdedPages
  getOpenOrders _ _ := ⟨[], []⟩
  positions_listed := by
    have hsecond : Lists crowdedPages "page2".toList (crowdedAccount.positions.drop 20) :=
      .last rfl
    exact .more (by simp [crowdedPages]) hsecond
  orders_listed _ := .last rfl

/-- The position on the second page is not returned. -/
theorem crowdedExchange_incomplete : ¬ ReadsComplete crowdedExchange .empty := by
  intro h
  have hlength := h.positions.length_eq
  revert hlength
  decide +kernel

end Bybit
end Karsa
