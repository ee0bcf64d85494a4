import Karsa.Core.Reconciler.Fills
import Karsa.Foundations.WeightedMeans

/-!
# Trade reconciler - One order for each local trade

`_compare_fills` keeps executions under a text of symbol, side and order, takes symbol and
side out of that text again, and lets an order match the first local trade of them that was
entered within five minutes.  A matched trade stays in the index.

Main results:

- Theorem `matchFills_eq`: the texts are as good as the keys they are made of.
- Theorem `matchedTrade_eq_some_iff`: the trade an order matches.
- Theorem `hidesNoEntry_iff`: when no trade accounts for two orders.
-/

namespace Karsa
namespace Reconciler

open Bybit Trades

/-! ## Concatenated keys -/

/-- `f"{ccxt_sym}:{side}:{order_id}"`. -/
def OrderKey.text (k : OrderKey) : Text :=
  k.symbol ++ ':' :: (k.side ++ ':' :: k.orderId)

/-- `f"{symbol}:{side}"`. -/
def matchKey (symbol side : Text) : Text :=
  symbol ++ ':' :: side

/-- `local_index`. -/
def localIndex (trades : List Trade) : Dict Text (List Trade) :=
  Dict.group (trades.map fun t => (matchKey t.symbol (normalizeTradeSide t.side), t))

/-- The order of a group; symbol and side are the first two parts of its key. -/
def splitOrder (key : Text) (fills : List Fill) : BybitOrder :=
  let parts := key.splitOn ':'
  orderOf ⟨parts.getD 0 [], parts.getD 1 [], (fills.head?.map Fill.orderId).getD []⟩ fills

/-- The local trade at which the search for an order stops. -/
def matchedTrade (trades : List Trade) (o : BybitOrder) : Option Trade :=
  (((localIndex trades).get (matchKey o.key.symbol o.key.side)).getD []).find? fun t =>
    decide (|t.entryTime - o.execTime| < 300)

/-- What the loop reports about an order. -/
def judgeOrder (trades : List Trade) (o : BybitOrder) : Option Discrepancy :=
  match matchedTrade trades o with
  | some t =>
      if priceMismatch t.entryPrice o.price then
        some ⟨o.key.symbol, o.key.side, .prices o.price t.entryPrice, some t.id, .WARNING⟩
      else none
  | none => some (missingEntry o)

/-- `grouped`. -/
def groupedByText (reverseMap : Text → Option Text) (fills : List Fill) :
    Dict Text (List Fill) :=
  Dict.group ((fills.filter fun f => !f.closes).map fun f => ((f.key reverseMap).text, f))

/-- `_compare_fills` on its concatenated keys, each discrepancy with its order. -/
def matchFills (reverseMap : Text → Option Text) (trades : List Trade) (grace : ℚ)
    (fills : List Fill) : List (BybitOrder × Discrepancy) :=
  (groupedByText reverseMap fills).filterMap fun group =>
    let o := splitOrder group.1 group.2
    if grace < o.execTime then none else (judgeOrder trades o).map fun d => (o, d)

/-! ## Bybit's executions -/

/-- Names under which Bybit symbols are recorded; none has a colon. -/
structure SymbolNames where
  reverseMap : Text → Option Text
  plain : ∀ bybitSymbol name, reverseMap bybitSymbol = some name → ':' ∉ name

/-- An execution as Bybit lists it: no colon in symbol and side, and an unsigned quantity. -/
structure BybitFill where
  fill : Fill
  symbol_plain : ':' ∉ fill.symbol
  side_plain : ':' ∉ fill.side
  unsigned : 0 ≤ Numeral.safeDecimal fill.execQty

/-- The key has no colon before its order. -/
structure OrderKey.Plain (k : OrderKey) : Prop where
  symbol : ':' ∉ k.symbol
  side : ':' ∉ k.side

/-- A unified symbol has no colon if neither the Bybit symbol nor its name has one. -/
theorem unifiedSymbol_plain (names : SymbolNames) {symbol : Text} (hsymbol : ':' ∉ symbol) :
    ':' ∉ unifiedSymbol names.reverseMap symbol := by
  have hname : ':' ∉ (names.reverseMap symbol).getD symbol := by
    cases hmap : names.reverseMap symbol with
    | none => exact hsymbol
    | some name => exact names.plain symbol name hmap
  unfold unifiedSymbol
  dsimp only
  split_ifs with hplain
  · rw [List.mem_append, not_or]
    exact ⟨fun hmem => hname (List.mem_of_mem_take hmem), by decide⟩
  · exact hname

/-- Normalising a side adds no colon. -/
theorem normalizeTradeSide_plain {side : Text} (hside : ':' ∉ side) :
    ':' ∉ normalizeTradeSide side := by
  unfold normalizeTradeSide
  dsimp only
  split_ifs
  · decide
  · decide
  · exact hside

/-- The keys of Bybit's executions. -/
theorem BybitFill.key_plain (names : SymbolNames) (f : BybitFill) :
    (f.fill.key names.reverseMap).Plain :=
  ⟨unifiedSymbol_plain names f.symbol_plain, normalizeTradeSide_plain f.side_plain⟩

/-- Symbol and side come back out of a key. -/
theorem OrderKey.Plain.splitOn_text {k : OrderKey} (h : k.Plain) :
    k.text.splitOn ':' = k.symbol :: k.side :: k.orderId.splitOn ':' := by
  rw [OrderKey.text, List.splitOn_append_cons_self_of_not_mem h.symbol,
    List.splitOn_append_cons_self_of_not_mem h.side]

/-- A text with its first separator tells its parts. -/
theorem append_cons_inj {c : Char} {s s' t t' : Text} (hs : c ∉ s) (hs' : c ∉ s')
    (h : s ++ c :: t = s' ++ c :: t') : s = s' ∧ t = t' := by
  induction s generalizing s' with
  | nil =>
      cases s' with
      | nil => exact ⟨rfl, (List.cons.inj h).2⟩
      | cons d rest => exact absurd (List.cons.inj h).1 fun heq => hs' (heq ▸ List.mem_cons_self)
  | cons d rest ih =>
      cases s' with
      | nil => exact absurd (List.cons.inj h).1 fun heq => hs (heq ▸ List.mem_cons_self)
      | cons d' rest' =>
          rcases List.cons.inj h with ⟨rfl, htail⟩
          rcases ih (fun hmem => hs (List.mem_cons_of_mem _ hmem))
            (fun hmem => hs' (List.mem_cons_of_mem _ hmem)) htail with ⟨rfl, hrest⟩
          exact ⟨rfl, hrest⟩

/-- Keys without colons before the order have texts of their own. -/
theorem OrderKey.Plain.text_inj {k k' : OrderKey} (h : k.Plain) (h' : k'.Plain)
    (htext : k.text = k'.text) : k = k' := by
  rcases append_cons_inj h.symbol h'.symbol htext with ⟨hsymbol, hrest⟩
  rcases append_cons_inj h.side h'.side hrest with ⟨hside, horder⟩
  cases k
  cases k'
  simp_all

/-- A trade is indexed under the symbol and side it has. -/
theorem matchKey_eq_iff {symbol side symbol' side' : Text} (hsymbol : ':' ∉ symbol)
    (hside : ':' ∉ side) :
    matchKey symbol' side' = matchKey symbol side ↔ symbol' = symbol ∧ side' = side := by
  rw [eq_comm, matchKey, matchKey, List.append_cons_inj_of_notMem hsymbol hside]
  constructor
  · rintro ⟨rfl, -, rfl⟩
    exact ⟨rfl, rfl⟩
  · rintro ⟨rfl, rfl⟩
    exact ⟨rfl, rfl, rfl⟩

/-! ## The loop on keys -/

section Keys

variable {trades : List Trade} {o : BybitOrder}

/-- Under the text of a plain key the index lists the trades of its symbol and side. -/
theorem get_localIndex {symbol side : Text} (hsymbol : ':' ∉ symbol) (hside : ':' ∉ side) :
    ((localIndex trades).get (matchKey symbol side)).getD [] =
      trades.filter fun t => decide (tradeClass t = (symbol, side)) := by
  have hfilter : (trades.map fun t => (matchKey t.symbol (normalizeTradeSide t.side), t)).filter
      (fun item => decide (item.1 = matchKey symbol side)) =
        (trades.filter fun t => decide (tradeClass t = (symbol, side))).map
          fun t => (matchKey t.symbol (normalizeTradeSide t.side), t) := by
    rw [List.filter_map]
    congr 1
    apply List.filter_congr
    intro t _
    simp [tradeClass, matchKey_eq_iff hsymbol hside]
  rw [localIndex, Dict.group, Dict.get_foldl_push, hfilter, Dict.get_nil]
  split_ifs with hnil
  · rw [List.map_eq_nil_iff] at hnil
    rw [hnil]
    rfl
  · simp [List.map_map, Function.comp_def]

/-- An order matches the first trade that was entered by it. -/
theorem matchedTrade_eq (ho : o.key.Plain) :
    matchedTrade trades o = trades.find? fun t => decide (EnteredBy o t) := by
  rw [matchedTrade, get_localIndex ho.symbol ho.side, List.find?_filter]
  congr 1
  funext t
  simp only [decide_eq_true_eq]
  rfl

/-- The loop on texts reports what the loop on keys reports. -/
theorem judgeOrder_eq (ho : o.key.Plain) : judgeOrder trades o = compareOrder trades o := by
  rw [judgeOrder, matchedTrade_eq ho]
  rfl

/-- The trade an order matches: it was entered by the order, and no trade before it was. -/
theorem matchedTrade_eq_some_iff (ho : o.key.Plain) {t : Trade} :
    matchedTrade trades o = some t ↔
      EnteredBy o t ∧ ∃ before after, trades = before ++ t :: after ∧
        ∀ t' ∈ before, ¬ EnteredBy o t' := by
  rw [matchedTrade_eq ho, List.find?_eq_some_iff_append]
  simp

/-- An order matches no trade if none was entered by it. -/
theorem matchedTrade_eq_none_iff (ho : o.key.Plain) :
    matchedTrade trades o = none ↔ ∀ t ∈ trades, ¬ EnteredBy o t := by
  rw [matchedTrade_eq ho, List.find?_eq_none]
  simp

end Keys

section Orders

variable (names : SymbolNames) (fills : List BybitFill)

/-- The executions that open a position. -/
def openingFills : List Fill :=
  (fills.map BybitFill.fill).filter fun f => !f.closes

/-- The opening executions of an order, as they are listed. -/
def executions (k : OrderKey) : List Fill :=
  (openingFills fills).filter fun f => decide (f.key names.reverseMap = k)

/-- The order that the executions under a key make up. -/
def orderUnder (k : OrderKey) : BybitOrder :=
  orderOf k (executions names fills k)

variable {names fills} {k : OrderKey}

/-- Opening executions are executions of Bybit. -/
theorem mem_openingFills {f : Fill} (hf : f ∈ openingFills fills) :
    ∃ b ∈ fills, b.fill = f :=
  List.mem_map.mp (List.mem_of_mem_filter hf)

/-- A key with executions is plain. -/
theorem plain_of_executions (hk : executions names fills k ≠ []) : k.Plain := by
  rcases List.exists_mem_of_ne_nil _ hk with ⟨f, hf⟩
  rcases List.mem_filter.mp hf with ⟨hopening, hkey⟩
  rcases mem_openingFills hopening with ⟨b, -, rfl⟩
  have heq : b.fill.key names.reverseMap = k := of_decide_eq_true hkey
  exact heq ▸ b.key_plain names

/-- The orders are those of the keys with executions. -/
theorem mem_orders_iff {o : BybitOrder} :
    o ∈ orders names.reverseMap (fills.map BybitFill.fill) ↔
      executions names fills o.key ≠ [] ∧ o = orderUnder names fills o.key := by
  have hgroup : ∀ (k : OrderKey) (list : List Fill),
      (k, list) ∈ groupedFills names.reverseMap (fills.map BybitFill.fill) ↔
        list = executions names fills k ∧ list ≠ [] := by
    intro k list
    rw [groupedFills, Dict.mem_group, List.filter_map, List.map_map]
    simp [executions, openingFills, Function.comp_def]
  constructor
  · intro ho
    rcases List.mem_map.mp ho with ⟨⟨k, list⟩, hmem, rfl⟩
    rcases (hgroup k list).mp hmem with ⟨rfl, hne⟩
    exact ⟨hne, rfl⟩
  · rintro ⟨hne, ho⟩
    rw [ho]
    exact List.mem_map.mpr ⟨_, (hgroup o.key _).mpr ⟨rfl, hne⟩, rfl⟩

/-- Texts and keys group alike. -/
theorem groupedByText_eq :
    groupedByText names.reverseMap (fills.map BybitFill.fill) =
      Dict.mapKeys OrderKey.text
        (groupedFills names.reverseMap (fills.map BybitFill.fill)) := by
  rw [groupedFills, ← Dict.group_mapKeys]
  · rw [groupedByText, Dict.mapKeys, List.map_map]
    rfl
  · have hplain : ∀ k ∈ ((openingFills fills).map fun f =>
        (f.key names.reverseMap, f)).map Prod.fst, k.Plain := by
      intro k hk
      rw [List.map_map] at hk
      rcases List.mem_map.mp hk with ⟨f, hf, rfl⟩
      rcases mem_openingFills hf with ⟨b, -, rfl⟩
      exact b.key_plain names
    intro k hk k' hk' htext
    exact (hplain k hk).text_inj (hplain k' hk') htext

/-- The order of a group comes back out of its text. -/
theorem splitOrder_text {list : List Fill}
    (hmem : (k, list) ∈ groupedFills names.reverseMap (fills.map BybitFill.fill)) :
    splitOrder k.text list = orderOf k list := by
  have ho := mem_orders_iff.mp (List.mem_map_of_mem hmem)
  have hlist : list = executions names fills k := by
    rw [groupedFills, Dict.mem_group, List.filter_map, List.map_map] at hmem
    simpa [executions, openingFills, Function.comp_def] using hmem.1
  have hne : executions names fills k ≠ [] := ho.1
  have horder : (list.head?.map Fill.orderId).getD [] = k.orderId := by
    rw [hlist]
    rcases List.exists_cons_of_ne_nil hne with ⟨f, rest, hcons⟩
    have hf : f ∈ executions names fills k := hcons ▸ List.mem_cons_self
    have hkey : f.key names.reverseMap = k := of_decide_eq_true (List.mem_filter.mp hf).2
    rw [hcons, ← hkey]
    rfl
  rw [splitOrder, (plain_of_executions hne).splitOn_text, horder]
  rfl

/-- The loop on texts is the loop on keys. -/
theorem matchFills_eq (trades : List Trade) (grace : ℚ) :
    matchFills names.reverseMap trades grace (fills.map BybitFill.fill) =
      fillReports names.reverseMap trades grace (fills.map BybitFill.fill) := by
  rw [matchFills, groupedByText_eq, Dict.mapKeys, List.filterMap_map, fillReports, orders,
    List.filter_map, List.filterMap_map, List.filterMap_filter]
  apply List.filterMap_congr
  rintro ⟨k, list⟩ hmem
  have hplain : k.Plain := plain_of_executions (mem_orders_iff.mp (List.mem_map_of_mem hmem)).1
  simp only [Function.comp, splitOrder_text hmem]
  by_cases hgrace : grace < (orderOf k list).execTime
  · rw [if_pos hgrace, if_neg (by simpa using hgrace)]
  · rw [if_neg hgrace, if_pos (by simpa using hgrace), judgeOrder_eq hplain]

end Orders

/-! ## One order for each trade -/

section Purpose

variable (names : SymbolNames) (trades : LocalTrades) (grace : ℚ) (fills : List BybitFill)

/-- Price and quantity of an execution. -/
def Fill.lot (f : Fill) : ℚ × ℚ :=
  (Numeral.safeDecimal f.execPrice, Numeral.safeDecimal f.execQty)

/-- When the first listed execution of an order took place, in seconds. -/
def startedAt (k : OrderKey) : ℚ :=
  ((executions names fills k).head?.map Fill.execTime).getD 0 / 1000

/-- An order past the grace period. -/
def Settled (k : OrderKey) : Prop :=
  executions names fills k ≠ [] ∧ startedAt names fills k ≤ grace

instance (k : OrderKey) : Decidable (Settled names grace fills k) :=
  inferInstanceAs (Decidable (_ ∧ _))

/-- The trade has symbol and side of the order and was entered within five minutes of it. -/
def EnteredNear (k : OrderKey) (t : Trade) : Prop :=
  tradeClass t = (k.symbol, k.side) ∧ |t.entryTime - startedAt names fills k| < 300

/-- No entry is hidden: a settled order is a missing entry unless it matches a trade that was
entered near it, no trade is matched by two orders, and the price of an order is the mean of
its executions. -/
structure HidesNoEntry : Prop where
  reported : ∀ k, Settled names grace fills k →
    ((orderUnder names fills k, missingEntry (orderUnder names fills k)) ∈
        matchFills names.reverseMap trades.list grace (fills.map BybitFill.fill) ↔
      matchedTrade trades.list (orderUnder names fills k) = none)
  entered : ∀ k, Settled names grace fills k → ∀ t,
    matchedTrade trades.list (orderUnder names fills k) = some t → EnteredNear names fills k t
  single : ∀ k k', Settled names grace fills k → Settled names grace fills k' → ∀ t,
    matchedTrade trades.list (orderUnder names fills k) = some t →
      matchedTrade trades.list (orderUnder names fills k') = some t → k = k'
  price : ∀ k, Settled names grace fills k →
    0 < totalWeight ((executions names fills k).map Fill.lot) ∧
      (orderUnder names fills k).price =
        weightedMean ((executions names fills k).map Fill.lot) ∧
      (∃ f ∈ executions names fills k, f.lot.1 ≤ (orderUnder names fills k).price) ∧
      ∃ f ∈ executions names fills k, (orderUnder names fills k).price ≤ f.lot.1

/-- Every settled order traded something, and of two settled orders near one trade some is
near an earlier trade of the list. -/
structure OneOrderPerTrade : Prop where
  traded : ∀ k, Settled names grace fills k → ∃ f ∈ executions names fills k, 0 < f.lot.2
  apart : ∀ k k', Settled names grace fills k → Settled names grace fills k' → k ≠ k' →
    ∀ before t after, trades.list = before ++ t :: after →
      EnteredNear names fills k t → EnteredNear names fills k' t →
        ∃ t' ∈ before, EnteredNear names fills k t' ∨ EnteredNear names fills k' t'

end Purpose

section Settled

variable {names : SymbolNames} {trades : LocalTrades} {grace : ℚ} {fills : List BybitFill}
  {k k' : OrderKey}

/-- Sum and weighted price of an order are those of its lots. -/
theorem orderUnder_price (htotal : 0 < totalWeight ((executions names fills k).map Fill.lot)) :
    (orderUnder names fills k).price =
      weightedMean ((executions names fills k).map Fill.lot) := by
  rw [totalWeight, List.map_map] at htotal
  rw [weightedMean, totalWeight, weightedSum, List.map_map, List.map_map]
  exact if_pos htotal

/-- The quantities of an order's lots are unsigned. -/
theorem lot_unsigned : ∀ lot ∈ (executions names fills k).map Fill.lot, 0 ≤ lot.2 := by
  intro lot hlot
  rcases List.mem_map.mp hlot with ⟨f, hf, rfl⟩
  rcases mem_openingFills (List.mem_of_mem_filter hf) with ⟨b, -, rfl⟩
  exact b.unsigned

/-- An order has a quantity if one of its executions has. -/
theorem totalWeight_lots_pos_iff :
    0 < totalWeight ((executions names fills k).map Fill.lot) ↔
      ∃ f ∈ executions names fills k, 0 < f.lot.2 := by
  rw [totalWeight_pos_iff lot_unsigned]
  simp

/-- The price of an order that traded something lies between those of its executions. -/
theorem price_between (htotal : 0 < totalWeight ((executions names fills k).map Fill.lot)) :
    (∃ f ∈ executions names fills k, f.lot.1 ≤ (orderUnder names fills k).price) ∧
      ∃ f ∈ executions names fills k, (orderUnder names fills k).price ≤ f.lot.1 := by
  rw [orderUnder_price htotal]
  constructor
  · rcases exists_le_weightedMean lot_unsigned htotal with ⟨lot, hlot, hle⟩
    rcases List.mem_map.mp hlot with ⟨f, hf, rfl⟩
    exact ⟨f, hf, hle⟩
  · rcases exists_weightedMean_le lot_unsigned htotal with ⟨lot, hlot, hle⟩
    rcases List.mem_map.mp hlot with ⟨f, hf, rfl⟩
    exact ⟨f, hf, hle⟩

/-- A settled order is a missing entry exactly if it matches no trade. -/
theorem missingEntry_reported_iff (hk : Settled names grace fills k) (trades : List Trade) :
    (orderUnder names fills k, missingEntry (orderUnder names fills k)) ∈
        matchFills names.reverseMap trades grace (fills.map BybitFill.fill) ↔
      matchedTrade trades (orderUnder names fills k) = none := by
  have hplain : k.Plain := plain_of_executions hk.1
  have horder : orderUnder names fills k ∈
      orders names.reverseMap (fills.map BybitFill.fill) := mem_orders_iff.mpr ⟨hk.1, rfl⟩
  rw [matchFills_eq, matchedTrade_eq_none_iff hplain]
  constructor
  · intro hmem
    exact (mem_missingEntries.mp ⟨hmem, rfl⟩).1.2.2
  · intro hnone
    exact (mem_missingEntries.mpr ⟨⟨horder, hk.2, hnone⟩, rfl⟩).1

/-- Two settled orders match one trade exactly if it is near both and no earlier one is near
either. -/
theorem matched_twice_iff (hk : Settled names grace fills k) (hk' : Settled names grace fills k')
    {t : Trade} :
    matchedTrade trades.list (orderUnder names fills k) = some t ∧
        matchedTrade trades.list (orderUnder names fills k') = some t ↔
      ∃ before after, trades.list = before ++ t :: after ∧
        (EnteredNear names fills k t ∧ EnteredNear names fills k' t) ∧
          ∀ t' ∈ before, ¬ (EnteredNear names fills k t' ∨ EnteredNear names fills k' t') := by
  rw [matchedTrade_eq_some_iff (plain_of_executions hk.1),
    matchedTrade_eq_some_iff (plain_of_executions hk'.1)]
  constructor
  · rintro ⟨⟨hnear, before, after, hlist, hnone⟩, hnear', before', after', hlist', hnone'⟩
    have hbefore : before = before' := by
      have hdistinct := List.Nodup.of_map Trade.id trades.distinct
      have hsplit := hlist.symm.trans hlist'
      rw [hlist] at hdistinct
      rw [List.nodup_append, List.nodup_cons] at hdistinct
      rcases hdistinct with ⟨-, ⟨hafter, -⟩, hfront⟩
      have hnotin : t ∉ before := fun hmem => hfront t hmem t List.mem_cons_self rfl
      exact ((List.append_cons_inj_of_notMem hnotin hafter).mp hsplit).1
    refine ⟨before, after, hlist, ⟨hnear, hnear'⟩, fun t' ht' => ?_⟩
    rintro (h | h)
    · exact hnone t' ht' h
    · exact hnone' t' (hbefore ▸ ht') h
  · rintro ⟨before, after, hlist, ⟨hnear, hnear'⟩, hnone⟩
    exact ⟨⟨hnear, before, after, hlist, fun t' ht' h => hnone t' ht' (Or.inl h)⟩,
      hnear', before, after, hlist, fun t' ht' h => hnone t' ht' (Or.inr h)⟩

/-- No entry is hidden exactly if every settled order traded something and no two are first
near one trade. -/
theorem hidesNoEntry_iff (names : SymbolNames) (trades : LocalTrades) (grace : ℚ)
    (fills : List BybitFill) :
    HidesNoEntry names trades grace fills ↔ OneOrderPerTrade names trades grace fills := by
  constructor
  · intro h
    refine ⟨fun k hk => totalWeight_lots_pos_iff.mp (h.price k hk).1, ?_⟩
    intro k k' hk hk' hne before t after hlist hnear hnear'
    by_contra hnone
    push Not at hnone
    have hboth := (matched_twice_iff hk hk').mpr
      ⟨before, after, hlist, ⟨hnear, hnear'⟩, fun t' ht' hor =>
        hor.elim (hnone t' ht').1 (hnone t' ht').2⟩
    exact hne (h.single k k' hk hk' t hboth.1 hboth.2)
  · intro h
    refine ⟨fun k hk => missingEntry_reported_iff hk trades.list, fun k hk t hmatch => ?_,
      fun k k' hk hk' t hmatch hmatch' => ?_, fun k hk => ?_⟩
    · exact ((matchedTrade_eq_some_iff (plain_of_executions hk.1)).mp hmatch).1
    · by_contra hne
      rcases (matched_twice_iff hk hk').mp ⟨hmatch, hmatch'⟩ with
        ⟨before, after, hlist, ⟨hnear, hnear'⟩, hnone⟩
      rcases h.apart k k' hk hk' hne before t after hlist hnear hnear' with ⟨t', ht', hor⟩
      exact hnone t' ht' hor
    · have htotal := totalWeight_lots_pos_iff.mpr (h.traded k hk)
      exact ⟨htotal, orderUnder_price htotal, price_between htotal⟩

end Settled

/-! ## Two orders a minute apart -/

/-- A Buy order of one BTC at 100. -/
def buyFill (orderId : Text) (execTime : ℤ) : BybitFill where
  fill := ⟨"BTCUSDT".toList, "Buy".toList, orderId, some (.value 1), some (.value 100),
    some (.value 0), execTime⟩
  symbol_plain := show ':' ∉ "BTCUSDT".toList by decide
  side_plain := show ':' ∉ "Buy".toList by decide
  unsigned := show (0 : ℚ) ≤ 1 by decide

/-- A client before `connect`: no symbol has a name. -/
def noNames : SymbolNames where
  reverseMap := fun _ => none
  plain := by rintro _ _ ⟨⟩

/-- The one local entry. -/
def localEntry : LocalTrades where
  list := [⟨1, "BTC/USDT".toList, "LONG".toList, 1, 100, none, none, none, 600, none, none⟩]
  distinct := by decide

/-- Of two orders a minute apart both match the one local entry, and neither is missing. -/
theorem hidesEntry_of_second_order :
    ¬ HidesNoEntry noNames localEntry 3600
      [buyFill "1".toList 600000, buyFill "2".toList 660000] := by
  intro h
  have heq := h.single ⟨"BTC/USDT".toList, "Buy".toList, "1".toList⟩
    ⟨"BTC/USDT".toList, "Buy".toList, "2".toList⟩ (by decide +kernel) (by decide +kernel)
    ⟨1, "BTC/USDT".toList, "LONG".toList, 1, 100, none, none, none, 600, none, none⟩
    (by decide +kernel) (by decide +kernel)
  exact absurd heq (by decide)

end Reconciler
end Karsa
