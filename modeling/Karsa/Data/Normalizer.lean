import Karsa.Foundations.Decimal
import Karsa.Foundations.Text
import Karsa.Foundations.WeightedMeans
import Mathlib.Algebra.Order.Field.Rat
import Mathlib.Data.Set.Finite.Basic
import Mathlib.Order.Bounds.Basic
import Mathlib.Order.Preorder.Finite
import Mathlib.Tactic.Linarith
import Mathlib.Tactic.Ring

/-!
# Data - Unified market state

`Normalizer` turns what the exchanges send into `ExchangeData`, and puts the order books of
several exchanges together: a price weighted by the volume at the top of the books, the skew of
that volume, and the best prices.

An order book lists its best level first.

Main results:

- Theorem `globalState_eq`: the loop in terms of the books that have both sides.
- Theorem `aggregates_iff`: when the best prices are those of all exchanges.
-/

namespace Karsa
namespace Normalizer

/-! ## Data of an exchange -/

/-- Normalized data from a single exchange; a level is a price with its size. -/
structure ExchangeData where
  exchange : Text
  symbol : Text
  bids : List (ℚ × ℚ)
  asks : List (ℚ × ℚ)
  lastPrice : Option ℚ
  timestamp : ℚ
  isStale : Bool
deriving Repr, DecidableEq

/-- A raw trade; its price may be missing. -/
structure RawTrade where
  price : Option (Numeral ℚ)
deriving Repr, DecidableEq

/-- `normalize_trade`; a price that is no number raises. -/
def normalizeTrade (raw : RawTrade) (exchangeId symbol : Text) (now : ℚ) :
    Option ExchangeData :=
  ((raw.price.getD (.value 0)).decimal).map fun price =>
    { exchange := exchangeId
      symbol := symbol
      bids := []
      asks := []
      lastPrice := some price
      timestamp := now
      isStale := false }

/-- Division of decimals, which raises on a zero divisor. -/
def divide (x y : ℚ) : Option ℚ :=
  if y = 0 then none else some (x / y)

theorem divide_eq_none_iff {x y : ℚ} : divide x y = none ↔ y = 0 := by
  unfold divide
  split_ifs with hy
  · exact iff_of_true rfl hy
  · exact iff_of_false (by simp) hy

theorem divide_of_ne {x y : ℚ} (hy : y ≠ 0) : divide x y = some (x / y) :=
  if_neg hy

/-! ## The global state -/

/-- Unified market state across all exchanges that are read. -/
structure GlobalState where
  symbol : Text
  exchanges : List ExchangeData
  globalVwap : Option ℚ
  aggregateSkew : Option ℚ
  bestBid : Option ℚ
  bestAsk : Option ℚ
  totalVolume : Option ℚ
  updatedAt : ℚ
deriving Repr, DecidableEq

/-- Locals of the loop over the exchanges. -/
structure Totals where
  totalBidVol : ℚ
  totalAskVol : ℚ
  weightedSum : ℚ
  allBids : List ℚ
  allAsks : List ℚ
deriving Repr, DecidableEq

/-- Body of the loop; an exchange counts if its book has both sides. -/
def Totals.add (s : Totals) (ex : ExchangeData) : Totals :=
  match ex.bids, ex.asks with
  | bid :: _, ask :: _ =>
      let mid := (bid.1 + ask.1) / 2
      let vol := bid.2 + ask.2
      { totalBidVol := s.totalBidVol + bid.2
        totalAskVol := s.totalAskVol + ask.2
        weightedSum := s.weightedSum + mid * vol
        allBids := s.allBids ++ [bid.1]
        allAsks := s.allAsks ++ [ask.1] }
  | _, _ => s

/-- The exchanges that are not stale. -/
def activeExchanges (exchanges : List ExchangeData) : List ExchangeData :=
  exchanges.filter fun e => !e.isStale

/-- A quotient that is only computed for a positive divisor. -/
def quotientIfPositive (x y : ℚ) : Option (Option ℚ) :=
  if 0 < y then (divide x y).map some else some none

/-- `build_global_state`; a division by zero would raise. -/
def buildGlobalState (now : ℚ) (symbol : Text) (exchanges : List ExchangeData) :
    Option GlobalState :=
  let active := activeExchanges exchanges
  if active = [] then
    some ⟨symbol, active, none, none, none, none, none, now⟩
  else
    let s := active.foldl Totals.add ⟨0, 0, 0, [], []⟩
    let totalVol := s.totalBidVol + s.totalAskVol
    (quotientIfPositive s.weightedSum totalVol).bind fun globalVwap =>
      (quotientIfPositive (s.totalBidVol - s.totalAskVol)
          (s.totalBidVol + s.totalAskVol)).map fun aggregateSkew =>
        { symbol := symbol
          exchanges := active
          globalVwap := globalVwap
          aggregateSkew := aggregateSkew
          bestBid := s.allBids.max?
          bestAsk := s.allAsks.min?
          totalVolume := if 0 < totalVol then some totalVol else none
          updatedAt := now }

/-! ## The loop in terms of the top levels -/

/-- Both top levels of a book. -/
structure Top where
  bid : ℚ × ℚ
  ask : ℚ × ℚ
deriving Repr, DecidableEq

/-- The top levels, where the book has both. -/
def top (ex : ExchangeData) : Option Top :=
  match ex.bids, ex.asks with
  | bid :: _, ask :: _ => some ⟨bid, ask⟩
  | _, _ => none

/-- The price between the top levels. -/
def Top.mid (t : Top) : ℚ :=
  (t.bid.1 + t.ask.1) / 2

/-- The size of the top levels. -/
def Top.vol (t : Top) : ℚ :=
  t.bid.2 + t.ask.2

/-- The top levels of the active exchanges. -/
def tops (exchanges : List ExchangeData) : List Top :=
  (activeExchanges exchanges).filterMap top

/-- Volume on the side of the bids. -/
def bidVolume (ts : List Top) : ℚ :=
  (ts.map fun t => t.bid.2).sum

/-- Volume on the side of the asks. -/
def askVolume (ts : List Top) : ℚ :=
  (ts.map fun t => t.ask.2).sum

/-- The prices between the top levels with their sizes. -/
def mids (ts : List Top) : List (ℚ × ℚ) :=
  ts.map fun t => (t.mid, t.vol)

/-- The global state in terms of the top levels. -/
def stateOf (now : ℚ) (symbol : Text) (active : List ExchangeData) (ts : List Top) :
    GlobalState where
  symbol := symbol
  exchanges := active
  globalVwap := if 0 < totalWeight (mids ts) then some (weightedMean (mids ts)) else none
  aggregateSkew :=
    if 0 < totalWeight (mids ts) then
      some ((bidVolume ts - askVolume ts) / (bidVolume ts + askVolume ts))
    else none
  bestBid := (ts.map fun t => t.bid.1).max?
  bestAsk := (ts.map fun t => t.ask.1).min?
  totalVolume := if 0 < totalWeight (mids ts) then some (totalWeight (mids ts)) else none
  updatedAt := now

/-- The size at the top of the books is that of both sides. -/
theorem totalWeight_mids (ts : List Top) :
    totalWeight (mids ts) = bidVolume ts + askVolume ts := by
  induction ts with
  | nil => simp [mids, bidVolume, askVolume]
  | cons t rest ih =>
      have hsplit : totalWeight (mids (t :: rest)) = t.vol + totalWeight (mids rest) :=
        totalWeight_cons _ _
      rw [hsplit, ih, bidVolume, bidVolume, askVolume, askVolume, List.map_cons, List.sum_cons,
        List.map_cons, List.sum_cons, Top.vol]
      ring

/-- The loop adds up the top levels. -/
theorem foldl_add (active : List ExchangeData) (s : Totals) :
    active.foldl Totals.add s =
      { totalBidVol := s.totalBidVol + bidVolume (active.filterMap top)
        totalAskVol := s.totalAskVol + askVolume (active.filterMap top)
        weightedSum := s.weightedSum + weightedSum (mids (active.filterMap top))
        allBids := s.allBids ++ (active.filterMap top).map fun t => t.bid.1
        allAsks := s.allAsks ++ (active.filterMap top).map fun t => t.ask.1 } := by
  induction active generalizing s with
  | nil => simp [bidVolume, askVolume, mids]
  | cons ex rest ih =>
      rw [List.foldl_cons, ih]
      cases htop : top ex with
      | none =>
          have hsame : s.add ex = s := by
            unfold top at htop
            unfold Totals.add
            split at htop
            · cases htop
            · rfl
          rw [hsame, List.filterMap_cons_none htop]
      | some t =>
          have hadd : s.add ex =
              ⟨s.totalBidVol + t.bid.2, s.totalAskVol + t.ask.2, s.weightedSum + t.mid * t.vol,
                s.allBids ++ [t.bid.1], s.allAsks ++ [t.ask.1]⟩ := by
            unfold top at htop
            unfold Totals.add
            split at htop
            · obtain rfl := Option.some.inj htop
              rfl
            · cases htop
          rw [hadd, List.filterMap_cons_some htop]
          simp [bidVolume, askVolume, mids, add_assoc]

/-- The loop in terms of the books that have both sides. -/
theorem globalState_eq (now : ℚ) (symbol : Text) (exchanges : List ExchangeData) :
    buildGlobalState now symbol exchanges =
      some (stateOf now symbol (activeExchanges exchanges) (tops exchanges)) := by
  have hquotient : ∀ x y : ℚ,
      quotientIfPositive x y = some (if 0 < y then some (x / y) else none) := by
    intro x y
    unfold quotientIfPositive
    split_ifs with hy
    · rw [divide_of_ne hy.ne']
      rfl
    · rfl
  unfold buildGlobalState
  dsimp only
  by_cases hactive : activeExchanges exchanges = []
  · rw [if_pos hactive, tops, hactive]
    rfl
  · rw [if_neg hactive, foldl_add, hquotient, hquotient]
    simp only [zero_add, List.nil_append, Option.bind_some, Option.map_some, stateOf,
      totalWeight_mids, weightedMean, tops]

/-! ## What the state says -/

/-- A snapshot of an exchange: prices are positive, and no size is negative. -/
structure Snapshot where
  data : ExchangeData
  priced : ∀ level ∈ data.bids ++ data.asks, 0 < level.1 ∧ 0 ≤ level.2

/-- The data of some snapshots. -/
def dataOf (snaps : List Snapshot) : List ExchangeData :=
  snaps.map Snapshot.data

/-- The best bids of the active exchanges. -/
def exchangeBids (exchanges : List ExchangeData) : Set ℚ :=
  {x | ∃ e ∈ activeExchanges exchanges, ∃ bid ∈ e.bids.head?, bid.1 = x}

/-- The best asks of the active exchanges. -/
def exchangeAsks (exchanges : List ExchangeData) : Set ℚ :=
  {x | ∃ e ∈ activeExchanges exchanges, ∃ ask ∈ e.asks.head?, ask.1 = x}

section Purpose

variable (now : ℚ) (symbol : Text) (snaps : List Snapshot)

/-- A state is built without a division by zero; stale exchanges and the order of the exchanges
do not matter; the price lies between those of two exchanges and the skew between minus one and
one; and the best prices are those of all active exchanges. -/
structure Unified (state : GlobalState) : Prop where
  built : buildGlobalState now symbol (dataOf snaps) = some state
  stale_ignored : ∀ exchanges, activeExchanges exchanges = activeExchanges (dataOf snaps) →
    buildGlobalState now symbol exchanges = some state
  reordered : ∀ snaps', snaps'.Perm snaps → ∃ active',
    buildGlobalState now symbol (dataOf snaps') = some { state with exchanges := active' } ∧
      active'.Perm state.exchanges
  vwap : ∀ v, state.globalVwap = some v →
    (∃ t ∈ tops (dataOf snaps), t.mid ≤ v) ∧ ∃ t ∈ tops (dataOf snaps), v ≤ t.mid
  skew : ∀ k, state.aggregateSkew = some k → -1 ≤ k ∧ k ≤ 1
  bid : ∀ b, state.bestBid = some b ↔ IsGreatest (exchangeBids (dataOf snaps)) b
  ask : ∀ a, state.bestAsk = some a ↔ IsLeast (exchangeAsks (dataOf snaps)) a

/-- No active exchange has a better price than every book that has both sides. -/
structure TwoSidedBest : Prop where
  bids : ∀ x ∈ exchangeBids (dataOf snaps), ∃ t ∈ tops (dataOf snaps), x ≤ t.bid.1
  asks : ∀ x ∈ exchangeAsks (dataOf snaps), ∃ t ∈ tops (dataOf snaps), t.ask.1 ≤ x

end Purpose

/-- A part of a finite set has its greatest elements exactly if it dominates the set. -/
theorem forall_isGreatest_iff {α : Type*} [LinearOrder α] {S T : Set α} (hsub : T ⊆ S)
    (hfinite : S.Finite) :
    (∀ b, IsGreatest T b ↔ IsGreatest S b) ↔ ∀ x ∈ S, ∃ y ∈ T, x ≤ y := by
  constructor
  · intro h x hx
    rcases hfinite.exists_maximal ⟨x, hx⟩ with ⟨b, hb⟩
    have hgreatest : IsGreatest S b :=
      ⟨hb.prop, fun y hy => (le_total y b).elim id fun hle => hb.le_of_ge hy hle⟩
    exact ⟨b, ((h b).mpr hgreatest).1, hgreatest.2 hx⟩
  · intro h b
    constructor
    · rintro ⟨hmem, hle⟩
      refine ⟨hsub hmem, fun x hx => ?_⟩
      rcases h x hx with ⟨y, hy, hxy⟩
      exact hxy.trans (hle hy)
    · rintro ⟨hmem, hle⟩
      rcases h b hmem with ⟨y, hy, hby⟩
      have heq : y = b := le_antisymm (hle (hsub hy)) hby
      exact ⟨heq ▸ hy, fun x hx => hle (hsub hx)⟩

/-- The same for the least elements. -/
theorem forall_isLeast_iff {α : Type*} [LinearOrder α] {S T : Set α} (hsub : T ⊆ S)
    (hfinite : S.Finite) :
    (∀ b, IsLeast T b ↔ IsLeast S b) ↔ ∀ x ∈ S, ∃ y ∈ T, y ≤ x :=
  forall_isGreatest_iff (α := αᵒᵈ) hsub hfinite

section Lists

variable {ts ts' : List Top} {exchanges : List ExchangeData}

/-- The highest of the top bids. -/
theorem bids_max?_iff {b : ℚ} :
    (ts.map fun t => t.bid.1).max? = some b ↔ IsGreatest {x | ∃ t ∈ ts, t.bid.1 = x} b := by
  rw [List.max?_eq_some_iff, List.mem_map]
  simp [IsGreatest, upperBounds]

/-- The lowest of the top asks. -/
theorem asks_min?_iff {a : ℚ} :
    (ts.map fun t => t.ask.1).min? = some a ↔ IsLeast {x | ∃ t ∈ ts, t.ask.1 = x} a := by
  rw [List.min?_eq_some_iff, List.mem_map]
  simp [IsLeast, lowerBounds]

/-- The order of the books does not matter. -/
theorem stateOf_perm (now : ℚ) (symbol : Text) (active : List ExchangeData)
    (h : ts'.Perm ts) : stateOf now symbol active ts' = stateOf now symbol active ts := by
  have hweight : totalWeight (mids ts') = totalWeight (mids ts) :=
    ((h.map _).map _).sum_eq
  have hsum : weightedSum (mids ts') = weightedSum (mids ts) :=
    ((h.map _).map _).sum_eq
  have hbids : bidVolume ts' = bidVolume ts := (h.map _).sum_eq
  have hasks : askVolume ts' = askVolume ts := (h.map _).sum_eq
  have hbid : (ts'.map fun t => t.bid.1).max? = (ts.map fun t => t.bid.1).max? := by
    apply Option.ext
    intro b
    rw [bids_max?_iff, bids_max?_iff]
    simp only [h.mem_iff]
  have hask : (ts'.map fun t => t.ask.1).min? = (ts.map fun t => t.ask.1).min? := by
    apply Option.ext
    intro a
    rw [asks_min?_iff, asks_min?_iff]
    simp only [h.mem_iff]
  simp only [stateOf, weightedMean, hweight, hsum, hbids, hasks, hbid, hask]

/-- The top bid of a book with both sides is that of its exchange. -/
theorem bid_mem_exchangeBids {t : Top} (ht : t ∈ tops exchanges) :
    t.bid.1 ∈ exchangeBids exchanges := by
  rcases List.mem_filterMap.mp ht with ⟨e, he, htop⟩
  unfold top at htop
  split at htop
  · rename_i bid bids ask asks hbids hasks
    obtain rfl := Option.some.inj htop
    exact ⟨e, he, bid, by rw [hbids]; rfl, rfl⟩
  · cases htop

/-- The top ask of a book with both sides is that of its exchange. -/
theorem ask_mem_exchangeAsks {t : Top} (ht : t ∈ tops exchanges) :
    t.ask.1 ∈ exchangeAsks exchanges := by
  rcases List.mem_filterMap.mp ht with ⟨e, he, htop⟩
  unfold top at htop
  split at htop
  · rename_i bid bids ask asks hbids hasks
    obtain rfl := Option.some.inj htop
    exact ⟨e, he, ask, by rw [hasks]; rfl, rfl⟩
  · cases htop

/-- There are finitely many exchanges. -/
theorem finite_exchangeBids : (exchangeBids exchanges).Finite := by
  refine (List.finite_toSet ((activeExchanges exchanges).filterMap
    fun e => e.bids.head?.map Prod.fst)).subset ?_
  rintro x ⟨e, he, bid, hbid, rfl⟩
  exact List.mem_filterMap.mpr ⟨e, he, by rw [Option.mem_def.mp hbid]; rfl⟩

theorem finite_exchangeAsks : (exchangeAsks exchanges).Finite := by
  refine (List.finite_toSet ((activeExchanges exchanges).filterMap
    fun e => e.asks.head?.map Prod.fst)).subset ?_
  rintro x ⟨e, he, ask, hask, rfl⟩
  exact List.mem_filterMap.mpr ⟨e, he, by rw [Option.mem_def.mp hask]; rfl⟩

/-- The top levels of snapshots have sizes that are not negative. -/
theorem sizes_nonneg {snaps : List Snapshot} {t : Top} (ht : t ∈ tops (dataOf snaps)) :
    0 ≤ t.bid.2 ∧ 0 ≤ t.ask.2 := by
  rcases List.mem_filterMap.mp ht with ⟨e, he, htop⟩
  rcases List.mem_map.mp (List.mem_of_mem_filter he) with ⟨snap, -, rfl⟩
  unfold top at htop
  split at htop
  · rename_i bid bids ask asks hbids hasks
    obtain rfl := Option.some.inj htop
    have hbid : bid ∈ snap.data.bids ++ snap.data.asks := by simp [hbids]
    have hask : ask ∈ snap.data.bids ++ snap.data.asks := by simp [hasks]
    exact ⟨(snap.priced bid hbid).2, (snap.priced ask hask).2⟩
  · cases htop

end Lists

section Unify

variable {now : ℚ} {symbol : Text} {snaps : List Snapshot}

/-- The sizes at the prices between the top levels are not negative. -/
theorem mids_weight_nonneg :
    ∀ item ∈ mids (tops (dataOf snaps)), (0 : ℚ) ≤ item.2 := by
  intro item hitem
  rcases List.mem_map.mp hitem with ⟨t, ht, rfl⟩
  have hsizes := sizes_nonneg ht
  exact add_nonneg hsizes.1 hsizes.2

/-- The price lies between those of two exchanges. -/
theorem vwap_between (hweight : 0 < totalWeight (mids (tops (dataOf snaps)))) :
    (∃ t ∈ tops (dataOf snaps), t.mid ≤ weightedMean (mids (tops (dataOf snaps)))) ∧
      ∃ t ∈ tops (dataOf snaps), weightedMean (mids (tops (dataOf snaps))) ≤ t.mid := by
  constructor
  · rcases exists_le_weightedMean mids_weight_nonneg hweight with ⟨item, hitem, hle⟩
    rcases List.mem_map.mp hitem with ⟨t, ht, rfl⟩
    exact ⟨t, ht, hle⟩
  · rcases exists_weightedMean_le mids_weight_nonneg hweight with ⟨item, hitem, hle⟩
    rcases List.mem_map.mp hitem with ⟨t, ht, rfl⟩
    exact ⟨t, ht, hle⟩

/-- The volumes of both sides are not negative. -/
theorem volumes_nonneg :
    0 ≤ bidVolume (tops (dataOf snaps)) ∧ 0 ≤ askVolume (tops (dataOf snaps)) := by
  constructor
  · apply List.sum_nonneg
    intro w hw
    rcases List.mem_map.mp hw with ⟨t, ht, rfl⟩
    exact (sizes_nonneg ht).1
  · apply List.sum_nonneg
    intro w hw
    rcases List.mem_map.mp hw with ⟨t, ht, rfl⟩
    exact (sizes_nonneg ht).2

/-- A skew of volumes lies between minus one and one. -/
theorem skew_between {x y : ℚ} (hx : 0 ≤ x) (hy : 0 ≤ y) (hpos : 0 < x + y) :
    -1 ≤ (x - y) / (x + y) ∧ (x - y) / (x + y) ≤ 1 := by
  rw [le_div_iff₀ hpos, div_le_iff₀ hpos]
  constructor <;> linarith

/-- The order of the exchanges does not matter. -/
theorem build_perm {snaps' : List Snapshot} (h : snaps'.Perm snaps) :
    buildGlobalState now symbol (dataOf snaps') =
      some { stateOf now symbol (activeExchanges (dataOf snaps)) (tops (dataOf snaps)) with
        exchanges := activeExchanges (dataOf snaps') } := by
  have htops : (tops (dataOf snaps')).Perm (tops (dataOf snaps)) :=
    ((h.map _).filter _).filterMap _
  rw [globalState_eq, stateOf_perm _ _ _ htops]
  rfl

/-- The best bid is that of all exchanges exactly if the books with both sides dominate. -/
theorem bestBid_iff (exchanges : List ExchangeData) :
    (∀ b, ((tops exchanges).map fun t => t.bid.1).max? = some b ↔
        IsGreatest (exchangeBids exchanges) b) ↔
      ∀ x ∈ exchangeBids exchanges, ∃ t ∈ tops exchanges, x ≤ t.bid.1 := by
  have hsub : {x | ∃ t ∈ tops exchanges, t.bid.1 = x} ⊆ exchangeBids exchanges := by
    rintro x ⟨t, ht, rfl⟩
    exact bid_mem_exchangeBids ht
  simp only [bids_max?_iff]
  rw [forall_isGreatest_iff hsub finite_exchangeBids]
  simp

/-- The best ask is that of all exchanges exactly if the books with both sides dominate. -/
theorem bestAsk_iff (exchanges : List ExchangeData) :
    (∀ a, ((tops exchanges).map fun t => t.ask.1).min? = some a ↔
        IsLeast (exchangeAsks exchanges) a) ↔
      ∀ x ∈ exchangeAsks exchanges, ∃ t ∈ tops exchanges, t.ask.1 ≤ x := by
  have hsub : {x | ∃ t ∈ tops exchanges, t.ask.1 = x} ⊆ exchangeAsks exchanges := by
    rintro x ⟨t, ht, rfl⟩
    exact ask_mem_exchangeAsks ht
  simp only [asks_min?_iff]
  rw [forall_isLeast_iff hsub finite_exchangeAsks]
  simp

/-- The best prices are those of all exchanges exactly if no book with one side is better than
the others. -/
theorem unified_iff (now : ℚ) (symbol : Text) (snaps : List Snapshot) :
    (∃ state, Unified now symbol snaps state) ↔ TwoSidedBest snaps := by
  constructor
  · rintro ⟨state, h⟩
    have hstate := h.built
    rw [globalState_eq] at hstate
    obtain rfl := Option.some.inj hstate
    exact ⟨(bestBid_iff _).mp h.bid, (bestAsk_iff _).mp h.ask⟩
  · intro h
    refine ⟨stateOf now symbol (activeExchanges (dataOf snaps)) (tops (dataOf snaps)),
      globalState_eq _ _ _, ?_, ?_, ?_, ?_, (bestBid_iff _).mpr h.bids,
      (bestAsk_iff _).mpr h.asks⟩
    · intro exchanges hactive
      rw [globalState_eq, tops, hactive, ← tops]
    · intro snaps' hperm
      exact ⟨_, build_perm hperm, (hperm.map _).filter _⟩
    · intro v hv
      dsimp only [stateOf] at hv
      split_ifs at hv with hweight
      rw [← Option.some.inj hv]
      exact vwap_between hweight
    · intro k hk
      dsimp only [stateOf] at hk
      split_ifs at hk with hweight
      rw [← Option.some.inj hk]
      rw [totalWeight_mids] at hweight
      exact skew_between volumes_nonneg.1 volumes_nonneg.2 hweight

end Unify

/-- A book with a bid of 100 and an ask of 101. -/
def bothSides : Snapshot where
  data := ⟨"bybit".toList, "BTC/USDT".toList, [(100, 1)], [(101, 1)], none, 0, false⟩
  priced := by decide

/-- A book with a bid of 102 and no ask. -/
def bidsOnly : Snapshot where
  data := ⟨"okx".toList, "BTC/USDT".toList, [(102, 1)], [], none, 0, false⟩
  priced := by decide

/-- The best bid passes over a higher one whose book has no asks. -/
theorem unified_passes_over_bid :
    ¬ ∃ state, Unified 0 "BTC/USDT".toList [bothSides, bidsOnly] state := by
  rintro ⟨state, h⟩
  have hbest : state.bestBid = some 100 := by
    have hbuilt : buildGlobalState 0 "BTC/USDT".toList (dataOf [bothSides, bidsOnly]) =
        some ⟨"BTC/USDT".toList, dataOf [bothSides, bidsOnly], some (201 / 2), some 0, some 100,
          some 101, some 2, 0⟩ := by decide +kernel
    rw [← Option.some.inj (hbuilt.symm.trans h.built)]
  have hgreatest := (h.bid 100).mp hbest
  have hmem : (102 : ℚ) ∈ exchangeBids (dataOf [bothSides, bidsOnly]) :=
    ⟨bidsOnly.data, by decide, (102, 1), rfl, rfl⟩
  exact absurd (hgreatest.2 hmem) (by decide +kernel)

end Normalizer
end Karsa
