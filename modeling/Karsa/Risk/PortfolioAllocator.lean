import Karsa.Consumer.SignalBuilder
import Karsa.Foundations.PythonNumbers
import Karsa.Foundations.Selection
import Mathlib.Algebra.BigOperators.Ring.List
import Mathlib.Algebra.Order.BigOperators.Group.List

/-!
# Risk - Allocation across signals

`PortfolioAllocator.allocate` ranks signals by their expected value, takes as many of the
positive ones as there are free slots, and splits its risk budget among them by their share of
the expected values.  Amounts are rounded to three digits, half to even, and never exceed the
amount a signal came with.  A signal without a usable stop keeps its own amount.

Expected values are floats in the source; their sum and their shares are exact here.

Main results:

- Theorem `chosen_best`: the signals that get a slot are the best.
- Theorem `getsShare_allocation`: what one signal gets.
- Theorem `allocatedAmount_risk_le`: what one signal risks.
- Theorem `allocate_within_budget`: the allocations, and what they risk together.
-/

namespace Karsa
namespace Risk

open Decision (TradeSignal)

/-- `PortfolioAllocator`. -/
structure PortfolioAllocator where
  maxPositions : ℤ
  maxRiskPerTrade : ℚ
deriving Repr, DecidableEq

/-- One allocation of the answer. -/
structure Allocation where
  signal : TradeSignal
  ev : ℚ
  evWeight : PyFloat
  allocatedRiskUsd : PyFloat
  amount : ℚ
  entryPrice : ℚ
  slPrice : ℚ
deriving Repr, DecidableEq

/-- The signals of positive expected value, the best first. -/
def positiveEv (signals : List TradeSignal) : List TradeSignal :=
  (ranked TradeSignal.expectedValue signals).filter fun s => decide (0 < s.expectedValue)

/-- What an allocation risks at its stop. -/
def Allocation.risk (a : Allocation) : ℚ :=
  a.amount * |a.entryPrice - a.slPrice|

/-- The stop can be used: `entry > 0 and sl > 0 and entry != sl`. -/
def UsableStop (s : TradeSignal) : Prop :=
  0 < s.entryPrice ∧ 0 < s.slPrice ∧ s.entryPrice ≠ s.slPrice

instance : DecidablePred UsableStop :=
  fun _ => inferInstanceAs (Decidable (_ ∧ _ ∧ _))

namespace PortfolioAllocator

variable (p : PortfolioAllocator)

/-- `slots_available`. -/
def slots (openPositions : ℤ) : ℕ :=
  (max 0 (p.maxPositions - openPositions)).toNat

/-- `top_n`. -/
def chosen (signals : List TradeSignal) (openPositions : ℤ) : List TradeSignal :=
  (positiveEv signals).take (p.slots openPositions)

/-- The amount of a signal that gets a share of the budget. -/
def allocatedAmount (allocatedRisk : ℚ) (s : TradeSignal) : ℚ :=
  if UsableStop s then
    let amount := quantize (1 / 1000) (allocatedRisk / |s.entryPrice - s.slPrice|)
    if 0 < s.amount then min amount s.amount else amount
  else s.amount

/-- The allocation of a signal. -/
def allocation (wallet totalEv : ℚ) (s : TradeSignal) : Allocation :=
  let evWeight := s.expectedValue / totalEv
  let allocatedRisk := wallet * p.maxRiskPerTrade * evWeight
  { signal := s
    ev := s.expectedValue
    evWeight := PyFloat.roundTo 4 (PyFloat.ofRat evWeight)
    allocatedRiskUsd := PyFloat.roundTo 2 (PyFloat.ofRat allocatedRisk)
    amount := allocatedAmount allocatedRisk s
    entryPrice := s.entryPrice
    slPrice := s.slPrice }

/-- `total_ev`. -/
def totalEv (signals : List TradeSignal) : ℚ :=
  (signals.map TradeSignal.expectedValue).sum

/-- `allocate`. -/
def allocate (signals : List TradeSignal) (wallet : ℚ) (openPositions : ℤ) : List Allocation :=
  if signals = [] ∨ wallet ≤ 0 then []
  else if positiveEv signals = [] then []
  else if p.slots openPositions = 0 then []
  else
    let topN := p.chosen signals openPositions
    if totalEv topN ≤ 0 then []
    else (topN.map (p.allocation wallet (totalEv topN))).filter fun a => decide (0 < a.amount)

/-! ## The signals chosen -/

variable {p} {signals : List TradeSignal} {openPositions : ℤ}

/-- Expected values do not rise along the ranking. -/
theorem pairwise_positiveEv (signals : List TradeSignal) :
    (positiveEv signals).Pairwise fun s t => t.expectedValue ≤ s.expectedValue :=
  (pairwise_ranked _ _).filter _

/-- A signal is in the ranking exactly where it is in the list, with positive value. -/
theorem mem_positiveEv {s : TradeSignal} :
    s ∈ positiveEv signals ↔ s ∈ signals ∧ 0 < s.expectedValue := by
  rw [positiveEv, List.mem_filter, (ranked_perm _ _).mem_iff, decide_eq_true_eq]

/-- The ranking has the signals of positive value, as often as the list. -/
theorem positiveEv_perm (signals : List TradeSignal) :
    (positiveEv signals).Perm (signals.filter fun s => decide (0 < s.expectedValue)) :=
  (ranked_perm _ _).filter _

/-- The chosen signals are the best: those left out are no better, and none is left out while
a slot is free. -/
theorem chosen_best (p : PortfolioAllocator) (signals : List TradeSignal) (openPositions : ℤ) :
    ∃ rest, (p.chosen signals openPositions ++ rest).Perm
        (signals.filter fun s => decide (0 < s.expectedValue)) ∧
      (∀ s ∈ p.chosen signals openPositions, ∀ t ∈ rest, t.expectedValue ≤ s.expectedValue) ∧
      (rest ≠ [] → (p.chosen signals openPositions).length = p.slots openPositions) := by
  refine ⟨(positiveEv signals).drop (p.slots openPositions), ?_, ?_, ?_⟩
  · rw [chosen, List.take_append_drop]
    exact positiveEv_perm signals
  · intro s hs t ht
    exact key_le_of_mem_take _ (pairwise_positiveEv signals) hs ht
  · intro hrest
    rw [Ne, List.drop_eq_nil_iff, not_le] at hrest
    rw [chosen, List.length_take, min_eq_left hrest.le]

/-- All of them have positive value. -/
theorem pos_of_mem_chosen {s : TradeSignal} (hs : s ∈ p.chosen signals openPositions) :
    0 < s.expectedValue :=
  (mem_positiveEv.1 (List.mem_of_mem_take hs)).2

/-! ## What one of them gets -/

/-- The amount that risks a share of the budget at the stop. -/
def fairAmount (share : ℚ) (s : TradeSignal) : ℚ :=
  share / |s.entryPrice - s.slPrice|

/-- What a signal gets for a share of the budget: its own amount where the stop cannot be used,
and otherwise the amount that risks the share, but for half a rounding step, or its own amount
where that is less. -/
def GetsShare (share : ℚ) (s : TradeSignal) (amount : ℚ) : Prop :=
  if UsableStop s then
    |amount - fairAmount share s| ≤ 5 / 10000 ∨
      (0 < s.amount ∧ amount = s.amount ∧ s.amount ≤ fairAmount share s + 5 / 10000)
  else amount = s.amount

/-- Every signal gets its share. -/
theorem getsShare_allocation (p : PortfolioAllocator) (wallet totalEv : ℚ) (s : TradeSignal) :
    GetsShare (wallet * p.maxRiskPerTrade * (s.expectedValue / totalEv)) s
      (p.allocation wallet totalEv s).amount := by
  change GetsShare (wallet * p.maxRiskPerTrade * (s.expectedValue / totalEv)) s
    (allocatedAmount (wallet * p.maxRiskPerTrade * (s.expectedValue / totalEv)) s)
  generalize wallet * p.maxRiskPerTrade * (s.expectedValue / totalEv) = share
  have hround : |quantize (1 / 1000) (fairAmount share s) - fairAmount share s| ≤ 5 / 10000 := by
    have hhalf := abs_quantize_sub_le (show (0 : ℚ) < 1 / 1000 by norm_num) (fairAmount share s)
    linarith
  unfold GetsShare allocatedAmount
  rw [← fairAmount]
  by_cases hstop : UsableStop s
  · rw [if_pos hstop, if_pos hstop]
    dsimp only
    split_ifs with hamount
    · rcases min_choice (quantize (1 / 1000) (fairAmount share s)) s.amount with hmin | hmin
      · rw [hmin]
        exact Or.inl hround
      · have hle : s.amount ≤ quantize (1 / 1000) (fairAmount share s) :=
          min_eq_right_iff.mp hmin
        rw [hmin]
        exact Or.inr ⟨hamount, rfl, by linarith [(abs_le.mp hround).2]⟩
    · exact Or.inl hround
  · rw [if_neg hstop, if_neg hstop]

/-! ## What they risk -/

/-- A signal with a usable stop risks its share, and what rounding adds. -/
theorem allocatedAmount_risk_le {s : TradeSignal} (hstop : UsableStop s) (allocatedRisk : ℚ) :
    allocatedAmount allocatedRisk s * |s.entryPrice - s.slPrice| ≤
      allocatedRisk + 5 / 10000 * |s.entryPrice - s.slPrice| := by
  have hdistance : 0 < |s.entryPrice - s.slPrice| := abs_pos.2 (sub_ne_zero.2 hstop.2.2)
  have hround := abs_le.1 (abs_quantize_sub_le (show (0 : ℚ) < 1 / 1000 by norm_num)
    (allocatedRisk / |s.entryPrice - s.slPrice|))
  have hamount : allocatedAmount allocatedRisk s ≤
      allocatedRisk / |s.entryPrice - s.slPrice| + 5 / 10000 := by
    have hquantized : quantize (1 / 1000) (allocatedRisk / |s.entryPrice - s.slPrice|) ≤
        allocatedRisk / |s.entryPrice - s.slPrice| + 5 / 10000 := by
      linarith [hround.2]
    unfold allocatedAmount
    rw [if_pos hstop]
    dsimp only
    split_ifs
    · exact (min_le_left _ _).trans hquantized
    · exact hquantized
  calc
    allocatedAmount allocatedRisk s * |s.entryPrice - s.slPrice|
        ≤ (allocatedRisk / |s.entryPrice - s.slPrice| + 5 / 10000) *
            |s.entryPrice - s.slPrice| :=
      mul_le_mul_of_nonneg_right hamount hdistance.le
    _ = allocatedRisk + 5 / 10000 * |s.entryPrice - s.slPrice| := by
      rw [add_mul, div_mul_cancel₀ _ hdistance.ne']

/-- No signal gets more than its own amount, where it has one. -/
theorem allocatedAmount_le_amount {s : TradeSignal} (hamount : 0 < s.amount)
    (allocatedRisk : ℚ) : allocatedAmount allocatedRisk s ≤ s.amount := by
  unfold allocatedAmount
  dsimp only
  split_ifs
  · exact min_le_right _ _
  · exact le_rfl

/-! ## What they risk together -/

/-- The shares of some of the signals add up to one at most. -/
theorem sum_shares_le_one {topN part : List TradeSignal} (hpart : part.Sublist topN)
    (hpos : ∀ s ∈ topN, 0 < s.expectedValue) :
    (part.map fun s => s.expectedValue / totalEv topN).sum ≤ 1 := by
  have hnonneg : ∀ q ∈ topN.map TradeSignal.expectedValue, 0 ≤ q :=
    List.forall_mem_map.2 fun s hs => (hpos s hs).le
  have hsum : (part.map TradeSignal.expectedValue).sum ≤ totalEv topN :=
    (hpart.map TradeSignal.expectedValue).sum_le_sum hnonneg
  simp only [div_eq_mul_inv]
  rw [List.sum_map_mul_right, ← div_eq_mul_inv]
  exact div_le_one_of_le₀ hsum (List.sum_nonneg hnonneg)

/-- Signals with usable stops risk together no more than the budget, and what rounding adds. -/
theorem sum_risk_le {topN part : List TradeSignal} (hpart : part.Sublist topN)
    (hpos : ∀ s ∈ topN, 0 < s.expectedValue) (hstop : ∀ s ∈ part, UsableStop s) (wallet : ℚ) :
    (part.map fun s => (p.allocation wallet (totalEv topN) s).risk).sum ≤
      max 0 (wallet * p.maxRiskPerTrade) +
        (part.map fun s => 5 / 10000 * |s.entryPrice - s.slPrice|).sum := by
  have hbudget : wallet * p.maxRiskPerTrade ≤ max 0 (wallet * p.maxRiskPerTrade) :=
    le_max_right _ _
  have htotal : 0 ≤ totalEv topN :=
    List.sum_nonneg (List.forall_mem_map.2 fun s hs => (hpos s hs).le)
  have hone : ∀ s ∈ part, (p.allocation wallet (totalEv topN) s).risk ≤
      max 0 (wallet * p.maxRiskPerTrade) * (s.expectedValue / totalEv topN) +
        5 / 10000 * |s.entryPrice - s.slPrice| := by
    intro s hs
    have hshare : 0 ≤ s.expectedValue / totalEv topN :=
      div_nonneg (hpos s (hpart.subset hs)).le htotal
    exact (allocatedAmount_risk_le (hstop s hs) _).trans
      (add_le_add_left (mul_le_mul_of_nonneg_right hbudget hshare) _)
  calc
    (part.map fun s => (p.allocation wallet (totalEv topN) s).risk).sum
        ≤ (part.map fun s =>
            max 0 (wallet * p.maxRiskPerTrade) * (s.expectedValue / totalEv topN) +
              5 / 10000 * |s.entryPrice - s.slPrice|).sum := List.sum_le_sum hone
    _ = max 0 (wallet * p.maxRiskPerTrade) *
            (part.map fun s => s.expectedValue / totalEv topN).sum +
          (part.map fun s => 5 / 10000 * |s.entryPrice - s.slPrice|).sum := by
      rw [List.sum_map_add, List.sum_map_mul_left]
    _ ≤ max 0 (wallet * p.maxRiskPerTrade) +
          (part.map fun s => 5 / 10000 * |s.entryPrice - s.slPrice|).sum := by
      have hshares := sum_shares_le_one hpart hpos
      exact add_le_add_left (mul_le_of_le_one_right (le_max_left _ _) hshares) _

/-! ## A whole allocation -/

/-- The chosen signals that are allocated an amount. -/
def allocated (p : PortfolioAllocator) (signals : List TradeSignal) (wallet : ℚ)
    (openPositions : ℤ) : List TradeSignal :=
  (p.chosen signals openPositions).filter fun s =>
    decide (0 < (p.allocation wallet (totalEv (p.chosen signals openPositions)) s).amount)

/-- A funded wallet is allocated to these signals. -/
theorem allocate_eq (p : PortfolioAllocator) (signals : List TradeSignal) {wallet : ℚ}
    (hwallet : 0 < wallet) (openPositions : ℤ) :
    p.allocate signals wallet openPositions =
      (p.allocated signals wallet openPositions).map
        (p.allocation wallet (totalEv (p.chosen signals openPositions))) := by
  have hpos : p.chosen signals openPositions ≠ [] →
      0 < totalEv (p.chosen signals openPositions) := by
    intro hne
    have hvalues : ∀ q ∈ (p.chosen signals openPositions).map TradeSignal.expectedValue, 0 < q :=
      List.forall_mem_map.2 fun s hs => pos_of_mem_chosen hs
    exact List.sum_pos _ hvalues (by simpa using hne)
  unfold allocate allocated
  dsimp only
  split_ifs with hempty hnone hslots htotal
  · rw [or_iff_left hwallet.not_ge] at hempty
    rw [hempty]
    simp [chosen, positiveEv, ranked]
  · simp [chosen, hnone]
  · simp [chosen, hslots]
  · have hchosen : p.chosen signals openPositions = [] :=
      not_not.1 fun hne => htotal.not_gt (hpos hne)
    simp [hchosen]
  · rw [List.filter_map]
    rfl

/-- They are some of the chosen ones. -/
theorem allocated_sublist (p : PortfolioAllocator) (signals : List TradeSignal) (wallet : ℚ)
    (openPositions : ℤ) :
    (p.allocated signals wallet openPositions).Sublist (p.chosen signals openPositions) :=
  List.filter_sublist

/-- There are no more than free slots. -/
theorem length_allocated_le (p : PortfolioAllocator) (signals : List TradeSignal) (wallet : ℚ)
    (openPositions : ℤ) :
    ((p.allocated signals wallet openPositions).length : ℤ) ≤
      max 0 (p.maxPositions - openPositions) := by
  have hchosen : (p.chosen signals openPositions).length ≤ p.slots openPositions :=
    List.length_take_le _ _
  have hlength := (p.allocated_sublist signals wallet openPositions).length_le
  have hslots : (p.slots openPositions : ℤ) = max 0 (p.maxPositions - openPositions) :=
    Int.toNat_of_nonneg (le_max_left _ _)
  omega

/-- The allocations have positive values that do not rise, and none is larger than its signal.
They are those of the best signals, each with its share of the budget or, without a usable stop,
with its own amount, and without the ones of no amount.  With usable stops they risk together no
more than the budget, and half a rounding step each. -/
theorem allocate_within_budget (p : PortfolioAllocator) (signals : List TradeSignal) {wallet : ℚ}
    (hwallet : 0 < wallet) (openPositions : ℤ) :
    let allocations := p.allocate signals wallet openPositions
    let stopped := allocations.filter fun a => decide (UsableStop a.signal)
    (allocations.length : ℤ) ≤ max 0 (p.maxPositions - openPositions) ∧
      (∀ a ∈ allocations, 0 < a.ev ∧ a.ev = a.signal.expectedValue) ∧
      (allocations.Pairwise fun a b => b.ev ≤ a.ev) ∧
      (∃ topN rest, (topN ++ rest).Perm (signals.filter fun s => decide (0 < s.expectedValue)) ∧
        (∀ s ∈ topN, ∀ t ∈ rest, t.expectedValue ≤ s.expectedValue) ∧
        (rest ≠ [] → (topN.length : ℤ) = max 0 (p.maxPositions - openPositions)) ∧
        (∀ s ∈ topN, GetsShare (wallet * p.maxRiskPerTrade * (s.expectedValue / totalEv topN)) s
          (p.allocation wallet (totalEv topN) s).amount) ∧
        allocations = (topN.map (p.allocation wallet (totalEv topN))).filter
          fun a => decide (0 < a.amount)) ∧
      (∀ a ∈ allocations, ¬ UsableStop a.signal → a.amount = a.signal.amount) ∧
      (∀ a ∈ allocations, 0 < a.signal.amount → a.amount ≤ a.signal.amount) ∧
      (stopped.map Allocation.risk).sum ≤ max 0 (wallet * p.maxRiskPerTrade) +
        (stopped.map fun a => 5 / 10000 * |a.entryPrice - a.slPrice|).sum := by
  have hsublist := p.allocated_sublist signals wallet openPositions
  have hpos : ∀ s ∈ p.chosen signals openPositions, 0 < s.expectedValue :=
    fun s hs => pos_of_mem_chosen hs
  rw [allocate_eq p signals hwallet]
  dsimp only
  refine ⟨?_, ?_, ?_, ?_, ?_, ?_, ?_⟩
  · rw [List.length_map]
    exact p.length_allocated_le signals wallet openPositions
  · intro a ha
    rcases List.mem_map.1 ha with ⟨s, hs, rfl⟩
    exact ⟨hpos s (hsublist.subset hs), rfl⟩
  · rw [List.pairwise_map]
    exact ((pairwise_positiveEv signals).sublist (List.take_sublist _ _)).sublist hsublist
  · rcases p.chosen_best signals openPositions with ⟨rest, hperm, hbest, hfull⟩
    refine ⟨p.chosen signals openPositions, rest, hperm, hbest, ?_,
      fun s _ => p.getsShare_allocation _ _ s, ?_⟩
    · intro hrest
      rw [hfull hrest]
      exact Int.toNat_of_nonneg (le_max_left _ _)
    · rw [List.filter_map]
      rfl
  · intro a ha hstop
    rcases List.mem_map.1 ha with ⟨s, _, rfl⟩
    exact if_neg hstop
  · intro a ha
    rcases List.mem_map.1 ha with ⟨s, _, rfl⟩
    exact fun hamount => allocatedAmount_le_amount hamount _
  · rw [List.filter_map, List.map_map, List.map_map]
    refine sum_risk_le (List.filter_sublist.trans hsublist) hpos ?_ wallet
    intro s hs
    exact of_decide_eq_true (List.mem_filter.1 hs).2

/-! ## A wallet of one hundred -/

/-- Five positions, two percent of the wallet. -/
def defaultAllocator : PortfolioAllocator :=
  ⟨5, 2 / 100⟩

/-- A Bitcoin signal whose stop is 750 away. -/
def bitcoinSignal : TradeSignal where
  symbol := "BTC/USDT".toList
  direction := .LONG
  regime := .TREND_BULL
  score := 80
  riskProfile := trendProfile "TREND_BULL".toList
  entryPrice := 100000
  slPrice := 99250
  tpPrice := none
  amount := 1
  entryFeeRate := 55 / 100000
  atr := 500
  timestampMs := 0
  candles := []
  sessionMult := 1
  expectedValue := 1 / 100

/-- An Ether signal of a small amount. -/
def etherSignal : TradeSignal :=
  { bitcoinSignal with
    symbol := "ETH/USDT".toList
    entryPrice := 3000
    slPrice := 2940
    amount := 1 / 10
    expectedValue := 4 / 100 }

/-- Beside these two: one without a stop, one of less value, and one of none. -/
def fiveSignals : List TradeSignal :=
  [{ bitcoinSignal with symbol := "XRP/USDT".toList, expectedValue := 5 / 1000 },
    { bitcoinSignal with expectedValue := 2 / 100 },
    { bitcoinSignal with symbol := "SOL/USDT".toList, slPrice := 0, amount := 2 },
    { bitcoinSignal with symbol := "ADA/USDT".toList, expectedValue := -1 / 100 },
    etherSignal]

/-- With three free slots Ether gets its own amount, Bitcoin its share of twenty, and the signal
without a stop its own amount. -/
theorem allocate_within_budget_fiveSignals :
    (defaultAllocator.allocate fiveSignals 1000 2).map Allocation.amount =
        [1 / 10, 8 / 1000, 2] ∧
      (((defaultAllocator.allocate fiveSignals 1000 2).filter
          fun a => decide (UsableStop a.signal)).map Allocation.risk).sum ≤
        max 0 (1000 * defaultAllocator.maxRiskPerTrade) +
          (((defaultAllocator.allocate fiveSignals 1000 2).filter
            fun a => decide (UsableStop a.signal)).map
              fun a => 5 / 10000 * |a.entryPrice - a.slPrice|).sum ∧
      (∀ a ∈ defaultAllocator.allocate fiveSignals 1000 2,
        ¬ UsableStop a.signal → a.amount = a.signal.amount) ∧
      ((defaultAllocator.allocate fiveSignals 1000 2).length : ℤ) ≤ 3 := by
  have hranked : ranked TradeSignal.expectedValue fiveSignals =
      [4, 1, 2, 0, 3].filterMap fun i => fiveSignals[i]? :=
    ranked_eq TradeSignal.expectedValue (by decide +kernel) (by decide +kernel)
  have hamounts : (defaultAllocator.allocate fiveSignals 1000 2).map Allocation.amount =
      [1 / 10, 8 / 1000, 2] := by
    rw [allocate, chosen, positiveEv, hranked]
    decide +kernel
  have hbudget := allocate_within_budget defaultAllocator fiveSignals
    (show (0 : ℚ) < 1000 by norm_num) 2
  exact ⟨hamounts, hbudget.2.2.2.2.2.2, hbudget.2.2.2.2.1, hbudget.1⟩

/-- The amount of the Bitcoin signal alone is rounded up to three thousandths, and risks more than
the budget of two. -/
theorem allocate_exceeds_budget :
    (0 : ℚ) < 100 ∧ 100 * defaultAllocator.maxRiskPerTrade = 2 ∧
      ((defaultAllocator.allocate [bitcoinSignal] 100 0).map Allocation.risk).sum = 9 / 4 ∧
      ¬ ((defaultAllocator.allocate [bitcoinSignal] 100 0).map Allocation.risk).sum ≤
        100 * defaultAllocator.maxRiskPerTrade := by
  decide +kernel

end PortfolioAllocator
end Risk
end Karsa
