import Karsa.Execution.Router.StopLoss
import Mathlib.Tactic.FieldSimp
import Mathlib.Tactic.Linarith
import Mathlib.Tactic.NormNum
import Mathlib.Tactic.Ring

/-!
# Smart order router - The loss budget of a stop

The stop is placed where the amount asked for loses the budget.  The client then sends another
quantity, rounded to the lot step and raised to the minimum, and another price, rounded twice and
raised to one tick.

Main results:

- Theorem `shift_le`: the roundings move the stop away from the price by at most one tick.
- Theorem `honoursBudget_of_le`: a quantity that is not rounded up keeps the budget.
- Theorem `honoursBudget_iff`: when the budget is kept.
- Theorem `not_honoursBudget_of_raised`: a quantity that is rounded up exceeds large budgets.
-/

namespace Karsa
namespace Router

open Bybit

/-! ## Entries with a stop -/

/-- The price that a request for a stop carries. -/
def ExchangeStep.stopPrice : ExchangeStep → Option ℚ
  | tradingStop price _ => some price
  | conditional _ price _ => some price
  | order _ _ | cancel _ => none

/-- An entry with its terms and tables. -/
structure BudgetedEntry where
  terms : StopTerms
  symbol : Text
  side : OrderSide
  price : ℚ
  amount : ℚ
  price_pos : 0 < price
  amount_pos : 0 < amount
  maxLoss_nonneg : 0 ≤ terms.maxLossUsd
  priceTick_pos : 0 < terms.priceTick
  clientTick_pos : 0 < (terms.tables.priceTicks symbol).getD (1 / 100)

namespace BudgetedEntry

/-- The client's own tick of the instrument. -/
def clientTick (e : BudgetedEntry) : ℚ :=
  (e.terms.tables.priceTicks e.symbol).getD (1 / 100)

/-- One tick: the router is handed the client's, and where they differ it is the larger one. -/
def tick (e : BudgetedEntry) : ℚ :=
  max e.terms.priceTick e.clientTick

/-- The quantity that the client sends. -/
def sentQty (e : BudgetedEntry) : ℚ :=
  e.terms.tables.roundQty e.symbol e.amount

/-- The distance at which the amount asked for loses the budget. -/
def distance (e : BudgetedEntry) : ℚ :=
  e.terms.maxLossUsd / e.amount

/-- The price at that distance on the losing side. -/
def level (e : BudgetedEntry) : ℚ :=
  match e.side with
  | .buy => e.price - e.distance
  | .sell => e.price + e.distance

/-- A level after the roundings: to the tick of the router, to the client's tick, and up to one
tick. -/
def rounded (e : BudgetedEntry) (x : ℚ) : ℚ :=
  max (quantize e.clientTick (quantize e.terms.priceTick x)) e.clientTick

/-- How far the roundings move the level away from the price. -/
def shift (e : BudgetedEntry) : ℚ :=
  |e.price - e.rounded e.level| - e.distance

/-- A stop keeps the budget of an entry. -/
structure Keeps (e : BudgetedEntry) (stop : ℚ) : Prop where
  pos : 0 < stop
  losing : match e.side with
    | .buy => stop ≤ e.price + e.tick
    | .sell => e.price - e.tick ≤ stop
  loss : e.sentQty * |e.price - stop| ≤ e.terms.maxLossUsd + e.sentQty * e.tick

/-- However the exchange answers, every stop that it is asked for keeps the budget. -/
def HonoursBudget (e : BudgetedEntry) : Prop :=
  ∀ answers, ∀ step ∈ (placeSlAfterFill e.terms e.symbol e.side e.price e.amount answers).1,
    ∀ stop, step.stopPrice = some stop → e.Keeps stop

/-! ## Requests -/

/-- The price that is sent is the rounded level. -/
theorem sentPrice_eq (e : BudgetedEntry) :
    e.terms.sentPrice e.symbol e.side e.price e.amount = e.rounded e.level := by
  have hdistance : e.terms.distance e.amount = e.distance := if_pos e.amount_pos
  have hlevel : e.terms.slPrice e.side e.price e.amount =
      quantize e.terms.priceTick e.level := by
    unfold StopTerms.slPrice level
    cases e.side <;> rw [hdistance]
  rw [StopTerms.sentPrice, hlevel]
  exact if_pos e.clientTick_pos

/-- Every request carries that price, and one is always made. -/
theorem stopPrice_iff (e : BudgetedEntry) (stop : ℚ) :
    (∃ answers, ∃ step ∈ (placeSlAfterFill e.terms e.symbol e.side e.price e.amount answers).1,
      step.stopPrice = some stop) ↔ stop = e.rounded e.level := by
  rw [← sentPrice_eq]
  constructor
  · rintro ⟨a, step, hstep, hstop⟩
    rw [placeSlAfterFill, if_neg e.priceTick_pos.ne', List.mem_append] at hstep
    rcases hstep with hcleanup | hcalls
    · have hnone : step.isStop = false := by
        have hrequests := stopRequests_cleanup a
        rw [stopRequests, List.filter_eq_nil_iff] at hrequests
        exact Bool.eq_false_of_not_eq_true (hrequests step hcleanup)
      cases step <;> simp [ExchangeStep.stopPrice, ExchangeStep.isStop] at hstop hnone
    · unfold stopCalls at hcalls
      cases hprimary : a.primary.answered <;> cases hretry : a.retry.answered <;>
        simp only [hprimary, hretry, Bool.false_eq_true, if_true, if_false, List.mem_cons,
          List.not_mem_nil, or_false] at hcalls
      · rcases hcalls with rfl | rfl | rfl <;> exact (Option.some_inj.mp hstop).symm
      · rcases hcalls with rfl | rfl <;> exact (Option.some_inj.mp hstop).symm
      · rw [hcalls] at hstop
        exact (Option.some_inj.mp hstop).symm
      · rw [hcalls] at hstop
        exact (Option.some_inj.mp hstop).symm
  · rintro rfl
    refine ⟨⟨.ok [], ⟨true, true, fun h => h⟩, ⟨true, true, fun h => h⟩,
      ⟨true, true, fun h => h⟩⟩, .tradingStop _ true, ?_, rfl⟩
    rw [placeSlAfterFill, if_neg e.priceTick_pos.ne']
    exact List.mem_append_right _ List.mem_cons_self

/-- The budget is honoured exactly if the rounded level keeps it. -/
theorem honoursBudget_iff_keeps (e : BudgetedEntry) :
    e.HonoursBudget ↔ e.Keeps (e.rounded e.level) := by
  constructor
  · intro h
    rcases (e.stopPrice_iff _).mpr rfl with ⟨a, step, hstep, hstop⟩
    exact h a step hstep _ hstop
  · intro h a step hstep stop hstop
    rw [(e.stopPrice_iff stop).mp ⟨a, step, hstep, hstop⟩]
    exact h

/-! ## Rounding -/

/-- Two roundings move a price by at most one tick. -/
theorem abs_quantize_quantize_sub_le (e : BudgetedEntry) (x : ℚ) :
    |quantize e.clientTick (quantize e.terms.priceTick x) - x| ≤ e.tick := by
  have hinner := abs_quantize_sub_le e.priceTick_pos x
  have houter := abs_quantize_sub_le e.clientTick_pos (quantize e.terms.priceTick x)
  have hpriceTick : e.terms.priceTick ≤ e.tick := le_max_left _ _
  have hclientTick : e.clientTick ≤ e.tick := le_max_right _ _
  calc
    |quantize e.clientTick (quantize e.terms.priceTick x) - x| ≤
        |quantize e.clientTick (quantize e.terms.priceTick x) - quantize e.terms.priceTick x| +
          |quantize e.terms.priceTick x - x| := abs_sub_le _ _ _
    _ ≤ e.clientTick / 2 + e.terms.priceTick / 2 := add_le_add houter hinner
    _ ≤ e.tick := by linarith

/-- Rounding lowers a price by at most one tick. -/
theorem le_rounded (e : BudgetedEntry) (x : ℚ) : x - e.tick ≤ e.rounded x := by
  have hclose := (abs_le.mp (e.abs_quantize_quantize_sub_le x)).1
  have hmax : quantize e.clientTick (quantize e.terms.priceTick x) ≤ e.rounded x := le_max_left _ _
  linarith

/-- And raises it by at most one tick, or to one tick. -/
theorem rounded_le (e : BudgetedEntry) {x bound : ℚ} (hx : x ≤ bound) (hbound : 0 ≤ bound) :
    e.rounded x ≤ bound + e.tick := by
  have hclose := (abs_le.mp (e.abs_quantize_quantize_sub_le x)).2
  have hclientTick : e.clientTick ≤ e.tick := le_max_right _ _
  exact max_le (by linarith) (by linarith)

/-- A rounded price is positive. -/
theorem rounded_pos (e : BudgetedEntry) (x : ℚ) : 0 < e.rounded x :=
  lt_max_of_lt_right e.clientTick_pos

theorem distance_nonneg (e : BudgetedEntry) : 0 ≤ e.distance :=
  div_nonneg e.maxLoss_nonneg e.amount_pos.le

/-- The stop is on the losing side up to one tick. -/
theorem losing_rounded (e : BudgetedEntry) :
    match e.side with
    | .buy => e.rounded e.level ≤ e.price + e.tick
    | .sell => e.price - e.tick ≤ e.rounded e.level := by
  have hdistance := e.distance_nonneg
  have hlow := e.le_rounded e.level
  cases hside : e.side with
  | buy =>
      refine e.rounded_le ?_ e.price_pos.le
      simp only [level, hside]
      linarith
  | sell =>
      simp only [level, hside] at hlow ⊢
      linarith

/-- The roundings move the stop away from the price by at most one tick. -/
theorem shift_le (e : BudgetedEntry) : e.shift ≤ e.tick := by
  have hdistance := e.distance_nonneg
  have hprice := e.price_pos
  have hlow := e.le_rounded e.level
  have hhigh : e.rounded e.level ≤ e.price + e.distance + e.tick := by
    refine e.rounded_le ?_ (by linarith)
    cases hside : e.side <;> simp only [level, hside] <;> linarith
  have hlevel : e.price - e.distance ≤ e.level := by
    cases hside : e.side <;> simp only [level, hside] <;> linarith
  have habs : |e.price - e.rounded e.level| ≤ e.distance + e.tick :=
    abs_le.mpr ⟨by linarith, by linarith⟩
  rw [shift]
  linarith

/-! ## The budget -/

/-- The quantity sent is not negative. -/
theorem sentQty_nonneg (e : BudgetedEntry) : 0 ≤ e.sentQty := by
  refine le_max_of_le_left ?_
  split_ifs with hlot
  · have hround : 0 ≤ roundHalfEven (e.amount / (e.terms.tables.lotSizes e.symbol).getD 1) :=
      le_roundHalfEven (by push_cast; exact div_nonneg e.amount_pos.le hlot.le)
    exact mul_nonneg (by exact_mod_cast hround) hlot.le
  · exact e.amount_pos.le

/-- The loss of the quantity sent, at the distance and the shift of its stop. -/
theorem loss_le_iff (e : BudgetedEntry) :
    e.sentQty * |e.price - e.rounded e.level| ≤ e.terms.maxLossUsd + e.sentQty * e.tick ↔
      (e.sentQty - e.amount) * e.distance ≤ e.sentQty * (e.tick - e.shift) := by
  have hbudget : e.amount * e.distance = e.terms.maxLossUsd :=
    mul_div_cancel₀ _ e.amount_pos.ne'
  have hloss : e.sentQty * |e.price - e.rounded e.level| =
      e.sentQty * e.shift + e.sentQty * e.distance := by
    rw [shift]
    ring
  rw [hloss, ← hbudget, sub_mul, mul_sub]
  constructor <;> intro h <;> linarith

/-- A quantity that is not rounded up keeps the budget. -/
theorem honoursBudget_of_le {e : BudgetedEntry} (hqty : e.sentQty ≤ e.amount) :
    e.HonoursBudget := by
  rw [honoursBudget_iff_keeps]
  refine ⟨e.rounded_pos _, e.losing_rounded, e.loss_le_iff.mpr ?_⟩
  have hsaved : (e.sentQty - e.amount) * e.distance ≤ 0 :=
    mul_nonpos_of_nonpos_of_nonneg (by linarith) e.distance_nonneg
  have hleft : 0 ≤ e.sentQty * (e.tick - e.shift) :=
    mul_nonneg e.sentQty_nonneg (by linarith [e.shift_le])
  exact le_trans hsaved hleft

/-- The budget is kept exactly if the quantity is not rounded up, or the distance of the stop is
at most a few ticks: as much as the quantity sent makes, over what was added to it, of what the
shift leaves of one tick. -/
theorem honoursBudget_iff (e : BudgetedEntry) :
    e.HonoursBudget ↔ e.sentQty ≤ e.amount ∨
      e.distance ≤ e.sentQty * (e.tick - e.shift) / (e.sentQty - e.amount) := by
  constructor
  · intro h
    rcases le_or_gt e.sentQty e.amount with hqty | hqty
    · exact Or.inl hqty
    · refine Or.inr ?_
      rw [le_div_iff₀ (by linarith), mul_comm]
      exact e.loss_le_iff.mp (e.honoursBudget_iff_keeps.mp h).loss
  · rintro (hqty | hdistance)
    · exact honoursBudget_of_le hqty
    · rcases le_or_gt e.sentQty e.amount with hqty | hqty
      · exact honoursBudget_of_le hqty
      · rw [honoursBudget_iff_keeps]
        refine ⟨e.rounded_pos _, e.losing_rounded, e.loss_le_iff.mpr ?_⟩
        rwa [le_div_iff₀ (by linarith), mul_comm] at hdistance

/-- Where the level is above the lowest price, the shift is not below minus one tick: a quantity
that is rounded up exceeds every large enough budget. -/
theorem not_honoursBudget_of_raised {e : BudgetedEntry} (hqty : e.amount < e.sentQty)
    (hlevel : 2 * e.tick ≤ e.level)
    (hdistance : 2 * e.tick * e.sentQty / (e.sentQty - e.amount) < e.distance) :
    ¬ e.HonoursBudget := by
  have hraised : 0 < e.sentQty - e.amount := by linarith
  have hclient : e.clientTick ≤ e.tick := le_max_right _ _
  have hclose := abs_le.mp (e.abs_quantize_quantize_sub_le e.level)
  have hrounded : e.rounded e.level =
      quantize e.clientTick (quantize e.terms.priceTick e.level) :=
    max_eq_left (by linarith)
  have hshift : -e.tick ≤ e.shift := by
    have hdist : e.distance = |e.price - e.level| := by
      cases hside : e.side with
      | buy =>
          simp only [level, hside, sub_sub_cancel]
          exact (abs_of_nonneg e.distance_nonneg).symm
      | sell =>
          simp only [level, hside, sub_add_cancel_left, abs_neg]
          exact (abs_of_nonneg e.distance_nonneg).symm
    have htriangle := abs_sub_le e.price (e.rounded e.level) e.level
    have hmoved : |e.rounded e.level - e.level| ≤ e.tick := by
      rw [hrounded]
      exact e.abs_quantize_quantize_sub_le e.level
    rw [shift]
    linarith
  rw [honoursBudget_iff]
  rintro (hle | hle)
  · linarith
  · have hcover : e.sentQty * (e.tick - e.shift) / (e.sentQty - e.amount) ≤
        2 * e.tick * e.sentQty / (e.sentQty - e.amount) := by
      refine div_le_div_of_nonneg_right ?_ hraised.le
      have hmul := mul_le_mul_of_nonneg_left (show e.tick - e.shift ≤ 2 * e.tick by linarith)
        e.sentQty_nonneg
      linarith
    linarith

end BudgetedEntry

/-- Four ten-thousandths of a contract that is traded in thousandths, with a budget of eight. -/
def smallEntry : BudgetedEntry where
  terms := ⟨{ InstrumentTables.empty with
      lotSizes := fun _ => some (1 / 1000)
      minQty := fun _ => some (1 / 1000)
      priceTicks := fun _ => some (1 / 10) }, 8, 1 / 10⟩
  symbol := "BTC/USDT".toList
  side := .buy
  price := 100000
  amount := 4 / 10000
  price_pos := by norm_num
  amount_pos := by norm_num
  maxLoss_nonneg := by norm_num
  priceTick_pos := by norm_num
  clientTick_pos := by norm_num

/-- A thousandth is sent, and the stop at 80000 lets it lose twenty. -/
theorem smallEntry_exceeds : ¬ smallEntry.HonoursBudget := by
  rw [BudgetedEntry.honoursBudget_iff_keeps]
  intro h
  have hexceeds : ¬ smallEntry.sentQty * |smallEntry.price - smallEntry.rounded smallEntry.level| ≤
      smallEntry.terms.maxLossUsd + smallEntry.sentQty * smallEntry.tick := by decide +kernel
  exact hexceeds h.loss

end Router
end Karsa
