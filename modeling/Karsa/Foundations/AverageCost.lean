import Mathlib.Algebra.BigOperators.Group.List.Basic
import Mathlib.Algebra.Order.Field.Basic
import Mathlib.Tactic.Linarith

/-!
# Foundations - Positions at average cost

A position has a direction, a positive size and what its units cost.  A fill in its direction
adds units at their own price; a fill against it takes units off at the average price, closes
the position, or turns it with what is left of the fill.

Main results:

- Theorem `trades_same`: fills in one direction add up, and the entry price is the mean of
  their prices weighted by their sizes.
- Theorem `trade_against`: a fill against a position leaves less than the position and the fill
  together.
-/

namespace Karsa
namespace AverageCost

/-- Does a position gain when the price rises? -/
inductive Direction where
  | long
  | short
deriving Repr, DecidableEq

variable {K : Type} [Field K] [LinearOrder K]

/-- A positive number of units at one price. -/
structure Lot (K : Type) [Field K] [LinearOrder K] where
  size : K
  price : K
  size_pos : 0 < size

/-- An open position with the cost of its units. -/
structure Holding (K : Type) [Field K] [LinearOrder K] where
  direction : Direction
  size : K
  cost : K
  size_pos : 0 < size

namespace Holding

/-- The price at which the position was entered on average. -/
def entry (h : Holding K) : K :=
  h.cost / h.size

/-- What closing the position at a price earns. -/
def profit (h : Holding K) (price : K) : K :=
  match h.direction with
  | .long => (price - h.entry) * h.size
  | .short => (h.entry - price) * h.size

/-- A position of one lot. -/
def ofLot (direction : Direction) (lot : Lot K) : Holding K where
  direction := direction
  size := lot.size
  cost := lot.size * lot.price
  size_pos := lot.size_pos

/-- The entry price of one lot is its price. -/
@[simp] theorem entry_ofLot (direction : Direction) (lot : Lot K) :
    (ofLot direction lot).entry = lot.price :=
  mul_div_cancel_left₀ lot.price lot.size_pos.ne'

/-- The cost is the size at the entry price. -/
theorem entry_mul_size (h : Holding K) : h.entry * h.size = h.cost :=
  div_mul_cancel₀ h.cost h.size_pos.ne'

variable [IsStrictOrderedRing K]

/-- A lot on top. -/
def add (h : Holding K) (lot : Lot K) : Holding K where
  direction := h.direction
  size := h.size + lot.size
  cost := h.cost + lot.size * lot.price
  size_pos := add_pos h.size_pos lot.size_pos

/-- What is left of a position after units are taken off at its entry price. -/
def takeOff (h : Holding K) (units : K) (hunits : units < h.size) : Holding K where
  direction := h.direction
  size := h.size - units
  cost := h.entry * (h.size - units)
  size_pos := sub_pos.mpr hunits

end Holding

variable [IsStrictOrderedRing K]

/-- A fill reaches a position, or none. -/
def trade (direction : Direction) (lot : Lot K) : Option (Holding K) → Option (Holding K)
  | none => some (Holding.ofLot direction lot)
  | some h =>
      if h.direction = direction then some (h.add lot)
      else if hless : lot.size < h.size then some (h.takeOff lot.size hless)
      else if hmore : h.size < lot.size then
        some (Holding.ofLot direction ⟨lot.size - h.size, lot.price, sub_pos.mpr hmore⟩)
      else none

/-- A fill against a position leaves less than the position and the fill together. -/
theorem trade_against {direction : Direction} {lot : Lot K} {h left : Holding K}
    (hagainst : h.direction ≠ direction) (hleft : trade direction lot (some h) = some left) :
    left.size < h.size + lot.size := by
  have hsize : 0 < h.size := h.size_pos
  have hlot : 0 < lot.size := lot.size_pos
  rw [trade, if_neg hagainst] at hleft
  split_ifs at hleft with hless hmore
  · have hsub : left.size = h.size - lot.size := by
      rw [← Option.some.inj hleft]
      rfl
    linarith
  · have hsub : left.size = lot.size - h.size := by
      rw [← Option.some.inj hleft]
      rfl
    linarith

/-- Further fills in the direction of a position add their sizes and costs. -/
theorem foldl_trade_same (h : Holding K) (lots : List (Lot K)) :
    ∃ total, lots.foldl (fun p lot => trade h.direction lot p) (some h) = some total ∧
      total.direction = h.direction ∧
      total.size = h.size + (lots.map Lot.size).sum ∧
      total.cost = h.cost + (lots.map fun lot => lot.size * lot.price).sum := by
  induction lots generalizing h with
  | nil => exact ⟨h, rfl, rfl, by simp, by simp⟩
  | cons lot rest ih =>
      rcases ih (h.add lot) with ⟨total, hfold, hdirection, hsize, hcost⟩
      have hadd : trade h.direction lot (some h) = some (h.add lot) := if_pos rfl
      refine ⟨total, ?_, hdirection, ?_, ?_⟩
      · rw [List.foldl_cons, hadd]
        exact hfold
      · rw [hsize, List.map_cons, List.sum_cons, ← add_assoc]
        rfl
      · rw [hcost, List.map_cons, List.sum_cons, ← add_assoc]
        rfl

/-- Fills in one direction add up, and the entry price is the mean of their prices weighted by
their sizes. -/
theorem trades_same (direction : Direction) {lots : List (Lot K)} (hlots : lots ≠ []) :
    ∃ total, lots.foldl (fun p lot => trade direction lot p) none = some total ∧
      total.direction = direction ∧
      total.size = (lots.map Lot.size).sum ∧
      total.entry = (lots.map fun lot => lot.size * lot.price).sum / (lots.map Lot.size).sum := by
  cases lots with
  | nil => exact absurd rfl hlots
  | cons lot rest =>
      rcases foldl_trade_same (Holding.ofLot direction lot) rest with
        ⟨total, hfold, hdirection, hsize, hcost⟩
      refine ⟨total, hfold, hdirection, hsize, ?_⟩
      rw [Holding.entry, hsize, hcost]
      rfl

end AverageCost
end Karsa
