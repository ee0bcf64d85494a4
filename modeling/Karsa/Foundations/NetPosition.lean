import Mathlib.Algebra.Order.Field.Rat
import Mathlib.Tactic.Linarith

/-!
# Foundations - A net position under fills

A net position is a signed size.  A fill adds its signed quantity; a reduce-only fill is
cut back to what is left on the other side, and does nothing where there is nothing to
reduce.

Main results:

- Theorem `applyFill_within`: a reduce-only fill keeps the position between flat and what
  it was, whatever the position is when the fill arrives.
-/

namespace Karsa
namespace NetPosition

/-- The new size lies between flat and the old one. -/
def Within (new old : ℚ) : Prop :=
  (0 ≤ new ∧ new ≤ old) ∨ (old ≤ new ∧ new ≤ 0)

instance (new old : ℚ) : Decidable (Within new old) :=
  inferInstanceAs (Decidable (_ ∨ _))

namespace Within

theorem refl (size : ℚ) : Within size size := by
  rcases le_total 0 size with hlong | hshort
  · exact Or.inl ⟨hlong, le_refl size⟩
  · exact Or.inr ⟨le_refl size, hshort⟩

theorem trans {a b c : ℚ} (h : Within a b) (h' : Within b c) : Within a c := by
  rcases h with ⟨hpos, hle⟩ | ⟨hle, hneg⟩
  · rcases h' with ⟨_, hle'⟩ | ⟨hle', hneg'⟩
    · exact Or.inl ⟨hpos, hle.trans hle'⟩
    · have hzero : a = 0 := le_antisymm (hle.trans hneg') hpos
      exact Or.inr ⟨by linarith, hzero.le⟩
  · rcases h' with ⟨hpos', hle'⟩ | ⟨hle', _⟩
    · have hzero : a = 0 := le_antisymm hneg (hpos'.trans hle)
      exact Or.inl ⟨hzero.ge, by linarith⟩
    · exact Or.inr ⟨hle'.trans hle, hneg⟩

end Within

/-- Move a size towards flat, at most as far as flat. -/
def reduce (fill size : ℚ) : ℚ :=
  if 0 ≤ size then max 0 (size - fill) else min 0 (size + fill)

theorem reduce_within {fill : ℚ} (hfill : 0 ≤ fill) (size : ℚ) :
    Within (reduce fill size) size := by
  unfold reduce
  split_ifs with hlong
  · exact Or.inl ⟨le_max_left _ _, max_le hlong (by linarith)⟩
  · exact Or.inr ⟨le_min (by linarith) (by linarith), min_le_left _ _⟩

/-- A fill of a signed quantity. -/
def applyFill (reduceOnly : Bool) (signed size : ℚ) : ℚ :=
  if reduceOnly then
    if signed * size < 0 then reduce |signed| size else size
  else size + signed

/-- A reduce-only fill never opens, enlarges or turns a position. -/
theorem applyFill_within (signed size : ℚ) : Within (applyFill true signed size) size := by
  unfold applyFill
  rw [if_pos rfl]
  split_ifs
  · exact reduce_within (abs_nonneg signed) size
  · exact Within.refl size

end NetPosition
end Karsa
