import Mathlib.Data.List.Basic
import Mathlib.Order.Lattice

/-!
# Foundations - First peaks

Values are looked at one after the other, each with a mark such as the time.  The first peak of
such a list is its greatest value with the mark of the first entry that has it.

Main results:

- Theorem `FirstPeak.unique`: a list has one first peak.
- Theorems `FirstPeak.append_of_lt`, `FirstPeak.append_of_le`: the first peak of a longer list.
-/

namespace Karsa

variable {α τ : Type*} [LinearOrder α]

/-- The greatest value of a list, where it stands first. -/
def FirstPeak (list : List (α × τ)) (peak : α × τ) : Prop :=
  ∃ before after, list = before ++ peak :: after ∧ (∀ x ∈ before, x.1 < peak.1) ∧
    ∀ x ∈ after, x.1 ≤ peak.1

namespace FirstPeak

variable {list : List (α × τ)} {peak peak' : α × τ}

/-- A single value is the peak. -/
theorem singleton (x : α × τ) : FirstPeak [x] x :=
  ⟨[], [], rfl, by simp, by simp⟩

/-- No value is above the peak. -/
theorem le (h : FirstPeak list peak) {x : α × τ} (hx : x ∈ list) : x.1 ≤ peak.1 := by
  rcases h with ⟨before, after, rfl, hbefore, hafter⟩
  rcases List.mem_append.mp hx with hx | hx
  · exact (hbefore x hx).le
  · rcases List.mem_cons.mp hx with rfl | hx
    · exact le_rfl
    · exact hafter x hx

theorem ne_nil (h : FirstPeak list peak) : list ≠ [] := by
  rcases h with ⟨before, after, rfl, -, -⟩
  simp

/-- A list has one first peak. -/
theorem unique (h : FirstPeak list peak) (h' : FirstPeak list peak') : peak = peak' := by
  induction list with
  | nil => exact absurd rfl h.ne_nil
  | cons x rest ih =>
      rcases h with ⟨before, after, hlist, hbefore, hafter⟩
      rcases h' with ⟨before', after', hlist', hbefore', hafter'⟩
      cases before with
      | nil =>
          obtain ⟨rfl, rfl⟩ := List.cons.inj hlist
          cases before' with
          | nil => exact (List.cons.inj hlist').1
          | cons y before' =>
              -- the first entry would be below one that it is not below
              obtain ⟨rfl, hrest⟩ := List.cons.inj hlist'
              have hbelow := hbefore' x List.mem_cons_self
              have habove := hafter peak' (by rw [hrest]; simp)
              exact absurd hbelow habove.not_gt
      | cons y before =>
          obtain ⟨rfl, hrest⟩ := List.cons.inj hlist
          cases before' with
          | nil =>
              obtain ⟨rfl, rfl⟩ := List.cons.inj hlist'
              have hbelow := hbefore x List.mem_cons_self
              have habove := hafter' peak (by rw [hrest]; simp)
              exact absurd hbelow habove.not_gt
          | cons y' before' =>
              obtain ⟨rfl, hrest'⟩ := List.cons.inj hlist'
              exact ih
                ⟨before, after, hrest, fun z hz => hbefore z (List.mem_cons_of_mem x hz), hafter⟩
                ⟨before', after', hrest', fun z hz => hbefore' z (List.mem_cons_of_mem x hz),
                  hafter'⟩

/-- A value above the peak is the next one. -/
theorem append_of_lt (h : FirstPeak list peak) {x : α × τ} (hx : peak.1 < x.1) :
    FirstPeak (list ++ [x]) x :=
  ⟨list, [], rfl, fun _ hy => (h.le hy).trans_lt hx, by simp⟩

/-- Any other value leaves the peak. -/
theorem append_of_le (h : FirstPeak list peak) {x : α × τ} (hx : x.1 ≤ peak.1) :
    FirstPeak (list ++ [x]) peak := by
  rcases h with ⟨before, after, rfl, hbefore, hafter⟩
  refine ⟨before, after ++ [x], by simp, hbefore, ?_⟩
  intro y hy
  rcases List.mem_append.mp hy with hy | hy
  · exact hafter y hy
  · rw [List.mem_singleton.mp hy]
    exact hx

end FirstPeak
end Karsa
