import Mathlib.Data.List.Sort
import Mathlib.Order.Basic

/-!
# Foundations - Choosing by a key

A program that looks for the items of greatest key goes through them one by one and keeps the
best so far, or sorts them and takes the first few.  Both are stable: of two items with equal
keys the earlier one is preferred.

Main results:

- Theorem `foldl_keepBest`: the best of a list is in it, and none is better.
- Theorem `ranked_eq`: an order in which the keys fall is the ranking.
- Theorem `key_le_of_mem_take`: what a sorted list's beginning leaves out is no better.
-/

namespace Karsa

variable {α K : Type*} [LinearOrder K] (key : α → K)

/-! ## Keeping the best -/

/-- Keep the item of greater key, the earlier one of two equal ones. -/
def keepBest (best : Option α) (x : α) : Option α :=
  match best with
  | none => some x
  | some b => if key b < key x then some x else some b

/-- The best of a list that starts from an item. -/
theorem foldl_keepBest_some (xs : List α) (b : α) :
    ∃ best, xs.foldl (keepBest key) (some b) = some best ∧ best ∈ b :: xs ∧
      ∀ x ∈ b :: xs, key x ≤ key best := by
  induction xs generalizing b with
  | nil => exact ⟨b, rfl, List.mem_singleton_self b, by simp⟩
  | cons x rest ih =>
      rw [List.foldl_cons, keepBest]
      split_ifs with hlt
      · rcases ih x with ⟨best, hbest, hmem, hall⟩
        refine ⟨best, hbest, List.mem_cons_of_mem b hmem, ?_⟩
        intro y hy
        rcases List.mem_cons.1 hy with rfl | hy
        · exact hlt.le.trans (hall x List.mem_cons_self)
        · exact hall y hy
      · rcases ih b with ⟨best, hbest, hmem, hall⟩
        refine ⟨best, hbest, ?_, ?_⟩
        · rcases List.mem_cons.1 hmem with rfl | hmem
          · exact List.mem_cons_self
          · exact List.mem_cons_of_mem b (List.mem_cons_of_mem x hmem)
        · intro y hy
          rcases List.mem_cons.1 hy with rfl | hy
          · exact hall y List.mem_cons_self
          · rcases List.mem_cons.1 hy with rfl | hy
            · exact (not_lt.1 hlt).trans (hall b List.mem_cons_self)
            · exact hall y (List.mem_cons_of_mem b hy)

/-- The best of a list is in it, and none is better. -/
theorem foldl_keepBest {xs : List α} {best : α} (h : xs.foldl (keepBest key) none = some best) :
    best ∈ xs ∧ ∀ x ∈ xs, key x ≤ key best := by
  cases xs with
  | nil => contradiction
  | cons x rest =>
      rcases foldl_keepBest_some key rest x with ⟨best', hbest, hmem, hall⟩
      rw [List.foldl_cons, keepBest, hbest, Option.some_inj] at h
      rw [← h]
      exact ⟨hmem, hall⟩

/-! ## Sorting -/

/-- The items by falling key. -/
def ranked (xs : List α) : List α :=
  xs.mergeSort fun a b => decide (key b ≤ key a)

/-- Keys do not rise along the ranking. -/
theorem pairwise_ranked (xs : List α) : (ranked key xs).Pairwise fun a b => key b ≤ key a := by
  have htrans : ∀ a b c : α, decide (key b ≤ key a) = true → decide (key c ≤ key b) = true →
      decide (key c ≤ key a) = true := by
    intro a b c hab hbc
    rw [decide_eq_true_eq] at hab hbc ⊢
    exact hbc.trans hab
  have htotal : ∀ a b : α, (decide (key b ≤ key a) || decide (key a ≤ key b)) = true := by
    intro a b
    rw [Bool.or_eq_true, decide_eq_true_eq, decide_eq_true_eq]
    exact le_total _ _
  exact (List.pairwise_mergeSort htrans htotal xs).imp fun h => of_decide_eq_true h

/-- The ranking has the items of the list. -/
theorem ranked_perm (xs : List α) : (ranked key xs).Perm xs :=
  List.mergeSort_perm xs _

/-- An order of the items in which the keys fall is their ranking. -/
theorem ranked_eq {xs ys : List α} (hperm : xs.Perm ys)
    (hfalling : ys.Pairwise fun a b => key b < key a) : ranked key xs = ys := by
  have hnodup : (ys.map key).Nodup := by
    rw [List.Nodup, List.pairwise_map]
    exact hfalling.imp fun h => h.ne'
  refine ((ranked_perm key xs).trans hperm).eq_of_pairwise ?_ (pairwise_ranked key xs)
    (hfalling.imp le_of_lt)
  intro a b ha hb hle hge
  have hmem : a ∈ ys := hperm.subset ((ranked_perm key xs).subset ha)
  exact List.inj_on_of_nodup_map hnodup hmem hb (le_antisymm hge hle)

/-- What the beginning of a sorted list leaves out is no better. -/
theorem key_le_of_mem_take {xs : List α} (hsorted : xs.Pairwise fun a b => key b ≤ key a)
    {n : ℕ} {a b : α} (ha : a ∈ xs.take n) (hb : b ∈ xs.drop n) : key b ≤ key a := by
  rw [← List.take_append_drop n xs, List.pairwise_append] at hsorted
  exact hsorted.2.2 a ha b hb

end Karsa
