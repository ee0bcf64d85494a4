import Mathlib.Data.List.Sort
import Mathlib.Order.Lattice

/-!
# Foundations - Sorted queries with a limit

A query that selects rows, sorts them by a column and stops at a limit may answer in several
ways: rows with one value of the column come in any order.

Main results:

- Theorem `Answers.mem_leading`: fewer rows than the limit stand before an answered row.
- Theorem `Answers.le_of_left_out`: a row that is left out is not before an answered one.
- Theorem `exists_answer`: rows of one value that fit within the limit are answered together.
-/

namespace Karsa

variable {α τ : Type*} [LinearOrder τ] {key : α → τ} {selected rows : List α} {limit : ℕ}

/-- `SELECT ... ORDER BY key ASC LIMIT limit`. -/
def Answers (key : α → τ) (selected : List α) (limit : ℕ) (rows : List α) : Prop :=
  ∃ sorted : List α, sorted.Perm selected ∧ (sorted.Pairwise fun a b => key a ≤ key b) ∧
    rows = sorted.take limit

/-- The rows that come before every row of a value. -/
def earlier (key : α → τ) (selected : List α) (t : τ) : List α :=
  selected.filter fun a => decide (key a < t)

/-- Fewer rows than the limit come before every row of this value. -/
def Leading (key : α → τ) (selected : List α) (limit : ℕ) (a : α) : Prop :=
  a ∈ selected ∧ (earlier key selected (key a)).length < limit

/-- Sort rows by their values. -/
def sortBy (key : α → τ) (list : List α) : List α :=
  list.insertionSort fun a b => key a ≤ key b

theorem perm_sortBy (key : α → τ) (list : List α) : (sortBy key list).Perm list :=
  List.perm_insertionSort _ _

theorem pairwise_sortBy (key : α → τ) (list : List α) :
    (sortBy key list).Pairwise fun a b => key a ≤ key b := by
  have htotal : Std.Total fun a b : α => key a ≤ key b := ⟨fun a b => le_total (key a) (key b)⟩
  have htrans : IsTrans α fun a b => key a ≤ key b := ⟨fun _ _ _ => le_trans⟩
  exact List.pairwise_insertionSort _ _

namespace Answers

/-- Answered rows are selected. -/
theorem subset (h : Answers key selected limit rows) {a : α} (ha : a ∈ rows) : a ∈ selected := by
  rcases h with ⟨sorted, hperm, -, rfl⟩
  exact hperm.mem_iff.mp (List.mem_of_mem_take ha)

/-- An answer is in order. -/
theorem pairwise (h : Answers key selected limit rows) :
    rows.Pairwise fun a b => key a ≤ key b := by
  rcases h with ⟨sorted, -, hsorted, rfl⟩
  exact hsorted.sublist (List.take_sublist limit sorted)

/-- An answer has as many rows as there are, up to the limit. -/
theorem length (h : Answers key selected limit rows) :
    rows.length = min limit selected.length := by
  rcases h with ⟨sorted, hperm, -, rfl⟩
  rw [List.length_take, hperm.length_eq]

/-- A row that is left out is not before an answered one. -/
theorem le_of_left_out (h : Answers key selected limit rows) {x : α} (hx : x ∈ selected)
    (hout : x ∉ rows) : ∀ a ∈ rows, key a ≤ key x := by
  rcases h with ⟨sorted, hperm, hsorted, rfl⟩
  have hsplit := List.take_append_drop limit sorted
  have hdrop : x ∈ sorted.drop limit := by
    have hmem := hperm.mem_iff.mpr hx
    rw [← hsplit, List.mem_append] at hmem
    exact hmem.resolve_left hout
  rw [← hsplit, List.pairwise_append] at hsorted
  intro a ha
  exact hsorted.2.2 a ha x hdrop

/-- Fewer rows than the limit stand before an answered row. -/
theorem mem_leading (h : Answers key selected limit rows) {a : α} (ha : a ∈ rows) :
    Leading key selected limit a := by
  refine ⟨h.subset ha, ?_⟩
  rcases h with ⟨sorted, hperm, hsorted, rfl⟩
  rcases List.append_of_mem ha with ⟨before, after, htake⟩
  have hlist : sorted = before ++ a :: (after ++ sorted.drop limit) := by
    rw [← List.cons_append, ← List.append_assoc, ← htake, List.take_append_drop]
  have hlength : before.length < limit := by
    have hle := List.length_take_le limit sorted
    rw [htake, List.length_append, List.length_cons] at hle
    omega
  have hearlier : (earlier key selected (key a)).length ≤ before.length := by
    have hcount : (earlier key selected (key a)).length =
        (earlier key sorted (key a)).length := (hperm.filter _).length_eq.symm
    have hnone : earlier key (a :: (after ++ sorted.drop limit)) (key a) = [] := by
      apply List.filter_eq_nil_iff.mpr
      intro b hb
      rw [hlist, List.pairwise_append] at hsorted
      rw [decide_eq_true_eq, not_lt]
      rcases List.mem_cons.mp hb with rfl | hb
      · exact le_rfl
      · exact (List.pairwise_cons.mp hsorted.2.1).1 b hb
    rw [hcount, earlier]
    conv_lhs => rw [hlist]
    rw [List.filter_append, ← earlier, ← earlier, hnone, List.append_nil]
    exact List.length_filter_le _ _
  exact hearlier.trans_lt hlength

end Answers

/-- Rows of one value that fit within the limit behind the earlier ones are answered together
with those. -/
theorem exists_answer {block others : List α} {t : τ} (hperm : selected.Perm (block ++ others))
    (hblock : ∀ a ∈ block, key a = t)
    (hfits : (earlier key selected t).length + block.length ≤ limit) :
    ∃ rows, Answers key selected limit rows ∧ (∀ a ∈ block, a ∈ rows) ∧
      ∀ a ∈ selected, key a < t → a ∈ rows := by
  have hnone : earlier key block t = [] := by
    apply List.filter_eq_nil_iff.mpr
    intro a ha
    rw [decide_eq_true_eq, hblock a ha]
    exact lt_irrefl t
  have hearlier : (earlier key selected t).Perm (earlier key others t) := by
    have hfilter := hperm.filter fun a => decide (key a < t)
    rwa [List.filter_append, ← earlier, ← earlier, ← earlier, hnone, List.nil_append] at hfilter
  have hfront : (sortBy key (earlier key others t)).length + block.length ≤ limit := by
    rw [(perm_sortBy key _).length_eq, ← hearlier.length_eq]
    exact hfits
  let late := others.filter fun a => !decide (key a < t)
  let sorted := sortBy key (earlier key others t) ++ (block ++ sortBy key late)
  have hmemFront : ∀ a ∈ sortBy key (earlier key others t), key a < t := by
    intro a ha
    have hmem := (perm_sortBy key _).mem_iff.mp ha
    exact of_decide_eq_true (List.mem_filter.mp hmem).2
  have hmemLate : ∀ a ∈ sortBy key late, t ≤ key a := by
    intro a ha
    have hmem := (perm_sortBy key _).mem_iff.mp ha
    simpa using (List.mem_filter.mp hmem).2
  have htake : ∀ a ∈ sortBy key (earlier key others t) ++ block, a ∈ sorted.take limit := by
    intro a ha
    have hsorted : sorted =
        (sortBy key (earlier key others t) ++ block) ++ sortBy key late :=
      (List.append_assoc _ _ _).symm
    rw [hsorted, List.take_append, List.mem_append]
    left
    rwa [List.take_of_length_le (by rwa [List.length_append])]
  refine ⟨sorted.take limit, ⟨sorted, ?_, ?_, rfl⟩, fun a ha => ?_, fun a ha hlt => ?_⟩
  · have hparts : (earlier key others t ++ late).Perm others := List.filter_append_perm _ _
    calc
      sorted.Perm (earlier key others t ++ (block ++ late)) :=
        (perm_sortBy key _).append ((List.Perm.refl block).append (perm_sortBy key late))
      List.Perm _ (block ++ (earlier key others t ++ late)) := List.perm_append_comm_assoc ..
      List.Perm _ (block ++ others) := hparts.append_left block
      List.Perm _ selected := hperm.symm
  · rw [List.pairwise_append, List.pairwise_append]
    refine ⟨pairwise_sortBy key _, ⟨?_, pairwise_sortBy key late, fun a ha b hb => ?_⟩,
      fun a ha b hb => ?_⟩
    · exact List.pairwise_of_forall_mem_list fun a ha b hb =>
        ((hblock a ha).trans (hblock b hb).symm).le
    · rw [hblock a ha]
      exact hmemLate b hb
    · rcases List.mem_append.mp hb with hb | hb
      · rw [hblock b hb]
        exact (hmemFront a ha).le
      · exact (hmemFront a ha).le.trans (hmemLate b hb)
  · exact htake a (List.mem_append_right _ ha)
  · refine htake a (List.mem_append_left _ ((perm_sortBy key _).mem_iff.mpr ?_))
    exact hearlier.mem_iff.mp (List.mem_filter.mpr ⟨ha, decide_eq_true hlt⟩)

end Karsa
