import Mathlib.Algebra.Order.Ring.Int
import Mathlib.Data.List.Chain

/-!
# Foundations - Streaks

A log of numbered entries is read from its newest entry back.  If each entry's number is one
more than that of the entry before it, the entries stand for all numbers from the oldest to the
newest.

Main results:

- Theorem `Counts.eq_add`: the newest number in terms of the oldest and the length.
- Theorem `Counts.exists_mem`: every number between them is that of an entry.
- Theorem `counts_takeWhile`: the trailing entries with a property count if neighbours with the
  property do.
-/

namespace Karsa

variable {α : Type*} {number : α → ℤ}

/-- From the newest entry on, every entry's number is one more than the next one's. -/
def Counts (number : α → ℤ) (entries : List α) : Prop :=
  entries.IsChain fun newer older => number newer = number older + 1

/-- The newest number in terms of the oldest one. -/
theorem Counts.eq_add {newest oldest : α} {rest : List α}
    (h : Counts number (newest :: rest)) (hlast : (newest :: rest).getLast? = some oldest) :
    number newest = number oldest + rest.length := by
  induction rest generalizing newest with
  | nil =>
      have heq : newest = oldest := Option.some.inj hlast
      simp [heq]
  | cons next rest ih =>
      rcases List.isChain_cons_cons.mp h with ⟨hstep, hrest⟩
      rw [List.getLast?_cons_cons] at hlast
      rw [hstep, ih hrest hlast, List.length_cons]
      push_cast
      omega

/-- Every number between the oldest and the newest is that of an entry. -/
theorem Counts.exists_mem {newest oldest : α} {rest : List α}
    (h : Counts number (newest :: rest)) (hlast : (newest :: rest).getLast? = some oldest)
    {j : ℤ} (hlow : number oldest ≤ j) (hhigh : j ≤ number newest) :
    ∃ e ∈ newest :: rest, number e = j := by
  induction rest generalizing newest with
  | nil =>
      have heq : newest = oldest := Option.some.inj hlast
      rw [← heq] at hlow
      exact ⟨newest, List.mem_cons_self, le_antisymm hlow hhigh⟩
  | cons next rest ih =>
      rcases List.isChain_cons_cons.mp h with ⟨hstep, hrest⟩
      rw [List.getLast?_cons_cons] at hlast
      rcases hhigh.eq_or_lt with heq | hlt
      · exact ⟨newest, List.mem_cons_self, heq.symm⟩
      · rcases ih hrest hlast (by omega) with ⟨e, he, hnumber⟩
        exact ⟨e, List.mem_cons_of_mem newest he, hnumber⟩

/-- Entries in the order of their appearance, of which two neighbours with a property count. -/
def LinkedBy (number : α → ℤ) (p : α → Bool) (entries : List α) : Prop :=
  entries.IsChain fun older newer =>
    p older = true → p newer = true → number newer = number older + 1

/-- The trailing entries with the property count. -/
theorem counts_takeWhile {p : α → Bool} {entries : List α} (h : LinkedBy number p entries) :
    Counts number (entries.reverse.takeWhile p) := by
  have hreverse : entries.reverse.IsChain fun newer older =>
      p older = true → p newer = true → number newer = number older + 1 :=
    List.isChain_reverse.mpr h
  have hall : ∀ e ∈ entries.reverse.takeWhile p, p e = true :=
    List.all_eq_true.mp (List.all_takeWhile ..)
  have hprefix := hreverse.prefix (List.takeWhile_prefix p)
  exact hprefix.imp_of_mem_imp fun newer older hnewer holder hstep =>
    hstep (hall older holder) (hall newer hnewer)

end Karsa
