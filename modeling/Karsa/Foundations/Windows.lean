import Mathlib.Data.List.DropRight
import Mathlib.Order.Lattice

/-!
# Foundations - Sliding windows

A log grows at its end and is cut at its front, to a number of entries or to those behind a
time.  Cutting it behind every entry leaves what one cut at the end would leave.

Main results:

- Theorem `rtake_concat_rtake`: the last entries of a log, kept one entry at a time.
- Theorem `dropWhile_lt_eq_filter`: dropping old entries from the front leaves the recent ones.
- Theorem `slide_filter`: the recent entries of a log, kept one entry at a time.
-/

namespace Karsa

universe u v

variable {α : Type u}

/-! ## A number of entries -/

/-- A cut before an entry is forgotten by the cut behind it. -/
theorem rtake_concat_rtake (n : ℕ) (log : List α) (item : α) :
    (log.rtake n ++ [item]).rtake n = (log ++ [item]).rtake n := by
  cases n with
  | zero => simp
  | succ n =>
      rw [List.rtake_concat_succ, List.rtake_concat_succ, List.rtake_eq_reverse_take_reverse,
        List.rtake_eq_reverse_take_reverse, List.rtake_eq_reverse_take_reverse,
        List.reverse_reverse, List.take_take, Nat.min_eq_left (Nat.le_succ n)]

/-- A cut log is no longer than the cut. -/
theorem length_rtake_le (n : ℕ) (log : List α) : (log.rtake n).length ≤ n := by
  rw [List.rtake, List.length_drop]
  omega

/-! ## The entries behind a time -/

variable {T : Type v} [LinearOrder T] {stamp : α → T}

/-- In a log in the order of time, dropping old entries from the front leaves the recent ones. -/
theorem dropWhile_lt_eq_filter {log : List α} (h : log.Pairwise fun a b => stamp a ≤ stamp b)
    (cutoff : T) :
    log.dropWhile (fun a => decide (stamp a < cutoff)) =
      log.filter fun a => decide (cutoff ≤ stamp a) := by
  induction log with
  | nil => rfl
  | cons a rest ih =>
      rw [List.pairwise_cons] at h
      by_cases hold : stamp a < cutoff
      · have hcut : ¬ cutoff ≤ stamp a := not_le.mpr hold
        rw [List.dropWhile_cons_of_pos (by simpa using hold), ih h.2,
          List.filter_cons_of_neg (by simpa using hcut)]
      · rw [List.dropWhile_cons_of_neg (by simpa using hold)]
        refine (List.filter_eq_self.mpr ?_).symm
        intro b hb
        have hab : stamp a ≤ stamp b := by
          rcases List.mem_cons.mp hb with rfl | hrest
          · exact le_refl _
          · exact h.1 b hrest
        exact decide_eq_true ((not_lt.mp hold).trans hab)

/-- Append an entry, then drop the old ones from the front. -/
def slide (stamp : α → T) (cutoff : T) (window : List α) (item : α) : List α :=
  (window ++ [item]).dropWhile fun a => decide (stamp a < cutoff)

/-- The recent entries of a log, kept one entry at a time: entries that an earlier cut has
dropped are older than any later cut. -/
theorem slide_filter {log : List α} {item : α} {old cutoff : T}
    (h : (log ++ [item]).Pairwise fun a b => stamp a ≤ stamp b) (hcut : old ≤ cutoff) :
    slide stamp cutoff (log.filter fun a => decide (old ≤ stamp a)) item =
      (log ++ [item]).filter fun a => decide (cutoff ≤ stamp a) := by
  have hsub : ((log.filter fun a => decide (old ≤ stamp a)) ++ [item]).Pairwise
      fun a b => stamp a ≤ stamp b :=
    h.sublist (List.filter_sublist.append_right [item])
  rw [slide, dropWhile_lt_eq_filter hsub, List.filter_append, List.filter_append,
    List.filter_filter]
  congr 1
  apply List.filter_congr
  intro a _
  by_cases hnew : cutoff ≤ stamp a
  · simp [hnew, hcut.trans hnew]
  · simp [hnew]

end Karsa
