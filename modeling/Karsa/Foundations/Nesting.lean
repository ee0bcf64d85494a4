import Mathlib.Data.List.Induction
import Mathlib.Data.List.Nodup

/-!
# Foundations - Nested marks

A sequence of opening and closing marks nests if every mark closes the name that was opened last,
and no name is opened inside itself.

Main results:

- Theorem `nest_append`: a sequence is nested in parts.
- Theorem `nest_openings`, `nest_closings`: open names are opened, and closed, all at once.
- Theorem `foldl_track`: a list from which closing marks erase the first entry of their name
  holds the open names of a nested sequence.
-/

namespace Karsa

universe u

variable {α : Type u} [DecidableEq α]

/-- An opening or a closing mark. -/
inductive Mark (α : Type u) where
  | opening (name : α)
  | closing (name : α)
deriving Repr, DecidableEq

namespace Mark

/-- The open names behind a nested sequence, the outermost first. -/
def nest : List α → List (Mark α) → Option (List α)
  | names, [] => some names
  | names, opening n :: rest => if n ∈ names then none else nest (names ++ [n]) rest
  | names, closing n :: rest => if names.getLast? = some n then nest names.dropLast rest else none

/-- A sequence is nested in parts. -/
theorem nest_append (names : List α) (a b : List (Mark α)) :
    nest names (a ++ b) = (nest names a).bind fun names => nest names b := by
  induction a generalizing names with
  | nil => rfl
  | cons mark rest ih =>
      cases mark with
      | opening n =>
          rw [List.cons_append, nest, nest]
          split_ifs
          · rfl
          · exact ih (names ++ [n])
      | closing n =>
          rw [List.cons_append, nest, nest]
          split_ifs
          · exact ih names.dropLast
          · rfl

/-- Different names are opened one inside the other. -/
theorem nest_openings {outer names : List α} (h : (outer ++ names).Nodup) :
    nest outer (names.map opening) = some (outer ++ names) := by
  induction names generalizing outer with
  | nil => rw [List.map_nil, nest, List.append_nil]
  | cons n rest ih =>
      have hout : n ∉ outer := fun hn =>
        (List.nodup_append.mp h).2.2 n hn n List.mem_cons_self rfl
      rw [List.map_cons, nest, if_neg hout, ih]
      · rw [List.append_assoc, List.singleton_append]
      · rwa [List.append_assoc, List.singleton_append]

/-- Open names are closed from the innermost one on. -/
theorem nest_closings (names : List α) : nest names (names.reverse.map closing) = some [] := by
  induction names using List.reverseRecOn with
  | nil => rfl
  | append_singleton names n ih =>
      rw [List.reverse_append, List.reverse_singleton, List.singleton_append, List.map_cons, nest,
        List.getLast?_concat, if_pos rfl, List.dropLast_concat, ih]

/-- No name is open twice. -/
theorem nodup_nest {names opened : List α} {marks : List (Mark α)} (hnodup : names.Nodup)
    (h : nest names marks = some opened) : opened.Nodup := by
  induction marks generalizing names with
  | nil =>
      rw [nest, Option.some_inj] at h
      rwa [← h]
  | cons mark rest ih =>
      cases mark with
      | opening n =>
          rw [nest] at h
          split_ifs at h with hn
          refine ih ?_ h
          rw [List.nodup_append]
          refine ⟨hnodup, List.nodup_singleton n, fun a ha b hb heq => hn ?_⟩
          rw [← List.mem_singleton.mp hb, ← heq]
          exact ha
      | closing n =>
          rw [nest] at h
          split_ifs at h
          exact ih (hnodup.sublist (List.dropLast_sublist names)) h

/-- Append an opened name, erase the first entry of a closed one. -/
def track (names : List α) : Mark α → List α
  | opening n => names ++ [n]
  | closing n => names.erase n

/-- The last of different names is the first entry of its name. -/
theorem erase_getLast {names : List α} {n : α} (hnodup : names.Nodup)
    (hlast : names.getLast? = some n) : names.erase n = names.dropLast := by
  rcases List.eq_nil_or_concat names with rfl | ⟨init, last, rfl⟩
  · simp at hlast
  · rw [List.concat_eq_append, List.getLast?_concat, Option.some_inj] at *
    subst hlast
    have hinit : last ∉ init := fun hmem =>
      (List.nodup_append.mp hnodup).2.2 last hmem last List.mem_cons_self rfl
    rw [List.erase_append_right _ hinit, List.erase_cons_head, List.append_nil,
      List.dropLast_concat]

/-- Such a list holds the open names of a nested sequence. -/
theorem foldl_track {names opened : List α} {marks : List (Mark α)} (hnodup : names.Nodup)
    (h : nest names marks = some opened) : marks.foldl track names = opened := by
  induction marks generalizing names with
  | nil =>
      rw [nest, Option.some_inj] at h
      exact h
  | cons mark rest ih =>
      have hfirst : nest names [mark] = some (track names mark) := by
        cases mark with
        | opening n =>
            rw [nest] at h
            split_ifs at h with hn
            rw [nest, if_neg hn, nest, track]
        | closing n =>
            rw [nest] at h
            split_ifs at h with hlast
            rw [nest, if_pos hlast, nest, track, erase_getLast hnodup hlast]
      have hsplit := nest_append names [mark] rest
      rw [List.singleton_append, h, hfirst, Option.bind_some] at hsplit
      exact ih (nodup_nest hnodup hfirst) hsplit.symm

end Mark

end Karsa
