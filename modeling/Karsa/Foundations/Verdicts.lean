import Mathlib.Data.List.DropRight
import Mathlib.Data.List.Infix

/-!
# Foundations - Flags and rows over a log

Some entries of a log decide a flag, the others leave it.  Some entries are hits; hits that
follow each other without a gap make a row.

Main results:

- Theorem `flag_eq_some_iff`: a flag holds the verdict of the last entry that decided it.
- Theorem `inRow_concat`: the length of the newest row, one entry at a time.
- Theorem `everInRow_iff`: the newest row was once of some length if that many hits follow
  each other.
-/

namespace Karsa

universe u v

variable {α : Type u}

/-! ## Flags -/

/-- The verdict of the last entry that decides; whether an entry does may depend on the entries
before it. -/
def LastVerdict {β : Type v} (decides : List α → α → Option β) (log : List α) (b : β) : Prop :=
  ∃ before e after, log = before ++ e :: after ∧ decides before e = some b ∧
    ∀ mid e' rest, after = mid ++ e' :: rest → decides (before ++ e :: mid) e' = none

/-- The last verdict, one entry at a time. -/
theorem lastVerdict_concat {β : Type v} {decides : List α → α → Option β} {log : List α} {e : α}
    {b : β} :
    LastVerdict decides (log ++ [e]) b ↔
      decides log e = some b ∨ (decides log e = none ∧ LastVerdict decides log b) := by
  constructor
  · rintro ⟨before, x, after, hlog, hverdict, hrest⟩
    rcases List.eq_nil_or_concat after with rfl | ⟨init, last, rfl⟩
    · rcases List.append_inj' hlog rfl with ⟨rfl, hlast⟩
      rw [← List.singleton_inj.mp hlast] at hverdict
      exact Or.inl hverdict
    · rw [List.concat_eq_append] at hlog hrest
      rw [← List.cons_append, ← List.append_assoc] at hlog
      rcases List.append_inj' hlog rfl with ⟨rfl, hlast⟩
      have he : e = last := List.singleton_inj.mp hlast
      subst he
      refine Or.inr ⟨hrest init e [] rfl, before, x, init, rfl, hverdict, fun mid e' rest h => ?_⟩
      exact hrest mid e' (rest ++ [e]) (by rw [h, List.append_assoc, List.cons_append])
  · rintro (hverdict | ⟨hnone, before, x, after, rfl, hverdict, hrest⟩)
    · exact ⟨log, e, [], rfl, hverdict, fun mid e' rest h => by simp at h⟩
    · refine ⟨before, x, after ++ [e], by rw [List.append_assoc, List.cons_append], hverdict, ?_⟩
      intro mid e' rest h
      rcases List.eq_nil_or_concat rest with rfl | ⟨init, last, rfl⟩
      · rcases List.append_inj' h rfl with ⟨rfl, hlast⟩
        rw [← List.singleton_inj.mp hlast]
        exact hnone
      · rw [List.concat_eq_append, ← List.cons_append, ← List.append_assoc] at h
        exact hrest mid e' init (List.append_inj' h rfl).1

/-- Nothing has been decided. -/
def Undecided {β : Type v} (decides : List α → α → Option β) (log : List α) : Prop :=
  ∀ before e after, log = before ++ e :: after → decides before e = none

theorem undecided_concat {β : Type v} {decides : List α → α → Option β} {log : List α} {e : α} :
    Undecided decides (log ++ [e]) ↔ decides log e = none ∧ Undecided decides log := by
  constructor
  · intro h
    refine ⟨h log e [] rfl, fun before e' after hsplit => ?_⟩
    exact h before e' (after ++ [e]) (by rw [hsplit, List.append_assoc, List.cons_append])
  · rintro ⟨hlast, hold⟩ before e' after hsplit
    rcases List.eq_nil_or_concat after with rfl | ⟨init, last, rfl⟩
    · rcases List.append_inj' hsplit rfl with ⟨rfl, heq⟩
      rw [← List.singleton_inj.mp heq]
      exact hlast
    · rw [List.concat_eq_append, ← List.cons_append, ← List.append_assoc] at hsplit
      exact hold before e' init (List.append_inj' hsplit rfl).1

/-- A flag that every deciding entry sets, as long as all is well, holds the last verdict, or what
it held at first. -/
theorem flag_eq_some_iff {β : Type v} (decides : List α → α → Option β) (flag : List α → Option β)
    (ok : List α → Prop) (hok : ∀ log e, ok (log ++ [e]) → ok log)
    (hstep : ∀ log e, ok (log ++ [e]) → flag (log ++ [e]) = (decides log e).or (flag log))
    {log : List α} (h : ok log) (b : β) :
    flag log = some b ↔ LastVerdict decides log b ∨ (flag [] = some b ∧ Undecided decides log) := by
  induction log using List.reverseRecOn with
  | nil =>
      constructor
      · exact fun h => Or.inr ⟨h, fun before e after hsplit => by simp at hsplit⟩
      · rintro (⟨before, e, after, hsplit, -⟩ | ⟨h, -⟩)
        · simp at hsplit
        · exact h
  | append_singleton log e ih =>
      have hbefore := ih (hok log e h)
      rw [hstep log e h, lastVerdict_concat, undecided_concat]
      cases hdecides : decides log e with
      | none => simp [hbefore]
      | some c => simp

/-! ## Rows -/

/-- The length of the newest row of hits. -/
def inRow (hit : α → Bool) (log : List α) : ℕ :=
  (log.rtakeWhile hit).length

@[simp] theorem inRow_nil (hit : α → Bool) : inRow hit [] = 0 := by
  rw [inRow, List.rtakeWhile_nil, List.length_nil]

/-- The newest row, one entry at a time. -/
theorem inRow_concat (hit : α → Bool) (log : List α) (e : α) :
    inRow hit (log ++ [e]) = if hit e then inRow hit log + 1 else 0 := by
  rw [inRow, inRow, List.rtakeWhile_concat]
  split_ifs
  · rw [List.length_append, List.length_singleton]
  · rfl

/-- The newest row is as long as the hits at the end. -/
theorem le_inRow_iff {hit : α → Bool} {log : List α} {n : ℕ} :
    n ≤ inRow hit log ↔
      ∃ before row, log = before ++ row ∧ row.length = n ∧ ∀ e ∈ row, hit e = true := by
  constructor
  · intro h
    have hsuffix := List.rtakeWhile_suffix (p := hit) (l := log)
    refine ⟨log.take (log.length - n), log.drop (log.length - n), ?_, ?_, fun e he => ?_⟩
    · rw [List.take_append_drop]
    · have hle : inRow hit log ≤ log.length := hsuffix.length_le
      rw [List.length_drop]
      omega
    · have hsub : log.drop (log.length - n) <:+ log.rtakeWhile hit := by
        refine List.suffix_of_suffix_length_le (List.drop_suffix _ _) hsuffix ?_
        rw [List.length_drop]
        exact le_trans (by omega) h
      exact List.mem_rtakeWhile_imp (hsub.subset he)
  · rintro ⟨before, row, rfl, hlength, hall⟩
    have hrow : row <:+ (before ++ row).rtakeWhile hit := by
      rw [List.rtakeWhile, List.reverse_append, List.takeWhile_append_of_pos, List.reverse_append,
        List.reverse_reverse]
      · exact List.suffix_append _ _
      · exact fun e he => hall e (List.mem_reverse.mp he)
    rw [← hlength]
    exact hrow.length_le

/-- The newest row was once at least as long. -/
def EverInRow (hit : α → Bool) (n : ℕ) (log : List α) : Prop :=
  ∃ before after, log = before ++ after ∧ n ≤ inRow hit before

theorem everInRow_concat {hit : α → Bool} {n : ℕ} {log : List α} {e : α} :
    EverInRow hit n (log ++ [e]) ↔ EverInRow hit n log ∨ n ≤ inRow hit (log ++ [e]) := by
  constructor
  · rintro ⟨before, after, hlog, h⟩
    rcases List.eq_nil_or_concat after with rfl | ⟨init, last, rfl⟩
    · rw [List.append_nil] at hlog
      exact Or.inr (hlog ▸ h)
    · rw [List.concat_eq_append, ← List.append_assoc] at hlog
      exact Or.inl ⟨before, init, (List.append_inj' hlog rfl).1, h⟩
  · rintro (⟨before, after, rfl, h⟩ | h)
    · exact ⟨before, after ++ [e], by rw [List.append_assoc], h⟩
    · exact ⟨log ++ [e], [], by rw [List.append_nil], h⟩

/-- The newest row was once of some length if that many hits follow each other. -/
theorem everInRow_iff {hit : α → Bool} {log : List α} {n : ℕ} :
    EverInRow hit n log ↔
      ∃ before row after, log = before ++ row ++ after ∧ row.length = n ∧
        ∀ e ∈ row, hit e = true := by
  constructor
  · rintro ⟨before, after, rfl, h⟩
    rcases le_inRow_iff.mp h with ⟨older, row, rfl, hlength, hall⟩
    exact ⟨older, row, after, rfl, hlength, hall⟩
  · rintro ⟨before, row, after, rfl, hlength, hall⟩
    exact ⟨before ++ row, after, rfl, le_inRow_iff.mpr ⟨before, row, rfl, hlength, hall⟩⟩

end Karsa
