import Mathlib.Order.Basic
import Mathlib.Order.Nat

/-!
# Foundations - While loops

A `while` loop runs its body as long as its guard holds.  The state after at most `n` passes
is a total function, and a loop halts when the guard fails after some number of passes.

Main results:

- Theorem `halts_of_advances`: a loop whose index grows on every pass halts.
- Theorem `not_halts_of_fixed`: a loop that comes to a pass without effect does not.
- Theorem `passes_related`: two loops run side by side.
- Theorem `passes_of_halted`: passes behind the end of the loop change nothing.
-/

namespace Karsa

universe u

section Loops

variable {σ : Type u} (guard : σ → Prop) [DecidablePred guard] (body : σ → σ)

/-- State after at most `n` passes. -/
def passes : ℕ → σ → σ
  | 0, s => s
  | n + 1, s => if guard s then passes n (body s) else s

/-- The guard fails after some number of passes. -/
def Halts (s : σ) : Prop :=
  ∃ n, ¬ guard (passes guard body n s)

/-- Every pass that the loop makes starts in a state with the property. -/
def EveryPass (property : σ → Prop) (s : σ) : Prop :=
  ∀ n, guard (passes guard body n s) → property (passes guard body n s)

variable {guard body} {s : σ}

@[simp] theorem passes_zero (s : σ) : passes guard body 0 s = s := rfl

/-- The first pass runs the body. -/
theorem passes_succ_of_guard (h : guard s) (n : ℕ) :
    passes guard body (n + 1) s = passes guard body n (body s) :=
  if_pos h

/-- A loop whose guard fails is left at once. -/
theorem passes_of_not_guard (h : ¬ guard s) (n : ℕ) : passes guard body n s = s := by
  cases n with
  | zero => rfl
  | succ n => exact if_neg h

/-- The passes one after the other. -/
theorem passes_add (m n : ℕ) (s : σ) :
    passes guard body (m + n) s = passes guard body n (passes guard body m s) := by
  induction m generalizing s with
  | zero => rw [Nat.zero_add, passes_zero]
  | succ m ih =>
      rw [Nat.add_right_comm]
      by_cases h : guard s
      · rw [passes_succ_of_guard h, passes_succ_of_guard h, ih]
      · rw [passes_of_not_guard h, passes_of_not_guard h, passes_of_not_guard h]

/-- One more pass at the end. -/
theorem passes_succ' (n : ℕ) (s : σ) :
    passes guard body (n + 1) s =
      if guard (passes guard body n s) then body (passes guard body n s)
      else passes guard body n s := by
  rw [passes_add]
  rfl

/-- Passes behind the end of the loop change nothing. -/
theorem passes_of_halted {m n : ℕ} (h : ¬ guard (passes guard body m s)) (hmn : m ≤ n) :
    passes guard body n s = passes guard body m s := by
  rw [← Nat.add_sub_cancel' hmn, passes_add, passes_of_not_guard h]

/-- What the body keeps holds after any number of passes. -/
theorem passes_invariant {inv : σ → Prop} (hbody : ∀ s, guard s → inv s → inv (body s))
    (hinit : inv s) (n : ℕ) : inv (passes guard body n s) := by
  induction n with
  | zero => exact hinit
  | succ n ih =>
      rw [passes_succ']
      split_ifs with h
      · exact hbody _ h ih
      · exact ih

/-- Two loops stay related if the relation survives a pass on either side, where a loop that
is left stays where it is. -/
theorem passes_related {τ : Type*} {guard' : τ → Prop} [DecidablePred guard'] {body' : τ → τ}
    {rel : σ → τ → Prop}
    (hstep : ∀ s t, rel s t →
      rel (if guard s then body s else s) (if guard' t then body' t else t))
    {t : τ} (hinit : rel s t) (n : ℕ) :
    rel (passes guard body n s) (passes guard' body' n t) := by
  induction n with
  | zero => exact hinit
  | succ n ih =>
      rw [passes_succ', passes_succ']
      exact hstep _ _ ih

/-- A pass without effect is repeated for ever. -/
theorem not_halts_of_fixed (hguard : guard s) (hfixed : body s = s) :
    ¬ Halts guard body s := by
  rintro ⟨n, hn⟩
  have hsame : ∀ m, passes guard body m s = s := by
    intro m
    induction m with
    | zero => rfl
    | succ m ih => rw [passes_succ_of_guard hguard, hfixed, ih]
  rw [hsame] at hn
  exact hn hguard

/-- A loop halts from where it is after some passes exactly where it halts at all. -/
theorem halts_passes_iff (m : ℕ) :
    Halts guard body (passes guard body m s) ↔ Halts guard body s := by
  constructor
  · rintro ⟨n, hn⟩
    exact ⟨m + n, by rwa [passes_add]⟩
  · rintro ⟨n, hn⟩
    refine ⟨n, ?_⟩
    rw [← passes_add, Nat.add_comm, passes_add, passes_of_not_guard hn]
    exact hn

/-- An index that grows on every pass has grown by the number of passes. -/
theorem le_index_or_halted {index : σ → ℕ}
    (hadvances : EveryPass guard body (fun t => index t < index (body t)) s) (n : ℕ) :
    index s + n ≤ index (passes guard body n s) ∨ ¬ guard (passes guard body n s) := by
  induction n with
  | zero => exact Or.inl (le_refl _)
  | succ n ih =>
      rw [passes_succ']
      split_ifs with h
      · rcases ih with hle | hleft
        · have hlt := hadvances n h
          exact Or.inl (by omega)
        · exact absurd h hleft
      · exact Or.inr h

/-- A loop whose index grows on every pass, and which is left at a bound, halts by then. -/
theorem halted_of_advances {index : σ → ℕ} {bound : ℕ} (hbound : ∀ t, guard t → index t < bound)
    (hadvances : EveryPass guard body (fun t => index t < index (body t)) s) :
    ¬ guard (passes guard body bound s) := by
  intro hguard
  rcases le_index_or_halted hadvances bound with hle | hleft
  · have hlt := hbound _ hguard
    omega
  · exact hleft hguard

/-- A loop whose index grows on every pass, and which is left at a bound, halts. -/
theorem halts_of_advances {index : σ → ℕ} {bound : ℕ} (hbound : ∀ t, guard t → index t < bound)
    (hadvances : EveryPass guard body (fun t => index t < index (body t)) s) :
    Halts guard body s :=
  ⟨bound, halted_of_advances hbound hadvances⟩

/-- Conditions that agree in every state of the loop agree on its passes. -/
theorem everyPass_congr {p q : σ → Prop} (h : ∀ t, guard t → (p t ↔ q t)) :
    EveryPass guard body p s ↔ EveryPass guard body q s :=
  forall_congr' fun _ => forall_congr' fun hguard => h _ hguard

end Loops
end Karsa
