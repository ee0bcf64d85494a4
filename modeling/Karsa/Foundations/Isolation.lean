import Karsa.Foundations.Runs

/-!
# Foundations - Isolated parts of a state

A component answers its inputs one after the other.  A part of its state is out of bounds:
no input may change it and no answer may depend on it.  Over a sequence of inputs this
compares whole runs, from any two states that differ in that part only; it comes down to the
single inputs, provided the two parts of the state are independent of each other.

Main results:

- Theorem `isolated_of_confined`: confined inputs are isolated in any order.
- Theorem `isolated_iff`: a sequence is isolated exactly if none of its inputs leaks.
-/

namespace Karsa
namespace Isolation

universe u v w

variable {σ : Type u} {ι ρ : Type v} {π η : Type w}

/-! ## Components -/

/-- The state behind an input. -/
def next (act : σ → ι → σ × ρ) (s : σ) (input : ι) : σ :=
  (act s input).1

/-- What the inputs of a run are answered. -/
def answers (act : σ → ι → σ × ρ) : σ → List ι → List ρ
  | _, [] => []
  | s, input :: rest => (act s input).2 :: answers act (next act s input) rest

@[simp] theorem answers_nil (act : σ → ι → σ × ρ) (s : σ) : answers act s [] = [] := rfl

@[simp] theorem answers_cons (act : σ → ι → σ × ρ) (s : σ) (input : ι) (rest : List ι) :
    answers act s (input :: rest) = (act s input).2 :: answers act (next act s input) rest :=
  rfl

@[simp] theorem length_answers (act : σ → ι → σ × ρ) (s : σ) (inputs : List ι) :
    (answers act s inputs).length = inputs.length := by
  induction inputs generalizing s with
  | nil => rfl
  | cons input rest ih => simp [ih]

/-- The answers of a run in two pieces. -/
theorem answers_append (act : σ → ι → σ × ρ) (s : σ) (front back : List ι) :
    answers act s (front ++ back) =
      answers act s front ++ answers act (run (next act) s front) back := by
  induction front generalizing s with
  | nil => rfl
  | cons input rest ih => simp [ih]

/-- Two independent parts of a state: any two of them occur together. -/
structure Split (σ : Type u) (π η : Type w) where
  visible : σ → π
  secret : σ → η
  join : σ → η → σ
  visible_join : ∀ s h, visible (join s h) = visible s
  secret_join : ∀ s h, secret (join s h) = h

variable (parts : Split σ π η) (act : σ → ι → σ × ρ)

/-- No state on the way changes the secret part, and runs from states that look alike look
alike. -/
structure Isolated (inputs : List ι) : Prop where
  untouched : ∀ s n, parts.secret (stateAt (next act) s inputs n) = parts.secret s
  blind : ∀ s s', parts.visible s = parts.visible s' →
    answers act s inputs = answers act s' inputs ∧
      parts.visible (run (next act) s inputs) = parts.visible (run (next act) s' inputs)

/-- An input that neither changes nor shows the secret part. -/
structure Confined (input : ι) : Prop where
  untouched : ∀ s, parts.secret (next act s input) = parts.secret s
  blind : ∀ s s', parts.visible s = parts.visible s' →
    (act s input).2 = (act s' input).2 ∧
      parts.visible (next act s input) = parts.visible (next act s' input)

/-- Whatever is visible, there are secrets which the input changes or shows. -/
def Leaks (input : ι) : Prop :=
  ∀ s, ∃ h h', ∀ t t', parts.visible t = parts.visible s → parts.visible t' = parts.visible s →
    parts.secret t = h → parts.secret t' = h' →
      parts.secret (next act t input) ≠ h ∨ (act t input).2 ≠ (act t' input).2

variable {parts act}

/-! ## From one input to a run -/

/-- Confined inputs leave the secret part of every state on the way. -/
theorem secret_run {inputs : List ι} (h : ∀ input ∈ inputs, Confined parts act input) (s : σ) :
    parts.secret (run (next act) s inputs) = parts.secret s := by
  induction inputs generalizing s with
  | nil => rfl
  | cons input rest ih =>
      rw [run_cons, ih fun other hother => h other (List.mem_cons_of_mem input hother)]
      exact (h input List.mem_cons_self).untouched s

/-- Confined inputs do the same in states that look alike. -/
theorem blind_run {inputs : List ι} (h : ∀ input ∈ inputs, Confined parts act input)
    {s s' : σ} (hs : parts.visible s = parts.visible s') :
    answers act s inputs = answers act s' inputs ∧
      parts.visible (run (next act) s inputs) = parts.visible (run (next act) s' inputs) := by
  induction inputs generalizing s s' with
  | nil => exact ⟨rfl, hs⟩
  | cons input rest ih =>
      rcases (h input List.mem_cons_self).blind s s' hs with ⟨hanswer, hnext⟩
      rcases ih (fun other hother => h other (List.mem_cons_of_mem input hother)) hnext with
        ⟨hanswers, hrun⟩
      refine ⟨?_, hrun⟩
      rw [answers_cons, answers_cons, hanswer, hanswers]

/-- Confined inputs are isolated in any order. -/
theorem isolated_of_confined {inputs : List ι}
    (h : ∀ input ∈ inputs, Confined parts act input) : Isolated parts act inputs where
  untouched s _ := secret_run (fun input hinput => h input (List.mem_of_mem_take hinput)) s
  blind _ _ hs := blind_run h hs

/-- An input that leaks behind confined ones spoils the sequence. -/
theorem not_isolated_of_leaks [Nonempty σ] {front back : List ι} {input : ι}
    (hfront : ∀ other ∈ front, Confined parts act other) (hleaks : Leaks parts act input) :
    ¬ Isolated parts act (front ++ input :: back) := by
  intro h
  obtain ⟨s⟩ := ‹Nonempty σ›
  obtain ⟨secret, secret', hpair⟩ := hleaks (run (next act) s front)
  -- start with these secrets: the confined inputs carry them to the one that leaks
  have hlooks : ∀ k, parts.visible (run (next act) (parts.join s k) front) =
      parts.visible (run (next act) s front) :=
    fun k => (blind_run hfront (parts.visible_join s k)).2
  have hkeeps : ∀ k, parts.secret (run (next act) (parts.join s k) front) = k :=
    fun k => (secret_run hfront (parts.join s k)).trans (parts.secret_join s k)
  rcases hpair _ _ (hlooks secret) (hlooks secret') (hkeeps secret) (hkeeps secret') with
    hchanged | hshown
  · have hkept := h.untouched (parts.join s secret) (front.length + 1)
    have hstate : stateAt (next act) (parts.join s secret) (front ++ input :: back)
        (front.length + 1) = next act (run (next act) (parts.join s secret) front) input := by
      have htake : (front ++ input :: back).take (front.length + 1) = front ++ [input] := by
        rw [List.append_cons, List.take_left' (by simp)]
      rw [stateAt, htake, run, List.foldl_append]
      rfl
    rw [hstate, parts.secret_join] at hkept
    exact hchanged hkept
  · have hsame := (h.blind (parts.join s secret) (parts.join s secret')
      ((parts.visible_join s secret).trans (parts.visible_join s secret').symm)).1
    rw [answers_append, answers_append] at hsame
    have hback := (List.append_inj hsame (by simp)).2
    rw [answers_cons, answers_cons] at hback
    exact hshown (List.cons.inj hback).1

/-- Where every input is confined or leaks, the isolated sequences are those in which none
leaks. -/
theorem isolated_iff [Nonempty σ] {leaks : ι → Bool}
    (hconfined : ∀ input, leaks input = false → Confined parts act input)
    (hleaks : ∀ input, leaks input = true → Leaks parts act input) (inputs : List ι) :
    Isolated parts act inputs ↔ ∀ input ∈ inputs, leaks input = false := by
  constructor
  · intro h
    cases hfind : inputs.find? leaks with
    | none =>
        intro input hinput
        exact Bool.eq_false_iff.mpr (List.find?_eq_none.mp hfind input hinput)
    | some input =>
        obtain ⟨hinput, front, back, rfl, hfront⟩ := List.find?_eq_some_iff_append.mp hfind
        have hbefore : ∀ other ∈ front, Confined parts act other := by
          intro other hother
          exact hconfined other (by simpa using hfront other hother)
        exact absurd h (not_isolated_of_leaks hbefore (hleaks input hinput))
  · intro h
    exact isolated_of_confined fun input hinput => hconfined input (h input hinput)

end Isolation
end Karsa
