import Mathlib.Data.List.Basic
import Mathlib.Order.Nat

/-!
# Foundations - Runs whose steps meet a side condition

A run folds a deterministic step function over the list of its inputs; what the
environment answers is part of the input, so one list of inputs is one run.
Some invariants hold only of runs in which every step meets a condition on the
state before it and on its input.  The induction over such runs is done once,
here.

Main results:

- Theorem `invariant_run`: a property kept by every admitted step holds after
  every admitted run.
- Theorem `invariant_iff_admits`: the admitted runs are those that keep the property,
  where every step keeps it exactly under its condition; `invariant_iff_admits_beside` where
  that needs an invariant of all runs, and `invariant_iff_admits_within` where the environment
  has a promise of its own to keep.
- Theorem `relation_run_take`: the same for what holds between neighbours.
- Theorem `Admits.take`: each prefix of an admitted run is admitted, so the
  property holds in every state the run passes through.
- Theorem `Mirror.held_since`: an item of a cached copy was in the source at some moment
  since any refresh.
-/

namespace Karsa

universe u v

variable {σ : Type u} {ι : Type v}

/-- Final state of a run. -/
def run (step : σ → ι → σ) (s : σ) (inputs : List ι) : σ :=
  inputs.foldl step s

/-- Every step of the run meets the condition in the state it starts from. -/
def Admits (step : σ → ι → σ) (cond : σ → ι → Prop) : σ → List ι → Prop
  | _, [] => True
  | s, input :: rest => cond s input ∧ Admits step cond (step s input) rest

instance Admits.decidable (step : σ → ι → σ) (cond : σ → ι → Prop)
    [∀ s, DecidablePred (cond s)] : ∀ s inputs, Decidable (Admits step cond s inputs)
  | _, [] => isTrue trivial
  | s, input :: rest =>
      have := Admits.decidable step cond (step s input) rest
      inferInstanceAs (Decidable (cond s input ∧ Admits step cond (step s input) rest))

@[simp] theorem run_nil (step : σ → ι → σ) (s : σ) : run step s [] = s := rfl

@[simp] theorem run_cons (step : σ → ι → σ) (s : σ) (input : ι) (rest : List ι) :
    run step s (input :: rest) = run step (step s input) rest := rfl

/-- A property kept by every admitted step holds at the end of every admitted run. -/
theorem invariant_run {step : σ → ι → σ} {cond : σ → ι → Prop} {inv : σ → Prop}
    (hstep : ∀ s input, inv s → cond s input → inv (step s input))
    {s : σ} {inputs : List ι} (hinit : inv s)
    (hadmits : Admits step cond s inputs) : inv (run step s inputs) := by
  induction inputs generalizing s with
  | nil => exact hinit
  | cons input rest ih =>
      have hnext : inv (step s input) := hstep s input hinit hadmits.1
      exact ih hnext hadmits.2

/-- Prefixes of an admitted run are admitted. -/
theorem Admits.take {step : σ → ι → σ} {cond : σ → ι → Prop} {s : σ}
    {inputs : List ι} (hadmits : Admits step cond s inputs) (n : Nat) :
    Admits step cond s (inputs.take n) := by
  induction inputs generalizing s n with
  | nil => simpa using hadmits
  | cons input rest ih =>
      cases n with
      | zero => trivial
      | succ n => exact ⟨hadmits.1, ih hadmits.2 n⟩

/-- A run in two parts is admitted when both parts are. -/
theorem admits_append {step : σ → ι → σ} {cond : σ → ι → Prop} {s : σ} {inputs rest : List ι} :
    Admits step cond s (inputs ++ rest) ↔
      Admits step cond s inputs ∧ Admits step cond (run step s inputs) rest := by
  induction inputs generalizing s with
  | nil => simp [Admits]
  | cons input inputs ih =>
      rw [List.cons_append, run_cons]
      simp only [Admits]
      rw [ih, and_assoc]

/-- A run is admitted when each of its inputs meets the condition behind those before it. -/
theorem admits_iff_forall {step : σ → ι → σ} {cond : σ → ι → Prop} {s : σ} {inputs : List ι} :
    Admits step cond s inputs ↔
      ∀ before input after, inputs = before ++ input :: after →
        cond (run step s before) input := by
  induction inputs generalizing s with
  | nil =>
      refine iff_of_true trivial fun before input after h => ?_
      simp at h
  | cons first rest ih =>
      constructor
      · rintro ⟨hfirst, hrest⟩ before input after hsplit
        cases before with
        | nil =>
            rcases List.cons.inj hsplit with ⟨rfl, -⟩
            exact hfirst
        | cons x before =>
            rcases List.cons.inj hsplit with ⟨rfl, htail⟩
            exact ih.mp hrest before input after htail
      · intro h
        refine ⟨h [] first rest rfl, ih.mpr fun before input after hsplit => ?_⟩
        exact h (first :: before) input after (by rw [hsplit, List.cons_append])

/-- The property holds in every state that an admitted run passes through. -/
theorem invariant_run_take {step : σ → ι → σ} {cond : σ → ι → Prop}
    {inv : σ → Prop}
    (hstep : ∀ s input, inv s → cond s input → inv (step s input))
    {s : σ} {inputs : List ι} (hinit : inv s)
    (hadmits : Admits step cond s inputs) (n : Nat) :
    inv (run step s (inputs.take n)) :=
  invariant_run hstep hinit (hadmits.take n)

/-- In an environment that keeps its promise at every step, beside an invariant that needs no
more than that promise: where a step keeps the property exactly under its condition, the runs
that keep it throughout are the admitted ones. -/
theorem invariant_iff_admits_within {step : σ → ι → σ} {env cond : σ → ι → Prop}
    (inv holds : σ → Prop)
    (hinv : ∀ s input, inv s → env s input → inv (step s input))
    (hstep : ∀ s input, inv s → env s input → holds s → (holds (step s input) ↔ cond s input))
    {s : σ} {inputs : List ι} (hstart : inv s) (hinit : holds s) (henv : Admits step env s inputs) :
    (∀ n, holds (run step s (inputs.take n))) ↔ Admits step cond s inputs := by
  induction inputs generalizing s with
  | nil => exact iff_of_true (fun n => by simpa using hinit) trivial
  | cons input rest ih =>
      have hfirst := hstep s input hstart henv.1 hinit
      have hkept := hinv s input hstart henv.1
      constructor
      · intro h
        have hnext : holds (step s input) := by simpa using h 1
        refine ⟨hfirst.mp hnext, (ih hkept hnext henv.2).mp fun n => ?_⟩
        simpa using h (n + 1)
      · intro hadmits n
        cases n with
        | zero => exact hinit
        | succ n => exact (ih hkept (hfirst.mpr hadmits.1) henv.2).mpr hadmits.2 n

/-- Every run is admitted where nothing is asked of its steps. -/
theorem admits_true (step : σ → ι → σ) (s : σ) (inputs : List ι) :
    Admits step (fun _ _ => True) s inputs := by
  induction inputs generalizing s with
  | nil => trivial
  | cons input rest ih => exact ⟨trivial, ih (step s input)⟩

/-- The same beside an invariant of all runs. -/
theorem invariant_iff_admits_beside {step : σ → ι → σ} {cond : σ → ι → Prop} (inv holds : σ → Prop)
    (hinv : ∀ s input, inv s → inv (step s input))
    (hstep : ∀ s input, inv s → holds s → (holds (step s input) ↔ cond s input))
    {s : σ} {inputs : List ι} (hstart : inv s) (hinit : holds s) :
    (∀ n, holds (run step s (inputs.take n))) ↔ Admits step cond s inputs :=
  invariant_iff_admits_within inv holds (fun s input hs _ => hinv s input hs)
    (fun s input hs _ => hstep s input hs) hstart hinit (admits_true step s inputs)

/-- Where a step keeps the property exactly under its condition, the runs that keep it
throughout are the admitted ones. -/
theorem invariant_iff_admits {step : σ → ι → σ} {cond : σ → ι → Prop} {inv : σ → Prop}
    (hstep : ∀ s input, inv s → (inv (step s input) ↔ cond s input))
    {s : σ} {inputs : List ι} (hinit : inv s) :
    (∀ n, inv (run step s (inputs.take n))) ↔ Admits step cond s inputs :=
  invariant_iff_admits_beside (fun _ => True) inv (fun _ _ _ => trivial)
    (fun s input _ => hstep s input) trivial hinit

/-- What an invariant and the side condition imply holds at every step. -/
theorem Admits.of_invariant {step : σ → ι → σ} {cond cond' : σ → ι → Prop} {inv : σ → Prop}
    (hstep : ∀ s input, inv s → cond s input → inv (step s input))
    (himp : ∀ s input, inv s → cond s input → cond' s input)
    {s : σ} {inputs : List ι} (hinit : inv s) (hadmits : Admits step cond s inputs) :
    Admits step cond' s inputs := by
  induction inputs generalizing s with
  | nil => trivial
  | cons input rest ih =>
      have hnext : inv (step s input) := hstep s input hinit hadmits.1
      exact ⟨himp s input hinit hadmits.1, ih hnext hadmits.2⟩

/-- The side condition may mention what all inputs have in common. -/
theorem Admits.and_forall {step : σ → ι → σ} {cond : σ → ι → Prop} {p : ι → Prop} {s : σ}
    {inputs : List ι} (hadmits : Admits step cond s inputs) (hall : ∀ input ∈ inputs, p input) :
    Admits step (fun s input => p input ∧ cond s input) s inputs := by
  induction inputs generalizing s with
  | nil => trivial
  | cons input rest ih =>
      refine ⟨⟨hall input List.mem_cons_self, hadmits.1⟩, ih hadmits.2 ?_⟩
      intro other hother
      exact hall other (List.mem_cons_of_mem input hother)

/-- One more input of an admitted run is one more admitted step, unless the inputs
are used up. -/
theorem Admits.take_succ {step : σ → ι → σ} {cond : σ → ι → Prop} {s : σ} {inputs : List ι}
    (hadmits : Admits step cond s inputs) (n : Nat) :
    inputs.take (n + 1) = inputs.take n ∨
      ∃ input, cond (run step s (inputs.take n)) input ∧
        run step s (inputs.take (n + 1)) = step (run step s (inputs.take n)) input := by
  induction inputs generalizing s n with
  | nil => exact Or.inl (by simp)
  | cons input rest ih =>
      cases n with
      | zero => exact Or.inr ⟨input, hadmits.1, rfl⟩
      | succ n =>
          rcases ih hadmits.2 n with hdone | ⟨next, hcond, hnext⟩
          · exact Or.inl (by rw [List.take_succ_cons, hdone, List.take_succ_cons])
          · exact Or.inr ⟨next, hcond, hnext⟩

/-- What admitted steps from good states establish between two states holds between
any two neighbours of an admitted run. -/
theorem relation_run_take {step : σ → ι → σ} {cond : σ → ι → Prop} {inv : σ → Prop}
    {rel : σ → σ → Prop} (hstep : ∀ s input, inv s → cond s input → inv (step s input))
    (hrel : ∀ s input, inv s → cond s input → rel s (step s input)) (hrefl : ∀ s, rel s s)
    {s : σ} {inputs : List ι} (hinit : inv s) (hadmits : Admits step cond s inputs) (n : Nat) :
    rel (run step s (inputs.take n)) (run step s (inputs.take (n + 1))) := by
  rcases hadmits.take_succ n with hdone | ⟨input, hcond, hnext⟩
  · rw [hdone]
    exact hrefl _
  · rw [hnext]
    exact hrel _ input (invariant_run_take hstep hinit hadmits n) hcond

/-! ## States by index -/

/-- The state before the input of the given index. -/
def stateAt (step : σ → ι → σ) (s : σ) (inputs : List ι) (n : Nat) : σ :=
  run step s (inputs.take n)

@[simp] theorem stateAt_zero (step : σ → ι → σ) (s : σ) (inputs : List ι) :
    stateAt step s inputs 0 = s := by
  rw [stateAt, List.take_zero, run_nil]

/-- An input leads from one state to the next. -/
theorem stateAt_succ {step : σ → ι → σ} {s : σ} {inputs : List ι} {n : Nat} {input : ι}
    (h : inputs[n]? = some input) :
    stateAt step s inputs (n + 1) = step (stateAt step s inputs n) input := by
  simp [stateAt, run, List.take_add_one, h]

/-- Behind the last input the state stays. -/
theorem stateAt_succ_of_none {step : σ → ι → σ} {s : σ} {inputs : List ι} {n : Nat}
    (h : inputs[n]? = none) :
    stateAt step s inputs (n + 1) = stateAt step s inputs n := by
  simp [stateAt, List.take_add_one, h]

/-- What holds at first and is kept by every step holds at every index. -/
theorem stateAt_invariant {step : σ → ι → σ} {inv : σ → Prop} {s : σ} {inputs : List ι}
    (hinit : inv s) (hstep : ∀ s input, inv s → inv (step s input)) (n : Nat) :
    inv (stateAt step s inputs n) := by
  induction n with
  | zero => rwa [stateAt_zero]
  | succ n ih =>
      cases h : inputs[n]? with
      | none => rwa [stateAt_succ_of_none h]
      | some input =>
          rw [stateAt_succ h]
          exact hstep _ input ih

/-- A measure that no step decreases grows with the index. -/
theorem stateAt_mono {α : Type} [Preorder α] {step : σ → ι → σ} {measure : σ → α}
    (hstep : ∀ s input, measure s ≤ measure (step s input)) (s : σ) (inputs : List ι)
    {m n : Nat} (hmn : m ≤ n) :
    measure (stateAt step s inputs m) ≤ measure (stateAt step s inputs n) := by
  induction n with
  | zero =>
      have hzero : m = 0 := Nat.le_zero.mp hmn
      rw [hzero]
  | succ n ih =>
      by_cases hlast : m = n + 1
      · rw [hlast]
      · refine (ih (by omega)).trans ?_
        cases h : inputs[n]? with
        | none => rw [stateAt_succ_of_none h]
        | some input =>
            rw [stateAt_succ h]
            exact hstep _ input

/-! ## Cached copies -/

/-- A cached copy of a changing collection: some inputs refresh it, and no other input adds
to it. -/
structure Mirror {α : Type} (step : σ → ι → σ) (source cached : σ → List α)
    (refreshes : σ → ι → Prop) : Prop where
  refreshed : ∀ s input, refreshes s input → cached (step s input) ⊆ source s
  kept : ∀ s input, ¬ refreshes s input → cached (step s input) ⊆ cached s

/-- An item of the cached copy was in the source at some moment since any refresh. -/
theorem Mirror.held_since {α : Type} {step : σ → ι → σ} {source cached : σ → List α}
    {refreshes : σ → ι → Prop} (hmirror : Mirror step source cached refreshes)
    {s : σ} {inputs : List ι} {f n : Nat} {input : ι} (hinput : inputs[f]? = some input)
    (hrefresh : refreshes (stateAt step s inputs f) input) (hfn : f < n) {a : α}
    (ha : a ∈ cached (stateAt step s inputs n)) :
    ∃ j, f ≤ j ∧ j < n ∧ a ∈ source (stateAt step s inputs j) := by
  induction n with
  | zero => omega
  | succ n ih =>
      by_cases hlast : f = n
      · subst hlast
        rw [stateAt_succ hinput] at ha
        exact ⟨f, le_refl f, Nat.lt_succ_self f, hmirror.refreshed _ _ hrefresh ha⟩
      · cases h : inputs[n]? with
        | none =>
            rw [stateAt_succ_of_none h] at ha
            rcases ih (by omega) ha with ⟨j, hfj, hjn, hj⟩
            exact ⟨j, hfj, by omega, hj⟩
        | some next =>
            rw [stateAt_succ h] at ha
            by_cases hnext : refreshes (stateAt step s inputs n) next
            · exact ⟨n, by omega, Nat.lt_succ_self n, hmirror.refreshed _ _ hnext ha⟩
            · rcases ih (by omega) (hmirror.kept _ _ hnext ha) with ⟨j, hfj, hjn, hj⟩
              exact ⟨j, hfj, by omega, hj⟩

end Karsa
