import Karsa.Foundations.ControlFlow
import Karsa.Foundations.Runs
import Mathlib.Data.List.Infix

/-!
# Foundations - Runs that are images of each other

Two runs are compared through a map of states and a map of trace items.  As long as every
step meets its condition the second run is the image of the first; the first step that
does not meet it puts items into the two traces that are no longer images of each other,
and since traces only grow they stay apart.

Main results:

- Theorem `Parted.mono`: traces that have parted stay parted.
- Theorem `BlockSymmetry.blocks_image`, `BlockSymmetry.blocks_parted`: a list of blocks.
- Theorem `RunSymmetry.trace_iff`: the traces of two runs are images of each other exactly
  when every step meets its condition.
-/

namespace Karsa

universe u v w

/-! ## Traces that have parted -/

section Traces

variable {ε : Type u} {r : ε → ε} {t t' l l' : List ε}

/-- At some place the second trace holds something else than the image of the first. -/
def Parted (r : ε → ε) (t t' : List ε) : Prop :=
  ∃ (n : Nat) (x y : ε), t[n]? = some x ∧ t'[n]? = some y ∧ y ≠ r x

/-- Items behind a trace and behind its image. -/
theorem Parted.behind {x y : ε} (hne : y ≠ r x) (t rest rest' : List ε) :
    Parted r (t ++ x :: rest) (t.map r ++ y :: rest') := by
  refine ⟨t.length, x, y, by simp, ?_, hne⟩
  rw [List.getElem?_append_right (by simp)]
  simp

/-- Traces that have parted stay parted. -/
theorem Parted.mono (h : Parted r t t') (hl : t <+: l) (hl' : t' <+: l') : Parted r l l' := by
  rcases h with ⟨n, x, y, hx, hy, hne⟩
  have hkeep : ∀ {a b : List ε} {z : ε}, a <+: b → a[n]? = some z → b[n]? = some z := by
    rintro a b z ⟨rest, rfl⟩ hz
    rw [List.getElem?_append_left (List.getElem?_eq_some_iff.mp hz).1, hz]
  exact ⟨n, x, y, hkeep hl hx, hkeep hl' hy, hne⟩

/-- They are not images of each other. -/
theorem Parted.ne_map (h : Parted r t t') : t' ≠ t.map r := by
  rcases h with ⟨n, x, y, hx, hy, hne⟩
  rintro rfl
  rw [List.getElem?_map, hx, Option.map_some] at hy
  exact hne (Option.some.inj hy).symm

end Traces

/-! ## Blocks -/

section Blocks

variable {σ : Type u} {ι : Type v} {ε : Type w}

/-- Apply a function to the state a block leaves. -/
def Flow.map (f : σ → σ) : Flow σ → Flow σ
  | .next s => .next (f s)
  | .ret s => .ret (f s)
  | .raise s => .raise (f s)

@[simp] theorem Flow.state_map (f : σ → σ) (flow : Flow σ) :
    (flow.map f).state = f flow.state := by
  cases flow <;> rfl

/-- Mapping passes through a sequence. -/
theorem Flow.map_andThen {f : σ → σ} {flow : Flow σ} {first second : σ → Flow σ}
    (h : ∀ s, flow = .next s → second (f s) = (first s).map f) :
    (flow.map f).andThen second = (flow.andThen first).map f := by
  cases flow with
  | next s => exact h s rfl
  | ret s => rfl
  | raise s => rfl

/-- Traces of a list of blocks grow when those of its blocks do. -/
theorem Flow.trace_blocks {trace : σ → List ε} {block : ι → σ → Flow σ} {list : List ι}
    (hgrows : ∀ i ∈ list, ∀ s, trace s <+: trace (block i s).state) (s : σ) :
    trace s <+: trace (Flow.blocks (list.map block) s).state := by
  have hspec : Flow.Spec (fun s' => trace s <+: trace s') (Flow.blocks (list.map block))
      (fun s' => trace s <+: trace s') fun s' => trace s <+: trace s' :=
    Flow.Spec.blocks_of_state fun i hi s' hs' => hs'.trans (hgrows i hi s')
  exact (hspec s (List.prefix_refl _)).state fun _ h => h

/-- What follows a flow only adds to its trace. -/
theorem Flow.trace_andThen_blocks {trace : σ → List ε} {block : ι → σ → Flow σ} {list : List ι}
    (hgrows : ∀ i ∈ list, ∀ s, trace s <+: trace (block i s).state) (flow : Flow σ) :
    trace flow.state <+: trace (flow.andThen (Flow.blocks (list.map block))).state := by
  cases flow with
  | next s => exact Flow.trace_blocks hgrows s
  | ret s => exact List.prefix_refl _
  | raise s => exact List.prefix_refl _

/-- Each block and its counterpart keep states images of each other where the condition is
met, and part the traces where it is not. -/
structure BlockSymmetry (f : σ → σ) (r : ε → ε) (trace : σ → List ε) (inv : σ → Prop)
    (block block' : ι → σ → Flow σ) (cond : ι → σ → Prop) (list : List ι) : Prop where
  image : ∀ i ∈ list, ∀ s, inv s → cond i s → block' i (f s) = (block i s).map f
  kept : ∀ i ∈ list, ∀ s, inv s → cond i s → inv (block i s).state
  parted : ∀ i ∈ list, ∀ s, inv s → ¬ cond i s →
    Parted r (trace (block i s).state) (trace (block' i (f s)).state)
  grows : ∀ i ∈ list, ∀ s, trace s <+: trace (block i s).state
  grows' : ∀ i ∈ list, ∀ s, trace s <+: trace (block' i s).state

namespace BlockSymmetry

variable {f : σ → σ} {r : ε → ε} {trace : σ → List ε} {inv : σ → Prop}
  {block block' : ι → σ → Flow σ} {cond : ι → σ → Prop} {list : List ι} {i : ι}

/-- The blocks behind the first one. -/
theorem tail (h : BlockSymmetry f r trace inv block block' cond (i :: list)) :
    BlockSymmetry f r trace inv block block' cond list where
  image j hj := h.image j (List.mem_cons_of_mem i hj)
  kept j hj := h.kept j (List.mem_cons_of_mem i hj)
  parted j hj := h.parted j (List.mem_cons_of_mem i hj)
  grows j hj := h.grows j (List.mem_cons_of_mem i hj)
  grows' j hj := h.grows' j (List.mem_cons_of_mem i hj)

/-- Where all conditions are met, the counterpart of a list of blocks does the same to the
image of a state. -/
theorem blocks_image (h : BlockSymmetry f r trace inv block block' cond list) {s : σ}
    (hinv : inv s) (hmet : Flow.Met block cond list s) :
    Flow.blocks (list.map block') (f s) = (Flow.blocks (list.map block) s).map f := by
  induction list generalizing s with
  | nil => rfl
  | cons i rest ih =>
      have hkept := h.kept i List.mem_cons_self s hinv hmet.1
      rw [List.map_cons, List.map_cons, Flow.blocks_cons, Flow.blocks_cons,
        h.image i List.mem_cons_self s hinv hmet.1]
      apply Flow.map_andThen
      intro s' hs'
      rw [hs', Flow.state_next] at hkept
      exact ih h.tail hkept (hmet.2 s' hs')

/-- Where all conditions are met, what the blocks keep holds in the end. -/
theorem blocks_kept (h : BlockSymmetry f r trace inv block block' cond list) {s : σ}
    (hinv : inv s) (hmet : Flow.Met block cond list s) :
    inv (Flow.blocks (list.map block) s).state := by
  have hstep : ∀ i ∈ list, ∀ s, inv s → cond i s → (block i s).Ends inv inv :=
    fun i hi s hs hcond => Flow.ends_of_state (h.kept i hi s hs hcond)
  exact (hmet.ends_of_mem hstep hinv).state fun _ hs => hs

/-- Where some condition is not met, the traces part. -/
theorem blocks_parted (h : BlockSymmetry f r trace inv block block' cond list) {s : σ}
    (hinv : inv s) (hmet : ¬ Flow.Met block cond list s) :
    Parted r (trace (Flow.blocks (list.map block) s).state)
      (trace (Flow.blocks (list.map block') (f s)).state) := by
  induction list generalizing s with
  | nil => exact absurd trivial hmet
  | cons i rest ih =>
      by_cases hcond : cond i s
      · have himage := h.image i List.mem_cons_self s hinv hcond
        have hkept := h.kept i List.mem_cons_self s hinv hcond
        rw [List.map_cons, List.map_cons, Flow.blocks_cons, Flow.blocks_cons, himage]
        cases hblock : block i s with
        | next s' =>
            rw [hblock, Flow.state_next] at hkept
            refine ih h.tail hkept fun hrest => hmet ⟨hcond, ?_⟩
            intro s'' hs''
            rw [hblock] at hs''
            cases hs''
            exact hrest
        | ret s' => exact absurd ⟨hcond, by simp [hblock]⟩ hmet
        | raise s' => exact absurd ⟨hcond, by simp [hblock]⟩ hmet
      · have hfirst := h.parted i List.mem_cons_self s hinv hcond
        refine hfirst.mono ?_ ?_
        · exact Flow.trace_andThen_blocks h.tail.grows (block i s)
        · exact Flow.trace_andThen_blocks h.tail.grows' (block' i (f s))

end BlockSymmetry

end Blocks

/-! ## Runs -/

section RunSymmetries

variable {σ : Type u} {ι : Type v} {ε : Type w}

/-- A step and the step on images keep states images of each other where the condition is
met, and part the traces where it is not. -/
structure RunSymmetry (f : σ → σ) (g : ι → ι) (r : ε → ε) (trace : σ → List ε)
    (inv : σ → Prop) (step : σ → ι → σ) (cond : σ → ι → Prop) : Prop where
  image : ∀ s i, inv s → cond s i → step (f s) (g i) = f (step s i)
  kept : ∀ s i, inv s → cond s i → inv (step s i)
  parted : ∀ s i, inv s → ¬ cond s i →
    Parted r (trace (step s i)) (trace (step (f s) (g i)))
  grows : ∀ s i, trace s <+: trace (step s i)
  trace_image : ∀ s, trace (f s) = (trace s).map r

namespace RunSymmetry

variable {f : σ → σ} {g : ι → ι} {r : ε → ε} {trace : σ → List ε} {inv : σ → Prop}
  {step : σ → ι → σ} {cond : σ → ι → Prop}

/-- The trace of a run extends the one it starts with. -/
theorem trace_run (h : RunSymmetry f g r trace inv step cond) (s : σ) (inputs : List ι) :
    trace s <+: trace (run step s inputs) := by
  induction inputs generalizing s with
  | nil => exact List.prefix_refl _
  | cons input rest ih => exact (h.grows s input).trans (ih (step s input))

/-- Where every step meets its condition, the second run is the image of the first. -/
theorem run_image (h : RunSymmetry f g r trace inv step cond) {s : σ} {inputs : List ι}
    (hinv : inv s) (hadmits : Admits step cond s inputs) :
    run step (f s) (inputs.map g) = f (run step s inputs) := by
  induction inputs generalizing s with
  | nil => rfl
  | cons input rest ih =>
      have hkept : inv (step s input) := h.kept s input hinv hadmits.1
      rw [List.map_cons, run_cons, run_cons, h.image s input hinv hadmits.1]
      exact ih hkept hadmits.2

/-- Where some step does not, the traces part. -/
theorem run_parted (h : RunSymmetry f g r trace inv step cond) {s : σ} {inputs : List ι}
    (hinv : inv s) (hadmits : ¬ Admits step cond s inputs) :
    Parted r (trace (run step s inputs)) (trace (run step (f s) (inputs.map g))) := by
  induction inputs generalizing s with
  | nil => exact absurd trivial hadmits
  | cons input rest ih =>
      rw [List.map_cons, run_cons, run_cons]
      by_cases hcond : cond s input
      · have hkept : inv (step s input) := h.kept s input hinv hcond
        rw [h.image s input hinv hcond]
        exact ih hkept fun hrest => hadmits ⟨hcond, hrest⟩
      · have hfirst := h.parted s input hinv hcond
        exact hfirst.mono (h.trace_run _ rest) (h.trace_run _ (rest.map g))

/-- The traces of two runs are images of each other exactly when every step of the first
meets its condition. -/
theorem trace_iff (h : RunSymmetry f g r trace inv step cond) {s : σ} (hinv : inv s)
    (inputs : List ι) :
    trace (run step (f s) (inputs.map g)) = (trace (run step s inputs)).map r ↔
      Admits step cond s inputs := by
  constructor
  · intro heq
    by_contra hadmits
    exact (h.run_parted hinv hadmits).ne_map heq
  · intro hadmits
    rw [h.run_image hinv hadmits, h.trace_image]

end RunSymmetry

end RunSymmetries
end Karsa
