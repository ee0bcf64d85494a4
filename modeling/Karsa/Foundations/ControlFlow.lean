import Mathlib.Order.Basic
import Mathlib.Order.Nat

/-!
# Foundations - Blocks with early returns and uncaught exceptions

A long imperative method is a sequence of blocks.  Each block either falls
through to the next one, returns from the whole method, or lets an exception
escape from it; in every case the state reached so far survives.  This module
gives that result type, its sequencing, and the partial-correctness rules used
to carry one invariant from the first block to the last.

Main results:

- Theorem `Flow.Spec.seq`: two specified blocks compose.
- Theorems `Flow.Spec.blocks`, `Flow.Spec.blocks_of_state`: an invariant kept by every block
  of a list is kept by the whole list.
- Theorem `Flow.Met.ends`: the same for blocks that keep it under a condition.
- Theorem `Flow.met_iff_counter_eq`: conditions that tell when a counter moves.
- Theorems `Flow.met_iff_not_raises`, `Flow.raises_blocks_iff`: when an exception escapes.
- Theorem `Flow.each_reached_iff`: when a loop inside one `try` block reaches all its items.
-/

namespace Karsa

universe u

/-- How a block of a method ends, together with the state it leaves. -/
inductive Flow (σ : Type u) where
  | next (s : σ)
  | ret (s : σ)
  | raise (s : σ)
deriving Repr, DecidableEq

namespace Flow

variable {σ : Type u}

/-- The state a block leaves, however it ends. -/
def state : Flow σ → σ
  | next s | ret s | raise s => s

/-- The state with which control falls through, if it does. -/
def next? : Flow σ → Option σ
  | next s => some s
  | ret _ | raise _ => none

/-- An exception escapes. -/
def Raises : Flow σ → Prop
  | raise _ => True
  | next _ | ret _ => False

/-- Run the following block unless this one left the method. -/
def andThen (flow : Flow σ) (block : σ → Flow σ) : Flow σ :=
  match flow with
  | next s => block s
  | ret s => ret s
  | raise s => raise s

/-- Run a list of blocks from left to right. -/
def blocks : List (σ → Flow σ) → σ → Flow σ
  | [], s => next s
  | block :: rest, s => (block s).andThen (blocks rest)

@[simp] theorem state_next (s : σ) : (next s).state = s := rfl

@[simp] theorem state_ret (s : σ) : (ret s).state = s := rfl

@[simp] theorem state_raise (s : σ) : (raise s).state = s := rfl

@[simp] theorem next?_next (s : σ) : (next s).next? = some s := rfl

@[simp] theorem next?_ret (s : σ) : (ret s).next? = none := rfl

@[simp] theorem next?_raise (s : σ) : (raise s).next? = none := rfl

@[simp] theorem next_andThen (s : σ) (block : σ → Flow σ) :
    (next s).andThen block = block s := rfl

@[simp] theorem ret_andThen (s : σ) (block : σ → Flow σ) :
    (ret s).andThen block = ret s := rfl

@[simp] theorem raise_andThen (s : σ) (block : σ → Flow σ) :
    (raise s).andThen block = raise s := rfl

/-- Sequencing is associative. -/
theorem andThen_assoc (flow : Flow σ) (first second : σ → Flow σ) :
    (flow.andThen first).andThen second =
      flow.andThen fun s => (first s).andThen second := by
  cases flow <;> rfl

/-- Control falls through a sequence when it falls through both parts. -/
theorem next?_andThen (flow : Flow σ) (block : σ → Flow σ) :
    (flow.andThen block).next? = flow.next?.bind fun s => (block s).next? := by
  cases flow <;> rfl

@[simp] theorem blocks_nil (s : σ) : blocks [] s = next s := rfl

@[simp] theorem blocks_cons (block : σ → Flow σ) (rest : List (σ → Flow σ)) (s : σ) :
    blocks (block :: rest) s = (block s).andThen (blocks rest) := rfl

/-- Two lists of blocks, one after the other. -/
theorem blocks_append (first second : List (σ → Flow σ)) (s : σ) :
    blocks (first ++ second) s = (blocks first s).andThen (blocks second) := by
  induction first generalizing s with
  | nil => rfl
  | cons block rest ih =>
      rw [List.cons_append, blocks_cons, blocks_cons, andThen_assoc]
      exact congrArg (block s).andThen (funext ih)

/-- Nothing follows the last block. -/
@[simp] theorem andThen_blocks_nil (flow : Flow σ) : flow.andThen (blocks []) = flow := by
  cases flow <;> rfl

/-- A list of one block is that block. -/
@[simp] theorem blocks_singleton (block : σ → Flow σ) : blocks [block] = block := by
  funext s
  rw [blocks_cons, andThen_blocks_nil]

/-! ## Specifications of blocks -/

/-- Postcondition of a flow: `after` holds where control falls through and
`left` holds where the method was left. -/
def Ends (after left : σ → Prop) : Flow σ → Prop
  | next s => after s
  | ret s | raise s => left s

/-- A block started in `pre` ends in `after`, or leaves the method in `left`. -/
def Spec (pre : σ → Prop) (block : σ → Flow σ) (after left : σ → Prop) : Prop :=
  ∀ s, pre s → (block s).Ends after left

@[simp] theorem ends_next {after left : σ → Prop} (s : σ) :
    (next s).Ends after left ↔ after s := Iff.rfl

@[simp] theorem ends_ret {after left : σ → Prop} (s : σ) :
    (ret s).Ends after left ↔ left s := Iff.rfl

@[simp] theorem ends_raise {after left : σ → Prop} (s : σ) :
    (raise s).Ends after left ↔ left s := Iff.rfl

/-- Where falling through implies leaving, the final state satisfies the latter. -/
theorem Ends.state {after left : σ → Prop} {flow : Flow σ}
    (hends : flow.Ends after left) (hweaken : ∀ s, after s → left s) :
    left flow.state := by
  cases flow with
  | next s => exact hweaken s hends
  | ret s => exact hends
  | raise s => exact hends

/-- An assertion about the final state holds however the flow ends. -/
theorem ends_of_state {inv : σ → Prop} {flow : Flow σ} (h : inv flow.state) :
    flow.Ends inv inv := by
  cases flow <;> exact h

theorem Ends.mono {after after' left left' : σ → Prop} {flow : Flow σ}
    (hends : flow.Ends after left) (hafter : ∀ s, after s → after' s)
    (hleft : ∀ s, left s → left' s) : flow.Ends after' left' := by
  cases flow with
  | next s => exact hafter s hends
  | ret s => exact hleft s hends
  | raise s => exact hleft s hends

/-- Two facts about one end. -/
theorem Ends.and {after after' left left' : σ → Prop} {flow : Flow σ}
    (hends : flow.Ends after left) (hends' : flow.Ends after' left') :
    flow.Ends (fun s => after s ∧ after' s) (fun s => left s ∧ left' s) := by
  cases flow with
  | next s => exact ⟨hends, hends'⟩
  | ret s => exact ⟨hends, hends'⟩
  | raise s => exact ⟨hends, hends'⟩

/-- A specified flow followed by a specified block. -/
theorem Ends.andThen {after after' left : σ → Prop} {flow : Flow σ}
    {block : σ → Flow σ} (hflow : flow.Ends after left)
    (hblock : Spec after block after' left) :
    (flow.andThen block).Ends after' left := by
  cases flow with
  | next s => exact hblock s hflow
  | ret s => exact hflow
  | raise s => exact hflow

/-- What the method leaves behind when a specified flow is followed by a block. -/
theorem Ends.andThen_state {after left final : σ → Prop} {flow : Flow σ}
    {block : σ → Flow σ} (hflow : flow.Ends after left)
    (hblock : ∀ s, after s → final (block s).state) (hleft : ∀ s, left s → final s) :
    final (flow.andThen block).state := by
  cases flow with
  | next s => exact hblock s hflow
  | ret s => exact hleft s hflow
  | raise s => exact hleft s hflow

/-- What holds where control falls through holds of the state it takes along. -/
theorem Ends.of_next? {after left : σ → Prop} {flow : Flow σ} (hends : flow.Ends after left)
    {s : σ} (h : flow.next? = some s) : after s := by
  cases flow with
  | next s' =>
      obtain rfl := Option.some.inj h
      exact hends
  | ret s' => cases h
  | raise s' => cases h

/-- A flow that cannot leave the method falls through. -/
theorem Ends.exists_next {after : σ → Prop} {flow : Flow σ}
    (hends : flow.Ends after fun _ => False) : ∃ s, flow = next s ∧ after s := by
  cases flow with
  | next s => exact ⟨s, rfl, hends⟩
  | ret s => exact hends.elim
  | raise s => exact hends.elim

/-- A block that only decides how to go on keeps every assertion. -/
theorem Spec.of_state_eq {inv left : σ → Prop} {block : σ → Flow σ}
    (hstate : ∀ s, (block s).state = s) (hleft : ∀ s, inv s → left s) :
    Spec inv block inv left := by
  intro s hs
  have hfinal : inv (block s).state := by
    rw [hstate s]
    exact hs
  exact (ends_of_state hfinal).mono (fun _ h => h) hleft

/-- Sequential composition of two specified blocks. -/
theorem Spec.seq {pre mid after left : σ → Prop} {first second : σ → Flow σ}
    (hfirst : Spec pre first mid left) (hsecond : Spec mid second after left) :
    Spec pre (fun s => (first s).andThen second) after left := by
  intro s hs
  exact (hfirst s hs).andThen hsecond

/-- An assertion that holds where the method may be left and that every block
re-establishes is an invariant of the whole list. -/
theorem Spec.blocks {inv left : σ → Prop} {list : List (σ → Flow σ)}
    (hall : ∀ block ∈ list, Spec inv block inv left) :
    Spec inv (blocks list) inv left := by
  induction list with
  | nil =>
      intro s hs
      exact hs
  | cons block rest ih =>
      have hhead : Spec inv block inv left := hall block List.mem_cons_self
      have htail : Spec inv (Flow.blocks rest) inv left :=
        ih fun b hb => hall b (List.mem_cons_of_mem block hb)
      exact hhead.seq htail

/-- The same for the blocks of a list of rules. -/
theorem Spec.blocks_map {ι : Type*} {inv left : σ → Prop} {list : List ι}
    {block : ι → σ → Flow σ} (hall : ∀ i ∈ list, Spec inv (block i) inv left) :
    Spec inv (Flow.blocks (list.map block)) inv left := by
  apply Spec.blocks
  intro b hb
  rcases List.mem_map.mp hb with ⟨i, hi, rfl⟩
  exact hall i hi

/-- What every rule keeps, on whatever way it ends, the list keeps. -/
theorem Spec.blocks_of_state {ι : Type*} {inv : σ → Prop} {list : List ι}
    {block : ι → σ → Flow σ} (hkept : ∀ i ∈ list, ∀ s, inv s → inv (block i s).state) :
    Spec inv (Flow.blocks (list.map block)) inv inv :=
  Spec.blocks_map fun i hi s hs => ends_of_state (hkept i hi s hs)

/-! ## Blocks under side conditions -/

section Conditions

variable {ι : Type*} {block : ι → σ → Flow σ} {cond : ι → σ → Prop}

/-- Every block that is reached starts in a state that meets its condition. -/
def Met (block : ι → σ → Flow σ) (cond : ι → σ → Prop) : List ι → σ → Prop
  | [], _ => True
  | i :: rest, s => cond i s ∧ ∀ s', block i s = next s' → Met block cond rest s'

instance Met.decidable [∀ i, DecidablePred (cond i)] :
    ∀ (list : List ι) (s : σ), Decidable (Met block cond list s)
  | [], _ => isTrue trivial
  | i :: rest, s =>
      match hblock : block i s with
      | .next s' =>
          have := Met.decidable rest s'
          decidable_of_iff (cond i s ∧ Met block cond rest s') (by simp [Met, hblock])
      | .ret _ => decidable_of_iff (cond i s) (by simp [Met, hblock])
      | .raise _ => decidable_of_iff (cond i s) (by simp [Met, hblock])

/-- An assertion that every block of a list keeps under its condition is kept by the
list where the conditions are met. -/
theorem Met.ends_of_mem {inv left : σ → Prop} {list : List ι} {s : σ}
    (hstep : ∀ i ∈ list, ∀ s, inv s → cond i s → (block i s).Ends inv left)
    (hmet : Met block cond list s) (hinv : inv s) :
    (blocks (list.map block) s).Ends inv left := by
  induction list generalizing s with
  | nil => exact hinv
  | cons i rest ih =>
      have hfirst := hstep i List.mem_cons_self s hinv hmet.1
      have hrest : ∀ j ∈ rest, ∀ s, inv s → cond j s → (block j s).Ends inv left :=
        fun j hj => hstep j (List.mem_cons_of_mem i hj)
      rw [List.map_cons, blocks_cons]
      cases hblock : block i s with
      | next s' =>
          rw [hblock] at hfirst
          exact ih hrest (hmet.2 s' hblock) hfirst
      | ret s' =>
          rw [hblock] at hfirst
          exact hfirst
      | raise s' =>
          rw [hblock] at hfirst
          exact hfirst

/-- The same where all blocks keep the assertion. -/
theorem Met.ends {inv left : σ → Prop} {list : List ι} {s : σ}
    (hstep : ∀ i s, inv s → cond i s → (block i s).Ends inv left)
    (hmet : Met block cond list s) (hinv : inv s) :
    (blocks (list.map block) s).Ends inv left :=
  hmet.ends_of_mem (fun i _ => hstep i) hinv

/-- A counter never decreases along blocks that never decrease it. -/
theorem counter_le_blocks {counter : σ → ℕ}
    (hmono : ∀ i s, counter s ≤ counter (block i s).state) (list : List ι) (s : σ) :
    counter s ≤ counter (blocks (list.map block) s).state := by
  induction list generalizing s with
  | nil => exact le_refl _
  | cons i rest ih =>
      have hfirst := hmono i s
      rw [List.map_cons, blocks_cons]
      cases hblock : block i s with
      | next s' =>
          rw [hblock] at hfirst
          exact hfirst.trans (ih s')
      | ret s' =>
          rw [hblock] at hfirst
          exact hfirst
      | raise s' =>
          rw [hblock] at hfirst
          exact hfirst

/-- Where each block leaves a counter alone exactly under its condition, a list of
blocks leaves it alone exactly when the conditions are met. -/
theorem met_iff_counter_eq {counter : σ → ℕ}
    (hmono : ∀ i s, counter s ≤ counter (block i s).state)
    (hstep : ∀ i s, counter (block i s).state = counter s ↔ cond i s) (list : List ι) (s : σ) :
    Met block cond list s ↔ counter (blocks (list.map block) s).state = counter s := by
  induction list generalizing s with
  | nil => simp [Met]
  | cons i rest ih =>
      have hiff := hstep i s
      have hfirst := hmono i s
      rw [Met, List.map_cons, blocks_cons, ← hiff]
      cases hblock : block i s with
      | next s' =>
          have hrest := counter_le_blocks hmono rest s'
          rw [hblock, state_next] at hfirst
          simp only [state_next, next_andThen, next.injEq, forall_eq', ih]
          constructor
          · rintro ⟨hhead, htail⟩
            exact htail.trans hhead
          · intro htotal
            constructor <;> omega
      | ret s' => simp
      | raise s' => simp

/-- Where each block raises exactly outside its condition, a list of blocks does not raise
exactly where the conditions are met. -/
theorem met_iff_not_raises (hstep : ∀ i s, (block i s).Raises ↔ ¬ cond i s) (list : List ι)
    (s : σ) : Met block cond list s ↔ ¬ (blocks (list.map block) s).Raises := by
  induction list generalizing s with
  | nil => simp [Met, Raises]
  | cons i rest ih =>
      have hiff := hstep i s
      rw [Met, List.map_cons, blocks_cons]
      cases hblock : block i s with
      | next s' =>
          rw [hblock] at hiff
          have hcond : cond i s := by simpa [Raises] using hiff
          simp [hcond, ih]
      | ret s' =>
          rw [hblock] at hiff
          have hcond : cond i s := by simpa [Raises] using hiff
          simp [hcond, Raises]
      | raise s' =>
          rw [hblock] at hiff
          have hcond : ¬ cond i s := hiff.1 trivial
          simp [hcond, Raises]

/-- Where the blocks of one kind are the ones that raise, under a fact that all blocks keep, a
list of blocks raises exactly where it comes to the first of that kind. -/
theorem raises_blocks_iff {inv : σ → Prop} {kind : ι → Bool}
    (hkeep : ∀ i s s', inv s → block i s = next s' → inv s')
    (hstep : ∀ i s, inv s → ((block i s).Raises ↔ kind i = true)) (list : List ι) {s : σ}
    (hs : inv s) :
    (blocks (list.map block) s).Raises ↔ (∃ i ∈ list, kind i = true) ∧
      (blocks ((list.takeWhile fun i => !kind i).map block) s).next?.isSome = true := by
  induction list generalizing s with
  | nil => simp [Raises]
  | cons i rest ih =>
      have hiff := hstep i s hs
      rw [List.map_cons, blocks_cons, List.takeWhile_cons]
      cases hkind : kind i with
      | true =>
          -- the block in front raises, and nothing precedes it
          have hraises := hiff.2 hkind
          cases hblock : block i s with
          | raise s' => simp [Raises, hkind]
          | next s' | ret s' =>
              rw [hblock] at hraises
              exact hraises.elim
      | false =>
          have hquiet : ¬ (block i s).Raises := by simp [hiff, hkind]
          cases hblock : block i s with
          | next s' => simp [hkind, hblock, ih (hkeep i s s' hs hblock)]
          | ret s' => simp [Raises, hblock]
          | raise s' =>
              rw [hblock] at hquiet
              exact absurd trivial hquiet

end Conditions

/-! ## Loops inside one `try` block -/

section Each

variable {ι : Type*} {body : ι → Flow σ} {items : List ι}

/-- A loop whose items share one `try` block: the state that each item leaves, and nothing for the
items behind the first exception. -/
def each (body : ι → Flow σ) : List ι → List (Option σ)
  | [] => []
  | i :: rest =>
      match body i with
      | next s | ret s => some s :: each body rest
      | raise s => some s :: List.replicate rest.length none

/-- The loop comes to an item. -/
def Reached (body : ι → Flow σ) (items : List ι) (n : ℕ) : Prop :=
  ∃ s, (each body items)[n]? = some (some s)

theorem reached_zero (i : ι) (rest : List ι) : Reached body (i :: rest) 0 := by
  unfold Reached each
  cases body i <;> exact ⟨_, rfl⟩

/-- Behind an item that does not raise the loop goes on. -/
theorem reached_succ_iff {i : ι} (hi : ¬ (body i).Raises) (rest : List ι) (n : ℕ) :
    Reached body (i :: rest) (n + 1) ↔ Reached body rest n := by
  unfold Reached
  rw [each]
  cases hbody : body i with
  | next s => rfl
  | ret s => rfl
  | raise s =>
      rw [hbody] at hi
      exact absurd trivial hi

/-- Behind one that raises it does not. -/
theorem not_reached_succ {i : ι} (hi : (body i).Raises) (rest : List ι) (n : ℕ) :
    ¬ Reached body (i :: rest) (n + 1) := by
  unfold Reached
  rw [each]
  cases hbody : body i with
  | next s =>
      rw [hbody] at hi
      exact hi.elim
  | ret s =>
      rw [hbody] at hi
      exact hi.elim
  | raise s =>
      rintro ⟨s', hs'⟩
      rw [List.getElem?_cons_succ] at hs'
      have hmem : some s' ∈ List.replicate rest.length (none : Option σ) :=
        List.mem_of_getElem? hs'
      exact Option.some_ne_none s' (List.eq_of_mem_replicate hmem)

/-- Where none but the last item raises, all items are reached. -/
theorem reached_of_not_raises (h : ∀ i ∈ items.dropLast, ¬ (body i).Raises) {n : ℕ}
    (hn : n < items.length) : Reached body items n := by
  induction items generalizing n with
  | nil => exact absurd hn (Nat.not_lt_zero n)
  | cons i rest ih =>
      cases n with
      | zero => exact reached_zero i rest
      | succ n =>
          have hrest : rest ≠ [] := by
            rintro rfl
            simp at hn
          rw [List.dropLast_cons_of_ne_nil hrest] at h
          rw [reached_succ_iff (h i List.mem_cons_self)]
          exact ih (fun j hj => h j (List.mem_cons_of_mem i hj)) (by simpa using hn)

/-- The items beside one that raises are all reached exactly where none but the last raises. -/
theorem each_reached_iff :
    (∀ m n i, m ≠ n → items[m]? = some i → (body i).Raises → n < items.length →
      Reached body items n) ↔ ∀ i ∈ items.dropLast, ¬ (body i).Raises := by
  refine ⟨fun h => ?_, fun h m n i _ _ _ hn => reached_of_not_raises h hn⟩
  induction items with
  | nil => simp
  | cons i rest ih =>
      intro j hj
      have hrest : rest ≠ [] := by
        rintro rfl
        simp at hj
      rw [List.dropLast_cons_of_ne_nil hrest, List.mem_cons] at hj
      have hfirst : ¬ (body i).Raises := by
        intro hraises
        refine not_reached_succ hraises rest 0 (h 0 1 i (by omega) rfl hraises ?_)
        have := List.length_pos_iff.mpr hrest
        rw [List.length_cons]
        omega
      rcases hj with rfl | hj
      · exact hfirst
      · refine ih (fun m n k hmn hk hraises hn => ?_) j hj
        rw [← reached_succ_iff hfirst]
        exact h (m + 1) (n + 1) k (by omega) hk hraises (by simpa using hn)

end Each

end Flow
end Karsa
