import Mathlib.Data.List.Basic

/-!
# Foundations - Pools of tasks over shared state

Coroutines run one at a time and give way to each other where they await.  A pool holds the
state they share and the place each of them has come to; one turn takes one task from its
place to the next.

An invariant of a pool speaks of the shared state, of each task against the shared state,
and of two tasks at a time.  A turn keeps it if the task's own next place is right and the
other tasks do not notice.

Main results:

- Theorem `Pool.Inv.turn`: what one turn has to keep.
- Theorem `Pool.Inv.spawn`, `Pool.Inv.update`: the same for a new task and for a change of
  the shared state alone.
-/

namespace Karsa

universe u v

/-- Shared state and tasks; a task that is done keeps its number. -/
structure Pool (σ : Type u) (τ : Type v) where
  shared : σ
  tasks : List τ
deriving Repr, DecidableEq

namespace Pool

variable {σ : Type u} {τ : Type v}

/-- A new task. -/
def spawn (p : Pool σ τ) (t : τ) : Pool σ τ :=
  { p with tasks := p.tasks ++ [t] }

/-- A change of the shared state. -/
def update (p : Pool σ τ) (f : σ → σ) : Pool σ τ :=
  { p with shared := f p.shared }

/-- Every task is told something. -/
def alter (p : Pool σ τ) (f : τ → τ) : Pool σ τ :=
  { p with tasks := p.tasks.map f }

/-- The turn of the task of a number. -/
def turn (act : σ → τ → σ × τ) (p : Pool σ τ) (i : Nat) : Pool σ τ :=
  match p.tasks[i]? with
  | none => p
  | some t => ⟨(act p.shared t).1, p.tasks.set i (act p.shared t).2⟩

@[simp] theorem shared_spawn (p : Pool σ τ) (t : τ) : (p.spawn t).shared = p.shared := rfl

@[simp] theorem shared_alter (p : Pool σ τ) (f : τ → τ) : (p.alter f).shared = p.shared := rfl

@[simp] theorem shared_update (p : Pool σ τ) (f : σ → σ) :
    (p.update f).shared = f p.shared := rfl

@[simp] theorem tasks_update (p : Pool σ τ) (f : σ → σ) : (p.update f).tasks = p.tasks := rfl

theorem mem_spawn {p : Pool σ τ} {t u : τ} : u ∈ (p.spawn t).tasks ↔ u ∈ p.tasks ∨ u = t := by
  rw [spawn, List.mem_append, List.mem_singleton]

theorem turn_of_none {act : σ → τ → σ × τ} {p : Pool σ τ} {i : Nat} (h : p.tasks[i]? = none) :
    p.turn act i = p := by
  rw [turn, h]

theorem turn_of_some {act : σ → τ → σ × τ} {p : Pool σ τ} {i : Nat} {t : τ}
    (h : p.tasks[i]? = some t) :
    p.turn act i = ⟨(act p.shared t).1, p.tasks.set i (act p.shared t).2⟩ := by
  rw [turn, h]

/-- A task after a turn is the one whose turn it was, or another one as before. -/
theorem mem_set {tasks : List τ} {i : Nat} {t' u : τ} (h : u ∈ tasks.set i t') :
    u = t' ∨ ∃ j, j ≠ i ∧ tasks[j]? = some u := by
  rcases List.mem_iff_getElem?.mp h with ⟨j, hj⟩
  by_cases hji : j = i
  · subst hji
    rw [List.getElem?_set_self'] at hj
    cases hold : tasks[j]? with
    | none => simp [hold] at hj
    | some old => exact Or.inl (by simpa [hold] using hj.symm)
  · rw [List.getElem?_set_ne (Ne.symm hji)] at hj
    exact Or.inr ⟨j, hji, hj⟩

/-- The task whose turn it was is at its next place. -/
theorem next_mem_turn {act : σ → τ → σ × τ} {p : Pool σ τ} {i : Nat} {t : τ}
    (h : p.tasks[i]? = some t) : (act p.shared t).2 ∈ (p.turn act i).tasks := by
  rcases List.getElem?_eq_some_iff.mp h with ⟨hlt, rfl⟩
  rw [turn_of_some h]
  exact List.mem_set hlt _

/-- The other tasks stay where they are. -/
theorem mem_turn_of_ne {act : σ → τ → σ × τ} {p : Pool σ τ} {i j : Nat} {u : τ}
    (hij : j ≠ i) (h : p.tasks[j]? = some u) : u ∈ (p.turn act i).tasks := by
  cases hi : p.tasks[i]? with
  | none =>
      rw [turn_of_none hi]
      exact List.mem_of_getElem? h
  | some t =>
      rw [turn_of_some hi]
      apply List.mem_of_getElem?
      rw [List.getElem?_set_ne hij.symm]
      exact h

/-! ## Invariants -/

section Inv

variable {shared : σ → Prop} {each : σ → τ → Prop} {pair : τ → τ → Prop}

/-- What holds of the shared state, of each task, and of any two tasks. -/
structure Inv (shared : σ → Prop) (each : σ → τ → Prop) (pair : τ → τ → Prop)
    (p : Pool σ τ) : Prop where
  shared : shared p.shared
  each : ∀ t ∈ p.tasks, each p.shared t
  pair : p.tasks.Pairwise pair

/-- Any two tasks of different numbers are related. -/
theorem pair_of_ne {tasks : List τ} (hsymm : ∀ t u, pair t u → pair u t) (h : tasks.Pairwise pair)
    {i j : Nat} {t u : τ} (hij : i ≠ j) (hi : tasks[i]? = some t) (hj : tasks[j]? = some u) :
    pair t u := by
  rcases List.getElem?_eq_some_iff.mp hi with ⟨hilt, rfl⟩
  rcases List.getElem?_eq_some_iff.mp hj with ⟨hjlt, rfl⟩
  rcases Nat.lt_or_gt_of_ne hij with hlt | hgt
  · exact List.pairwise_iff_getElem.mp h i j hilt hjlt hlt
  · exact hsymm _ _ (List.pairwise_iff_getElem.mp h j i hjlt hilt hgt)

/-- A task may go on to a place that is related to those of the others. -/
theorem pairwise_set {tasks : List τ} (hsymm : ∀ t u, pair t u → pair u t)
    (h : tasks.Pairwise pair) {i : Nat}
    {t' : τ} (ht' : ∀ j u, j ≠ i → tasks[j]? = some u → pair t' u) :
    (tasks.set i t').Pairwise pair := by
  rw [List.pairwise_iff_getElem]
  intro a b ha hb hab
  rw [List.length_set] at ha hb
  by_cases hai : i = a
  · subst hai
    have hbi : i ≠ b := Nat.ne_of_lt hab
    rw [List.getElem_set_self, List.getElem_set_ne hbi]
    exact ht' b _ hbi.symm (List.getElem?_eq_getElem hb)
  · by_cases hbi : i = b
    · subst hbi
      rw [List.getElem_set_self, List.getElem_set_ne hai]
      exact hsymm _ _ (ht' a _ (Ne.symm hai) (List.getElem?_eq_getElem ha))
    · rw [List.getElem_set_ne hai, List.getElem_set_ne hbi]
      exact List.pairwise_iff_getElem.mp h a b ha hb hab

/-- A turn keeps the invariant if the task finds its next place right and the tasks beside it
do not notice. -/
theorem Inv.turn {act : σ → τ → σ × τ} {p : Pool σ τ} (h : Inv shared each pair p)
    (hsymm : ∀ t u, pair t u → pair u t) (i : Nat)
    (hself : ∀ t, p.tasks[i]? = some t →
      shared (act p.shared t).1 ∧ each (act p.shared t).1 (act p.shared t).2)
    (hothers : ∀ t, p.tasks[i]? = some t → ∀ u ∈ p.tasks, pair t u →
      each (act p.shared t).1 u ∧ pair (act p.shared t).2 u) :
    Inv shared each pair (p.turn act i) := by
  cases hi : p.tasks[i]? with
  | none =>
      rw [turn_of_none hi]
      exact h
  | some t =>
      rcases hself t hi with ⟨hshared, hnext⟩
      have hbeside : ∀ j u, j ≠ i → p.tasks[j]? = some u →
          each (act p.shared t).1 u ∧ pair (act p.shared t).2 u := by
        intro j u hji hj
        exact hothers t hi u (List.mem_of_getElem? hj) (pair_of_ne hsymm h.pair hji.symm hi hj)
      rw [turn_of_some hi]
      refine ⟨hshared, fun u hu => ?_, pairwise_set hsymm h.pair fun j u hji hj =>
        (hbeside j u hji hj).2⟩
      rcases mem_set hu with rfl | ⟨j, hji, hj⟩
      · exact hnext
      · exact (hbeside j u hji hj).1

/-- A new task keeps the invariant if it starts at a right place. -/
theorem Inv.spawn {p : Pool σ τ} {t : τ} (h : Inv shared each pair p)
    (heach : each p.shared t) (hpair : ∀ u ∈ p.tasks, pair u t) :
    Inv shared each pair (p.spawn t) := by
  refine ⟨h.shared, fun u hu => ?_, ?_⟩
  · rcases mem_spawn.mp hu with hold | rfl
    · exact h.each u hold
    · exact heach
  · rw [Pool.spawn, List.pairwise_append]
    refine ⟨h.pair, List.pairwise_singleton _ _, fun u hu t' ht' => ?_⟩
    rw [List.mem_singleton.mp ht']
    exact hpair u hu

/-- A change of the shared state keeps the invariant if no task notices. -/
theorem Inv.update {p : Pool σ τ} {f : σ → σ} (h : Inv shared each pair p)
    (hshared : shared (f p.shared)) (heach : ∀ t ∈ p.tasks, each (f p.shared) t) :
    Inv shared each pair (p.update f) :=
  ⟨hshared, heach, h.pair⟩

/-- What tasks are told keeps the invariant if it leaves each at a right place. -/
theorem Inv.alter {p : Pool σ τ} {f : τ → τ} (h : Inv shared each pair p)
    (heach : ∀ t ∈ p.tasks, each p.shared t → each p.shared (f t))
    (hpair : ∀ t u, pair t u → pair (f t) (f u)) : Inv shared each pair (p.alter f) := by
  refine ⟨h.shared, fun u hu => ?_, List.pairwise_map.mpr (h.pair.imp fun htu => hpair _ _ htu)⟩
  rcases List.mem_map.mp hu with ⟨t, ht, rfl⟩
  exact heach t ht (h.each t ht)

end Inv

end Pool
end Karsa
