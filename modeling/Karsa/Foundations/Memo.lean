import Karsa.Foundations.Dicts
import Mathlib.Data.List.Nodup

/-!
# Foundations - Memo tables

A value is computed when it is first asked for and kept under a key; later requests are answered
from the table.  If different requests have different keys, the table cannot be told from the
function, and nothing is computed twice.

Main results:

- Theorem `queryAll_eq`: the answers to any requests are the values of the function.
- Theorem `sound_queryAll`, `mem_computed_iff`: every requested key is computed once.
-/

namespace Karsa

universe u v w

variable {Q : Type u} {κ : Type v} {ν : Type w} [DecidableEq κ]

/-- The kept values, and a record of the keys in the order in which they were computed. -/
structure Memo (κ : Type v) (ν : Type w) where
  table : Dict κ ν
  computed : List κ
deriving Repr, DecidableEq

namespace Memo

/-- Nothing has been asked for. -/
def empty : Memo κ ν :=
  ⟨[], []⟩

/-- Answer from the table, or compute the value and keep it. -/
def query (key : κ) (value : ν) (memo : Memo κ ν) : ν × Memo κ ν :=
  match memo.table.get key with
  | some kept => (kept, memo)
  | none => (value, ⟨memo.table.set key value, memo.computed ++ [key]⟩)

/-- One request after the other. -/
def queryAll (key : Q → κ) (f : Q → ν) : Memo κ ν → List Q → List ν × Memo κ ν
  | memo, [] => ([], memo)
  | memo, q :: rest =>
      let answer := memo.query (key q) (f q)
      let answers := queryAll key f answer.2 rest
      (answer.1 :: answers.1, answers.2)

/-- The table holds values of the function, and the record its keys. -/
structure Sound (key : Q → κ) (f : Q → ν) (memo : Memo κ ν) : Prop where
  value : ∀ q v, memo.table.get (key q) = some v → v = f q
  nodup : memo.computed.Nodup
  mem : ∀ k, k ∈ memo.computed ↔ (memo.table.get k).isSome = true

theorem sound_empty (key : Q → κ) (f : Q → ν) : Sound key f (empty : Memo κ ν) where
  value := fun q v h => by simp [empty] at h
  nodup := List.nodup_nil
  mem := fun k => by simp [empty]

variable {key : Q → κ} {f : Q → ν} {memo : Memo κ ν}

/-- A request is answered with the function's value. -/
theorem Sound.query_fst (h : Sound key f memo) (q : Q) : (memo.query (key q) (f q)).1 = f q := by
  unfold query
  cases hget : memo.table.get (key q) with
  | none => rfl
  | some kept => exact h.value q kept hget

/-- A request keeps the table sound, if no other request has its key. -/
theorem Sound.query_snd (h : Sound key f memo) (hkey : Function.Injective key) (q : Q) :
    Sound key f (memo.query (key q) (f q)).2 := by
  unfold query
  cases hget : memo.table.get (key q) with
  | some kept => exact h
  | none =>
      have hnew : key q ∉ memo.computed := by
        rw [h.mem, hget]
        simp
      refine ⟨fun q' v hv => ?_, ?_, fun k => ?_⟩
      · dsimp only at hv
        by_cases hsame : key q' = key q
        · rw [hsame, Dict.get_set_self, Option.some_inj] at hv
          rw [hkey hsame]
          exact hv.symm
        · rw [Dict.get_set_of_ne hsame] at hv
          exact h.value q' v hv
      · refine List.nodup_append.mpr ⟨h.nodup, List.nodup_singleton _, fun a ha b hb heq => ?_⟩
        rw [List.mem_singleton.mp hb] at heq
        exact hnew (heq ▸ ha)
      · dsimp only
        rw [List.mem_append, List.mem_singleton]
        by_cases hsame : k = key q
        · rw [hsame, Dict.get_set_self]
          exact iff_of_true (Or.inr rfl) rfl
        · rw [Dict.get_set_of_ne hsame, ← h.mem]
          exact or_iff_left hsame

/-- The answers to any requests, in any order and however often, are the function's values. -/
theorem queryAll_eq (hkey : Function.Injective key) (h : Sound key f memo) (requests : List Q) :
    (queryAll key f memo requests).1 = requests.map f := by
  induction requests generalizing memo with
  | nil => rfl
  | cons q rest ih =>
      rw [queryAll, List.map_cons]
      dsimp only
      rw [h.query_fst, ih (h.query_snd hkey q)]

/-- The table stays sound. -/
theorem sound_queryAll (hkey : Function.Injective key) (h : Sound key f memo)
    (requests : List Q) : Sound key f (queryAll key f memo requests).2 := by
  induction requests generalizing memo with
  | nil => exact h
  | cons q rest ih => exact ih (h.query_snd hkey q)

/-- A request adds its key to those that have been computed, if it is not there. -/
theorem Sound.mem_query (h : Sound key f memo) (q : Q) (k : κ) :
    k ∈ (memo.query (key q) (f q)).2.computed ↔ k ∈ memo.computed ∨ k = key q := by
  unfold query
  cases hget : memo.table.get (key q) with
  | some kept =>
      refine (or_iff_left_of_imp fun hk => ?_).symm
      rw [hk, h.mem, hget]
      rfl
  | none =>
      dsimp only
      rw [List.mem_append, List.mem_singleton]

/-- The keys that have been computed are those that were and those that were asked for. -/
theorem mem_computed_iff (hkey : Function.Injective key) (h : Sound key f memo)
    (requests : List Q) (k : κ) :
    k ∈ (queryAll key f memo requests).2.computed ↔
      k ∈ memo.computed ∨ k ∈ requests.map key := by
  induction requests generalizing memo with
  | nil => simp [queryAll]
  | cons q rest ih =>
      rw [queryAll]
      dsimp only
      rw [ih (h.query_snd hkey q), h.mem_query, List.map_cons, List.mem_cons, or_assoc]

end Memo

end Karsa
