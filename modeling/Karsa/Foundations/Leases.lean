import Karsa.Foundations.Windows
import Mathlib.Algebra.Order.Group.Defs
import Mathlib.Data.List.Chain

/-!
# Foundations - Values with a lifetime

A store keeps a value for a while behind the moment at which it was written.  A history is kept
under such a lifetime by reading it, appending an entry, cutting it at its front and writing it
again.

Main results:

- Theorem `read_write_iff`: what was written is read back for as long as it lives.
- Theorem `foldl_remember`: a history whose entries come soon enough loses none but by the cut.
-/

namespace Karsa

universe u v

variable {T : Type u} {α : Type v}

/-- A written value and the end of its lifetime. -/
structure Lease (T : Type u) (α : Type v) where
  value : α
  expires : T
deriving Repr, DecidableEq

namespace Lease

variable [LinearOrder T]

/-- What a key holds at the given time. -/
def read (now : T) : Option (Lease T α) → Option α
  | none => none
  | some lease => if now < lease.expires then some lease.value else none

@[simp] theorem read_none (now : T) : read now (none : Option (Lease T α)) = none := rfl

variable [Add T]

/-- Write a value that lives for `ttl`. -/
def write (now ttl : T) (value : α) : Option (Lease T α) :=
  some ⟨value, now + ttl⟩

/-- What was written is read back for as long as it lives. -/
theorem read_write_iff {now later ttl : T} {value other : α} :
    read later (write now ttl value) = some other ↔ later < now + ttl ∧ other = value := by
  rw [write, read]
  split_ifs with hlive
  · rw [Option.some_inj]
    exact ⟨fun h => ⟨hlive, h.symm⟩, fun h => h.2.symm⟩
  · exact iff_of_false (by simp) fun h => hlive h.1

/-- Read a history, append an entry, keep the last `cap` ones and write them. -/
def remember (cap : ℕ) (ttl : T) (stamp : α → T) (cell : Option (Lease T (List α))) (item : α) :
    Option (Lease T (List α)) :=
  write (stamp item) ttl (((read (stamp item) cell).getD [] ++ [item]).rtake cap)

/-- A history whose entries come soon enough loses none but by the cut. -/
theorem foldl_remember {cap : ℕ} {ttl : T} {stamp : α → T} {log : List α} {last : α}
    (hsoon : (log ++ [last]).IsChain fun a b => stamp b < stamp a + ttl) :
    (log ++ [last]).foldl (remember cap ttl stamp) none =
      write (stamp last) ttl ((log ++ [last]).rtake cap) := by
  induction log using List.reverseRecOn generalizing last with
  | nil => rfl
  | append_singleton log a ih =>
      rw [List.isChain_append] at hsoon
      rcases hsoon with ⟨hlog, -, hlast⟩
      have hlive : stamp last < stamp a + ttl := hlast a (by simp) last (by simp)
      have hread : read (stamp last) (write (stamp a) ttl ((log ++ [a]).rtake cap)) =
          some ((log ++ [a]).rtake cap) := read_write_iff.mpr ⟨hlive, rfl⟩
      rw [List.foldl_append, ih hlog, List.foldl_cons, List.foldl_nil, remember, hread,
        Option.getD_some, rtake_concat_rtake]

end Lease

end Karsa
