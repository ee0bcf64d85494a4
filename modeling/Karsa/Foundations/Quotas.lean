import Karsa.Foundations.Selection
import Mathlib.Data.List.Count
import Mathlib.Data.List.Perm.Subperm

/-!
# Foundations - Picking under quotas

Items are offered one after the other.  An item is picked if it qualifies and the quota of its
group is not used up; the picking ends when the limit is reached.  Offered by falling key, the
items picked are the best of their groups.

Main results:

- Theorem `pick_spec`: what is picked are offered items that qualify.
- Theorem `length_pick_le`, `group_pick_le`: the limit and the quotas are kept.
- Theorem `pick_best`: no item is picked before a better one of its group.
- Theorem `pick_full`: nothing that could be picked is left.
- Theorem `pick_eq_nil_iff`: when nothing is picked.
-/

namespace Karsa
namespace Quotas

variable {α G K : Type*} [DecidableEq G] [LinearOrder K]

/-- How many items are of a group. -/
def groupSize (group : α → G) (g : G) (items : List α) : ℕ :=
  (items.filter fun x => decide (group x = g)).length

@[simp] theorem groupSize_nil (group : α → G) (g : G) : groupSize group g [] = 0 := rfl

/-- One more item counts in its group. -/
theorem groupSize_append_singleton (group : α → G) (g : G) (items : List α) (x : α) :
    groupSize group g (items ++ [x]) = groupSize group g items + if group x = g then 1 else 0 := by
  unfold groupSize
  rw [List.filter_append, List.length_append]
  by_cases h : group x = g <;> simp [h]

section Pick

variable (group : α → G) (qualifies : α → Bool) (quota limit : ℤ)

/-- Go on with the offered items behind those that are picked. -/
def pick : List α → List α → List α
  | picked, [] => picked
  | picked, x :: rest =>
      if qualifies x = false then pick picked rest
      else if quota ≤ groupSize group (group x) picked then pick picked rest
      else if limit ≤ picked.length + 1 then picked ++ [x]
      else pick (picked ++ [x]) rest

end Pick

variable {group : α → G} {qualifies : α → Bool} {quota limit : ℤ}

/-- What is picked are offered items that qualify, in their order. -/
theorem pick_spec (group : α → G) (qualifies : α → Bool) (quota limit : ℤ)
    (picked offered : List α) :
    ∃ added, pick group qualifies quota limit picked offered = picked ++ added ∧
      List.Sublist added offered ∧ ∀ x ∈ added, qualifies x = true := by
  induction offered generalizing picked with
  | nil => exact ⟨[], by simp [pick], List.Sublist.refl [], by simp⟩
  | cons x rest ih =>
      rw [pick]
      split_ifs with hno hfull hlimit
      · rcases ih picked with ⟨added, hpick, hsub, hall⟩
        exact ⟨added, hpick, hsub.cons x, hall⟩
      · rcases ih picked with ⟨added, hpick, hsub, hall⟩
        exact ⟨added, hpick, hsub.cons x, hall⟩
      · refine ⟨[x], rfl, List.singleton_sublist.mpr List.mem_cons_self, ?_⟩
        simpa using hno
      · rcases ih (picked ++ [x]) with ⟨added, hpick, hsub, hall⟩
        refine ⟨x :: added, by rw [hpick]; simp, hsub.cons_cons x, ?_⟩
        rw [List.forall_mem_cons]
        exact ⟨by simpa using hno, hall⟩

/-- The limit is kept. -/
theorem length_pick_le {picked : List α} (hpicked : (picked.length : ℤ) < limit)
    (offered : List α) :
    ((pick group qualifies quota limit picked offered).length : ℤ) ≤ limit := by
  induction offered generalizing picked with
  | nil => exact hpicked.le
  | cons x rest ih =>
      rw [pick]
      split_ifs with hno hfull hlimit
      · exact ih hpicked
      · exact ih hpicked
      · rw [List.length_append, List.length_singleton]
        omega
      · refine ih ?_
        rw [List.length_append, List.length_singleton]
        push_cast
        omega

/-- A group whose quota is used up gets no more. -/
theorem groupSize_pick_of_full (qualifies : α → Bool) (limit : ℤ) {g : G} {picked : List α}
    (hfull : quota ≤ groupSize group g picked) (offered : List α) :
    groupSize group g (pick group qualifies quota limit picked offered) =
      groupSize group g picked := by
  induction offered generalizing picked with
  | nil => rfl
  | cons x rest ih =>
      rw [pick]
      have hsame (hopen : ¬ quota ≤ groupSize group (group x) picked) :
          groupSize group g (picked ++ [x]) = groupSize group g picked := by
        have hne : group x ≠ g := fun heq => hopen (heq ▸ hfull)
        rw [groupSize_append_singleton, if_neg hne, Nat.add_zero]
      split_ifs with hno hquota hlimit
      · exact ih hfull
      · exact ih hfull
      · exact hsame hquota
      · rw [ih (by rwa [hsame hquota]), hsame hquota]

/-- The quotas are kept. -/
theorem group_pick_le {picked : List α}
    (hpicked : ∀ x ∈ picked, (groupSize group (group x) picked : ℤ) ≤ quota) (offered : List α) :
    ∀ x ∈ pick group qualifies quota limit picked offered,
      (groupSize group (group x) (pick group qualifies quota limit picked offered) : ℤ) ≤
        quota := by
  induction offered generalizing picked with
  | nil => exact hpicked
  | cons x rest ih =>
      rw [pick]
      split_ifs with hno hquota hlimit
      · exact ih hpicked
      · exact ih hpicked
      all_goals
        have hnext : ∀ y ∈ picked ++ [x],
            (groupSize group (group y) (picked ++ [x]) : ℤ) ≤ quota := by
          intro y hy
          rw [groupSize_append_singleton]
          by_cases hgroup : group x = group y
          · rw [if_pos hgroup, ← hgroup]
            push_cast
            omega
          · rw [if_neg hgroup, Nat.add_zero]
            refine hpicked y ((List.mem_append.mp hy).resolve_right fun hlast => ?_)
            exact hgroup (by rw [List.mem_singleton.mp hlast])
      · exact hnext
      · exact ih hnext

/-- Where a group can be picked from, its items are offered by falling key, and items that
qualify are better than those that do not, every offered item better than a picked one of its
group is picked as often as it is offered. -/
theorem pick_best [DecidableEq α] {key : α → K}
    (hkey : ∀ x y, qualifies x = true → key x ≤ key y → qualifies y = true)
    (picked : List α) {offered : List α} (hsorted : offered.Pairwise fun a b => key b ≤ key a) :
    ∃ added, pick group qualifies quota limit picked offered = picked ++ added ∧
      ∀ x ∈ added, ∀ y, group y = group x → key x < key y → added.count y = offered.count y := by
  induction offered generalizing picked with
  | nil => exact ⟨[], by simp [pick], by simp⟩
  | cons x rest ih =>
      rw [List.pairwise_cons] at hsorted
      rcases hsorted with ⟨hfirst, hrest⟩
      -- Nothing in the list is better than its first item.
      have hnone : ∀ y, key x < key y → (x :: rest).count y = 0 := by
        intro y hy
        refine List.count_eq_zero.mpr fun hmem => ?_
        rcases List.mem_cons.mp hmem with rfl | hmem
        · exact lt_irrefl _ hy
        · exact absurd (hfirst y hmem) (not_le.mpr hy)
      rw [pick]
      split_ifs with hno hfull hlimit
      · -- Behind an item that does not qualify nothing is picked.
        rcases pick_spec group qualifies quota limit picked rest with
          ⟨added, hpick, hsub, hall⟩
        refine ⟨added, hpick, fun z hz => ?_⟩
        have hqualifies := hkey z x (hall z hz) (hfirst z (hsub.subset hz))
        rw [hqualifies] at hno
        cases hno
      · rcases ih picked hrest with ⟨added, hpick, hbest⟩
        refine ⟨added, hpick, fun z hz y hgroup hlt => ?_⟩
        -- The group of the first item gets no more, so `y` is not the first item.
        have hne : x ≠ y := by
          rintro rfl
          have hsize := groupSize_pick_of_full qualifies limit hfull rest
          rw [hpick] at hsize
          have hpos : 0 < groupSize group (group x) added :=
            List.length_pos_of_mem (List.mem_filter.mpr ⟨hz, decide_eq_true hgroup.symm⟩)
          simp only [groupSize, List.filter_append, List.length_append] at hsize hpos
          omega
        rw [hbest z hz y hgroup hlt, List.count_cons_of_ne hne]
      · refine ⟨[x], rfl, fun z hz y _ hlt => ?_⟩
        rw [List.mem_singleton.mp hz] at hlt
        have hne : x ≠ y := by
          rintro rfl
          exact lt_irrefl _ hlt
        rw [hnone y hlt, List.count_singleton, if_neg (by simpa using hne)]
      · rcases ih (picked ++ [x]) hrest with ⟨added, hpick, hbest⟩
        refine ⟨x :: added, by rw [hpick]; simp, fun z hz y hgroup hlt => ?_⟩
        rcases List.mem_cons.mp hz with rfl | hmem
        · rcases pick_spec group qualifies quota limit (picked ++ [z]) rest with
            ⟨added', hpick', hsub, -⟩
          have hadded : added' = added := by
            rw [hpick] at hpick'
            exact (List.append_cancel_left hpick').symm
          rw [hnone y hlt]
          refine List.count_eq_zero.mpr fun hy => ?_
          refine List.count_eq_zero.mp (hnone y hlt) ?_
          rcases List.mem_cons.mp hy with rfl | hy
          · exact List.mem_cons_self
          · exact List.mem_cons_of_mem z (hsub.subset (hadded ▸ hy))
        · rw [List.count_cons, List.count_cons, hbest z hmem y hgroup hlt]

/-- No group shrinks. -/
theorem groupSize_le_pick (group : α → G) (qualifies : α → Bool) (quota limit : ℤ) (g : G)
    (picked offered : List α) :
    groupSize group g picked ≤
      groupSize group g (pick group qualifies quota limit picked offered) := by
  rcases pick_spec group qualifies quota limit picked offered with ⟨added, hpick, -, -⟩
  rw [hpick, groupSize, groupSize, List.filter_append, List.length_append]
  exact Nat.le_add_right _ _

/-- Where the limit is not reached and the quota of a group is not used up, its items that
qualify are picked as often as they are offered. -/
theorem pick_full [DecidableEq α] {x : α} (hx : qualifies x = true) (picked offered : List α)
    (hplace : ((pick group qualifies quota limit picked offered).length : ℤ) < limit)
    (hopen : (groupSize group (group x) (pick group qualifies quota limit picked offered) : ℤ) <
      quota) :
    (pick group qualifies quota limit picked offered).count x =
      picked.count x + offered.count x := by
  induction offered generalizing picked with
  | nil => simp [pick]
  | cons y rest ih =>
      rw [pick] at hplace hopen ⊢
      split_ifs at hplace hopen ⊢ with hno hfull hlimit
      · have hne : y ≠ x := by
          rintro rfl
          rw [hx] at hno
          cases hno
        rw [ih picked hplace hopen, List.count_cons_of_ne hne]
      · have hne : y ≠ x := by
          rintro rfl
          have hgrown := groupSize_le_pick group qualifies quota limit (group y) picked rest
          omega
        rw [ih picked hplace hopen, List.count_cons_of_ne hne]
      · rw [List.length_append, List.length_singleton] at hplace
        omega
      · rw [ih (picked ++ [y]) hplace hopen, List.count_append, List.count_singleton,
          List.count_cons]
        omega

/-- Nothing is picked if no quota is open or nothing qualifies. -/
theorem pick_eq_nil_iff (offered : List α) :
    pick group qualifies quota limit [] offered = [] ↔
      quota ≤ 0 ∨ ∀ x ∈ offered, qualifies x = false := by
  induction offered with
  | nil => simp [pick]
  | cons x rest ih =>
      rw [pick]
      split_ifs with hno hfull hlimit
      · rw [ih]
        simp [hno]
      · rw [ih]
        have hzero : quota ≤ 0 := by simpa using hfull
        simp [hzero]
      · have hopen : ¬ quota ≤ 0 := by simpa using hfull
        simp [hopen, hno]
      · have hopen : ¬ quota ≤ 0 := by simpa using hfull
        rcases pick_spec group qualifies quota limit ([] ++ [x]) rest with ⟨added, hpick, -, -⟩
        rw [hpick]
        simp [hopen, hno]

end Quotas
end Karsa
