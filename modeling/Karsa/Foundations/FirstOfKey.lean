import Mathlib.Data.List.Nodup

/-!
# Foundations - The first item of every key

A loop that skips the items whose key it has seen, and remembers the keys of those it keeps,
keeps of every key the first item that passes.

Main results:

- Theorem `mem_keepFirst_iff`: which items are kept.
- Theorem `nodup_keepFirst`: no key is kept twice.
-/

namespace Karsa
namespace FirstOfKey

universe u v

variable {α : Type u} {κ : Type v} (key : α → κ) (passes : α → Bool)

/-- The item passes before all others of its key. -/
def Leads (list : List α) (a : α) : Prop :=
  ∃ before after, list = before ++ a :: after ∧ passes a = true ∧
    ∀ b ∈ before, passes b = true → key b ≠ key a

/-- An item leads where it is at the head, or leads the rest and the head is no other item of
its key that passes. -/
theorem leads_cons {a b : α} {rest : List α} :
    Leads key passes (b :: rest) a ↔
      (a = b ∧ passes a = true) ∨
        (Leads key passes rest a ∧ (passes b = true → key b ≠ key a)) := by
  constructor
  · rintro ⟨before, after, hlist, hpasses, hfirst⟩
    cases before with
    | nil => exact Or.inl ⟨(List.cons.inj hlist).1.symm, hpasses⟩
    | cons head before =>
        rcases List.cons.inj hlist with ⟨rfl, hrest⟩
        refine Or.inr ⟨⟨before, after, hrest, hpasses, ?_⟩, hfirst b List.mem_cons_self⟩
        intro c hc
        exact hfirst c (List.mem_cons_of_mem _ hc)
  · rintro (⟨rfl, hpasses⟩ | ⟨⟨before, after, rfl, hpasses, hfirst⟩, hhead⟩)
    · exact ⟨[], rest, rfl, hpasses, by simp⟩
    · refine ⟨b :: before, after, rfl, hpasses, ?_⟩
      intro c hc
      rcases List.mem_cons.mp hc with rfl | hbefore
      · exact hhead
      · exact hfirst c hbefore

theorem not_leads_nil (a : α) : ¬ Leads key passes [] a := by
  rintro ⟨before, after, hlist, -⟩
  simp at hlist

variable [DecidableEq κ]

/-- Keep the items that pass and whose key is not among those seen. -/
def keepFirst (seen : List κ) : List α → List α
  | [] => []
  | a :: rest =>
      if key a ∉ seen ∧ passes a = true then a :: keepFirst (key a :: seen) rest
      else keepFirst seen rest

/-- The items kept are those that lead their key, where it was not seen before. -/
theorem mem_keepFirst_iff {seen : List κ} {list : List α} {a : α} :
    a ∈ keepFirst key passes seen list ↔ key a ∉ seen ∧ Leads key passes list a := by
  induction list generalizing seen with
  | nil => simp [keepFirst, not_leads_nil]
  | cons b rest ih =>
      rw [keepFirst, leads_cons]
      by_cases hkept : key b ∉ seen ∧ passes b = true
      · rw [if_pos hkept, List.mem_cons, ih, List.mem_cons, not_or]
        constructor
        · rintro (rfl | ⟨⟨hne, hseen⟩, hleads⟩)
          · exact ⟨hkept.1, Or.inl ⟨rfl, hkept.2⟩⟩
          · exact ⟨hseen, Or.inr ⟨hleads, fun _ => Ne.symm hne⟩⟩
        · rintro ⟨hseen, ⟨rfl, -⟩ | ⟨hleads, hhead⟩⟩
          · exact Or.inl rfl
          · exact Or.inr ⟨⟨Ne.symm (hhead hkept.2), hseen⟩, hleads⟩
      · rw [if_neg hkept, ih]
        constructor
        · rintro ⟨hseen, hleads⟩
          refine ⟨hseen, Or.inr ⟨hleads, ?_⟩⟩
          intro hpasses hkey
          exact hkept ⟨hkey ▸ hseen, hpasses⟩
        · rintro ⟨hseen, ⟨rfl, hpasses⟩ | ⟨hleads, -⟩⟩
          · exact absurd ⟨hseen, hpasses⟩ hkept
          · exact ⟨hseen, hleads⟩

/-- No key is kept twice. -/
theorem nodup_keepFirst (seen : List κ) (list : List α) :
    ((keepFirst key passes seen list).map key).Nodup := by
  induction list generalizing seen with
  | nil => exact List.nodup_nil
  | cons b rest ih =>
      rw [keepFirst]
      split
      · rw [List.map_cons, List.nodup_cons]
        refine ⟨?_, ih _⟩
        intro hmem
        rcases List.mem_map.mp hmem with ⟨a, ha, hkey⟩
        rw [mem_keepFirst_iff, hkey] at ha
        exact ha.1 List.mem_cons_self
      · exact ih seen

end FirstOfKey
end Karsa
