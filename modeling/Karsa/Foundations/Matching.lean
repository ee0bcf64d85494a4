import Mathlib.Data.List.Basic
import Mathlib.Data.List.Nodup
import Mathlib.Data.List.ReduceOption

/-!
# Foundations - Matching requests with items of their class

Requests are served in order; each takes the first item of its own class that is left.
Within one class the loop therefore pairs the requests with the items in order.  Whatever the
choice, a loop that remembers what it took takes nothing twice.

Main results:

- Theorem `serve_mem_iff`: the served pairs, class by class.
- Theorem `nodup_claims`: nothing is claimed twice.
-/

namespace Karsa
namespace Matching

universe u v w

variable {α : Type u} {β : Type v} {κ : Type w} [DecidableEq κ] (ka : α → κ) (kb : β → κ)

/-- The members of a class. -/
def members (c : κ) (list : List β) : List β :=
  list.filter fun b => decide (kb b = c)

/-- Serve the requests one after the other. -/
def serve (free : List β) : List α → List (α × Option β)
  | [] => []
  | a :: rest =>
      match free.find? fun b => decide (kb b = ka a) with
      | some b => (a, some b) :: serve (free.eraseP fun b => decide (kb b = ka a)) rest
      | none => (a, none) :: serve free rest

/-- An element is the first of its class. -/
theorem members_cons_self (b : β) (list : List β) :
    members kb (kb b) (b :: list) = b :: members kb (kb b) list := by
  simp [members]

/-- An element of another class is left out. -/
theorem members_cons_of_ne {c : κ} {b : β} (hne : c ≠ kb b) (list : List β) :
    members kb c (b :: list) = members kb c list := by
  simp [members, Ne.symm hne]

/-- The first member of a class. -/
theorem find?_eq_head? (c : κ) (list : List β) :
    list.find? (fun b => decide (kb b = c)) = (members kb c list).head? := by
  rw [members, List.head?_filter]

/-- Without its first member a class keeps the others. -/
theorem members_eraseP_self (c : κ) (list : List β) :
    members kb c (list.eraseP fun b => decide (kb b = c)) = (members kb c list).tail := by
  induction list with
  | nil => rfl
  | cons b rest ih =>
      by_cases hb : kb b = c
      · simp [members, hb]
      · simpa [members, hb] using ih

/-- The other classes keep all their members. -/
theorem members_eraseP_of_ne {c c' : κ} (hne : c' ≠ c) (list : List β) :
    members kb c' (list.eraseP fun b => decide (kb b = c)) = members kb c' list := by
  induction list with
  | nil => rfl
  | cons b rest ih =>
      by_cases hb : kb b = c
      · have hb' : ¬ kb b = c' := fun h => hne (h.symm.trans hb)
        rw [List.eraseP_cons_of_pos (by simpa using hb), members, members,
          List.filter_cons_of_neg (by simpa using hb')]
      · rw [List.eraseP_cons_of_neg (by simpa using hb)]
        by_cases hb' : kb b = c'
        · simpa [members, hb'] using ih
        · simpa [members, hb'] using ih

/-- Nothing of its class is left for a request. -/
theorem serve_cons_none {free : List β} {a : α} (hclass : members kb (ka a) free = [])
    (rest : List α) : serve ka kb free (a :: rest) = (a, none) :: serve ka kb free rest := by
  have hfind : free.find? (fun b => decide (kb b = ka a)) = none := by
    rw [find?_eq_head?, hclass, List.head?_nil]
  rw [serve, hfind]

/-- A request takes the first item of its class. -/
theorem serve_cons_some {free items : List β} {a : α} {b : β}
    (hclass : members kb (ka a) free = b :: items) (rest : List α) :
    serve ka kb free (a :: rest) =
      (a, some b) :: serve ka kb (free.eraseP fun b => decide (kb b = ka a)) rest := by
  have hfind : free.find? (fun b => decide (kb b = ka a)) = some b := by
    rw [find?_eq_head?, hclass, List.head?_cons]
  rw [serve, hfind]

/-- The served pairs: in each class the requests take the items in order. -/
theorem serve_mem_iff {free : List β} {requests : List α} {a : α} {b : β} :
    (a, some b) ∈ serve ka kb free requests ↔
      ∃ c, (a, b) ∈ (members ka c requests).zip (members kb c free) := by
  induction requests generalizing free with
  | nil => simp [serve, members]
  | cons first rest ih =>
      cases hclass : members kb (ka first) free with
      | nil =>
          have hnone : (a, some b) ∈ serve ka kb free (first :: rest) ↔
              (a, some b) ∈ serve ka kb free rest := by
            simp [serve_cons_none ka kb hclass]
          rw [hnone, ih]
          apply exists_congr
          intro c
          by_cases hc : c = ka first
          · rw [hc, hclass, List.zip_nil_right, List.zip_nil_right]
          · rw [members_cons_of_ne ka hc]
      | cons item items =>
          have hsome : (a, some b) ∈ serve ka kb free (first :: rest) ↔
              (a, b) = (first, item) ∨ (a, some b) ∈ serve ka kb
                (free.eraseP fun b => decide (kb b = ka first)) rest := by
            simp [serve_cons_some ka kb hclass]
          have hzip : (members ka (ka first) (first :: rest)).zip
              (members kb (ka first) free) = (first, item) ::
                (members ka (ka first) rest).zip (members kb (ka first)
                  (free.eraseP fun b => decide (kb b = ka first))) := by
            rw [members_cons_self, hclass, members_eraseP_self, hclass, List.zip_cons_cons,
              List.tail_cons]
          rw [hsome, ih]
          constructor
          · rintro (heq | ⟨c, hmem⟩)
            · refine ⟨ka first, ?_⟩
              rw [hzip, heq]
              exact List.mem_cons_self
            · refine ⟨c, ?_⟩
              by_cases hc : c = ka first
              · subst hc
                rw [hzip]
                exact List.mem_cons_of_mem _ hmem
              · rw [members_eraseP_of_ne kb hc] at hmem
                rwa [members_cons_of_ne ka hc]
          · rintro ⟨c, hmem⟩
            by_cases hc : c = ka first
            · subst hc
              rw [hzip] at hmem
              rcases List.mem_cons.mp hmem with heq | hrest
              · exact Or.inl heq
              · exact Or.inr ⟨ka first, hrest⟩
            · rw [members_cons_of_ne ka hc] at hmem
              refine Or.inr ⟨c, ?_⟩
              rwa [members_eraseP_of_ne kb hc]

/-! ## Claims under any choice -/

section Claims

variable {ι : Type w} (choose : List ι → α → Option ι)

/-- What each request claims; the choice sees the claims before it. -/
def claims (taken : List ι) : List α → List (Option ι)
  | [] => []
  | a :: rest => choose taken a :: claims ((choose taken a).toList ++ taken) rest

variable {choose}

/-- A claim is of something not taken before the loop. -/
theorem not_taken_of_claimed (hfresh : ∀ taken a, ∀ i ∈ choose taken a, i ∉ taken)
    {taken : List ι} {requests : List α} {i : ι} (hi : some i ∈ claims choose taken requests) :
    i ∉ taken := by
  induction requests generalizing taken with
  | nil => cases hi
  | cons a rest ih =>
      rw [claims] at hi
      rcases List.mem_cons.mp hi with hfirst | hrest
      · exact hfresh taken a i hfirst.symm
      · intro htaken
        exact ih hrest (List.mem_append_right _ htaken)

/-- Nothing is claimed twice. -/
theorem nodup_claims (hfresh : ∀ taken a, ∀ i ∈ choose taken a, i ∉ taken) (taken : List ι)
    (requests : List α) : (claims choose taken requests).reduceOption.Nodup := by
  induction requests generalizing taken with
  | nil => exact List.nodup_nil
  | cons a rest ih =>
      rw [claims]
      cases hchoice : choose taken a with
      | none =>
          rw [List.reduceOption_cons_of_none]
          exact ih _
      | some i =>
          rw [List.reduceOption_cons_of_some, List.nodup_cons]
          refine ⟨?_, ih _⟩
          rw [List.reduceOption_mem_iff]
          intro hlater
          exact not_taken_of_claimed hfresh hlater (by simp)

end Claims

end Matching
end Karsa
