import Karsa.Foundations.Runs
import Mathlib.Algebra.Order.Field.Rat
import Mathlib.Data.List.Induction

/-!
# Foundations - Sorted sets and recency lists

A sorted set of Redis keeps every member once, in the order of the members' scores.  Adding a
member that is already there only moves it.  A set whose scores are times and whose oldest
members are removed is a cache of the most recently used members: what it holds is the front of
the recency list, in which every item stands once, at the place of its last use.

Main results:

- Theorem `take_recency_iff`: when the last uses are the last items.
- Theorem `take_touch`: a bounded cache holds the front of the recency list.
- Theorem `newest_run`: a sorted set by time, cut at its oldest members, is such a cache.
-/

namespace Karsa

universe u

/-! ## Recency lists -/

section Recency

variable {μ : Type u} [DecidableEq μ]

/-- The items of a list, each at its first place.  With the newest use first this is the order of
the last uses. -/
def recency : List μ → List μ
  | [] => []
  | m :: rest => m :: (recency rest).filter (· ≠ m)

/-- Using an item of a bounded cache moves it to the front. -/
def touch (cap : ℕ) (held : List μ) (m : μ) : List μ :=
  (m :: held.filter (· ≠ m)).take cap

/-- Every item stands once. -/
theorem nodup_recency (uses : List μ) : (recency uses).Nodup := by
  induction uses with
  | nil => exact List.nodup_nil
  | cons m rest ih =>
      rw [recency, List.nodup_cons]
      exact ⟨by simp, ih.filter _⟩

omit [DecidableEq μ] in
/-- A filter that keeps the front of a list. -/
theorem take_filter_eq_take {p : μ → Bool} {l : List μ} {n : ℕ}
    (h : ∀ x ∈ l.take n, p x = true) : (l.filter p).take n = l.take n := by
  induction l generalizing n with
  | nil => simp
  | cons x rest ih =>
      cases n with
      | zero => simp
      | succ n =>
          rw [List.take_succ_cons, List.forall_mem_cons] at h
          rw [List.filter_cons_of_pos h.1, List.take_succ_cons, List.take_succ_cons, ih h.2]

/-- The last uses are the last items exactly where no item repeats. -/
theorem take_recency_iff (uses : List μ) (n : ℕ) :
    (recency uses).take n = uses.take n ↔ (uses.take n).Nodup := by
  constructor
  · intro h
    rw [← h]
    exact (nodup_recency uses).sublist (List.take_sublist n _)
  · intro h
    induction uses generalizing n with
    | nil => rfl
    | cons m rest ih =>
        cases n with
        | zero => simp
        | succ n =>
            rw [List.take_succ_cons, List.nodup_cons] at h
            have hrest := ih n h.2
            have hkeep : ∀ x ∈ (recency rest).take n, decide (x ≠ m) = true := by
              intro x hx
              rw [hrest] at hx
              exact decide_eq_true fun hxm => h.1 (hxm ▸ hx)
            rw [recency, List.take_succ_cons, List.take_succ_cons, take_filter_eq_take hkeep, hrest]

/-- Leaving out one item of a list without repetitions takes one item more. -/
theorem take_filter_take {l : List μ} (hl : l.Nodup) (m : μ) (n : ℕ) :
    ((l.take (n + 1)).filter (· ≠ m)).take n = (l.filter (· ≠ m)).take n := by
  induction l generalizing n with
  | nil => simp
  | cons x rest ih =>
      rw [List.nodup_cons] at hl
      rw [List.take_succ_cons]
      by_cases hx : x = m
      · subst hx
        have hkeep : ∀ l : List μ, l ⊆ rest → l.filter (· ≠ x) = l := by
          intro l hsub
          rw [List.filter_eq_self]
          intro y hy
          exact decide_eq_true fun hyx => hl.1 (hyx ▸ hsub hy)
        rw [List.filter_cons_of_neg (by simp), List.filter_cons_of_neg (by simp),
          hkeep _ (List.take_subset n rest), hkeep rest (List.Subset.refl rest), List.take_take,
          min_self]
      · cases n with
        | zero => simp
        | succ n =>
            rw [List.filter_cons_of_pos (by simp [hx]), List.filter_cons_of_pos (by simp [hx]),
              List.take_succ_cons, List.take_succ_cons, ih hl.2 n]

/-- A bounded cache holds the front of the recency list. -/
theorem take_touch (cap : ℕ) (uses : List μ) (m : μ) :
    touch cap ((recency uses).take cap) m = (recency (m :: uses)).take cap := by
  unfold touch
  rw [recency]
  cases cap with
  | zero => simp
  | succ n =>
      rw [List.take_succ_cons, List.take_succ_cons, take_filter_take (nodup_recency uses)]

/-- The recency list of items that are told apart by a key. -/
def recencyBy {α : Type u} (key : α → μ) : List α → List α
  | [] => []
  | a :: rest => a :: (recencyBy key rest).filter fun b => key b ≠ key a

/-- Its keys are the recency list of the keys. -/
theorem map_recencyBy {α : Type u} (key : α → μ) (uses : List α) :
    (recencyBy key uses).map key = recency (uses.map key) := by
  induction uses with
  | nil => rfl
  | cons a rest ih =>
      rw [recencyBy, List.map_cons, List.map_cons, recency, ← ih, List.filter_map]
      rfl

/-- No item is added. -/
theorem recencyBy_subset {α : Type u} (key : α → μ) (uses : List α) :
    recencyBy key uses ⊆ uses := by
  induction uses with
  | nil => exact List.Subset.refl []
  | cons a rest ih =>
      rw [recencyBy]
      exact List.cons_subset_cons a fun b hb => ih (List.mem_of_mem_filter hb)

/-- Where no two items share a key, none is left out. -/
theorem recencyBy_eq_self {α : Type u} {key : α → μ} {uses : List α}
    (h : (uses.map key).Nodup) : recencyBy key uses = uses := by
  induction uses with
  | nil => rfl
  | cons a rest ih =>
      rw [List.map_cons, List.nodup_cons] at h
      rw [recencyBy, ih h.2, List.filter_eq_self.mpr]
      intro b hb
      rw [decide_eq_true_eq]
      rintro heq
      exact h.1 (heq ▸ List.mem_map_of_mem hb)

end Recency

/-! ## Sorted sets -/

/-- A sorted set: members with their scores, the lowest first. -/
abbrev SortedSet (μ : Type u) := List (ℚ × μ)

namespace SortedSet

variable {μ : Type u} [DecidableEq μ]

section Order

variable (atMost : μ → μ → Bool)

/-- By score, and by member where the scores agree. -/
def precedes (x y : ℚ × μ) : Bool :=
  decide (x.1 < y.1) || (decide (x.1 = y.1) && atMost x.2 y.2)

/-- Put an item at its place. -/
def place (item : ℚ × μ) : SortedSet μ → SortedSet μ
  | [] => [item]
  | x :: rest => if precedes atMost x item then x :: place item rest else item :: x :: rest

/-- `ZADD` with one member. -/
def zadd (score : ℚ) (member : μ) (s : SortedSet μ) : SortedSet μ :=
  place atMost (score, member) (s.filter fun item => item.2 ≠ member)

end Order

/-- An index from the end. -/
def fromEnd (n : ℕ) (i : ℤ) : ℤ :=
  if i < 0 then i + n else i

/-- `ZREVRANGE`: the members of a range of ranks, the highest score first. -/
def zrevrange (start stop : ℤ) (s : SortedSet μ) : List μ :=
  let ranked := (s.map Prod.snd).reverse
  (ranked.take (fromEnd s.length stop + 1).toNat).drop (fromEnd s.length start).toNat

/-- `ZREMRANGEBYRANK`. -/
def zremrangebyrank (start stop : ℤ) (s : SortedSet μ) : SortedSet μ :=
  let first := max 0 (fromEnd s.length start)
  let last := fromEnd s.length stop
  if first ≤ last then s.take first.toNat ++ s.drop (last + 1).toNat else s

/-- The members, the newest first. -/
def newest (s : SortedSet μ) : List μ :=
  (s.map Prod.snd).reverse

/-- Add a member and keep the `cap` highest scores. -/
def log (atMost : μ → μ → Bool) (cap : ℕ) (s : SortedSet μ) (item : ℚ × μ) : SortedSet μ :=
  zremrangebyrank 0 (-(cap + 1)) (zadd atMost item.1 item.2 s)

variable {atMost : μ → μ → Bool}

omit [DecidableEq μ] in
/-- The highest score goes to the end. -/
theorem place_of_lt {item : ℚ × μ} {s : SortedSet μ} (h : ∀ x ∈ s, x.1 < item.1) :
    place atMost item s = s ++ [item] := by
  induction s with
  | nil => rfl
  | cons x rest ih =>
      rw [List.forall_mem_cons] at h
      have hx : precedes atMost x item = true := by simp [precedes, h.1]
      rw [place, if_pos hx, ih h.2, List.cons_append]

omit [DecidableEq μ] in
/-- Cutting the lowest scores keeps the newest members. -/
theorem newest_zremrangebyrank (cap : ℕ) (s : SortedSet μ) :
    (zremrangebyrank 0 (-(cap + 1)) s).newest = s.newest.take cap := by
  have hdrop : zremrangebyrank 0 (-(cap + 1)) s = s.drop (s.length - cap) := by
    unfold zremrangebyrank fromEnd
    dsimp only
    rw [if_neg (lt_irrefl 0), max_self, if_pos (by omega : -((cap : ℤ) + 1) < 0)]
    split_ifs with hcut
    · have hcount : (-((cap : ℤ) + 1) + s.length + 1).toNat = s.length - cap := by omega
      rw [hcount, Int.toNat_zero, List.take_zero, List.nil_append]
    · have hcount : s.length - cap = 0 := by omega
      rw [hcount, List.drop_zero]
  rw [hdrop, newest, newest, List.take_reverse, List.length_map, List.map_drop]

/-- A later member is used last. -/
theorem newest_log {s : SortedSet μ} {item : ℚ × μ} (h : ∀ x ∈ s, x.1 < item.1) (cap : ℕ) :
    (log atMost cap s item).newest = touch cap s.newest item.2 := by
  have hplace : zadd atMost item.1 item.2 s =
      (s.filter fun x => x.2 ≠ item.2) ++ [(item.1, item.2)] :=
    place_of_lt fun x hx => h x (List.mem_of_mem_filter hx)
  rw [log, newest_zremrangebyrank, hplace, touch, newest, newest, List.map_append,
    List.reverse_append, List.filter_reverse, List.filter_map]
  rfl

/-- Cutting and adding leave no other scores. -/
theorem mem_log {s : SortedSet μ} {item x : ℚ × μ} {cap : ℕ} (hx : x ∈ log atMost cap s item) :
    x = item ∨ x ∈ s := by
  have hadd : x ∈ zadd atMost item.1 item.2 s := by
    unfold log zremrangebyrank at hx
    dsimp only at hx
    split_ifs at hx
    · rcases List.mem_append.mp hx with h | h
      · exact List.mem_of_mem_take h
      · exact List.mem_of_mem_drop h
    · exact hx
  have hplace : ∀ l : SortedSet μ, x ∈ place atMost item l → x = item ∨ x ∈ l := by
    intro l
    induction l with
    | nil => exact fun h => Or.inl (List.mem_singleton.mp h)
    | cons y rest ih =>
        intro h
        rw [place] at h
        split_ifs at h
        · rcases List.mem_cons.mp h with h | h
          · exact Or.inr (h ▸ List.mem_cons_self)
          · exact (ih h).imp_right (List.mem_cons_of_mem y)
        · rcases List.mem_cons.mp h with h | h
          · exact Or.inl h
          · exact Or.inr h
  exact (hplace _ hadd).imp_right List.mem_of_mem_filter

/-- A sorted set by time, cut at its oldest members, is a cache of the last uses. -/
theorem newest_run {items : List (ℚ × μ)} (hitems : items.Pairwise fun a b => a.1 < b.1)
    (cap : ℕ) :
    (run (log atMost cap) [] items).newest = (recency (items.map Prod.snd).reverse).take cap ∧
      ∀ x ∈ run (log atMost cap) [] items, x ∈ items := by
  induction items using List.reverseRecOn with
  | nil => simp [newest, recency]
  | append_singleton items item ih =>
      rw [List.pairwise_append] at hitems
      rcases ih hitems.1 with ⟨hnewest, hmem⟩
      have hlast : ∀ x ∈ run (log atMost cap) [] items, x.1 < item.1 := fun x hx =>
        hitems.2.2 x (hmem x hx) item List.mem_cons_self
      have hstep : run (log atMost cap) [] (items ++ [item]) =
          log atMost cap (run (log atMost cap) [] items) item := by
        rw [run, List.foldl_append]
        rfl
      rw [hstep]
      refine ⟨?_, fun x hx => ?_⟩
      · rw [newest_log hlast, hnewest, take_touch, List.map_append, List.reverse_append]
        rfl
      · rcases mem_log hx with heq | hold
        · exact List.mem_append_right items (heq ▸ List.mem_cons_self)
        · exact List.mem_append_left [item] (hmem x hold)

end SortedSet
end Karsa
