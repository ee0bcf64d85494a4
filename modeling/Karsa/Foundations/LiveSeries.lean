import Mathlib.Data.List.Basic
import Mathlib.Data.List.Nodup
import Mathlib.Order.Lattice

/-!
# Foundations - Series whose newest item changes

Items arrive in the order of their stamps.  The newest one may still be replaced by another
version of itself; it is closed by the first item with a later stamp, and closed items stay.
Readers fetch the most recent items and keep those behind the last one they have seen.

Main results:

- Theorem `closed_observe`: what is closed stays as it is.
- Theorem `mem_recent`: items with few newer ones are among the recent ones.
- Theorem `lastVersion_append`: which version of an item was logged last.
-/

namespace Karsa

universe u v

variable {C : Type u} {T : Type v} [LinearOrder T]

/-- Items in the order of their stamps, the newest last. -/
structure LiveSeries (stamp : C → T) where
  items : List C
  ordered : items.Pairwise fun a b => stamp a < stamp b

namespace LiveSeries

variable {stamp : C → T}

/-- Nothing yet. -/
def empty : LiveSeries stamp :=
  ⟨[], List.Pairwise.nil⟩

/-- All items but the newest. -/
def closed (s : LiveSeries stamp) : List C :=
  s.items.dropLast

/-- The last `n` items. -/
def recent (n : ℕ) (s : LiveSeries stamp) : List C :=
  s.items.drop (s.items.length - n)

/-- Items under one stamp are one item. -/
theorem eq_of_stamp_eq (s : LiveSeries stamp) {c d : C} (hc : c ∈ s.items) (hd : d ∈ s.items)
    (h : stamp c = stamp d) : c = d := by
  have hnodup : (s.items.map stamp).Nodup := List.pairwise_map.mpr (s.ordered.imp ne_of_lt)
  exact List.inj_on_of_nodup_map hnodup hc hd h

/-- No item is newer than the last one. -/
theorem stamp_le_last (s : LiveSeries stamp) {c last : C} (hc : c ∈ s.items)
    (hlast : s.items.getLast? = some last) : stamp c ≤ stamp last := by
  have hsplit := List.dropLast_append_getLast? last hlast
  have hordered := s.ordered
  rw [← hsplit] at hordered hc
  rcases List.mem_append.mp hc with hold | hnew
  · exact ((List.pairwise_append.mp hordered).2.2 c hold last List.mem_cons_self).le
  · rw [List.mem_singleton.mp hnew]

/-- An item is closed if there is a newer one. -/
theorem mem_closed_iff (s : LiveSeries stamp) {c : C} :
    c ∈ s.closed ↔ c ∈ s.items ∧ ∃ d ∈ s.items, stamp c < stamp d := by
  cases hlast : s.items.getLast? with
  | none =>
      have hnil : s.items = [] := List.getLast?_eq_none_iff.mp hlast
      simp [closed, hnil]
  | some last =>
      have hsplit := List.dropLast_append_getLast? last hlast
      have hordered := s.ordered
      rw [← hsplit] at hordered
      constructor
      · intro hc
        refine ⟨List.dropLast_subset s.items hc, last, List.mem_of_getLast? hlast, ?_⟩
        exact (List.pairwise_append.mp hordered).2.2 c hc last List.mem_cons_self
      · rintro ⟨hc, d, hd, hlt⟩
        rw [← hsplit] at hc
        rcases List.mem_append.mp hc with hold | hnew
        · exact hold
        · rw [List.mem_singleton.mp hnew] at hlt
          exact absurd hlt (s.stamp_le_last hd hlast).not_gt

/-! ## Arrivals -/

/-- A version of an item arrives: of the newest one, of a newer one, or too late. -/
def observe (c : C) (s : LiveSeries stamp) : LiveSeries stamp :=
  match hlast : s.items.getLast? with
  | none => ⟨[c], List.pairwise_singleton _ c⟩
  | some last =>
      if hnew : stamp last < stamp c then
        { items := s.items ++ [c]
          ordered := by
            refine List.pairwise_append.mpr ⟨s.ordered, List.pairwise_singleton _ c, ?_⟩
            intro a ha b hb
            rw [List.mem_singleton.mp hb]
            exact (s.stamp_le_last ha hlast).trans_lt hnew }
      else if hsame : stamp last = stamp c then
        { items := s.items.dropLast ++ [c]
          ordered := by
            have hordered := s.ordered
            rw [← List.dropLast_append_getLast? last hlast] at hordered
            rw [List.pairwise_append] at hordered ⊢
            refine ⟨hordered.1, List.pairwise_singleton _ c, ?_⟩
            intro a ha b hb
            rw [List.mem_singleton.mp hb, ← hsame]
            exact hordered.2.2 a ha last List.mem_cons_self }
      else s

/-- What an arrival does: it appends an item, replaces the newest, or is too late. -/
theorem observe_cases (c : C) (s : LiveSeries stamp) :
    ((s.observe c).items = s.items ++ [c] ∧ ∀ d ∈ s.items, stamp d < stamp c) ∨
      (∃ last, s.items.getLast? = some last ∧ stamp last = stamp c ∧
        (s.observe c).items = s.items.dropLast ++ [c]) ∨
      (s.observe c).items = s.items := by
  unfold observe
  split
  · rename_i hlast
    have hnil : s.items = [] := List.getLast?_eq_none_iff.mp hlast
    exact Or.inl (by simp [hnil])
  · rename_i last hlast
    split_ifs with hnew hsame
    · exact Or.inl ⟨rfl, fun d hd => (s.stamp_le_last hd hlast).trans_lt hnew⟩
    · exact Or.inr (Or.inl ⟨last, hlast, hsame, rfl⟩)
    · exact Or.inr (Or.inr rfl)

/-- An item behind an arrival is an old one, or the arrived one with no older stamp than any. -/
theorem mem_observe {c d : C} {s : LiveSeries stamp} (hd : d ∈ (s.observe c).items) :
    d ∈ s.items ∨ (d = c ∧ ∀ x ∈ s.items, stamp x ≤ stamp c) := by
  rcases s.observe_cases c with ⟨hitems, hnew⟩ | ⟨last, hlast, hsame, hitems⟩ | hitems
  · rw [hitems, List.mem_append, List.mem_singleton] at hd
    exact hd.imp_right fun heq => ⟨heq, fun x hx => (hnew x hx).le⟩
  · rw [hitems, List.mem_append, List.mem_singleton] at hd
    exact hd.imp (fun hold => List.dropLast_subset s.items hold) fun heq =>
      ⟨heq, fun x hx => hsame ▸ s.stamp_le_last hx hlast⟩
  · rw [hitems] at hd
    exact Or.inl hd

/-- Every item keeps its place behind an arrival, under its stamp. -/
theorem exists_mem_observe {d : C} {s : LiveSeries stamp} (hd : d ∈ s.items) (c : C) :
    ∃ x ∈ (s.observe c).items, stamp x = stamp d := by
  rcases s.observe_cases c with ⟨hitems, -⟩ | ⟨last, hlast, hsame, hitems⟩ | hitems
  · exact ⟨d, by rw [hitems]; exact List.mem_append_left [c] hd, rfl⟩
  · rw [← List.dropLast_append_getLast? last hlast] at hd
    rcases List.mem_append.mp hd with hold | hnew
    · exact ⟨d, by rw [hitems]; exact List.mem_append_left [c] hold, rfl⟩
    · refine ⟨c, by rw [hitems]; exact List.mem_append_right _ List.mem_cons_self, ?_⟩
      rw [List.mem_singleton.mp hnew, hsame]
  · exact ⟨d, by rwa [hitems], rfl⟩

/-- What is closed stays as it is. -/
theorem closed_observe (c : C) (s : LiveSeries stamp) : s.closed <+: (s.observe c).closed := by
  rcases s.observe_cases c with ⟨hitems, -⟩ | ⟨last, -, -, hitems⟩ | hitems
  · rw [closed, closed, hitems, List.dropLast_concat]
    exact List.dropLast_prefix s.items
  · have hclosed : (s.observe c).closed = s.closed := by
      rw [closed, closed, hitems, List.dropLast_concat]
    exact ⟨[], by rw [hclosed, List.append_nil]⟩
  · have hclosed : (s.observe c).closed = s.closed := by
      rw [closed, closed, hitems]
    exact ⟨[], by rw [hclosed, List.append_nil]⟩

/-! ## Fetching -/

theorem recent_suffix (n : ℕ) (s : LiveSeries stamp) : s.recent n <:+ s.items :=
  List.drop_suffix _ _

/-- Recent items are items. -/
theorem mem_of_mem_recent {n : ℕ} {s : LiveSeries stamp} {c : C} (hc : c ∈ s.recent n) :
    c ∈ s.items :=
  (s.recent_suffix n).subset hc

/-- Recent items are in order. -/
theorem ordered_recent (n : ℕ) (s : LiveSeries stamp) :
    (s.recent n).Pairwise fun a b => stamp a < stamp b :=
  s.ordered.sublist (s.recent_suffix n).sublist

/-- The items split into older ones and recent ones. -/
theorem older_recent {n : ℕ} {s : LiveSeries stamp} {c d : C} (hc : c ∈ s.items)
    (hc' : c ∉ s.recent n) (hd : d ∈ s.recent n) : stamp c < stamp d := by
  have hsplit : s.items.take (s.items.length - n) ++ s.recent n = s.items :=
    List.take_append_drop _ _
  have hordered := s.ordered
  rw [← hsplit, List.pairwise_append] at hordered
  rw [← hsplit] at hc
  rcases List.mem_append.mp hc with hold | hnew
  · exact hordered.2.2 c hold d hd
  · exact absurd hnew hc'

/-- An item with few behind it is among the recent ones. -/
theorem mem_recent {n : ℕ} {s : LiveSeries stamp} {c : C} (hc : c ∈ s.items)
    (hfew : (s.items.filter fun d => decide (stamp c ≤ stamp d)).length ≤ n) :
    c ∈ s.recent n := by
  by_contra hold
  have hsplit : s.items.take (s.items.length - n) ++ s.recent n = s.items :=
    List.take_append_drop _ _
  have hrecent : (s.recent n).filter (fun d => decide (stamp c ≤ stamp d)) = s.recent n :=
    List.filter_eq_self.mpr fun d hd => decide_eq_true (older_recent hc hold hd).le
  have holder : c ∈ (s.items.take (s.items.length - n)).filter
      fun d => decide (stamp c ≤ stamp d) := by
    rw [← hsplit] at hc
    exact List.mem_filter.mpr
      ⟨(List.mem_append.mp hc).resolve_right hold, decide_eq_true le_rfl⟩
  have hpos := List.length_pos_of_mem holder
  have htake := List.length_pos_of_mem (List.mem_of_mem_filter holder)
  have hlength : (s.recent n).length = s.items.length - (s.items.length - n) :=
    List.length_drop
  rw [← hsplit, List.filter_append, hrecent, List.length_append] at hfew
  rw [List.length_take] at htake
  omega

/-- The newest item is a recent one. -/
theorem last_mem_recent {n : ℕ} (hn : 0 < n) {s : LiveSeries stamp} {last : C}
    (hlast : s.items.getLast? = some last) : last ∈ s.recent n := by
  have hpos : 0 < s.items.length := List.length_pos_of_mem (List.mem_of_getLast? hlast)
  apply List.mem_of_getLast?
  rw [recent, List.getLast?_drop, if_neg (by omega), hlast]

/-- What is recent behind an arrival was recent before, or arrived with no older stamp than
any. -/
theorem mem_recent_observe {n : ℕ} {c d : C} {s : LiveSeries stamp}
    (hd : d ∈ (s.observe c).recent n) :
    d ∈ s.recent n ∨ (d = c ∧ ∀ x ∈ s.items, stamp x ≤ stamp c) := by
  unfold recent at hd ⊢
  rcases s.observe_cases c with ⟨hitems, hnew⟩ | ⟨last, hlast, hsame, hitems⟩ | hitems
  · rw [hitems, List.length_append, List.length_singleton, List.drop_append, List.mem_append] at hd
    refine hd.imp (fun hold => ?_) fun hlate => ?_
    · exact (List.drop_sublist_drop_left s.items (by omega)).subset hold
    · exact ⟨by simpa using List.mem_of_mem_drop hlate, fun x hx => (hnew x hx).le⟩
  · rw [hitems, List.length_append, List.length_singleton, List.drop_append, List.mem_append] at hd
    have hpos : 0 < s.items.length := List.length_pos_of_mem (List.mem_of_getLast? hlast)
    rw [List.length_dropLast, Nat.sub_add_cancel hpos] at hd
    refine hd.imp (fun hold => ?_) fun hlate => ?_
    · exact ((List.dropLast_sublist s.items).drop _).subset hold
    · exact ⟨by simpa using List.mem_of_mem_drop hlate,
        fun x hx => hsame ▸ s.stamp_le_last hx hlast⟩
  · rw [hitems] at hd
    exact Or.inl hd

end LiveSeries

/-! ## Logged versions -/

/-- The version of an item that was logged last. -/
def lastVersion (stamp : C → T) (log : List C) (t : T) : Option C :=
  (log.filter fun c => decide (stamp c = t)).getLast?

/-- Newer entries come before older ones. -/
theorem lastVersion_append (stamp : C → T) (log new : List C) (t : T) :
    lastVersion stamp (log ++ new) t = (lastVersion stamp new t).or (lastVersion stamp log t) := by
  rw [lastVersion, lastVersion, lastVersion, List.filter_append, List.getLast?_append]

/-- Without an entry nothing was logged last. -/
theorem lastVersion_eq_none {stamp : C → T} {log : List C} {t : T}
    (h : ∀ c ∈ log, stamp c ≠ t) : lastVersion stamp log t = none := by
  rw [lastVersion, List.filter_eq_nil_iff.mpr]
  · rfl
  · intro c hc
    simpa using h c hc

/-- In a log in the order of the stamps every item is its last version. -/
theorem lastVersion_of_mem {stamp : C → T} {log : List C}
    (hordered : log.Pairwise fun a b => stamp a < stamp b) {c : C} (hc : c ∈ log) :
    lastVersion stamp log (stamp c) = some c := by
  induction log with
  | nil => cases hc
  | cons first rest ih =>
      rw [List.pairwise_cons] at hordered
      rw [← List.singleton_append, lastVersion_append]
      rcases List.mem_cons.mp hc with rfl | hrest
      · rw [lastVersion_eq_none fun d hd => (hordered.1 d hd).ne']
        simp [lastVersion]
      · rw [ih hordered.2 hrest]
        rfl

end Karsa
