import Mathlib.Data.List.Basic
import Mathlib.Data.List.Perm.Basic
import Mathlib.Order.Lattice

/-!
# Foundations - Pairing requests with the nearest items

Requests are served in order; each takes the nearest item that is left and within reach, the
earlier one of two that are equally near.  An item between which and a request there is no gap
is out of the request's reach.

Main results:

- Theorem `settled_pairUp`: no item is taken twice, and no request would rather have an item
  that a later one took or that is left.
- Theorem `Settled.unique`: without ties, this determines the pairs.
-/

namespace Karsa
namespace NearestPairs

universe u v w

variable {α : Type u} {β : Type v} {K : Type w} [LinearOrder K] (gap : α → β → Option K)

/-! ## The loop -/

/-- Keep the nearer of the best item so far and the next one. -/
def keepNearer (a : α) (best : Option (β × K)) (b : β) : Option (β × K) :=
  match gap a b with
  | none => best
  | some d =>
      match best with
      | none => some (b, d)
      | some (b', d') => if d < d' then some (b, d) else some (b', d')

/-- The nearest item within reach, the first of them. -/
def nearest (pool : List β) (a : α) : Option β :=
  (pool.foldl (keepNearer gap a) none).map Prod.fst

/-- The requests with what they took, and what is left. -/
def pairUp [DecidableEq β] : List β → List α → List (α × Option β) × List β
  | pool, [] => ([], pool)
  | pool, a :: rest =>
      match nearest gap pool a with
      | none =>
          let served := pairUp pool rest
          ((a, none) :: served.1, served.2)
      | some b =>
          let served := pairUp (pool.erase b) rest
          ((a, some b) :: served.1, served.2)

/-! ## The nearest item -/

variable {gap}

/-- An item out of reach is passed over. -/
theorem keepNearer_of_none {a : α} {b : β} (h : gap a b = none) (best : Option (β × K)) :
    keepNearer gap a best b = best := by
  rw [keepNearer, h]

/-- The first item within reach is kept. -/
theorem keepNearer_none {a : α} {b : β} {d : K} (h : gap a b = some d) :
    keepNearer gap a none b = some (b, d) := by
  rw [keepNearer, h]

/-- A nearer item replaces the best one. -/
theorem keepNearer_some {a : α} {b : β} {d : K} (h : gap a b = some d) (b' : β) (d' : K) :
    keepNearer gap a (some (b', d')) b = if d < d' then some (b, d) else some (b', d') := by
  rw [keepNearer, h]

/-- Keeping the nearer of an item and those of a list. -/
theorem foldl_keepNearer_some {a : α} (pool : List β) {b : β} {d : K} (hgap : gap a b = some d) :
    ∃ b' d', pool.foldl (keepNearer gap a) (some (b, d)) = some (b', d') ∧
      b' ∈ b :: pool ∧ gap a b' = some d' ∧
      ∀ x ∈ b :: pool, ∀ e, gap a x = some e → d' ≤ e := by
  induction pool generalizing b d with
  | nil =>
      refine ⟨b, d, rfl, List.mem_singleton_self b, hgap, fun x hx e he => ?_⟩
      rw [List.mem_singleton.mp hx, hgap, Option.some_inj] at he
      exact he.le
  | cons c rest ih =>
      rw [List.foldl_cons]
      -- the next item either replaces the best one or is no nearer
      by_cases hnearer : ∃ e, gap a c = some e ∧ e < d
      · rcases hnearer with ⟨e, hc, hlt⟩
        rcases ih hc with ⟨b', d', hfold, hmem, hb', hall⟩
        rw [keepNearer_some hc, if_pos hlt]
        refine ⟨b', d', hfold, List.mem_cons_of_mem b hmem, hb', fun x hx f hf => ?_⟩
        rcases List.mem_cons.mp hx with rfl | hx
        · rw [hgap, Option.some_inj] at hf
          exact (hall c List.mem_cons_self e hc).trans (hlt.le.trans hf.le)
        · exact hall x hx f hf
      · rcases ih hgap with ⟨b', d', hfold, hmem, hb', hall⟩
        have hkeep : keepNearer gap a (some (b, d)) c = some (b, d) := by
          cases hc : gap a c with
          | none => exact keepNearer_of_none hc _
          | some e =>
              rw [keepNearer_some hc]
              exact if_neg fun hlt => hnearer ⟨e, hc, hlt⟩
        rw [hkeep]
        refine ⟨b', d', hfold, ?_, hb', fun x hx f hf => ?_⟩
        · exact List.cons_subset_cons b (List.subset_cons_self c rest) hmem
        · rcases List.mem_cons.mp hx with rfl | hx
          · exact hall x List.mem_cons_self f hf
          · rcases List.mem_cons.mp hx with rfl | hx
            · have hd := hall b List.mem_cons_self d hgap
              exact hd.trans (not_lt.mp fun hlt => hnearer ⟨f, hf, hlt⟩)
            · exact hall x (List.mem_cons_of_mem b hx) f hf

/-- Among items out of reach there is no nearest; else it is within reach and none is nearer. -/
theorem nearest_cases (gap : α → β → Option K) (pool : List β) (a : α) :
    (nearest gap pool a = none ∧ ∀ b ∈ pool, gap a b = none) ∨
      ∃ b d, nearest gap pool a = some b ∧ b ∈ pool ∧ gap a b = some d ∧
        ∀ x ∈ pool, ∀ e, gap a x = some e → d ≤ e := by
  induction pool with
  | nil => exact Or.inl ⟨rfl, by simp⟩
  | cons b rest ih =>
      cases hb : gap a b with
      | none =>
          have hskip : nearest gap (b :: rest) a = nearest gap rest a := by
            rw [nearest, nearest, List.foldl_cons, keepNearer_of_none hb]
          rw [hskip]
          rcases ih with ⟨hnone, hall⟩ | ⟨b', d', hsome, hmem, hb', hall⟩
          · left
            refine ⟨hnone, fun x hx => ?_⟩
            rcases List.mem_cons.mp hx with rfl | hx
            · exact hb
            · exact hall x hx
          · right
            refine ⟨b', d', hsome, List.mem_cons_of_mem b hmem, hb', fun x hx e he => ?_⟩
            rcases List.mem_cons.mp hx with rfl | hx
            · rw [hb] at he
              contradiction
            · exact hall x hx e he
      | some d =>
          right
          rcases foldl_keepNearer_some rest hb with ⟨b', d', hfold, hmem, hb', hall⟩
          refine ⟨b', d', ?_, hmem, hb', hall⟩
          rw [nearest, List.foldl_cons, keepNearer_none hb, hfold]
          rfl

/-! ## Settled pairs -/

/-- Pairs of requests and items of a pool, with what is left of the pool: every item goes to one
request or is left, and a request took the nearest of the items that were there when its turn
came, or had none within reach. -/
structure Settled (gap : α → β → Option K) (pool : List β) (requests : List α)
    (pairs : List (α × Option β)) (left : List β) : Prop where
  requests : pairs.map Prod.fst = requests
  items : (pairs.filterMap Prod.snd ++ left).Perm pool
  took : ∀ before a b after, pairs = before ++ (a, some b) :: after →
    ∃ d, gap a b = some d ∧
      ∀ x ∈ after.filterMap Prod.snd ++ left, ∀ e, gap a x = some e → d ≤ e
  passed : ∀ before a after, pairs = before ++ (a, none) :: after →
    ∀ x ∈ after.filterMap Prod.snd ++ left, gap a x = none

/-- The loop settles the requests. -/
theorem settled_pairUp [DecidableEq β] (pool : List β) (requests : List α) :
    Settled gap pool requests (pairUp gap pool requests).1 (pairUp gap pool requests).2 := by
  induction requests generalizing pool with
  | nil =>
      exact ⟨rfl, List.Perm.refl _, fun before a b after h => by simp [pairUp] at h,
        fun before a after h => by simp [pairUp] at h⟩
  | cons a rest ih =>
      rcases nearest_cases gap pool a with ⟨hnone, hall⟩ | ⟨b, d, hsome, hmem, hb, hall⟩
      · have hrest := ih pool
        rw [pairUp, hnone]
        refine ⟨congrArg (a :: ·) hrest.requests, hrest.items, ?_, ?_⟩
        · intro before c b after h
          cases before with
          | nil => simp at h
          | cons p before => exact hrest.took before c b after (List.cons.inj h).2
        · intro before c after h
          cases before with
          | nil =>
              rcases List.cons.inj h with ⟨hhead, htail⟩
              rw [Prod.mk.injEq] at hhead
              intro x hx
              rw [← htail] at hx
              rw [← hhead.1]
              exact hall x (hrest.items.mem_iff.mp hx)
          | cons p before => exact hrest.passed before c after (List.cons.inj h).2
      · have hrest := ih (pool.erase b)
        rw [pairUp, hsome]
        have hitems := (hrest.items.cons b).trans (List.perm_cons_erase hmem).symm
        refine ⟨congrArg (a :: ·) hrest.requests, hitems, ?_, ?_⟩
        · intro before c b' after h
          cases before with
          | nil =>
              rcases List.cons.inj h with ⟨hhead, htail⟩
              rw [Prod.mk.injEq, Option.some_inj] at hhead
              refine ⟨d, ?_, fun x hx e he => ?_⟩
              · rw [← hhead.1, ← hhead.2]
                exact hb
              · rw [← htail] at hx
                rw [← hhead.1] at he
                exact hall x (List.mem_of_mem_erase (hrest.items.mem_iff.mp hx)) e he
          | cons p before => exact hrest.took before c b' after (List.cons.inj h).2
        · intro before c after h
          cases before with
          | nil => simp at h
          | cons p before => exact hrest.passed before c after (List.cons.inj h).2

/-- No request is equally far from two items. -/
def NoTies (gap : α → β → Option K) (pool : List β) (requests : List α) : Prop :=
  ∀ a ∈ requests, ∀ b ∈ pool, ∀ b' ∈ pool, ∀ d, gap a b = some d → gap a b' = some d → b = b'

/-- The first request's item and the others' pairs. -/
theorem Settled.tail {pool : List β} {requests : List α} {p : α × Option β}
    {pairs : List (α × Option β)} {left : List β}
    (h : Settled gap pool requests (p :: pairs) left) :
    Settled gap (pairs.filterMap Prod.snd ++ left) requests.tail pairs left where
  requests := by rw [← h.requests, List.map_cons, List.tail_cons]
  items := List.Perm.refl _
  took := fun before a b after hpairs => h.took (p :: before) a b after (by rw [hpairs]; rfl)
  passed := fun before a after hpairs => h.passed (p :: before) a after (by rw [hpairs]; rfl)

/-- What the first request took: the nearest item of the pool. -/
theorem Settled.head_some {pool : List β} {requests : List α} {a : α} {b : β}
    {pairs : List (α × Option β)} {left : List β}
    (h : Settled gap pool requests ((a, some b) :: pairs) left) :
    (b :: (pairs.filterMap Prod.snd ++ left)).Perm pool ∧
      ∃ d, gap a b = some d ∧ ∀ x ∈ pool, ∀ e, gap a x = some e → d ≤ e := by
  rcases h.took [] a b pairs rfl with ⟨d, hgap, hall⟩
  refine ⟨h.items, d, hgap, fun x hx e he => ?_⟩
  rcases List.mem_cons.mp (h.items.mem_iff.mpr hx) with rfl | hx
  · rw [hgap, Option.some_inj] at he
    exact he.le
  · exact hall x hx e he

/-- What it had if it took nothing. -/
theorem Settled.head_none {pool : List β} {requests : List α} {a : α}
    {pairs : List (α × Option β)} {left : List β}
    (h : Settled gap pool requests ((a, none) :: pairs) left) :
    (pairs.filterMap Prod.snd ++ left).Perm pool ∧ ∀ x ∈ pool, gap a x = none :=
  ⟨h.items, fun x hx => h.passed [] a pairs rfl x (h.items.mem_iff.mpr hx)⟩

/-- Without ties the first request takes the same item however the pool is ordered. -/
theorem Settled.head_unique {pool pool' : List β} {requests requests' : List α} {a : α}
    {m m' : Option β} {pairs pairs' : List (α × Option β)} {left left' : List β}
    (h : Settled gap pool requests ((a, m) :: pairs) left)
    (h' : Settled gap pool' requests' ((a, m') :: pairs') left') (hpool : pool.Perm pool')
    (hties : ∀ b ∈ pool, ∀ b' ∈ pool, ∀ d, gap a b = some d → gap a b' = some d → b = b') :
    m = m' := by
  cases m with
  | none =>
      cases m' with
      | none => rfl
      | some b' =>
          rcases h'.head_some with ⟨hitems, d, hgap, -⟩
          have hmem : b' ∈ pool := hpool.mem_iff.mpr (hitems.mem_iff.mp List.mem_cons_self)
          rw [h.head_none.2 b' hmem] at hgap
          contradiction
  | some b =>
      rcases h.head_some with ⟨hitems, d, hgap, hall⟩
      have hmem : b ∈ pool := hitems.mem_iff.mp List.mem_cons_self
      cases m' with
      | none =>
          rw [h'.head_none.2 b (hpool.mem_iff.mp hmem)] at hgap
          contradiction
      | some b' =>
          rcases h'.head_some with ⟨hitems', d', hgap', hall'⟩
          have hmem' : b' ∈ pool := hpool.mem_iff.mpr (hitems'.mem_iff.mp List.mem_cons_self)
          -- each is no farther than the other
          have hsame : d = d' := le_antisymm (hall b' hmem' d' hgap')
            (hall' b (hpool.mem_iff.mp hmem) d hgap)
          rw [hties b hmem b' hmem' d hgap (hsame ▸ hgap')]

/-- Without ties the pairs are determined: neither the order of the pool nor the way they were
found matters. -/
theorem Settled.unique {pool pool' : List β} {requests : List α}
    {pairs pairs' : List (α × Option β)} {left left' : List β}
    (h : Settled gap pool requests pairs left) (h' : Settled gap pool' requests pairs' left')
    (hpool : pool.Perm pool') (hties : NoTies gap pool requests) : pairs = pairs' := by
  induction requests generalizing pool pool' pairs pairs' with
  | nil =>
      rw [List.map_eq_nil_iff.mp h.requests, List.map_eq_nil_iff.mp h'.requests]
  | cons a rest ih =>
      rcases List.map_eq_cons_iff.mp h.requests with ⟨⟨_, m⟩, ps, rfl, rfl, hps⟩
      rcases List.map_eq_cons_iff.mp h'.requests with ⟨⟨_, m'⟩, ps', rfl, hm', hps'⟩
      dsimp only at hm'
      subst hm'
      have hhead : m = m' := h.head_unique h' hpool (hties _ List.mem_cons_self)
      subst hhead
      have hsub : ∀ x ∈ ps.filterMap Prod.snd ++ left, x ∈ pool := by
        intro x hx
        cases m with
        | none => exact h.head_none.1.mem_iff.mp hx
        | some b => exact h.head_some.1.mem_iff.mp (List.mem_cons_of_mem b hx)
      have hrest : (ps.filterMap Prod.snd ++ left).Perm (ps'.filterMap Prod.snd ++ left') := by
        cases m with
        | none => exact h.head_none.1.trans (hpool.trans h'.head_none.1.symm)
        | some b =>
            exact (h.head_some.1.trans (hpool.trans h'.head_some.1.symm)).cons_inv
      rw [ih h.tail h'.tail hrest fun c hc b hb b' hb' =>
        hties c (List.mem_cons_of_mem _ hc) b (hsub b hb) b' (hsub b' hb')]

end NearestPairs
end Karsa
