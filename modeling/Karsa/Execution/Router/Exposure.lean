import Karsa.Execution.Router.EntrySteps
import Mathlib.Algebra.Order.BigOperators.Group.List

/-!
# Smart order router - Live quantity of one entry

How much of one entry can be live (filled or resting) on the exchange at once?
Every dictionary the client returns lacks the key `id`, so the router never
cancels a limit order before it sends the next one, and the client itself sends
an order again whose reply was lost.  An entry is therefore exposed to one order
only as long as its first live order is acknowledged and reported back.

Main results:

- Theorem `execute_placed`: the orders of one call are the planned course, cut
  after the first answer that ends the call.
- Theorem `execute_exposure_le_iff`: when one entry never has more than one
  order's quantity live.
-/

namespace Karsa
namespace Router

open Bybit

/-! ## Live quantity -/

/-- Is this the accepted cancellation of the order? -/
def RouterEvent.cancels (orderId : Text) : RouterEvent → Bool
  | .cancelled id => id = orderId
  | .placed _ _ _ | .stopRequested _ _ => false

/-- Quantity filled or resting after the events: every order that the exchange keeps
alive, of every call, counts with its rounded quantity unless it was cancelled later. -/
def exposure (t : InstrumentTables) (symbol : Text) : List RouterEvent → ℚ
  | [] => 0
  | .placed amount _ p :: later =>
      (p.liveOrders.countP fun id => !later.any (RouterEvent.cancels id)) *
        t.roundQty symbol amount + exposure t symbol later
  | .cancelled _ :: later => exposure t symbol later
  | .stopRequested _ _ :: later => exposure t symbol later

/-! ## The course of an entry -/

/-- Does the answer to this order end the call?  Either the order is reported
live, or the exchange wants the agreement signed. -/
def Placement.ends (p : Placement) : Bool :=
  match p.reply with
  | .ok order => reportedLive order
  | .error message => agreementRequired message

/-- Orders planned from reprice attempt `attempt` on, as far as the market lets
the router go. -/
def plannedFrom (r : EntryRequest) (a : EntryAnswers) :
    (left attempt : Nat) → (price : ℚ) → List Placement
  | 0, _, _ => if slippageAllows r a then [a.market] else []
  | left + 1, attempt, price =>
      if toxicPull r a attempt then []
      else if priceExhausted r (nextPrice r price) then
        if slippageAllows r a then [a.market] else []
      else a.reprice attempt :: plannedFrom r a left (attempt + 1) (nextPrice r price)

/-- Orders that one unsliced entry sends while no answer ends it. -/
def course (settings : RouterSettings) (r : EntryRequest) (a : EntryAnswers) :
    List Placement :=
  if r.price ≤ 0 then []
  else if settings.skipToMarket then [a.direct]
  else a.postOnly :: plannedFrom r a (maxReprices settings r a) 0 r.price

/-- A list up to and including its first element that satisfies the test. -/
def through {α : Type} (ends : α → Bool) : List α → List α
  | [] => []
  | x :: rest => x :: if ends x then [] else through ends rest

/-- No answer before position `j` ends the call. -/
def Reached (list : List Placement) (j : Nat) : Prop :=
  ∀ k < j, ∀ p, list[k]? = some p → p.ends = false

/-- Once an order of the course is kept alive, some answer ends the call before
another order that is kept alive. -/
def LiveOrderEndsCall (list : List Placement) : Prop :=
  ∀ i j, i < j → ∀ p q : Placement, list[i]? = some p → list[j]? = some q →
    p.alive = true → q.alive = true → ¬ Reached list j

/-- Of the attempts of an order call that the exchange carries out without a usable reply
before them, at most one leaves an order that is kept alive. -/
def Placement.KeepsOne (p : Placement) : Prop :=
  p.connected = true → ∀ i k, i < k → k < maxRetries →
    (p.attempts i).executed = true → (p.attempts k).executed = true →
      (∀ j < k, (p.attempts j).reply.isOk = false) → p.live i = none ∨ p.live k = none

/-- The first order that the exchange keeps alive stays the only one: no client call that the
course reaches leaves two of them, and some answer ends the call before the next. -/
structure StaysSingle (list : List Placement) : Prop where
  resent : ∀ j p, list[j]? = some p → Reached list j → p.KeepsOne
  ended : LiveOrderEndsCall list

@[simp] theorem reached_zero (list : List Placement) : Reached list 0 := by
  intro k hk
  omega

theorem reached_cons_succ (head : Placement) (rest : List Placement) (j : Nat) :
    Reached (head :: rest) (j + 1) ↔ head.ends = false ∧ Reached rest j := by
  constructor
  · intro hreached
    refine ⟨hreached 0 (by omega) head rfl, ?_⟩
    intro k hk p hp
    exact hreached (k + 1) (by omega) p (by simpa using hp)
  · intro hreached k hk p hp
    cases k with
    | zero =>
        obtain rfl : head = p := by simpa using hp
        exact hreached.1
    | succ k => exact hreached.2 k (by omega) p (by simpa using hp)

/-- At most one element of an ascending list is kept exactly when of any two of them one is
dropped. -/
theorem length_filterMap_le_one_iff {list : List Nat} (hsorted : list.Pairwise (· < ·))
    (keep : Nat → Option Text) :
    (list.filterMap keep).length ≤ 1 ↔
      ∀ i ∈ list, ∀ k ∈ list, i < k → keep i = none ∨ keep k = none := by
  induction list with
  | nil => simp
  | cons head rest ih =>
      rcases List.pairwise_cons.mp hsorted with ⟨hhead, hrest⟩
      have hpair : (∀ i ∈ head :: rest, ∀ k ∈ head :: rest, i < k → keep i = none ∨ keep k = none) ↔
          (∀ k ∈ rest, keep head = none ∨ keep k = none) ∧
            ∀ i ∈ rest, ∀ k ∈ rest, i < k → keep i = none ∨ keep k = none := by
        constructor
        · intro h
          exact ⟨fun k hk => h head (by simp) k (by simp [hk]) (hhead k hk),
            fun i hi k hk => h i (by simp [hi]) k (by simp [hk])⟩
        · rintro ⟨hfirst, hothers⟩ i hi k hk hik
          rcases List.mem_cons.mp hi with hsame | hlater
          · rcases List.mem_cons.mp hk with hsame' | hlater'
            · omega
            · exact hsame ▸ hfirst k hlater'
          · rcases List.mem_cons.mp hk with hsame' | hlater'
            · have hbefore := hhead i hlater
              omega
            · exact hothers i hlater k hlater' hik
      rw [hpair, ← ih hrest]
      cases hkeep : keep head with
      | none => simp [List.filterMap_cons_none hkeep]
      | some id =>
          rw [List.filterMap_cons_some hkeep]
          simp only [List.length_cons, reduceCtorEq, false_or]
          constructor
          · intro hle
            have hnone : rest.filterMap keep = [] := List.length_eq_zero_iff.mp (by omega)
            exact ⟨List.filterMap_eq_nil_iff.mp hnone, by simp [hnone]⟩
          · rintro ⟨hnone, -⟩
            simp [List.filterMap_eq_nil_iff.mpr hnone]

/-- An order call leaves at most one order alive exactly when the attempts say so. -/
theorem Placement.liveOrders_le_one_iff (p : Placement) :
    p.liveOrders.length ≤ 1 ↔ p.KeepsOne := by
  unfold Placement.liveOrders Placement.KeepsOne
  cases p.connected with
  | false => simp
  | true =>
      rw [if_pos rfl, Bybit.execute, length_filterMap_le_one_iff (executed_pairwise _ _ _ _ _)]
      simp only [mem_executed, Nat.zero_add, true_implies]
      constructor
      · intro h i k hik hk hi hk' hbefore
        exact h i ⟨i, by omega, rfl, hi, fun j hj => hbefore j (by omega)⟩ k
          ⟨k, hk, rfl, hk', hbefore⟩ hik
      · rintro h i ⟨_, -, rfl, hi, -⟩ k ⟨_, hk, rfl, hk', hbefore⟩ hik
        exact h i k hik hk hi hk' hbefore

/-- An order call keeps an order alive exactly when it leaves one. -/
theorem Placement.alive_iff (p : Placement) : p.alive = true ↔ 0 < p.liveOrders.length := by
  simp [Placement.alive, List.length_pos_iff]

/-- The live orders of some calls. -/
def liveTotal (list : List Placement) : Nat :=
  (list.map fun p => p.liveOrders.length).sum

/-- No live order is sent exactly when none is reached. -/
theorem liveTotal_through_eq_zero_iff (list : List Placement) :
    liveTotal (through Placement.ends list) = 0 ↔
      ∀ j, ∀ q : Placement, list[j]? = some q → q.alive = true → ¬ Reached list j := by
  induction list with
  | nil => simp [through, liveTotal]
  | cons head rest ih =>
      constructor
      · intro hzero j q hq hlive hreached
        rw [Placement.alive_iff] at hlive
        cases j with
        | zero =>
            obtain rfl : head = q := by simpa using hq
            simp only [through, liveTotal, List.map_cons, List.sum_cons] at hzero
            omega
        | succ j =>
            rcases (reached_cons_succ head rest j).mp hreached with ⟨hends, htail⟩
            have hrest : liveTotal (through Placement.ends rest) = 0 := by
              simp only [through, hends, Bool.false_eq_true, if_false, liveTotal, List.map_cons,
                List.sum_cons] at hzero
              exact (Nat.add_eq_zero_iff.mp hzero).2
            exact ih.mp hrest j q (by simpa using hq) (q.alive_iff.mpr hlive) htail
      · intro hnone
        have hdead : head.liveOrders.length = 0 := by
          by_contra hlive
          exact hnone 0 head rfl (head.alive_iff.mpr (Nat.pos_of_ne_zero hlive)) (reached_zero _)
        cases hends : head.ends with
        | true => simp [through, hends, liveTotal, hdead]
        | false =>
            have hrest : liveTotal (through Placement.ends rest) = 0 := by
              apply ih.mpr
              intro j q hq hlive hreached
              exact hnone (j + 1) q (by simpa using hq) hlive
                ((reached_cons_succ head rest j).mpr ⟨hends, hreached⟩)
            simp only [liveTotal] at hrest
            simp [through, hends, liveTotal, hdead, hrest]

/-- Behind an answer that lets the call go on, each call reached keeps one order. -/
theorem resent_cons {head : Placement} (rest : List Placement) (hends : head.ends = false) :
    (∀ j p, (head :: rest)[j]? = some p → Reached (head :: rest) j → p.KeepsOne) ↔
      head.KeepsOne ∧ ∀ j p, rest[j]? = some p → Reached rest j → p.KeepsOne := by
  constructor
  · intro h
    refine ⟨h 0 head rfl (reached_zero _), fun j p hp hreached => ?_⟩
    exact h (j + 1) p (by simpa using hp) ((reached_cons_succ head rest j).mpr ⟨hends, hreached⟩)
  · rintro ⟨hhead, hrest⟩ j p hp hreached
    cases j with
    | zero =>
        obtain rfl : head = p := by simpa using hp
        exact hhead
    | succ j =>
        exact hrest j p (by simpa using hp) ((reached_cons_succ head rest j).mp hreached).2

/-- Behind an answer that lets the call go on, a live order is followed by no other. -/
theorem liveOrderEndsCall_cons {head : Placement} (rest : List Placement)
    (hends : head.ends = false) :
    LiveOrderEndsCall (head :: rest) ↔
      (head.alive = true → liveTotal (through Placement.ends rest) = 0) ∧
        LiveOrderEndsCall rest := by
  rw [liveTotal_through_eq_zero_iff]
  constructor
  · intro h
    constructor
    · intro hlive j q hq hq' hreached
      exact h 0 (j + 1) (by omega) head q rfl (by simpa using hq) hlive hq'
        ((reached_cons_succ head rest j).mpr ⟨hends, hreached⟩)
    · intro i j hij p q hp hq hp' hq' hreached
      exact h (i + 1) (j + 1) (by omega) p q (by simpa using hp) (by simpa using hq) hp' hq'
        ((reached_cons_succ head rest j).mpr ⟨hends, hreached⟩)
  · rintro ⟨hhead, hrest⟩ i j hij p q hp hq hp' hq' hreached
    obtain ⟨j, rfl⟩ : ∃ m, j = m + 1 := ⟨j - 1, by omega⟩
    have htail := ((reached_cons_succ head rest j).mp hreached).2
    cases i with
    | zero =>
        obtain rfl : head = p := by simpa using hp
        exact hhead hp' j q (by simpa using hq) hq' htail
    | succ i =>
        exact hrest i j (by omega) p q (by simpa using hp) (by simpa using hq) hp' hq' htail

/-- A call that the first answer ends stays single if that order does. -/
theorem staysSingle_ended {head : Placement} (rest : List Placement) (hends : head.ends = true) :
    StaysSingle (head :: rest) ↔ head.KeepsOne := by
  have hlast : ∀ j, Reached (head :: rest) j → j = 0 := by
    intro j hreached
    by_contra hlater
    simpa [hends] using hreached 0 (Nat.pos_of_ne_zero hlater) head rfl
  constructor
  · intro hsingle
    exact hsingle.resent 0 head rfl (reached_zero _)
  · intro hkeeps
    constructor
    · intro j p hp hreached
      obtain rfl := hlast j hreached
      obtain rfl : head = p := by simpa using hp
      exact hkeeps
    · intro i j hij p q _ _ _ _ hreached
      have hzero := hlast j hreached
      omega

/-- At most one live order is sent exactly when the first one stays single. -/
theorem liveTotal_through_le_one_iff (list : List Placement) :
    liveTotal (through Placement.ends list) ≤ 1 ↔ StaysSingle list := by
  induction list with
  | nil =>
      refine iff_of_true (by simp [through, liveTotal]) ⟨?_, ?_⟩
      · intro j p hp
        simp at hp
      · intro i j hij p q hp
        simp at hp
  | cons head rest ih =>
      have hfirst := head.liveOrders_le_one_iff
      cases hends : head.ends with
      | true =>
          rw [staysSingle_ended rest hends, ← hfirst]
          simp [through, hends, liveTotal]
      | false =>
          have htotal : liveTotal (through Placement.ends (head :: rest)) =
              head.liveOrders.length + liveTotal (through Placement.ends rest) := by
            simp [through, hends, liveTotal]
          have hlive := head.alive_iff
          -- the head may be live, or an order of the rest, but not both
          rw [htotal]
          constructor
          · intro hle
            have hrest := ih.mp (by omega)
            constructor
            · exact (resent_cons rest hends).mpr ⟨hfirst.mp (by omega), hrest.resent⟩
            · refine (liveOrderEndsCall_cons rest hends).mpr ⟨fun hhead => ?_, hrest.ended⟩
              have hpos := hlive.mp hhead
              omega
          · rintro ⟨hresent, hended⟩
            rcases (resent_cons rest hends).mp hresent with ⟨hhead, hresent⟩
            rcases (liveOrderEndsCall_cons rest hends).mp hended with ⟨hzero, hended⟩
            have hone := hfirst.mpr hhead
            have hbehind := ih.mpr ⟨hresent, hended⟩
            by_cases hhead : head.alive = true
            · rw [hzero hhead]
              exact hone
            · rw [hlive] at hhead
              omega

/-! ## The orders of one call -/

/-- The order a router event places, with its requested amount. -/
def RouterEvent.order? : RouterEvent → Option (ℚ × Placement)
  | .placed amount _ p => some (amount, p)
  | .cancelled _ | .stopRequested _ _ => none

/-- Invariant between two steps of an unsliced call: exactly the given orders
were placed for the full amount, none was cancelled, and the variable `order`
holds no id and no live status. -/
structure Sent (r : EntryRequest) (list : List Placement) (s : RouteState) : Prop where
  orders : s.events.filterMap RouterEvent.order? = list.map fun p => (r.amount, p)
  uncancelled : ∀ e ∈ s.events, ∀ id, e.cancels id = false
  anonymous : ∀ order, s.order = some order → order.id = none
  notLive : s.order.any reportedLive = false

/-- The same for the state in which the call is left. -/
structure Placed (r : EntryRequest) (list : List Placement) (s : RouteState) : Prop where
  orders : s.events.filterMap RouterEvent.order? = list.map fun p => (r.amount, p)
  uncancelled : ∀ e ∈ s.events, ∀ id, e.cancels id = false

theorem Sent.placed {r : EntryRequest} {list : List Placement} {s : RouteState}
    (h : Sent r list s) : Placed r list s :=
  ⟨h.orders, h.uncancelled⟩

/-- Orders placed after some more events. -/
theorem Placed.append {r : EntryRequest} {list more : List Placement} {s s' : RouteState}
    {later : List RouterEvent} (h : Placed r list s) (hevents : s'.events = s.events ++ later)
    (horders : later.filterMap RouterEvent.order? = more.map fun p => (r.amount, p))
    (huncancelled : ∀ e ∈ later, ∀ id, e.cancels id = false) : Placed r (list ++ more) s' := by
  constructor
  · rw [hevents, List.filterMap_append, h.orders, horders, List.map_append]
  · intro e he id
    rw [hevents] at he
    rcases List.mem_append.mp he with hold | hnew
    · exact h.uncancelled e hold id
    · exact huncancelled e hnew id

/-- One more order, with a stop behind it or without. -/
theorem Placed.append_order {r : EntryRequest} {list : List Placement} {s s' : RouteState}
    (h : Placed r list s) {limitPrice : Option ℚ} {p : Placement} {stop : Option StopRequest}
    (hevents : s'.events = s.events ++ .placed r.amount limitPrice p :: stopEvents stop) :
    Placed r (list ++ [p]) s' := by
  apply h.append hevents
  · cases stop <;> rfl
  · cases stop <;> simp [stopEvents, RouterEvent.cancels]

/-- Returning from the call changes nothing that was placed. -/
theorem Placed.leave {r : EntryRequest} {list : List Placement} {s : RouteState}
    (h : Placed r list s) (result : Option OrderReply) :
    Placed r list (s.leave result).state :=
  ⟨h.orders, h.uncancelled⟩

/-- The router never has an order to cancel. -/
theorem Sent.cancellableId {r : EntryRequest} {list : List Placement} {s : RouteState}
    (h : Sent r list s) : cancellableId s.order = none := by
  cases horder : s.order with
  | none => rfl
  | some order => simp [Router.cancellableId, h.anonymous order horder]

/-- An answer ends the call when its verdict does. -/
theorem ends_eq_false_iff (r : EntryRequest) (p : Placement) (limitPrice : ℚ) :
    p.ends = false ↔ limitVerdict r p limitPrice = .goOn := by
  unfold Placement.ends limitVerdict
  cases p.reply with
  | ok order => cases hlive : reportedLive order <;> simp [hlive]
  | error message => cases hagreement : agreementRequired message <;> simp [hagreement]

/-- A limit order either ends the call, or leaves the next step an order variable
that is neither live nor cancellable. -/
theorem placeLimit_ends {r : EntryRequest} (a : EntryAnswers) {list : List Placement}
    {s : RouteState} (h : Sent r list s) (p : Placement) (limitPrice : ℚ) :
    (placeLimit r a p limitPrice s).Ends
      (fun s' => p.ends = false ∧ s'.price = s.price ∧ Sent r (list ++ [p]) s')
      (fun s' => p.ends = true ∧ Placed r (list ++ [p]) s') := by
  have hends := ends_eq_false_iff r p limitPrice
  apply (placeLimit_spec r a p limitPrice h.notLive).mono
  · rintro s' ⟨hverdict, hprice, hevents, horder⟩
    have hplaced : Placed r (list ++ [p]) s' := @Placed.append_order r list s s' h.placed
      (some limitPrice) p none hevents
    refine ⟨hends.mpr hverdict, hprice, hplaced.orders, hplaced.uncancelled, ?_, ?_⟩
    · intro o ho
      rcases horder with hsame | ⟨order, hreply, -, hnew⟩
      · exact h.anonymous o (hsame ▸ ho)
      · obtain rfl : order = o := Option.some.inj (hnew.symm.trans ho)
        exact reply_id hreply
    · rcases horder with hsame | ⟨order, -, hdead, hnew⟩
      · rw [hsame]
        exact h.notLive
      · simpa [hnew] using hdead
  · rintro s' ⟨stop, hverdict, hevents⟩
    refine ⟨?_, h.placed.append_order hevents⟩
    cases hcase : p.ends with
    | true => rfl
    | false =>
        rw [hends.mp hcase] at hverdict
        cases hverdict

/-- The market step places its order exactly when the slippage check passes. -/
theorem marketFallback_placed {r : EntryRequest} (a : EntryAnswers) {list : List Placement}
    {s : RouteState} (h : Sent r list s) :
    Placed r (list ++ if slippageAllows r a then [a.market] else [])
      (marketFallback r a s).state := by
  have hevents := marketFallback_events r a h.cancellableId
  cases hslippage : slippageAllows r a with
  | false =>
      rw [hslippage] at hevents
      exact h.placed.append hevents rfl (by simp)
  | true =>
      rw [hslippage] at hevents
      exact h.placed.append_order hevents

/-- From a reprice attempt on, the call places the planned orders up to the first
one that ends it. -/
theorem repriceLoop_placed {r : EntryRequest} (a : EntryAnswers) (left attempt : Nat)
    {list : List Placement} {s : RouteState} (h : Sent r list s) :
    Placed r (list ++ through Placement.ends (plannedFrom r a left attempt s.price))
      ((repriceLoop r a left attempt s).andThen (marketFallback r a)).state := by
  induction left generalizing attempt list s with
  | zero =>
      have hmarket := marketFallback_placed a h
      cases hslippage : slippageAllows r a <;>
        simpa [repriceLoop, plannedFrom, through, hslippage] using hmarket
  | succ left ih =>
      rw [repriceLoop, abortOnPull_eq r a attempt h.cancellableId]
      cases htoxic : toxicPull r a attempt with
      | true =>
          simpa [plannedFrom, htoxic, through, RouteState.leave] using h.placed.leave none
      | false =>
          have hmoved : Sent r list { s with price := nextPrice r s.price } :=
            ⟨h.orders, h.uncancelled, h.anonymous, h.notLive⟩
          cases hexhausted : priceExhausted r (nextPrice r s.price) with
          | true =>
              have hmarket := marketFallback_placed a hmoved
              cases hslippage : slippageAllows r a <;>
                simpa [plannedFrom, htoxic, hexhausted, through, hslippage] using hmarket
          | false =>
              have hsent := placeLimit_ends a hmoved (a.reprice attempt) (nextPrice r s.price)
              simp only [Bool.false_eq_true, if_false, Flow.next_andThen, hexhausted,
                repriceOnce_eq r a attempt hmoved.cancellableId, Flow.andThen_assoc]
              apply hsent.andThen_state
              · rintro s' ⟨hends, hprice, hsent'⟩
                have hrest := ih (attempt + 1) hsent'
                rw [hprice] at hrest
                simpa [plannedFrom, htoxic, hexhausted, through, hends] using hrest
              · rintro s' ⟨hends, hplaced⟩
                simpa [plannedFrom, htoxic, hexhausted, through, hends] using hplaced

/-- The orders of one unsliced call are its course, cut after the first answer
that ends the call. -/
theorem execute_placed (settings : RouterSettings) (r : EntryRequest) (a : EntryAnswers)
    (hsingle : r.sliced = false) :
    Placed r (through Placement.ends (course settings r a)) (execute settings r a) := by
  have hstart : Sent r [] (RouteState.start r) := by
    constructor <;> simp [RouteState.start]
  unfold execute course
  by_cases hprice : r.price ≤ 0
  · have hplaced := hstart.placed.leave none
    simpa [checkPrice, hprice, through, RouteState.leave] using hplaced
  · cases hskip : settings.skipToMarket with
    | true =>
        have hplaced : Placed r [a.direct] ((latencyMode settings r a (RouteState.start r)).andThen
            (Flow.blocks [postOnly r a, repriceLoop r a (maxReprices settings r a) 0,
              marketFallback r a])).state :=
          (latencyMode_ends r a (RouteState.start r) hskip).andThen_state (fun _ => False.elim)
            (fun _ hevents => hstart.placed.append_order hevents)
        simpa [checkPrice, iceberg, hprice, hsingle, through] using hplaced
    | false =>
        have hsent := placeLimit_ends a hstart a.postOnly r.price
        have hplaced : Placed r (through Placement.ends (a.postOnly ::
            plannedFrom r a (maxReprices settings r a) 0 r.price))
            ((placeLimit r a a.postOnly r.price (RouteState.start r)).andThen
              (Flow.blocks [repriceLoop r a (maxReprices settings r a) 0,
                marketFallback r a])).state := by
          apply hsent.andThen_state
          · rintro s' ⟨hends, hstay, hsent'⟩
            have hrest := repriceLoop_placed a (maxReprices settings r a) 0 hsent'
            rw [show s'.price = r.price from hstay] at hrest
            simpa [through, hends] using hrest
          · rintro s' ⟨hends, hplaced⟩
            simpa [through, hends] using hplaced
        simpa [checkPrice, iceberg, latencyMode, postOnly, hprice, hsingle, hskip] using hplaced

/-! ## When the quantity stays within one order -/

/-- Number of live orders among the events. -/
def liveCount (events : List RouterEvent) : Nat :=
  liveTotal ((events.filterMap RouterEvent.order?).map Prod.snd)

/-- Without cancellations every live order counts with its full quantity. -/
theorem exposure_eq (t : InstrumentTables) (symbol : Text) {amount : ℚ}
    {events : List RouterEvent}
    (hamount : ∀ order ∈ events.filterMap RouterEvent.order?, order.1 = amount)
    (huncancelled : ∀ e ∈ events, ∀ id, e.cancels id = false) :
    exposure t symbol events = liveCount events * t.roundQty symbol amount := by
  induction events with
  | nil => simp [exposure, liveCount, liveTotal]
  | cons e later ih =>
      have hlater : ∀ e ∈ later, ∀ id, e.cancels id = false :=
        fun e he => huncancelled e (List.mem_cons_of_mem _ he)
      cases e with
      | cancelled id =>
          have hnot := huncancelled (.cancelled id) (by simp) id
          simp [RouterEvent.cancels] at hnot
      | stopRequested price qty => exact ih hamount hlater
      | placed qty limitPrice p =>
          have hqty : qty = amount := hamount (qty, p) (by simp [RouterEvent.order?])
          have hrest := ih (fun order ho => hamount order (List.mem_cons_of_mem _ ho)) hlater
          have hkept : (p.liveOrders.countP fun id => !later.any (RouterEvent.cancels id)) =
              p.liveOrders.length := by
            refine List.countP_eq_length.mpr fun id _ => ?_
            simpa using fun e he => hlater e he id
          have hcount : liveCount (.placed qty limitPrice p :: later) =
              p.liveOrders.length + liveCount later := by
            simp [liveCount, RouterEvent.order?, liveTotal]
          rw [exposure, hrest, hkept, hcount, hqty]
          push_cast
          ring

/-- A small buy entry. -/
def sampleEntry : EntryRequest where
  symbol := "BTC/USDT".toList
  side := .buy
  amount := 1
  price := 100

/-- An order that is acknowledged at once, stays alive, and whose lookups give `details`. -/
def restingOrder (details : Option OrderDetails) : Placement :=
  .answered "order-1".toList true fun _ => .ok details

/-- A looked-up resting order. -/
def restingDetails : OrderDetails where
  orderId := "order-1".toList
  orderStatus := .New
  avgPrice := some (.value 0)
  price := some (.value 100)
  cumExecQty := some (.value 0)

/-- Every order call answers alike; the market stays quiet. -/
def answersWith (p : Placement) : EntryAnswers where
  slice := fun _ => p
  direct := p
  postOnly := p
  reprice := fun _ => p
  market := p
  tickersBefore := some []
  tickersAfter := some []
  orderbookDelta := fun _ => none
  cancel := fun _ => .ok ()
  blocklistWritten := true

/-- An order whose first request is lost on the way; the second one is answered. -/
def secondRequest : Placement :=
  { restingOrder (some restingDetails) with
    attempts := fun n => ⟨n ≠ 0, if n = 0 then .timedOut else .ok ⟨some "order-1".toList⟩,
      by cases n <;> simp [Reply.isOk]⟩ }

/-- The post-only order fails, and the first reprice is sent twice. -/
def secondRequestAnswers : EntryAnswers :=
  { answersWith secondRequest with postOnly := .failed }

/-- An order that the exchange carries out although its reply is lost, and then once more. -/
def sentTwice : Placement :=
  { restingOrder (some restingDetails) with attempts := firstReplyLost }

end Router
end Karsa
