import Karsa.Execution.Bybit.AccountReads
import Karsa.Foundations.Dicts
import Karsa.Foundations.Runs

/-!
# Trap manager - Keys and open orders of sniper traps

`TrapManager` keeps a Redis key for every resting limit order of a trap.  `check_traps` cancels
the orders whose time is up and deletes their keys, Redis lets keys lapse by itself, and
`startup_reconciliation` cancels open orders without a key.

The exchange issues no order identifier twice, and none that it has been asked about.  A cancel
request gets a verdict on its order (cancelled, or not open any more), or the call ends in an
exception without one; the order may then be cancelled or not.  How a symbol is spelled for the
exchange is a parameter.  Traps, verdicts and removals are kept beside the state.

Main results:

- Theorem `orphanOrders_fetchOpenOrders`: the reconciliation cancels no order.
- Theorem `managed_throughout_iff`: the runs in which every open order of a trap is managed.
-/

namespace Karsa
namespace TrapManager

open Bybit (RawOrder OpenOrder RecordValue fetchOpenOrders)

/-! ## Keys -/

/-- The order of a trap. -/
structure Trap where
  symbol : Text
  orderId : Text
deriving Repr, DecidableEq

/-- `sniper:trap:{symbol}:{order_id}`. -/
def trapKey (t : Trap) : Text :=
  "sniper:trap:".toList ++ t.symbol ++ ':' :: t.orderId

/-- Symbol and order that a key is split into. -/
def parseKey (key : Text) : Option Trap :=
  let parts := key.splitOn ':'
  match parts.reverse with
  | orderId :: symbol :: _ => if parts.length < 4 then none else some ⟨symbol, orderId⟩
  | _ => none

/-- What a key stores: when the trap expires, in microseconds, and when Redis drops the key. -/
structure TrapData where
  expiresAt : ℤ
  lapsesAt : Option ℤ
deriving Repr, DecidableEq

/-- The data `register_trap` leaves: the key lapses an hour behind the trap. -/
def registered (now expiresAt : ℤ) : TrapData where
  expiresAt := expiresAt
  lapsesAt :=
    let ttlSeconds := Int.tdiv (expiresAt - now) 1000000
    if 0 < ttlSeconds then some (now + (ttlSeconds + 3600) * 1000000) else none

/-- The key has lapsed. -/
def TrapData.lapsed (now : ℤ) (d : TrapData) : Bool :=
  d.lapsesAt.any fun t => decide (t ≤ now)

/-! ## The reconciliation -/

/-- A record of `fetch_open_orders` with its keys. -/
def orderFields (o : OpenOrder) : Dict Text RecordValue :=
  [("id".toList, .text o.id), ("symbol".toList, .text o.symbol),
    ("side".toList, .text o.side.word), ("price".toList, .number o.price),
    ("amount".toList, .number o.amount), ("status".toList, .text o.status),
    ("type".toList, .text o.type), ("stopOrderType".toList, .text o.stopOrderType)]

/-- `tracked_ids`. -/
def trackedIds (keys : List Text) : List Text :=
  keys.filterMap fun key => (parseKey key).map Trap.orderId

/-- The order that `startup_reconciliation` cancels for a record, if any: its `orderId` is not
tracked, its `orderType` is `Limit`, and its status is open. -/
def orphan (keys : List Text) (o : OpenOrder) : Option (Option RecordValue × Option RecordValue) :=
  let fields := orderFields o
  let orderId := fields.get "orderId".toList
  let orderType := fields.get "orderType".toList
  let symbol := fields.get "symbol".toList
  let status := (fields.get "orderStatus".toList).or (fields.get "status".toList)
  let tracked := (trackedIds keys).any fun id => orderId = some (.text id)
  if orderType = some (.text "Limit".toList) ∧ tracked = false ∧
      (status = some (.text "New".toList) ∨ status = some (.text "PartiallyFilled".toList)) then
    some (orderId, symbol)
  else none

/-- The orders that `startup_reconciliation` cancels. -/
def orphanOrders (orders : List OpenOrder) (keys : List Text) :
    List (Option RecordValue × Option RecordValue) :=
  orders.filterMap (orphan keys)

/-- The records have no key `orderType`: the reconciliation cancels no order. -/
theorem orphanOrders_fetchOpenOrders (list : List RawOrder) (keys : List Text) :
    orphanOrders (fetchOpenOrders list) keys = [] := by
  rw [orphanOrders, List.filterMap_eq_nil_iff]
  intro o _
  have htype : (orderFields o).get "orderType".toList = none := by
    simp [orderFields, Dict.get]
  unfold orphan
  dsimp only
  rw [htype, if_neg]
  rintro ⟨h, -⟩
  cases h

/-! ## The system -/

/-- Where the loop of `check_traps` stands in the trap of a key. -/
inductive CheckStage where
  | idle
  | cancelling (t : Trap)
  | removing (t : Trap)
deriving Repr, DecidableEq

/-- How a cancel request ends: with a verdict on its order, or with an exception without one. -/
inductive CancelAnswer where
  | verdict
  | lost (effective : Bool)
deriving Repr, DecidableEq

/-- Exchange, Redis and the manager.  `issued` holds the identifiers that are not issued again;
`settled` the orders with a verdict, `removed` the traps whose key was removed. -/
structure World where
  now : ℤ
  opened : List RawOrder
  issued : List Text
  keys : Dict Text TrapData
  traps : List Trap
  settled : List Trap
  removed : List Trap
  stage : CheckStage
  snapshot : Option (List OpenOrder)
  orphans : List (Option RecordValue × Option RecordValue)

/-- A step of one of the parties: an order is placed, or is filled or cancelled elsewhere; a trap
is registered; time passes; the loop reads a key, its cancel request ends, it removes the key;
the manager restarts; and the reconciliation fetches orders, fetches keys, cancels an order. -/
inductive Event where
  | placed (o : RawOrder)
  | closed (orderId : Text)
  | register (t : Trap) (expiresAt : ℤ)
  | elapse (d : ℕ)
  | look (key : Text)
  | cancelled (answer : CancelAnswer)
  | deleted
  | restart
  | fetchOrders
  | fetchKeys
  | sweep (answer : CancelAnswer)
deriving Repr, DecidableEq

section System

variable (spell : Text → Text)

/-- The exchange's order for a trap. -/
def isOrderOf (t : Trap) (o : RawOrder) : Bool :=
  decide (o.orderId = t.orderId ∧ o.symbol = spell t.symbol)

/-- `cancel_order`. -/
def World.request (s : World) (t : Trap) (answer : CancelAnswer) : World :=
  let left := s.opened.filter fun o => !isOrderOf spell t o
  match answer with
  | .verdict =>
      { s with opened := left, issued := t.orderId :: s.issued, settled := s.settled ++ [t] }
  | .lost true => { s with opened := left }
  | .lost false => s

/-- The keys with a property are removed. -/
def World.drop (s : World) (gone : Text → TrapData → Bool) : World :=
  { s with
    keys := s.keys.filter fun item => !gone item.1 item.2
    removed := s.removed ++ s.traps.filter fun t =>
      (s.keys.get (trapKey t)).any (gone (trapKey t)) }

/-- The order of an orphan, if its fields are texts. -/
def orphanTrap : Option RecordValue × Option RecordValue → Option Trap
  | (some (.text orderId), some (.text symbol)) => some ⟨symbol, orderId⟩
  | _ => none

/-- One event. -/
def step (s : World) : Event → World
  | .placed o =>
      if o.orderId ∈ s.issued then s
      else { s with opened := s.opened ++ [o], issued := o.orderId :: s.issued }
  | .closed orderId => { s with opened := s.opened.filter fun o => o.orderId ≠ orderId }
  | .register t expiresAt =>
      { s with
        keys := s.keys.set (trapKey t) (registered s.now expiresAt)
        traps := s.traps ++ [t] }
  | .elapse d => { s.drop fun _ data => data.lapsed (s.now + d) with now := s.now + d }
  | .look key =>
      match s.stage, s.keys.get key, parseKey key with
      | .idle, some data, some t =>
          if data.expiresAt < s.now then { s with stage := .cancelling t } else s
      | _, _, _ => s
  | .cancelled answer =>
      match s.stage with
      | .cancelling t => { s.request spell t answer with stage := .removing t }
      | .idle | .removing _ => s
  | .deleted =>
      match s.stage with
      | .removing t => { s.drop fun key _ => key = trapKey t with stage := .idle }
      | .idle | .cancelling _ => s
  | .restart => { s with stage := .idle, snapshot := none, orphans := [] }
  | .fetchOrders => { s with snapshot := some (fetchOpenOrders s.opened) }
  | .fetchKeys =>
      match s.snapshot with
      | some orders => { s with snapshot := none, orphans := orphanOrders orders s.keys.keys }
      | none => s
  | .sweep answer =>
      match s.orphans with
      | [] => s
      | o :: rest =>
          match orphanTrap o with
          | some t => { s.request spell t answer with orphans := rest }
          | none => { s with orphans := rest }

/-- The system before the first trap, with orders that are open already. -/
def atStart (now : ℤ) (opened : List RawOrder) : World where
  now := now
  opened := opened
  issued := opened.map RawOrder.orderId
  keys := []
  traps := []
  settled := []
  removed := []
  stage := .idle
  snapshot := none
  orphans := []

/-! ## What the manager promises -/

/-- The order of a trap is open on the exchange. -/
def World.isOpen (s : World) (t : Trap) : Prop :=
  ∃ o ∈ s.opened, isOrderOf spell t o = true

/-- The exchange has given a verdict on the order of a trap. -/
def World.isSettled (s : World) (t : Trap) : Prop :=
  ∃ u ∈ s.settled, u.orderId = t.orderId ∧ spell u.symbol = spell t.symbol

/-- A reconciliation that starts now cancels the order of a trap. -/
def World.sweeps (s : World) (t : Trap) : Prop :=
  ∃ o ∈ orphanOrders (fetchOpenOrders s.opened) s.keys.keys, o.1 = some (.text t.orderId)

/-- Every open order of a trap has its key or is cancelled by the next reconciliation, and the
key of a trap was removed only when its order was known to be open no more. -/
def Managed (s : World) : Prop :=
  (∀ t ∈ s.traps, s.isOpen spell t → trapKey t ∈ s.keys.keys ∨ s.sweeps t) ∧
    ∀ t ∈ s.removed, s.isSettled spell t

/-- The keys that an event removes. -/
def removes (s : World) : Event → Text → TrapData → Bool
  | .elapse d => fun _ data => data.lapsed (s.now + d)
  | .deleted =>
      match s.stage with
      | .removing t => fun key _ => key = trapKey t
      | .idle | .cancelling _ => fun _ _ => false
  | _ => fun _ _ => false

/-- Before Redis drops the key of a trap, and before the loop removes one, the exchange has
answered a cancel request for its order with a verdict. -/
def AnsweredFirst (s : World) (e : Event) : Prop :=
  ∀ t ∈ s.traps, (s.keys.get (trapKey t)).any (removes s e (trapKey t)) = true →
    s.isSettled spell t

/-- What holds in every state: orders with a verdict are not open and do not come back, a
registered trap has its key until it is removed, and no orphan is found. -/
structure Consistent (s : World) : Prop where
  settled : ∀ u ∈ s.settled, u.orderId ∈ s.issued ∧ ∀ o ∈ s.opened, isOrderOf spell u o = false
  keyed : ∀ t ∈ s.traps, trapKey t ∈ s.keys.keys ∨ t ∈ s.removed
  snapshot : ∀ orders, s.snapshot = some orders → ∃ list, orders = fetchOpenOrders list
  orphans : s.orphans = []

end System

section Runs

variable {spell : Text → Text} {s : World}

/-- In a consistent state the promise is about the removed keys. -/
theorem managed_iff (h : Consistent spell s) :
    Managed spell s ↔ ∀ t ∈ s.removed, s.isSettled spell t := by
  refine ⟨And.right, fun hremoved => ⟨fun t ht hopen => Or.inl ?_, hremoved⟩⟩
  rcases h.keyed t ht with hkey | hgone
  · exact hkey
  · rcases hremoved t hgone with ⟨u, hu, hid, hsymbol⟩
    rcases hopen with ⟨o, ho, horder⟩
    have hnot := (h.settled u hu).2 o ho
    rw [isOrderOf, hid, hsymbol, ← isOrderOf, horder] at hnot
    cases hnot

/-- The system at its start is consistent. -/
theorem consistent_atStart (now : ℤ) (opened : List RawOrder) :
    Consistent spell (atStart now opened) where
  settled := by simp [atStart]
  keyed := by simp [atStart]
  snapshot := by simp [atStart]
  orphans := rfl

/-- A cancel request keeps the state consistent. -/
theorem Consistent.request (h : Consistent spell s) (t : Trap) (answer : CancelAnswer) :
    Consistent spell (s.request spell t answer) := by
  have hleft : ∀ o ∈ s.opened.filter (fun o => !isOrderOf spell t o),
      o ∈ s.opened ∧ isOrderOf spell t o = false := by
    intro o ho
    rcases List.mem_filter.mp ho with ⟨hmem, hnot⟩
    exact ⟨hmem, by simpa using hnot⟩
  cases answer with
  | verdict =>
      refine ⟨fun u hu => ?_, h.keyed, h.snapshot, h.orphans⟩
      rcases List.mem_append.mp hu with hold | hnew
      · refine ⟨List.mem_cons_of_mem t.orderId (h.settled u hold).1, fun o ho => ?_⟩
        exact (h.settled u hold).2 o (hleft o ho).1
      · rw [List.mem_singleton.mp hnew]
        exact ⟨List.mem_cons_self, fun o ho => (hleft o ho).2⟩
  | lost effective =>
      cases effective with
      | false => exact h
      | true =>
          refine ⟨fun u hu => ⟨(h.settled u hu).1, fun o ho => ?_⟩, h.keyed, h.snapshot, h.orphans⟩
          exact (h.settled u hu).2 o (hleft o ho).1

/-- Removing keys keeps the state consistent. -/
theorem Consistent.drop (h : Consistent spell s) (gone : Text → TrapData → Bool) :
    Consistent spell (s.drop gone) := by
  refine ⟨h.settled, fun t ht => ?_, h.snapshot, h.orphans⟩
  rcases h.keyed t ht with hkey | hremoved
  · rcases Dict.exists_get_of_mem_keys hkey with ⟨data, hdata⟩
    cases hgone : gone (trapKey t) data with
    | true =>
        refine Or.inr (List.mem_append_right _ (List.mem_filter.mpr ⟨ht, ?_⟩))
        rw [hdata]
        exact hgone
    | false =>
        have hmem : (trapKey t, data) ∈ s.keys.filter fun item => !gone item.1 item.2 :=
          List.mem_filter.mpr ⟨Dict.mem_of_get hdata, by rw [hgone]; rfl⟩
        exact Or.inl (List.mem_map_of_mem hmem)
  · exact Or.inr (List.mem_append_left _ hremoved)

/-- Every event keeps the state consistent. -/
theorem Consistent.step (h : Consistent spell s) (e : Event) :
    Consistent spell (step spell s e) := by
  cases e with
  | placed o =>
      rw [TrapManager.step]
      split_ifs with hissued
      · exact h
      · refine ⟨fun u hu => ?_, h.keyed, h.snapshot, h.orphans⟩
        refine ⟨List.mem_cons_of_mem o.orderId (h.settled u hu).1, fun other hother => ?_⟩
        rcases List.mem_append.mp hother with hold | hnew
        · exact (h.settled u hu).2 other hold
        · rw [List.mem_singleton.mp hnew, isOrderOf, decide_eq_false_iff_not]
          rintro ⟨hid, -⟩
          exact hissued (hid ▸ (h.settled u hu).1)
  | closed orderId =>
      refine ⟨fun u hu => ⟨(h.settled u hu).1, fun o ho => ?_⟩, h.keyed, h.snapshot, h.orphans⟩
      exact (h.settled u hu).2 o (List.mem_of_mem_filter ho)
  | register t expiresAt =>
      refine ⟨h.settled, fun other hother => ?_, h.snapshot, h.orphans⟩
      rcases List.mem_append.mp hother with hold | hnew
      · exact (h.keyed other hold).imp_left fun hkey => Dict.mem_keys_set.mpr (Or.inr hkey)
      · exact Or.inl (Dict.mem_keys_set.mpr (Or.inl (by rw [List.mem_singleton.mp hnew])))
  | elapse d =>
      have hdrop := h.drop fun _ data => data.lapsed (s.now + d)
      exact ⟨hdrop.settled, hdrop.keyed, hdrop.snapshot, hdrop.orphans⟩
  | look key =>
      unfold TrapManager.step
      dsimp only
      split
      · split_ifs
        · exact ⟨h.settled, h.keyed, h.snapshot, h.orphans⟩
        · exact h
      · exact h
  | cancelled answer =>
      unfold TrapManager.step
      dsimp only
      split
      · rename_i t _
        have hrequest := h.request t answer
        exact ⟨hrequest.settled, hrequest.keyed, hrequest.snapshot, hrequest.orphans⟩
      · exact h
      · exact h
  | deleted =>
      unfold TrapManager.step
      dsimp only
      split
      · rename_i t _
        have hdrop := h.drop fun key _ => key = trapKey t
        exact ⟨hdrop.settled, hdrop.keyed, hdrop.snapshot, hdrop.orphans⟩
      · exact h
      · exact h
  | restart => exact ⟨h.settled, h.keyed, by simp [TrapManager.step], rfl⟩
  | fetchOrders =>
      refine ⟨h.settled, h.keyed, fun orders horders => ⟨s.opened, ?_⟩, h.orphans⟩
      exact (Option.some.inj horders).symm
  | fetchKeys =>
      unfold TrapManager.step
      dsimp only
      split
      · rename_i orders hsnapshot
        rcases h.snapshot orders hsnapshot with ⟨list, rfl⟩
        exact ⟨h.settled, h.keyed, by simp, orphanOrders_fetchOpenOrders list s.keys.keys⟩
      · exact h
  | sweep answer =>
      unfold TrapManager.step
      dsimp only
      rw [h.orphans]
      exact h

/-- A cancel request removes no key. -/
@[simp] theorem request_removed (s : World) (t : Trap) (answer : CancelAnswer) :
    (s.request spell t answer).removed = s.removed := by
  rcases answer with _ | (_ | _) <;> rfl

/-- A cancel request forgets no verdict. -/
theorem isSettled_request {t : Trap} (ht : s.isSettled spell t) (u : Trap)
    (answer : CancelAnswer) : (s.request spell u answer).isSettled spell t := by
  rcases ht with ⟨v, hv, hsame⟩
  rcases answer with _ | (_ | _)
  · exact ⟨v, List.mem_append_left [u] hv, hsame⟩
  · exact ⟨v, hv, hsame⟩
  · exact ⟨v, hv, hsame⟩

/-- Where no key is removed, no trap loses its key. -/
theorem filter_removes_eq_nil {e : Event} (h : ∀ key data, removes s e key data = false) :
    (s.traps.filter fun t => (s.keys.get (trapKey t)).any (removes s e (trapKey t))) = [] := by
  rw [List.filter_eq_nil_iff]
  intro t _
  cases s.keys.get (trapKey t) with
  | none => simp
  | some data => simp [h]

/-- An event removes the keys it is said to remove, of registered traps. -/
theorem removed_step (h : Consistent spell s) (e : Event) :
    (step spell s e).removed = s.removed ++ s.traps.filter fun t =>
      (s.keys.get (trapKey t)).any (removes s e (trapKey t)) := by
  have hkept : (∀ key data, removes s e key data = false) →
      (step spell s e).removed = s.removed →
      (step spell s e).removed = s.removed ++ s.traps.filter fun t =>
        (s.keys.get (trapKey t)).any (removes s e (trapKey t)) := by
    intro hnone hsame
    rw [filter_removes_eq_nil hnone, List.append_nil, hsame]
  cases e with
  | placed o =>
      refine hkept (fun _ _ => rfl) ?_
      rw [TrapManager.step]
      split_ifs <;> rfl
  | closed orderId => exact hkept (fun _ _ => rfl) rfl
  | register t expiresAt => exact hkept (fun _ _ => rfl) rfl
  | elapse d => rfl
  | look key =>
      refine hkept (fun _ _ => rfl) ?_
      unfold TrapManager.step
      dsimp only
      split
      · split_ifs <;> rfl
      · rfl
  | cancelled answer =>
      refine hkept (fun _ _ => rfl) ?_
      unfold TrapManager.step
      dsimp only
      split
      · exact request_removed s _ answer
      · rfl
      · rfl
  | deleted =>
      cases hstage : s.stage with
      | removing t => simp only [TrapManager.step, hstage, World.drop, removes]
      | idle => exact hkept (by simp [removes, hstage]) (by simp [TrapManager.step, hstage])
      | cancelling t => exact hkept (by simp [removes, hstage]) (by simp [TrapManager.step, hstage])
  | restart => exact hkept (fun _ _ => rfl) rfl
  | fetchOrders => exact hkept (fun _ _ => rfl) rfl
  | fetchKeys =>
      refine hkept (fun _ _ => rfl) ?_
      unfold TrapManager.step
      dsimp only
      split <;> rfl
  | sweep answer =>
      refine hkept (fun _ _ => rfl) ?_
      unfold TrapManager.step
      dsimp only
      rw [h.orphans]

/-- Only the cancel requests of the loop bring a verdict. -/
theorem settled_step_of_ne (h : Consistent spell s) {e : Event}
    (he : ∀ answer, e ≠ .cancelled answer) : (step spell s e).settled = s.settled := by
  cases e with
  | cancelled answer => exact absurd rfl (he answer)
  | placed o =>
      rw [TrapManager.step]
      split_ifs <;> rfl
  | look key =>
      unfold TrapManager.step
      dsimp only
      split
      · split_ifs <;> rfl
      · rfl
  | deleted =>
      unfold TrapManager.step
      dsimp only
      split <;> rfl
  | fetchKeys =>
      unfold TrapManager.step
      dsimp only
      split <;> rfl
  | sweep answer =>
      unfold TrapManager.step
      dsimp only
      rw [h.orphans]
  | closed _ | register _ _ | elapse _ | restart | fetchOrders => rfl

/-- No event takes a verdict back, and one that removes keys brings none. -/
theorem settled_step (h : Consistent spell s) (e : Event) (t : Trap) :
    (s.isSettled spell t → (step spell s e).isSettled spell t) ∧
      ((∃ key data, removes s e key data = true) →
        (step spell s e).isSettled spell t → s.isSettled spell t) := by
  by_cases hcancelled : ∃ answer, e = .cancelled answer
  · rcases hcancelled with ⟨answer, rfl⟩
    constructor
    · intro ht
      unfold TrapManager.step
      dsimp only
      split
      · rename_i u _
        exact isSettled_request ht u answer
      · exact ht
      · exact ht
    · rintro ⟨key, data, hremoves⟩
      cases hremoves
  · have hsame := settled_step_of_ne h fun answer he => hcancelled ⟨answer, he⟩
    unfold World.isSettled
    rw [hsame]
    exact ⟨id, fun _ => id⟩

/-- A step keeps the promise exactly if verdicts come before removals. -/
theorem managed_step_iff (e : Event) (h : Consistent spell s) (hm : Managed spell s) :
    Managed spell (step spell s e) ↔ AnsweredFirst spell s e := by
  rw [managed_iff h] at hm
  rw [managed_iff (h.step e), removed_step h]
  constructor
  · intro hnext t ht hgone
    have hsettled := hnext t (List.mem_append_right _ (List.mem_filter.mpr ⟨ht, hgone⟩))
    rcases Option.any_eq_true _ _ |>.mp hgone with ⟨data, -, hremoves⟩
    exact (settled_step h e t).2 ⟨_, data, hremoves⟩ hsettled
  · intro hanswered t ht
    refine (settled_step h e t).1 ?_
    rcases List.mem_append.mp ht with hold | hnew
    · exact hm t hold
    · rcases List.mem_filter.mp hnew with ⟨hmem, hgone⟩
      exact hanswered t hmem hgone

/-- Every open order of a trap is managed throughout exactly in the runs whose removals of keys
follow a verdict of the exchange. -/
theorem managed_throughout_iff (spell : Text → Text) (now : ℤ) (opened : List RawOrder)
    (events : List Event) :
    (∀ n, Managed spell (run (step spell) (atStart now opened) (events.take n))) ↔
      Admits (step spell) (AnsweredFirst spell) (atStart now opened) events := by
  have hstart : Managed spell (atStart now opened) :=
    (managed_iff (consistent_atStart now opened)).mpr (by simp [atStart])
  exact invariant_iff_admits_beside (Consistent spell) (Managed spell) (fun _ e hs => hs.step e)
    (fun _ e hs hmanaged => managed_step_iff e hs hmanaged) (consistent_atStart now opened) hstart

/-- The order of one Bitcoin for sixty thousand. -/
def bitcoinTrap : Trap :=
  ⟨"BTC/USDT".toList, "7f3a".toList⟩

/-- A trap for the four hours from the start on, whose cancel request at the end of its time
never reaches the exchange. -/
def lostCancel : List Event :=
  [.placed ⟨"7f3a".toList, "BTCUSDT".toList, .Buy, some (.value 60000), some (.value 1),
      "New".toList, "Limit".toList, []⟩,
    .register bitcoinTrap 14400000000, .elapse 14400000001, .look (trapKey bitcoinTrap),
    .cancelled (.lost false), .deleted]

/-- Its order stays open without a key, and no reconciliation cancels it. -/
theorem trap_left_open :
    ¬ Managed (Text.without '/') (run (step (Text.without '/')) (atStart 0 []) lostCancel) := by
  have htrap : bitcoinTrap ∈ (run (step (Text.without '/')) (atStart 0 []) lostCancel).traps := by
    decide +kernel
  have hopen : (run (step (Text.without '/')) (atStart 0 []) lostCancel).isOpen
      (Text.without '/') bitcoinTrap :=
    ⟨_, List.mem_cons_self, by decide +kernel⟩
  have hkeys : (run (step (Text.without '/')) (atStart 0 []) lostCancel).keys.keys = [] := by
    decide +kernel
  intro hmanaged
  rcases hmanaged.1 bitcoinTrap htrap hopen with hkey | ⟨o, ho, -⟩
  · rw [hkeys] at hkey
    cases hkey
  · rw [orphanOrders_fetchOpenOrders] at ho
    cases ho

end Runs

end TrapManager
end Karsa
