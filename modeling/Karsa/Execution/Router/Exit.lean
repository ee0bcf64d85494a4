import Karsa.Execution.Router.Entry

/-!
# Smart order router - Executing an exit

`SmartOrderRouter.execute_exit` tries a post-only limit order, then repriced limit orders,
then a market order for what is left, all of them reduce-only.  The variable `order` has
no value until a limit order was answered, and reading it before that raises.

Main results:

- Theorem `executeExit_marked`: every order of an exit is reduce-only and on the given side.
- Theorem `executeExit_outcome`: what a buying exit returns, by the answers it met.
-/

namespace Karsa
namespace Router

open Bybit

/-! ## Answers and state -/

/-- Answers met during one exit; a `cumExecQty` that cannot be read is `none`. -/
structure ExitAnswers where
  atMarket : Placement
  postOnly : Placement
  reprice : Nat → Placement
  market : Placement
  status : Nat → Option ℚ
  cancel : CancelSite → Except Text Unit

/-- The variables `order`, `remaining`, `total_filled` and `current_price`, the orders sent so
far with what became of them, the executed quantities read so far by order id, and the value
returned or raised once the call is left. -/
structure ExitState where
  order : Option OrderReply
  remaining : ℚ
  totalFilled : ℚ
  price : ℚ
  sent : List (OrderRequest × Placement)
  inspected : List (Text × ℚ)
  outcome : Except Text (Option OrderReply)

/-- State on entry. -/
def ExitState.start (r : EntryRequest) : ExitState where
  order := none
  remaining := r.amount
  totalFilled := 0
  price := r.price
  sent := []
  inspected := []
  outcome := .ok none

/-- The requests so far. -/
def ExitState.requests (s : ExitState) : List OrderRequest :=
  s.sent.map Prod.fst

/-- Note one submitted order. -/
def ExitState.submit (s : ExitState) (request : OrderRequest) (p : Placement) : ExitState :=
  { s with sent := s.sent ++ [(request, p)] }

@[simp] theorem ExitState.requests_submit (s : ExitState) (request : OrderRequest)
    (p : Placement) : (s.submit request p).requests = s.requests ++ [request] := by
  rw [requests, submit, List.map_append]
  rfl

/-- Return a value from the call. -/
def ExitState.leave (s : ExitState) (result : Option OrderReply) : Flow ExitState :=
  .ret { s with outcome := .ok result }

/-- Let an exception escape from the call. -/
def ExitState.fail (s : ExitState) (message : Text) : Flow ExitState :=
  .raise { s with outcome := .error message }

/-- Text of the exception for a variable without a value. -/
def unboundOrder : Text :=
  "cannot access local variable 'order' where it is not associated with a value".toList

/-! ## Steps -/

section Steps

variable (t : InstrumentTables) (r : EntryRequest) (a : ExitAnswers)

/-- Request of a limit order of the exit. -/
def exitLimit (amount price : ℚ) : OrderRequest :=
  limitRequest t r.symbol r.side amount price true

/-- Request of a market order of the exit. -/
def exitMarket (amount : ℚ) : OrderRequest :=
  marketRequest t r.symbol r.side amount true

/-- A price that is not positive goes to the market at once. -/
def exitAtMarket (s : ExitState) : Flow ExitState :=
  if r.price ≤ 0 then
    let s := s.submit (exitMarket t r r.amount) a.atMarket
    match a.atMarket.reply with
    | .ok order => s.leave (some order)
    | .error message => s.fail message
  else .next s

/-- Send one limit order for what is left, and return it when it is reported live. -/
def sendExitLimit (p : Placement) (price : ℚ) (s : ExitState) : Flow ExitState :=
  let s := s.submit (exitLimit t r s.remaining price) p
  match p.reply with
  | .ok order =>
      let s := { s with order := some order }
      if reportedLive order then s.leave (some order) else .next s
  | .error _ => .next s

/-- Step 1. -/
def exitPostOnly (s : ExitState) : Flow ExitState :=
  sendExitLimit t r a.postOnly r.price s

/-- Price step between two reprices. -/
def exitTick : ℚ :=
  max (r.price * (1 / 1000)) (1 / 100)

/-- The next limit price. -/
def nextExitPrice (price : ℚ) : ℚ :=
  match r.side with
  | .buy => price + exitTick r
  | .sell => price - exitTick r

/-- Take off what the status of the last order says was filled. -/
def trackPartialFill (attempt : Nat) (order : OrderReply) (s : ExitState) : ExitState :=
  match cancellableId (some order) with
  | none => s
  | some id =>
      match a.status attempt with
      | none => s
      | some filled =>
          let s := { s with inspected := s.inspected ++ [(id, filled)] }
          if 0 < filled then
            { s with
              remaining := s.remaining - filled
              totalFilled := s.totalFilled + filled }
          else s

/-- Cancel the last order when its dictionary has an id. -/
def exitCancelled (site : CancelSite) (order : OrderReply) : Bool :=
  match cancellableId (some order) with
  | none => true
  | some _ => (a.cancel site).isOk

/-- Step 2 from attempt `attempt` on, with `left` attempts left. -/
def exitReprice : (left attempt : Nat) → ExitState → Flow ExitState
  | 0, _, s => .next s
  | left + 1, attempt, s =>
      match s.order with
      | none => s.fail unboundOrder
      | some order =>
          let tracked := trackPartialFill a attempt order s
          let s := { tracked with price := nextExitPrice r tracked.price }
          if r.side = .sell ∧ s.price ≤ 0 then .next s
          else if exitCancelled a (.reprice attempt) order then
            if s.remaining ≤ 0 then .next s
            else
              (sendExitLimit t r (a.reprice attempt) s.price s).andThen
                (exitReprice left (attempt + 1))
          else exitReprice left (attempt + 1) s

/-- Step 3: every exception on the way gives up. -/
def exitMarketFallback (s : ExitState) : Flow ExitState :=
  if 0 < s.remaining then
    match s.order with
    | none => s.leave none
    | some order =>
        if exitCancelled a .market order then
          let s := s.submit (exitMarket t r s.remaining) a.market
          match a.market.reply with
          | .ok order => if order.orderId.isSome then s.leave (some order) else s.leave none
          | .error _ => s.leave none
        else s.leave none
  else
    match s.order with
    | none => s.fail unboundOrder
    | some order => s.leave (some order)

/-- `SmartOrderRouter.execute_exit`. -/
def executeExit (settings : RouterSettings) : ExitState :=
  (Flow.blocks [exitAtMarket t r a, exitPostOnly t r a,
    exitReprice t r a settings.maxRepriceAttempts 0, exitMarketFallback t r a]
    (.start r)).state

end Steps

/-! ## Small facts about the steps -/

section StepFacts

variable (t : InstrumentTables) {r : EntryRequest} (a : ExitAnswers)

/-- A positive price is not sold at the market at once. -/
theorem exitAtMarket_eq_next (hprice : 0 < r.price) (s : ExitState) :
    exitAtMarket t r a s = .next s := by
  rw [exitAtMarket, if_neg hprice.not_ge]

/-- At a positive price an exit starts with its post-only order. -/
theorem executeExit_eq (settings : RouterSettings) (hprice : 0 < r.price) :
    executeExit t r a settings =
      ((exitPostOnly t r a (.start r)).andThen (Flow.blocks
        [exitReprice t r a settings.maxRepriceAttempts 0, exitMarketFallback t r a])).state := by
  rw [executeExit, Flow.blocks_cons, exitAtMarket_eq_next t a hprice, Flow.next_andThen,
    Flow.blocks_cons]

/-- A status sends nothing. -/
@[simp] theorem trackPartialFill_sent (attempt : Nat) (order : OrderReply) (s : ExitState) :
    (trackPartialFill a attempt order s).sent = s.sent := by
  unfold trackPartialFill
  split
  · rfl
  · split
    · rfl
    · dsimp only
      split_ifs
      · rfl
      · rfl

/-- A status only takes off from what is left. -/
theorem trackPartialFill_le (attempt : Nat) (order : OrderReply) (s : ExitState) :
    (trackPartialFill a attempt order s).remaining ≤ s.remaining := by
  unfold trackPartialFill
  split
  · exact le_rfl
  · split
    · exact le_rfl
    · dsimp only
      split_ifs with hfilled
      · exact sub_le_self _ hfilled.le
      · exact le_rfl

/-- A dictionary without an id names nothing to cancel or to look up. -/
theorem cancellableId_eq_none {order : OrderReply} (h : order.id = none) :
    cancellableId (some order) = none := by
  rw [cancellableId, Option.bind_some, h]
  rfl

theorem trackPartialFill_eq_self {order : OrderReply} (h : order.id = none) (attempt : Nat)
    (s : ExitState) : trackPartialFill a attempt order s = s := by
  rw [trackPartialFill, cancellableId_eq_none h]

theorem exitCancelled_eq_true {order : OrderReply} (h : order.id = none) (site : CancelSite) :
    exitCancelled a site order = true := by
  rw [exitCancelled, cancellableId_eq_none h]

end StepFacts

/-! ## The orders of an exit -/

section Marked

variable (t : InstrumentTables) (r : EntryRequest) (a : ExitAnswers)

/-- A reduce-only request on the side of the exit. -/
def Marked (request : OrderRequest) : Prop :=
  request.reduceOnly = true ∧ request.side = r.side

/-- A property of the orders submitted so far. -/
def Holds (inv : List OrderRequest → Prop) (s : ExitState) : Prop :=
  inv s.requests

section Requests

variable {inv : List OrderRequest → Prop}
  (hinv : ∀ list request, Marked r request → inv list → inv (list ++ [request]))

include hinv

/-- A limit order appends one marked request. -/
theorem sendExitLimit_holds (p : Placement) (price : ℚ) {s : ExitState} (h : Holds inv s) :
    Holds inv (sendExitLimit t r p price s).state := by
  have hsent : inv (s.submit (exitLimit t r s.remaining price) p).requests := by
    rw [ExitState.requests_submit]
    exact hinv s.requests _ ⟨rfl, rfl⟩ h
  unfold sendExitLimit
  dsimp only
  split
  · split_ifs
    · exact hsent
    · exact hsent
  · exact hsent

theorem exitReprice_holds (left attempt : Nat) {s : ExitState} (h : Holds inv s) :
    Holds inv (exitReprice t r a left attempt s).state := by
  induction left generalizing attempt s with
  | zero => exact h
  | succ left ih =>
      rw [exitReprice]
      split
      · exact h
      · rename_i order _
        have htracked : Holds inv { trackPartialFill a attempt order s with
            price := nextExitPrice r (trackPartialFill a attempt order s).price } := by
          rw [Holds, ExitState.requests, trackPartialFill_sent]
          exact h
        dsimp only
        split_ifs
        · exact htracked
        · exact htracked
        · have hsent := sendExitLimit_holds t r hinv (a.reprice attempt)
            (nextExitPrice r (trackPartialFill a attempt order s).price) htracked
          exact (Flow.ends_of_state hsent).andThen_state (fun s' hs' => ih (attempt + 1) hs')
            fun _ hs' => hs'
        · exact ih (attempt + 1) htracked

theorem exitMarketFallback_holds {s : ExitState} (h : Holds inv s) :
    Holds inv (exitMarketFallback t r a s).state := by
  have hsent : inv (s.submit (exitMarket t r s.remaining) a.market).requests := by
    rw [ExitState.requests_submit]
    exact hinv s.requests _ ⟨rfl, rfl⟩ h
  unfold exitMarketFallback
  split_ifs
  · split
    · exact h
    · dsimp only
      split_ifs
      · split
        · split_ifs
          · exact hsent
          · exact hsent
        · exact hsent
      · exact h
  · split
    · exact h
    · exact h

/-- What holds of the post-only order and is kept by marked requests holds of an exit. -/
theorem executeExit_holds (settings : RouterSettings) (hprice : 0 < r.price)
    (h : inv [exitLimit t r r.amount r.price]) : Holds inv (executeExit t r a settings) := by
  have hfirst : Holds inv (exitPostOnly t r a (.start r)).state := by
    unfold exitPostOnly sendExitLimit
    dsimp only
    split
    · split_ifs
      · exact h
      · exact h
    · exact h
  have hrest : ∀ block ∈ [exitReprice t r a settings.maxRepriceAttempts 0,
      exitMarketFallback t r a], Flow.Spec (Holds inv) block (Holds inv) (Holds inv) := by
    intro block hblock s hs
    apply Flow.ends_of_state
    simp only [List.mem_cons, List.not_mem_nil, or_false] at hblock
    rcases hblock with rfl | rfl
    · exact exitReprice_holds t r a hinv _ _ hs
    · exact exitMarketFallback_holds t r a hinv hs
  rw [executeExit_eq t a settings hprice]
  exact ((Flow.ends_of_state hfirst).andThen (Flow.Spec.blocks hrest)).state fun _ hs => hs

end Requests

/-- Every order of an exit is reduce-only and on the given side. -/
theorem executeExit_marked (settings : RouterSettings) (hprice : 0 < r.price) :
    ∀ request ∈ (executeExit t r a settings).requests, Marked r request := by
  refine @executeExit_holds t r a (fun list => ∀ request ∈ list, Marked r request)
    (fun list request hrequest hlist request' h' => ?_) settings hprice fun request h => ?_
  · rcases List.mem_append.mp h' with hold | hnew
    · exact hlist request' hold
    · rw [List.mem_singleton.mp hnew]
      exact hrequest
  · rw [List.mem_singleton.mp h]
    exact ⟨rfl, rfl⟩

/-- The post-only order is always sent. -/
theorem exitLimit_mem_executeExit (settings : RouterSettings) (hprice : 0 < r.price) :
    exitLimit t r r.amount r.price ∈ (executeExit t r a settings).requests :=
  @executeExit_holds t r a (exitLimit t r r.amount r.price ∈ ·)
    (fun _ _ _ hlist => List.mem_append_left _ hlist) settings hprice
    (List.mem_singleton_self _)

end Marked

/-! ## What an exit returns -/

section Outcome

variable (t : InstrumentTables) (r : EntryRequest) (a : ExitAnswers) (settings : RouterSettings)

/-- The order call was answered by an order that is resting or filled. -/
def Placement.taken (p : Placement) : Bool :=
  match p.reply with
  | .ok order => reportedLive order
  | .error _ => false

/-- One of the limit orders is reported live. -/
def limitTaken : Bool :=
  a.postOnly.taken ||
    a.postOnly.reply.isOk &&
      (List.range settings.maxRepriceAttempts).any fun n => (a.reprice n).taken

/-- The id of the market order, when the exit gets so far. -/
def marketId : Option Text :=
  if a.postOnly.reply.isOk then a.market.reply.toOption.bind OrderReply.orderId else none

/-- No limit order is taken, and the market order is refused or never sent. -/
def GivesUp : Prop :=
  0 < r.amount ∧ limitTaken a settings = false ∧ marketId a = none ∧
    (a.postOnly.reply.isOk = false → settings.maxRepriceAttempts = 0)

instance : Decidable (GivesUp r a settings) :=
  inferInstanceAs (Decidable (_ ∧ _ ∧ _ ∧ _))

/-- An order with an id was returned. -/
def Identified : Prop :=
  limitTaken a settings = true ∨ ∃ id, marketId a = some id ∧ id ≠ []

/-- A dictionary with a status was looked up, so it has an order id. -/
theorem orderId_of_reportedLive {p : Placement} {order : OrderReply} (h : p.reply = .ok order)
    (hlive : reportedLive order = true) : ∃ id, order.orderId = some id ∧ id ≠ [] := by
  unfold Placement.reply at h
  cases hsent : p.sent with
  | error message =>
      rw [hsent] at h
      cases h
  | ok ack =>
      rw [hsent] at h
      have hreply : orderReply ack p.lookups = order := Except.ok.inj h
      have hack : reportedLive ack.toReply = false := rfl
      rw [← hreply] at hlive ⊢
      unfold orderReply fetchPlacedOrderDetails at hlive ⊢
      split at hlive
      · rw [hack] at hlive
        cases hlive
      · rw [hack] at hlive
        cases hlive
      · cases hfound : (List.range 3).findSome? fun n => (p.lookups n).found with
        | none =>
            rw [hfound] at hlive
            rw [Option.map_none, Option.getD_none, hack] at hlive
            cases hlive
        | some d =>
            rcases List.exists_of_findSome?_eq_some hfound with ⟨n, -, hn⟩
            refine ⟨d.orderId, rfl, ?_⟩
            unfold StatusLookup.found at hn
            split at hn
            · split_ifs at hn with hempty
              rw [← Option.some.inj hn]
              exact hempty
            · cases hn
            · cases hn

/-- The variable `order` has a value, which names no id. -/
def Bound (s : ExitState) : Prop :=
  ∃ order, s.order = some order ∧ order.id = none

/-- The order of an answered placement that is reported live was returned. -/
def Took (p : Placement) (s : ExitState) : Prop :=
  ∃ order, p.reply = .ok order ∧ reportedLive order = true ∧
    s.outcome = .ok (some order)

/-- One limit order: taken and returned, answered, or refused. -/
theorem sendExitLimit_ends (p : Placement) (price : ℚ) (s : ExitState) :
    (sendExitLimit t r p price s).Ends
      (fun s' => p.taken = false ∧ s'.remaining = s.remaining ∧
        (p.reply.isOk = true → Bound s') ∧ (p.reply.isOk = false → s'.order = s.order))
      (Took p) := by
  unfold sendExitLimit Placement.taken
  cases hreply : p.reply with
  | error message => exact ⟨rfl, rfl, by simp [Except.isOk, Except.toBool], fun _ => rfl⟩
  | ok order =>
      dsimp only
      split_ifs with hlive
      · exact ⟨order, hreply, hlive, rfl⟩
      · exact ⟨Bool.eq_false_iff.mpr hlive, rfl, fun _ => ⟨order, rfl, reply_id hreply⟩,
          by simp [Except.isOk, Except.toBool]⟩

/-- The reprices of a buying exit: one of them is taken, or none is and nothing of the
amount is taken off. -/
theorem exitReprice_ends (hside : r.side = .buy) (left attempt : Nat) {s : ExitState}
    (hbound : Bound s) (hremaining : 0 < s.remaining) :
    (exitReprice t r a left attempt s).Ends
      (fun s' => (∀ k, attempt ≤ k → k < attempt + left → (a.reprice k).taken = false) ∧
        s'.remaining = s.remaining ∧ Bound s')
      (fun s' => ∃ k, k < attempt + left ∧ Took (a.reprice k) s') := by
  induction left generalizing attempt s with
  | zero => exact ⟨fun k hle hlt => by omega, rfl, hbound⟩
  | succ left ih =>
      rcases hbound with ⟨order, horder, hid⟩
      have htracked := trackPartialFill_eq_self a hid attempt s
      have hcancelled := exitCancelled_eq_true a hid (.reprice attempt)
      have hopen : ¬ (r.side = .sell ∧ nextExitPrice r s.price ≤ 0) := by
        rw [hside]
        exact fun h => by cases h.1
      rw [exitReprice, horder]
      dsimp only
      rw [htracked, if_neg hopen, if_pos hcancelled, if_neg hremaining.not_ge]
      have hsent := sendExitLimit_ends t r (a.reprice attempt) (nextExitPrice r s.price)
        { s with price := nextExitPrice r s.price }
      refine (hsent.mono (fun _ h => h) fun s' htook => ?_).andThen ?_
      · exact ⟨attempt, by omega, htook⟩
      · rintro s' ⟨hdead, hsame, hanswered, hrefused⟩
        have hbound' : Bound s' := by
          cases hok : (a.reprice attempt).reply.isOk with
          | true => exact hanswered hok
          | false => exact ⟨order, (hrefused hok).trans horder, hid⟩
        refine (ih (attempt + 1) hbound' (hsame ▸ hremaining)).mono ?_ ?_
        · rintro final ⟨hall, hrest, hfinal⟩
          refine ⟨fun k hle hlt => ?_, hrest.trans hsame, hfinal⟩
          by_cases hk : k = attempt
          · rw [hk]
            exact hdead
          · exact hall k (by omega) (by omega)
        · rintro final ⟨k, hlt, htook⟩
          exact ⟨k, by omega, htook⟩

/-- What a buying exit of a positive amount returns: a live limit order, an exception, a
market order, or nothing. -/
inductive ExitOutcome : Except Text (Option OrderReply) → Prop
  | taken (order : OrderReply) (htaken : limitTaken a settings = true)
      (hid : ∃ id, order.orderId = some id ∧ id ≠ []) : ExitOutcome (.ok (some order))
  | unbound (htaken : limitTaken a settings = false) (hpost : a.postOnly.reply.isOk = false)
      (hattempts : settings.maxRepriceAttempts ≠ 0) : ExitOutcome (.error unboundOrder)
  | sold (order : OrderReply) (htaken : limitTaken a settings = false)
      (hid : (marketId a).isSome) (horder : order.orderId = marketId a) :
      ExitOutcome (.ok (some order))
  | gaveUp (htaken : limitTaken a settings = false) (hid : marketId a = none)
      (hattempts : a.postOnly.reply.isOk = false → settings.maxRepriceAttempts = 0) :
      ExitOutcome (.ok none)

variable {a settings}

theorem Took.taken {p : Placement} {s : ExitState} (h : Took p s) : p.taken = true := by
  rcases h with ⟨order, hreply, hlive, -⟩
  rw [Placement.taken, hreply]
  exact hlive

/-- A returned limit order has an id. -/
theorem Took.outcome {p : Placement} {s : ExitState} (h : Took p s)
    (htaken : limitTaken a settings = true) : ExitOutcome a settings s.outcome := by
  rcases h with ⟨order, hreply, hlive, hout⟩
  rw [hout]
  exact .taken order htaken (orderId_of_reportedLive hreply hlive)

variable (a settings)

/-- One of the reprices is taken. -/
theorem limitTaken_of_reprice {k : Nat} (hpost : a.postOnly.reply.isOk = true)
    (hk : k < settings.maxRepriceAttempts) (h : (a.reprice k).taken = true) :
    limitTaken a settings = true := by
  rw [limitTaken, hpost, Bool.true_and, Bool.or_eq_true, List.any_eq_true]
  exact Or.inr ⟨k, List.mem_range.mpr hk, h⟩

/-- None of the limit orders is taken. -/
theorem limitTaken_eq_false (hpost : a.postOnly.taken = false)
    (h : a.postOnly.reply.isOk = true →
      ∀ k < settings.maxRepriceAttempts, (a.reprice k).taken = false) :
    limitTaken a settings = false := by
  rw [limitTaken, hpost, Bool.false_or]
  cases hok : a.postOnly.reply.isOk with
  | false => rfl
  | true =>
      rw [Bool.true_and, List.any_eq_false]
      intro k hk
      rw [h hok k (List.mem_range.mp hk)]
      exact Bool.false_ne_true

/-- The market fallback of an exit whose limit orders were not taken. -/
theorem exitMarketFallback_outcome (htaken : limitTaken a settings = false) {s : ExitState}
    (hremaining : 0 < s.remaining) (hbound : a.postOnly.reply.isOk = true → Bound s)
    (hunbound : a.postOnly.reply.isOk = false →
      s.order = none ∧ settings.maxRepriceAttempts = 0) :
    ExitOutcome a settings (exitMarketFallback t r a s).state.outcome := by
  rw [exitMarketFallback, if_pos hremaining]
  cases hpost : a.postOnly.reply.isOk with
  | false =>
      rw [(hunbound hpost).1]
      refine .gaveUp htaken ?_ fun _ => (hunbound hpost).2
      rw [marketId, hpost]
      rfl
  | true =>
      have hanswered : a.postOnly.reply.isOk = false → settings.maxRepriceAttempts = 0 :=
        fun h => by rw [hpost] at h; cases h
      have hmarket : marketId a = a.market.reply.toOption.bind OrderReply.orderId := by
        rw [marketId, if_pos hpost]
      rcases hbound hpost with ⟨order, horder, hid⟩
      rw [horder]
      dsimp only
      rw [if_pos (exitCancelled_eq_true a hid .market)]
      cases hreply : a.market.reply with
      | error message =>
          rw [hreply] at hmarket
          exact .gaveUp htaken hmarket hanswered
      | ok sold =>
          rw [hreply] at hmarket
          dsimp only
          split_ifs with hsold
          · exact .sold sold htaken (by rw [hmarket]; exact hsold) hmarket.symm
          · refine .gaveUp htaken (hmarket.trans ?_) hanswered
            simpa [Except.toOption] using hsold

/-- The outcomes of a buying exit of a positive amount. -/
theorem executeExit_outcome (hside : r.side = .buy) (hprice : 0 < r.price)
    (hamount : 0 < r.amount) :
    ExitOutcome a settings (executeExit t r a settings).outcome := by
  rw [executeExit_eq t a settings hprice]
  refine @Flow.Ends.andThen_state _ _ _ (fun s => ExitOutcome a settings s.outcome) _ _
    (sendExitLimit_ends t r a.postOnly r.price (.start r)) ?_ ?_
  · rintro s ⟨hdead, hremaining, hanswered, hrefused⟩
    have hpositive : 0 < s.remaining := hremaining ▸ hamount
    rw [Flow.blocks_cons]
    cases hpost : a.postOnly.reply.isOk with
    | false =>
        have hbound : a.postOnly.reply.isOk = true → Bound s :=
          fun h => by rw [hpost] at h; cases h
        have htaken : limitTaken a settings = false :=
          limitTaken_eq_false a settings hdead fun h => by rw [hpost] at h; cases h
        cases hmax : settings.maxRepriceAttempts with
        | zero =>
            rw [exitReprice, Flow.next_andThen, Flow.blocks_cons, Flow.andThen_blocks_nil]
            exact exitMarketFallback_outcome t r a settings htaken hpositive hbound
              fun _ => ⟨hrefused hpost, hmax⟩
        | succ left =>
            rw [exitReprice, show s.order = none from hrefused hpost]
            exact .unbound htaken hpost (by omega)
    | true =>
        refine @Flow.Ends.andThen_state _ _ _ (fun s => ExitOutcome a settings s.outcome) _ _
          (exitReprice_ends t r a hside settings.maxRepriceAttempts 0 (hanswered hpost)
            hpositive) ?_ ?_
        · rintro s' ⟨hall, hsame, hbound⟩
          have htaken : limitTaken a settings = false :=
            limitTaken_eq_false a settings hdead fun _ k hk => hall k (by omega) (by omega)
          rw [Flow.blocks_cons, Flow.andThen_blocks_nil]
          exact exitMarketFallback_outcome t r a settings htaken (hsame ▸ hpositive)
            (fun _ => hbound) fun h => by rw [hpost] at h; cases h
        · rintro s' ⟨k, hk, htook⟩
          exact htook.outcome (limitTaken_of_reprice a settings hpost (by omega) htook.taken)
  · intro s htook
    exact htook.outcome (by rw [limitTaken, htook.taken, Bool.true_or])

/-- A buying exit returns nothing exactly when it gives up. -/
theorem executeExit_eq_none_iff (hside : r.side = .buy) (hprice : 0 < r.price)
    (hamount : 0 < r.amount) :
    (executeExit t r a settings).outcome = .ok none ↔ GivesUp r a settings := by
  have houtcome := executeExit_outcome t r a settings hside hprice hamount
  generalize (executeExit t r a settings).outcome = outcome at houtcome
  unfold GivesUp
  cases houtcome with
  | taken order htaken _ => simp [htaken]
  | unbound htaken hpost hattempts => simp [hpost, hattempts]
  | sold order htaken hid _ =>
      rcases Option.isSome_iff_exists.mp hid with ⟨id, hid⟩
      simp [hid]
  | gaveUp htaken hid hattempts =>
      simpa [hamount, htaken, hid] using hattempts

/-- A buying exit returns an order with an id exactly when a limit order is taken or the
market order has one. -/
theorem executeExit_identified_iff (hside : r.side = .buy) (hprice : 0 < r.price)
    (hamount : 0 < r.amount) :
    (∃ order id, (executeExit t r a settings).outcome = .ok (some order) ∧
        order.orderId = some id ∧ id ≠ []) ↔ Identified a settings := by
  have houtcome := executeExit_outcome t r a settings hside hprice hamount
  generalize (executeExit t r a settings).outcome = outcome at houtcome
  unfold Identified
  cases houtcome with
  | taken order htaken hid =>
      rcases hid with ⟨id, horder, hne⟩
      exact ⟨fun _ => Or.inl htaken, fun _ => ⟨order, id, rfl, horder, hne⟩⟩
  | unbound htaken hpost hattempts =>
      simp [htaken, marketId, hpost]
  | sold order htaken hid horder =>
      constructor
      · rintro ⟨order', id, heq, hid', hne⟩
        have hsame : order = order' := Option.some.inj (Except.ok.inj heq)
        exact Or.inr ⟨id, by rw [← horder, hsame, hid'], hne⟩
      · rintro (htaken' | ⟨id, hid', hne⟩)
        · rw [htaken] at htaken'
          cases htaken'
        · exact ⟨order, id, rfl, horder.trans hid', hne⟩
  | gaveUp htaken hid _ => simp [htaken, hid]

/-- Nothing is left to sell. -/
def Exhausted (s : ExitState) : Prop :=
  s.remaining ≤ 0

theorem sendExitLimit_exhausted (p : Placement) (price : ℚ) {s : ExitState} (h : Exhausted s) :
    (sendExitLimit t r p price s).Ends Exhausted fun s' => s'.outcome ≠ .ok none := by
  refine (sendExitLimit_ends t r p price s).mono ?_ ?_
  · rintro s' ⟨-, hsame, -⟩
    exact hsame.le.trans h
  · rintro s' ⟨order, -, -, hout⟩
    rw [hout]
    exact fun heq => by cases heq

theorem exitReprice_exhausted (left attempt : Nat) {s : ExitState} (h : Exhausted s) :
    (exitReprice t r a left attempt s).Ends Exhausted fun s' => s'.outcome ≠ .ok none := by
  induction left generalizing attempt s with
  | zero => exact h
  | succ left ih =>
      rw [exitReprice]
      split
      · exact fun heq => by cases heq
      · rename_i order _
        have htracked : Exhausted (trackPartialFill a attempt order s) :=
          (trackPartialFill_le a attempt order s).trans h
        have hle : (trackPartialFill a attempt order s).remaining ≤ 0 := htracked
        dsimp only
        split_ifs
        · exact htracked
        · exact htracked
        · exact ih (attempt + 1) htracked

/-- Without an amount to sell an exit returns an order or raises. -/
theorem executeExit_ne_none (hprice : 0 < r.price) (hamount : r.amount ≤ 0) :
    (executeExit t r a settings).outcome ≠ .ok none := by
  have hstart : Exhausted (.start r) := hamount
  rw [executeExit_eq t a settings hprice]
  refine @Flow.Ends.andThen_state _ _ _ (fun s => s.outcome ≠ .ok none) _ _
    (sendExitLimit_exhausted t r a.postOnly r.price hstart) ?_ fun _ h => h
  intro s hs
  rw [Flow.blocks_cons]
  refine @Flow.Ends.andThen_state _ _ _ (fun s => s.outcome ≠ .ok none) _ _
    (exitReprice_exhausted t r a settings.maxRepriceAttempts 0 hs) ?_ fun _ h => h
  intro s' hs'
  have hle : s'.remaining ≤ 0 := hs'
  rw [Flow.blocks_cons, Flow.andThen_blocks_nil, exitMarketFallback, if_neg hle.not_gt]
  split
  · exact fun heq => by cases heq
  · exact fun heq => by cases heq

end Outcome

end Router
end Karsa
