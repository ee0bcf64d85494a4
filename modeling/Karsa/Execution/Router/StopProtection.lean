import Karsa.Execution.Router.Exposure
import Karsa.Execution.Router.FeeAware
import Karsa.Execution.Router.RegimeAware
import Karsa.Execution.Router.StopLoss

/-!
# Smart order router - Is every fill protected?

The entries of the router share one log of what reached the exchange.  A fill divides it: the
order was placed before, and a stop helps only if the exchange takes it afterwards.

No entry closes what it filled, and nothing in the result tells whether the exchange took a stop.
A fill is therefore guarded by the one stop that the call asks for, or not at all.  Where an entry
asks for none, as after a thin edge that was filled late, it is left alone.

Main results:

- Theorem `EntryRun.stopRequests_log`: the requests for a stop in the log of a call.
- Theorem `EntryRun.thinEdge_not_protected`: late fills of a thin edge have no stop.
- Theorem `EntryRun.fill_guarded_iff`: when a fill is guarded.
-/

namespace Karsa
namespace Router

open Bybit

/-! ## One entry -/

/-- The calls that enter a position.  Only `execute` looks an absent `price_tick` up. -/
inductive EntryCall where
  | execute (settings : RouterSettings) (r : EntryRequest) (priceTick : Option ℚ)
      (a : EntryAnswers)
  | regimeAware (settings : RouterSettings) (r : RegimeRequest) (priceTick : ℚ)
      (a : RegimeAnswers)
  | feeAware (settings : RouterSettings) (r : FeeRequest) (priceTick : ℚ) (a : FeeAnswers)

namespace EntryCall

/-- The symbol of the entry. -/
def symbol : EntryCall → Text
  | execute _ r _ _ => r.symbol
  | regimeAware _ r _ _ => r.symbol
  | feeAware _ r _ _ => r.entry.symbol

/-- The side of its orders, where the exchange knows the word. -/
def orderSide : EntryCall → Option OrderSide
  | execute _ r _ _ => some r.side
  | regimeAware _ r _ _ => requestSide r.side
  | feeAware _ r _ _ => some r.entry.side

/-- The side for which the stop is placed. -/
def stopSide : EntryCall → OrderSide
  | execute _ r _ _ => r.side
  | regimeAware _ r _ _ => routedSide r.side
  | feeAware _ r _ _ => r.entry.side

/-- The step to which the stop is rounded. -/
def priceTick (c : EntryCall) (t : InstrumentTables) : ℚ :=
  match c with
  | execute _ r priceTick _ => priceTick.getD ((t.priceTicks r.symbol).getD (1 / 100))
  | regimeAware _ _ priceTick _ => priceTick
  | feeAware _ _ priceTick _ => priceTick

/-- The state in which the call is left. -/
def state : EntryCall → RouteState
  | execute settings r _ a => Router.execute settings r a
  | regimeAware settings r _ a => executeRegimeAware settings r a
  | feeAware settings r _ a => executeFeeAware settings r a

/-- The stop that the answers lead to. -/
def plannedStop : EntryCall → Option StopRequest
  | execute settings r _ a => entryStop settings r a
  | regimeAware settings r _ a => regimeStop settings r a
  | feeAware settings r _ a => feeStop settings r a

/-- Every call asks for its planned stop and no other. -/
theorem state_stops (c : EntryCall) : AskedFor c.plannedStop c.state := by
  cases c with
  | execute settings r priceTick a => exact execute_stops settings r a
  | regimeAware settings r priceTick a => exact executeRegimeAware_stops settings r a
  | feeAware settings r priceTick a => exact executeFeeAware_stops settings r a

end EntryCall

/-- One call with the client's tables, the loss limit, and the answers to its stop requests. -/
structure EntryRun where
  call : EntryCall
  tables : InstrumentTables
  maxLossUsd : ℚ
  stops : StopAnswers

namespace EntryRun

/-- The terms of its stop. -/
def terms (run : EntryRun) : StopTerms where
  tables := run.tables
  maxLossUsd := run.maxLossUsd
  priceTick := run.call.priceTick run.tables

/-- Place the stop that was asked for. -/
def place (run : EntryRun) (stop : StopRequest) : List ExchangeStep × Option Text :=
  placeSlAfterFill run.terms run.call.symbol run.call.stopSide stop.1 stop.2 run.stops

/-- What an event sends to the exchange. -/
def sends (run : EntryRun) : RouterEvent → List ExchangeStep
  | .placed _ _ p => [.order run.call.orderSide p]
  | .cancelled orderId => [.cancel orderId]
  | .stopRequested fillPrice amount => (run.place (fillPrice, amount)).1

/-- What reached the exchange, in order. -/
def log (run : EntryRun) : List ExchangeStep :=
  run.call.state.events.flatMap run.sends

/-- `result.get("sl_order_id", "")` as the callers store it. -/
def slOrderId (run : EntryRun) : Text :=
  (run.call.state.stops.head?.bind fun stop => (run.place stop).2).getD []

/-- What the caller gets. -/
def result (run : EntryRun) : Except Text (Option (OrderReply × Text)) :=
  run.call.state.outcome.map fun order => order.map fun order => (order, run.slOrderId)

/-- The caller can tell that a stop failed: an exception, or a result that depends on how the
requests for the stop were answered. -/
def FailureVisible (run : EntryRun) : Prop :=
  run.result.isOk = false ∨ ∃ answers, { run with stops := answers }.result ≠ run.result

/-! ## Fills -/

/-- The requests for a stop in the log of a call: those for its planned stop. -/
theorem stopRequests_log (run : EntryRun) :
    stopRequests run.log =
      run.call.plannedStop.toList.flatMap fun stop =>
        if run.terms.priceTick = 0 then []
        else
          stopCalls run.call.stopSide
            (run.terms.sentPrice run.call.symbol run.call.stopSide stop.1 stop.2) run.stops := by
  have hevents : ∀ events : List RouterEvent,
      stopRequests (events.flatMap run.sends) =
        (events.filterMap RouterEvent.stop?).flatMap fun stop =>
          stopRequests (run.place stop).1 := by
    intro events
    induction events with
    | nil => rfl
    | cons e later ih =>
        rw [List.flatMap_cons, stopRequests_append, ih]
        cases e <;> rfl
  rw [log, hevents, show run.call.state.events.filterMap RouterEvent.stop? =
    run.call.plannedStop.toList from run.call.state_stops]
  congr 1
  funext stop
  exact stopRequests_placeSlAfterFill _ _ _ _ _ _

/-- All orders of a call are on its side. -/
theorem orderSide_of_mem_log {run : EntryRun} {side : Option OrderSide} {p : Placement}
    (h : .order side p ∈ run.log) : side = run.call.orderSide := by
  rcases List.mem_flatMap.mp h with ⟨e, -, he⟩
  cases e with
  | placed amount limitPrice q =>
      rw [sends, List.mem_singleton] at he
      injection he
  | cancelled orderId => simp [sends] at he
  | stopRequested fillPrice amount => exact absurd he not_order_mem_placeSlAfterFill

/-- Callers read no id, whatever became of the stop. -/
theorem slOrderId_eq_nil (run : EntryRun) : run.slOrderId = [] := by
  unfold slOrderId
  cases run.call.state.stops.head? with
  | none => rfl
  | some stop =>
      rw [Option.bind_some, place, placeSlAfterFill_result]
      rfl

/-- The result of a call that returns does not depend on its stop. -/
theorem not_failureVisible {run : EntryRun} {result : Option OrderReply}
    (hreturns : run.call.state.outcome = .ok result) : ¬ run.FailureVisible := by
  rintro (hraised | ⟨answers, hdiffers⟩)
  · simp [EntryRun.result, hreturns, Except.map, Except.isOk, Except.toBool] at hraised
  · apply hdiffers
    unfold EntryRun.result
    rw [slOrderId_eq_nil, slOrderId_eq_nil]

end EntryRun

/-- A fill of an order that a call placed, and what reached the exchange before and after it. -/
structure Fill (log : List ExchangeStep) where
  before : List ExchangeStep
  after : List ExchangeStep
  moment : log = before ++ after
  side : OrderSide
  answer : Placement
  placed : .order (some side) answer ∈ before
  alive : answer.alive = true
  price : ℚ

/-- What the fill divides is the log. -/
theorem Fill.mem_log {log : List ExchangeStep} (f : Fill log) {step : ExchangeStep}
    (h : step ∈ f.before ∨ step ∈ f.after) : step ∈ log := by
  have hmem : step ∈ f.before ++ f.after := List.mem_append.mpr h
  rwa [← f.moment] at hmem

/-- The exchange took a stop for the fill. -/
def Fill.Protected {log : List ExchangeStep} (f : Fill log) : Prop :=
  ∃ step ∈ f.after, step.Protects f.side f.price

instance {log : List ExchangeStep} (f : Fill log) : Decidable f.Protected :=
  inferInstanceAs (Decidable (∃ step ∈ f.after, _))

/-- The call closed what was filled. -/
def Fill.ClosedAgain {log : List ExchangeStep} (f : Fill log) : Prop :=
  ∃ p : Placement, .order (some f.side.opposite) p ∈ f.after ∧ p.alive = true

namespace EntryRun

/-- A fill is protected or closed again, or the caller can tell that it is not. -/
def Guards (run : EntryRun) (f : Fill run.log) : Prop :=
  f.Protected ∨ f.ClosedAgain ∨ run.FailureVisible

/-- The answers lead to a stop on the losing side of the fill, and the exchange takes it after
the fill. -/
def StopReaches (run : EntryRun) (f : Fill run.log) : Prop :=
  ∃ stop, run.call.plannedStop = some stop ∧ run.terms.priceTick ≠ 0 ∧
    OnLosingSide f.side f.price
      (run.terms.sentPrice run.call.symbol run.call.stopSide stop.1 stop.2) ∧
    TakenAfter f.side run.call.stopSide run.stops (stopRequests f.before).length

/-- The exchange takes a stop for a fill exactly when the planned stop reaches it. -/
theorem protected_iff (run : EntryRun) (f : Fill run.log) : f.Protected ↔ run.StopReaches f := by
  unfold Fill.Protected StopReaches
  rw [exists_protects_append f.side f.price f.before f.after, ← f.moment, run.stopRequests_log]
  cases run.call.plannedStop with
  | none => simp
  | some stop =>
      simp only [Option.toList_some, List.flatMap_singleton, Option.some.injEq, exists_eq_left']
      by_cases htick : run.terms.priceTick = 0
      · simp [htick]
      · rw [if_neg htick, exists_protects_iff]
        simp [htick]

/-- No call closes what it filled. -/
theorem not_closedAgain (run : EntryRun) (f : Fill run.log) : ¬ f.ClosedAgain := by
  rintro ⟨p, hclose, -⟩
  have hentry := orderSide_of_mem_log (f.mem_log (.inl f.placed))
  have hopposite := orderSide_of_mem_log (f.mem_log (.inr hclose))
  have hside : f.side.opposite = f.side := Option.some.inj (hopposite.trans hentry.symm)
  cases hcase : f.side <;> simp [hcase, OrderSide.opposite] at hside

/-- A thin edge whose order is not reported filled at once leaves its fills without a stop: the
order is cancelled after ten seconds, and what it filled until then is abandoned. -/
theorem thinEdge_not_protected {run : EntryRun} {settings : RouterSettings} {r : FeeRequest}
    {priceTick : ℚ} {a : FeeAnswers} {order : OrderReply}
    (hcall : run.call = .feeAware settings r priceTick a) (hthin : r.thinEdge = true)
    (hreply : a.strict.reply = .ok order) (hopen : reportedFilled order = false)
    (f : Fill run.log) : ¬ f.Protected := by
  rw [protected_iff]
  rintro ⟨stop, hplanned, -⟩
  simp [hcall, EntryCall.plannedStop, feeStop, hthin, strictStop, hreply, hopen] at hplanned

/-- In a call that returns, a fill is guarded exactly when the answers lead to a stop on its
losing side that the exchange takes after it. -/
theorem fill_guarded_iff (run : EntryRun) {result : Option OrderReply}
    (hreturns : run.call.state.outcome = .ok result) (f : Fill run.log) :
    run.Guards f ↔ run.StopReaches f := by
  unfold Guards
  simp [protected_iff, not_closedAgain, not_failureVisible hreturns]

end EntryRun

/-! ## A refused stop -/

/-- A post-only order that is reported live ends an unsliced entry with its stop. -/
theorem execute_of_live {settings : RouterSettings} {r : EntryRequest} {a : EntryAnswers}
    {order : OrderReply} (hprice : ¬ r.price ≤ 0) (hsingle : r.sliced = false)
    (hskip : settings.skipToMarket = false) (hreply : a.postOnly.reply = .ok order)
    (hlive : reportedLive order = true) (hfill : (fillPrice order r.price).isSome = true) :
    execute settings r a =
      { order := some order
        price := r.price
        events := [.placed r.amount (some r.price) a.postOnly, .stopRequested r.price r.amount]
        outcome := .ok (some order) } := by
  rcases Option.isSome_iff_exists.mp hfill with ⟨fill, hfill⟩
  unfold execute
  simp [checkPrice, iceberg, latencyMode, postOnly, placeLimit, RouteState.start, RouteState.log,
    RouteState.leave, hprice, hsingle, hskip, hreply, hlive, hfill]

/-- The exchange took the request and answered it. -/
def takenStop : StopReply := ⟨true, true, fun _ => rfl⟩

/-- The exchange refused the request. -/
def refusedStop : StopReply := ⟨false, false, fun h => absurd h (by decide)⟩

/-- A small entry whose first order is reported live; its stop requests are all answered alike. -/
def sampleRun (reply : StopReply) : EntryRun where
  call := .execute ⟨2, false⟩ sampleEntry (some (1 / 100))
    (answersWith (restingOrder (some restingDetails)))
  tables := .empty
  maxLossUsd := 1
  stops := ⟨.ok [], reply, reply, reply⟩

/-- The state in which that entry returns. -/
theorem sampleRun_state (reply : StopReply) :
    (sampleRun reply).call.state =
      { order := some restingDetails.toReply
        price := 100
        events := [.placed 1 (some 100) (restingOrder (some restingDetails)),
          .stopRequested 100 1]
        outcome := .ok (some restingDetails.toReply) } :=
  execute_of_live (by decide +kernel) (by decide +kernel) rfl (by decide +kernel)
    (by decide +kernel) (by decide +kernel)

/-- Its order is filled before the first request for a stop. -/
def sampleFill (reply : StopReply) : Fill (sampleRun reply).log where
  before := [.order (some .buy) (restingOrder (some restingDetails))]
  after := ((sampleRun reply).place (100, 1)).1
  moment := by
    rw [EntryRun.log, sampleRun_state, List.flatMap_cons, List.flatMap_singleton]
    rfl
  side := .buy
  answer := restingOrder (some restingDetails)
  placed := List.mem_singleton_self _
  alive := rfl
  price := 100

/-- A stop that is taken guards the fill. -/
theorem sampleRun_guards : (sampleRun takenStop).Guards (sampleFill takenStop) := by
  apply (EntryRun.fill_guarded_iff (sampleRun takenStop) (congrArg RouteState.outcome
    (sampleRun_state takenStop)) (sampleFill takenStop)).mpr
  refine ⟨(100, 1), ?_, ?_, ?_, ?_⟩
  · decide +kernel
  · decide +kernel
  · decide +kernel
  · exact .inl ⟨rfl, rfl⟩

/-- Where the exchange refuses every request, the fill stays unprotected, and the entry is
returned like any other. -/
theorem refusedStop_not_guarded :
    ¬ ∀ (run : EntryRun) (result : Option OrderReply),
        run.call.state.outcome = .ok result → ∀ f : Fill run.log, run.Guards f := by
  intro hall
  have hreturns : (sampleRun refusedStop).call.state.outcome = .ok (some restingDetails.toReply) :=
    congrArg RouteState.outcome (sampleRun_state refusedStop)
  have hrefused : ¬ (sampleFill refusedStop).Protected := by decide +kernel
  rcases hall _ _ hreturns (sampleFill refusedStop) with hprotected | hclosed | hvisible
  · exact hrefused hprotected
  · exact EntryRun.not_closedAgain _ _ hclosed
  · exact EntryRun.not_failureVisible hreturns hvisible

end Router
end Karsa
