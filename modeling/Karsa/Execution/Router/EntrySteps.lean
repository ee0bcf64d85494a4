import Karsa.Execution.Router.Entry

/-!
# Smart order router - One step of an entry

What the steps of `execute` do, said once: which events they add, and whether they end the call.
No dictionary of the client has an id, so that nothing is ever cancelled on the way.

Main results:

- Theorem `placeLimit_spec`: a limit order ends the call as its verdict says.
- Theorem `marketFallback_events`: what the market step adds.
-/

namespace Karsa
namespace Router

open Bybit

/-! ## Verdicts -/

/-- Fill price and quantity behind which a stop is asked for. -/
abbrev StopRequest := ℚ × ℚ

/-- What an answered limit order means for the stop: it ends the call with or without one, or
the call goes on. -/
inductive LimitVerdict where
  | goOn
  | ended (stop : Option StopRequest)
deriving Repr, DecidableEq

/-- The stop of a call that goes on to `later`. -/
def LimitVerdict.orElse (v : LimitVerdict) (later : Option StopRequest) : Option StopRequest :=
  match v with
  | goOn => later
  | ended stop => stop

/-- A limit order that is reported live ends the call, with a stop if its fill price parses; an
unsigned agreement ends it without one. -/
def limitVerdict (r : EntryRequest) (p : Placement) (limitPrice : ℚ) : LimitVerdict :=
  match p.reply with
  | .ok order =>
      if reportedLive order then
        .ended ((fillPrice order limitPrice).map fun _ => (limitPrice, r.amount))
      else .goOn
  | .error message => if agreementRequired message then .ended none else .goOn

/-- The market order asks for a stop if its dictionary has an `orderId` and its fill price
parses. -/
def marketStop (r : EntryRequest) (a : EntryAnswers) : Option StopRequest :=
  if slippageAllows r a then
    match a.market.reply with
    | .ok order =>
        if order.orderId.isSome ∧ (fillPrice order r.price).isSome then
          some (r.price, r.amount)
        else none
    | .error _ => none
  else none

/-- In latency mode an answered order asks for a stop. -/
def directStop (r : EntryRequest) (a : EntryAnswers) : Option StopRequest :=
  match a.direct.reply with
  | .ok _ => some (r.price, r.amount)
  | .error _ => none

/-- The event that asks for a stop. -/
def stopEvents (stop : Option StopRequest) : List RouterEvent :=
  stop.toList.map fun request => .stopRequested request.1 request.2

/-! ## Steps -/

/-- A dictionary of the client cannot be cancelled. -/
theorem cancellableId_reply {p : Placement} {order : OrderReply} (h : p.reply = .ok order) :
    cancellableId (some order) = none := by
  simp [cancellableId, reply_id h]

/-- Without an id a step goes on at once. -/
theorem cancelPrevious_eq (a : EntryAnswers) (site : CancelSite) {s : RouteState}
    (h : cancellableId s.order = none) (failed : Text → Flow RouteState)
    (done : RouteState → Flow RouteState) : cancelPrevious a site s failed done = done s := by
  simp [cancelPrevious, h]

/-- A toxic pull leaves the call without cancelling anything. -/
theorem abortOnPull_eq (r : EntryRequest) (a : EntryAnswers) (attempt : Nat) {s : RouteState}
    (h : cancellableId s.order = none) :
    abortOnPull r a attempt s = if toxicPull r a attempt then s.leave none else .next s := by
  rw [abortOnPull, cancelPrevious_eq a _ h]

/-- A reprice sends its order without cancelling anything. -/
theorem repriceOnce_eq (r : EntryRequest) (a : EntryAnswers) (attempt : Nat) {s : RouteState}
    (h : cancellableId s.order = none) :
    repriceOnce r a attempt s = placeLimit r a (a.reprice attempt) s.price s := by
  rw [repriceOnce, cancelPrevious_eq a _ h]

/-- A failed order call adds no event. -/
theorem handleOrderError_events (a : EntryAnswers) (message : Text) (s : RouteState)
    {otherwise : Flow RouteState} (hother : otherwise.state.events = s.events) :
    (handleOrderError a message s otherwise).state.events = s.events := by
  unfold handleOrderError
  split_ifs
  · rfl
  · rfl
  · exact hother

/-- A limit order is placed.  It ends the call as its verdict says, or leaves an order variable
that is not live. -/
theorem placeLimit_spec (r : EntryRequest) (a : EntryAnswers) (p : Placement) (limitPrice : ℚ)
    {s : RouteState} (h : s.order.any reportedLive = false) :
    (placeLimit r a p limitPrice s).Ends
      (fun s' => limitVerdict r p limitPrice = .goOn ∧ s'.price = s.price ∧
        s'.events = s.events ++ [.placed r.amount (some limitPrice) p] ∧
        (s'.order = s.order ∨
          ∃ order, p.reply = .ok order ∧ reportedLive order = false ∧ s'.order = some order))
      (fun s' => ∃ stop, limitVerdict r p limitPrice = .ended stop ∧
        s'.events = s.events ++ .placed r.amount (some limitPrice) p :: stopEvents stop) := by
  unfold placeLimit limitVerdict
  dsimp only
  cases hreply : p.reply with
  | ok order =>
      dsimp only
      cases hlive : reportedLive order with
      | true =>
          cases fillPrice order limitPrice with
          | none => exact ⟨none, rfl, rfl⟩
          | some fill =>
              refine ⟨some (limitPrice, r.amount), rfl, ?_⟩
              exact List.append_assoc _ _ _
      | false => exact ⟨rfl, rfl, rfl, .inr ⟨order, rfl, hlive, rfl⟩⟩
  | error message =>
      dsimp only
      have hnotLive : (s.log (.placed r.amount (some limitPrice) p)).order.any reportedLive =
          false := h
      rw [hnotLive]
      unfold handleOrderError
      cases agreementRequired message with
      | true => cases a.blocklistWritten <;> exact ⟨none, rfl, rfl⟩
      | false => exact ⟨rfl, rfl, rfl, .inl rfl⟩

/-- Latency mode places one order and asks for its stop. -/
theorem latencyMode_ends {settings : RouterSettings} (r : EntryRequest) (a : EntryAnswers)
    (s : RouteState) (hskip : settings.skipToMarket = true) :
    (latencyMode settings r a s).Ends (fun _ => False)
      (fun s' => s'.events = s.events ++ .placed r.amount none a.direct ::
        stopEvents (directStop r a)) := by
  unfold latencyMode directStop
  rw [if_pos hskip]
  dsimp only
  cases a.direct.reply with
  | ok order => exact List.append_assoc _ _ _
  | error message => exact rfl

/-- The market step places its order and asks for its stop, if the slippage check passes. -/
theorem marketFallback_events (r : EntryRequest) (a : EntryAnswers) {s : RouteState}
    (h : cancellableId s.order = none) :
    (marketFallback r a s).state.events =
      s.events ++
        if slippageAllows r a then .placed r.amount none a.market :: stopEvents (marketStop r a)
        else [] := by
  unfold marketFallback marketStop
  cases slippageAllows r a with
  | false => exact (List.append_nil _).symm
  | true =>
      simp only [if_true, cancelPrevious_eq a _ h]
      unfold placeMarket
      cases a.market.reply with
      | ok order =>
          dsimp only
          split_ifs
          · exact List.append_assoc _ _ _
          · rfl
      | error message => exact handleOrderError_events a message _ rfl

end Router
end Karsa
