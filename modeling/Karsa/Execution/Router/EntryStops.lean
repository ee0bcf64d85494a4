import Karsa.Execution.Router.EntrySteps

/-!
# Smart order router - The stop that an entry asks for

`execute` asks for at most one stop, right before it returns.  Which stop that is follows from
the answers: the price is that of the limit order that was reported live, or the requested one,
and the quantity is the requested one, or what the slices acknowledged.

An answer can keep an order alive and still lead past the stop: a dictionary without a live
status, a fill price that does not parse, or a slice that raises after it was accepted.

Main results:

- Theorem `execute_stops`: one call asks for the planned stop and no other.
-/

namespace Karsa
namespace Router

open Bybit

/-! ## Stop requests among the events -/

/-- The stop that a router event asks for. -/
def RouterEvent.stop? : RouterEvent → Option StopRequest
  | .stopRequested fillPrice amount => some (fillPrice, amount)
  | .placed _ _ _ | .cancelled _ => none

/-- Stops asked for so far. -/
def RouteState.stops (s : RouteState) : List StopRequest :=
  s.events.filterMap RouterEvent.stop?

@[simp] theorem stops_start (r : EntryRequest) : (RouteState.start r).stops = [] := rfl

@[simp] theorem stops_log (s : RouteState) (e : RouterEvent) :
    (s.log e).stops = s.stops ++ e.stop?.toList := by
  cases hstop : e.stop? <;> simp [RouteState.stops, RouteState.log, hstop]

/-- A call that is left does nothing more. -/
@[simp] theorem leave_andThen (s : RouteState) (result : Option OrderReply)
    (block : RouteState → Flow RouteState) : (s.leave result).andThen block = s.leave result := rfl

@[simp] theorem stops_leave (s : RouteState) (result : Option OrderReply) :
    (s.leave result).state.stops = s.stops := rfl

/-- The call asked for the given stop and no other. -/
def AskedFor (stop : Option StopRequest) (s : RouteState) : Prop :=
  s.stops = stop.toList

@[simp] theorem askedFor_none (s : RouteState) : AskedFor none s ↔ s.stops = [] := Iff.rfl

@[simp] theorem askedFor_some (stop : StopRequest) (s : RouteState) :
    AskedFor (some stop) s ↔ s.stops = [stop] := Iff.rfl

@[simp] theorem stop?_placed (amount : ℚ) (limitPrice : Option ℚ) (p : Placement) :
    (RouterEvent.placed amount limitPrice p).stop? = none := rfl

@[simp] theorem stop?_cancelled (id : Text) : (RouterEvent.cancelled id).stop? = none := rfl

@[simp] theorem stop?_stopRequested (fillPrice amount : ℚ) :
    (RouterEvent.stopRequested fillPrice amount).stop? = some (fillPrice, amount) := rfl

/-! ## The planned stop -/

/-- The stop from reprice attempt `attempt` on. -/
def repriceStop (r : EntryRequest) (a : EntryAnswers) :
    (left attempt : Nat) → (price : ℚ) → Option StopRequest
  | 0, _, _ => marketStop r a
  | left + 1, attempt, price =>
      if toxicPull r a attempt then none
      else if priceExhausted r (nextPrice r price) then marketStop r a
      else
        (limitVerdict r (a.reprice attempt) (nextPrice r price)).orElse
          (repriceStop r a left (attempt + 1) (nextPrice r price))

/-- Quantity acknowledged by the slices that are sent, with the last dictionary. -/
def sliceTally (r : EntryRequest) (a : EntryAnswers) :
    List Nat → Option OrderReply → ℚ → Option OrderReply × ℚ
  | [], last, filled => (last, filled)
  | i :: rest, last, filled =>
      let current := if i < 3 then chunkAmount r else r.amount - chunkAmount r * 3
      if current ≤ 0 then sliceTally r a rest last filled
      else
        match (a.slice i).reply with
        | .ok order =>
            sliceTally r a rest (some order)
              (if nonEmpty (some order) then filled + current else filled)
        | .error _ =>
            if 0 < filled ∧ nonEmpty last then (last, filled) else sliceTally r a rest last filled

/-- The slices ask for a stop if the last dictionary is not empty and something was
acknowledged. -/
def sliceStop (r : EntryRequest) (a : EntryAnswers) : Option StopRequest :=
  let (last, filled) := sliceTally r a (List.range 4) none 0
  if nonEmpty last ∧ 0 < filled then some (r.price, filled) else none

/-- The stop that one call asks for. -/
def entryStop (settings : RouterSettings) (r : EntryRequest) (a : EntryAnswers) :
    Option StopRequest :=
  if r.price ≤ 0 then none
  else if r.sliced then sliceStop r a
  else if settings.skipToMarket then directStop r a
  else
    (limitVerdict r a.postOnly r.price).orElse
      (repriceStop r a (maxReprices settings r a) 0 r.price)

/-! ## One step -/

/-- Invariant between two steps of an unsliced call: no stop yet, and the variable `order` holds
no id and no live status. -/
structure Idle (s : RouteState) : Prop where
  stops : s.stops = []
  uncancellable : cancellableId s.order = none
  notLive : s.order.any reportedLive = false

/-- A new call has asked for nothing. -/
theorem idle_start (r : EntryRequest) : Idle (RouteState.start r) :=
  ⟨rfl, rfl, rfl⟩

/-- Only the variable `order` and the stops matter. -/
theorem Idle.of_eq {s s' : RouteState} (h : Idle s) (hstops : s'.stops = s.stops)
    (horder : s'.order = s.order) : Idle s' :=
  ⟨hstops.trans h.stops, by rw [horder]; exact h.uncancellable, by rw [horder]; exact h.notLive⟩

/-- One more order asks for the stop behind it. -/
theorem stops_append_order {s s' : RouteState} {amount : ℚ} {limitPrice : Option ℚ}
    {p : Placement} {stop : Option StopRequest}
    (h : s'.events = s.events ++ .placed amount limitPrice p :: stopEvents stop) :
    s'.stops = s.stops ++ stop.toList := by
  rw [RouteState.stops, h, List.filterMap_append]
  cases stop <;> rfl

/-- A limit order asks for the stop of its verdict. -/
theorem placeLimit_stops (r : EntryRequest) (a : EntryAnswers) {s : RouteState} (h : Idle s)
    (p : Placement) (limitPrice : ℚ) :
    (placeLimit r a p limitPrice s).Ends
      (fun s' => limitVerdict r p limitPrice = .goOn ∧ s'.price = s.price ∧ Idle s')
      (fun s' => ∃ stop, limitVerdict r p limitPrice = .ended stop ∧ AskedFor stop s') := by
  apply (placeLimit_spec r a p limitPrice h.notLive).mono
  · rintro s' ⟨hverdict, hprice, hevents, horder⟩
    have hstops : s'.stops = s.stops := by
      simpa using @stops_append_order s s' r.amount (some limitPrice) p none hevents
    refine ⟨hverdict, hprice, ?_⟩
    rcases horder with hsame | ⟨order, hreply, hdead, hnew⟩
    · exact h.of_eq hstops hsame
    · refine ⟨hstops.trans h.stops, ?_, ?_⟩
      · rw [hnew, cancellableId_reply hreply]
      · simpa [hnew] using hdead
  · rintro s' ⟨stop, hverdict, hevents⟩
    refine ⟨stop, hverdict, ?_⟩
    rw [AskedFor, stops_append_order hevents, h.stops, List.nil_append]

/-- The market step asks for its stop. -/
theorem marketFallback_stops (r : EntryRequest) (a : EntryAnswers) {s : RouteState} (h : Idle s) :
    AskedFor (marketStop r a) (marketFallback r a s).state := by
  have hevents := marketFallback_events r a h.uncancellable
  cases hslippage : slippageAllows r a with
  | false =>
      rw [hslippage, if_neg Bool.false_ne_true, List.append_nil] at hevents
      rw [AskedFor, RouteState.stops, hevents, show s.events.filterMap RouterEvent.stop? = [] from
        h.stops]
      simp [marketStop, hslippage]
  | true =>
      rw [hslippage] at hevents
      rw [AskedFor, stops_append_order hevents, h.stops, List.nil_append]

/-! ## A whole call -/

/-- From a reprice attempt on, the call asks for the planned stop. -/
theorem repriceLoop_stops (r : EntryRequest) (a : EntryAnswers) (left attempt : Nat)
    {s : RouteState} (h : Idle s) :
    AskedFor (repriceStop r a left attempt s.price)
      ((repriceLoop r a left attempt s).andThen (marketFallback r a)).state := by
  induction left generalizing attempt s with
  | zero => exact marketFallback_stops r a h
  | succ left ih =>
      rw [repriceLoop, repriceStop, abortOnPull_eq r a attempt h.uncancellable]
      cases toxicPull r a attempt with
      | true => exact h.stops
      | false =>
          have hmoved : Idle { s with price := nextPrice r s.price } := h.of_eq rfl rfl
          cases hexhausted : priceExhausted r (nextPrice r s.price) with
          | true => simpa [hexhausted] using marketFallback_stops r a hmoved
          | false =>
              have hsent := placeLimit_stops r a hmoved (a.reprice attempt) (nextPrice r s.price)
              simp only [Bool.false_eq_true, if_false, Flow.next_andThen, hexhausted,
                repriceOnce_eq r a attempt hmoved.uncancellable, Flow.andThen_assoc]
              apply hsent.andThen_state
              · rintro s' ⟨hverdict, hprice, hidle⟩
                have hrest := ih (attempt + 1) hidle
                rw [hprice] at hrest
                rwa [hverdict, LimitVerdict.orElse]
              · rintro s' ⟨stop, hverdict, hstops⟩
                rwa [hverdict, LimitVerdict.orElse]

/-- The slices keep their tally in the variable `order` and ask for nothing. -/
theorem icebergLoop_tally (r : EntryRequest) (a : EntryAnswers) (list : List Nat)
    (s : RouteState) (filled : ℚ) :
    ((icebergLoop r a list s filled).1.order, (icebergLoop r a list s filled).2) =
        sliceTally r a list s.order filled ∧
      (icebergLoop r a list s filled).1.stops = s.stops := by
  induction list generalizing s filled with
  | nil => exact ⟨rfl, rfl⟩
  | cons i rest ih =>
      simp only [icebergLoop, sliceTally]
      generalize (if i < 3 then chunkAmount r else r.amount - chunkAmount r * 3) = current
      by_cases hsize : current ≤ 0
      · simp only [if_pos hsize]
        exact ih s filled
      · simp only [if_neg hsize]
        have hlogged : (s.log (.placed current none (a.slice i))).stops = s.stops := by simp
        cases (a.slice i).reply with
        | ok order =>
            have hrest := ih { s.log (.placed current none (a.slice i)) with order := some order }
              (if nonEmpty (some order) then filled + current else filled)
            exact ⟨hrest.1, hrest.2.trans hlogged⟩
        | error message =>
            have horder : (s.log (.placed current none (a.slice i))).order = s.order := rfl
            simp only [horder]
            by_cases hstop : 0 < filled ∧ nonEmpty s.order = true
            · simp only [if_pos hstop]
              exact ⟨rfl, hlogged⟩
            · simp only [if_neg hstop]
              have hrest := ih (s.log (.placed current none (a.slice i))) filled
              exact ⟨hrest.1, hrest.2.trans hlogged⟩

/-- Sliced entries ask for the stop of their tally. -/
theorem iceberg_stops {r : EntryRequest} (a : EntryAnswers) (hsliced : r.sliced = true)
    (later : RouteState → Flow RouteState) :
    AskedFor (sliceStop r a) ((iceberg r a (RouteState.start r)).andThen later).state := by
  have htally := icebergLoop_tally r a (List.range 4) (RouteState.start r) 0
  have hstart : (RouteState.start r).order = none := rfl
  rw [hstart] at htally
  unfold iceberg sliceStop
  simp only [hsliced, if_true, ← htally.1]
  generalize icebergLoop r a (List.range 4) (RouteState.start r) 0 = result at htally
  rcases result with ⟨s, filled⟩
  have hstops : s.stops = [] := htally.2
  dsimp only
  cases s.order with
  | none => simpa [nonEmpty] using hstops
  | some last =>
      dsimp only
      split_ifs
      · simp [hstops]
      · exact hstops

/-- One call asks for the planned stop and no other. -/
theorem execute_stops (settings : RouterSettings) (r : EntryRequest) (a : EntryAnswers) :
    AskedFor (entryStop settings r a) (execute settings r a) := by
  unfold execute entryStop
  by_cases hprice : r.price ≤ 0
  · simp [checkPrice, hprice]
  · rw [Flow.blocks_cons, checkPrice, if_neg hprice, if_neg hprice, Flow.next_andThen,
      Flow.blocks_cons]
    cases hsliced : r.sliced with
    | true => exact iceberg_stops a hsliced _
    | false =>
        rw [iceberg, hsliced]
        simp only [Bool.false_eq_true, if_false, Flow.next_andThen, Flow.blocks_cons]
        cases hskip : settings.skipToMarket with
        | true =>
            apply (latencyMode_ends r a (RouteState.start r) hskip).andThen_state
            · exact fun _ => False.elim
            · exact fun s hevents => stops_append_order hevents
        | false =>
            rw [latencyMode, hskip]
            simp only [Bool.false_eq_true, if_false, Flow.next_andThen]
            rw [Flow.blocks_cons]
            apply (placeLimit_stops r a (idle_start r) a.postOnly r.price).andThen_state
            · rintro s ⟨hverdict, hstay, hidle⟩
              have hrest := repriceLoop_stops r a (maxReprices settings r a) 0 hidle
              rw [show s.price = r.price from hstay] at hrest
              rw [hverdict, LimitVerdict.orElse]
              simpa using hrest
            · rintro s ⟨stop, hverdict, hstops⟩
              rwa [hverdict, LimitVerdict.orElse]

end Router
end Karsa
