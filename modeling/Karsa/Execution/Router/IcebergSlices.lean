import Karsa.Execution.Router.Entry
import Mathlib.Algebra.BigOperators.Group.List.Basic
import Mathlib.Algebra.Order.BigOperators.Group.List
import Mathlib.Tactic.Linarith
import Mathlib.Tactic.NormNum
import Mathlib.Tactic.Ring

/-!
# Smart order router - What the slices of an entry add up to

A large entry is cut into three slices of a quarter, rounded to thousandths, and a remainder.
The client rounds each of them on its own.  The router adds up what it asked for, not what was
sent, and stops at a slice that fails behind one that did not.

Main results:

- Theorem `icebergLoop_accepted`: the slices that the exchange accepts.
- Theorem `execute_sliced`: the final state of a sliced entry.
- Theorem `conserves_iff`: when slicing conserves the order, whichever slices fail.
-/

namespace Karsa
namespace Router

open Bybit

/-! ## Sliced entries -/

/-- The quantity that an event brings to the exchange: every order it keeps alive counts. -/
def RouterEvent.sentQty (t : InstrumentTables) (symbol : Text) : RouterEvent → ℚ
  | placed amount _ p => p.liveOrders.length * t.roundQty symbol amount
  | cancelled _ | stopRequested _ _ => 0

/-- An entry that is sliced, with the tables of the client. -/
structure SlicedEntry where
  settings : RouterSettings
  tables : InstrumentTables
  request : EntryRequest
  price_pos : 0 < request.price
  sliced : request.sliced = true

/-- Answers to an entry: a slice fails and does not reach the exchange, or it is accepted once
and acknowledged. -/
structure SliceAnswers where
  fails : Nat → Bool
  answers : EntryAnswers
  live_slice : ∀ i, (answers.slice i).liveOrders.length = if fails i then 0 else 1
  sent_slice : ∀ i,
    if fails i then ∃ message, (answers.slice i).sent = .error message
    else ∃ ack : OrderAck, (answers.slice i).sent = .ok ack ∧ ack.orderId.isSome

namespace SlicedEntry

variable (e : SlicedEntry)

/-- The first three slices. -/
def chunk : ℚ :=
  chunkAmount e.request

/-- The fourth slice, which may be zero or negative. -/
def remainder : ℚ :=
  e.request.amount - e.chunk * 3

/-- The quantity that the client makes of an amount. -/
def rounded (amount : ℚ) : ℚ :=
  e.tables.roundQty e.request.symbol amount

/-- The final state of the call. -/
def final (a : SliceAnswers) : RouteState :=
  execute e.settings e.request a.answers

/-- The quantity that the events of a state bring to the exchange. -/
def eventsQty (s : RouteState) : ℚ :=
  (s.events.map (RouterEvent.sentQty e.tables e.request.symbol)).sum

/-- The quantity that reaches the exchange. -/
def sentQty (a : SliceAnswers) : ℚ :=
  e.eventsQty (e.final a)

/-- The exchange gets at most what one order would send, all of it where no slice fails, and the
amount of the result and of the stop is what it got. -/
structure Conserves (a : SliceAnswers) : Prop where
  sent_le : e.sentQty a ≤ e.rounded e.request.amount
  sent_all : (∀ i < 4, a.fails i = false) → e.sentQty a = e.rounded e.request.amount
  reported : ∀ order, (e.final a).outcome = .ok (some order) →
    order.amount = some (.value (e.sentQty a))
  stopped : ∀ price amount, .stopRequested price amount ∈ (e.final a).events →
    amount = e.sentQty a

/-- What the slices ask for in all. -/
def asked : ℚ :=
  if 0 < e.remainder then e.request.amount else e.chunk * 3

/-- Each slice is sent as it is, and one order would send what the slices ask for. -/
structure Exact : Prop where
  chunk : e.rounded e.chunk = e.chunk
  remainder : 0 < e.remainder → e.rounded e.remainder = e.remainder
  whole : e.rounded e.request.amount = e.asked

/-! ## Accepted slices -/

/-- The size of a slice. -/
def size (i : Nat) : ℚ :=
  if i < 3 then e.chunk else e.remainder

/-- The accepted slices among the given ones; `any` tells whether one was accepted before. -/
def accepted (fails : Nat → Bool) : List Nat → (any : Bool) → List ℚ
  | [], _ => []
  | i :: rest, any =>
      if e.size i ≤ 0 then accepted fails rest any
      else if fails i then if any then [] else accepted fails rest any
      else e.size i :: accepted fails rest true

/-- The slices that are large enough to be sent. -/
def slices : List ℚ :=
  ((List.range 4).map e.size).filter fun x => decide (0 < x)

/-- What the variables of the loop show of the slices accepted so far. -/
def Tally (s : RouteState) (filled : ℚ) (any : Bool) : Prop :=
  if any then 0 < filled ∧ nonEmpty s.order = true else filled = 0 ∧ s.order = none

/-- What accepted slices add to a state and to the quantity counted: the loop sends them, counts
what they ask for, and requests no stop. -/
structure Adds (s : RouteState) (filled : ℚ) (any : Bool) (slices : List ℚ)
    (result : RouteState × ℚ) : Prop where
  filled : result.2 = filled + slices.sum
  sent : e.eventsQty result.1 = e.eventsQty s + (slices.map e.rounded).sum
  stops : ∀ price amount,
    .stopRequested price amount ∈ result.1.events → .stopRequested price amount ∈ s.events
  tally : Tally result.1 result.2 (any || !slices.isEmpty)

variable {e}

/-- A slice that fails raises. -/
theorem reply_fails {a : SliceAnswers} {i : Nat} (h : a.fails i = true) :
    (∃ message, (a.answers.slice i).reply = .error message) ∧
      (a.answers.slice i).liveOrders.length = 0 := by
  have hsent := a.sent_slice i
  rw [if_pos h] at hsent
  rcases hsent with ⟨message, hsent⟩
  refine ⟨⟨message, by rw [Placement.reply, hsent]; rfl⟩, ?_⟩
  rw [a.live_slice, if_pos h]

/-- A slice that is accepted returns a dictionary. -/
theorem reply_accepted {a : SliceAnswers} {i : Nat} (h : a.fails i = false) :
    (∃ order, (a.answers.slice i).reply = .ok order ∧ nonEmpty (some order) = true) ∧
      (a.answers.slice i).liveOrders.length = 1 := by
  have haccepted : ¬ a.fails i = true := by
    rw [h]
    exact Bool.false_ne_true
  have hsent := a.sent_slice i
  rw [if_neg haccepted] at hsent
  rcases hsent with ⟨ack, hsent, hid⟩
  rcases Option.isSome_iff_exists.mp hid with ⟨id, hack⟩
  refine ⟨⟨orderReply ack (a.answers.slice i).lookups, by rw [Placement.reply, hsent]; rfl, ?_⟩, ?_⟩
  · unfold nonEmpty orderReply fetchPlacedOrderDetails
    rw [hack]
    cases id with
    | nil => simp [OrderAck.toReply, hack]
    | cons first rest =>
        cases (List.range 3).findSome? fun n => ((a.answers.slice i).lookups n).found with
        | none => simp [OrderAck.toReply, hack]
        | some details => simp [OrderDetails.toReply]
  · rw [a.live_slice, if_neg haccepted]

/-- One more order is no request for a stop. -/
theorem stops_placed {s : RouteState} {size : ℚ} {p : Placement} {price amount : ℚ}
    (h : .stopRequested price amount ∈ (s.log (.placed size none p)).events) :
    .stopRequested price amount ∈ s.events := by
  rcases List.mem_append.mp h with h | h
  · exact h
  · simp at h

/-- Nothing is added without a slice. -/
theorem Adds.nil {s : RouteState} {filled : ℚ} {any : Bool} (h : Tally s filled any) :
    Adds e s filled any [] (s, filled) :=
  ⟨by simp, by simp, fun _ _ hmem => hmem, by simpa using h⟩

/-- An order that fails adds nothing. -/
theorem Adds.failed {s : RouteState} {filled size : ℚ} {any : Bool} {slices : List ℚ}
    {p : Placement} {result : RouteState × ℚ} (hdead : p.liveOrders.length = 0)
    (h : Adds e (s.log (.placed size none p)) filled any slices result) :
    Adds e s filled any slices result := by
  have hsent : e.eventsQty (s.log (.placed size none p)) = e.eventsQty s := by
    simp [eventsQty, RouteState.log, RouterEvent.sentQty, hdead]
  exact ⟨h.filled, h.sent.trans (by rw [hsent]), fun price amount hmem =>
    stops_placed (h.stops price amount hmem), h.tally⟩

/-- An order that is accepted adds its slice. -/
theorem Adds.accepted {s : RouteState} {filled size : ℚ} {any : Bool} {slices : List ℚ}
    {p : Placement} {order : OrderReply} {result : RouteState × ℚ}
    (halive : p.liveOrders.length = 1)
    (h : Adds e { s.log (.placed size none p) with order := some order } (filled + size) true
      slices result) :
    Adds e s filled any (size :: slices) result := by
  have hsent : e.eventsQty { s.log (.placed size none p) with order := some order } =
      e.eventsQty s + e.rounded size := by
    simp [eventsQty, RouteState.log, RouterEvent.sentQty, halive, rounded]
  refine ⟨?_, ?_, fun price amount hmem => stops_placed (h.stops price amount hmem), ?_⟩
  · rw [h.filled, List.sum_cons, add_assoc]
  · rw [h.sent, hsent, List.map_cons, List.sum_cons, add_assoc]
  · have htally := h.tally
    rw [Bool.true_or] at htally
    rw [List.isEmpty_cons, Bool.not_false, Bool.or_true]
    exact htally

/-- The loop adds the accepted slices. -/
theorem icebergLoop_accepted (a : SliceAnswers) (list : List Nat) {s : RouteState} {filled : ℚ}
    {any : Bool} (htally : Tally s filled any) :
    Adds e s filled any (e.accepted a.fails list any)
      (icebergLoop e.request a.answers list s filled) := by
  induction list generalizing s filled any with
  | nil => exact .nil htally
  | cons i rest ih =>
      have hsize : (if i < 3 then chunkAmount e.request
          else e.request.amount - chunkAmount e.request * 3) = e.size i := rfl
      have horder : (s.log (.placed (e.size i) none (a.answers.slice i))).order = s.order := rfl
      rw [icebergLoop, accepted]
      dsimp only
      rw [hsize, horder]
      by_cases hempty : e.size i ≤ 0
      · rw [if_pos hempty, if_pos hempty]
        exact ih htally
      · rw [if_neg hempty, if_neg hempty]
        cases hfails : a.fails i with
        | true =>
            rcases reply_fails hfails with ⟨⟨message, hreply⟩, hdead⟩
            rw [hreply, if_pos rfl]
            dsimp only
            cases any with
            | true =>
                have hbreak : 0 < filled ∧ nonEmpty s.order = true := htally
                rw [if_pos hbreak, if_pos rfl]
                exact .failed hdead (.nil htally)
            | false =>
                have hnone : filled = 0 ∧ s.order = none := htally
                have hon : ¬ (0 < filled ∧ nonEmpty s.order = true) := fun h => h.1.ne' hnone.1
                rw [if_neg hon, if_neg Bool.false_ne_true]
                exact .failed hdead (ih hnone)
        | false =>
            rcases reply_accepted hfails with ⟨⟨order, hreply, hsome⟩, halive⟩
            have hfilled : 0 ≤ filled := by
              cases any with
              | true => exact (show 0 < filled ∧ nonEmpty s.order = true from htally).1.le
              | false => exact (show filled = 0 ∧ s.order = none from htally).1.ge
            have hpos : 0 < filled + e.size i := by linarith [not_le.mp hempty]
            rw [hreply, if_neg Bool.false_ne_true]
            dsimp only
            rw [if_pos hsome]
            exact .accepted halive (ih ⟨hpos, hsome⟩)

/-! ## The whole call -/

/-- A sliced entry returns behind its slices: with nothing if none was accepted, and else with
what they asked for, for which it requests a stop. -/
theorem execute_sliced (e : SlicedEntry) (a : SliceAnswers) :
    e.sentQty a = ((e.accepted a.fails (List.range 4) false).map e.rounded).sum ∧
      (∀ order, (e.final a).outcome = .ok (some order) →
        order.amount = some (.value (e.accepted a.fails (List.range 4) false).sum)) ∧
      (∀ price amount, .stopRequested price amount ∈ (e.final a).events →
        amount = (e.accepted a.fails (List.range 4) false).sum) ∧
      (e.accepted a.fails (List.range 4) false ≠ [] →
        ∃ order, (e.final a).outcome = .ok (some order)) := by
  have hstart : Tally (RouteState.start e.request) 0 false := ⟨rfl, rfl⟩
  have hadds := icebergLoop_accepted (e := e) a (List.range 4) hstart
  generalize e.accepted a.fails (List.range 4) false = slices at hadds
  have hfinal : e.final a = ((iceberg e.request a.answers (RouteState.start e.request)).andThen
      fun s => (latencyMode e.settings e.request a.answers s).andThen fun s =>
        (postOnly e.request a.answers s).andThen fun s =>
          (repriceLoop e.request a.answers (maxReprices e.settings e.request a.answers) 0 s).andThen
            fun s => (marketFallback e.request a.answers s).andThen (Flow.blocks [])).state := by
    have hprice : checkPrice e.request (RouteState.start e.request) =
        .next (RouteState.start e.request) := if_neg e.price_pos.not_ge
    rw [final, execute, Flow.blocks_cons, hprice]
    rfl
  rw [iceberg, if_pos e.sliced] at hfinal
  generalize icebergLoop e.request a.answers (List.range 4) (RouteState.start e.request) 0 =
    result at hadds hfinal
  rcases result with ⟨s, filled⟩
  dsimp only at hfinal
  have hfilled : filled = slices.sum := hadds.filled.trans (zero_add _)
  have hsent : e.eventsQty s = (slices.map e.rounded).sum := by
    rw [hadds.sent]
    exact zero_add _
  have hnostop : ∀ price amount, .stopRequested price amount ∉ s.events := fun price amount h =>
    List.not_mem_nil (hadds.stops price amount h)
  have htally := hadds.tally
  cases slices with
  | nil =>
      have hnone : s.order = none := (show filled = 0 ∧ s.order = none from htally).2
      rw [hnone] at hfinal
      dsimp only at hfinal
      rw [RouteState.leave, Flow.ret_andThen, Flow.state_ret] at hfinal
      rw [sentQty, hfinal]
      refine ⟨hsent, fun order h => ?_, fun price amount h => absurd h (hnostop price amount), ?_⟩
      · simp at h
      · exact fun h => absurd rfl h
  | cons first rest =>
      have hsome : 0 < filled ∧ nonEmpty s.order = true := htally
      cases horder : s.order with
      | none =>
          rw [horder] at hsome
          exact absurd hsome.2 (by decide)
      | some last =>
          rw [horder] at hfinal hsome
          dsimp only at hfinal
          rw [if_pos ⟨hsome.2, hsome.1⟩, RouteState.leave, Flow.ret_andThen, Flow.state_ret]
            at hfinal
          rw [sentQty, hfinal]
          refine ⟨?_, fun order h => ?_, fun price amount h => ?_, fun _ => ⟨_, rfl⟩⟩
          · rw [← hsent]
            simp [eventsQty, RouteState.log, RouterEvent.sentQty]
          · rw [← hfilled]
            rw [Except.ok.injEq, Option.some.injEq] at h
            rw [← h]
          · rcases List.mem_append.mp h with h | h
            · exact absurd h (hnostop price amount)
            · rw [List.mem_singleton, RouterEvent.stopRequested.injEq] at h
              exact h.2.trans hfilled

/-- What a run has to show: the accepted slices are at most the rounded amount, all of it where
no slice fails, and none of them is rounded. -/
theorem conserves_run_iff (e : SlicedEntry) (a : SliceAnswers) :
    e.Conserves a ↔
      ((e.accepted a.fails (List.range 4) false).map e.rounded).sum ≤
          e.rounded e.request.amount ∧
        ((∀ i < 4, a.fails i = false) →
          ((e.accepted a.fails (List.range 4) false).map e.rounded).sum =
            e.rounded e.request.amount) ∧
        (e.accepted a.fails (List.range 4) false).sum =
          ((e.accepted a.fails (List.range 4) false).map e.rounded).sum := by
  rcases execute_sliced e a with ⟨hsent, hreported, hstopped, hreturned⟩
  constructor
  · intro h
    refine ⟨hsent ▸ h.sent_le, fun hall => hsent ▸ h.sent_all hall, ?_⟩
    by_cases hnone : e.accepted a.fails (List.range 4) false = []
    · rw [hnone]
      rfl
    · rcases hreturned hnone with ⟨order, horder⟩
      have hsame := (hreported order horder).symm.trans (h.reported order horder)
      rw [Option.some.injEq, Numeral.value.injEq] at hsame
      exact hsame.trans hsent
  · rintro ⟨hle, hall, hsum⟩
    refine ⟨hsent ▸ hle, fun hnone => hsent ▸ hall hnone, fun order horder => ?_,
      fun price amount hmem => ?_⟩
    · rw [hreported order horder, hsum, hsent]
    · rw [hstopped price amount hmem, hsum, hsent]

/-! ## Slices that fail -/

theorem chunk_pos (e : SlicedEntry) : 0 < e.chunk :=
  (of_decide_eq_true e.sliced).2

/-- Accepted slices are some of the slices. -/
theorem accepted_sublist (e : SlicedEntry) (fails : Nat → Bool) (list : List Nat) (any : Bool) :
    (e.accepted fails list any).Sublist ((list.map e.size).filter fun x => decide (0 < x)) := by
  induction list generalizing any with
  | nil => exact List.Sublist.refl _
  | cons i rest ih =>
      rw [accepted, List.map_cons]
      by_cases hempty : e.size i ≤ 0
      · rw [if_pos hempty, List.filter_cons_of_neg (by simpa using hempty)]
        exact ih any
      · rw [if_neg hempty, List.filter_cons_of_pos (by simpa using hempty)]
        split_ifs
        · exact List.nil_sublist _
        · exact (ih any).cons _
        · exact (ih true).cons_cons _

/-- If none fails, all of them are accepted. -/
theorem accepted_all (e : SlicedEntry) {fails : Nat → Bool} {list : List Nat} (any : Bool)
    (hnone : ∀ i ∈ list, fails i = false) :
    e.accepted fails list any = (list.map e.size).filter fun x => decide (0 < x) := by
  induction list generalizing any with
  | nil => rfl
  | cons i rest ih =>
      have hrest := fun any => ih any (fun j hj => hnone j (List.mem_cons_of_mem _ hj))
      rw [accepted, List.map_cons, hnone i List.mem_cons_self, if_neg Bool.false_ne_true]
      by_cases hempty : e.size i ≤ 0
      · rw [if_pos hempty, List.filter_cons_of_neg (by simpa using hempty), hrest]
      · rw [if_neg hempty, List.filter_cons_of_pos (by simpa using hempty), hrest]

/-- The slices are three chunks and, if it is positive, the remainder. -/
theorem slices_eq (e : SlicedEntry) :
    e.slices = [e.chunk, e.chunk, e.chunk] ++ if 0 < e.remainder then [e.remainder] else [] := by
  have hchunk := e.chunk_pos
  have hsizes : (List.range 4).map e.size = [e.chunk, e.chunk, e.chunk, e.remainder] := rfl
  rw [slices, hsizes]
  split_ifs with hremainder <;> simp [hchunk, hremainder]

/-- Together they ask for the amount, or for three chunks. -/
theorem sum_slices (e : SlicedEntry) : e.slices.sum = e.asked := by
  rw [slices_eq, asked]
  split_ifs
  · simp [remainder]
    ring
  · simp
    ring

/-- Answers in which the given slices fail. -/
def answersOf (fails : Nat → Bool) : SliceAnswers where
  fails := fails
  answers :=
    { slice := fun i =>
        if fails i then .failed else .answered "order-1".toList true fun _ => .ok none
      direct := .failed
      postOnly := .failed
      reprice := fun _ => .failed
      market := .failed
      tickersBefore := none
      tickersAfter := none
      orderbookDelta := fun _ => none
      cancel := fun _ => .error []
      blocklistWritten := false }
  live_slice := fun i => by
    dsimp only
    cases fails i <;> rfl
  sent_slice := fun i => by
    dsimp only
    cases fails i with
    | true => exact ⟨_, rfl⟩
    | false => exact ⟨⟨some "order-1".toList⟩, rfl, rfl⟩

/-- If only the second slice fails, the first one is accepted. -/
theorem accepted_first (e : SlicedEntry) :
    e.accepted (fun i => i == 1) (List.range 4) false = [e.chunk] := by
  have hchunk := e.chunk_pos.not_ge
  have hsize : ∀ i < 3, e.size i = e.chunk := fun i hi => if_pos hi
  simp [List.range, List.range.loop, accepted, hsize, hchunk]

/-- If the first three fail, the remainder is. -/
theorem accepted_last (e : SlicedEntry) (hremainder : 0 < e.remainder) :
    e.accepted (fun i => decide (i < 3)) (List.range 4) false = [e.remainder] := by
  have hchunk := e.chunk_pos.not_ge
  have hsize : ∀ i < 3, e.size i = e.chunk := fun i hi => if_pos hi
  have hlast : e.size 3 = e.remainder := rfl
  simp [List.range, List.range.loop, accepted, hsize, hlast, hchunk, hremainder.not_ge]

/-- Slicing conserves the order, whichever slices fail, exactly if every slice is sent as it is
and one order would send what they ask for. -/
theorem conserves_iff (e : SlicedEntry) : (∀ a, e.Conserves a) ↔ e.Exact := by
  constructor
  · intro h
    have hruns := fun fails => (e.conserves_run_iff (answersOf fails)).mp (h (answersOf fails))
    refine ⟨?_, fun hremainder => ?_, ?_⟩
    · have hfirst := (hruns fun i => i == 1).2.2
      rw [show (answersOf fun i => i == 1).fails = fun i => i == 1 from rfl, accepted_first]
        at hfirst
      simpa using hfirst.symm
    · have hlast := (hruns fun i => decide (i < 3)).2.2
      rw [show (answersOf fun i => decide (i < 3)).fails = fun i => decide (i < 3) from rfl,
        accepted_last e hremainder] at hlast
      simpa using hlast.symm
    · have hall := hruns fun _ => false
      have haccepted : e.accepted (answersOf fun _ => false).fails (List.range 4) false =
          e.slices := e.accepted_all false (fun _ _ => rfl)
      rw [haccepted] at hall
      rw [← hall.2.1 (fun _ _ => rfl), ← hall.2.2, sum_slices]
  · intro h a
    have hfixed : ∀ x ∈ e.slices, e.rounded x = x := by
      intro x hx
      rw [slices_eq, List.mem_append] at hx
      rcases hx with hx | hx
      · have hchunk : x = e.chunk := by simpa using hx
        rw [hchunk, h.chunk]
      · split_ifs at hx with hremainder
        · rw [List.mem_singleton.mp hx, h.remainder hremainder]
        · exact absurd hx List.not_mem_nil
    have hsub := e.accepted_sublist a.fails (List.range 4) false
    have hmap : (e.accepted a.fails (List.range 4) false).map e.rounded =
        e.accepted a.fails (List.range 4) false :=
      (List.map_congr_left fun x hx => hfixed x (hsub.subset hx)).trans (List.map_id' _)
    rw [conserves_run_iff, hmap, h.whole, ← sum_slices]
    refine ⟨?_, fun hnone => ?_, rfl⟩
    · exact hsub.sum_le_sum fun x hx => (of_decide_eq_true (List.mem_filter.mp hx).2).le
    · rw [e.accepted_all false (fun i hi => hnone i (List.mem_range.mp hi))]
      rfl

end SlicedEntry

/-- Half a contract that is traded in tenths, at 5000. -/
def halfContract : SlicedEntry where
  settings := ⟨0, false⟩
  tables := { InstrumentTables.empty with
    lotSizes := fun _ => some (1 / 10)
    minQty := fun _ => some (1 / 10) }
  request := ⟨"ETH/USDT".toList, .buy, 1 / 2, 5000⟩
  price_pos := by norm_num
  sliced := by decide +kernel

/-- It is cut into eighths, of which the client makes tenths: four tenths are sent and a half is
reported. -/
theorem halfContract_not_conserved :
    ¬ halfContract.Conserves (SlicedEntry.answersOf fun _ => false) := by
  rw [SlicedEntry.conserves_run_iff]
  rintro ⟨-, -, hsum⟩
  revert hsum
  decide +kernel

end Router
end Karsa
