import Karsa.Data.SpoofDetection
import Karsa.Foundations.Leases
import Karsa.Foundations.NumberTexts
import Mathlib.Algebra.BigOperators.Group.List.Basic

/-!
# Market data - The polling ingestor

`MarketDataIngestor` polls the order book, the funding rate and the open interest of every
symbol and keeps what the scoring of the live loop reads: the imbalance of the book, the
cumulative volume delta with its slope, the walls, the funding term signal, the change of the
open interest, and how fresh all of it is.

Main results:

- Theorem `cvd_stateAfter`: the volume delta, its history and its slope behind any run.
- Theorem `oiHistory_composes`: what the remembered changes of the open interest make up.
- Theorem `freshness`: when a symbol's data counts as stale.
-/

namespace Karsa
namespace MarketDataIngestor

open SpoofDetection

/-! ## What a symbol's polls leave -/

/-- `liquidity_walls` of a symbol. -/
structure Walls where
  wallAbove : Option ℚ
  wallBelow : Option ℚ
deriving Repr, DecidableEq

/-- `funding_term_signal` of a symbol. -/
inductive TermSignal where
  | NEUTRAL
  | SQUEEZE_IMMINENT_LONG
  | SQUEEZE_IMMINENT_SHORT
deriving Repr, DecidableEq

/-- An entry of `karsa:price:history`. -/
structure PriceEntry where
  price : ℚ
  timestamp : ℚ
deriving Repr, DecidableEq

/-- An entry of `karsa:oi:history`. -/
structure OiEntry where
  oiChange : ℚ
  price : ℚ
  timestamp : ℚ
deriving Repr, DecidableEq

/-- The dictionaries of the ingestor under one symbol, and the symbol's keys in Redis that it
reads back. -/
structure SymbolState where
  orderbookDelta : Option ℚ
  fundingRate : Option ℚ
  oiChange : Option ℚ
  prevOi : Option ℚ
  cvd : Option ℚ
  cvdHistory : List ℚ
  cvdSlope : Option ℚ
  liquidityWalls : Option Walls
  predictedFundingRate : Option ℚ
  fundingTermSignal : Option TermSignal
  bidSide : SpoofDetection.Side
  askSide : SpoofDetection.Side
  failureCount : ℕ
  lastFetchTs : Option ℚ
  shadowPrice : Option (Lease ℚ ℚ)
  priceHistory : Option (Lease ℚ (List PriceEntry))
  oiHistory : Option (Lease ℚ (List OiEntry))
deriving Repr, DecidableEq

/-- Before the first poll. -/
def SymbolState.initial : SymbolState :=
  { orderbookDelta := none, fundingRate := none, oiChange := none, prevOi := none, cvd := none,
    cvdHistory := [], cvdSlope := none, liquidityWalls := none, predictedFundingRate := none,
    fundingTermSignal := none, bidSide := SpoofDetection.Side.initial,
    askSide := SpoofDetection.Side.initial, failureCount := 0, lastFetchTs := none,
    shadowPrice := none, priceHistory := none, oiHistory := none }

/-! ## The order book -/

/-- `bid_vol`, `ask_vol`. -/
def sideVolume (levels : List Level) : ℚ :=
  (levels.map Level.volume).sum

/-- A book as it was fetched: when, and whether Redis took the price and the history. -/
structure BookAnswer where
  bids : List Level
  asks : List Level
  now : ℚ
  priceStored : Bool
  historyStored : Bool
deriving Repr, DecidableEq

/-- `bid_vol - ask_vol`. -/
def BookAnswer.imbalance (ob : BookAnswer) : ℚ :=
  sideVolume ob.bids - sideVolume ob.asks

/-- `total`. -/
def BookAnswer.total (ob : BookAnswer) : ℚ :=
  sideVolume ob.bids + sideVolume ob.asks

/-- `delta`. -/
def BookAnswer.delta (ob : BookAnswer) : ℚ :=
  if 0 < ob.total then ob.imbalance / ob.total else 0

/-- `wall_below`, `wall_above`: the first level with more than three times the average volume. -/
def wall (levels : List Level) : Option ℚ :=
  (levels.find? fun level => decide (3 * (sideVolume levels / levels.length) < level.volume)).map
    Level.price

/-- `slope`. -/
def slope (hist : List ℚ) (total : ℚ) : ℚ :=
  match hist.head?, hist.getLast? with
  | some first, some last =>
      if 2 ≤ hist.length ∧ 0 < total then
        max (-1) (min 1 ((last - first) / (total * hist.length)))
      else 0
  | _, _ => 0

/-- `hist.append(current_cvd)`, of which five are kept. -/
def appendCvd (hist : List ℚ) (current : ℚ) : List ℚ :=
  let appended := hist ++ [current]
  if 5 < appended.length then appended.tail else appended

/-- `mid`, for a book whose best prices are positive. -/
def BookAnswer.mid (ob : BookAnswer) : Option ℚ :=
  match ob.bids, ob.asks with
  | bid :: _, ask :: _ =>
      if 0 < bid.price ∧ 0 < ask.price then some ((bid.price + ask.price) / 2) else none
  | _, _ => none

/-- `_fetch_orderbook` behind the fetch; whether it ends without an exception.  A price that
Redis does not take raises, a history that it does not take is logged. -/
def fetchOrderbook (s : SymbolState) (ob : BookAnswer) : SymbolState × Bool :=
  let currentCvd := s.cvd.getD 0 + ob.imbalance
  let hist := appendCvd s.cvdHistory currentCvd
  let s := { s with
    orderbookDelta := some ob.delta
    cvd := some currentCvd
    cvdHistory := hist
    cvdSlope := some (slope hist ob.total)
    liquidityWalls := some ⟨wall ob.asks, wall ob.bids⟩
    bidSide := s.bidSide.detect ob.now ob.bids
    askSide := s.askSide.detect ob.now ob.asks }
  match ob.mid with
  | none => (s, true)
  | some mid =>
      if ob.priceStored then
        let s := { s with shadowPrice := Lease.write ob.now 300 mid }
        if ob.historyStored then
          ({ s with
            priceHistory :=
              Lease.remember 60 3600 PriceEntry.timestamp s.priceHistory ⟨mid, ob.now⟩ }, true)
        else (s, true)
      else (s, false)

/-! ## The funding rate -/

/-- The fields of the funding answer that are read; `nextFundingRate` may hold anything. -/
structure FundingAnswer where
  fundingRate : Option ℚ
  nextFundingRate : Option (Numeral ℚ)
deriving Repr, DecidableEq

/-- `rate`: `float(funding.get("fundingRate") or 0.0)`. -/
def FundingAnswer.rate (funding : FundingAnswer) : ℚ :=
  funding.fundingRate.getD 0

/-- `predicted`: the current rate where no other one can be read. -/
def FundingAnswer.predicted (funding : FundingAnswer) : ℚ :=
  match funding.nextFundingRate with
  | some (.value predicted) => predicted
  | _ => funding.rate

/-- `term_signal`. -/
def termSignal (rate predicted : ℚ) : TermSignal :=
  if rate < -(1 / 10000) ∧ rate < predicted then .SQUEEZE_IMMINENT_LONG
  else if 1 / 10000 < rate ∧ predicted < rate then .SQUEEZE_IMMINENT_SHORT
  else .NEUTRAL

/-- `_fetch_funding_rate` behind the fetch. -/
def fetchFundingRate (s : SymbolState) (funding : FundingAnswer) : SymbolState :=
  { s with
    fundingRate := some funding.rate
    predictedFundingRate := some funding.predicted
    fundingTermSignal := some (termSignal funding.rate funding.predicted) }

/-! ## The open interest -/

/-- The answer about the open interest: its two fields, when it came, and whether Redis took the
history. -/
structure OiAnswer where
  openInterestAmount : Option ℚ
  openInterest : Option ℚ
  now : ℚ
  historyStored : Bool
deriving Repr, DecidableEq

/-- `current_oi`: the first field that is neither missing nor zero. -/
def OiAnswer.currentOi (answer : OiAnswer) : ℚ :=
  if answer.openInterestAmount.getD 0 ≠ 0 then answer.openInterestAmount.getD 0
  else answer.openInterest.getD 0

/-- `change`. -/
def oiChangeFrom (prevOi currentOi : ℚ) : ℚ :=
  if 0 < prevOi then (currentOi - prevOi) / prevOi else 0

/-- `_fetch_oi` behind the fetch. -/
def fetchOi (s : SymbolState) (answer : OiAnswer) : SymbolState :=
  if answer.currentOi = 0 then s
  else
    let change := oiChangeFrom (s.prevOi.getD answer.currentOi) answer.currentOi
    let s := { s with oiChange := some change, prevOi := some answer.currentOi }
    if answer.historyStored then
      { s with
        oiHistory :=
          Lease.remember 20 3600 OiEntry.timestamp s.oiHistory
            ⟨change, (Lease.read answer.now s.shadowPrice).getD 0, answer.now⟩ }
    else s

/-! ## A cycle of a symbol -/

/-- What the three fetches of a cycle meet; nothing where one raises. -/
structure Cycle where
  book : Option BookAnswer
  funding : Option FundingAnswer
  oi : Option OiAnswer
  ended : ℚ
deriving Repr, DecidableEq

/-- `_log_fetch_failure`: the count, and whether it is logged as a warning. -/
def logFetchFailure (s : SymbolState) : SymbolState × Bool :=
  let count := s.failureCount + 1
  ({ s with failureCount := count }, decide (3 < count))

/-- The first try block of `_fetch_symbol`: the state, and whether the fetch failed. -/
def tryOrderbook (s : SymbolState) : Option BookAnswer → SymbolState × Bool
  | none => ((logFetchFailure s).1, true)
  | some ob =>
      let fetched := fetchOrderbook s ob
      if fetched.2 then (fetched.1, false) else ((logFetchFailure fetched.1).1, true)

/-- The second try block. -/
def tryFundingRate (s : SymbolState) : Option FundingAnswer → SymbolState × Bool
  | none => ((logFetchFailure s).1, true)
  | some funding => (fetchFundingRate s funding, false)

/-- The third try block. -/
def tryOi (s : SymbolState) : Option OiAnswer → SymbolState × Bool
  | none => ((logFetchFailure s).1, true)
  | some answer => (fetchOi s answer, false)

/-- `_fetch_symbol`: a cycle without a failure resets the count and counts as fresh. -/
def fetchSymbol (s : SymbolState) (cycle : Cycle) : SymbolState :=
  let book := tryOrderbook s cycle.book
  let funding := tryFundingRate book.1 cycle.funding
  let oi := tryOi funding.1 cycle.oi
  if !book.2 && !funding.2 && !oi.2 then
    { oi.1 with failureCount := 0, lastFetchTs := some cycle.ended }
  else oi.1

/-- `is_stale`. -/
def isStale (s : SymbolState) (now : ℚ) : Bool :=
  match s.lastFetchTs with
  | none => true
  | some ts => decide (2 < now - ts)

/-- A symbol behind a run of cycles. -/
def stateAfter (cycles : List Cycle) : SymbolState :=
  run fetchSymbol SymbolState.initial cycles

theorem stateAfter_concat (cycles : List Cycle) (cycle : Cycle) :
    stateAfter (cycles ++ [cycle]) = fetchSymbol (stateAfter cycles) cycle :=
  run_concat _ _ cycles cycle

/-! ## What a cycle leaves alone -/

/-- The part of the state that the books alone decide. -/
def SymbolState.deltas (s : SymbolState) : Option ℚ × List ℚ × Option ℚ :=
  (s.cvd, s.cvdHistory, s.cvdSlope)

/-- The same of a fetched book. -/
def deltasOf (d : Option ℚ × List ℚ × Option ℚ) (ob : BookAnswer) : Option ℚ × List ℚ × Option ℚ :=
  let current := d.1.getD 0 + ob.imbalance
  (some current, appendCvd d.2.1 current, some (slope (appendCvd d.2.1 current) ob.total))

@[simp] theorem deltas_logFetchFailure (s : SymbolState) :
    (logFetchFailure s).1.deltas = s.deltas := rfl

@[simp] theorem deltas_fetchFundingRate (s : SymbolState) (funding : FundingAnswer) :
    (fetchFundingRate s funding).deltas = s.deltas := rfl

@[simp] theorem deltas_fetchOi (s : SymbolState) (answer : OiAnswer) :
    (fetchOi s answer).deltas = s.deltas := by
  unfold fetchOi
  split_ifs <;> rfl

theorem deltas_fetchOrderbook (s : SymbolState) (ob : BookAnswer) :
    (fetchOrderbook s ob).1.deltas = deltasOf s.deltas ob := by
  unfold fetchOrderbook
  cases ob.mid with
  | none => rfl
  | some mid =>
      dsimp only
      split_ifs <;> rfl

/-- A cycle changes the deltas by its book. -/
theorem deltas_fetchSymbol (s : SymbolState) (cycle : Cycle) :
    (fetchSymbol s cycle).deltas =
      match cycle.book with
      | none => s.deltas
      | some ob => deltasOf s.deltas ob := by
  have hend : (fetchSymbol s cycle).deltas =
      (tryOi (tryFundingRate (tryOrderbook s cycle.book).1 cycle.funding).1 cycle.oi).1.deltas := by
    unfold fetchSymbol
    dsimp only
    split_ifs <;> rfl
  have hoi : ∀ s : SymbolState, (tryOi s cycle.oi).1.deltas = s.deltas := by
    intro s
    cases cycle.oi with
    | none => rfl
    | some answer => exact deltas_fetchOi s answer
  have hfunding : ∀ s : SymbolState, (tryFundingRate s cycle.funding).1.deltas = s.deltas := by
    intro s
    cases cycle.funding with
    | none => rfl
    | some funding => rfl
  rw [hend, hoi, hfunding]
  cases cycle.book with
  | none => rfl
  | some ob =>
      refine Eq.trans ?_ (deltas_fetchOrderbook s ob)
      rw [tryOrderbook]
      split_ifs <;> rfl

/-- The books that were fetched. -/
def booksOf (cycles : List Cycle) : List BookAnswer :=
  cycles.filterMap Cycle.book

/-- Behind a run the deltas are those of its books. -/
theorem deltas_stateAfter (cycles : List Cycle) :
    (stateAfter cycles).deltas = run deltasOf (none, [], none) (booksOf cycles) := by
  induction cycles using List.reverseRecOn with
  | nil => rfl
  | append_singleton cycles cycle ih =>
      rw [stateAfter_concat, deltas_fetchSymbol, ih, booksOf, booksOf, List.filterMap_append]
      cases hbook : cycle.book with
      | none => simp [hbook]
      | some ob => simp [hbook, run]

/-! ## The cumulative volume delta -/

/-- The sums of the first entries, of the first two, and so on. -/
def partialSums (xs : List ℚ) : List ℚ :=
  (List.range xs.length).map fun i => (xs.take (i + 1)).sum

theorem partialSums_concat (xs : List ℚ) (x : ℚ) :
    partialSums (xs ++ [x]) = partialSums xs ++ [xs.sum + x] := by
  rw [partialSums, List.length_append, List.length_singleton, List.range_succ, List.map_append,
    partialSums]
  congr 1
  · apply List.map_congr_left
    intro i hi
    rw [List.take_append_of_le_length (List.mem_range.mp hi)]
  · have htake : (xs ++ [x]).take (xs.length + 1) = xs ++ [x] :=
      List.take_of_length_le (by simp)
    rw [List.map_singleton, htake, List.sum_append, List.sum_singleton]

/-- Of the history five entries are kept. -/
theorem appendCvd_rtake (log : List ℚ) (current : ℚ) :
    appendCvd (log.rtake 5) current = (log ++ [current]).rtake 5 := by
  have hlength := length_rtake_le 5 log
  rw [← rtake_concat_rtake]
  generalize log.rtake 5 = kept at hlength ⊢
  rw [appendCvd, List.rtake, List.length_append, List.length_singleton]
  split_ifs with hlong
  · have hone : kept.length + 1 - 5 = 1 := by omega
    rw [hone, List.drop_one]
  · rw [Nat.sub_eq_zero_of_le (not_lt.mp hlong), List.drop_zero]

/-- The history holds the last five sums of the imbalances. -/
theorem history_run (books : List BookAnswer) :
    (run deltasOf (none, [], none) books).1.getD 0 = (books.map BookAnswer.imbalance).sum ∧
      (run deltasOf (none, [], none) books).2.1 =
        (partialSums (books.map BookAnswer.imbalance)).rtake 5 := by
  induction books using List.reverseRecOn with
  | nil => exact ⟨rfl, rfl⟩
  | append_singleton books ob ih =>
      rw [run_concat, List.map_append, List.map_singleton, partialSums_concat, deltasOf, ih.1, ih.2,
        appendCvd_rtake]
      exact ⟨by simp, rfl⟩

/-- The slope of the kept sums takes in the imbalances behind the oldest of them. -/
theorem slope_partialSums {xs : List ℚ} (hne : xs ≠ []) (total : ℚ) :
    slope ((partialSums xs).rtake 5) total =
      if 2 ≤ min 5 xs.length ∧ 0 < total then
        max (-1) (min 1 ((xs.rtake (min 5 xs.length - 1)).sum / (total * (min 5 xs.length : ℕ))))
      else 0 := by
  have hpos : 0 < xs.length := List.length_pos_of_ne_nil hne
  have hlen : (partialSums xs).length = xs.length := by
    rw [partialSums, List.length_map, List.length_range]
  have hwindow : ((partialSums xs).rtake 5).length = min 5 xs.length := by
    rw [List.rtake, List.length_drop, hlen]
    omega
  have hget : ∀ i, i < xs.length → (partialSums xs)[i]? = some (xs.take (i + 1)).sum := by
    intro i hi
    rw [partialSums, List.getElem?_map, List.getElem?_range hi, Option.map_some]
  have hfirst : ((partialSums xs).rtake 5).head? = some (xs.take (xs.length - 5 + 1)).sum := by
    rw [List.rtake, List.head?_drop, hlen, hget _ (by omega)]
  have hlast : ((partialSums xs).rtake 5).getLast? = some xs.sum := by
    rw [List.rtake, List.getLast?_drop, hlen, if_neg (by omega), List.getLast?_eq_getElem?, hlen,
      hget _ (by omega), Nat.sub_add_cancel hpos, List.take_length]
  have hbehind : xs.sum - (xs.take (xs.length - 5 + 1)).sum =
      (xs.rtake (min 5 xs.length - 1)).sum := by
    have hcut : xs.length - 5 + 1 = xs.length - (min 5 xs.length - 1) := by omega
    rw [← List.sum_take_add_sum_drop xs (xs.length - 5 + 1), List.rtake, ← hcut]
    ring
  rw [slope, hfirst, hlast, hwindow]
  dsimp only
  rw [hbehind]

/-- Behind every run of cycles, whatever failed in them: the cumulative volume delta is the sum
of the imbalances of all books, its history holds the last five of its values, and its slope is
that of the last imbalances, four of them at most, over the newest book's volume. -/
theorem cvd_stateAfter {cycles : List Cycle} {books : List BookAnswer} {last : BookAnswer}
    (hbooks : booksOf cycles = books ++ [last]) :
    (stateAfter cycles).cvd = some ((booksOf cycles).map BookAnswer.imbalance).sum ∧
      (stateAfter cycles).cvdHistory =
        (partialSums ((booksOf cycles).map BookAnswer.imbalance)).rtake 5 ∧
      (stateAfter cycles).cvdSlope =
        let window := min 5 (booksOf cycles).length
        some (if 2 ≤ window ∧ 0 < last.total then
          max (-1) (min 1 ((((booksOf cycles).map BookAnswer.imbalance).rtake (window - 1)).sum /
            (last.total * (window : ℕ))))
        else 0) := by
  have hdeltas := deltas_stateAfter cycles
  have hhistory := history_run (books ++ [last])
  have hne : (books ++ [last]).map BookAnswer.imbalance ≠ [] := by simp
  rw [hbooks] at hdeltas ⊢
  have hlast : run deltasOf (none, [], none) (books ++ [last]) =
      deltasOf (run deltasOf (none, [], none) books) last :=
    run_concat _ _ books last
  have hslope := slope_partialSums hne last.total
  rw [List.length_map] at hslope
  rw [hlast] at hhistory hdeltas
  have hcvd : (stateAfter cycles).cvd =
      (deltasOf (run deltasOf (none, [], none) books) last).1 := congrArg Prod.fst hdeltas
  have hhist : (stateAfter cycles).cvdHistory =
      (deltasOf (run deltasOf (none, [], none) books) last).2.1 :=
    congrArg (fun d => d.2.1) hdeltas
  have hslp : (stateAfter cycles).cvdSlope =
      (deltasOf (run deltasOf (none, [], none) books) last).2.2 :=
    congrArg (fun d => d.2.2) hdeltas
  refine ⟨?_, ?_, ?_⟩
  · rw [hcvd, ← hhistory.1]
    rfl
  · rw [hhist, hhistory.2]
  · dsimp only
    rw [hslp, ← hslope, ← hhistory.2]
    rfl

/-- Two books of which the second is thinner on the bid. -/
theorem cvd_stateAfter_two :
    (stateAfter [⟨some ⟨[⟨10, 5⟩], [⟨11, 3⟩], 100, true, true⟩, none, none, 100⟩,
      ⟨some ⟨[⟨10, 1⟩], [⟨11, 3⟩], 130, true, true⟩, none, none, 130⟩]).cvdSlope =
        some (-1 / 4) := by
  have hbooks : booksOf [⟨some ⟨[⟨10, 5⟩], [⟨11, 3⟩], 100, true, true⟩, none, none, 100⟩,
      ⟨some ⟨[⟨10, 1⟩], [⟨11, 3⟩], 130, true, true⟩, none, none, 130⟩] =
      [⟨[⟨10, 5⟩], [⟨11, 3⟩], 100, true, true⟩] ++ [⟨[⟨10, 1⟩], [⟨11, 3⟩], 130, true, true⟩] := rfl
  rw [(cvd_stateAfter hbooks).2.2]
  decide +kernel

/-! ## The open interest -/

/-- The part of the state that the open interest decides. -/
def SymbolState.interest (s : SymbolState) :
    Option ℚ × Option ℚ × Option (Lease ℚ (List OiEntry)) :=
  (s.oiChange, s.prevOi, s.oiHistory)

/-- The answers with an open interest, in order. -/
def readingsOf (cycles : List Cycle) : List OiAnswer :=
  (cycles.filterMap Cycle.oi).filter fun answer => decide (answer.currentOi ≠ 0)

/-- The change of every reading to the one before it; the first counts as no change. -/
def changesOf (readings : List OiAnswer) : List ℚ :=
  (List.range readings.length).map fun i =>
    match readings[i]? with
    | none => 0
    | some answer =>
        oiChangeFrom (((readings.take i).getLast?.map OiAnswer.currentOi).getD answer.currentOi)
          answer.currentOi

theorem changesOf_concat (readings : List OiAnswer) (answer : OiAnswer) :
    changesOf (readings ++ [answer]) =
      changesOf readings ++
        [oiChangeFrom ((readings.getLast?.map OiAnswer.currentOi).getD answer.currentOi)
          answer.currentOi] := by
  rw [changesOf, List.length_append, List.length_singleton, List.range_succ, List.map_append,
    changesOf]
  congr 1
  · apply List.map_congr_left
    intro i hi
    have hlt := List.mem_range.mp hi
    rw [List.getElem?_append_left hlt, List.take_append_of_le_length hlt.le]
  · simp

@[simp] theorem interest_logFetchFailure (s : SymbolState) :
    (logFetchFailure s).1.interest = s.interest := rfl

/-- The books leave the open interest alone. -/
theorem interest_tryOrderbook (s : SymbolState) (book : Option BookAnswer) :
    (tryOrderbook s book).1.interest = s.interest := by
  cases book with
  | none => rfl
  | some ob =>
      have hfetch : (fetchOrderbook s ob).1.interest = s.interest := by
        unfold fetchOrderbook
        cases ob.mid with
        | none => rfl
        | some mid =>
            dsimp only
            split_ifs <;> rfl
      rw [tryOrderbook]
      split_ifs
      · exact hfetch
      · exact hfetch

/-- What a reading does: it is compared with the one before it, and the change is remembered if
Redis takes it. -/
theorem interest_fetchSymbol (s : SymbolState) (cycle : Cycle) :
    ∃ price, (fetchSymbol s cycle).interest =
      match cycle.oi with
      | none => s.interest
      | some answer =>
          if answer.currentOi = 0 then s.interest
          else
            let change := oiChangeFrom (s.prevOi.getD answer.currentOi) answer.currentOi
            (some change, some answer.currentOi,
              if answer.historyStored then
                Lease.remember 20 3600 OiEntry.timestamp s.oiHistory ⟨change, price, answer.now⟩
              else s.oiHistory) := by
  have hend : (fetchSymbol s cycle).interest =
      (tryOi (tryFundingRate (tryOrderbook s cycle.book).1 cycle.funding).1
        cycle.oi).1.interest := by
    unfold fetchSymbol
    dsimp only
    split_ifs <;> rfl
  have hbefore : (tryFundingRate (tryOrderbook s cycle.book).1 cycle.funding).1.interest =
      s.interest := by
    rw [← interest_tryOrderbook s cycle.book]
    cases cycle.funding with
    | none => rfl
    | some funding => rfl
  rw [hend]
  generalize (tryFundingRate (tryOrderbook s cycle.book).1 cycle.funding).1 = t at hbefore ⊢
  cases cycle.oi with
  | none => exact ⟨0, hbefore⟩
  | some answer =>
      have hprev : t.prevOi = s.prevOi := congrArg (fun x => x.2.1) hbefore
      have hhistory : t.oiHistory = s.oiHistory := congrArg (fun x => x.2.2) hbefore
      refine ⟨(Lease.read answer.now t.shadowPrice).getD 0, ?_⟩
      dsimp only
      rw [tryOi, fetchOi]
      split_ifs with hzero hstored
      · exact hbefore
      · rw [← hprev, ← hhistory]
        rfl
      · rw [← hprev, ← hhistory]
        rfl

/-- Behind a run whose readings were all remembered. -/
structure Interest (readings : List OiAnswer) (s : SymbolState) : Prop where
  prevOi : s.prevOi = readings.getLast?.map OiAnswer.currentOi
  oiHistory : ∃ entries : List OiEntry, entries.map OiEntry.oiChange = changesOf readings ∧
    entries.map OiEntry.timestamp = readings.map OiAnswer.now ∧
    s.oiHistory = entries.foldl (Lease.remember 20 3600 OiEntry.timestamp) none

/-- A cycle remembers its reading if it has one. -/
theorem Interest.fetchSymbol {cycles : List Cycle} {s : SymbolState}
    (h : Interest (readingsOf cycles) s) (cycle : Cycle)
    (hstored : ∀ r ∈ readingsOf (cycles ++ [cycle]), r.historyStored = true) :
    Interest (readingsOf (cycles ++ [cycle])) (fetchSymbol s cycle) := by
  rcases interest_fetchSymbol s cycle with ⟨price, heffect⟩
  have hsplit : readingsOf (cycles ++ [cycle]) = readingsOf cycles ++ readingsOf [cycle] := by
    rw [readingsOf, List.filterMap_append, List.filter_append]
    rfl
  have hnone : readingsOf [cycle] = [] →
      (MarketDataIngestor.fetchSymbol s cycle).interest = s.interest →
      Interest (readingsOf (cycles ++ [cycle])) (MarketDataIngestor.fetchSymbol s cycle) := by
    intro hnil hsame
    rw [hsplit, hnil, List.append_nil]
    refine ⟨?_, ?_⟩
    · exact (congrArg (fun x => x.2.1) hsame).trans h.prevOi
    · rcases h.oiHistory with ⟨entries, hchanges, htimes, hfold⟩
      exact ⟨entries, hchanges, htimes, (congrArg (fun x => x.2.2) hsame).trans hfold⟩
  cases hoi : cycle.oi with
  | none =>
      rw [hoi] at heffect
      exact hnone (by simp [readingsOf, hoi]) heffect
  | some answer =>
      rw [hoi] at heffect
      dsimp only at heffect
      by_cases hzero : answer.currentOi = 0
      · rw [if_pos hzero] at heffect
        exact hnone (by simp [readingsOf, hoi, hzero]) heffect
      · have hreading : readingsOf [cycle] = [answer] := by simp [readingsOf, hoi, hzero]
        rw [hreading] at hsplit
        have hkept : answer.historyStored = true := hstored answer (by simp [hsplit])
        rw [if_neg hzero, if_pos hkept] at heffect
        rcases h.oiHistory with ⟨entries, hchanges, htimes, hfold⟩
        rw [hsplit]
        refine ⟨?_, ?_⟩
        · rw [List.getLast?_concat]
          exact congrArg (fun x => x.2.1) heffect
        · refine ⟨entries ++ [⟨oiChangeFrom (s.prevOi.getD answer.currentOi) answer.currentOi,
            price, answer.now⟩], ?_, ?_, ?_⟩
          · rw [List.map_append, hchanges, changesOf_concat, ← h.prevOi]
            rfl
          · rw [List.map_append, htimes, List.map_append]
            rfl
          · rw [List.foldl_append, ← hfold]
            exact congrArg (fun x => x.2.2) heffect

/-- The changes of the newest readings make up the ratio of the last one to the one before them,
or to the first of all. -/
theorem prod_changesOf {readings : List OiAnswer} {last base : OiAnswer}
    (hpos : ∀ r ∈ readings ++ [last], 0 < r.currentOi) (n : ℕ)
    (hbase : ((readings ++ [last]).take ((readings ++ [last]).length - n)).getLast?.or
      (readings ++ [last]).head? = some base) :
    (((changesOf (readings ++ [last])).rtake n).map fun change => 1 + change).prod *
      base.currentOi = last.currentOi := by
  induction readings using List.reverseRecOn generalizing last n with
  | nil =>
      have hlast : base = last := by
        rcases Nat.eq_zero_or_pos n with rfl | hn
        · simpa using hbase.symm
        · have hcut : [last].length - n = 0 := by
            rw [List.length_singleton]
            omega
          rw [List.nil_append, hcut] at hbase
          simpa using hbase.symm
      have hone : changesOf [last] = [0] := by
        simp [changesOf, oiChangeFrom]
      rw [List.nil_append, hone, hlast]
      cases n with
      | zero => simp
      | succ n => simp [List.rtake]
  | append_singleton readings a ih =>
      cases n with
      | zero =>
          rw [Nat.sub_zero, List.take_length, List.getLast?_concat] at hbase
          have hlast : last = base := by simpa using hbase
          rw [List.rtake_zero, List.map_nil, List.prod_nil, one_mul, hlast]
      | succ n =>
          have hprev : ((readings ++ [a]).take ((readings ++ [a]).length - n)).getLast?.or
              (readings ++ [a]).head? = some base := by
            rw [← hbase]
            have hcut : (readings ++ [a] ++ [last]).length - (n + 1) =
                (readings ++ [a]).length - n := by
              rw [List.length_append, List.length_singleton]
              omega
            rw [hcut, List.take_append_of_le_length (Nat.sub_le _ _)]
            congr 1
            cases readings with
            | nil => rfl
            | cons r rest => rfl
          have hold := ih (fun r hr => hpos r (List.mem_append_left _ hr)) n hprev
          have ha : 0 < a.currentOi := hpos a (by simp)
          rw [changesOf_concat, List.rtake_concat_succ, List.map_append, List.prod_append,
            List.map_singleton, List.prod_singleton, List.getLast?_concat, mul_right_comm, hold]
          rw [Option.map_some, Option.getD_some, oiChangeFrom, if_pos ha]
          field_simp
          ring

/-- Behind a run whose positive readings were all remembered, each within the hour of the one
before it, the remembered changes make up the ratio of the open interest to what it was before
them, whatever failed in between. -/
theorem oiHistory_composes {cycles : List Cycle} {readings : List OiAnswer} {last base : OiAnswer}
    (hreadings : readingsOf cycles = readings ++ [last])
    (hpos : ∀ r ∈ readingsOf cycles, 0 < r.currentOi)
    (hstored : ∀ r ∈ readingsOf cycles, r.historyStored = true)
    (hsoon : (readingsOf cycles).IsChain fun a b => b.now < a.now + 3600)
    (hbase : ((readingsOf cycles).take ((readingsOf cycles).length - 20)).getLast?.or
      (readingsOf cycles).head? = some base) :
    ∃ entries, Lease.read last.now (stateAfter cycles).oiHistory = some entries ∧
      entries.length = min 20 (readingsOf cycles).length ∧
      (entries.map fun e => 1 + e.oiChange).prod * base.currentOi = last.currentOi := by
  have hinterest : Interest (readingsOf cycles) (stateAfter cycles) := by
    clear hreadings hpos hsoon hbase
    induction cycles using List.reverseRecOn with
    | nil => exact ⟨rfl, [], rfl, rfl, rfl⟩
    | append_singleton cycles cycle ih =>
        rw [stateAfter_concat]
        refine (ih fun r hr => hstored r ?_).fetchSymbol cycle hstored
        rw [readingsOf, List.filterMap_append, List.filter_append]
        exact List.mem_append_left _ hr
  rcases hinterest.oiHistory with ⟨entries, hchanges, htimes, hfold⟩
  rw [hreadings] at hchanges htimes hpos hbase hsoon ⊢
  rcases List.eq_nil_or_concat entries with rfl | ⟨older, newest, hentries⟩
  · simp at htimes
  rw [List.concat_eq_append] at hentries
  rw [hentries] at hchanges htimes hfold
  have hnewest : newest.timestamp = last.now := by
    rw [List.map_append, List.map_append] at htimes
    exact List.singleton_inj.mp (List.append_inj' htimes rfl).2
  have hchain : (older ++ [newest]).IsChain fun a b => b.timestamp < a.timestamp + 3600 := by
    have hmapped : ((readings ++ [last]).map OiAnswer.now).IsChain fun x y => y < x + 3600 :=
      (List.isChain_map OiAnswer.now).mpr hsoon
    rw [← htimes] at hmapped
    exact (List.isChain_map OiEntry.timestamp).mp hmapped
  have hlength : (older ++ [newest]).length = (readings ++ [last]).length := by
    have h := congrArg List.length htimes
    rwa [List.length_map, List.length_map] at h
  rw [Lease.foldl_remember hchain, hnewest] at hfold
  refine ⟨(older ++ [newest]).rtake 20, ?_, ?_, ?_⟩
  · rw [hfold, Lease.read_write_iff]
    exact ⟨by linarith, rfl⟩
  · rw [List.rtake, List.length_drop, hlength]
    omega
  · have hmap : ((older ++ [newest]).map OiEntry.oiChange).rtake 20 =
        ((older ++ [newest]).rtake 20).map OiEntry.oiChange := by
      rw [List.rtake, List.rtake, List.length_map, List.map_drop]
    rw [← prod_changesOf hpos 20 hbase, ← hchanges, hmap, List.map_map]
    rfl

/-- Two readings with a failed cycle and an empty answer between them. -/
def outage : List Cycle :=
  [⟨none, none, some ⟨some 100, none, 100, true⟩, 100⟩, ⟨none, none, none, 130⟩,
    ⟨none, none, some ⟨none, some 0, 160, true⟩, 160⟩,
    ⟨none, none, some ⟨none, some 80, 190, true⟩, 190⟩]

theorem oiHistory_composes_outage :
    ∃ entries, Lease.read 190 (stateAfter outage).oiHistory = some entries ∧
      entries.length = 2 ∧ (entries.map fun e => 1 + e.oiChange).prod * 100 = 80 :=
  have hreadings : readingsOf outage =
      [⟨some 100, none, 100, true⟩] ++ [⟨none, some 80, 190, true⟩] := by decide +kernel
  have hbase : ((readingsOf outage).take ((readingsOf outage).length - 20)).getLast?.or
      (readingsOf outage).head? = some ⟨some 100, none, 100, true⟩ := by
    rw [hreadings]
    rfl
  oiHistory_composes hreadings (by rw [hreadings]; decide +kernel)
    (by rw [hreadings]; decide +kernel) (by rw [hreadings]; decide +kernel) hbase

/-! ## Freshness -/

/-- The fetch of the book raises, or Redis does not take its price. -/
def bookFails : Option BookAnswer → Bool
  | none => true
  | some ob => ob.mid.isSome && !ob.priceStored

/-- `cycle_failures`. -/
def Cycle.failures (cycle : Cycle) : ℕ :=
  (bookFails cycle.book).toNat + cycle.funding.isNone.toNat + cycle.oi.isNone.toNat

/-- A fetch that was tried: whether it failed, and that its failure was counted. -/
structure Tried (s : SymbolState) (fails : Bool) (r : SymbolState × Bool) : Prop where
  failed : r.2 = fails
  failureCount : r.1.failureCount = s.failureCount + fails.toNat
  lastFetchTs : r.1.lastFetchTs = s.lastFetchTs

theorem failureCount_fetchOrderbook (s : SymbolState) (ob : BookAnswer) :
    (fetchOrderbook s ob).1.failureCount = s.failureCount ∧
      (fetchOrderbook s ob).1.lastFetchTs = s.lastFetchTs := by
  unfold fetchOrderbook
  cases ob.mid with
  | none => exact ⟨rfl, rfl⟩
  | some mid =>
      dsimp only
      split_ifs
      · exact ⟨rfl, rfl⟩
      · exact ⟨rfl, rfl⟩
      · exact ⟨rfl, rfl⟩

theorem fetchOrderbook_snd (s : SymbolState) (ob : BookAnswer) :
    (fetchOrderbook s ob).2 = !bookFails (some ob) := by
  unfold fetchOrderbook bookFails
  cases hmid : ob.mid with
  | none => simp [hmid]
  | some mid =>
      dsimp only
      split_ifs with hprice
      · simp [hmid, hprice]
      · simp [hmid, hprice]
      · simp [hmid, hprice]

theorem tried_tryOrderbook (s : SymbolState) (book : Option BookAnswer) :
    Tried s (bookFails book) (tryOrderbook s book) := by
  cases book with
  | none => exact ⟨rfl, rfl, rfl⟩
  | some ob =>
      rcases failureCount_fetchOrderbook s ob with ⟨hcount, hlast⟩
      rw [tryOrderbook, fetchOrderbook_snd]
      cases bookFails (some ob) with
      | true => exact ⟨rfl, congrArg (· + 1) hcount, hlast⟩
      | false => exact ⟨rfl, hcount, hlast⟩

theorem tried_tryFundingRate (s : SymbolState) (funding : Option FundingAnswer) :
    Tried s funding.isNone (tryFundingRate s funding) := by
  cases funding with
  | none => exact ⟨rfl, rfl, rfl⟩
  | some funding => exact ⟨rfl, rfl, rfl⟩

theorem tried_tryOi (s : SymbolState) (oi : Option OiAnswer) :
    Tried s oi.isNone (tryOi s oi) := by
  cases oi with
  | none => exact ⟨rfl, rfl, rfl⟩
  | some answer =>
      rw [tryOi, fetchOi]
      split_ifs
      · exact ⟨rfl, rfl, rfl⟩
      · exact ⟨rfl, rfl, rfl⟩
      · exact ⟨rfl, rfl, rfl⟩

/-- What a cycle does to the failure count and to the time of the last clean cycle. -/
theorem health_fetchSymbol (s : SymbolState) (cycle : Cycle) :
    (fetchSymbol s cycle).failureCount =
        (if cycle.failures = 0 then 0 else s.failureCount + cycle.failures) ∧
      (fetchSymbol s cycle).lastFetchTs =
        if cycle.failures = 0 then some cycle.ended else s.lastFetchTs := by
  have hbook := tried_tryOrderbook s cycle.book
  have hfunding := tried_tryFundingRate (tryOrderbook s cycle.book).1 cycle.funding
  have hoi := tried_tryOi (tryFundingRate (tryOrderbook s cycle.book).1 cycle.funding).1 cycle.oi
  have hcount := hoi.failureCount
  have hlast := hoi.lastFetchTs
  rw [hfunding.failureCount, hbook.failureCount, Nat.add_assoc, Nat.add_assoc] at hcount
  rw [hfunding.lastFetchTs, hbook.lastFetchTs] at hlast
  have hfailures : (!bookFails cycle.book && !cycle.funding.isNone && !cycle.oi.isNone) =
      decide (cycle.failures = 0) := by
    unfold Cycle.failures
    cases bookFails cycle.book <;> cases cycle.funding.isNone <;> cases cycle.oi.isNone <;> rfl
  unfold fetchSymbol
  dsimp only
  rw [hbook.failed, hfunding.failed, hoi.failed, hfailures]
  split_ifs with hclean hzero
  · exact ⟨rfl, rfl⟩
  · exact absurd (of_decide_eq_true hclean) hzero
  · exact absurd (decide_eq_true ‹cycle.failures = 0›) hclean
  · refine ⟨?_, hlast⟩
    rw [hcount, Cycle.failures, Nat.add_assoc]

/-- The failures since the last clean cycle are counted. -/
theorem failureCount_stateAfter (cycles : List Cycle) :
    (stateAfter cycles).failureCount =
      ((cycles.rtakeWhile fun cycle => decide (cycle.failures ≠ 0)).map Cycle.failures).sum := by
  induction cycles using List.reverseRecOn with
  | nil => rfl
  | append_singleton cycles cycle ih =>
      rw [stateAfter_concat, (health_fetchSymbol _ cycle).1, ih, List.rtakeWhile_concat]
      by_cases hclean : cycle.failures = 0
      · simp [hclean]
      · simp [hclean]

/-- The last clean cycle's end is kept. -/
theorem lastFetchTs_stateAfter (cycles : List Cycle) :
    (stateAfter cycles).lastFetchTs =
      (cycles.filter fun cycle => decide (cycle.failures = 0)).getLast?.map Cycle.ended := by
  induction cycles using List.reverseRecOn with
  | nil => rfl
  | append_singleton cycles cycle ih =>
      rw [stateAfter_concat, (health_fetchSymbol _ cycle).2, ih, List.filter_append]
      by_cases hclean : cycle.failures = 0
      · simp [hclean]
      · simp [hclean]

/-- A symbol's data is stale if no cycle without any failure has ended within the last two
seconds, and the failures counted against it are those of the cycles since the last such one;
what a partly failed cycle has fetched counts for nothing. -/
theorem freshness (cycles : List Cycle) (now : ℚ)
    (hclock : cycles.Pairwise fun a b => a.ended ≤ b.ended) :
    (isStale (stateAfter cycles) now = true ↔
        ∀ cycle ∈ cycles, cycle.failures = 0 → cycle.ended + 2 < now) ∧
      (stateAfter cycles).failureCount =
        ((cycles.rtakeWhile fun cycle => decide (cycle.failures ≠ 0)).map Cycle.failures).sum := by
  refine ⟨?_, failureCount_stateAfter cycles⟩
  rw [isStale, lastFetchTs_stateAfter]
  have hclean := hclock.sublist
    (List.filter_sublist (p := fun cycle => decide (cycle.failures = 0)))
  have hmem : ∀ cycle, cycle ∈ cycles.filter (fun cycle => decide (cycle.failures = 0)) ↔
      cycle ∈ cycles ∧ cycle.failures = 0 := by
    intro cycle
    rw [List.mem_filter, decide_eq_true_eq]
  generalize cycles.filter (fun cycle => decide (cycle.failures = 0)) = clean at hclean hmem ⊢
  rcases List.eq_nil_or_concat clean with rfl | ⟨older, newest, rfl⟩
  · refine iff_of_true rfl fun cycle hcycle hzero => ?_
    have hnil := (hmem cycle).mpr ⟨hcycle, hzero⟩
    simp at hnil
  · rw [List.concat_eq_append] at hclean hmem ⊢
    rw [List.getLast?_concat, Option.map_some]
    dsimp only
    rw [decide_eq_true_eq]
    constructor
    · intro hold cycle hcycle hzero
      have hle : cycle.ended ≤ newest.ended := by
        rcases List.mem_append.mp ((hmem cycle).mpr ⟨hcycle, hzero⟩) with hbefore | hnew
        · exact (List.pairwise_append.mp hclean).2.2 cycle hbefore newest List.mem_cons_self
        · rw [List.mem_singleton.mp hnew]
      linarith
    · intro hall
      rcases (hmem newest).mp (by simp) with ⟨hcycle, hzero⟩
      linarith [hall newest hcycle hzero]

/-- A clean cycle, one without its book, and one that fetches nothing. -/
def fading : List Cycle :=
  [⟨some ⟨[⟨99, 2⟩], [⟨101, 1⟩], 100, true, true⟩, some ⟨some (1 / 10000), none⟩,
      some ⟨some 100, none, 100, true⟩, 100⟩,
    ⟨none, some ⟨some (1 / 10000), none⟩, some ⟨some 101, none, 101, true⟩, 101⟩,
    ⟨none, none, none, 102⟩]

/-- Two seconds behind the clean cycle the data are still fresh, a second later they are not. -/
theorem freshness_fading :
    isStale (stateAfter fading) 102 ≠ true ∧ isStale (stateAfter fading) 103 = true ∧
      (stateAfter fading).failureCount = 4 :=
  ⟨(freshness fading 102 (by decide +kernel)).1.not.mpr (by decide +kernel),
    (freshness fading 103 (by decide +kernel)).1.mpr (by decide +kernel),
    (freshness fading 103 (by decide +kernel)).2.trans (by decide +kernel)⟩

end MarketDataIngestor
end Karsa
