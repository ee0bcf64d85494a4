import Karsa.DataEngine.CandleTable
import Karsa.Foundations.TruncatedQueries

/-!
# Backtests - Loading the candles of a job

`_load_candles` selects the rows of a symbol in a range of time, in ascending order and up to a
limit.  The table holds a symbol in several timeframes; the query does not look at them, and
rows of one time come in any order.

Main results:

- Theorem `LoadsRecentSeries.leadingAlone`: what the answers say about the rows at their front.
- Theorem `loadsRecentSeries_iff`: when every answer is the most recent series of one timeframe.
-/

namespace Karsa
namespace CandleLoading

open CandleTable (RowKey Table)
open CandleWire (Prices)
open MarketFeed (Candle)

/-! ## The query -/

/-- A row of `historical_candles`. -/
abbrev Row := RowKey × Prices ℚ

/-- Columns of a row. -/
def symbolOf (r : Row) : Text := r.1.1

def timeframeOf (r : Row) : Text := r.1.2.1

def tsOf (r : Row) : ℤ := r.1.2.2

/-- A table with one row for each symbol, timeframe and time. -/
structure HistoricalCandles where
  table : Table
  unique : table.keys.Nodup

/-- What a job asks for; its times may be missing. -/
structure JobRange where
  symbol : Text
  limit : ℕ
  startTime : Option ℤ
  endTime : Option ℤ
deriving Repr, DecidableEq

/-- The conditions of the query. -/
def JobRange.conditions (q : JobRange) (r : Row) : Bool :=
  decide (symbolOf r = q.symbol) && q.startTime.all (fun t => decide (t ≤ tsOf r)) &&
    q.endTime.all (fun t => decide (tsOf r ≤ t))

/-- The rows in the range of a job. -/
def inRange (db : HistoricalCandles) (q : JobRange) : List Row :=
  List.filter q.conditions db.table

/-- `ORDER BY ts ASC LIMIT :limit`. -/
def Selects (db : HistoricalCandles) (q : JobRange) (rows : List Row) : Prop :=
  Answers tsOf (inRange db q) q.limit rows

/-- The floats of a row; `_load_candles` returns those of the selected rows. -/
def toCandle (r : Row) : Candle :=
  ⟨tsOf r, r.2.opening, r.2.high, r.2.low, r.2.close, r.2.volume⟩

/-- The rows of a timeframe in the range. -/
def ofTimeframe (db : HistoricalCandles) (q : JobRange) (timeframe : Text) : List Row :=
  (inRange db q).filter fun r => decide (timeframeOf r = timeframe)

/-! ## One recent series -/

section Purpose

variable (db : HistoricalCandles) (q : JobRange)

/-- Candles of the range in one timeframe with strictly increasing times; if the range holds more
of them than the limit, the most recent ones up to the limit. -/
structure OneRecentSeries (rows : List Row) : Prop where
  increasing : (rows.map toCandle).Pairwise fun a b => a.ts < b.ts
  inside : ∀ r ∈ rows, r ∈ inRange db q
  recent : ∃ timeframe, (∀ r ∈ rows, timeframeOf r = timeframe) ∧
    (q.limit < (ofTimeframe db q timeframe).length →
      rows.length = q.limit ∧
        ∀ x ∈ ofTimeframe db q timeframe, x ∉ rows → ∀ r ∈ rows, tsOf x < tsOf r)

/-- Whatever the query answers is the most recent series of one timeframe. -/
def LoadsRecentSeries : Prop :=
  ∀ rows, Selects db q rows → OneRecentSeries db q rows

/-- The rows that fewer than the limit precede belong to timeframes that do not exceed the limit;
if the limit is more than one, they belong to one timeframe. -/
structure LeadingAlone : Prop where
  few : ∀ r, Leading tsOf (inRange db q) q.limit r →
    (ofTimeframe db q (timeframeOf r)).length ≤ q.limit
  same : 1 < q.limit → ∀ r r', Leading tsOf (inRange db q) q.limit r →
    Leading tsOf (inRange db q) q.limit r' → timeframeOf r = timeframeOf r'

end Purpose

section Series

variable {db : HistoricalCandles} {q : JobRange} {rows : List Row} {r r' : Row}

/-- A row of the range is known by its timeframe and time. -/
theorem eq_of_timeframe_of_ts (hr : r ∈ inRange db q) (hr' : r' ∈ inRange db q)
    (htimeframe : timeframeOf r = timeframeOf r') (hts : tsOf r = tsOf r') : r = r' := by
  rcases List.mem_filter.mp hr with ⟨hmem, hcond⟩
  rcases List.mem_filter.mp hr' with ⟨hmem', hcond'⟩
  have hsymbol : symbolOf r = symbolOf r' := by
    simp only [JobRange.conditions, Bool.and_eq_true, decide_eq_true_eq] at hcond hcond'
    exact hcond.1.1.trans hcond'.1.1.symm
  have hkey : r.1 = r'.1 := Prod.ext hsymbol (Prod.ext htimeframe hts)
  exact List.inj_on_of_nodup_map db.unique hmem hmem' hkey

/-- No row is listed twice. -/
theorem nodup_ofTimeframe (timeframe : Text) : (ofTimeframe db q timeframe).Nodup :=
  ((List.Nodup.of_map Prod.fst db.unique).filter _).filter _

/-- A leading row is selected by some answer, together with the rows before it. -/
theorem exists_selects (hr : Leading tsOf (inRange db q) q.limit r) :
    ∃ rows, Selects db q rows ∧ r ∈ rows ∧
      ∀ e ∈ inRange db q, tsOf e < tsOf r → e ∈ rows := by
  have hblock : ∀ a ∈ [r], tsOf a = tsOf r := by simp
  rcases exists_answer (List.perm_cons_erase hr.1) hblock hr.2 with ⟨rows, hrows, hmem, hearlier⟩
  exact ⟨rows, hrows, hmem r List.mem_cons_self, hearlier⟩

/-- Rows of one answer are of one timeframe. -/
theorem LoadsRecentSeries.timeframe_eq (h : LoadsRecentSeries db q) (hrows : Selects db q rows)
    (hr : r ∈ rows) (hr' : r' ∈ rows) : timeframeOf r = timeframeOf r' := by
  rcases (h rows hrows).recent with ⟨timeframe, hall, -⟩
  rw [hall r hr, hall r' hr']

/-- Leading rows belong to timeframes that do not exceed the limit. -/
theorem LoadsRecentSeries.few (h : LoadsRecentSeries db q)
    (hr : Leading tsOf (inRange db q) q.limit r) :
    (ofTimeframe db q (timeframeOf r)).length ≤ q.limit := by
  rcases exists_selects hr with ⟨rows, hrows, hmem, -⟩
  rcases (h rows hrows).recent with ⟨timeframe, hall, hrecent⟩
  rw [hall r hmem]
  by_contra hmany
  rcases hrecent (not_le.mp hmany) with ⟨hlength, holder⟩
  have hleft : ∃ x ∈ ofTimeframe db q timeframe, x ∉ rows := by
    by_contra hnone
    push Not at hnone
    have hle := ((nodup_ofTimeframe timeframe).subperm hnone).length_le
    omega
  rcases hleft with ⟨x, hx, hout⟩
  have hlt := holder x hx hout r hmem
  have hle := hrows.le_of_left_out (List.mem_of_mem_filter hx) hout r hmem
  omega

/-- A leading row and one before it are of one timeframe. -/
theorem LoadsRecentSeries.same_of_lt (h : LoadsRecentSeries db q) (hr : r ∈ inRange db q)
    (hr' : Leading tsOf (inRange db q) q.limit r') (hlt : tsOf r < tsOf r') :
    timeframeOf r = timeframeOf r' := by
  rcases exists_selects hr' with ⟨rows, hrows, hmem, hearlier⟩
  exact h.timeframe_eq hrows (hearlier r hr hlt) hmem

/-- Leading rows of one time are of one timeframe, if there is room for two rows. -/
theorem LoadsRecentSeries.same_of_eq (h : LoadsRecentSeries db q) (hlimit : 1 < q.limit)
    (hr : Leading tsOf (inRange db q) q.limit r) (hr' : Leading tsOf (inRange db q) q.limit r')
    (hts : tsOf r = tsOf r') : timeframeOf r = timeframeOf r' := by
  by_cases heq : r = r'
  · rw [heq]
  · rcases Nat.eq_zero_or_pos (earlier tsOf (inRange db q) (tsOf r)).length with hzero | hpos
    · -- nothing is before the two rows, so that both fit in
      have hperm : (inRange db q).Perm ([r, r'] ++ ((inRange db q).erase r).erase r') := by
        have hmem : r' ∈ (inRange db q).erase r :=
          (List.mem_erase_of_ne fun h => heq h.symm).mpr hr'.1
        exact (List.perm_cons_erase hr.1).trans ((List.perm_cons_erase hmem).cons r)
      have hblock : ∀ a ∈ [r, r'], tsOf a = tsOf r := by simp [hts]
      have hfits : (earlier tsOf (inRange db q) (tsOf r)).length + [r, r'].length ≤ q.limit := by
        rw [hzero, Nat.zero_add]
        exact hlimit
      rcases exists_answer hperm hblock hfits with ⟨rows, hrows, hmem, -⟩
      exact h.timeframe_eq hrows (hmem r (by simp)) (hmem r' (by simp))
    · -- a row before both ties them together
      rcases List.exists_mem_of_length_pos hpos with ⟨e, he⟩
      rcases List.mem_filter.mp he with ⟨hmem, hbefore⟩
      have hlt : tsOf e < tsOf r := of_decide_eq_true hbefore
      rw [← h.same_of_lt hmem hr hlt, h.same_of_lt hmem hr' (hts ▸ hlt)]

/-- What the answers say about the rows at their front. -/
theorem LoadsRecentSeries.leadingAlone (h : LoadsRecentSeries db q) : LeadingAlone db q := by
  refine ⟨fun r hr => h.few hr, fun hlimit r r' hr hr' => ?_⟩
  rcases lt_trichotomy (tsOf r) (tsOf r') with hlt | heq | hlt
  · exact h.same_of_lt hr.1 hr' hlt
  · exact h.same_of_eq hlimit hr hr' heq
  · exact (h.same_of_lt hr'.1 hr hlt).symm

/-- Answered rows are of one timeframe. -/
theorem LeadingAlone.timeframe_eq (h : LeadingAlone db q) (hrows : Selects db q rows)
    (hr : r ∈ rows) (hr' : r' ∈ rows) : timeframeOf r = timeframeOf r' := by
  by_cases hlimit : 1 < q.limit
  · exact h.same hlimit r r' (hrows.mem_leading hr) (hrows.mem_leading hr')
  · have hlength : rows.length ≤ 1 := by
      rw [hrows.length]
      omega
    match rows, hlength with
    | [], _ => cases hr
    | [a], _ => rw [List.mem_singleton.mp hr, List.mem_singleton.mp hr']

/-- Answered rows are in strict order. -/
theorem LeadingAlone.increasing (h : LeadingAlone db q) (hrows : Selects db q rows) :
    (rows.map toCandle).Pairwise fun a b => a.ts < b.ts := by
  have hnodup : rows.Nodup := by
    rcases hrows with ⟨sorted, hperm, -, rfl⟩
    have hall : (inRange db q).Nodup := (List.Nodup.of_map Prod.fst db.unique).filter _
    exact (hperm.nodup_iff.mpr hall).sublist (List.take_sublist _ _)
  rw [List.pairwise_map]
  refine (hrows.pairwise.and hnodup).imp_of_mem fun ha hb hab => ?_
  refine lt_of_le_of_ne hab.1 fun hts => hab.2 ?_
  exact eq_of_timeframe_of_ts (hrows.subset ha) (hrows.subset hb) (h.timeframe_eq hrows ha hb) hts

/-- Every answer is the most recent series of one timeframe exactly if the rows at the front of
the range are alone. -/
theorem loadsRecentSeries_iff (db : HistoricalCandles) (q : JobRange) :
    LoadsRecentSeries db q ↔ LeadingAlone db q := by
  refine ⟨fun h => h.leadingAlone, fun h rows hrows => ?_⟩
  refine ⟨h.increasing hrows, fun r hr => hrows.subset hr, ?_⟩
  cases hcases : rows with
  | nil =>
      refine ⟨[], by simp, fun hmany => ⟨?_, by simp⟩⟩
      have hlength := hrows.length
      have hle : (ofTimeframe db q []).length ≤ (inRange db q).length :=
        List.length_filter_le _ _
      rw [hcases, List.length_nil] at hlength
      rw [List.length_nil]
      omega
  | cons first rest =>
      rw [← hcases]
      have hfirst : first ∈ rows := hcases ▸ List.mem_cons_self
      refine ⟨timeframeOf first, fun r hr => h.timeframe_eq hrows hr hfirst, fun hmany => ?_⟩
      exact absurd (h.few first (hrows.mem_leading hfirst)) hmany.not_ge

end Series

/-! ## The first two of three hours -/

/-- An hourly candle. -/
def hourly (ts : ℤ) : Row :=
  (("BTC/USDT".toList, "1h".toList, ts), ⟨100, 100, 100, 100, 1⟩)

/-- Three hours of BTC. -/
def threeHours : HistoricalCandles where
  table := [hourly 0, hourly 3600000, hourly 7200000]
  unique := by decide

/-- With a limit of two the first two hours are loaded. -/
theorem loads_first_hours :
    ¬ LoadsRecentSeries threeHours ⟨"BTC/USDT".toList, 2, none, none⟩ := by
  intro h
  have hselects : Selects threeHours ⟨"BTC/USDT".toList, 2, none, none⟩
      [hourly 0, hourly 3600000] :=
    ⟨[hourly 0, hourly 3600000, hourly 7200000], by decide +kernel, by decide +kernel, rfl⟩
  rcases (h _ hselects).recent with ⟨timeframe, hall, hrecent⟩
  obtain rfl : "1h".toList = timeframe := hall (hourly 0) (by decide +kernel)
  have hlast := (hrecent (by decide +kernel)).2 (hourly 7200000) (by decide +kernel)
    (by decide +kernel) (hourly 0) (by decide +kernel)
  exact absurd hlast (by decide)

end CandleLoading
end Karsa
