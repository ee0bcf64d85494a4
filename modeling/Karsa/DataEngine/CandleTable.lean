import Karsa.DataEngine.CandlePolls
import Karsa.DataEngine.CandleWire

/-!
# Data engine - The table of historical candles

For every exchange `_poll_and_publish` fetches the last ten candles of a symbol, the last stored
one included, publishes them and writes them with `bulk_upsert` into `historical_candles`.  The
exchanges share the key of a row, and a row that is there stays.

A candle's number is a rational, its timestamp a number of milliseconds; the columns of the
prices are `NUMERIC(20,8)`.  The rows of earlier writers are whatever the table starts with.

Main results:

- Theorem `get_bulkUpsert`: what a batch leaves under a key.
- Theorem `Seen.step`: what is recent and older than the last stored candle was seen closed.
- Theorem `stored_throughout_iff`: the runs in which every candle seen since it closed has a row
  with its final numbers.
-/

namespace Karsa
namespace CandleTable

open CandlePolls (Market limit)
open CandleWire (Prices)
open MarketFeed (Candle)

/-! ## Rows -/

/-- The numbers of a candle. -/
def prices (c : Candle) : Prices ℚ :=
  ⟨c.opening, c.high, c.low, c.close, c.volume⟩

/-- The nearest integer, halves away from zero. -/
def roundHalfAway (x : ℚ) : ℤ :=
  if 0 ≤ x then ⌊x + 1 / 2⌋ else -⌊-x + 1 / 2⌋

/-- What a column `NUMERIC(20,8)` makes of a number; `none` is an overflow. -/
def column (x : ℚ) : Option ℚ :=
  let rounded : ℚ := roundHalfAway (x * 10 ^ 8) / 10 ^ 8
  if |rounded| < 10 ^ 12 then some rounded else none

/-- `UNIQUE(symbol, timeframe, ts)`. -/
abbrev RowKey := Text × Text × ℤ

/-- `historical_candles`, its rows under their keys. -/
abbrev Table := Dict RowKey (Prices ℚ)

/-- `_candle_to_row` and the columns `VARCHAR(30)`, `VARCHAR(10)` and `NUMERIC(20,8)`; `none` is
a row that the table refuses. -/
def candleToRow (symbol timeframe : Text) (c : Candle) : Option (RowKey × Prices ℚ) :=
  if symbol.length ≤ 30 ∧ timeframe.length ≤ 10 then
    ((prices c).convert column).map fun values => ((symbol, timeframe, c.ts), values)
  else none

/-- `conn.executemany(_INSERT_SQL, rows)`, all rows or none; `none` is an exception. -/
def executemany (rows : List (Option (RowKey × Prices ℚ))) (t : Table) : Option Table :=
  if rows.all Option.isSome then
    some (rows.reduceOption.foldl (fun t row => t.insertNew row.1 row.2) t)
  else none

/-- `_BATCH_SIZE`. -/
def batchSize : ℕ := 500

/-- `candles[i : i + batch_size]` for `i in range(0, len(candles), batch_size)`. -/
def batches (candles : List Candle) : List (List Candle) :=
  (List.range ((candles.length + batchSize - 1) / batchSize)).map fun i =>
    (candles.drop (i * batchSize)).take batchSize

/-- The loop of `bulk_upsert`: what the table holds, and whether all batches went through. -/
def upsertBatches (symbol timeframe : Text) : List (List Candle) → Table → Table × Bool
  | [], t => (t, true)
  | batch :: rest, t =>
      match executemany (batch.map (candleToRow symbol timeframe)) t with
      | none => (t, false)
      | some t' => upsertBatches symbol timeframe rest t'

/-- `bulk_upsert`. -/
def bulkUpsert (symbol timeframe : Text) (candles : List Candle) (t : Table) : Table × Bool :=
  upsertBatches symbol timeframe (batches candles) t

/-- The table takes every row of a batch. -/
def Accepted (symbol timeframe : Text) (candles : List Candle) : Prop :=
  ∀ c ∈ candles, (candleToRow symbol timeframe c).isSome = true

instance (symbol timeframe : Text) (candles : List Candle) :
    Decidable (Accepted symbol timeframe candles) :=
  inferInstanceAs (Decidable (∀ c ∈ candles, _))

variable {symbol timeframe : Text}

/-- Few candles are one batch. -/
theorem batches_of_length_le {candles : List Candle} (hpos : candles ≠ [])
    (hle : candles.length ≤ batchSize) : batches candles = [candles] := by
  have hlength : 0 < candles.length := List.length_pos_iff.mpr hpos
  have hone : (candles.length + batchSize - 1) / batchSize = 1 := by
    unfold batchSize at hle ⊢
    omega
  rw [batches, hone]
  simp [List.take_of_length_le hle]

/-- Few candles go through exactly if the table takes their rows. -/
theorem bulkUpsert_of_length_le (candles : List Candle) (hle : candles.length ≤ batchSize)
    (t : Table) :
    bulkUpsert symbol timeframe candles t =
      if Accepted symbol timeframe candles then
        ((candles.filterMap (candleToRow symbol timeframe)).foldl
          (fun t row => t.insertNew row.1 row.2) t, true)
      else (t, false) := by
  by_cases hnil : candles = []
  · subst hnil
    rfl
  · have hall : ((candles.map (candleToRow symbol timeframe)).all Option.isSome) = true ↔
        Accepted symbol timeframe candles := by
      simp [Accepted]
    rw [bulkUpsert, batches_of_length_le hnil hle, upsertBatches, executemany]
    have hreduce : (candles.map (candleToRow symbol timeframe)).reduceOption =
        candles.filterMap (candleToRow symbol timeframe) :=
      List.filterMap_map
    by_cases haccepted : Accepted symbol timeframe candles
    · rw [if_pos (hall.mpr haccepted), if_pos haccepted, hreduce]
      rfl
    · rw [if_neg (fun h => haccepted (hall.mp h)), if_neg haccepted]

/-- A row stands under the timestamp of its candle. -/
theorem candleToRow_eq_some {c : Candle} {row : RowKey × Prices ℚ}
    (h : candleToRow symbol timeframe c = some row) :
    row.1 = (symbol, timeframe, c.ts) ∧ (prices c).convert column = some row.2 := by
  unfold candleToRow at h
  split_ifs at h
  rcases Option.map_eq_some_iff.mp h with ⟨values, hvalues, rfl⟩
  exact ⟨rfl, hvalues⟩

/-- The row of a candle among the rows of candles with other timestamps. -/
theorem get_rows {candles : List Candle} (hordered : candles.Pairwise fun a b => a.ts < b.ts)
    (haccepted : Accepted symbol timeframe candles) {c : Candle} (hc : c ∈ candles) :
    Dict.get (symbol, timeframe, c.ts) (candles.filterMap (candleToRow symbol timeframe)) =
      (prices c).convert column := by
  induction candles with
  | nil => cases hc
  | cons first rest ih =>
      rw [List.pairwise_cons] at hordered
      rcases Option.isSome_iff_exists.mp (haccepted first List.mem_cons_self) with ⟨row, hrow⟩
      rcases candleToRow_eq_some hrow with ⟨hkey, hvalues⟩
      rw [List.filterMap_cons_some hrow, Dict.get, hkey]
      rcases List.mem_cons.mp hc with rfl | hrest
      · rw [if_pos rfl, hvalues]
      · have hlt := hordered.1 c hrest
        have hne : (symbol, timeframe, first.ts) ≠ (symbol, timeframe, c.ts) := by
          intro heq
          have hts : first.ts = c.ts := congrArg (fun key : RowKey => key.2.2) heq
          omega
        rw [if_neg hne]
        exact ih hordered.2 (fun d hd => haccepted d (List.mem_cons_of_mem first hd)) hrest

/-- What a batch leaves under the key of one of its candles: the row that was there, or else the
row of the candle. -/
theorem get_bulkUpsert {candles : List Candle} (hle : candles.length ≤ batchSize)
    (hordered : candles.Pairwise fun a b => a.ts < b.ts) {c : Candle} (hc : c ∈ candles)
    (t : Table) :
    (bulkUpsert symbol timeframe candles t).1.get (symbol, timeframe, c.ts) =
      (t.get (symbol, timeframe, c.ts)).or
        (if Accepted symbol timeframe candles then (prices c).convert column else none) := by
  rw [bulkUpsert_of_length_le candles hle]
  split_ifs with haccepted
  · rw [Dict.get_foldl_insertNew, get_rows hordered haccepted hc]
  · rw [Option.or_none]

/-- A row that is there stays. -/
theorem get_bulkUpsert_of_some {candles : List Candle} (hle : candles.length ≤ batchSize)
    {t : Table} {key : RowKey} {values : Prices ℚ} (h : t.get key = some values) :
    (bulkUpsert symbol timeframe candles t).1.get key = some values := by
  rw [bulkUpsert_of_length_le candles hle]
  split_ifs
  · rw [Dict.get_foldl_insertNew, h]
    rfl
  · exact h

/-! ## Polls -/

/-- The candles from the last timestamp on. -/
def newCandles (lastTs : Option ℤ) (candles : List Candle) : List Candle :=
  candles.filter fun c => lastTs.all fun t => decide (t ≤ c.ts)

/-- How a poll ends: without candles, in an exception before the table is reached, or at the
table. -/
inductive Outcome where
  | unanswered
  | failed
  | written
deriving Repr, DecidableEq

/-- An exchange shows a version of a candle, or is polled. -/
inductive Event where
  | tick (exchange : Text) (candle : Candle)
  | poll (exchange : Text) (outcome : Outcome)
deriving Repr, DecidableEq

/-- The exchanges, `last_ts` of their loops, the table, and the candles of every exchange that
polls have seen since they closed. -/
structure World where
  market : Text → Market
  lastTs : Text → Option ℤ
  table : Table
  seen : Text → List Candle

/-- The loops start over a table. -/
def start (table : Table) : World :=
  ⟨fun _ => LiveSeries.empty, fun _ => none, table, fun _ => []⟩

/-- The batch that a poll of an exchange writes. -/
def World.batch (w : World) (exchange : Text) : List Candle :=
  newCandles (w.lastTs exchange) ((w.market exchange).recent limit)

/-- The closed candles of the reply to a poll. -/
def World.closedReply (w : World) (exchange : Text) : List Candle :=
  ((w.market exchange).recent limit).dropLast

section Loops

variable (symbol timeframe : Text)

/-- One turn of the loop of an exchange; an exception of the table leaves `last_ts`. -/
def World.write (w : World) (exchange : Text) : World :=
  match (w.batch exchange).getLast? with
  | none => w
  | some last =>
      match bulkUpsert symbol timeframe (w.batch exchange) w.table with
      | (table, false) => { w with table := table }
      | (table, true) =>
          { w with table := table, lastTs := Function.update w.lastTs exchange (some last.ts) }

/-- An event. -/
def step (w : World) : Event → World
  | .tick exchange candle =>
      { w with
        market := Function.update w.market exchange ((w.market exchange).observe candle) }
  | .poll _ .unanswered | .poll _ .failed => w
  | .poll exchange .written =>
      { w.write symbol timeframe exchange with
        seen := Function.update w.seen exchange (w.seen exchange ++ w.closedReply exchange) }

/-- Every closed candle that a poll has seen since it closed has a row with its numbers. -/
def Stored (w : World) : Prop :=
  ∀ exchange, ∀ c ∈ w.seen exchange, c ∈ (w.market exchange).closed →
    w.table.get (symbol, timeframe, c.ts) = some (prices c)

/-- A poll that sees a closed candle finds its numbers in the row of its key, or no row and a
table whose columns take the batch and hold the numbers exactly. -/
def Kept (w : World) : Event → Prop
  | .poll exchange .written => ∀ c ∈ w.closedReply exchange,
      match w.table.get (symbol, timeframe, c.ts) with
      | some values => values = prices c
      | none => Accepted symbol timeframe (w.batch exchange) ∧
          (prices c).convert column = some (prices c)
  | .tick _ _ | .poll _ .unanswered | .poll _ .failed => True

end Loops

/-- What holds of the loops in every run. -/
structure Seen (w : World) : Prop where
  closed : ∀ exchange, ∀ c ∈ w.seen exchange, c ∈ (w.market exchange).closed
  lastTs : ∀ exchange, ∀ t ∈ w.lastTs exchange, ∃ c ∈ (w.market exchange).items, c.ts = t
  older : ∀ exchange, ∀ t ∈ w.lastTs exchange, ∀ c ∈ (w.market exchange).recent limit,
    c.ts < t → c ∈ w.seen exchange

variable {w : World}

/-- The candles of a batch are few and in order. -/
theorem batch_small (w : World) (exchange : Text) :
    (w.batch exchange).length ≤ batchSize ∧
      (w.batch exchange).Pairwise fun a b => a.ts < b.ts := by
  refine ⟨?_, ((w.market exchange).ordered_recent limit).sublist List.filter_sublist⟩
  have hfilter : (w.batch exchange).length ≤ ((w.market exchange).recent limit).length :=
    List.length_filter_le _ _
  rw [LiveSeries.recent, List.length_drop] at hfilter
  unfold limit at hfilter
  unfold batchSize
  omega

/-- Closed candles of a reply are recent and closed. -/
theorem mem_closedReply {exchange : Text} {c : Candle} (hc : c ∈ w.closedReply exchange) :
    c ∈ (w.market exchange).recent limit ∧ c ∈ (w.market exchange).closed := by
  have hrecent : c ∈ (w.market exchange).recent limit := List.dropLast_subset _ hc
  refine ⟨hrecent, (w.market exchange).mem_closed_iff.mpr
    ⟨LiveSeries.mem_of_mem_recent hrecent, ?_⟩⟩
  have hordered := (w.market exchange).ordered_recent limit
  cases hlast : ((w.market exchange).recent limit).getLast? with
  | none =>
      rw [List.getLast?_eq_none_iff.mp hlast] at hrecent
      cases hrecent
  | some last =>
      rw [← List.dropLast_append_getLast? last hlast, List.pairwise_append] at hordered
      exact ⟨last, LiveSeries.mem_of_mem_recent (List.mem_of_getLast? hlast),
        hordered.2.2 c hc last List.mem_cons_self⟩

/-- What a turn of the loop does: the table takes the batch, and `last_ts` moves on to the
newest candle of the reply if it does. -/
theorem write_spec (symbol timeframe : Text) (w : World) (exchange : Text) :
    (w.write symbol timeframe exchange).market = w.market ∧
      (w.write symbol timeframe exchange).table =
        (bulkUpsert symbol timeframe (w.batch exchange) w.table).1 ∧
      ((w.write symbol timeframe exchange).lastTs = w.lastTs ∨
        ∃ last, (w.batch exchange).getLast? = some last ∧
          (w.write symbol timeframe exchange).lastTs =
            Function.update w.lastTs exchange (some last.ts)) := by
  unfold World.write
  split
  · rename_i hnone
    refine ⟨rfl, ?_, Or.inl rfl⟩
    rw [List.getLast?_eq_none_iff.mp hnone]
    rfl
  · rename_i last hlast
    split
    · rename_i table hupsert
      exact ⟨rfl, by rw [hupsert], Or.inl rfl⟩
    · rename_i table hupsert
      exact ⟨rfl, by rw [hupsert], Or.inr ⟨last, hlast, rfl⟩⟩

/-- The newest candle of a batch is the newest of the reply. -/
theorem getLast?_batch {exchange : Text} {last : Candle}
    (hlast : (w.batch exchange).getLast? = some last) :
    ((w.market exchange).recent limit).getLast? = some last := by
  have hmem := List.mem_of_getLast? hlast
  rw [World.batch, newCandles, List.mem_filter] at hmem
  have hordered := (w.market exchange).ordered_recent limit
  cases hnewest : ((w.market exchange).recent limit).getLast? with
  | none =>
      rw [List.getLast?_eq_none_iff.mp hnewest] at hmem
      cases hmem.1
  | some newest =>
      -- The newest candle passes the filter as `last` does, so it is the last to pass.
      have hle : last.ts ≤ newest.ts :=
        LiveSeries.stamp_le_last ⟨_, hordered⟩ hmem.1 hnewest
      have hbatch : newest ∈ w.batch exchange := by
        refine List.mem_filter.mpr ⟨List.mem_of_getLast? hnewest, ?_⟩
        cases hts : w.lastTs exchange with
        | none => rfl
        | some t =>
            have ht : t ≤ last.ts := by simpa [hts] using hmem.2
            exact decide_eq_true (le_trans ht hle)
      have hge : newest.ts ≤ last.ts :=
        LiveSeries.stamp_le_last ⟨_, (batch_small w exchange).2⟩ hbatch hlast
      rw [LiveSeries.eq_of_stamp_eq ⟨_, hordered⟩ hmem.1 (List.mem_of_getLast? hnewest)
        (le_antisymm hle hge)]

/-- A new candle is seen, and may close the one before. -/
theorem Seen.tick (h : Seen w) (exchange : Text) (candle : Candle) :
    Seen (step symbol timeframe w (.tick exchange candle)) := by
  refine ⟨fun other c hc => ?_, fun other t ht => ?_, fun other t ht c hc hlt => ?_⟩
  · have hold := h.closed other c hc
    dsimp only [CandleTable.step]
    by_cases hother : other = exchange
    · rw [hother] at hold ⊢
      rw [Function.update_self]
      exact (LiveSeries.closed_observe candle _).subset hold
    · rwa [Function.update_of_ne hother]
  · have hold := h.lastTs other t ht
    dsimp only [CandleTable.step]
    by_cases hother : other = exchange
    · rw [hother] at hold ⊢
      rw [Function.update_self]
      rcases hold with ⟨c, hc, hts⟩
      rcases LiveSeries.exists_mem_observe hc candle with ⟨x, hx, hxts⟩
      exact ⟨x, hx, hxts.trans hts⟩
    · rwa [Function.update_of_ne hother]
  · dsimp only [CandleTable.step] at hc ht ⊢
    by_cases hother : other = exchange
    · rw [hother, Function.update_self] at hc
      rw [hother] at ht ⊢
      rcases h.lastTs exchange t ht with ⟨x, hx, hxts⟩
      rcases LiveSeries.mem_recent_observe hc with hrecent | ⟨rfl, hlate⟩
      · exact h.older exchange t ht c hrecent hlt
      · have hle : x.ts ≤ c.ts := hlate x hx
        omega
    · rw [Function.update_of_ne hother] at hc
      exact h.older other t ht c hc hlt

/-- A poll that reaches the table moves the last stored candle to the newest of its reply. -/
theorem Seen.written (h : Seen w) (exchange : Text) :
    Seen (step symbol timeframe w (.poll exchange .written)) := by
  rcases write_spec symbol timeframe w exchange with
    ⟨hmarket, -, hlastTs⟩
  refine ⟨fun other c hc => ?_, fun other t ht => ?_, fun other t ht c hc hlt => ?_⟩
  · dsimp only [CandleTable.step] at hc ⊢
    rw [hmarket]
    by_cases hother : other = exchange
    · rw [hother, Function.update_self, List.mem_append] at hc
      rw [hother]
      rcases hc with hold | hnew
      · exact h.closed exchange c hold
      · exact (mem_closedReply hnew).2
    · rw [Function.update_of_ne hother] at hc
      exact h.closed other c hc
  · dsimp only [CandleTable.step] at ht ⊢
    rw [hmarket]
    rcases hlastTs with hsame | ⟨last, hlast, hmoved⟩
    · rw [hsame] at ht
      exact h.lastTs other t ht
    · rw [hmoved] at ht
      by_cases hother : other = exchange
      · rw [hother, Function.update_self] at ht
        rw [hother]
        have hmem := List.mem_of_getLast? (getLast?_batch hlast)
        exact ⟨last, LiveSeries.mem_of_mem_recent hmem,
          Option.some.inj ht⟩
      · rw [Function.update_of_ne hother] at ht
        exact h.lastTs other t ht
  · dsimp only [CandleTable.step] at ht hc ⊢
    rw [hmarket] at hc
    by_cases hother : other = exchange
    · rw [hother] at ht hc ⊢
      rw [Function.update_self]
      rcases hlastTs with hsame | ⟨last, hlast, hmoved⟩
      · rw [hsame] at ht
        exact List.mem_append_left _ (h.older exchange t ht c hc hlt)
      · -- What is recent and older than the newest candle of the reply is closed in it.
        rw [hmoved, Function.update_self] at ht
        have hts : last.ts = t := Option.some.inj ht
        rw [← List.dropLast_append_getLast? last (getLast?_batch hlast)] at hc
        rcases List.mem_append.mp hc with hclosed | hnewest
        · exact List.mem_append_right _ hclosed
        · rw [List.mem_singleton.mp hnewest] at hlt
          omega
    · rw [Function.update_of_ne hother]
      rcases hlastTs with hsame | ⟨last, hlast, hmoved⟩
      · rw [hsame] at ht
        exact h.older other t ht c hc hlt
      · rw [hmoved, Function.update_of_ne hother] at ht
        exact h.older other t ht c hc hlt

/-- What is recent and older than the last stored candle was seen closed. -/
theorem Seen.step (h : Seen w) (e : Event) : Seen (step symbol timeframe w e) := by
  cases e with
  | tick exchange candle => exact h.tick exchange candle
  | poll exchange outcome =>
      cases outcome with
      | unanswered => exact h
      | failed => exact h
      | written => exact h.written exchange

/-! ## Stored numbers -/

/-- What a poll leaves under the key of a closed candle of its reply. -/
theorem get_bulkUpsert_closedReply_iff (h : Seen w) (hw : Stored symbol timeframe w)
    {exchange : Text} {c : Candle} (hc : c ∈ w.closedReply exchange) :
    (bulkUpsert symbol timeframe (w.batch exchange) w.table).1.get (symbol, timeframe, c.ts) =
        some (prices c) ↔
      match w.table.get (symbol, timeframe, c.ts) with
      | some values => values = prices c
      | none => Accepted symbol timeframe (w.batch exchange) ∧
          (prices c).convert column = some (prices c) := by
  rcases batch_small w exchange with ⟨hsmall, hordered⟩
  cases hget : w.table.get (symbol, timeframe, c.ts) with
  | some values =>
      rw [get_bulkUpsert_of_some hsmall hget]
      exact Option.some_inj
  | none =>
      have hbatch : c ∈ w.batch exchange := by
        refine List.mem_filter.mpr ⟨(mem_closedReply hc).1, ?_⟩
        cases hts : w.lastTs exchange with
        | none => rfl
        | some t =>
            refine decide_eq_true (not_lt.mp fun hlt => ?_)
            have hseen := h.older exchange t hts c (mem_closedReply hc).1 hlt
            have hstored := hw exchange c hseen (mem_closedReply hc).2
            rw [hget] at hstored
            cases hstored
      rw [get_bulkUpsert hsmall hordered hbatch, hget, Option.none_or]
      split_ifs with haccepted
      · simp [haccepted]
      · simp [haccepted]

/-- A poll that reaches the table keeps the promise exactly under its condition. -/
theorem stored_poll_iff (h : Seen w) (hw : Stored symbol timeframe w) (exchange : Text) :
    Stored symbol timeframe (step symbol timeframe w (.poll exchange .written)) ↔
      Kept symbol timeframe w (.poll exchange .written) := by
  rcases write_spec symbol timeframe w exchange with
    ⟨hmarket, htable, -⟩
  have hsmall := (batch_small w exchange).1
  constructor
  · intro hnext c hc
    refine (get_bulkUpsert_closedReply_iff h hw hc).mp ?_
    rw [← htable]
    refine hnext exchange c ?_ ?_
    · dsimp only [step]
      rw [Function.update_self]
      exact List.mem_append_right _ hc
    · dsimp only [step]
      rw [hmarket]
      exact (mem_closedReply hc).2
  · intro hkept other c hseen hclosed
    dsimp only [step] at hseen hclosed ⊢
    rw [hmarket] at hclosed
    rw [htable]
    by_cases hnew : other = exchange ∧ c ∈ w.closedReply exchange
    · exact (get_bulkUpsert_closedReply_iff h hw hnew.2).mpr (hkept c hnew.2)
    · have hold : c ∈ w.seen other := by
        by_cases hother : other = exchange
        · rw [hother, Function.update_self, List.mem_append] at hseen
          rw [hother]
          exact hseen.resolve_right fun hc => hnew ⟨hother, hc⟩
        · rwa [Function.update_of_ne hother] at hseen
      exact get_bulkUpsert_of_some hsmall (hw other c hold hclosed)

/-- An event keeps the promise exactly under its condition. -/
theorem stored_step_iff (h : Seen w) (hw : Stored symbol timeframe w) (e : Event) :
    Stored symbol timeframe (step symbol timeframe w e) ↔ Kept symbol timeframe w e := by
  cases e with
  | tick exchange candle =>
      refine iff_of_true (fun other c hseen _ => ?_) trivial
      exact hw other c hseen (h.closed other c hseen)
  | poll exchange outcome =>
      cases outcome with
      | unanswered => exact iff_of_true hw trivial
      | failed => exact iff_of_true hw trivial
      | written => exact stored_poll_iff h hw exchange

/-- Every closed candle that a poll has seen since it closed has a row with its final numbers
exactly in the runs in which no such poll finds other numbers under its key, a batch that the
table refuses, or numbers that the columns do not hold. -/
theorem stored_throughout_iff (symbol timeframe : Text) (table : Table) (events : List Event) :
    (∀ n, Stored symbol timeframe
        (run (step symbol timeframe) (start table) (events.take n))) ↔
      Admits (step symbol timeframe) (Kept symbol timeframe) (start table) events := by
  have hseen : Seen (start table) := ⟨by simp [start], by simp [start], by simp [start]⟩
  exact invariant_iff_admits_beside Seen (Stored symbol timeframe) (fun _ e hw => hw.step e)
    (fun _ e hw hstored => stored_step_iff hw hstored e) hseen (by simp [Stored, start])

/-- A candle is polled while it forms, rises, and is polled again behind its close. -/
def polledTwice : List Event :=
  [.tick "binance".toList ⟨0, 100, 101, 99, 100, 5⟩, .poll "binance".toList .written,
    .tick "binance".toList ⟨0, 100, 110, 99, 110, 50⟩,
    .tick "binance".toList ⟨3600000, 110, 110, 110, 110, 1⟩, .poll "binance".toList .written]

/-- Its row holds the numbers of its first minute. -/
theorem forming_row_kept :
    ¬ Stored "BTC/USDT".toList "1h".toList
      (run (step "BTC/USDT".toList "1h".toList) (start []) polledTwice) := by
  intro h
  have hrow := h "binance".toList ⟨0, 100, 110, 99, 110, 50⟩ (by decide +kernel) (by decide +kernel)
  revert hrow
  decide +kernel

end CandleTable
end Karsa
