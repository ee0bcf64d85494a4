import Karsa.Foundations.Runs
import Karsa.Foundations.Text
import Mathlib.Algebra.Order.Field.Rat

/-!
# Market consumer - Candle buffers

`MarketConsumer` subscribes to the candle channels of all exchanges and timeframes and keeps
one buffer for each symbol.  A candle replaces the last one of the buffer if it has the same
timestamp; otherwise it goes to the end.  A message that is new on its channel hands the
whole buffer to `DecisionEngine.evaluate`.

The candles received are kept beside the buffers, so that a buffered candle can be compared
with what was received for its timestamp.

Main results:

- Theorem `CleanSeries.append`: a candle in order keeps a clean series clean.
- Theorem `evaluates_clean`: the runs in which every evaluated list is a clean series.
-/

namespace Karsa
namespace MarketFeed

/-! ## Candle buffers -/

/-- One OHLCV candle. -/
structure Candle where
  ts : ℤ
  opening : ℚ
  high : ℚ
  low : ℚ
  close : ℚ
  volume : ℚ
deriving Repr, DecidableEq

/-- `CandleBuffer.max_size`. -/
def maxSize : Nat := 200

/-- `CandleBuffer.append`: a candle replaces the last one of the same timestamp, and the
oldest leaves a full buffer. -/
def appendCandle (buffer : List Candle) (candle : Candle) : List Candle :=
  match buffer.getLast? with
  | some last =>
      if last.ts = candle.ts then buffer.dropLast ++ [candle]
      else (buffer ++ [candle]).drop (buffer.length + 1 - maxSize)
  | none => [candle]

/-- What the consumer keeps for a symbol: its buffer, and the last timestamp of each
channel by exchange and timeframe. -/
structure SymbolFeed where
  buffer : List Candle
  lastTs : Text × Text → ℤ

/-- A symbol that was never seen. -/
def SymbolFeed.empty : SymbolFeed := ⟨[], fun _ => 0⟩

/-- A candle message up to `on_candle`: whether the candle is new. -/
def SymbolFeed.receive (f : SymbolFeed) (channel : Text × Text) (candle : Candle) :
    SymbolFeed × Bool :=
  let buffer := appendCandle f.buffer candle
  if candle.ts ≤ f.lastTs channel then (⟨buffer, f.lastTs⟩, false)
  else (⟨buffer, Function.update f.lastTs channel candle.ts⟩, true)

/-! ## Messages -/

/-- `_CHANNEL_RE`: exchange, symbol and timeframe of a candle channel. -/
def parseChannel (channel : Text) : Option (Text × Text × Text) :=
  match channel.splitOn ':' with
  | [app, kind, exchange, symbol, timeframe] =>
      if app = "karsa".toList ∧ kind = "candles".toList ∧ exchange ≠ [] ∧ symbol ≠ [] ∧
          timeframe ≠ [] then
        some (exchange, symbol, timeframe)
      else none
  | _ => none

/-- `_normalize_symbol`. -/
def normalizeSymbol (raw : Text) : Text :=
  if '/' ∈ raw then raw
  else
    match ["USDT".toList, "USD".toList, "BTC".toList, "ETH".toList].find? fun quote =>
        quote.isSuffixOf raw && decide (quote.length < raw.length) with
    | some quote => raw.dropRight quote.length ++ '/' :: quote
    | none => raw

/-- A candle as it was received, with its exchange and timeframe. -/
structure Received where
  symbol : Text
  source : Text × Text
  candle : Candle
deriving Repr, DecidableEq

/-- The feeds of all symbols, and every candle received so far. -/
structure Consumer where
  feeds : Text → SymbolFeed
  received : List Received

namespace Consumer

/-- A consumer that has received nothing. -/
def start : Consumer :=
  ⟨fun _ => .empty, []⟩

/-- The buffer of a symbol. -/
def buffer (s : Consumer) (symbol : Text) : List Candle :=
  (s.feeds symbol).buffer

end Consumer

/-- The latest candle received for a symbol and a timestamp. -/
def latest (received : List Received) (symbol : Text) (ts : ℤ) : Option Received :=
  (received.filter fun r => decide (r.symbol = symbol ∧ r.candle.ts = ts)).getLast?

/-- A historical candle is loaded, a message arrives, or the connection is lost.  The payload
is `none` where decoding it fails. -/
inductive ConsumerInput where
  | prefill (source : Text × Text) (symbol : Text) (candle : Candle)
  | message (channel : Text) (payload : Option Candle)
  | reconnect
deriving Repr, DecidableEq

/-- The candle an input puts into a buffer. -/
def delivers : ConsumerInput → Option Received
  | .prefill source symbol candle => some ⟨symbol, source, candle⟩
  | .message channel payload =>
      (parseChannel channel).bind fun (exchange, raw, timeframe) =>
        payload.map fun candle => ⟨normalizeSymbol raw, (exchange, timeframe), candle⟩
  | .reconnect => none

/-- `_process_message` for a decoded candle: the consumer behind it, and what it passes to
`evaluate`. -/
def processMessage (s : Consumer) (r : Received) : Consumer × Option (Text × List Candle) :=
  let (feed, isNew) := (s.feeds r.symbol).receive r.source r.candle
  (⟨Function.update s.feeds r.symbol feed, s.received ++ [r]⟩,
    if isNew ∧ 50 ≤ feed.buffer.length then some (r.symbol, feed.buffer) else none)

/-- One input. -/
def step (s : Consumer) (input : ConsumerInput) : Consumer :=
  match input, delivers input with
  | .reconnect, _ => ⟨fun _ => .empty, s.received⟩
  | .prefill _ _ _, some r =>
      let f := s.feeds r.symbol
      ⟨Function.update s.feeds r.symbol ⟨appendCandle f.buffer r.candle, f.lastTs⟩,
        s.received ++ [r]⟩
  | .message _ _, some r => (processMessage s r).1
  | _, none => s

/-- The symbol and the candles an input passes to `DecisionEngine.evaluate`. -/
def evaluation (s : Consumer) : ConsumerInput → Option (Text × List Candle)
  | .message channel payload =>
      (delivers (.message channel payload)).bind fun r => (processMessage s r).2
  | .prefill _ _ _ | .reconnect => none

/-! ## Clean series -/

/-- A series as the engine should see it: timestamps strictly increase, every candle is the
latest version received, all come from one exchange and timeframe, and no more than
`max_size` are kept. -/
structure CleanSeries (received : List Received) (symbol : Text) (series : List Candle) :
    Prop where
  increasing : series.Pairwise fun a b => a.ts < b.ts
  oneSource : ∃ source, ∀ c ∈ series,
    latest received symbol c.ts = some ⟨symbol, source, c⟩
  bounded : series.length ≤ maxSize

/-- The last received candle is the latest of its timestamp. -/
theorem latest_append (received : List Received) (r : Received) (symbol : Text) (ts : ℤ) :
    latest (received ++ [r]) symbol ts =
      if r.symbol = symbol ∧ r.candle.ts = ts then some r else latest received symbol ts := by
  unfold latest
  by_cases hr : r.symbol = symbol ∧ r.candle.ts = ts
  · rw [List.filter_append]
    simp [hr]
  · rw [List.filter_append]
    simp [hr]

/-- No candles are a clean series. -/
theorem CleanSeries.nil (received : List Received) (symbol : Text) :
    CleanSeries received symbol [] :=
  ⟨List.Pairwise.nil, ⟨([], []), by simp⟩, by simp⟩

/-- Candles of other symbols do not matter. -/
theorem CleanSeries.of_ne {received : List Received} {symbol : Text} {series : List Candle}
    (h : CleanSeries received symbol series) {r : Received} (hne : r.symbol ≠ symbol) :
    CleanSeries (received ++ [r]) symbol series := by
  rcases h.oneSource with ⟨source, hsource⟩
  refine ⟨h.increasing, ⟨source, ?_⟩, h.bounded⟩
  intro c hc
  rw [latest_append, if_neg (by simp [hne])]
  exact hsource c hc

/-- The end of a clean series is clean. -/
theorem CleanSeries.drop {received : List Received} {symbol : Text} {series : List Candle}
    (hincreasing : series.Pairwise fun a b => a.ts < b.ts)
    (hsource : ∃ source, ∀ c ∈ series, latest received symbol c.ts = some ⟨symbol, source, c⟩) :
    CleanSeries received symbol (series.drop (series.length - maxSize)) := by
  rcases hsource with ⟨source, hsource⟩
  refine ⟨hincreasing.sublist (List.drop_sublist _ _), ⟨source, ?_⟩, ?_⟩
  · intro c hc
    exact hsource c (List.mem_of_mem_drop hc)
  · rw [List.length_drop]
    omega

/-- A candle behind older ones of its source: timestamps go on increasing, and all are the
latest versions. -/
theorem increasing_append {received : List Received} {older : List Candle} {r : Received}
    (hincreasing : older.Pairwise fun a b => a.ts < b.ts)
    (hsource : ∀ c ∈ older, latest received r.symbol c.ts = some ⟨r.symbol, r.source, c⟩)
    (holder : ∀ c ∈ older, c.ts < r.candle.ts) :
    (older ++ [r.candle]).Pairwise (fun a b => a.ts < b.ts) ∧
      ∀ c ∈ older ++ [r.candle],
        latest (received ++ [r]) r.symbol c.ts = some ⟨r.symbol, r.source, c⟩ := by
  constructor
  · refine List.pairwise_append.mpr ⟨hincreasing, List.pairwise_singleton _ _, ?_⟩
    intro c hc d hd
    rw [List.mem_singleton.mp hd]
    exact holder c hc
  · intro c hc
    rcases List.mem_append.mp hc with hc | hc
    · have hlt := holder c hc
      rw [latest_append, if_neg (by rintro ⟨-, hts⟩; omega)]
      exact hsource c hc
    · rw [List.mem_singleton.mp hc, latest_append, if_pos ⟨rfl, rfl⟩]

/-- The candle that is appended continues the series: it is no older than the last one, and
that came from the same exchange and timeframe. -/
def Continues (received : List Received) (series : List Candle) (r : Received) : Prop :=
  ∀ last ∈ series.getLast?, last.ts ≤ r.candle.ts ∧
    (latest received r.symbol last.ts).map Received.source = some r.source

instance (received : List Received) (series : List Candle) (r : Received) :
    Decidable (Continues received series r) :=
  inferInstanceAs (Decidable (∀ _ ∈ _, _))

/-- A candle that continues a clean series keeps it clean. -/
theorem CleanSeries.append {received : List Received} {series : List Candle} {r : Received}
    (h : CleanSeries received r.symbol series) (hcontinues : Continues received series r) :
    CleanSeries (received ++ [r]) r.symbol (appendCandle series r.candle) := by
  rcases h.oneSource with ⟨source, hsource⟩
  cases hlast : series.getLast? with
  | none =>
      have hfirst := @increasing_append received [] r List.Pairwise.nil (by simp) (by simp)
      have happend : appendCandle series r.candle = [r.candle] := by
        simp [appendCandle, hlast]
      rw [happend]
      exact ⟨hfirst.1, ⟨r.source, hfirst.2⟩, by simp [maxSize]⟩
  | some last =>
      obtain ⟨front, rfl⟩ := List.getLast?_eq_some_iff.mp hlast
      obtain ⟨hle, hsame⟩ := hcontinues last hlast
      -- the buffer and the candle have one source
      obtain rfl : source = r.source := by
        rw [hsource last (by simp)] at hsame
        simpa using hsame
      have hpairs := List.pairwise_append.mp h.increasing
      have hfront : ∀ c ∈ front, c.ts < last.ts := fun c hc => hpairs.2.2 c hc last (by simp)
      by_cases hts : last.ts = r.candle.ts
      · -- a new version of the last candle
        have hnext := increasing_append hpairs.1
          (fun c hc => hsource c (List.mem_append_left _ hc))
          (fun c hc => (hfront c hc).trans_eq hts)
        have happend : appendCandle (front ++ [last]) r.candle = front ++ [r.candle] := by
          simp [appendCandle, hts]
        rw [happend]
        exact ⟨hnext.1, ⟨r.source, hnext.2⟩, by simpa using h.bounded⟩
      · have hlt : last.ts < r.candle.ts := lt_of_le_of_ne hle hts
        have holder : ∀ c ∈ front ++ [last], c.ts < r.candle.ts := by
          intro c hc
          rcases List.mem_append.mp hc with hc | hc
          · exact (hfront c hc).trans hlt
          · rwa [List.mem_singleton.mp hc]
        have hnext := increasing_append h.increasing hsource holder
        have happend : appendCandle (front ++ [last]) r.candle =
            (front ++ [last] ++ [r.candle]).drop
              ((front ++ [last] ++ [r.candle]).length - maxSize) := by
          simp [appendCandle, hts]
        rw [happend]
        exact CleanSeries.drop hnext.1 ⟨r.source, hnext.2⟩

/-! ## Runs -/

/-- The list passed to `evaluate`, if any, is a clean series of its symbol. -/
def EvaluatesClean (s : Consumer) (input : ConsumerInput) : Prop :=
  ∀ e ∈ evaluation s input, CleanSeries (step s input).received e.1 e.2

/-- The candle of the input, if any, continues the buffer it goes to. -/
def InOrder (s : Consumer) (input : ConsumerInput) : Prop :=
  ∀ r ∈ delivers input, Continues s.received (s.buffer r.symbol) r

instance (s : Consumer) : DecidablePred (InOrder s) := fun _ =>
  inferInstanceAs (Decidable (∀ _ ∈ _, _))

/-- Every buffer holds a clean series. -/
def Buffered (s : Consumer) : Prop :=
  ∀ symbol, CleanSeries s.received symbol (s.buffer symbol)

/-- What an input does to the buffers and to what was received. -/
theorem step_cases (s : Consumer) (input : ConsumerInput) :
    (∃ r, delivers input = some r ∧ (step s input).received = s.received ++ [r] ∧
        (step s input).buffer r.symbol = appendCandle (s.buffer r.symbol) r.candle ∧
        ∀ symbol ≠ r.symbol, (step s input).buffer symbol = s.buffer symbol) ∨
      (delivers input = none ∧ (step s input).received = s.received ∧
        ∀ symbol, (step s input).buffer symbol = s.buffer symbol ∨
          (step s input).buffer symbol = []) := by
  have hbuffer : ∀ (f : SymbolFeed) (channel : Text × Text) (candle : Candle),
      (f.receive channel candle).1.buffer = appendCandle f.buffer candle := by
    intro f channel candle
    unfold SymbolFeed.receive
    dsimp only
    split_ifs <;> rfl
  cases input with
  | prefill source symbol candle =>
      refine Or.inl ⟨_, rfl, rfl, ?_, ?_⟩
      · simp [step, delivers, Consumer.buffer]
      · intro other hother
        simp [step, delivers, Consumer.buffer, Function.update_of_ne hother]
  | message channel payload =>
      cases hdelivers : delivers (.message channel payload) with
      | none =>
          refine Or.inr ⟨rfl, ?_, ?_⟩
          · simp [step, hdelivers]
          · intro symbol
            exact Or.inl (by simp [step, hdelivers])
      | some r =>
          refine Or.inl ⟨r, rfl, ?_, ?_, ?_⟩
          · simp [step, hdelivers, processMessage]
          · simp [step, hdelivers, processMessage, Consumer.buffer, hbuffer]
          · intro other hother
            simp [step, hdelivers, processMessage, Consumer.buffer,
              Function.update_of_ne hother]
  | reconnect => exact Or.inr ⟨rfl, rfl, fun symbol => Or.inr rfl⟩

/-- Candles in order keep the buffers clean. -/
theorem Buffered.step {s : Consumer} {input : ConsumerInput} (h : Buffered s)
    (horder : InOrder s input) : Buffered (step s input) := by
  intro symbol
  rcases step_cases s input with ⟨r, hr, hreceived, hself, hother⟩ | ⟨-, hreceived, hkept⟩
  · rw [hreceived]
    by_cases hsymbol : symbol = r.symbol
    · subst hsymbol
      rw [hself]
      exact (h r.symbol).append (horder r hr)
    · rw [hother symbol hsymbol]
      exact (h symbol).of_ne (Ne.symm hsymbol)
  · rw [hreceived]
    rcases hkept symbol with hsame | hempty
    · rw [hsame]
      exact h symbol
    · rw [hempty]
      exact CleanSeries.nil _ _

/-- The list passed to `evaluate` is the buffer behind the message. -/
theorem evaluation_eq {s : Consumer} {input : ConsumerInput} {e : Text × List Candle}
    (he : e ∈ evaluation s input) : e.2 = (step s input).buffer e.1 := by
  cases input with
  | message channel payload =>
      cases hdelivers : delivers (.message channel payload) with
      | none => simp [evaluation, hdelivers] at he
      | some r =>
          simp only [evaluation, hdelivers, Option.bind_some, processMessage] at he
          split_ifs at he with hnew
          · obtain rfl := Option.some.inj he
            simp [MarketFeed.step, hdelivers, processMessage, Consumer.buffer]
          · cases he
  | prefill source symbol candle => cases he
  | reconnect => cases he

/-- In every run whose candles continue their buffers, each list that the engine evaluates
is a clean series. -/
theorem evaluates_clean (inputs : List ConsumerInput)
    (hadmits : Admits step InOrder .start inputs) :
    Admits step EvaluatesClean .start inputs := by
  have hstep : ∀ s input, Buffered s → InOrder s input → Buffered (step s input) :=
    fun s input h => h.step
  refine hadmits.of_invariant hstep ?_ ?_
  · intro s input h horder e he
    rw [evaluation_eq he]
    exact h.step horder e.1
  · intro symbol
    exact CleanSeries.nil _ _

/-- A candle of an hour at 100. -/
def flatCandle (hour : Nat) : Candle :=
  ⟨3600000 * (hour + 1), 100, 101, 99, 100, 10⟩

/-- Fifty hourly candles, the last of them corrected once. -/
def correctedHours : List ConsumerInput :=
  (List.range 50).map (fun hour =>
      .message "karsa:candles:bybit:BTCUSDT:1h".toList (some (flatCandle hour))) ++
    [.message "karsa:candles:bybit:BTCUSDT:1h".toList (some { flatCandle 49 with close := 101 })]

/-- Fifty hourly candles, the last of them from another exchange. -/
def mixedHours : List ConsumerInput :=
  (List.range 49).map (fun hour =>
      .message "karsa:candles:bybit:BTCUSDT:1h".toList (some (flatCandle hour))) ++
    [.message "karsa:candles:binance:BTCUSDT:1h".toList (some (flatCandle 49))]

theorem evaluates_clean_corrected : Admits step EvaluatesClean .start correctedHours :=
  evaluates_clean correctedHours (by decide +kernel)

/-- The fiftieth candle makes the buffer long enough, and the list that is evaluated has
candles of two exchanges. -/
theorem evaluates_two_exchanges : ¬ Admits step EvaluatesClean .start mixedHours := by
  intro hadmits
  rw [mixedHours, admits_append] at hadmits
  have hclean := hadmits.2.1
  set s := run step .start ((List.range 49).map fun hour =>
    .message "karsa:candles:bybit:BTCUSDT:1h".toList (some (flatCandle hour))) with hs
  set last : ConsumerInput :=
    .message "karsa:candles:binance:BTCUSDT:1h".toList (some (flatCandle 49)) with hlast
  -- One evaluation of the run gives all that is read off its end.
  have hend : (evaluation s last).isSome = true ∧
      (∀ e ∈ evaluation s last, e.1 = "BTC/USDT".toList ∧
        flatCandle 0 ∈ e.2 ∧ flatCandle 49 ∈ e.2) ∧
      (latest (step s last).received "BTC/USDT".toList (flatCandle 0).ts).map
        Received.source = some ("bybit".toList, "1h".toList) ∧
      (latest (step s last).received "BTC/USDT".toList (flatCandle 49).ts).map
        Received.source = some ("binance".toList, "1h".toList) := by
    rw [hs, hlast]
    decide +kernel
  rcases hend with ⟨hsome, hlist, hbybit, hbinance⟩
  rcases Option.isSome_iff_exists.mp hsome with ⟨e, he⟩
  obtain ⟨hsymbol, hfirst, hlast'⟩ := hlist e he
  rcases (hclean e he).oneSource with ⟨source, hsource⟩
  rw [hsymbol] at hsource
  rw [hsource _ hfirst] at hbybit
  rw [hsource _ hlast'] at hbinance
  have hsame : ("bybit".toList, "1h".toList) = ("binance".toList, "1h".toList) :=
    Option.some.inj (hbybit.symm.trans hbinance)
  exact absurd hsame (by decide)

end MarketFeed
end Karsa
