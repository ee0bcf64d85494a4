import Karsa.Consumer.CandleBuffer
import Karsa.Foundations.Dicts
import Karsa.Foundations.Loops
import Mathlib.Data.List.Sort
import Mathlib.Tactic.Linarith

/-!
# Data engine - Downloading the history

`ExchangeConnector.fetch_all_candles` asks for batches of candles from a time on, keeps every
candle under its timestamp, and goes on behind the last candle of the batch until a batch is
empty, makes no progress or reaches the present.

The exchange may answer a request with any batch.

Main results:

- Theorem `Advancing.request`: a request that goes on moves by more than a candle.
- Theorem `running_false_of_bound`: how many requests there can be.
- Theorem `cleanDownload`: the loop ends in time, with the last version of every candle in order.
-/

namespace Karsa
namespace CandleDownload

open MarketFeed (Candle)

/-! ## Timeframes -/

/-- The timeframes with their milliseconds. -/
def mapping : Dict Text ℕ :=
  [("1m".toList, 60000), ("5m".toList, 300000), ("15m".toList, 900000), ("1h".toList, 3600000),
    ("4h".toList, 14400000), ("1d".toList, 86400000), ("1w".toList, 604800000)]

/-- `_timeframe_to_ms`; others raise. -/
def timeframeToMs (timeframe : Text) : Option ℕ :=
  mapping.get timeframe

/-- A timeframe that is converted. -/
structure Timeframe where
  text : Text
  ms : ℕ
  supported : timeframeToMs text = some ms

/-- The default of `fetch_all_candles`. -/
def Timeframe.hourly : Timeframe where
  text := "1h".toList
  ms := 3600000
  supported := by decide

/-- Every timeframe lasts. -/
theorem Timeframe.ms_pos (t : Timeframe) : 0 < t.ms := by
  have hmem : (t.text, t.ms) ∈ mapping := Dict.mem_of_get t.supported
  have hall : ∀ item ∈ mapping, 0 < item.2 := by decide
  exact hall _ hmem

/-! ## The loop -/

/-- An exchange: its answer to a request may depend on how many there were before. -/
abbrev Exchange := ℕ → ℤ → List Candle

/-- Locals of the loop, and the answers so far. -/
structure Download where
  since : ℤ
  allCandles : Dict ℤ Candle
  answers : List (List Candle)
  running : Bool

/-- Body of the loop. -/
def Download.request (fetchOhlcv : Exchange) (timeframe : Timeframe) (nowMs : ℤ)
    (s : Download) : Download :=
  let batch := fetchOhlcv s.answers.length s.since
  match batch.getLast? with
  | none => { s with answers := s.answers ++ [batch], running := false }
  | some last =>
      let allCandles := batch.foldl (fun d c => d.set c.ts c) s.allCandles
      if last.ts ≤ s.since then
        ⟨s.since, allCandles, s.answers ++ [batch], false⟩
      else
        ⟨last.ts + timeframe.ms, allCandles, s.answers ++ [batch], decide (last.ts < nowMs)⟩

section Loop

variable (fetchOhlcv : Exchange) (timeframe : Timeframe) (nowMs : ℤ) (days : ℕ)

/-- The locals before the loop. -/
def start : Download :=
  ⟨nowMs - days * 86400000, [], [], true⟩

/-- The loop after at most some requests. -/
def downloadAfter (requests : ℕ) : Download :=
  passes (fun s => s.running = true) (Download.request fetchOhlcv timeframe nowMs) requests
    (start nowMs days)

/-- The candles in the order of their timestamps. -/
def Download.sorted (s : Download) : List Candle :=
  s.allCandles.values.insertionSort fun a b => a.ts ≤ b.ts

/-- `fetch_all_candles`, if some requests are enough. -/
def fetchAllCandles (requests : ℕ) : Option (List Candle) :=
  let s := downloadAfter fetchOhlcv timeframe nowMs days requests
  if s.running = true then none else some s.sorted

/-- All candles that were fetched, in the order of the answers. -/
def fetched (requests : ℕ) : List Candle :=
  (downloadAfter fetchOhlcv timeframe nowMs days requests).answers.flatten

/-- As many requests as there are candles in the period, and two more. -/
def requestBound : ℕ :=
  days * 86400000 / timeframe.ms + 2

end Loop

/-! ## Progress -/

section Progress

variable {fetchOhlcv : Exchange} {timeframe : Timeframe} {nowMs : ℤ} {days : ℕ} {s : Download}

/-- A running loop has moved by more than a candle on every request, and is not ahead of the
present by a candle. -/
def Advancing (timeframe : Timeframe) (nowMs : ℤ) (days : ℕ) (s : Download) : Prop :=
  s.running = true →
    nowMs - days * 86400000 + s.answers.length * (timeframe.ms + 1) ≤ s.since ∧
      s.since < nowMs + timeframe.ms

/-- A request adds one answer. -/
theorem length_answers_request :
    (s.request fetchOhlcv timeframe nowMs).answers.length = s.answers.length + 1 := by
  unfold Download.request
  dsimp only
  split
  · simp
  · split_ifs <;> simp

/-- What a request that goes on has found. -/
theorem running_request (h : (s.request fetchOhlcv timeframe nowMs).running = true) :
    ∃ last, s.since < last ∧ last < nowMs ∧
      (s.request fetchOhlcv timeframe nowMs).since = last + timeframe.ms := by
  unfold Download.request at h ⊢
  dsimp only at h ⊢
  split at h
  · cases h
  · rename_i last hlast
    split_ifs at h with hprogress
    rw [if_neg hprogress]
    exact ⟨last.ts, not_le.mp hprogress, of_decide_eq_true h, rfl⟩

/-- The loop starts a period behind the present. -/
theorem Advancing.start : Advancing timeframe nowMs days (start nowMs days) := by
  intro _
  have hms := timeframe.ms_pos
  constructor
  · simp [CandleDownload.start]
  · simp only [CandleDownload.start]
    omega

/-- A request that goes on moves by more than a candle. -/
theorem Advancing.request (h : Advancing timeframe nowMs days s) (hrunning : s.running = true) :
    Advancing timeframe nowMs days (s.request fetchOhlcv timeframe nowMs) := by
  intro hgoes
  rcases h hrunning with ⟨hmoved, -⟩
  rcases running_request hgoes with ⟨last, hsince, hnow, heq⟩
  rw [heq, length_answers_request]
  push_cast
  constructor
  · linarith
  · linarith

/-- After any number of requests. -/
theorem advancing_downloadAfter (requests : ℕ) :
    Advancing timeframe nowMs days
      (downloadAfter fetchOhlcv timeframe nowMs days requests) :=
  passes_invariant (fun _ hrunning h => h.request hrunning) Advancing.start requests

/-- A loop that is still running has used all its requests, and no loop uses more. -/
theorem length_answers (requests : ℕ) :
    (downloadAfter fetchOhlcv timeframe nowMs days requests).answers.length ≤ requests ∧
      ((downloadAfter fetchOhlcv timeframe nowMs days requests).running = true →
        (downloadAfter fetchOhlcv timeframe nowMs days requests).answers.length = requests) := by
  induction requests with
  | zero => exact ⟨le_rfl, fun _ => rfl⟩
  | succ n ih =>
      rw [downloadAfter, passes_succ', ← downloadAfter]
      split_ifs with hrunning
      · rw [length_answers_request, ih.2 hrunning]
        exact ⟨le_rfl, fun _ => rfl⟩
      · exact ⟨ih.1.trans (Nat.le_succ n), fun h => absurd h hrunning⟩

/-- The loop has ended when the bound is reached. -/
theorem running_false_of_bound :
    ¬ (downloadAfter fetchOhlcv timeframe nowMs days (requestBound timeframe days)).running =
      true := by
  intro hrunning
  have hlength := (length_answers (requestBound timeframe days)).2 hrunning
  rcases advancing_downloadAfter (requestBound timeframe days) hrunning with ⟨hmoved, hnow⟩
  rw [hlength] at hmoved
  have hperiod := Nat.lt_div_mul_add timeframe.ms_pos (a := days * 86400000)
  have hbound : (days * 86400000 / timeframe.ms + 2) * (timeframe.ms + 1) <
      days * 86400000 + timeframe.ms := by
    have hcast : ((requestBound timeframe days * (timeframe.ms + 1) : ℕ) : ℤ) <
        ((days * 86400000 + timeframe.ms : ℕ) : ℤ) := by
      push_cast
      linarith
    exact_mod_cast hcast
  nlinarith

/-- The loop makes no more requests than the bound. -/
theorem length_answers_le (requests : ℕ) :
    (downloadAfter fetchOhlcv timeframe nowMs days requests).answers.length ≤
      requestBound timeframe days := by
  rcases le_total requests (requestBound timeframe days) with hle | hle
  · exact (length_answers requests).1.trans hle
  · have hsame : downloadAfter fetchOhlcv timeframe nowMs days requests =
        downloadAfter fetchOhlcv timeframe nowMs days (requestBound timeframe days) :=
      passes_of_halted running_false_of_bound hle
    rw [hsame]
    exact (length_answers _).1

end Progress

/-! ## What is kept -/

section Kept

variable {fetchOhlcv : Exchange} {timeframe : Timeframe} {nowMs : ℤ} {days : ℕ} {s : Download}

/-- The dictionary is the index of the fetched candles by their timestamps. -/
def Indexed (s : Download) : Prop :=
  s.allCandles = Dict.index (s.answers.flatten.map fun c => (c.ts, c))

/-- A batch is added to the index. -/
theorem Indexed.foldl (h : Indexed s) (batch : List Candle) :
    batch.foldl (fun d c => d.set c.ts c) s.allCandles =
      Dict.index ((s.answers ++ [batch]).flatten.map fun c => (c.ts, c)) := by
  rw [h, List.flatten_append, List.flatten_singleton, List.map_append]
  simp only [Dict.index, List.foldl_append, List.foldl_map]

/-- A request keeps the index. -/
theorem Indexed.request (h : Indexed s) : Indexed (s.request fetchOhlcv timeframe nowMs) := by
  have hfold := h.foldl (fetchOhlcv s.answers.length s.since)
  unfold Download.request
  dsimp only
  split
  · rename_i hlast
    rw [List.getLast?_eq_none_iff.mp hlast] at hfold ⊢
    exact hfold
  · split_ifs
    · exact hfold
    · exact hfold

/-- After any number of requests. -/
theorem indexed_downloadAfter (requests : ℕ) :
    Indexed (downloadAfter fetchOhlcv timeframe nowMs days requests) := by
  have hstart : Indexed (start nowMs days) := rfl
  exact passes_invariant (fun _ _ h => Indexed.request h) hstart requests

/-- A value of the dictionary is the last fetched candle of its timestamp. -/
theorem mem_values_iff (h : Indexed s) {c : Candle} :
    c ∈ s.allCandles.values ↔
      (s.answers.flatten.filter fun c' => decide (c'.ts = c.ts)).getLast? = some c := by
  have hget : ∀ ts, s.allCandles.get ts =
      (s.answers.flatten.filter fun c' => decide (c'.ts = ts)).getLast? := by
    intro ts
    rw [h, Dict.get_index, List.filter_map, List.getLast?_map, Option.map_map]
    simp [Function.comp_def]
  have hnodup : s.allCandles.keys.Nodup := by
    rw [h]
    exact Dict.nodup_keys_index _
  rw [← hget]
  constructor
  · intro hmem
    rcases List.mem_map.mp hmem with ⟨⟨ts, c'⟩, hitem, rfl⟩
    have hlast := Dict.get_of_mem hnodup hitem
    have hts : c'.ts = ts := by
      rw [hget] at hlast
      exact of_decide_eq_true (List.mem_filter.mp (List.mem_of_getLast? hlast)).2
    rwa [hts]
  · intro hlast
    exact List.mem_map_of_mem (Dict.mem_of_get hlast)

/-- The candles of the dictionary have timestamps of their own. -/
theorem nodup_timestamps (h : Indexed s) : (s.allCandles.values.map Candle.ts).Nodup := by
  have hkeys : s.allCandles.values.map Candle.ts = s.allCandles.keys := by
    rw [Dict.values, Dict.keys, List.map_map]
    apply List.map_congr_left
    rintro ⟨ts, c⟩ hitem
    rw [h] at hitem
    rcases List.mem_map.mp (Dict.mem_of_mem_index hitem) with ⟨c', -, heq⟩
    rcases Prod.mk.inj heq with ⟨hts, rfl⟩
    exact hts
  rw [hkeys, h]
  exact Dict.nodup_keys_index _

/-- The sorted candles are those of the dictionary. -/
theorem mem_sorted {c : Candle} : c ∈ s.sorted ↔ c ∈ s.allCandles.values :=
  List.mem_insertionSort _

/-- The timestamps of the sorted candles increase strictly. -/
theorem sorted_increasing (h : Indexed s) : s.sorted.Pairwise fun a b => a.ts < b.ts := by
  have hle : s.sorted.Pairwise fun a b => a.ts ≤ b.ts := by
    have htotal : Std.Total fun a b : Candle => a.ts ≤ b.ts :=
      ⟨fun a b => le_total a.ts b.ts⟩
    have htrans : IsTrans Candle fun a b => a.ts ≤ b.ts := ⟨fun _ _ _ => le_trans⟩
    exact List.pairwise_insertionSort _ _
  have hne : s.sorted.Pairwise fun a b => a.ts ≠ b.ts := by
    have hperm := (List.perm_insertionSort (fun a b : Candle => a.ts ≤ b.ts)
      s.allCandles.values).map Candle.ts
    exact List.pairwise_map.mp (hperm.nodup_iff.mpr (nodup_timestamps h))
  exact hle.imp₂ (fun _ _ => lt_of_le_of_ne) hne

end Kept

/-! ## A clean download -/

/-- The loop makes no more requests than the bound, and as many requests are enough; then its
candles have strictly increasing timestamps, and are the last fetched of their timestamps. -/
structure CleanDownload (fetchOhlcv : Exchange) (timeframe : Timeframe) (nowMs : ℤ)
    (days : ℕ) : Prop where
  requests : ∀ n, (downloadAfter fetchOhlcv timeframe nowMs days n).answers.length ≤
    days * 86400000 / timeframe.ms + 2
  result : ∀ n, days * 86400000 / timeframe.ms + 2 ≤ n →
    ∃ candles, fetchAllCandles fetchOhlcv timeframe nowMs days n = some candles ∧
      (candles.Pairwise fun a b => a.ts < b.ts) ∧
      ∀ c, c ∈ candles ↔
        ((fetched fetchOhlcv timeframe nowMs days n).filter
          fun c' => decide (c'.ts = c.ts)).getLast? = some c

/-- Every download is clean. -/
theorem cleanDownload (fetchOhlcv : Exchange) (timeframe : Timeframe) (nowMs : ℤ) (days : ℕ) :
    CleanDownload fetchOhlcv timeframe nowMs days := by
  refine ⟨length_answers_le, fun n hn => ?_⟩
  have hindexed : Indexed (downloadAfter fetchOhlcv timeframe nowMs days n) :=
    indexed_downloadAfter n
  have hended : ¬ (downloadAfter fetchOhlcv timeframe nowMs days n).running = true := by
    have hsame : downloadAfter fetchOhlcv timeframe nowMs days n =
        downloadAfter fetchOhlcv timeframe nowMs days (requestBound timeframe days) :=
      passes_of_halted running_false_of_bound hn
    rw [hsame]
    exact running_false_of_bound
  refine ⟨_, if_neg hended, sorted_increasing hindexed, fun c => ?_⟩
  rw [mem_sorted, mem_values_iff hindexed, fetched]

/-- An hourly candle that closes at a price. -/
def hourlyCandle (hour : ℤ) (close : ℚ) : Candle :=
  ⟨hour * 3600000, close, close, close, close, 1⟩

/-- Two answers that overlap. -/
def overlapping : Exchange := fun n _ =>
  [[hourlyCandle 0 100, hourlyCandle 1 101], [hourlyCandle 1 102, hourlyCandle 2 103]].getD n []

/-- The candle of both is kept as the second one has it. -/
example : fetchAllCandles overlapping .hourly 86400000 1 27 =
    some [hourlyCandle 0 100, hourlyCandle 1 102, hourlyCandle 2 103] := by
  decide +kernel

end CandleDownload
end Karsa
