import Karsa.Consumer.CandleBuffer
import Karsa.Foundations.LiveSeries

/-!
# Data engine - Polling for new candles

`ExchangeConnector.poll_ohlcv` fetches the last ten candles again and again and hands those
behind the last one it has delivered to a callback.  The newest candle of a reply is still
forming: the exchange may change it until it has a newer one.

What the callback is handed is kept with whether it returned; a candle is delivered when a
call that contains it returns.

Main results:

- Theorem `Delivered.step`: delivered candles are in order, and none is left out.
- Theorem `published_throughout_iff`: the runs in which every candle behind the newest delivered
  one was handed over last as it stands in the exchange.
-/

namespace Karsa
namespace CandlePolls

open MarketFeed (Candle)

/-- The candles of an exchange. -/
abbrev Market := LiveSeries Candle.ts

/-! ## The loop -/

/-- `limit=10`. -/
def limit : ℕ := 10

/-- The candles behind the last timestamp. -/
def newCandles (lastTs : Option ℤ) (candles : List Candle) : List Candle :=
  candles.filter fun c => lastTs.all fun t => decide (t < c.ts)

/-- `last_ts`, and the batches handed to the callback with whether it returned. -/
structure Poller where
  lastTs : Option ℤ
  calls : List (List Candle × Bool)
deriving Repr, DecidableEq

/-- One turn of the loop on a reply; an exception of the callback leaves `last_ts`. -/
def Poller.poll (candles : List Candle) (returns : Bool) (p : Poller) : Poller :=
  let new := newCandles p.lastTs candles
  match new.getLast? with
  | none => p
  | some last =>
      { lastTs := if returns then some last.ts else p.lastTs
        calls := p.calls ++ [(new, returns)] }

/-- What was handed to the callback, one candle after the other. -/
def Poller.handed (p : Poller) : List Candle :=
  p.calls.flatMap Prod.fst

/-- What was delivered. -/
def Poller.delivered (p : Poller) : List Candle :=
  (p.calls.filter Prod.snd).flatMap Prod.fst

/-! ## Runs -/

/-- How a poll ends: without candles, in an exception of the callback, or in its return. -/
inductive Outcome where
  | unanswered
  | raised
  | returned
deriving Repr, DecidableEq

/-- The exchange shows a version of a candle, or the loop takes a turn. -/
inductive Event where
  | tick (candle : Candle)
  | poll (outcome : Outcome)
deriving Repr, DecidableEq

/-- The exchange and the loop. -/
structure World where
  market : Market
  poller : Poller

/-- The loop starts. -/
def start : World :=
  ⟨LiveSeries.empty, ⟨none, []⟩⟩

/-- An event. -/
def step (w : World) : Event → World
  | .tick candle => { w with market := w.market.observe candle }
  | .poll .unanswered => w
  | .poll .raised => { w with poller := w.poller.poll (w.market.recent limit) false }
  | .poll .returned => { w with poller := w.poller.poll (w.market.recent limit) true }

/-- The loop comes back before more than nine candles are closed behind the one it has
delivered last. -/
def Timely (w : World) : Event → Prop
  | .poll .returned => ∀ v ∈ w.poller.delivered.getLast?,
      (w.market.items.filter fun c => decide (v.ts < c.ts)).length ≤ limit
  | .tick _ | .poll .unanswered | .poll .raised => True

instance (w : World) : DecidablePred (Timely w)
  | .poll .returned => inferInstanceAs (Decidable (∀ v ∈ w.poller.delivered.getLast?, _))
  | .tick _ | .poll .unanswered | .poll .raised => isTrue trivial

/-- Candles are delivered in order, and from the first delivered one on every candle older than
the newest delivered one was handed over last in its final version. -/
structure Published (w : World) : Prop where
  ordered : w.poller.delivered.Pairwise fun a b => a.ts < b.ts
  final : ∀ c ∈ w.market.items, (∃ first ∈ w.poller.delivered, first.ts ≤ c.ts) →
    (∃ newest ∈ w.poller.delivered, c.ts < newest.ts) →
    lastVersion Candle.ts w.poller.handed c.ts = some c

/-- When a newer candle is delivered, the one delivered before it is still as it was. -/
def StillFinal (w : World) : Event → Prop
  | .poll .returned => ∀ v ∈ w.poller.delivered.getLast?,
      (∃ c ∈ w.market.items, v.ts < c.ts) → v ∈ w.market.items
  | .tick _ | .poll .unanswered | .poll .raised => True

/-! ## What one turn delivers -/

/-- What holds of the loop in every run. -/
structure Delivered (w : World) : Prop where
  ordered : w.poller.delivered.Pairwise fun a b => a.ts < b.ts
  lastTs : w.poller.lastTs = w.poller.delivered.getLast?.map Candle.ts
  known : ∀ v ∈ w.poller.delivered, ∃ c ∈ w.market.items, c.ts = v.ts
  covered : ∀ c ∈ w.market.items, (∃ first ∈ w.poller.delivered, first.ts ≤ c.ts) →
    (∃ newest ∈ w.poller.delivered, c.ts ≤ newest.ts) →
    ∃ v ∈ w.poller.delivered, v.ts = c.ts ∧ lastVersion Candle.ts w.poller.handed c.ts = some v

variable {w : World}

@[simp] theorem handed_poll (candles : List Candle) (returns : Bool) (p : Poller) :
    (p.poll candles returns).handed = p.handed ++ newCandles p.lastTs candles := by
  unfold Poller.poll
  dsimp only
  split
  · rename_i hnone
    rw [List.getLast?_eq_none_iff.mp hnone, List.append_nil]
  · simp [Poller.handed]

@[simp] theorem delivered_poll_false (candles : List Candle) (p : Poller) :
    (p.poll candles false).delivered = p.delivered := by
  unfold Poller.poll
  dsimp only
  split
  · rfl
  · simp [Poller.delivered]

@[simp] theorem delivered_poll_true (candles : List Candle) (p : Poller) :
    (p.poll candles true).delivered = p.delivered ++ newCandles p.lastTs candles := by
  unfold Poller.poll
  dsimp only
  split
  · rename_i hnone
    rw [List.getLast?_eq_none_iff.mp hnone, List.append_nil]
  · simp [Poller.delivered]

@[simp] theorem lastTs_poll_false (candles : List Candle) (p : Poller) :
    (p.poll candles false).lastTs = p.lastTs := by
  unfold Poller.poll
  dsimp only
  split <;> rfl

@[simp] theorem lastTs_poll_true (candles : List Candle) (p : Poller) :
    (p.poll candles true).lastTs =
      ((newCandles p.lastTs candles).getLast?.map Candle.ts).or p.lastTs := by
  unfold Poller.poll
  dsimp only
  split
  · rename_i hnone
    rw [hnone]
    rfl
  · rename_i last hlast
    rw [hlast]
    rfl

/-- The delivered candles as a series of their own. -/
def Delivered.series (h : Delivered w) : Market :=
  ⟨w.poller.delivered, h.ordered⟩

/-- Candles are new if they are newer than all delivered ones. -/
theorem Delivered.mem_newCandles (h : Delivered w) {candles : List Candle} {c : Candle} :
    c ∈ newCandles w.poller.lastTs candles ↔
      c ∈ candles ∧ ∀ v ∈ w.poller.delivered, v.ts < c.ts := by
  rw [newCandles, List.mem_filter, h.lastTs]
  refine and_congr_right fun _ => ?_
  cases hlast : w.poller.delivered.getLast? with
  | none =>
      have hnil : w.poller.delivered = [] := List.getLast?_eq_none_iff.mp hlast
      simp [hnil]
  | some last =>
      rw [Option.map_some, Option.all_some, decide_eq_true_eq]
      constructor
      · intro hlt v hv
        have hle : v.ts ≤ last.ts :=
          h.series.stamp_le_last hv hlast
        exact lt_of_le_of_lt hle hlt
      · exact fun hall => hall last (List.mem_of_getLast? hlast)

/-- The new candles of a poll are candles of the exchange, in order. -/
theorem newCandles_recent (w : World) :
    (newCandles w.poller.lastTs (w.market.recent limit)).Pairwise (fun a b => a.ts < b.ts) ∧
      ∀ c ∈ newCandles w.poller.lastTs (w.market.recent limit), c ∈ w.market.items :=
  ⟨(w.market.ordered_recent limit).sublist List.filter_sublist,
    fun _ hc => LiveSeries.mem_of_mem_recent (List.mem_of_mem_filter hc)⟩

/-- A poll hands over no version of a candle that is not newer than all delivered ones. -/
theorem Delivered.lastVersion_old (h : Delivered w) {t : ℤ}
    (hold : ∃ newest ∈ w.poller.delivered, t ≤ newest.ts) (candles : List Candle) :
    lastVersion Candle.ts (w.poller.handed ++ newCandles w.poller.lastTs candles) t =
      lastVersion Candle.ts w.poller.handed t := by
  rcases hold with ⟨newest, hnewest, hle⟩
  rw [lastVersion_append, lastVersion_eq_none, Option.none_or]
  intro c hc
  have hlt : newest.ts < c.ts := (h.mem_newCandles.mp hc).2 newest hnewest
  omega

/-- Behind a poll, an older candle comes after one that was delivered before. -/
theorem Delivered.first_of_old (h : Delivered w) {candles : List Candle} {t : ℤ}
    (hold : ∃ newest ∈ w.poller.delivered, t ≤ newest.ts)
    (hfirst : ∃ first ∈ w.poller.delivered ++ newCandles w.poller.lastTs candles, first.ts ≤ t) :
    ∃ first ∈ w.poller.delivered, first.ts ≤ t := by
  rcases hfirst with ⟨first, hmem, hle⟩
  rcases List.mem_append.mp hmem with hdelivered | hlate
  · exact ⟨first, hdelivered, hle⟩
  · rcases hold with ⟨newest, hnewest, hcn⟩
    have hlt := (h.mem_newCandles.mp hlate).2 newest hnewest
    omega

/-- A timely poll hands over every candle that is newer than all delivered ones, from the first
delivered one on. -/
theorem Delivered.lastVersion_new (h : Delivered w) (htimely : Timely w (.poll .returned))
    {c : Candle} (hc : c ∈ w.market.items) (hnew : ∀ v ∈ w.poller.delivered, v.ts < c.ts)
    (hfirst : ∃ first ∈ w.poller.delivered ++
      newCandles w.poller.lastTs (w.market.recent limit), first.ts ≤ c.ts) :
    c ∈ newCandles w.poller.lastTs (w.market.recent limit) ∧
      lastVersion Candle.ts (w.poller.handed ++
        newCandles w.poller.lastTs (w.market.recent limit)) c.ts = some c := by
  have hrecent : c ∈ w.market.recent limit := by
    cases hlast : w.poller.delivered.getLast? with
    | none =>
        have hnil : w.poller.delivered = [] := List.getLast?_eq_none_iff.mp hlast
        rcases hfirst with ⟨first, hmem, hle⟩
        rw [hnil, List.nil_append] at hmem
        by_contra hnot
        have hlt : c.ts < first.ts :=
          LiveSeries.older_recent hc hnot (List.mem_of_mem_filter hmem)
        omega
    | some v =>
        have hv : v.ts < c.ts := hnew v (List.mem_of_getLast? hlast)
        refine LiveSeries.mem_recent hc (le_trans ?_ (htimely v hlast))
        refine (List.monotone_filter_right _ fun d hd => ?_).length_le
        have hle : c.ts ≤ d.ts := by simpa using hd
        exact decide_eq_true (by omega)
  have hmem := h.mem_newCandles.mpr ⟨hrecent, hnew⟩
  refine ⟨hmem, ?_⟩
  rw [lastVersion_append, lastVersion_of_mem (newCandles_recent w).1 hmem]
  rfl

/-- Delivered candles are in order, and none is left out. -/
theorem Delivered.step (h : Delivered w) (e : Event) (htimely : Timely w e) :
    Delivered (step w e) := by
  cases e with
  | tick candle =>
      refine ⟨h.ordered, h.lastTs, fun v hv => ?_, fun c hc hfirst hnewest => ?_⟩
      · rcases h.known v hv with ⟨c, hc, hts⟩
        rcases LiveSeries.exists_mem_observe hc candle with ⟨x, hx, hxts⟩
        exact ⟨x, hx, hxts.trans hts⟩
      · rcases LiveSeries.mem_observe hc with hold | ⟨rfl, hlate⟩
        · exact h.covered c hold hfirst hnewest
        · -- The arrived version has the stamp of a candle that was there.
          rcases hnewest with ⟨newest, hmem, hle⟩
          rcases h.known newest hmem with ⟨d, hd, hts⟩
          have hsame : d.ts = c.ts := le_antisymm (hlate d hd) (hts ▸ hle)
          have hcovered := h.covered d hd (by rwa [hsame]) ⟨newest, hmem, hts.le⟩
          rwa [hsame] at hcovered
  | poll outcome =>
      cases outcome with
      | unanswered => exact h
      | raised =>
          refine ⟨?_, ?_, ?_, ?_⟩
          · simpa [CandlePolls.step] using h.ordered
          · simpa [CandlePolls.step] using h.lastTs
          · simpa [CandlePolls.step] using h.known
          · intro c hc hfirst hnewest
            simp only [CandlePolls.step, delivered_poll_false, handed_poll] at hfirst hnewest ⊢
            rw [h.lastVersion_old hnewest]
            exact h.covered c hc hfirst hnewest
      | returned =>
          have hnew := newCandles_recent w
          refine ⟨?_, ?_, ?_, ?_⟩
          · rw [CandlePolls.step, delivered_poll_true, List.pairwise_append]
            exact ⟨h.ordered, hnew.1, fun a ha b hb => (h.mem_newCandles.mp hb).2 a ha⟩
          · rw [CandlePolls.step, delivered_poll_true, lastTs_poll_true, List.getLast?_append,
              Option.map_or, ← h.lastTs]
          · intro v hv
            rw [CandlePolls.step, delivered_poll_true, List.mem_append] at hv
            rcases hv with hold | hmem
            · exact h.known v hold
            · exact ⟨v, hnew.2 v hmem, rfl⟩
          · intro c hc hfirst hnewest
            simp only [CandlePolls.step, delivered_poll_true, handed_poll] at hfirst hnewest ⊢
            by_cases hold : ∃ newest ∈ w.poller.delivered, c.ts ≤ newest.ts
            · rcases h.covered c hc (h.first_of_old hold hfirst) hold with ⟨v, hv, hts, hversion⟩
              refine ⟨v, List.mem_append_left _ hv, hts, ?_⟩
              rw [h.lastVersion_old hold, hversion]
            · push Not at hold
              rcases h.lastVersion_new htimely hc hold hfirst with ⟨hmem, hversion⟩
              exact ⟨c, List.mem_append_right _ hmem, rfl, hversion⟩

/-! ## Final versions -/

/-- There is a newer candle exactly if a poll finds a new one. -/
theorem Delivered.exists_newer_iff (h : Delivered w) {v : Candle}
    (hv : w.poller.delivered.getLast? = some v) :
    (∃ c ∈ w.market.items, v.ts < c.ts) ↔
      ∃ c, c ∈ newCandles w.poller.lastTs (w.market.recent limit) := by
  constructor
  · rintro ⟨c, hc, hlt⟩
    cases hlast : w.market.items.getLast? with
    | none =>
        rw [List.getLast?_eq_none_iff.mp hlast] at hc
        cases hc
    | some newest =>
        refine ⟨newest, h.mem_newCandles.mpr
          ⟨LiveSeries.last_mem_recent (by decide) hlast, fun u hu => ?_⟩⟩
        have hle : c.ts ≤ newest.ts := w.market.stamp_le_last hc hlast
        have hold : u.ts ≤ v.ts :=
          h.series.stamp_le_last hu hv
        omega
  · rintro ⟨c, hc⟩
    exact ⟨c, (newCandles_recent w).2 c hc,
      (h.mem_newCandles.mp hc).2 v (List.mem_of_getLast? hv)⟩

/-- Delivered candles under one timestamp are one version. -/
theorem Delivered.eq_of_ts_eq (h : Delivered w) {u v : Candle} (hu : u ∈ w.poller.delivered)
    (hv : v ∈ w.poller.delivered) (hts : u.ts = v.ts) : u = v :=
  h.series.eq_of_stamp_eq hu hv hts

/-- A poll that delivers keeps the promise exactly if the candle delivered before it is still as
it was. -/
theorem published_poll_iff (h : Delivered w) (hw : Published w)
    (htimely : Timely w (.poll .returned)) :
    Published (step w (.poll .returned)) ↔ StillFinal w (.poll .returned) := by
  have hnext := h.step (.poll .returned) htimely
  constructor
  · intro hpublished v hv hnewer
    have hvmem : v ∈ w.poller.delivered := List.mem_of_getLast? hv
    rcases (h.exists_newer_iff hv).mp hnewer with ⟨newest, hnewest⟩
    rcases h.known v hvmem with ⟨c, hc, hts⟩
    have hfinal := hpublished.final c hc
      ⟨v, by simpa [step] using Or.inl hvmem, hts.ge⟩
      ⟨newest, by simpa [step] using Or.inr hnewest,
        hts.trans_lt ((h.mem_newCandles.mp hnewest).2 v hvmem)⟩
    rcases h.covered c hc ⟨v, hvmem, hts.ge⟩ ⟨v, hvmem, hts.le⟩ with ⟨u, hu, huts, hversion⟩
    simp only [step, handed_poll] at hfinal
    rw [h.lastVersion_old ⟨v, hvmem, hts.le⟩, hversion] at hfinal
    have huc : u = c := Option.some.inj hfinal
    have huv : u = v := h.eq_of_ts_eq hu hvmem (huts.trans hts)
    rw [← huv, huc]
    exact hc
  · intro hfinal
    refine ⟨hnext.ordered, fun c hc hfirst hnewest => ?_⟩
    simp only [step, delivered_poll_true, handed_poll] at hc hfirst hnewest ⊢
    by_cases hold : ∃ newest ∈ w.poller.delivered, c.ts ≤ newest.ts
    · rw [h.lastVersion_old hold]
      have hfirst' := h.first_of_old hold hfirst
      by_cases hstrict : ∃ newest ∈ w.poller.delivered, c.ts < newest.ts
      · exact hw.final c hc hfirst' hstrict
      · -- The candle delivered last.
        rcases hold with ⟨newest, hmem, hle⟩
        cases hlast : w.poller.delivered.getLast? with
        | none =>
            rw [List.getLast?_eq_none_iff.mp hlast] at hmem
            cases hmem
        | some v =>
            have hv : v ∈ w.poller.delivered := List.mem_of_getLast? hlast
            have hnv : newest.ts ≤ v.ts :=
              h.series.stamp_le_last hmem hlast
            have hvc : v.ts ≤ c.ts := not_lt.mp fun hlt => hstrict ⟨v, hv, hlt⟩
            have hts : v.ts = c.ts := by omega
            have hnewer : ∃ d ∈ w.market.items, v.ts < d.ts := by
              rcases hnewest with ⟨d, hd, hlt⟩
              rcases List.mem_append.mp hd with hdelivered | hlate
              · exact absurd ⟨d, hdelivered, hlt⟩ hstrict
              · exact ⟨d, (newCandles_recent w).2 d hlate, hts.trans_lt hlt⟩
            have hvc : v = c :=
              w.market.eq_of_stamp_eq (hfinal v hlast hnewer) hc hts
            rcases h.covered c hc hfirst' ⟨newest, hmem, hle⟩ with ⟨u, hu, huts, hversion⟩
            rw [hversion, h.eq_of_ts_eq hu hv (huts.trans hts.symm), hvc]
    · push Not at hold
      exact (h.lastVersion_new htimely hc hold hfirst).2

/-- An event keeps the promise exactly under its condition. -/
theorem published_step_iff (e : Event) (h : Delivered w) (hw : Published w) (htimely : Timely w e) :
    Published (step w e) ↔ StillFinal w e := by
  cases e with
  | tick candle =>
      refine iff_of_true ⟨hw.ordered, fun c hc hfirst hnewest => ?_⟩ trivial
      rcases LiveSeries.mem_observe hc with hold | ⟨rfl, hlate⟩
      · exact hw.final c hold hfirst hnewest
      · rcases hnewest with ⟨newest, hmem, hlt⟩
        rcases h.known newest hmem with ⟨d, hd, hts⟩
        have hle : d.ts ≤ c.ts := hlate d hd
        have hlt' : c.ts < newest.ts := hlt
        omega
  | poll outcome =>
      cases outcome with
      | unanswered => exact iff_of_true hw trivial
      | raised =>
          have hnext := h.step (.poll .raised) trivial
          refine iff_of_true ⟨hnext.ordered, fun c hc hfirst hnewest => ?_⟩ trivial
          simp only [step, delivered_poll_false, handed_poll] at hfirst hnewest ⊢
          rcases hnewest with ⟨newest, hmem, hlt⟩
          rw [h.lastVersion_old ⟨newest, hmem, hlt.le⟩]
          exact hw.final c hc hfirst ⟨newest, hmem, hlt⟩
      | returned => exact published_poll_iff h hw htimely

/-- In the runs that miss at most nine candles, every candle older than the newest delivered one
was handed over last in its final version exactly if, whenever a newer candle is delivered, the
one delivered before it is still as it was. -/
theorem published_throughout_iff (events : List Event) (htimely : Admits step Timely start events) :
    (∀ n, Published (run step start (events.take n))) ↔ Admits step StillFinal start events := by
  have hdelivered : Delivered start := ⟨by simp [start, Poller.delivered], rfl, by
    simp [start, Poller.delivered], by simp [start, Poller.delivered]⟩
  have hpublished : Published start := ⟨by simp [start, Poller.delivered], by
    simp [start, Poller.delivered]⟩
  exact invariant_iff_admits_within Delivered Published (fun _ e hw ht => hw.step e ht)
    (fun _ e hw ht hp => published_step_iff e hw hp ht) hdelivered hpublished htimely

/-- A candle is polled while it forms, rises, and is followed by the next one. -/
def formingPolled : List Event :=
  [.tick ⟨0, 100, 101, 99, 100, 5⟩, .poll .returned, .tick ⟨0, 100, 110, 99, 110, 50⟩,
    .tick ⟨3600000, 110, 110, 110, 110, 1⟩, .poll .returned]

/-- Its polls are timely. -/
theorem published_throughout_iff_formingPolled :
    Admits step Timely start formingPolled ∧
      ((∀ n, Published (run step start (formingPolled.take n))) ↔
        Admits step StillFinal start formingPolled) :=
  ⟨by decide +kernel, published_throughout_iff formingPolled (by decide +kernel)⟩

/-- Its first version is the last one handed over. -/
theorem forming_candle_kept : ¬ Published (run step start formingPolled) := by
  intro h
  have hfinal := h.final ⟨0, 100, 110, 99, 110, 50⟩ (by decide +kernel)
    ⟨⟨0, 100, 101, 99, 100, 5⟩, by decide +kernel, by decide⟩
    ⟨⟨3600000, 110, 110, 110, 110, 1⟩, by decide +kernel, by decide⟩
  revert hfinal
  decide +kernel

end CandlePolls
end Karsa
