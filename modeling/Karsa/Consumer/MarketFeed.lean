import Karsa.Consumer.CandleBuffer
import Karsa.Foundations.Pools
import Karsa.Foundations.Runs
import Karsa.Risk.PortfolioChecks

/-!
# Market consumer - Candles and the market state

The consumer buffers the candles of every symbol apart.  Each new candle starts a task that
hands the history of its symbol to the one `MarketAnalyzer` of the process.  The analyzer
remembers one timestamp, keeps one state and publishes it under one key, and the risk
manager applies what stands there to the signals of all symbols.

Indicators are computed by libraries, so the regime of a history is a parameter.

Main results:

- Theorem `view_run`: what a symbol delivers does not depend on the other symbols.
- Theorem `marketState_own`: the runs in which the regime applied to a symbol is its own.
-/

namespace Karsa
namespace MarketFeed

open Risk

/-! ## The analyzer -/

/-- Where an update stands. -/
inductive Stage where
  | created
  | computing
  | publishing (regime : Text)
  | done
deriving Repr, DecidableEq

/-- A task of `update_on_candle_close`. -/
structure UpdateTask where
  symbol : Text
  history : List Candle
  stage : Stage
deriving Repr, DecidableEq

/-- `len(candles) >= 30`. -/
def enough (history : List Candle) : Prop :=
  30 ≤ history.length

instance (history : List Candle) : Decidable (enough history) :=
  inferInstanceAs (Decidable (_ ≤ _))

/-- `int(candles[-1][0])`. -/
def closedAt (history : List Candle) : ℤ :=
  (history.getLast?.map Candle.ts).getD 0

/-- The update is under way. -/
def UpdateTask.inFlight (t : UpdateTask) : Prop :=
  t.stage ≠ .created ∧ t.stage ≠ .done

instance (t : UpdateTask) : Decidable t.inFlight :=
  inferInstanceAs (Decidable (_ ∧ _))

/-- The analyzer, the key `system:config:market_state` and the buffers.  `updates` lists
the histories the analyzer has taken a state from. -/
structure MarketShared where
  feeds : Text → SymbolFeed
  lastCandleTs : ℤ
  currentRegime : Text
  published : Option Text
  updates : List (Text × List Candle)

section Analyzer

variable (compute : Text → List Candle → Text)

/-- `update_on_candle_close` up to its next await.  `written` says whether a write to Redis
succeeds. -/
def updateStep (written : Bool) (m : MarketShared) (t : UpdateTask) :
    MarketShared × UpdateTask :=
  match t.stage with
  | .created =>
      if ¬ enough t.history then (m, { t with stage := .done })
      else if closedAt t.history ≤ m.lastCandleTs then (m, { t with stage := .done })
      else
        ({ m with lastCandleTs := closedAt t.history }, { t with stage := .computing })
  | .computing =>
      let regime := compute t.symbol t.history
      ({ m with currentRegime := regime, updates := m.updates ++ [(t.symbol, t.history)] },
        { t with stage := .publishing regime })
  | .publishing regime =>
      (if written then { m with published := some regime } else m, { t with stage := .done })
  | .done => (m, t)

/-! ## The live loop -/

/-- What happens in the loop: a historical candle is loaded, the analyzer is seeded with
the history of a symbol, a candle message arrives, the connection is lost, or the update of
a number goes on. -/
inductive FeedInput where
  | prefill (symbol : Text) (candle : Candle)
  | seed (symbol : Text)
  | message (exchange symbol timeframe : Text) (candle : Candle)
  | reconnect
  | turn (i : Nat) (written : Bool)
deriving Repr, DecidableEq

/-- The process and its updates. -/
abbrev MarketLoop := Pool MarketShared UpdateTask

/-- Another feed for one symbol. -/
def MarketShared.setFeed (m : MarketShared) (symbol : Text) (f : SymbolFeed) : MarketShared :=
  { m with feeds := Function.update m.feeds symbol f }

/-- One event.  Seeding awaits its update, which then runs like any other. -/
def feedStep (s : MarketLoop) : FeedInput → MarketLoop
  | .prefill symbol candle =>
      let f := s.shared.feeds symbol
      s.update fun m => m.setFeed symbol ⟨appendCandle f.buffer candle, f.lastTs⟩
  | .seed symbol =>
      let history := (s.shared.feeds symbol).buffer
      if 50 ≤ history.length then s.spawn ⟨symbol, history, .created⟩ else s
  | .message exchange symbol timeframe candle =>
      let received := (s.shared.feeds symbol).receive (exchange, timeframe) candle
      let s := s.update fun m => m.setFeed symbol received.1
      if received.2 then s.spawn ⟨symbol, received.1.buffer, .created⟩ else s
  | .reconnect => s.update fun m => { m with feeds := fun _ => .empty }
  | .turn i written => s.turn (updateStep compute written) i

/-- The process at its start, with what an earlier one has published. -/
def atStart (published : Option Text) : MarketLoop :=
  ⟨⟨fun _ => .empty, 0, "RANGE".toList, published, []⟩, []⟩

end Analyzer

/-! ## What a symbol delivers -/

/-- The event feeds the symbol. -/
def FeedInput.feeds (symbol : Text) : FeedInput → Bool
  | .prefill other _ | .seed other | .message _ other _ _ => decide (other = symbol)
  | .reconnect => true
  | .turn _ _ => false

/-- The feed of a symbol and the histories its updates were started with. -/
structure SymbolView where
  feed : SymbolFeed
  histories : List (List Candle)

/-- What the loop holds of a symbol. -/
def view (symbol : Text) (s : MarketLoop) : SymbolView where
  feed := s.shared.feeds symbol
  histories := (s.tasks.filter fun t => t.symbol = symbol).map UpdateTask.history

/-- One event of a symbol. -/
def viewStep (v : SymbolView) : FeedInput → SymbolView
  | .prefill _ candle => { v with feed := ⟨appendCandle v.feed.buffer candle, v.feed.lastTs⟩ }
  | .seed _ =>
      if 50 ≤ v.feed.buffer.length then
        { v with histories := v.histories ++ [v.feed.buffer] }
      else v
  | .message exchange _ timeframe candle =>
      let received := v.feed.receive (exchange, timeframe) candle
      if received.2 then ⟨received.1, v.histories ++ [received.1.buffer]⟩
      else ⟨received.1, v.histories⟩
  | .reconnect => { v with feed := .empty }
  | .turn _ _ => v

section Views

variable (compute : Text → List Candle → Text)

/-- An update leaves the feeds. -/
theorem updateStep_feeds (written : Bool) (m : MarketShared) (t : UpdateTask) :
    (updateStep compute written m t).1.feeds = m.feeds := by
  unfold updateStep
  cases t.stage with
  | created => dsimp only; split_ifs <;> rfl
  | computing => rfl
  | publishing regime => dsimp only; split_ifs <;> rfl
  | done => rfl

/-- A task keeps its symbol and its history. -/
theorem updateStep_task (written : Bool) (m : MarketShared) (t : UpdateTask) :
    (updateStep compute written m t).2.symbol = t.symbol ∧
      (updateStep compute written m t).2.history = t.history := by
  unfold updateStep
  cases t.stage with
  | created => dsimp only; split_ifs <;> exact ⟨rfl, rfl⟩
  | computing => exact ⟨rfl, rfl⟩
  | publishing regime => exact ⟨rfl, rfl⟩
  | done => exact ⟨rfl, rfl⟩

/-- Replacing an item by one of the same kind and value changes no filtered image. -/
theorem filter_map_set {α β : Type} {p : α → Bool} {f : α → β} {l : List α} {i : Nat}
    {a a' : α} (hget : l[i]? = some a) (hp : p a' = p a) (hf : f a' = f a) :
    ((l.set i a').filter p).map f = (l.filter p).map f := by
  induction l generalizing i with
  | nil => simp
  | cons x rest ih =>
      cases i with
      | zero =>
          have hx : x = a := by simpa using hget
          subst hx
          cases hpx : p x with
          | false => simp [List.set, hp, hpx]
          | true => simp [List.set, hp, hpx, hf]
      | succ i =>
          have hrest := ih (by simpa using hget)
          cases hpx : p x with
          | false => simpa [List.set, hpx] using hrest
          | true => simpa [List.set, hpx] using hrest

/-- An update changes nothing that a symbol delivers. -/
theorem view_turn (symbol : Text) (s : MarketLoop) (i : Nat) (written : Bool) :
    view symbol (s.turn (updateStep compute written) i) = view symbol s := by
  cases hi : s.tasks[i]? with
  | none => rw [Pool.turn_of_none hi]
  | some t =>
      rw [Pool.turn_of_some hi]
      have htask := updateStep_task compute written s.shared t
      unfold view
      dsimp only
      rw [updateStep_feeds, filter_map_set hi (by rw [htask.1]) htask.2]

/-- A new update of another symbol is not seen. -/
theorem view_spawn_of_ne {symbol : Text} {t : UpdateTask} (hne : t.symbol ≠ symbol)
    (s : MarketLoop) : view symbol (s.spawn t) = view symbol s := by
  simp [view, Pool.spawn, List.filter_append, hne]

/-- A new update of the symbol adds its history. -/
theorem view_spawn_self (s : MarketLoop) (t : UpdateTask) :
    view t.symbol (s.spawn t) =
      { view t.symbol s with histories := (view t.symbol s).histories ++ [t.history] } := by
  simp [view, Pool.spawn, List.filter_append]

/-- Another symbol's feed is not seen. -/
theorem view_setFeed_of_ne {symbol other : Text} (hne : other ≠ symbol) (s : MarketLoop)
    (f : SymbolFeed) :
    view symbol (s.update fun m => m.setFeed other f) = view symbol s := by
  simp [view, Pool.update, MarketShared.setFeed, Function.update_of_ne hne.symm]

/-- The symbol's own feed is. -/
theorem view_setFeed_self (symbol : Text) (s : MarketLoop) (f : SymbolFeed) :
    view symbol (s.update fun m => m.setFeed symbol f) = { view symbol s with feed := f } := by
  simp [view, Pool.update, MarketShared.setFeed]

/-- A symbol delivers what its own events make of it. -/
theorem view_feedStep (symbol : Text) (s : MarketLoop) (input : FeedInput) :
    view symbol (feedStep compute s input) =
      if input.feeds symbol then viewStep (view symbol s) input else view symbol s := by
  cases input with
  | prefill other candle =>
      by_cases hother : other = symbol
      · subst hother
        rw [if_pos (by simp [FeedInput.feeds])]
        exact view_setFeed_self other s _
      · rw [if_neg (by simp [FeedInput.feeds, hother])]
        exact view_setFeed_of_ne hother s _
  | seed other =>
      by_cases hother : other = symbol
      · subst hother
        by_cases hlong : 50 ≤ (s.shared.feeds other).buffer.length
        · simpa [feedStep, viewStep, FeedInput.feeds, hlong, view] using
            view_spawn_self s ⟨other, (s.shared.feeds other).buffer, .created⟩
        · simp [feedStep, viewStep, FeedInput.feeds, hlong, view]
      · by_cases hlong : 50 ≤ (s.shared.feeds other).buffer.length
        · simpa [feedStep, FeedInput.feeds, hother, hlong] using
            view_spawn_of_ne (t := ⟨other, (s.shared.feeds other).buffer, .created⟩) hother s
        · simp [feedStep, FeedInput.feeds, hother, hlong]
  | message exchange other timeframe candle =>
      by_cases hother : other = symbol
      · subst hother
        have hfeed := view_setFeed_self other s
          ((s.shared.feeds other).receive (exchange, timeframe) candle).1
        cases hnew : ((s.shared.feeds other).receive (exchange, timeframe) candle).2 with
        | false => simpa [feedStep, viewStep, FeedInput.feeds, hnew, view] using hfeed
        | true =>
            have hspawn := view_spawn_self
              (s.update fun m => m.setFeed other
                ((s.shared.feeds other).receive (exchange, timeframe) candle).1)
              ⟨other, ((s.shared.feeds other).receive (exchange, timeframe) candle).1.buffer,
                .created⟩
            rw [hfeed] at hspawn
            simpa [feedStep, viewStep, FeedInput.feeds, hnew, view] using hspawn
      · have hfeed := view_setFeed_of_ne hother s
          ((s.shared.feeds other).receive (exchange, timeframe) candle).1
        cases hnew : ((s.shared.feeds other).receive (exchange, timeframe) candle).2 with
        | false => simpa [feedStep, FeedInput.feeds, hother, hnew] using hfeed
        | true =>
            have hspawn := view_spawn_of_ne (t := ⟨other,
              ((s.shared.feeds other).receive (exchange, timeframe) candle).1.buffer,
              .created⟩) hother (s.update fun m => m.setFeed other
                ((s.shared.feeds other).receive (exchange, timeframe) candle).1)
            rw [hfeed] at hspawn
            simpa [feedStep, FeedInput.feeds, hother, hnew] using hspawn
  | reconnect => rfl
  | turn i written => exact view_turn compute symbol s i written

/-- What a symbol delivers does not depend on the other symbols. -/
theorem view_run (symbol : Text) (s : MarketLoop) (inputs : List FeedInput) :
    view symbol (run (feedStep compute) s inputs) =
      run viewStep (view symbol s) (inputs.filter (FeedInput.feeds symbol)) := by
  induction inputs generalizing s with
  | nil => rfl
  | cons input rest ih =>
      rw [run_cons, ih, view_feedStep]
      cases hfeeds : input.feeds symbol with
      | false => simp [hfeeds]
      | true => simp [hfeeds]

end Views

/-! ## Undisturbed runs -/

/-- The update of the symbol has started on enough candles. -/
def UpdateTask.Started (symbol : Text) (t : UpdateTask) : Prop :=
  t.symbol = symbol ∧ enough t.history ∧ t.stage ≠ .created

/-- The stage is the write to Redis. -/
def Stage.publishes : Stage → Bool
  | .publishing _ => true
  | .created | .computing | .done => false

/-- The update may go on: it takes up a history of the symbol only if that is newer than
all it has seen and no other update is under way, it takes up no history of another symbol,
and its write to Redis succeeds. -/
def UpdateTask.MayGoOn (symbol : Text) (s : MarketLoop) (written : Bool) (t : UpdateTask) :
    Prop :=
  (t.stage = .created → enough t.history → t.symbol = symbol →
      s.shared.lastCandleTs < closedAt t.history ∧ ∀ u ∈ s.tasks, ¬ u.inFlight) ∧
    (t.stage = .created → enough t.history → t.symbol ≠ symbol →
      closedAt t.history ≤ s.shared.lastCandleTs) ∧
    (t.stage.publishes = true → written = true)

instance (symbol : Text) (s : MarketLoop) (written : Bool) :
    DecidablePred (UpdateTask.MayGoOn symbol s written) := fun _ =>
  inferInstanceAs (Decidable (_ ∧ _ ∧ _))

/-- No other symbol comes between the symbol and the market state. -/
def Undisturbed (symbol : Text) (s : MarketLoop) : FeedInput → Prop
  | .turn i written => ∀ t ∈ s.tasks[i]?, t.MayGoOn symbol s written
  | .prefill _ _ | .seed _ | .message _ _ _ _ | .reconnect => True

instance (symbol : Text) (s : MarketLoop) : DecidablePred (Undisturbed symbol s)
  | .turn i _ => inferInstanceAs (Decidable (∀ t ∈ s.tasks[i]?, _))
  | .prefill _ _ | .seed _ | .message _ _ _ _ | .reconnect => isTrue trivial

/-- The updates of the symbol are carried out. -/
def Settled (symbol : Text) (s : MarketLoop) : Prop :=
  ∀ t ∈ s.tasks, t.symbol = symbol → t.stage = .done

instance (symbol : Text) (s : MarketLoop) : Decidable (Settled symbol s) :=
  inferInstanceAs (Decidable (∀ t ∈ s.tasks, _ → _))

section Invariant

variable {compute : Text → List Candle → Text} {symbol : Text} {published : Option Text}

/-- What one turn of an update does. -/
theorem updateStep_cases (compute : Text → List Candle → Text) (written : Bool)
    (m : MarketShared) (t : UpdateTask) :
    (t.stage = .created ∧ (¬ enough t.history ∨ closedAt t.history ≤ m.lastCandleTs) ∧
        updateStep compute written m t = (m, { t with stage := .done })) ∨
      (t.stage = .created ∧ enough t.history ∧ m.lastCandleTs < closedAt t.history ∧
        updateStep compute written m t =
          ({ m with lastCandleTs := closedAt t.history }, { t with stage := .computing })) ∨
      (t.stage = .computing ∧
        updateStep compute written m t =
          ({ m with
              currentRegime := compute t.symbol t.history
              updates := m.updates ++ [(t.symbol, t.history)] },
            { t with stage := .publishing (compute t.symbol t.history) })) ∨
      (∃ regime, t.stage = .publishing regime ∧
        updateStep compute written m t =
          (if written then { m with published := some regime } else m,
            { t with stage := .done })) ∨
      (t.stage = .done ∧ updateStep compute written m t = (m, t)) := by
  unfold updateStep
  cases hstage : t.stage with
  | created =>
      dsimp only
      by_cases henough : enough t.history
      · by_cases hold : closedAt t.history ≤ m.lastCandleTs
        · simp [henough, hold]
        · simp [henough, hold, not_le.mp hold]
      · simp [henough]
  | computing => simp
  | publishing regime => simp
  | done => simp

/-- One update against the state: an update under way is the symbol's latest, what it
publishes is the symbol's regime, and a finished one was taken up. -/
structure Placed (compute : Text → List Candle → Text) (symbol : Text) (m : MarketShared)
    (t : UpdateTask) : Prop where
  inFlight : t.inFlight → t.Started symbol ∧ closedAt t.history = m.lastCandleTs
  publishing : ∀ regime, t.stage = .publishing regime → regime = compute symbol t.history
  started : t.Started symbol → closedAt t.history ≤ m.lastCandleTs
  updated : t.Started symbol → t.stage ≠ .computing → (symbol, t.history) ∈ m.updates

/-- Two updates are never under way together, and no timestamp of the symbol is taken up
twice. -/
structure Apart (symbol : Text) (t u : UpdateTask) : Prop where
  inFlight : ¬ (t.inFlight ∧ u.inFlight)
  distinct : t.Started symbol → u.Started symbol → closedAt t.history ≠ closedAt u.history

theorem Apart.symm {t u : UpdateTask} (h : Apart symbol t u) : Apart symbol u t :=
  ⟨fun hboth => h.inFlight hboth.symm, fun hu ht => (h.distinct ht hu).symm⟩

/-- The updates are where an undisturbed run leaves them. -/
def OwnUpdates (compute : Text → List Candle → Text) (symbol : Text) : MarketLoop → Prop :=
  Pool.Inv (fun _ => True) (Placed compute symbol) (Apart symbol)

/-- A new update is rightly placed. -/
theorem placed_created (m : MarketShared) (other : Text) (history : List Candle) :
    Placed compute symbol m ⟨other, history, .created⟩ := by
  constructor
  · intro h
    exact (h.1 rfl).elim
  · intro regime h
    cases h
  · intro h
    exact (h.2.2 rfl).elim
  · intro h
    exact (h.2.2 rfl).elim

/-- It is apart from all others. -/
theorem apart_created (t : UpdateTask) (other : Text) (history : List Candle) :
    Apart symbol t ⟨other, history, .created⟩ :=
  ⟨fun h => h.2.1 rfl, fun _ h => (h.2.2 rfl).elim⟩

/-- Updates look at the timestamp and at the list of updates only. -/
theorem Placed.congr {m m' : MarketShared} {t : UpdateTask} (h : Placed compute symbol m t)
    (hts : m'.lastCandleTs = m.lastCandleTs) (hupdates : m'.updates = m.updates) :
    Placed compute symbol m' t := by
  refine ⟨?_, h.publishing, ?_, ?_⟩
  · rw [hts]
    exact h.inFlight
  · rw [hts]
    exact h.started
  · rw [hupdates]
    exact h.updated

/-- An update that is taken up belongs to the symbol. -/
theorem UpdateTask.MayGoOn.symbol_eq {s : MarketLoop} {written : Bool} {t : UpdateTask}
    (h : t.MayGoOn symbol s written) (hstage : t.stage = .created) (henough : enough t.history)
    (hnew : s.shared.lastCandleTs < closedAt t.history) : t.symbol = symbol := by
  by_contra hne
  exact absurd (h.2.1 hstage henough hne) (not_le.mpr hnew)

/-- An update that is skipped does not. -/
theorem UpdateTask.MayGoOn.not_started {s : MarketLoop} {written : Bool} {t : UpdateTask}
    (h : t.MayGoOn symbol s written) (hstage : t.stage = .created)
    (hidle : ¬ enough t.history ∨ closedAt t.history ≤ s.shared.lastCandleTs) :
    ¬ UpdateTask.Started symbol { t with stage := .done } := by
  rintro ⟨hsymbol, henough, -⟩
  rcases hidle with hfew | hold
  · exact hfew henough
  · exact absurd (h.1 hstage henough hsymbol).1 (not_lt.mpr hold)

/-- An undisturbed turn leaves its update in place. -/
theorem Placed.step {s : MarketLoop} {written : Bool} {t : UpdateTask}
    (h : Placed compute symbol s.shared t) (hmay : t.MayGoOn symbol s written) :
    Placed compute symbol (updateStep compute written s.shared t).1
      (updateStep compute written s.shared t).2 := by
  rcases updateStep_cases compute written s.shared t with
    ⟨hstage, hidle, hstep⟩ | ⟨hstage, henough, hnew, hstep⟩ | ⟨hstage, hstep⟩ |
    ⟨regime, hstage, hstep⟩ | ⟨hstage, hstep⟩
  · have hforeign := hmay.not_started hstage hidle
    rw [hstep]
    constructor
    · intro hflight
      exact (hflight.2 rfl).elim
    · intro regime hregime
      cases hregime
    · intro hstarted
      exact (hforeign hstarted).elim
    · intro hstarted
      exact (hforeign hstarted).elim
  · have hsymbol := hmay.symbol_eq hstage henough hnew
    rw [hstep]
    constructor
    · intro _
      exact ⟨⟨hsymbol, henough, by simp⟩, rfl⟩
    · intro regime hregime
      cases hregime
    · intro _
      exact le_refl _
    · intro _ hne
      exact (hne rfl).elim
  · have hflight := h.inFlight (by simp [UpdateTask.inFlight, hstage])
    have hsymbol : t.symbol = symbol := hflight.1.1
    rw [hstep]
    constructor
    · intro _
      exact ⟨⟨hsymbol, hflight.1.2.1, by simp⟩, hflight.2⟩
    · intro regime hregime
      cases hregime
      rw [hsymbol]
    · intro _
      exact le_of_eq hflight.2
    · intro _ _
      simp [hsymbol]
  · have hflight := h.inFlight (by simp [UpdateTask.inFlight, hstage])
    have hwritten : written = true := hmay.2.2 (by rw [hstage]; rfl)
    rw [hstep, hwritten]
    constructor
    · intro hdone
      exact (hdone.2 rfl).elim
    · intro regime hregime
      cases hregime
    · intro _
      exact le_of_eq hflight.2
    · intro _ _
      exact h.updated hflight.1 (by simp [hstage])
  · rw [hstep]
    exact h

/-- It leaves the other updates in place and apart from its own. -/
theorem Placed.beside {s : MarketLoop} {written : Bool} {t u : UpdateTask}
    (h : Placed compute symbol s.shared u) (hu : u ∈ s.tasks) (hpair : Apart symbol t u)
    (hmay : t.MayGoOn symbol s written) :
    Placed compute symbol (updateStep compute written s.shared t).1 u ∧
      Apart symbol (updateStep compute written s.shared t).2 u := by
  rcases updateStep_cases compute written s.shared t with
    ⟨hstage, hidle, hstep⟩ | ⟨hstage, henough, hnew, hstep⟩ | ⟨hstage, hstep⟩ |
    ⟨regime, hstage, hstep⟩ | ⟨hstage, hstep⟩
  · have hforeign := hmay.not_started hstage hidle
    rw [hstep]
    exact ⟨h, fun hboth => hboth.1.2 rfl, fun hstarted => (hforeign hstarted).elim⟩
  · have hsymbol := hmay.symbol_eq hstage henough hnew
    have hnone := (hmay.1 hstage henough hsymbol).2 u hu
    rw [hstep]
    refine ⟨⟨fun hflight => (hnone hflight).elim, h.publishing, ?_, h.updated⟩,
      fun hboth => hnone hboth.2, ?_⟩
    · intro hstarted
      exact (h.started hstarted).trans (le_of_lt hnew)
    · intro _ hstarted
      exact ne_of_gt (lt_of_le_of_lt (h.started hstarted) hnew)
  · have hflight : t.inFlight := by simp [UpdateTask.inFlight, hstage]
    rw [hstep]
    refine ⟨⟨h.inFlight, h.publishing, h.started, ?_⟩,
      fun hboth => hpair.inFlight ⟨hflight, hboth.2⟩, ?_⟩
    · intro hstarted hne
      exact List.mem_append_left _ (h.updated hstarted hne)
    · intro hstarted
      exact hpair.distinct ⟨hstarted.1, hstarted.2.1, by simp [hstage]⟩
  · have hwritten : written = true := hmay.2.2 (by rw [hstage]; rfl)
    rw [hstep, hwritten]
    refine ⟨h.congr rfl rfl, fun hboth => hboth.1.2 rfl, ?_⟩
    intro hstarted
    exact hpair.distinct ⟨hstarted.1, hstarted.2.1, by simp [hstage]⟩
  · rw [hstep]
    exact ⟨h, hpair⟩

/-- An undisturbed turn leaves the updates in place. -/
theorem OwnUpdates.turn {s : MarketLoop} (h : OwnUpdates compute symbol s) {i : Nat}
    {written : Bool} (hcond : Undisturbed symbol s (.turn i written)) :
    OwnUpdates compute symbol (s.turn (updateStep compute written) i) := by
  refine Pool.Inv.turn h (fun t u => Apart.symm) i ?_ ?_
  · intro t ht
    have hplaced := h.each t (List.mem_of_getElem? ht)
    exact ⟨trivial, hplaced.step (hcond t ht)⟩
  · intro t ht u hu hpair
    exact (h.each u hu).beside hu hpair (hcond t ht)

/-- Every event of an undisturbed run leaves the updates in place. -/
theorem OwnUpdates.step {s : MarketLoop} (h : OwnUpdates compute symbol s) {input : FeedInput}
    (hcond : Undisturbed symbol s input) :
    OwnUpdates compute symbol (feedStep compute s input) := by
  have hfeed : ∀ (other : Text) (f : SymbolFeed),
      OwnUpdates compute symbol (s.update fun m => m.setFeed other f) := fun other f =>
    Pool.Inv.update h trivial fun t ht => (h.each t ht).congr rfl rfl
  cases input with
  | prefill other candle => exact hfeed other _
  | seed other =>
      unfold feedStep
      dsimp only
      split_ifs
      · exact Pool.Inv.spawn h (placed_created _ _ _) fun u _ => apart_created u _ _
      · exact h
  | message exchange other timeframe candle =>
      unfold feedStep
      dsimp only
      split_ifs
      · exact Pool.Inv.spawn (hfeed other _) (placed_created _ _ _) fun u _ =>
          apart_created u _ _
      · exact hfeed other _
  | reconnect =>
      exact Pool.Inv.update (f := fun m => { m with feeds := fun _ => .empty }) h trivial
        fun t ht => (h.each t ht).congr rfl rfl
  | turn i written => exact h.turn hcond

/-- The published regime is the symbol's: that of its latest update once this is done, and
the earlier one as long as no update has started. -/
def Latest (compute : Text → List Candle → Text) (symbol : Text) (published : Option Text)
    (s : MarketLoop) : Prop :=
  (∃ t ∈ s.tasks, t.Started symbol ∧ closedAt t.history = s.shared.lastCandleTs ∧
      (t.stage = .done → s.shared.published = some (compute symbol t.history))) ∨
    (∀ t ∈ s.tasks, ¬ t.Started symbol) ∧ s.shared.published = published

/-- A new update changes nothing yet. -/
theorem Latest.spawn {s : MarketLoop} (h : Latest compute symbol published s) (other : Text)
    (history : List Candle) :
    Latest compute symbol published (s.spawn ⟨other, history, .created⟩) := by
  rcases h with ⟨t, ht, hlatest⟩ | ⟨hnone, hpublished⟩
  · exact Or.inl ⟨t, Pool.mem_spawn.mpr (Or.inl ht), hlatest⟩
  · refine Or.inr ⟨?_, hpublished⟩
    intro t ht
    rcases Pool.mem_spawn.mp ht with hold | rfl
    · exact hnone t hold
    · intro hstarted
      exact hstarted.2.2 rfl

/-- A turn that changes nothing shared and starts or moves no update of the symbol. -/
theorem Latest.turn_kept {s : MarketLoop} (h : Latest compute symbol published s) {i : Nat}
    {written : Bool} {t t' : UpdateTask} (hi : s.tasks[i]? = some t)
    (hstep : updateStep compute written s.shared t = (s.shared, t'))
    (hnew : t'.Started symbol → t' = t) (hold : t.Started symbol → t' = t) :
    Latest compute symbol published (s.turn (updateStep compute written) i) := by
  have hturn : s.turn (updateStep compute written) i = ⟨s.shared, s.tasks.set i t'⟩ := by
    rw [Pool.turn_of_some hi, hstep]
  rw [hturn]
  rcases h with ⟨u, hu, hstarted, hlatest⟩ | ⟨hnone, hpublished⟩
  · refine Or.inl ⟨u, ?_, hstarted, hlatest⟩
    rcases List.mem_iff_getElem?.mp hu with ⟨j, hj⟩
    rw [← show (s.turn (updateStep compute written) i).tasks = s.tasks.set i t' by rw [hturn]]
    by_cases hji : j = i
    · subst hji
      obtain rfl := Option.some.inj (hi.symm.trans hj)
      have hnext := @Pool.next_mem_turn _ _ (updateStep compute written) s j t hi
      rwa [hstep, hold hstarted] at hnext
    · exact Pool.mem_turn_of_ne hji hj
  · refine Or.inr ⟨fun u hu hstarted => ?_, hpublished⟩
    rcases Pool.mem_set hu with rfl | ⟨j, -, hj⟩
    · exact hnone t (List.mem_of_getElem? hi) (hnew hstarted ▸ hstarted)
    · exact hnone u (List.mem_of_getElem? hj) hstarted

/-- An undisturbed turn publishes only the symbol's latest update. -/
theorem Latest.turn {s : MarketLoop} (h : Latest compute symbol published s)
    (hown : OwnUpdates compute symbol s) {i : Nat} {written : Bool}
    (hcond : Undisturbed symbol s (.turn i written)) :
    Latest compute symbol published (s.turn (updateStep compute written) i) := by
  cases hi : s.tasks[i]? with
  | none =>
      rw [Pool.turn_of_none hi]
      exact h
  | some t =>
      have hmay : t.MayGoOn symbol s written := hcond t hi
      have hplaced := hown.each t (List.mem_of_getElem? hi)
      have hnext := @Pool.next_mem_turn _ _ (updateStep compute written) s i t hi
      have hshared : (s.turn (updateStep compute written) i).shared =
          (updateStep compute written s.shared t).1 := by
        rw [Pool.turn_of_some hi]
      rcases updateStep_cases compute written s.shared t with
        ⟨hstage, hidle, hstep⟩ | ⟨hstage, henough, hnew, hstep⟩ | ⟨hstage, hstep⟩ |
        ⟨regime, hstage, hstep⟩ | ⟨hstage, hstep⟩
      · exact h.turn_kept hi hstep (fun hstarted => absurd hstarted (hmay.not_started hstage hidle))
          fun hstarted => absurd hstage hstarted.2.2
      · have hsymbol := hmay.symbol_eq hstage henough hnew
        unfold Latest
        rw [hshared]
        rw [hstep] at hnext ⊢
        exact Or.inl ⟨_, hnext, ⟨hsymbol, henough, by simp⟩, rfl, fun hdone => by cases hdone⟩
      · have hflight := hplaced.inFlight (by simp [UpdateTask.inFlight, hstage])
        unfold Latest
        rw [hshared]
        rw [hstep] at hnext ⊢
        exact Or.inl ⟨_, hnext, ⟨hflight.1.1, hflight.1.2.1, by simp⟩, hflight.2,
          fun hdone => by cases hdone⟩
      · have hflight := hplaced.inFlight (by simp [UpdateTask.inFlight, hstage])
        have hwritten : written = true := hmay.2.2 (by rw [hstage]; rfl)
        unfold Latest
        rw [hshared]
        rw [hstep, hwritten] at hnext ⊢
        refine Or.inl ⟨_, hnext, ⟨hflight.1.1, hflight.1.2.1, by simp⟩, hflight.2, ?_⟩
        intro _
        exact congrArg some (hplaced.publishing regime hstage)
      · exact h.turn_kept hi hstep (fun _ => rfl) fun _ => rfl

/-- Every event of an undisturbed run keeps the published regime the symbol's. -/
theorem Latest.step {s : MarketLoop} (h : Latest compute symbol published s)
    (hown : OwnUpdates compute symbol s) {input : FeedInput}
    (hcond : Undisturbed symbol s input) :
    Latest compute symbol published (feedStep compute s input) := by
  cases input with
  | prefill other candle => exact h
  | seed other =>
      unfold feedStep
      dsimp only
      split_ifs
      · exact h.spawn other _
      · exact h
  | message exchange other timeframe candle =>
      unfold feedStep
      dsimp only
      split_ifs
      · exact Latest.spawn (s := s.update fun m => m.setFeed other _) h other _
      · exact h
  | reconnect => exact h
  | turn i written => exact h.turn hown hcond

/-- At the start there is no update. -/
theorem atStart_latest :
    OwnUpdates compute symbol (atStart published) ∧
      Latest compute symbol published (atStart published) := by
  refine ⟨⟨trivial, ?_, List.Pairwise.nil⟩, Or.inr ⟨?_, rfl⟩⟩
  · intro t ht
    cases ht
  · intro t ht
    cases ht

/-- An undisturbed run keeps both. -/
theorem latest_run {inputs : List FeedInput}
    (hadmits : Admits (feedStep compute) (Undisturbed symbol) (atStart published) inputs) :
    OwnUpdates compute symbol (run (feedStep compute) (atStart published) inputs) ∧
      Latest compute symbol published (run (feedStep compute) (atStart published) inputs) := by
  have hstep : ∀ s input,
      OwnUpdates compute symbol s ∧ Latest compute symbol published s →
        Undisturbed symbol s input →
          OwnUpdates compute symbol (feedStep compute s input) ∧
            Latest compute symbol published (feedStep compute s input) := by
    intro s input hinv hcond
    exact ⟨hinv.1.step hcond, hinv.2.step hinv.1 hcond⟩
  exact invariant_run hstep atStart_latest hadmits

/-- A history that the symbol delivered belongs to one of its updates. -/
theorem mem_histories {s : MarketLoop} {history : List Candle} :
    history ∈ (view symbol s).histories ↔
      ∃ t ∈ s.tasks, t.symbol = symbol ∧ t.history = history := by
  simp [view, and_assoc]

/-- In a settled undisturbed run the symbol's histories with enough candles have all been
taken up, no two of the same timestamp, and the published regime is that of the newest. -/
theorem settled_published {s : MarketLoop} (hown : OwnUpdates compute symbol s)
    (hlatest : Latest compute symbol published s) (hsettled : Settled symbol s) :
    (∀ h ∈ (view symbol s).histories, enough h → (symbol, h) ∈ s.shared.updates) ∧
      ((∃ h ∈ (view symbol s).histories, enough h ∧
          s.shared.published = some (compute symbol h) ∧
          ∀ h' ∈ (view symbol s).histories, enough h' → closedAt h' ≤ closedAt h) ∨
        (∀ h ∈ (view symbol s).histories, ¬ enough h) ∧ s.shared.published = published) := by
  have hstarted : ∀ t ∈ s.tasks, t.symbol = symbol → enough t.history →
      t.Started symbol := by
    intro t ht hsymbol henough
    refine ⟨hsymbol, henough, ?_⟩
    rw [hsettled t ht hsymbol]
    simp
  constructor
  · intro h hh henough
    rcases mem_histories.mp hh with ⟨t, ht, hsymbol, rfl⟩
    apply (hown.each t ht).updated (hstarted t ht hsymbol henough)
    rw [hsettled t ht hsymbol]
    simp
  · rcases hlatest with ⟨t, ht, htstarted, hts, hpublished⟩ | ⟨hnone, hpublished⟩
    · refine Or.inl ⟨t.history, mem_histories.mpr ⟨t, ht, htstarted.1, rfl⟩, htstarted.2.1,
        hpublished (hsettled t ht htstarted.1), ?_⟩
      intro h' hh' henough
      rcases mem_histories.mp hh' with ⟨u, hu, hsymbol, rfl⟩
      rw [hts]
      exact (hown.each u hu).started (hstarted u hu hsymbol henough)
    · refine Or.inr ⟨?_, hpublished⟩
      intro h hh henough
      rcases mem_histories.mp hh with ⟨t, ht, hsymbol, rfl⟩
      exact hnone t ht (hstarted t ht hsymbol henough)

/-- One timestamp was taken up for one history. -/
theorem OwnUpdates.history_eq {s : MarketLoop} (hown : OwnUpdates compute symbol s)
    {t u : UpdateTask} (ht : t ∈ s.tasks) (hu : u ∈ s.tasks) (htstarted : t.Started symbol)
    (hustarted : u.Started symbol) (hts : closedAt t.history = closedAt u.history) :
    t.history = u.history := by
  rcases List.mem_iff_getElem?.mp ht with ⟨i, hi⟩
  rcases List.mem_iff_getElem?.mp hu with ⟨j, hj⟩
  by_cases hij : i = j
  · subst hij
    rw [hi] at hj
    cases hj
    rfl
  · have hapart := Pool.pair_of_ne (fun t u => Apart.symm) hown.pair hij hi hj
    exact absurd hts (hapart.distinct htstarted hustarted)

end Invariant

/-! ## The regime applied to a signal -/

/-- What the risk manager reads of the market state. -/
def regimeRead (s : MarketLoop) : KeyRead Text :=
  match s.shared.published with
  | none => .absent
  | some regime => .value regime

/-- Two settled undisturbed runs that deliver the same candles of a symbol apply the same
regime to its signals, and each of its new candles with enough history was taken up. -/
theorem marketState_own (compute : Text → List Candle → Text) (symbol : Text)
    (published : Option Text) (inputs inputs' : List FeedInput)
    (hsame : inputs.filter (FeedInput.feeds symbol) = inputs'.filter (FeedInput.feeds symbol))
    (hadmits : Admits (feedStep compute) (Undisturbed symbol) (atStart published) inputs)
    (hadmits' : Admits (feedStep compute) (Undisturbed symbol) (atStart published) inputs')
    (hsettled : Settled symbol (run (feedStep compute) (atStart published) inputs))
    (hsettled' : Settled symbol (run (feedStep compute) (atStart published) inputs')) :
    (∀ direction,
        mtfRegimeAlignment direction
            (some (regimeRead (run (feedStep compute) (atStart published) inputs))) =
          mtfRegimeAlignment direction
            (some (regimeRead (run (feedStep compute) (atStart published) inputs')))) ∧
      ∀ h ∈ (view symbol (run (feedStep compute) (atStart published) inputs)).histories,
        enough h →
          (symbol, h) ∈ (run (feedStep compute) (atStart published) inputs).shared.updates := by
  have hview := view_run compute symbol (atStart published) inputs
  rw [hsame, ← view_run compute] at hview
  rcases latest_run hadmits with ⟨hown, hlatest⟩
  rcases latest_run hadmits' with ⟨hown', hlatest'⟩
  rcases settled_published hown hlatest hsettled with ⟨htaken, hregime⟩
  rcases settled_published hown' hlatest' hsettled' with ⟨-, hregime'⟩
  refine ⟨?_, htaken⟩
  have hpublished : (run (feedStep compute) (atStart published) inputs).shared.published =
      (run (feedStep compute) (atStart published) inputs').shared.published := by
    rw [← hview] at hregime'
    rcases hregime with ⟨h, hh, henough, hvalue, hmax⟩ | ⟨hfew, hvalue⟩
    · rcases hregime' with ⟨h', hh', henough', hvalue', hmax'⟩ | ⟨hfew', -⟩
      · have hts : closedAt h = closedAt h' :=
          le_antisymm (hmax' h hh henough) (hmax h' hh' henough')
        rcases mem_histories.mp hh with ⟨t, ht, htsymbol, rfl⟩
        rcases mem_histories.mp hh' with ⟨u, hu, husymbol, rfl⟩
        have htstarted : t.Started symbol :=
          ⟨htsymbol, henough, by rw [hsettled t ht htsymbol]; simp⟩
        have hustarted : u.Started symbol :=
          ⟨husymbol, henough', by rw [hsettled u hu husymbol]; simp⟩
        rw [hvalue, hvalue', hown.history_eq ht hu htstarted hustarted hts]
      · exact (hfew' h hh henough).elim
    · rcases hregime' with ⟨h', hh', henough', -, -⟩ | ⟨-, hvalue'⟩
      · exact (hfew h' hh' henough').elim
      · rw [hvalue, hvalue']
  intro direction
  unfold regimeRead
  rw [hpublished]

section Runs

/-- The regime of a strong trend: the last close against the mean of the last twenty. -/
def trendRegime (_symbol : Text) (history : List Candle) : Text :=
  let last := (history.drop (history.length - 20)).map Candle.close
  if (last.foldr (· + ·) 0) / 20 < last.getLast?.getD 0 then "TREND_BULL".toList
  else "TREND_BEAR".toList

/-- A candle of the hour at the price. -/
def hourly (hour : Nat) (price : ℚ) : Candle :=
  ⟨3600000 * (hour + 1), price, price, price, price, 1⟩

/-- Thirty hours of a symbol and its next candle; the prices move by the slope. -/
def history (symbol : String) (slope : ℚ) : List FeedInput :=
  (List.range 30).map fun hour => .prefill symbol.toList (hourly hour (1000 + slope * hour))

/-- The candle after these hours. -/
def nextCandle (symbol : String) (slope : ℚ) : FeedInput :=
  .message "bybit".toList symbol.toList "1h".toList (hourly 30 (1000 + slope * 30))

/-- A rising `BTC/USDT` whose update is carried out before that of a falling `ETH/USDT`. -/
def btcFirst : List FeedInput :=
  history "BTC/USDT" 5 ++ history "ETH/USDT" (-5) ++
    [nextCandle "BTC/USDT" 5, nextCandle "ETH/USDT" (-5), .turn 0 true, .turn 0 true,
      .turn 0 true, .turn 1 true]

/-- The same `BTC/USDT` alone. -/
def btcAlone : List FeedInput :=
  history "BTC/USDT" 5 ++ [nextCandle "BTC/USDT" 5, .turn 0 true, .turn 0 true, .turn 0 true]

/-- The same two symbols, but the candle of `ETH/USDT` arrives first. -/
def ethFirst : List FeedInput :=
  history "BTC/USDT" 5 ++ history "ETH/USDT" (-5) ++
    [nextCandle "ETH/USDT" (-5), nextCandle "BTC/USDT" 5, .turn 0 true, .turn 1 true,
      .turn 0 true, .turn 0 true]

theorem marketState_own_btcFirst :
    (∀ direction,
        mtfRegimeAlignment direction
            (some (regimeRead (run (feedStep trendRegime) (atStart none) btcFirst))) =
          mtfRegimeAlignment direction
            (some (regimeRead (run (feedStep trendRegime) (atStart none) btcAlone)))) ∧
      ∀ h ∈ (view "BTC/USDT".toList
          (run (feedStep trendRegime) (atStart none) btcFirst)).histories,
        enough h → ("BTC/USDT".toList, h) ∈
          (run (feedStep trendRegime) (atStart none) btcFirst).shared.updates :=
  marketState_own trendRegime "BTC/USDT".toList none btcFirst btcAlone (by decide +kernel)
    (by decide +kernel) (by decide +kernel) (by decide +kernel) (by decide +kernel)

/-- With the same candles of `BTC/USDT`, the first candle of the hour decides: after that of
`ETH/USDT` a long in `BTC/USDT` is refused and its candle is never taken up. -/
theorem marketState_foreign :
    ethFirst.filter (FeedInput.feeds "BTC/USDT".toList) =
        btcAlone.filter (FeedInput.feeds "BTC/USDT".toList) ∧
      Settled "BTC/USDT".toList (run (feedStep trendRegime) (atStart none) ethFirst) ∧
      Settled "BTC/USDT".toList (run (feedStep trendRegime) (atStart none) btcAlone) ∧
      mtfRegimeAlignment "LONG".toList
          (some (regimeRead (run (feedStep trendRegime) (atStart none) ethFirst))) = .failed ∧
      mtfRegimeAlignment "LONG".toList
          (some (regimeRead (run (feedStep trendRegime) (atStart none) btcAlone))) = .passed ∧
      ∃ h ∈ (view "BTC/USDT".toList
          (run (feedStep trendRegime) (atStart none) ethFirst)).histories,
        enough h ∧ ("BTC/USDT".toList, h) ∉
          (run (feedStep trendRegime) (atStart none) ethFirst).shared.updates := by
  decide +kernel

end Runs

end MarketFeed
end Karsa
