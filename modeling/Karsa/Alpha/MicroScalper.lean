import Karsa.Foundations.Dicts
import Karsa.Foundations.Sightings
import Karsa.Foundations.Text
import Mathlib.Algebra.BigOperators.Group.List.Basic
import Mathlib.Algebra.Order.Field.Rat
import Mathlib.Tactic.Linarith
import Mathlib.Tactic.NormNum

/-!
# Alpha - Micro scalper

`MicroScalper` looks at every tick: where the order book and the last trades lean to one side, it
gives a signal to enter on that side of a narrow spread, with a fixed stop and target.  A symbol
that has had a signal gets none for a minute.

Main results:

- Theorem `bracket_of_pattern`: the prices of a signal.
- Theorem `evaluateTick_iff`: when a tick gives a signal.
- Theorem `signals_apart`: the signals of a symbol are a minute apart.
-/

namespace Karsa
namespace MicroScalper

/-- A trade of the tape; `none` is a key that is not there. -/
structure TapeTrade where
  side : Option Text
  qty : Option ℚ
deriving Repr, DecidableEq

/-- The arguments of `evaluate_tick`, and the time. -/
structure Tick where
  symbol : Text
  now : ℚ
  bestBid : ℚ
  bestAsk : ℚ
  obImbalance : ℚ
  recentTrades : List TapeTrade
deriving Repr, DecidableEq

inductive Direction where
  | LONG
  | SHORT
deriving Repr, DecidableEq

/-- `ScalperSignal`. -/
structure ScalperSignal where
  symbol : Text
  direction : Direction
  entryPrice : ℚ
  slPrice : ℚ
  tpPrice : ℚ
  confidence : ℚ
  timestamp : ℚ
deriving Repr, DecidableEq

/-- `_cooldown`. -/
def cooldown : ℚ := 60

/-- The volume of one side of the tape. -/
def volume (side : Text) (trades : List TapeTrade) : ℚ :=
  ((trades.filter fun t => decide (t.side = some side)).map fun t => t.qty.getD 0).sum

/-- `spread_pct`. -/
def Tick.spreadPct (t : Tick) : ℚ :=
  (t.bestAsk - t.bestBid) / t.bestBid

/-- `total_vol`. -/
def Tick.totalVol (t : Tick) : ℚ :=
  volume ['b', 'u', 'y'] t.recentTrades + volume ['s', 'e', 'l', 'l'] t.recentTrades

/-- `buy_pct`. -/
def Tick.buyPct (t : Tick) : ℚ :=
  volume ['b', 'u', 'y'] t.recentTrades / t.totalVol

/-- `direction`, by the order book and the tape. -/
def Tick.direction (t : Tick) : Option Direction :=
  if 3 / 10 < t.obImbalance ∧ 6 / 10 < t.buyPct then some .LONG
  else if t.obImbalance < -(3 / 10) ∧ 6 / 10 < 1 - t.buyPct then some .SHORT
  else none

/-- The signal of a direction. -/
def Tick.signal (t : Tick) : Direction → ScalperSignal
  | .LONG =>
      { symbol := t.symbol
        direction := .LONG
        entryPrice := t.bestBid
        slPrice := t.bestBid * (998 / 1000)
        tpPrice := t.bestBid * (1003 / 1000)
        confidence := |t.obImbalance| * 100
        timestamp := t.now }
  | .SHORT =>
      { symbol := t.symbol
        direction := .SHORT
        entryPrice := t.bestAsk
        slPrice := t.bestAsk * (1002 / 1000)
        tpPrice := t.bestAsk * (997 / 1000)
        confidence := |t.obImbalance| * 100
        timestamp := t.now }

/-- `evaluate_tick` behind its cooldown check. -/
def Tick.pattern (t : Tick) : Option ScalperSignal :=
  if t.bestBid ≤ 0 ∨ t.bestAsk ≤ 0 then none
  else if 4 / 10000 < t.spreadPct then none
  else if t.totalVol = 0 then none
  else t.direction.map t.signal

/-- `evaluate_tick`, with `_last_signal_time`. -/
def evaluateTick (last : Dict Text ℚ) (t : Tick) : Option ScalperSignal × Dict Text ℚ :=
  if t.now - (last.get t.symbol).getD 0 < cooldown then (none, last)
  else
    match t.pattern with
    | none => (none, last)
    | some signal => (some signal, last.set t.symbol t.now)

/-- The scalper after some ticks: the signals it has given, and `_last_signal_time`. -/
def after (ticks : List Tick) : List ScalperSignal × Dict Text ℚ :=
  run (fun s t =>
    let answer := evaluateTick s.2 t
    (s.1 ++ answer.1.toList, answer.2)) ([], []) ticks

/-- The signals of some ticks. -/
def signals (ticks : List Tick) : List ScalperSignal :=
  (after ticks).1

/-- `_last_signal_time` after some ticks. -/
def lastSignalTime (ticks : List Tick) : Dict Text ℚ :=
  (after ticks).2

/-! ## Prices -/

/-- A signal stands on its own side of a narrow spread, with its stop behind it and its target,
half as far again, before it. -/
structure ScalperSignal.Bracketed (t : Tick) (s : ScalperSignal) : Prop where
  long : s.direction = .LONG → s.entryPrice = t.bestBid ∧ s.slPrice < s.entryPrice ∧
    s.tpPrice - s.entryPrice = 3 / 2 * (s.entryPrice - s.slPrice)
  short : s.direction = .SHORT → s.entryPrice = t.bestAsk ∧ s.entryPrice < s.slPrice ∧
    s.entryPrice - s.tpPrice = 3 / 2 * (s.slPrice - s.entryPrice)
  spread : t.bestAsk ≤ t.bestBid * (10004 / 10000)
  identity : s.symbol = t.symbol ∧ s.timestamp = t.now

/-- The prices of a signal. -/
theorem bracket_of_pattern {t : Tick} {s : ScalperSignal} (h : t.pattern = some s) :
    s.Bracketed t := by
  rw [Tick.pattern] at h
  split_ifs at h with hprices hspread htotal
  rcases not_or.mp hprices with ⟨hbid, hask⟩
  rw [not_le] at hbid hask
  rcases Option.map_eq_some_iff.mp h with ⟨direction, -, rfl⟩
  have hnarrow : t.bestAsk ≤ t.bestBid * (10004 / 10000) := by
    rw [Tick.spreadPct, not_lt, div_le_iff₀ hbid] at hspread
    linarith
  cases direction with
  | LONG =>
      refine ⟨fun _ => ⟨rfl, ?_, ?_⟩, fun hdirection => ?_, hnarrow, rfl, rfl⟩
      · rw [Tick.signal]
        dsimp only
        linarith
      · rw [Tick.signal]
        dsimp only
        linarith
      · simp [Tick.signal] at hdirection
  | SHORT =>
      refine ⟨fun hdirection => ?_, fun _ => ⟨rfl, ?_, ?_⟩, hnarrow, rfl, rfl⟩
      · simp [Tick.signal] at hdirection
      · rw [Tick.signal]
        dsimp only
        linarith
      · rw [Tick.signal]
        dsimp only
        linarith

/-! ## Cooldown -/

/-- A tick gives the signal of its pattern when its symbol is not cooling down. -/
theorem evaluateTick_eq_some_iff {last : Dict Text ℚ} {t : Tick} {s : ScalperSignal} :
    (evaluateTick last t).1 = some s ↔
      t.pattern = some s ∧ ¬ t.now - (last.get t.symbol).getD 0 < cooldown := by
  rw [evaluateTick]
  split_ifs with hcool
  · exact iff_of_false (by simp) fun h => h.2 hcool
  · cases hpattern : t.pattern with
    | none => simp
    | some signal => exact (and_iff_left hcool).symm

/-- The last signal time of a symbol is that of its newest signal. -/
structure Tracked (given : List ScalperSignal) (last : Dict Text ℚ) : Prop where
  none : ∀ symbol, last.get symbol = none → ∀ s ∈ given, s.symbol ≠ symbol
  some : ∀ symbol time, last.get symbol = some time →
    (∃ s ∈ given, s.symbol = symbol ∧ s.timestamp = time) ∧ cooldown ≤ time ∧
      ∀ s ∈ given, s.symbol = symbol → s.timestamp ≤ time

/-- The cooldown of a symbol is over when all its signals are a minute old. -/
theorem Tracked.cooled_iff {given : List ScalperSignal} {last : Dict Text ℚ}
    (h : Tracked given last) (symbol : Text) (now : ℚ) :
    ¬ now - (last.get symbol).getD 0 < cooldown ↔
      cooldown ≤ now ∧ ∀ s ∈ given, s.symbol = symbol → s.timestamp + cooldown ≤ now := by
  rw [not_lt]
  cases hget : last.get symbol with
  | none =>
      rw [Option.getD_none, sub_zero]
      refine ⟨fun hnow => ⟨hnow, fun s hs hsymbol => ?_⟩, fun hnow => hnow.1⟩
      exact absurd hsymbol (h.none symbol hget s hs)
  | some time =>
      rcases h.some symbol time hget with ⟨⟨s, hs, hsymbol, rfl⟩, hlate, hall⟩
      rw [Option.getD_some]
      constructor
      · intro hnow
        refine ⟨?_, fun s' hs' hsymbol' => ?_⟩
        · rw [cooldown] at *
          linarith
        · have hle := hall s' hs' hsymbol'
          linarith
      · intro hnow
        have hold := hnow.2 s hs hsymbol
        linarith

/-- A tick. -/
theorem after_concat (ticks : List Tick) (t : Tick) :
    after (ticks ++ [t]) =
      (signals ticks ++ (evaluateTick (lastSignalTime ticks) t).1.toList,
        (evaluateTick (lastSignalTime ticks) t).2) :=
  run_concat _ _ _ _

/-- Whatever ticks have come, the last signal times are right. -/
theorem tracked_after (ticks : List Tick) : Tracked (signals ticks) (lastSignalTime ticks) := by
  induction ticks using List.reverseRecOn with
  | nil => exact ⟨by simp [signals, after], by simp [lastSignalTime, after]⟩
  | append_singleton ticks t ih =>
      rw [signals, lastSignalTime, after_concat]
      dsimp only
      rw [evaluateTick]
      split_ifs with hcool
      · rw [Option.toList_none, List.append_nil]
        exact ih
      · cases hpattern : t.pattern with
        | none =>
            dsimp only
            rw [Option.toList_none, List.append_nil]
            exact ih
        | some s =>
            rcases (bracket_of_pattern hpattern).identity with ⟨hsymbol, htime⟩
            rcases (ih.cooled_iff t.symbol t.now).mp hcool with ⟨hlate, hall⟩
            dsimp only
            rw [Option.toList_some]
            refine ⟨fun symbol hget s' hs' heq => ?_, fun symbol time hget => ?_⟩
            · by_cases hsame : symbol = t.symbol
              · rw [hsame, Dict.get_set_self] at hget
                contradiction
              · rw [Dict.get_set_of_ne hsame] at hget
                rcases List.mem_append.mp hs' with hold | hnew
                · exact ih.none symbol hget s' hold heq
                · rw [List.mem_singleton.mp hnew] at heq
                  exact hsame (heq.symm.trans hsymbol)
            · by_cases hsame : symbol = t.symbol
              · rw [hsame, Dict.get_set_self, Option.some_inj] at hget
                subst hget
                refine ⟨⟨s, by simp, hsymbol.trans hsame.symm, htime⟩, hlate, ?_⟩
                intro s' hs' heq
                rcases List.mem_append.mp hs' with hold | hnew
                · have hle := hall s' hold (heq.trans hsame)
                  rw [cooldown] at hle
                  linarith
                · rw [List.mem_singleton.mp hnew, htime]
              · rw [Dict.get_set_of_ne hsame] at hget
                rcases ih.some symbol time hget with ⟨⟨s', hs', hfound⟩, hlate', hall'⟩
                refine ⟨⟨s', List.mem_append_left _ hs', hfound⟩, hlate', ?_⟩
                intro s'' hs'' heq
                rcases List.mem_append.mp hs'' with hold | hnew
                · exact hall' s'' hold heq
                · rw [List.mem_singleton.mp hnew] at heq
                  exact absurd (heq.symm.trans hsymbol) hsame

/-- Behind any ticks, a tick gives the signal of its pattern unless a signal of its symbol is less
than a minute old. -/
theorem evaluateTick_iff (ticks : List Tick) (t : Tick) (s : ScalperSignal) :
    (evaluateTick (lastSignalTime ticks) t).1 = some s ↔
      t.pattern = some s ∧ cooldown ≤ t.now ∧
        ∀ old ∈ signals ticks, old.symbol = t.symbol → old.timestamp + cooldown ≤ t.now := by
  rw [evaluateTick_eq_some_iff, (tracked_after ticks).cooled_iff]

/-- However the clock runs, the signals of a symbol come at least a minute after one another. -/
theorem signals_apart (ticks : List Tick) :
    (signals ticks).Pairwise fun a b =>
      a.symbol = b.symbol → a.timestamp + cooldown ≤ b.timestamp := by
  induction ticks using List.reverseRecOn with
  | nil => exact List.Pairwise.nil
  | append_singleton ticks t ih =>
      rw [signals, after_concat]
      dsimp only
      cases hsignal : (evaluateTick (lastSignalTime ticks) t).1 with
      | none =>
          rw [Option.toList_none, List.append_nil]
          exact ih
      | some s =>
          rcases evaluateTick_eq_some_iff.mp hsignal with ⟨hpattern, hcool⟩
          rcases ((tracked_after ticks).cooled_iff t.symbol t.now).mp hcool with ⟨-, hall⟩
          rcases (bracket_of_pattern hpattern).identity with ⟨hsymbol, htime⟩
          rw [Option.toList_some]
          refine List.pairwise_append.mpr ⟨ih, List.pairwise_singleton _ s, ?_⟩
          intro a ha b hb heq
          rw [List.mem_singleton.mp hb] at heq ⊢
          rw [htime]
          exact hall a ha (heq.trans hsymbol)

end MicroScalper
end Karsa
