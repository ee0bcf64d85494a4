import Karsa.Consumer.DecisionEngine
import Karsa.Foundations.Dicts
import Karsa.Foundations.Runs

/-!
# Decision engine - Regime hysteresis

`DecisionEngine` keeps for every symbol the regime it last worked with and counts the readings in
a row that differ from it.  The second such reading becomes the new regime.  Which regime the
first one was is not kept.

Main results:

- Theorem `settle_regime`: the regime of an evaluation is the one that `evaluate` works with.
- Theorem `get_settle_self`, `get_settle_of_ne`: what one reading does to each symbol.
- Theorem `hysteresis_iff`: the runs in which only a regime that is read twice in a row is
  switched to.
-/

namespace Karsa
namespace Decision

open Live (MarketRegime)

/-! ## Readings -/

/-- `_prev_regimes` and `_regime_transition_counts`. -/
structure RegimeMemory where
  prevRegimes : Dict Text MarketRegime
  transitionCounts : Dict Text ℕ
deriving Repr, DecidableEq

/-- A raw regime that is read for a symbol. -/
structure RegimeReading where
  symbol : Text
  regime : MarketRegime
deriving Repr, DecidableEq

/-- The hysteresis of `evaluate`: what it makes of a reading. -/
def settle (memory : RegimeMemory) (r : RegimeReading) : RegimeMemory :=
  match memory.prevRegimes.get r.symbol with
  | some previous =>
      if r.regime ≠ previous then
        let count := (memory.transitionCounts.get r.symbol).getD 0 + 1
        let counts := memory.transitionCounts.set r.symbol count
        if count < 2 then ⟨memory.prevRegimes.set r.symbol previous, counts⟩
        else ⟨memory.prevRegimes.set r.symbol r.regime, counts.pop r.symbol⟩
      else ⟨memory.prevRegimes.set r.symbol r.regime, memory.transitionCounts.pop r.symbol⟩
  | none => ⟨memory.prevRegimes.set r.symbol r.regime, memory.transitionCounts.pop r.symbol⟩

/-- The regime of a symbol and the readings that differ from it, after a reading. -/
def transition (previous : Option MarketRegime) (count : Option ℕ) (raw : MarketRegime) :
    MarketRegime × Option ℕ :=
  match previous with
  | some previous =>
      if raw = previous then (raw, none)
      else if count.getD 0 = 0 then (previous, some 1)
      else (raw, none)
  | none => (raw, none)

/-- Behind a transition the count tells whether the reading differs from the regime. -/
theorem transition_count (previous : Option MarketRegime) (count : Option ℕ) (raw : MarketRegime) :
    (transition previous count raw).2 =
      if raw = (transition previous count raw).1 then none else some 1 := by
  unfold transition
  cases previous with
  | none => simp
  | some previous =>
      dsimp only
      by_cases hsame : raw = previous
      · simp [hsame]
      · by_cases hcount : count.getD 0 = 0
        · simp [hsame, hcount]
        · simp [hsame, hcount]

/-- A reading settles the regime of its own symbol, -/
theorem get_settle_self (memory : RegimeMemory) (r : RegimeReading) :
    ((settle memory r).prevRegimes.get r.symbol, (settle memory r).transitionCounts.get r.symbol) =
      (some (transition (memory.prevRegimes.get r.symbol) (memory.transitionCounts.get r.symbol)
          r.regime).1,
        (transition (memory.prevRegimes.get r.symbol) (memory.transitionCounts.get r.symbol)
          r.regime).2) := by
  unfold settle transition
  cases memory.prevRegimes.get r.symbol with
  | none => simp
  | some previous =>
      dsimp only
      by_cases hsame : r.regime = previous
      · simp [hsame]
      · by_cases hcount : (memory.transitionCounts.get r.symbol).getD 0 = 0
        · simp [hsame, hcount]
        · have hsecond : ¬ (memory.transitionCounts.get r.symbol).getD 0 + 1 < 2 := by omega
          simp [hsame, hcount, hsecond]

/-- and leaves the other ones. -/
theorem get_settle_of_ne {symbol : Text} {r : RegimeReading} (hne : symbol ≠ r.symbol)
    (memory : RegimeMemory) :
    (settle memory r).prevRegimes.get symbol = memory.prevRegimes.get symbol ∧
      (settle memory r).transitionCounts.get symbol = memory.transitionCounts.get symbol := by
  unfold settle
  cases memory.prevRegimes.get r.symbol with
  | none => exact ⟨Dict.get_set_of_ne hne _ _, Dict.get_pop_of_ne hne _⟩
  | some previous =>
      dsimp only
      split_ifs
      · exact ⟨Dict.get_set_of_ne hne _ _, Dict.get_set_of_ne hne _ _⟩
      · refine ⟨Dict.get_set_of_ne hne _ _, ?_⟩
        rw [Dict.get_pop_of_ne hne, Dict.get_set_of_ne hne]
      · exact ⟨Dict.get_set_of_ne hne _ _, Dict.get_pop_of_ne hne _⟩

/-- The settled regime is the one that the call works with. -/
theorem settle_regime {memory : RegimeMemory} {x : Call}
    (hprevious : memory.prevRegimes.get x.symbol = x.previousRegime)
    (hcount : (memory.transitionCounts.get x.symbol).getD 0 = x.transitions) :
    (settle memory ⟨x.symbol, x.analyzerRegime⟩).prevRegimes.get x.symbol =
      some (settledRegime x) := by
  have hself := congrArg Prod.fst (get_settle_self memory ⟨x.symbol, x.analyzerRegime⟩)
  dsimp only at hself
  rw [hself, hprevious]
  unfold transition settledRegime
  rw [hcount]
  cases x.previousRegime with
  | none => rfl
  | some previous =>
      dsimp only
      by_cases hsame : x.analyzerRegime = previous
      · simp [hsame]
      · by_cases hzero : x.transitions = 0
        · simp [hsame, hzero]
        · have hsecond : ¬ x.transitions + 1 < 2 := by omega
          simp [hsame, hzero, hsecond]

/-! ## Runs -/

/-- The engine with the readings so far. -/
structure RegimeRun where
  memory : RegimeMemory
  readings : List RegimeReading

/-- An engine just built. -/
def RegimeRun.start : RegimeRun :=
  ⟨⟨[], []⟩, []⟩

/-- One evaluation. -/
def evaluateReading (s : RegimeRun) (r : RegimeReading) : RegimeRun :=
  ⟨settle s.memory r, s.readings ++ [r]⟩

/-- The effective regime of a symbol. -/
def RegimeRun.effective (s : RegimeRun) (symbol : Text) : Option MarketRegime :=
  s.memory.prevRegimes.get symbol

/-- The last raw regime that was read for a symbol. -/
def RegimeRun.lastRaw (s : RegimeRun) (symbol : Text) : Option MarketRegime :=
  ((s.readings.filter fun r => r.symbol = symbol).getLast?).map fun r => r.regime

/-- The next evaluation leaves its symbol the previous effective regime or the raw one, switches
only to a regime that was also the symbol's last reading, and leaves the other symbols. -/
structure SwitchesConfirmed (s : RegimeRun) (r : RegimeReading) : Prop where
  chosen : (evaluateReading s r).effective r.symbol = s.effective r.symbol ∨
    (evaluateReading s r).effective r.symbol = some r.regime
  confirmed : ∀ previous next, s.effective r.symbol = some previous →
    (evaluateReading s r).effective r.symbol = some next → next ≠ previous →
      r.regime = next ∧ s.lastRaw r.symbol = some next
  others : ∀ symbol, symbol ≠ r.symbol →
    (evaluateReading s r).effective symbol = s.effective symbol

/-- A reading that differs from the effective regime, right behind another one that does, is the
same as that one. -/
def NoThirdRegime (s : RegimeRun) (r : RegimeReading) : Prop :=
  ∀ previous last, s.effective r.symbol = some previous → s.lastRaw r.symbol = some last →
    last ≠ previous → r.regime ≠ previous → r.regime = last

/-- The count of a symbol tells whether its last reading differs from its effective regime. -/
def Counted (s : RegimeRun) : Prop :=
  ∀ symbol previous, s.effective symbol = some previous →
    ∃ last, s.lastRaw symbol = some last ∧
      s.memory.transitionCounts.get symbol = if last = previous then none else some 1

@[simp] theorem lastRaw_evaluateReading_self (s : RegimeRun) (r : RegimeReading) :
    (evaluateReading s r).lastRaw r.symbol = some r.regime := by
  simp [RegimeRun.lastRaw, evaluateReading, List.filter_append]

theorem lastRaw_evaluateReading_of_ne {symbol : Text} {r : RegimeReading}
    (hne : symbol ≠ r.symbol) (s : RegimeRun) :
    (evaluateReading s r).lastRaw symbol = s.lastRaw symbol := by
  simp [RegimeRun.lastRaw, evaluateReading, List.filter_append, hne.symm]

/-- What an evaluation makes of its symbol. -/
theorem evaluateReading_self (s : RegimeRun) (r : RegimeReading) :
    (evaluateReading s r).effective r.symbol =
        some (transition (s.effective r.symbol) (s.memory.transitionCounts.get r.symbol)
          r.regime).1 ∧
      (evaluateReading s r).memory.transitionCounts.get r.symbol =
        (transition (s.effective r.symbol) (s.memory.transitionCounts.get r.symbol)
          r.regime).2 := by
  have hself := get_settle_self s.memory r
  exact ⟨congrArg Prod.fst hself, congrArg Prod.snd hself⟩

/-- Every evaluation keeps the counts. -/
theorem Counted.step {s : RegimeRun} (h : Counted s) (r : RegimeReading) :
    Counted (evaluateReading s r) := by
  intro symbol previous heffective
  by_cases hsymbol : symbol = r.symbol
  · subst hsymbol
    rcases evaluateReading_self s r with ⟨hregime, hcount⟩
    refine ⟨r.regime, lastRaw_evaluateReading_self s r, ?_⟩
    rw [hregime] at heffective
    obtain rfl := Option.some.inj heffective
    rw [hcount, transition_count]
  · have hothers := get_settle_of_ne hsymbol s.memory
    rw [RegimeRun.effective, evaluateReading] at heffective
    rw [lastRaw_evaluateReading_of_ne hsymbol]
    rw [hothers.1] at heffective
    rcases h symbol previous heffective with ⟨last, hlast, hcount⟩
    exact ⟨last, hlast, hothers.2.trans hcount⟩

/-- One evaluation switches to a confirmed regime exactly where no third one is read. -/
theorem switchesConfirmed_iff {s : RegimeRun} (h : Counted s) (r : RegimeReading) :
    SwitchesConfirmed s r ↔ NoThirdRegime s r := by
  rcases evaluateReading_self s r with ⟨hregime, -⟩
  constructor
  · intro hlaw previous last heffective hlast hdiffers hraw
    rcases h r.symbol previous heffective with ⟨last', hlast', hcount⟩
    obtain rfl := Option.some.inj (hlast.symm.trans hlast')
    rw [if_neg hdiffers] at hcount
    have hswitch : (evaluateReading s r).effective r.symbol = some r.regime := by
      rw [hregime, heffective, hcount]
      simp [transition, hraw]
    have hconfirmed := (hlaw.confirmed previous r.regime heffective hswitch hraw).2
    exact Option.some.inj (hconfirmed.symm.trans hlast)
  · intro hcond
    refine ⟨?_, ?_, fun symbol hne => (get_settle_of_ne hne s.memory).1⟩
    · rw [hregime]
      unfold transition
      cases s.effective r.symbol with
      | none => exact Or.inr rfl
      | some previous =>
          dsimp only
          split_ifs
          · exact Or.inr rfl
          · exact Or.inl rfl
          · exact Or.inr rfl
    · intro previous next heffective hnext hswitch
      rcases h r.symbol previous heffective with ⟨last, hlast, hcount⟩
      rw [hregime, heffective, hcount] at hnext
      by_cases hlastSame : last = previous
      · -- the first reading that differs is only counted
        rw [if_pos hlastSame] at hnext
        by_cases hraw : r.regime = previous
        · simp only [transition, hraw, if_true, Option.some.injEq] at hnext
          exact absurd hnext.symm hswitch
        · simp only [transition, hraw, if_false, Option.getD_none, if_true,
            Option.some.injEq] at hnext
          exact absurd hnext.symm hswitch
      · rw [if_neg hlastSame] at hnext
        by_cases hraw : r.regime = previous
        · simp only [transition, hraw, if_true, Option.some.injEq] at hnext
          exact absurd hnext.symm hswitch
        · have hsame := hcond previous last heffective hlast hlastSame hraw
          simp only [transition, hraw, if_false, Option.getD_some, one_ne_zero,
            Option.some.injEq] at hnext
          exact ⟨hnext, by rw [hlast, ← hnext, hsame]⟩

/-- The runs in which every switch is confirmed are those in which no symbol has two readings in
a row of two different regimes, both different from its effective one. -/
theorem hysteresis_iff (readings : List RegimeReading) :
    Admits evaluateReading SwitchesConfirmed .start readings ↔
      Admits evaluateReading NoThirdRegime .start readings := by
  have hinit : Counted .start := by
    intro symbol previous heffective
    cases heffective
  constructor
  · intro h
    exact h.of_invariant (fun s r hs _ => hs.step r)
      (fun s r hs hlaw => (switchesConfirmed_iff hs r).mp hlaw) hinit
  · intro h
    exact h.of_invariant (fun s r hs _ => hs.step r)
      (fun s r hs hcond => (switchesConfirmed_iff hs r).mpr hcond) hinit

/-- A trend, a range and chop are read one after the other. -/
def threeRegimes : List RegimeReading :=
  [⟨"BTC/USDT".toList, .TREND_BULL⟩, ⟨"BTC/USDT".toList, .RANGE⟩, ⟨"BTC/USDT".toList, .CHOP⟩]

/-- The third reading switches to chop, which was read once. -/
theorem threeRegimes_switch_to_chop :
    ¬ Admits evaluateReading SwitchesConfirmed .start threeRegimes := by
  rintro ⟨-, -, h, -⟩
  have hlast := (h.confirmed .TREND_BULL .CHOP (by decide) (by decide) (by decide)).2
  revert hlast
  decide

end Decision
end Karsa
