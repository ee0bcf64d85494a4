import Karsa.Consumer.LiveSignal
import Karsa.Core.Session
import Karsa.Foundations.Dicts
import Karsa.Foundations.Pools
import Karsa.Foundations.Runs

/-!
# Commander - Regimes disabled by shadow results

`shadow_feedback_task` reads the results of the shadow trades once an hour and turns regimes
down, off and on again in `karsa:auto:config`.  The session manager writes its own settings to
the same key, and the live handler looks there before it trades.

Each regime has a state machine of its own; the tables of the key are read through it.  Beside
the key the state keeps, for every disabled regime, which days have been good ones since its
cooldown.

Main results:

- Theorem `regime_adjust`: a cycle moves the regime of a row as its state machine does.
- Theorem `next_follows`: a disabled regime stays disabled until three good days in a row.
- Theorem `cooldown_respected`: in orderly runs no signal of such a regime is executed.
-/

namespace Karsa
namespace Feedback

open Session (SessionConfig)
open Live (MarketRegime)

/-! ## Regimes -/

/-- An entry of `regime_overrides`. -/
inductive RegimeStatus where
  | ENABLE
  | DISABLE
deriving Repr, DecidableEq

/-- An entry of `regime_cooldown`, with its day as a number. -/
structure Cooldown where
  disabledAt : ℚ
  consecutivePositiveDays : Nat
  lastPositiveDay : Option ℤ
deriving Repr, DecidableEq

/-- What the tables say of one regime. -/
structure RegimeState where
  status : RegimeStatus
  size : ℚ
  cooldown : Option Cooldown
deriving Repr, DecidableEq

/-- The shadow results of one regime: how many trades, and their expectancy. -/
structure RegimeRow where
  regime : Text
  total : ℤ
  expectancy : ℚ
deriving Repr, DecidableEq

/-- The date of a time, as the number of the day. -/
def day (now : ℚ) : ℤ :=
  ⌊now / 86400⌋

/-- Fourteen days. -/
def cooldownTime : ℚ := 14 * 86400

/-- Disabled, or of size zero. -/
def RegimeState.isDisabled (s : RegimeState) : Prop :=
  s.status = .DISABLE ∨ s.size = 0

instance (s : RegimeState) : Decidable s.isDisabled :=
  inferInstanceAs (Decidable (_ ∨ _))

/-- Too few trades to say anything. -/
def RegimeRow.lowSample (row : RegimeRow) : Prop :=
  row.total < 30

instance (row : RegimeRow) : Decidable row.lowSample :=
  inferInstanceAs (Decidable (_ < _))

/-- The size of a regime that trades on. -/
def RegimeRow.targetSize (row : RegimeRow) : ℚ :=
  if row.expectancy < -1 / 2 then 3 / 10 else if row.expectancy < 1 then 1 / 2 else 1

/-- A cooldown after a day with a positive expectancy. -/
def Cooldown.count (c : Cooldown) (today : ℤ) : Cooldown :=
  { c with
    consecutivePositiveDays := c.consecutivePositiveDays + 1
    lastPositiveDay := some today }

/-- The next state of a disabled regime in its cooldown. -/
def RegimeState.cool (now : ℚ) (row : RegimeRow) (s : RegimeState) (c : Cooldown) :
    RegimeState :=
  if now - c.disabledAt < cooldownTime then s
  else if 0 < row.expectancy then
    if c.lastPositiveDay = some (day now) then s
    else if 3 ≤ (c.count (day now)).consecutivePositiveDays then ⟨.ENABLE, 1 / 2, none⟩
    else { s with cooldown := some (c.count (day now)) }
  else if 0 < c.consecutivePositiveDays then
    { s with cooldown := some { c with consecutivePositiveDays := 0 } }
  else s

/-- What a cycle makes of the regime of a row. -/
def RegimeState.next (now : ℚ) (row : RegimeRow) (s : RegimeState) : RegimeState :=
  if row.lowSample then s
  else if s.isDisabled then
    match s.cooldown with
    | none => s
    | some c => s.cool now row c
  else if row.expectancy < -2 then ⟨.DISABLE, 0, some ⟨now, 0, none⟩⟩
  else { s with size := row.targetSize }

/-! ## The key -/

/-- The JSON under `karsa:auto:config`: the session's settings and the regimes' tables, which
are empty where absent. -/
structure AutoConfig where
  session : Option SessionConfig
  overrides : Dict Text RegimeStatus
  sizing : Dict Text ℚ
  cooldown : Dict Text Cooldown
deriving Repr, DecidableEq

namespace AutoConfig

/-- `{}`. -/
def empty : AutoConfig := ⟨none, [], [], []⟩

/-- A regime as the tables have it, with the defaults of the task. -/
def regime (cfg : AutoConfig) (name : Text) : RegimeState where
  status := (cfg.overrides.get name).getD .ENABLE
  size := (cfg.sizing.get name).getD 1
  cooldown := cfg.cooldown.get name

/-- Are there any tables? -/
def hasTables (cfg : AutoConfig) : Bool :=
  decide ¬ (cfg.overrides = [] ∧ cfg.sizing = [] ∧ cfg.cooldown = [])

/-- Turn a regime off. -/
def disable (cfg : AutoConfig) (now : ℚ) (name : Text) : AutoConfig :=
  { cfg with
    overrides := cfg.overrides.set name .DISABLE
    sizing := cfg.sizing.set name 0
    cooldown := cfg.cooldown.set name ⟨now, 0, none⟩ }

/-- Set a regime's size. -/
def resize (cfg : AutoConfig) (name : Text) (size : ℚ) : AutoConfig :=
  { cfg with sizing := cfg.sizing.set name size }

/-- Set a regime's cooldown. -/
def setCooldown (cfg : AutoConfig) (name : Text) (c : Cooldown) : AutoConfig :=
  { cfg with cooldown := cfg.cooldown.set name c }

/-- Turn a regime on again, at half its size. -/
def restore (cfg : AutoConfig) (name : Text) : AutoConfig :=
  { cfg with
    overrides := cfg.overrides.set name .ENABLE
    sizing := cfg.sizing.set name (1 / 2)
    cooldown := cfg.cooldown.pop name }

/-- The cooldown and restore logic for one row. -/
def coolDown (cfg : AutoConfig) (now : ℚ) (row : RegimeRow) (c : Cooldown) : AutoConfig × Bool :=
  if now - c.disabledAt < cooldownTime then (cfg, false)
  else if 0 < row.expectancy then
    if c.lastPositiveDay = some (day now) then (cfg, false)
    else if 3 ≤ (c.count (day now)).consecutivePositiveDays then (cfg.restore row.regime, true)
    else (cfg.setCooldown row.regime (c.count (day now)), true)
  else if 0 < c.consecutivePositiveDays then
    (cfg.setCooldown row.regime { c with consecutivePositiveDays := 0 }, true)
  else (cfg, false)

/-- The body of the loop over `regime_stats`: the tables, and whether they have changed. -/
def adjust (now : ℚ) (cfg : AutoConfig) (row : RegimeRow) : AutoConfig × Bool :=
  if row.lowSample then (cfg, false)
  else if (cfg.regime row.regime).isDisabled then
    match (cfg.regime row.regime).cooldown with
    | none => (cfg, false)
    | some c => cfg.coolDown now row c
  else if row.expectancy < -2 then (cfg.disable now row.regime, true)
  else if (cfg.regime row.regime).size = row.targetSize then (cfg, false)
  else (cfg.resize row.regime row.targetSize, true)

/-- The loop over `regime_stats`. -/
def adjustAll (now : ℚ) : AutoConfig → List RegimeRow → AutoConfig × Bool
  | cfg, [] => (cfg, false)
  | cfg, row :: rest =>
      let (adjusted, changed) := cfg.adjust now row
      let (final, changedLater) := adjusted.adjustAll now rest
      (final, changed || changedLater)

/-- Does the live handler drop signals of this regime? -/
def drops (cfg : AutoConfig) (regime : MarketRegime) : Prop :=
  ((cfg.overrides.get regime.value).getD .ENABLE = .DISABLE ∧ regime ≠ .SNIPER) ∨
    (cfg.sizing.get regime.value).getD 1 = 0

instance (cfg : AutoConfig) (regime : MarketRegime) : Decidable (cfg.drops regime) :=
  inferInstanceAs (Decidable (_ ∨ _))

end AutoConfig

/-! ## Good days -/

/-- A regime that is to stay disabled: since when, and how many good days in a row were recorded
after its cooldown, up to the last one. -/
structure Watch where
  since : ℚ
  streak : Nat
  lastDay : Option ℤ
deriving Repr, DecidableEq

/-- One more day with a positive expectancy. -/
def Watch.goodDay (w : Watch) (today : ℤ) : Watch :=
  if w.lastDay = some today then w
  else if w.lastDay = some (today - 1) then
    { w with streak := w.streak + 1, lastDay := some today }
  else { w with streak := 1, lastDay := some today }

/-- What a row says of a watched regime; after three good days in a row it is free. -/
def Watch.record (now : ℚ) (row : RegimeRow) (w : Watch) : Option Watch :=
  if row.lowSample ∨ now - w.since < cooldownTime then some w
  else if 0 < row.expectancy then
    if 3 ≤ (w.goodDay (day now)).streak then none else some (w.goodDay (day now))
  else some { w with streak := 0, lastDay := none }

/-- The row turns its regime off. -/
def Disables (cfg : AutoConfig) (row : RegimeRow) : Prop :=
  ¬ row.lowSample ∧ ¬ (cfg.regime row.regime).isDisabled ∧ row.expectancy < -2

instance (cfg : AutoConfig) (row : RegimeRow) : Decidable (Disables cfg row) :=
  inferInstanceAs (Decidable (_ ∧ _ ∧ _))

/-- The regimes to stay disabled. -/
abbrev Watches := Text → Option Watch

/-- A row begins or goes on with the watch of its regime. -/
def observe (now : ℚ) (cfg : AutoConfig) (row : RegimeRow) (watches : Watches) : Watches :=
  Function.update watches row.regime
    (match watches row.regime with
      | some w => w.record now row
      | none => if Disables cfg row then some ⟨now, 0, none⟩ else none)

/-- All rows of a cycle. -/
def observeAll (now : ℚ) : AutoConfig → List RegimeRow → Watches → Watches
  | _, [], watches => watches
  | cfg, row :: rest, watches =>
      observeAll now (cfg.adjust now row).1 rest (observe now cfg row watches)

/-! ## The tables and the state machine -/

section Tables

variable (cfg : AutoConfig) (name : Text)

theorem regime_disable (now : ℚ) :
    (cfg.disable now name).regime name = ⟨.DISABLE, 0, some ⟨now, 0, none⟩⟩ := by
  simp [AutoConfig.regime, AutoConfig.disable]

theorem regime_resize (size : ℚ) :
    (cfg.resize name size).regime name = { cfg.regime name with size := size } := by
  simp [AutoConfig.regime, AutoConfig.resize]

theorem regime_setCooldown (c : Cooldown) :
    (cfg.setCooldown name c).regime name = { cfg.regime name with cooldown := some c } := by
  simp [AutoConfig.regime, AutoConfig.setCooldown]

theorem regime_restore :
    (cfg.restore name).regime name = ⟨.ENABLE, 1 / 2, none⟩ := by
  simp [AutoConfig.regime, AutoConfig.restore]

/-- The cooldown logic on the tables is that of the state machine. -/
theorem regime_coolDown (now : ℚ) (row : RegimeRow) (c : Cooldown) :
    (cfg.coolDown now row c).1.regime row.regime = (cfg.regime row.regime).cool now row c := by
  rw [AutoConfig.coolDown, RegimeState.cool]
  split_ifs
  · rfl
  · rfl
  · exact regime_restore cfg row.regime
  · exact regime_setCooldown cfg row.regime _
  · exact regime_setCooldown cfg row.regime _
  · rfl

/-- A row moves its regime as the state machine does. -/
theorem regime_adjust (now : ℚ) (row : RegimeRow) :
    (cfg.adjust now row).1.regime row.regime = (cfg.regime row.regime).next now row := by
  rw [AutoConfig.adjust, RegimeState.next]
  split_ifs with hlow hdisabled hcatastrophic hsize
  · rfl
  · cases (cfg.regime row.regime).cooldown with
    | none => rfl
    | some c => exact regime_coolDown cfg now row c
  · exact regime_disable cfg row.regime now
  · rw [← hsize]
  · exact regime_resize cfg row.regime _

variable {cfg name}

theorem regime_coolDown_of_ne {row : RegimeRow} (hne : name ≠ row.regime) (now : ℚ)
    (c : Cooldown) : (cfg.coolDown now row c).1.regime name = cfg.regime name := by
  rw [AutoConfig.coolDown]
  split_ifs
  · rfl
  · rfl
  · simp [AutoConfig.regime, AutoConfig.restore, Dict.get_set_of_ne hne, Dict.get_pop_of_ne hne]
  · simp [AutoConfig.regime, AutoConfig.setCooldown, Dict.get_set_of_ne hne]
  · simp [AutoConfig.regime, AutoConfig.setCooldown, Dict.get_set_of_ne hne]
  · rfl

/-- A row leaves the other regimes. -/
theorem regime_adjust_of_ne {row : RegimeRow} (hne : name ≠ row.regime) (now : ℚ) :
    (cfg.adjust now row).1.regime name = cfg.regime name := by
  rw [AutoConfig.adjust]
  split_ifs
  · rfl
  · cases (cfg.regime row.regime).cooldown with
    | none => rfl
    | some c => exact regime_coolDown_of_ne hne now c
  · simp [AutoConfig.regime, AutoConfig.disable, Dict.get_set_of_ne hne]
  · rfl
  · simp [AutoConfig.regime, AutoConfig.resize, Dict.get_set_of_ne hne]

end Tables

/-! ## One regime over its cycles -/

/-- Disabled exactly at size zero. -/
def RegimeState.Consistent (s : RegimeState) : Prop :=
  s.status = .DISABLE ↔ s.size = 0

theorem targetSize_ne_zero (row : RegimeRow) : row.targetSize ≠ 0 := by
  rw [RegimeRow.targetSize]
  split_ifs <;> norm_num

/-- Every cycle keeps status and size consistent. -/
theorem next_consistent {s : RegimeState} (h : s.Consistent) (now : ℚ) (row : RegimeRow) :
    (s.next now row).Consistent := by
  rw [RegimeState.next]
  split_ifs with hlow hdisabled hcatastrophic
  · exact h
  · cases s.cooldown with
    | none => exact h
    | some c =>
        dsimp only
        rw [RegimeState.cool]
        split_ifs
        · exact h
        · exact h
        · simp [RegimeState.Consistent]
        · exact h
        · exact h
        · exact h
  · simp [RegimeState.Consistent]
  · have hstatus : s.status ≠ .DISABLE := fun hd => hdisabled (Or.inl hd)
    exact iff_of_false hstatus (targetSize_ne_zero row)

/-- The days that the cooldown counted were good ones, one after the other. -/
structure Counts (c : Cooldown) (w : Watch) : Prop where
  since : c.disabledAt = w.since
  days : c.consecutivePositiveDays ≤ w.streak
  last : 0 < c.consecutivePositiveDays → c.lastPositiveDay = w.lastDay
  streak : w.lastDay ≠ none → 1 ≤ w.streak

/-- The regime is disabled and its cooldown counts no day that the watch does not. -/
structure Follows (s : RegimeState) (w : Watch) : Prop where
  status : s.status = .DISABLE
  counts : ∃ c, s.cooldown = some c ∧ Counts c w

/-- The row makes the cooldown of its regime count the day. -/
def CountsDay (now : ℚ) (row : RegimeRow) (s : RegimeState) (c : Cooldown) : Prop :=
  ¬ row.lowSample ∧ s.isDisabled ∧ ¬ now - c.disabledAt < cooldownTime ∧
    0 < row.expectancy ∧ c.lastPositiveDay ≠ some (day now)

instance (now : ℚ) (row : RegimeRow) (s : RegimeState) (c : Cooldown) :
    Decidable (CountsDay now row s c) :=
  inferInstanceAs (Decidable (_ ∧ _ ∧ _ ∧ _ ∧ _))

/-- A day is counted only right after the last one that was, if there is one. -/
def OnTime (now : ℚ) (row : RegimeRow) (s : RegimeState) : Prop :=
  ∀ c ∈ s.cooldown, CountsDay now row s c →
    c.consecutivePositiveDays = 0 ∨ c.lastPositiveDay = some (day now - 1)

instance (now : ℚ) (row : RegimeRow) (s : RegimeState) : Decidable (OnTime now row s) :=
  inferInstanceAs (Decidable (∀ c ∈ s.cooldown, _))

/-- A new cooldown has counted nothing. -/
theorem counts_new (now : ℚ) : Counts ⟨now, 0, none⟩ ⟨now, 0, none⟩ :=
  ⟨rfl, le_refl 0, fun h => absurd h (Nat.lt_irrefl 0), fun h => absurd rfl h⟩

/-- A day that is on time counts for both. -/
theorem Counts.goodDay {c : Cooldown} {w : Watch} (h : Counts c w) {today : ℤ}
    (hnew : c.lastPositiveDay ≠ some today)
    (htime : c.consecutivePositiveDays = 0 ∨ c.lastPositiveDay = some (today - 1)) :
    Counts (c.count today) (w.goodDay today) := by
  by_cases hnone : c.consecutivePositiveDays = 0
  · rw [Watch.goodDay]
    split_ifs with htoday hyesterday
    · have hone : 1 ≤ w.streak := h.streak (by simp [htoday])
      exact ⟨h.since, by simpa [Cooldown.count, hnone] using hone,
        fun _ => htoday.symm, h.streak⟩
    · exact ⟨h.since, by simp [Cooldown.count, hnone], fun _ => rfl, fun _ => by simp⟩
    · exact ⟨h.since, by simp [Cooldown.count, hnone], fun _ => rfl, fun _ => le_refl 1⟩
  · have hlast := h.last (Nat.pos_of_ne_zero hnone)
    have hyesterday := htime.resolve_left hnone
    rw [hlast] at hnew hyesterday
    rw [Watch.goodDay, if_neg hnew, if_pos hyesterday]
    exact ⟨h.since, Nat.succ_le_succ h.days, fun _ => rfl, fun _ => by simp⟩

/-- A day that was counted before may count for the watch alone. -/
theorem Counts.goodDay_counted {c : Cooldown} {w : Watch} (h : Counts c w) {today : ℤ}
    (hcounted : c.lastPositiveDay = some today) : Counts c (w.goodDay today) := by
  by_cases hnone : c.consecutivePositiveDays = 0
  · have hvacuous : ∀ {P : Prop}, 0 < c.consecutivePositiveDays → P := by
      intro P hpos
      rw [hnone] at hpos
      exact absurd hpos (Nat.lt_irrefl 0)
    rw [Watch.goodDay]
    split_ifs
    · exact h
    · exact ⟨h.since, by simp [hnone], hvacuous, fun _ => by simp⟩
    · exact ⟨h.since, by simp [hnone], hvacuous, fun _ => le_refl 1⟩
  · have hlast := h.last (Nat.pos_of_ne_zero hnone)
    rw [Watch.goodDay, if_pos (hlast.symm.trans hcounted)]
    exact h

/-- A bad day ends the count of both. -/
theorem Counts.badDay {c : Cooldown} {w : Watch} (h : Counts c w) :
    Counts { c with consecutivePositiveDays := 0 } { w with streak := 0, lastDay := none } :=
  ⟨h.since, le_refl 0, fun hpos => absurd hpos (Nat.lt_irrefl 0), fun hne => absurd rfl hne⟩

/-- A disabled regime stays disabled until three good days in a row, if its days are counted on
time. -/
theorem next_follows {s : RegimeState} {w : Watch} (h : Follows s w) {now : ℚ} {row : RegimeRow}
    (htime : OnTime now row s) {w' : Watch} (hrecord : w.record now row = some w') :
    Follows (s.next now row) w' := by
  rcases h.counts with ⟨c, hcooldown, hcounts⟩
  have hdisabled : s.isDisabled := Or.inl h.status
  rw [Watch.record] at hrecord
  by_cases hlow : row.lowSample
  · rw [if_pos (Or.inl hlow)] at hrecord
    cases hrecord
    rw [RegimeState.next, if_pos hlow]
    exact h
  rw [RegimeState.next, if_neg hlow, if_pos hdisabled, hcooldown]
  dsimp only
  rw [RegimeState.cool, hcounts.since]
  by_cases hearly : now - w.since < cooldownTime
  · rw [if_pos (Or.inr hearly)] at hrecord
    cases hrecord
    rw [if_pos hearly]
    exact h
  rw [if_neg (by simp [hlow, hearly])] at hrecord
  rw [if_neg hearly]
  by_cases hpositive : 0 < row.expectancy
  · rw [if_pos hpositive] at hrecord ⊢
    have hfew : (w.goodDay (day now)).streak < 3 ∧ w.goodDay (day now) = w' := by
      by_cases hthree : 3 ≤ (w.goodDay (day now)).streak
      · simp [hthree] at hrecord
      · exact ⟨not_le.mp hthree, by simpa [hthree] using hrecord⟩
    rcases hfew with ⟨hstreak, rfl⟩
    by_cases hcounted : c.lastPositiveDay = some (day now)
    · rw [if_pos hcounted]
      exact ⟨h.status, c, hcooldown, hcounts.goodDay_counted hcounted⟩
    · have hearly' : ¬ now - c.disabledAt < cooldownTime := by rwa [hcounts.since]
      have hnext := htime c hcooldown ⟨hlow, hdisabled, hearly', hpositive, hcounted⟩
      have hgood := hcounts.goodDay hcounted hnext
      have hnotThree : ¬ 3 ≤ (c.count (day now)).consecutivePositiveDays :=
        not_le.mpr (lt_of_le_of_lt hgood.days hstreak)
      rw [if_neg hcounted, if_neg hnotThree]
      exact ⟨h.status, _, rfl, hgood⟩
  · rw [if_neg hpositive] at hrecord ⊢
    cases hrecord
    split_ifs with hcount
    · have hbad := hcounts.badDay
      rw [hcounts.since] at hbad
      exact ⟨h.status, _, rfl, hbad⟩
    · have hzero : c.consecutivePositiveDays = 0 := Nat.eq_zero_of_not_pos hcount
      have hsame : { c with consecutivePositiveDays := 0 } = c := by rw [← hzero]
      exact ⟨h.status, c, hcooldown, hsame ▸ hcounts.badDay⟩

/-! ## Tasks on the key -/

/-- The key, the session flag and the clock; then the watches, whether a signal of a watched
regime was executed, and whether a write dropped what another component had written. -/
structure Store where
  config : Option AutoConfig
  active : Bool
  clock : ℚ
  watches : Watches
  executedDisabled : Bool
  lost : Bool

/-- The next call of a cycle: the query, the read of the key, or its write. -/
inductive CyclePhase where
  | query
  | read (rows : List RegimeRow)
  | write (rows : List RegimeRow) (base : Option AutoConfig)
deriving Repr, DecidableEq

/-- The next call of the session manager that matters here. -/
inductive SessionPhase where
  | flag
  | config
deriving Repr, DecidableEq

/-- Where `_on_signal_live` waits: for the flag, for the key, or for anything between them and
the order. -/
inductive HandlerPhase where
  | flag
  | config
  | admitted
deriving Repr, DecidableEq

/-- A task; a cycle has its time from its beginning. -/
inductive FeedbackTask where
  | starting (settings : SessionConfig) (phase : SessionPhase)
  | stopping (phase : SessionPhase)
  | cycle (now : ℚ) (phase : CyclePhase)
  | handling (regime : MarketRegime) (phase : HandlerPhase)
  | done
deriving Repr, DecidableEq

/-- What a turn meets: the call does not raise and its gate lets the signal go on, and the
rows of the query. -/
structure Meets where
  goesOn : Bool
  rows : List RegimeRow
deriving Repr, DecidableEq

/-- A task replaces or deletes the key without having read it. -/
def Store.overwrite (s : Store) (config : Option AutoConfig) : Store :=
  { s with config := config, lost := s.lost || s.config.any AutoConfig.hasTables }

/-- `start_session` writes its settings first, `stop_session` clears the flag first. -/
def sessionCall (s : Store) : Option SessionConfig → SessionPhase → Store × FeedbackTask
  | some settings, .config =>
      (s.overwrite (some { AutoConfig.empty with session := some settings }),
        .starting settings .flag)
  | some _, .flag => ({ s with active := true }, .done)
  | none, .flag => ({ s with active := false }, .stopping .config)
  | none, .config => (s.overwrite none, .done)

/-- One call of a cycle; a call that raises ends it. -/
def cycleCall (s : Store) (m : Meets) (now : ℚ) : CyclePhase → Store × FeedbackTask
  | .query => (s, if m.goesOn then .cycle now (.read m.rows) else .done)
  | .read rows =>
      if m.goesOn then
        let cfg := s.config.getD .empty
        if (cfg.adjustAll now rows).2 then (s, .cycle now (.write rows s.config))
        else ({ s with watches := observeAll now cfg rows s.watches }, .done)
      else (s, .done)
  | .write rows base =>
      if m.goesOn then
        let cfg := base.getD .empty
        ({ s with
            config := some (cfg.adjustAll now rows).1
            watches := observeAll now cfg rows s.watches
            lost := s.lost || decide (s.config ≠ base) }, .done)
      else (s, .done)

/-- Is the regime watched, and no trap? -/
def Store.forbids (s : Store) (regime : MarketRegime) : Bool :=
  decide (regime ≠ .SNIPER) && (s.watches regime.value).isSome

/-- One call of `_on_signal_live`; whatever goes wrong with the key lets the signal pass. -/
def handlerCall (s : Store) (m : Meets) (regime : MarketRegime) :
    HandlerPhase → Store × FeedbackTask
  | .flag => (s, if m.goesOn && s.active then .handling regime .config else .done)
  | .config =>
      (s,
        if m.goesOn && s.config.any fun cfg => decide (cfg.drops regime) then .done
        else .handling regime .admitted)
  | .admitted =>
      if m.goesOn then
        ({ s with executedDisabled := s.executedDisabled || s.forbids regime }, .done)
      else (s, .done)

/-- One turn. -/
def act (m : Meets) (s : Store) : FeedbackTask → Store × FeedbackTask
  | .starting settings phase => sessionCall s (some settings) phase
  | .stopping phase => sessionCall s none phase
  | .cycle now phase => cycleCall s m now phase
  | .handling regime phase => handlerCall s m regime phase
  | .done => (s, .done)

/-- Before the first session. -/
def start (clock : ℚ) : Pool Store FeedbackTask where
  shared :=
    { config := none, active := false, clock := clock, watches := fun _ => none
      executedDisabled := false, lost := false }
  tasks := []

/-- What happens next. -/
inductive FeedbackInput where
  | start (settings : SessionConfig)
  | stop
  | cycle
  | signal (regime : MarketRegime)
  | turn (i : Nat) (meets : Meets)
  | advance (elapsed : ℚ≥0)
deriving DecidableEq

/-- One step. -/
def step (p : Pool Store FeedbackTask) : FeedbackInput → Pool Store FeedbackTask
  | .start settings => p.spawn (.starting settings .config)
  | .stop => p.spawn (.stopping .flag)
  | .cycle => p.spawn (.cycle p.shared.clock .query)
  | .signal regime => p.spawn (.handling regime .flag)
  | .turn i meets => p.turn (act meets) i
  | .advance elapsed => p.update fun s => { s with clock := s.clock + elapsed }

/-- No signal of a watched regime is executed, the tables are consistent, and no write is
lost. -/
structure Safe (p : Pool Store FeedbackTask) : Prop where
  executed : p.shared.executedDisabled = false
  consistent : ∀ cfg ∈ p.shared.config, ∀ name, (cfg.regime name).Consistent
  kept : p.shared.lost = false

/-- A handler of this regime is behind its look at the key, and bound by it. -/
def FeedbackTask.bound (t : FeedbackTask) (name : Text) : Prop :=
  match t with
  | .handling regime .admitted => regime.value = name ∧ regime ≠ .SNIPER
  | .handling _ .flag | .handling _ .config => False
  | .starting _ _ | .stopping _ | .cycle _ _ | .done => False

instance (t : FeedbackTask) (name : Text) : Decidable (t.bound name) :=
  match t with
  | .handling _ .admitted => inferInstanceAs (Decidable (_ ∧ _))
  | .handling _ .flag | .handling _ .config => isFalse id
  | .starting _ _ | .stopping _ | .cycle _ _ | .done => isFalse id

/-- The rows of a cycle count their days on time, and turn off no regime with a handler behind
its look at the key. -/
def RowsInOrder (tasks : List FeedbackTask) (now : ℚ) : AutoConfig → List RegimeRow → Prop
  | _, [] => True
  | cfg, row :: rest =>
      (OnTime now row (cfg.regime row.regime) ∧
          (Disables cfg row → ∀ t ∈ tasks, ¬ t.bound row.regime)) ∧
        RowsInOrder tasks now (cfg.adjust now row).1 rest

instance RowsInOrder.decidable (tasks : List FeedbackTask) (now : ℚ) :
    ∀ cfg rows, Decidable (RowsInOrder tasks now cfg rows)
  | _, [] => isTrue trivial
  | cfg, row :: rest =>
      have := RowsInOrder.decidable tasks now (cfg.adjust now row).1 rest
      inferInstanceAs (Decidable (_ ∧ RowsInOrder tasks now (cfg.adjust now row).1 rest))

/-- The turn of a task comes in order: session calls find no tables to drop, a cycle writes what
it read and its rows are in order, and a handler can read the key if its regime is off. -/
def TurnInOrder (p : Pool Store FeedbackTask) (m : Meets) : FeedbackTask → Prop
  | .starting _ .config | .stopping .config =>
      p.shared.config.any AutoConfig.hasTables = false
  | .cycle now (.write rows base) =>
      m.goesOn = true → p.shared.config = base ∧
        RowsInOrder p.tasks now (base.getD .empty) rows
  | .handling regime .config =>
      m.goesOn = true ∨ ∀ cfg ∈ p.shared.config, ¬ cfg.drops regime
  | .starting _ .flag | .stopping .flag | .cycle _ .query | .cycle _ (.read _)
  | .handling _ .flag | .handling _ .admitted | .done => True

instance (p : Pool Store FeedbackTask) (m : Meets) : DecidablePred (TurnInOrder p m)
  | .starting _ .config | .stopping .config => inferInstanceAs (Decidable (_ = _))
  | .cycle _ (.write _ _) => inferInstanceAs (Decidable (_ → _ ∧ _))
  | .handling _ .config => inferInstanceAs (Decidable (_ ∨ ∀ cfg ∈ p.shared.config, _))
  | .starting _ .flag | .stopping .flag | .cycle _ .query | .cycle _ (.read _)
  | .handling _ .flag | .handling _ .admitted | .done => isTrue trivial

/-- Every turn comes in order. -/
def Orderly (p : Pool Store FeedbackTask) : FeedbackInput → Prop
  | .turn i meets => ∀ t ∈ p.tasks[i]?, TurnInOrder p meets t
  | .start _ | .stop | .cycle | .signal _ | .advance _ => True

instance (p : Pool Store FeedbackTask) : DecidablePred (Orderly p)
  | .turn i _ => inferInstanceAs (Decidable (∀ t ∈ p.tasks[i]?, _))
  | .start _ | .stop | .cycle | .signal _ | .advance _ => isTrue trivial

/-! ## Invariant -/

/-- Every watched regime is disabled in the tables, and counts no day too many. -/
def Tracks (cfg : AutoConfig) (watches : Watches) : Prop :=
  ∀ name w, watches name = some w → Follows (cfg.regime name) w

/-- Without tables nothing is watched. -/
theorem Tracks.watches_eq_none {cfg : AutoConfig} {watches : Watches} (h : Tracks cfg watches)
    (htables : cfg.hasTables = false) (name : Text) : watches name = none := by
  cases hwatch : watches name with
  | none => rfl
  | some w =>
      have hstatus := (h name w hwatch).status
      simp only [AutoConfig.hasTables, decide_eq_false_iff_not, not_not] at htables
      simp [AutoConfig.regime, htables.1] at hstatus

/-- What is not watched is tracked by any tables. -/
theorem tracks_of_eq_none {cfg : AutoConfig} {watches : Watches}
    (h : ∀ name, watches name = none) : Tracks cfg watches := by
  intro name w hwatch
  rw [h name] at hwatch
  cases hwatch

/-- A row whose day is on time keeps track. -/
theorem Tracks.adjust {cfg : AutoConfig} {watches : Watches} (h : Tracks cfg watches) {now : ℚ}
    {row : RegimeRow} (htime : OnTime now row (cfg.regime row.regime)) :
    Tracks (cfg.adjust now row).1 (observe now cfg row watches) := by
  intro name w hwatch
  by_cases hname : name = row.regime
  · subst hname
    rw [regime_adjust]
    rw [observe, Function.update_self] at hwatch
    cases hbefore : watches row.regime with
    | some w₀ =>
        rw [hbefore] at hwatch
        exact next_follows (h _ _ hbefore) htime hwatch
    | none =>
        rw [hbefore] at hwatch
        dsimp only at hwatch
        split at hwatch
        · rename_i hdisables
          cases hwatch
          rw [RegimeState.next, if_neg hdisables.1, if_neg hdisables.2.1, if_pos hdisables.2.2]
          exact ⟨rfl, _, rfl, counts_new now⟩
        · cases hwatch
  · rw [regime_adjust_of_ne hname]
    rw [observe, Function.update_of_ne hname] at hwatch
    exact h name w hwatch

/-- A regime that no row turns off is not watched after a row either. -/
theorem observe_eq_none {now : ℚ} {cfg : AutoConfig} {row : RegimeRow} {watches : Watches}
    {name : Text} (hwatch : watches name = none)
    (hdisables : Disables cfg row → row.regime ≠ name) :
    observe now cfg row watches name = none := by
  by_cases hname : name = row.regime
  · subst hname
    rw [observe, Function.update_self, hwatch]
    exact if_neg fun hd => hdisables hd rfl
  · rw [observe, Function.update_of_ne hname, hwatch]

section Rows

variable {tasks : List FeedbackTask} {now : ℚ}

/-- The first row, then the others. -/
theorem adjustAll_cons (cfg : AutoConfig) (row : RegimeRow) (rest : List RegimeRow) :
    (cfg.adjustAll now (row :: rest)).1 = ((cfg.adjust now row).1.adjustAll now rest).1 := rfl

theorem adjustAll_cons_changed (cfg : AutoConfig) (row : RegimeRow) (rest : List RegimeRow) :
    (cfg.adjustAll now (row :: rest)).2 =
      ((cfg.adjust now row).2 || ((cfg.adjust now row).1.adjustAll now rest).2) := rfl

/-- Rows in order keep track. -/
theorem Tracks.adjustAll {cfg : AutoConfig} {rows : List RegimeRow} {watches : Watches}
    (h : Tracks cfg watches) (horder : RowsInOrder tasks now cfg rows) :
    Tracks (cfg.adjustAll now rows).1 (observeAll now cfg rows watches) := by
  induction rows generalizing cfg watches with
  | nil => exact h
  | cons row rest ih => exact ih (h.adjust horder.1.1) horder.2

/-- Rows in order begin no watch that concerns a handler behind its look at the key. -/
theorem observeAll_eq_none {cfg : AutoConfig} {rows : List RegimeRow} {watches : Watches}
    (horder : RowsInOrder tasks now cfg rows) {t : FeedbackTask} (ht : t ∈ tasks) {name : Text}
    (hbound : t.bound name) (hwatch : watches name = none) :
    observeAll now cfg rows watches name = none := by
  induction rows generalizing cfg watches with
  | nil => exact hwatch
  | cons row rest ih =>
      refine ih horder.2 (observe_eq_none hwatch fun hdisables hname => ?_)
      exact horder.1.2 hdisables t ht (hname ▸ hbound)

/-- Cycles keep the tables consistent. -/
theorem adjustAll_consistent {cfg : AutoConfig} (rows : List RegimeRow)
    (h : ∀ name, (cfg.regime name).Consistent) (name : Text) :
    ((cfg.adjustAll now rows).1.regime name).Consistent := by
  induction rows generalizing cfg with
  | nil => exact h name
  | cons row rest ih =>
      rw [adjustAll_cons]
      refine ih fun other => ?_
      by_cases hother : other = row.regime
      · rw [hother, regime_adjust]
        exact next_consistent (h _) now row
      · rw [regime_adjust_of_ne hother]
        exact h other

/-- A row that changes nothing counts no day and turns nothing off. -/
theorem inOrder_of_unchanged {cfg : AutoConfig} {row : RegimeRow}
    (h : (cfg.adjust now row).2 = false) :
    OnTime now row (cfg.regime row.regime) ∧ ¬ Disables cfg row := by
  constructor
  · rintro c hcooldown ⟨hlow, hdisabled, hearly, hpositive, hcounted⟩
    rw [AutoConfig.adjust, if_neg hlow, if_pos hdisabled, Option.mem_def.mp hcooldown] at h
    simp only [AutoConfig.coolDown, if_neg hearly, if_pos hpositive, if_neg hcounted] at h
    split at h <;> cases h
  · rintro ⟨hlow, hdisabled, hcatastrophic⟩
    rw [AutoConfig.adjust, if_neg hlow, if_neg hdisabled, if_pos hcatastrophic] at h
    cases h

/-- Rows that change nothing are in order, and leave the tables. -/
theorem rowsInOrder_of_unchanged (tasks : List FeedbackTask) {cfg : AutoConfig}
    {rows : List RegimeRow} (h : (cfg.adjustAll now rows).2 = false) :
    RowsInOrder tasks now cfg rows := by
  induction rows generalizing cfg with
  | nil => trivial
  | cons row rest ih =>
      rw [adjustAll_cons_changed] at h
      rcases Bool.or_eq_false_iff.mp h with ⟨hrow, hrest⟩
      have hinOrder := inOrder_of_unchanged hrow
      exact ⟨⟨hinOrder.1, fun hdisables => absurd hdisables hinOrder.2⟩, ih hrest⟩

/-- Unchanged tables are the same tables. -/
theorem adjust_of_unchanged {cfg : AutoConfig} {row : RegimeRow}
    (h : (cfg.adjust now row).2 = false) : (cfg.adjust now row).1 = cfg := by
  rw [AutoConfig.adjust] at h ⊢
  split_ifs at h ⊢ with hlow hdisabled
  · rfl
  · cases hcooldown : (cfg.regime row.regime).cooldown with
    | none => rfl
    | some c =>
        simp only [hcooldown, AutoConfig.coolDown] at h ⊢
        split_ifs at h ⊢ <;> rfl
  · rfl

theorem adjustAll_of_unchanged {cfg : AutoConfig} {rows : List RegimeRow}
    (h : (cfg.adjustAll now rows).2 = false) : (cfg.adjustAll now rows).1 = cfg := by
  induction rows generalizing cfg with
  | nil => rfl
  | cons row rest ih =>
      rw [adjustAll_cons_changed] at h
      rcases Bool.or_eq_false_iff.mp h with ⟨hrow, hrest⟩
      have hsame := adjust_of_unchanged hrow
      rw [adjustAll_cons, ih hrest, hsame]

end Rows

/-! ## Runs -/

/-- What holds of the key and its watches. -/
structure Store.Sound (s : Store) : Prop where
  executed : s.executedDisabled = false
  kept : s.lost = false
  consistent : ∀ name, ((s.config.getD .empty).regime name).Consistent
  tracks : Tracks (s.config.getD .empty) s.watches

/-- A handler behind its look at the key handles no watched regime, unless it is a trap. -/
def Store.Stands (s : Store) (t : FeedbackTask) : Prop :=
  ∀ name, t.bound name → s.watches name = none

/-- The invariant of orderly runs. -/
abbrev Sound : Pool Store FeedbackTask → Prop :=
  Pool.Inv Store.Sound Store.Stands fun _ _ => True

/-- Without tables every regime is consistent. -/
theorem empty_consistent (settings : Option SessionConfig) (name : Text) :
    (({ AutoConfig.empty with session := settings } : AutoConfig).regime name).Consistent := by
  simp [RegimeState.Consistent, AutoConfig.regime, AutoConfig.empty]

/-- A write that drops no tables keeps everything sound. -/
theorem overwrite_sound {s : Store} (h : s.Sound)
    (hnone : s.config.any AutoConfig.hasTables = false) {config : Option AutoConfig}
    (hconsistent : ∀ name, ((config.getD .empty).regime name).Consistent) :
    (s.overwrite config).Sound := by
  have htables : (s.config.getD .empty).hasTables = false := by
    cases hconfig : s.config with
    | none => rfl
    | some cfg => simpa [hconfig] using hnone
  refine ⟨h.executed, ?_, hconsistent, tracks_of_eq_none fun name => ?_⟩
  · simp [Store.overwrite, h.kept, hnone]
  · exact h.tracks.watches_eq_none htables name

/-- A handler that passes its look at the key handles no watched regime, or a trap. -/
theorem watches_of_not_drops {s : Store} (h : s.Sound) {regime : MarketRegime}
    (hpass : ∀ cfg ∈ s.config, ¬ cfg.drops regime) (htrap : regime ≠ .SNIPER) :
    s.watches regime.value = none := by
  cases hwatch : s.watches regime.value with
  | none => rfl
  | some w =>
      have hstatus := (h.tracks _ w hwatch).status
      cases hconfig : s.config with
      | none => simp [hconfig, AutoConfig.regime, AutoConfig.empty] at hstatus
      | some cfg =>
          rw [hconfig] at hstatus
          exact absurd (Or.inl ⟨hstatus, htrap⟩) (hpass cfg hconfig)

/-- Cycles in order keep everything sound. -/
theorem cycleCall_sound {s : Store} (h : s.Sound) (m : Meets) (now : ℚ) (phase : CyclePhase)
    (tasks : List FeedbackTask)
    (horder : ∀ rows base, phase = .write rows base → m.goesOn = true →
      s.config = base ∧ RowsInOrder tasks now (base.getD .empty) rows) :
    (cycleCall s m now phase).1.Sound ∧ ∀ t ∈ tasks, s.Stands t →
      (cycleCall s m now phase).1.Stands t := by
  cases hgoes : m.goesOn with
  | false =>
      cases phase <;> simp only [cycleCall, hgoes] <;> exact ⟨h, fun _ _ ht => ht⟩
  | true =>
      cases phase with
      | query => exact ⟨h, fun _ _ ht => ht⟩
      | read rows =>
          simp only [cycleCall, hgoes, if_true]
          split
          · exact ⟨h, fun _ _ ht => ht⟩
          · rename_i hchanged
            have hsame := Bool.eq_false_iff.mpr hchanged
            refine ⟨⟨h.executed, h.kept, h.consistent, ?_⟩, fun t ht hstands name hbound => ?_⟩
            · have htracks := h.tracks.adjustAll (rowsInOrder_of_unchanged tasks hsame)
              rwa [adjustAll_of_unchanged hsame] at htracks
            · exact observeAll_eq_none (rowsInOrder_of_unchanged tasks hsame) ht hbound
                (hstands name hbound)
      | write rows base =>
          rcases horder rows base rfl hgoes with ⟨rfl, hrows⟩
          simp only [cycleCall, hgoes, if_true]
          refine ⟨⟨h.executed, by simp [h.kept], ?_, h.tracks.adjustAll hrows⟩,
            fun t ht hstands name hbound => ?_⟩
          · exact adjustAll_consistent rows h.consistent
          · exact observeAll_eq_none hrows ht hbound (hstands name hbound)

/-- Calls of a handler keep everything sound, and admit no watched regime but traps. -/
theorem handlerCall_sound {s : Store} (h : s.Sound) (m : Meets) {regime : MarketRegime}
    {phase : HandlerPhase} (hstands : s.Stands (.handling regime phase))
    (horder : phase = .config → m.goesOn = true ∨ ∀ cfg ∈ s.config, ¬ cfg.drops regime) :
    (handlerCall s m regime phase).1.Sound ∧
      (handlerCall s m regime phase).1.watches = s.watches ∧
      s.Stands (handlerCall s m regime phase).2 := by
  cases phase with
  | flag =>
      refine ⟨h, rfl, fun name hbound => ?_⟩
      simp only [handlerCall] at hbound
      split at hbound <;> exact hbound.elim
  | config =>
      refine ⟨h, rfl, fun name hbound => ?_⟩
      simp only [handlerCall] at hbound
      split at hbound
      · exact hbound.elim
      · rename_i hpass
        rcases hbound with ⟨rfl, htrap⟩
        refine watches_of_not_drops h ?_ htrap
        rcases horder rfl with hgoes | hnone
        · intro cfg hcfg hdrops
          exact hpass (by simp [hgoes, Option.mem_def.mp hcfg, hdrops])
        · exact hnone
  | admitted =>
      have hallowed : s.forbids regime = false := by
        by_cases htrap : regime = .SNIPER
        · simp [Store.forbids, htrap]
        · simp [Store.forbids, hstands regime.value ⟨rfl, htrap⟩]
      simp only [handlerCall]
      split
      · refine ⟨⟨?_, h.kept, h.consistent, h.tracks⟩, rfl, fun _ hbound => hbound.elim⟩
        simp [h.executed, hallowed]
      · exact ⟨h, rfl, fun _ hbound => hbound.elim⟩

/-- Session calls in order keep everything sound. -/
theorem sessionCall_sound {s : Store} (h : s.Sound) (settings : Option SessionConfig)
    (phase : SessionPhase)
    (horder : phase = .config → s.config.any AutoConfig.hasTables = false) :
    (sessionCall s settings phase).1.Sound ∧
      (sessionCall s settings phase).1.watches = s.watches ∧
      ∀ name, ¬ (sessionCall s settings phase).2.bound name := by
  cases phase with
  | flag =>
      cases settings <;>
        exact ⟨⟨h.executed, h.kept, h.consistent, h.tracks⟩, rfl, fun _ hbound => hbound.elim⟩
  | config =>
      cases settings with
      | none =>
          exact ⟨overwrite_sound h (horder rfl) (empty_consistent none), rfl,
            fun _ hbound => hbound.elim⟩
      | some settings =>
          exact ⟨overwrite_sound h (horder rfl) (empty_consistent (some settings)), rfl,
            fun _ hbound => hbound.elim⟩

/-- No call of a cycle leaves a handler behind. -/
theorem cycleCall_not_bound (s : Store) (m : Meets) (now : ℚ) (phase : CyclePhase)
    (name : Text) : ¬ (cycleCall s m now phase).2.bound name := by
  cases phase with
  | query =>
      simp only [cycleCall]
      split <;> exact id
  | read rows =>
      simp only [cycleCall]
      split
      · split <;> exact id
      · exact id
  | write rows base =>
      simp only [cycleCall]
      split <;> exact id

/-- Where nothing is watched anew, every task stands where it stood. -/
theorem stands_of_watches_eq {s s' : Store} (h : s'.watches = s.watches) {t : FeedbackTask}
    (ht : s.Stands t) : s'.Stands t := by
  intro name hbound
  rw [h]
  exact ht name hbound

/-- A turn in order leaves the key sound and every task where it should stand. -/
theorem act_sound {p : Pool Store FeedbackTask} (h : Sound p) {t : FeedbackTask}
    (hmem : t ∈ p.tasks) {m : Meets} (ht : TurnInOrder p m t) :
    (act m p.shared t).1.Sound ∧ (act m p.shared t).1.Stands (act m p.shared t).2 ∧
      ∀ u ∈ p.tasks, p.shared.Stands u → (act m p.shared t).1.Stands u := by
  cases t with
  | starting settings phase =>
      rcases sessionCall_sound h.shared (some settings) phase (by rintro rfl; exact ht) with
        ⟨hsound, hwatches, hnone⟩
      exact ⟨hsound, fun name hbound => absurd hbound (hnone name),
        fun _ _ hu => stands_of_watches_eq hwatches hu⟩
  | stopping phase =>
      rcases sessionCall_sound h.shared none phase (by rintro rfl; exact ht) with
        ⟨hsound, hwatches, hnone⟩
      exact ⟨hsound, fun name hbound => absurd hbound (hnone name),
        fun _ _ hu => stands_of_watches_eq hwatches hu⟩
  | cycle now phase =>
      rcases cycleCall_sound h.shared m now phase p.tasks (by rintro rows base rfl; exact ht) with
        ⟨hsound, hbeside⟩
      exact ⟨hsound, fun name hbound =>
        absurd hbound (cycleCall_not_bound p.shared m now phase name), hbeside⟩
  | handling regime phase =>
      rcases handlerCall_sound h.shared m (h.each _ hmem) (by rintro rfl; exact ht) with
        ⟨hsound, hwatches, hnext⟩
      exact ⟨hsound, stands_of_watches_eq hwatches hnext,
        fun _ _ hu => stands_of_watches_eq hwatches hu⟩
  | done => exact ⟨h.shared, fun _ hbound => hbound.elim, fun _ _ hu => hu⟩

/-- Every step in order keeps the invariant. -/
theorem step_inv {p : Pool Store FeedbackTask} (h : Sound p) (input : FeedbackInput)
    (horder : Orderly p input) : Sound (step p input) := by
  have hspawn : ∀ t : FeedbackTask, (∀ name, ¬ t.bound name) → Sound (p.spawn t) := by
    intro t hnone
    exact h.spawn (fun name hbound => absurd hbound (hnone name)) fun _ _ => trivial
  cases input with
  | start settings => exact hspawn _ fun _ => id
  | stop => exact hspawn _ fun _ => id
  | cycle => exact hspawn _ fun _ => id
  | signal regime => exact hspawn _ fun _ => id
  | turn i m =>
      refine h.turn (fun _ _ _ => trivial) i (fun t hi => ?_) fun t hi u hu _ => ?_
      · have hact := act_sound h (List.mem_of_getElem? hi) (horder t hi)
        exact ⟨hact.1, hact.2.1⟩
      · have hact := act_sound h (List.mem_of_getElem? hi) (horder t hi)
        exact ⟨hact.2.2 u hu (h.each u hu), trivial⟩
  | advance elapsed =>
      have hshared : Store.Sound { p.shared with clock := p.shared.clock + elapsed } :=
        ⟨h.shared.executed, h.shared.kept, h.shared.consistent, h.shared.tracks⟩
      exact ⟨hshared, h.each, h.pair⟩

/-- The first state meets the invariant. -/
theorem start_inv (clock : ℚ) : Sound (start clock) := by
  refine ⟨⟨rfl, rfl, empty_consistent none, tracks_of_eq_none fun _ => rfl⟩, fun t ht => ?_,
    List.Pairwise.nil⟩
  simp [start] at ht

/-- In orderly runs no signal of a disabled regime is executed before its cooldown and three good
days in a row are over, the tables stay consistent, and no write is lost. -/
theorem cooldown_respected (clock : ℚ) (inputs : List FeedbackInput)
    (horder : Admits step Orderly (start clock) inputs) (n : Nat) :
    Safe (run step (start clock) (inputs.take n)) := by
  have hsound : Sound (run step (start clock) (inputs.take n)) :=
    @invariant_run_take _ _ step Orderly Sound (fun _ input h hcond => step_inv h input hcond)
      _ _ (start_inv clock) horder n
  refine ⟨hsound.shared.executed, fun cfg hcfg name => ?_, hsound.shared.kept⟩
  have hconsistent := hsound.shared.consistent name
  rwa [Option.mem_def.mp hcfg] at hconsistent

/-! ## Two runs -/

/-- The call returns these results of the TREND_BULL regime. -/
def results (expectancy : ℚ) : Meets :=
  ⟨true, [⟨"TREND_BULL".toList, 40, expectancy⟩]⟩

/-- A session starts, and a cycle turns the regime off. -/
def turnedOff : List FeedbackInput :=
  [.start ⟨1, 3, 15, 0⟩, .turn 0 (results 0), .turn 0 (results 0), .cycle,
    .turn 1 (results (-3)), .turn 1 (results (-3)), .turn 1 (results (-3))]

/-- A cycle with good results some days later. -/
def goodCycle (i : Nat) (days : ℚ≥0) : List FeedbackInput :=
  [.advance (days * 86400), .cycle, .turn i (results 2), .turn i (results 2), .turn i (results 2)]

/-- A signal of the regime, and its order. -/
def tradedSignal (i : Nat) : List FeedbackInput :=
  [.signal .TREND_BULL, .turn i (results 0), .turn i (results 0), .turn i (results 0)]

/-- Three good days in a row after the cooldown. -/
def goodDays : List FeedbackInput :=
  turnedOff ++ tradedSignal 2 ++ goodCycle 3 14 ++ goodCycle 4 1 ++ goodCycle 5 1 ++
    tradedSignal 6

theorem goodDays_safe : Safe (run step (start 0) (goodDays.take 40)) :=
  cooldown_respected 0 goodDays (by decide +kernel) 40

/-- Three good days in three weeks. -/
def scatteredDays : List FeedbackInput :=
  turnedOff ++ goodCycle 2 14 ++ goodCycle 3 7 ++ goodCycle 4 7 ++ tradedSignal 5

/-- Good days need not follow each other to turn a regime on again. -/
theorem scatteredDays_not_safe :
    ¬ ∀ (clock : ℚ) (inputs : List FeedbackInput) (n : Nat),
      Safe (run step (start clock) (inputs.take n)) := by
  intro h
  have hexecuted := (h 0 scatteredDays 40).executed
  revert hexecuted
  decide +kernel

end Feedback
end Karsa
