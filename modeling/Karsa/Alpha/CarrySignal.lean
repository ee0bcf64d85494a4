import Karsa.Core.PositionRecord
import Karsa.Foundations.Runs
import Karsa.Foundations.Streaks

/-!
# Strategy router - The carry signal

`evaluate_carry_signal` appends the current funding rate of a symbol to a history of eight
entries, counts the entries at its end that are below a threshold, and grants a bonus when there
are enough of them and the price is near the one it stored at the first bonus.  It appends on
every call, whatever the time since the last one and the direction it is asked about.

Funding periods last eight hours; times are in seconds.

Main results:

- Theorem `Faithful.next`: what the history says about the calls.
- Theorem `streak_periods`: the trailing entries stand for consecutive funding periods.
- Theorem `carryEarned`: the runs in which every bonus is earned.
-/

namespace Karsa
namespace CarrySignal

/-! ## The market -/

/-- The funding period of a time. -/
def fundingPeriod (time : ℚ) : ℤ :=
  ⌊time / 28800⌋

/-- Funding rates by period and prices by time. -/
structure Market where
  rate : Text → ℤ → ℚ
  price : Text → ℚ → ℚ

/-- A call of `evaluate_carry_signal` with the texts that Redis holds then, an empty text like an
absent one; what can be read of them is what the market has. -/
structure Call (M : Market) where
  now : ℚ
  symbol : Text
  direction : Side
  rawRate : Option (Numeral ℚ)
  rawPriceNow : Option (Numeral ℚ)
  rate_read : ∀ x, rawRate = some (.value x) → x = M.rate symbol (fundingPeriod now)
  price_read : ∀ x, rawPriceNow = some (.value x) → x = M.price symbol now

/-! ## The router's keys -/

/-- Thresholds of the settings. -/
structure CarrySettings where
  fundingThreshold : ℚ
  consecutivePeriods : ℕ
  maxPriceChangePct : ℚ
  scoreBonus : ℤ
deriving Repr, DecidableEq

/-- The thresholds without a configuration. -/
def CarrySettings.default : CarrySettings :=
  ⟨-3 / 10000, 3, 2 / 100, 25⟩

/-- An entry of the history. -/
structure Entry where
  rate : ℚ
  ts : ℚ
deriving Repr, DecidableEq

/-- A key with the time at which it lapses. -/
structure Stored (α : Type) where
  value : α
  lapsesAt : ℚ

/-- `karsa:funding:history:{symbol}` and `karsa:market:{symbol}:price_start_carry`. -/
structure CarryStore where
  history : Text → Option (Stored (List Entry))
  priceStart : Text → Option (Stored (Numeral ℚ))

/-- No key is there. -/
def CarryStore.empty : CarryStore :=
  ⟨fun _ => none, fun _ => none⟩

/-- `redis_client.get`. -/
def Stored.read {α : Type} (now : ℚ) (key : Option (Stored α)) : Option α :=
  key.bind fun stored => if now < stored.lapsesAt then some stored.value else none

/-- `ex=86400`. -/
def dayTtl : ℚ := 86400

/-- What a granted bonus says. -/
structure CarryBonus where
  bonus : ℤ
  fundingRate : ℚ
  periods : ℕ
deriving Repr, DecidableEq

section Evaluate

variable (cfg : CarrySettings)

/-- An entry below the threshold. -/
def below (e : Entry) : Bool :=
  decide (e.rate < cfg.fundingThreshold)

/-- The history with the current rate, at most eight entries. -/
def appended (history : List Entry) (e : Entry) : List Entry :=
  let longer := history ++ [e]
  if 8 < longer.length then longer.drop (longer.length - 8) else longer

/-- The trailing entries below the threshold, the newest first. -/
def streak (history : List Entry) : List Entry :=
  history.reverse.takeWhile (below cfg)

variable {M : Market}

/-- The history that a call leaves. -/
def CarryStore.historyWith (s : CarryStore) (c : Call M) (rate : ℚ) : List Entry :=
  appended ((Stored.read c.now (s.history c.symbol)).getD []) ⟨rate, c.now⟩

/-- The store after the history was written. -/
def CarryStore.withHistory (s : CarryStore) (c : Call M) (rate : ℚ) : CarryStore :=
  { s with
    history := Function.update s.history c.symbol
      (some ⟨s.historyWith c rate, c.now + dayTtl⟩) }

/-- The store after the baseline was written. -/
def CarryStore.withPriceStart (s : CarryStore) (c : Call M) (price : Numeral ℚ) : CarryStore :=
  { s with
    priceStart := Function.update s.priceStart c.symbol (some ⟨price, c.now + dayTtl⟩) }

/-- The price check: whether the bonus is granted, and the store it leaves. -/
def checkPrice (s : CarryStore) (c : Call M) : Bool × CarryStore :=
  match Stored.read c.now (s.priceStart c.symbol), c.rawPriceNow with
  | some rawStart, some rawNow =>
      match rawStart.decimal, rawNow.decimal with
      | some priceStart, some priceNow =>
          if 0 < priceStart then
            (!decide (cfg.maxPriceChangePct < |priceNow - priceStart| / priceStart), s)
          else (true, s)
      | _, _ => (false, s)
  | none, some rawNow => (true, s.withPriceStart c rawNow)
  | _, none => (true, s)

/-- `evaluate_carry_signal`; a value that is no number raises, which ends without a bonus. -/
def evaluateCarrySignal (s : CarryStore) (c : Call M) : Option CarryBonus × CarryStore :=
  match c.rawRate with
  | some (.value rate) =>
      let consecutiveNegative := (streak cfg (s.historyWith c rate)).length
      let s := s.withHistory c rate
      if consecutiveNegative < cfg.consecutivePeriods then (none, s)
      else
        let checked := checkPrice cfg s c
        (if checked.1 then some ⟨cfg.scoreBonus, rate, consecutiveNegative⟩ else none, checked.2)
  | _ => (none, s)

/-- The store behind a call. -/
def next (s : CarryStore) (c : Call M) : CarryStore :=
  (evaluateCarrySignal cfg s c).2

/-- The store behind some calls. -/
def storeAfter (calls : List (Call M)) : CarryStore :=
  run (next cfg) CarryStore.empty calls

end Evaluate

/-! ## Earned bonuses -/

section Purpose

variable (cfg : CarrySettings) {M : Market}

/-- The direction of a call receives the funding. -/
def Receives (c : Call M) : Prop :=
  (M.rate c.symbol (fundingPeriod c.now) < 0 ∧ c.direction = .LONG) ∨
    (0 < M.rate c.symbol (fundingPeriod c.now) ∧ c.direction = .SHORT)

/-- The price of a symbol moved at most by the allowed part since a time. -/
def PriceKept (c : Call M) (since : ℚ) : Prop :=
  |M.price c.symbol c.now - M.price c.symbol since| ≤
    cfg.maxPriceChangePct * M.price c.symbol since

/-- The direction receives the funding, and from a call on the rates of enough funding periods
were below the threshold, up to the present one, and the price was kept. -/
structure Earned (before : List (Call M)) (c : Call M) : Prop where
  receives : Receives c
  streak : ∃ first ∈ before ++ [c], first.symbol = c.symbol ∧
    (cfg.consecutivePeriods : ℤ) ≤ fundingPeriod c.now - fundingPeriod first.now + 1 ∧
    (∀ j, fundingPeriod first.now ≤ j → j ≤ fundingPeriod c.now →
      M.rate c.symbol j < cfg.fundingThreshold) ∧
    PriceKept cfg c first.now

/-- Every bonus of a run is earned. -/
def CarryEarned (calls : List (Call M)) : Prop :=
  ∀ before c after, calls = before ++ c :: after →
    (evaluateCarrySignal cfg (storeAfter cfg before) c).1.isSome = true → Earned cfg before c

/-- The stored price that the price check compares with. -/
def comparedWith (s : CarryStore) (c : Call M) : Option ℚ :=
  match Stored.read c.now (s.priceStart c.symbol), c.rawPriceNow with
  | some (.value priceStart), some (.value _) => if 0 < priceStart then some priceStart else none
  | _, _ => none

/-- The price check has the price at a time before it; where it compares nothing, the price was
kept since then. -/
def ChecksSince (s : CarryStore) (c : Call M) (since : ℚ) : Prop :=
  match comparedWith s c with
  | some priceStart => priceStart = M.price c.symbol since
  | none => PriceKept cfg c since

/-- A call that makes a streak longer comes in the next funding period, and one that finds it
long enough is for the receiving direction and has its price checked since the streak began. -/
structure SoundCall (s : CarryStore) (c : Call M) : Prop where
  next_period : ∀ rate, c.rawRate = some (.value rate) → rate < cfg.fundingThreshold →
    ∀ e ∈ ((Stored.read c.now (s.history c.symbol)).getD []).getLast?,
      e.rate < cfg.fundingThreshold → fundingPeriod c.now = fundingPeriod e.ts + 1
  receives : ∀ rate, c.rawRate = some (.value rate) →
    cfg.consecutivePeriods ≤ (streak cfg (s.historyWith c rate)).length → Receives c
  price : ∀ rate, c.rawRate = some (.value rate) →
    cfg.consecutivePeriods ≤ (streak cfg (s.historyWith c rate)).length →
      ∃ e ∈ (streak cfg (s.historyWith c rate)).getLast?, ChecksSince cfg s c e.ts

end Purpose

/-! ## What the history says -/

section History

variable {cfg : CarrySettings} {M : Market} {s : CarryStore} {before : List (Call M)} {c : Call M}
  {rate : ℚ}

/-- The funding period of an entry. -/
def Entry.period (e : Entry) : ℤ :=
  fundingPeriod e.ts

/-- Entries of a symbol's calls, in which neighbours below the threshold are of consecutive
funding periods. -/
structure FaithfulHistory (cfg : CarrySettings) (M : Market) (before : List (Call M))
    (symbol : Text) (history : List Entry) : Prop where
  recorded : ∀ e ∈ history, e.rate = M.rate symbol e.period ∧
    ∃ c ∈ before, c.symbol = symbol ∧ c.now = e.ts
  linked : LinkedBy Entry.period (below cfg) history

/-- The histories of all symbols. -/
def Faithful (cfg : CarrySettings) (M : Market) (before : List (Call M)) (s : CarryStore) : Prop :=
  ∀ symbol stored, s.history symbol = some stored →
    FaithfulHistory cfg M before symbol stored.value

/-- The history that is read. -/
theorem Faithful.read (h : Faithful cfg M before s) (symbol : Text) (now : ℚ) :
    FaithfulHistory cfg M before symbol ((Stored.read now (s.history symbol)).getD []) := by
  have hnil : FaithfulHistory cfg M before symbol [] :=
    ⟨fun e he => (List.not_mem_nil he).elim, List.isChain_nil⟩
  cases hstored : s.history symbol with
  | none => exact hnil
  | some stored =>
      by_cases hlapsed : now < stored.lapsesAt
      · simpa [Stored.read, hlapsed] using h symbol stored hstored
      · simpa [Stored.read, hlapsed] using hnil

/-- Calls that come later do not matter. -/
theorem FaithfulHistory.append {symbol : Text} {history : List Entry}
    (h : FaithfulHistory cfg M before symbol history) (c : Call M) :
    FaithfulHistory cfg M (before ++ [c]) symbol history := by
  refine ⟨fun e he => ?_, h.linked⟩
  rcases h.recorded e he with ⟨hrate, call, hcall, hsymbol, hnow⟩
  exact ⟨hrate, call, List.mem_append_left _ hcall, hsymbol, hnow⟩

/-- The last entries of a history are one, too. -/
theorem FaithfulHistory.drop {symbol : Text} {history : List Entry}
    (h : FaithfulHistory cfg M before symbol history) (n : ℕ) :
    FaithfulHistory cfg M before symbol (history.drop n) :=
  ⟨fun e he => h.recorded e (List.mem_of_mem_drop he), h.linked.drop n⟩

/-- The history with the current rate. -/
theorem Faithful.historyWith (h : Faithful cfg M before s) (hsound : SoundCall cfg s c)
    (hrate : c.rawRate = some (.value rate)) :
    FaithfulHistory cfg M (before ++ [c]) c.symbol (s.historyWith c rate) := by
  have hread := h.read c.symbol c.now
  have hlonger : FaithfulHistory cfg M (before ++ [c]) c.symbol
      ((Stored.read c.now (s.history c.symbol)).getD [] ++ [⟨rate, c.now⟩]) := by
    refine ⟨fun e he => ?_, ?_⟩
    · rcases List.mem_append.mp he with he | he
      · exact (hread.append c).recorded e he
      · rw [List.mem_singleton.mp he]
        exact ⟨c.rate_read rate hrate, c, by simp, rfl, rfl⟩
    · refine hread.linked.append (List.isChain_singleton _) fun e he e' he' hbelow hbelow' => ?_
      obtain rfl : (⟨rate, c.now⟩ : Entry) = e' := Option.some.inj he'
      exact hsound.next_period rate hrate (of_decide_eq_true hbelow') e he
        (of_decide_eq_true hbelow)
  unfold CarryStore.historyWith appended
  dsimp only
  split_ifs
  · exact hlonger.drop _
  · exact hlonger

/-- The price check leaves the histories alone. -/
theorem checkPrice_history (s : CarryStore) (c : Call M) :
    (checkPrice cfg s c).2.history = s.history := by
  unfold checkPrice
  cases Stored.read c.now (s.priceStart c.symbol) with
  | none => cases c.rawPriceNow <;> rfl
  | some rawStart =>
      cases c.rawPriceNow with
      | none => rfl
      | some rawNow =>
          cases rawStart <;> cases rawNow
          case value.value priceStart priceNow =>
            by_cases hpos : 0 < priceStart <;> simp [hpos]
          all_goals rfl

/-- Where no rate is read, the store stays as it is. -/
theorem next_of_unread (h : ∀ rate, c.rawRate ≠ some (.value rate)) : next cfg s c = s := by
  unfold next evaluateCarrySignal
  cases hraw : c.rawRate with
  | none => rfl
  | some raw =>
      cases raw with
      | malformed => rfl
      | value rate => exact absurd hraw (h rate)

/-- The histories behind a call that reads a rate. -/
theorem history_next (s : CarryStore) (hrate : c.rawRate = some (.value rate)) :
    (next cfg s c).history = Function.update s.history c.symbol
      (some ⟨s.historyWith c rate, c.now + dayTtl⟩) := by
  unfold next evaluateCarrySignal
  rw [hrate]
  dsimp only
  by_cases hshort : (streak cfg (s.historyWith c rate)).length < cfg.consecutivePeriods
  · rw [if_pos hshort]
    rfl
  · rw [if_neg hshort]
    exact checkPrice_history _ c

/-- Sound calls keep the histories faithful. -/
theorem Faithful.next (h : Faithful cfg M before s) (hsound : SoundCall cfg s c) :
    Faithful cfg M (before ++ [c]) (next cfg s c) := by
  intro symbol stored hstored
  by_cases hread : ∃ rate, c.rawRate = some (.value rate)
  · rcases hread with ⟨rate, hrate⟩
    rw [history_next s hrate] at hstored
    by_cases hsymbol : symbol = c.symbol
    · rw [hsymbol, Function.update_self] at hstored
      rw [hsymbol, ← Option.some.inj hstored]
      exact h.historyWith hsound hrate
    · rw [Function.update_of_ne hsymbol] at hstored
      exact (h symbol stored hstored).append c
  · rw [next_of_unread fun rate hrate => hread ⟨rate, hrate⟩] at hstored
    exact (h symbol stored hstored).append c

end History

/-! ## The trailing entries -/

section Streak

variable {cfg : CarrySettings} {M : Market} {s : CarryStore} {before : List (Call M)} {c : Call M}
  {rate : ℚ}

/-- A history ends with the present rate. -/
theorem getLast?_historyWith (s : CarryStore) (c : Call M) (rate : ℚ) :
    (s.historyWith c rate).getLast? = some ⟨rate, c.now⟩ := by
  unfold CarryStore.historyWith appended
  dsimp only
  split_ifs with hlong
  · rw [List.getLast?_drop, if_neg (by omega), List.getLast?_append]
    rfl
  · rw [List.getLast?_append]
    rfl

/-- Entries of the streak are in the history and below the threshold. -/
theorem mem_streak {history : List Entry} {e : Entry} (he : e ∈ streak cfg history) :
    e ∈ history ∧ e.rate < cfg.fundingThreshold :=
  ⟨List.mem_reverse.mp ((List.takeWhile_prefix _).subset he),
    of_decide_eq_true (List.all_eq_true.mp (List.all_takeWhile ..) e he)⟩

/-- A streak that is there begins with the history's last entry. -/
theorem streak_eq_cons {history : List Entry} {newest first : Entry}
    (hnewest : history.getLast? = some newest)
    (hfirst : (streak cfg history).getLast? = some first) :
    ∃ rest, streak cfg history = newest :: rest := by
  rcases List.getLast?_eq_some_iff.mp hnewest with ⟨older, rfl⟩
  unfold streak at hfirst ⊢
  rw [List.reverse_append, List.reverse_singleton, List.singleton_append, List.takeWhile_cons]
    at hfirst ⊢
  cases hbelow : below cfg newest with
  | false => simp [hbelow] at hfirst
  | true => exact ⟨_, if_pos rfl⟩

/-- The trailing entries stand for as many consecutive funding periods, all of them below the
threshold. -/
theorem streak_periods {symbol : Text} {history : List Entry} {newest first : Entry}
    (h : FaithfulHistory cfg M before symbol history) (hnewest : history.getLast? = some newest)
    (hfirst : (streak cfg history).getLast? = some first) :
    newest.period - first.period + 1 = (streak cfg history).length ∧
      ∀ j, first.period ≤ j → j ≤ newest.period → M.rate symbol j < cfg.fundingThreshold := by
  rcases streak_eq_cons hnewest hfirst with ⟨rest, hstreak⟩
  have hcounts : Counts Entry.period (newest :: rest) := hstreak ▸ counts_takeWhile h.linked
  have hlast : (newest :: rest).getLast? = some first := hstreak ▸ hfirst
  constructor
  · have hadd := hcounts.eq_add hlast
    rw [hstreak, List.length_cons]
    push_cast
    omega
  · intro j hlow hhigh
    rcases hcounts.exists_mem hlast hlow hhigh with ⟨e, he, hperiod⟩
    rcases mem_streak (hstreak ▸ he) with ⟨hmem, hbelow⟩
    rw [← hperiod, ← (h.recorded e hmem).1]
    exact hbelow

/-- A bonus needs a rate that was read, a streak that is long enough and a passed price check. -/
theorem bonus_isSome (h : (evaluateCarrySignal cfg s c).1.isSome = true) :
    ∃ rate, c.rawRate = some (.value rate) ∧
      cfg.consecutivePeriods ≤ (streak cfg (s.historyWith c rate)).length ∧
      (checkPrice cfg (s.withHistory c rate) c).1 = true := by
  unfold evaluateCarrySignal at h
  cases hraw : c.rawRate with
  | none => simp [hraw] at h
  | some raw =>
      cases raw with
      | malformed => simp [hraw] at h
      | value rate =>
          simp only [hraw] at h
          by_cases hshort : (streak cfg (s.historyWith c rate)).length < cfg.consecutivePeriods
          · simp [hshort] at h
          · refine ⟨rate, rfl, by omega, ?_⟩
            by_contra hrefused
            simp [hshort, hrefused] at h

/-- Where the price check compares with the price at a time, it passes only if the price was
kept since then. -/
theorem priceKept_of_checkPrice {since : ℚ} (hsince : ChecksSince cfg s c since)
    (h : (checkPrice cfg (s.withHistory c rate) c).1 = true) : PriceKept cfg c since := by
  unfold ChecksSince comparedWith at hsince
  unfold checkPrice at h
  have hstart : (s.withHistory c rate).priceStart = s.priceStart := rfl
  rw [hstart] at h
  cases hraw : Stored.read c.now (s.priceStart c.symbol) with
  | none => simpa [hraw] using hsince
  | some rawStart =>
      cases hnow : c.rawPriceNow with
      | none => simpa [hraw, hnow] using hsince
      | some rawNow =>
          cases rawStart <;> cases rawNow
          case value.value priceStart priceNow =>
            by_cases hpos : 0 < priceStart
            · simp only [hraw, hnow, if_pos hpos] at hsince
              have hkept : |priceNow - priceStart| / priceStart ≤ cfg.maxPriceChangePct := by
                simpa [hraw, hnow, hpos] using h
              rw [div_le_iff₀ hpos, c.price_read priceNow hnow, hsince] at hkept
              exact hkept
            · simpa [hraw, hnow, hpos] using hsince
          all_goals simpa [hraw, hnow] using hsince

/-- A sound call's bonus is earned. -/
theorem earned_of_soundCall (h : Faithful cfg M before s) (hsound : SoundCall cfg s c)
    (hbonus : (evaluateCarrySignal cfg s c).1.isSome = true) : Earned cfg before c := by
  rcases bonus_isSome hbonus with ⟨rate, hrate, hlong, hchecked⟩
  rcases hsound.price rate hrate hlong with ⟨e, hfirst, hsince⟩
  have hhistory := h.historyWith hsound hrate
  have hperiods := streak_periods hhistory (getLast?_historyWith s c rate) hfirst
  have hmem := (mem_streak (List.mem_of_getLast? hfirst)).1
  rcases (hhistory.recorded e hmem).2 with ⟨first, hcall, hsymbol, hnow⟩
  refine ⟨hsound.receives rate hrate hlong, first, hcall, hsymbol, ?_, ?_, ?_⟩
  · rw [hnow]
    have hlength := hperiods.1
    change fundingPeriod c.now - fundingPeriod e.ts + 1 = _ at hlength
    omega
  · rw [hnow]
    exact hperiods.2
  · rw [hnow]
    exact priceKept_of_checkPrice hsince hchecked

/-- What the histories say after a run of sound calls. -/
theorem faithful_storeAfter {calls : List (Call M)}
    (h : Admits (next cfg) (SoundCall cfg) CarryStore.empty calls) :
    Faithful cfg M calls (storeAfter cfg calls) := by
  induction calls using List.reverseRecOn with
  | nil => intro symbol stored hstored; cases hstored
  | append_singleton calls c ih =>
      rcases admits_append.mp h with ⟨hcalls, hlast⟩
      have hrun : storeAfter cfg (calls ++ [c]) = next cfg (storeAfter cfg calls) c := by
        unfold storeAfter run
        rw [List.foldl_append]
        rfl
      rw [hrun]
      exact (ih hcalls).next hlast.1

/-- In every run of calls that lengthen a streak only in the next funding period, and that find
it long enough only for the receiving direction and with a price checked since its beginning,
every bonus is earned. -/
theorem carryEarned {calls : List (Call M)}
    (h : Admits (next cfg) (SoundCall cfg) CarryStore.empty calls) : CarryEarned cfg calls := by
  rintro before c after rfl hbonus
  rcases admits_append.mp h with ⟨hbefore, hrest⟩
  exact earned_of_soundCall (faithful_storeAfter hbefore) hrest.1 hbonus

/-- What is read of a number's text. -/
theorem eq_of_read {a x : ℚ} (h : some (Numeral.value a) = some (.value x)) : x = a :=
  (Numeral.value.inj (Option.some.inj h)).symm

/-- Longs receive a tenth of a percent in every period, and the price stays where it is. -/
def steadyMarket : Market :=
  ⟨fun _ _ => -1 / 1000, fun _ _ => 100⟩

/-- A call for a long position in it. -/
def longCall (now : ℚ) : Call steadyMarket :=
  { now := now
    symbol := "BTC/USDT".toList
    direction := .LONG
    rawRate := some (.value (-1 / 1000))
    rawPriceNow := some (.value 100)
    rate_read := fun _ => eq_of_read
    price_read := fun _ => eq_of_read }

/-- The price is kept there. -/
theorem checksSince_steady {s : CarryStore} {now since : ℚ}
    (h : comparedWith s (longCall now) ∈ [none, some 100]) :
    ChecksSince .default s (longCall now) since := by
  unfold ChecksSince
  rcases List.mem_pair.mp h with hnone | hsome
  · rw [hnone]
    change |(100 : ℚ) - 100| ≤ 2 / 100 * 100
    norm_num
  · rw [hsome]
    rfl

/-- What remains to be checked of a call there. -/
theorem soundCall_steady {s : CarryStore} {now : ℚ}
    (hperiod : ∀ e ∈ ((Stored.read now (s.history "BTC/USDT".toList)).getD []).getLast?,
      fundingPeriod now = fundingPeriod e.ts + 1)
    (hprice : comparedWith s (longCall now) ∈ [none, some 100]) :
    SoundCall .default s (longCall now) := by
  refine ⟨fun _ _ _ e he _ => hperiod e he, fun _ _ _ => Or.inl ⟨?_, rfl⟩, fun rate _ hlong => ?_⟩
  · change (-1 / 1000 : ℚ) < 0
    norm_num
  · cases hlast : (streak .default (s.historyWith (longCall now) rate)).getLast? with
    | none =>
        rw [List.getLast?_eq_none_iff.mp hlast] at hlong
        exact absurd hlong (by decide)
    | some e => exact ⟨e, rfl, checksSince_steady hprice⟩

/-- One call in each of four periods earns a bonus at the third and at the fourth. -/
theorem carryEarned_four_periods :
    CarryEarned .default [longCall 0, longCall 28800, longCall 57600, longCall 86400] ∧
      (evaluateCarrySignal .default
        (storeAfter .default [longCall 0, longCall 28800, longCall 57600])
        (longCall 86400)).1 = some ⟨25, -1 / 1000, 4⟩ := by
  refine ⟨carryEarned ⟨?_, ?_, ?_, ?_, trivial⟩, by decide +kernel⟩
  · exact soundCall_steady (by decide +kernel) (by decide +kernel)
  · exact soundCall_steady (by decide +kernel) (by decide +kernel)
  · exact soundCall_steady (by decide +kernel) (by decide +kernel)
  · exact soundCall_steady (by decide +kernel) (by decide +kernel)

/-- Three calls within two minutes get the bonus of three periods. -/
theorem bonus_within_one_period :
    ¬ CarryEarned .default [longCall 0, longCall 60, longCall 120] := by
  intro hearned
  have h := hearned [longCall 0, longCall 60] (longCall 120) [] rfl (by decide +kernel)
  rcases h.streak with ⟨first, hfirst, -, hperiods, -⟩
  have hsame : fundingPeriod (longCall 120).now = fundingPeriod first.now := by
    simp only [List.cons_append, List.nil_append, List.mem_cons, List.not_mem_nil, or_false]
      at hfirst
    rcases hfirst with rfl | rfl | rfl <;> decide +kernel
  rw [hsame] at hperiods
  change (3 : ℤ) ≤ _ at hperiods
  omega

end Streak

end CarrySignal
end Karsa
