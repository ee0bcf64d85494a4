import Karsa.Data.Normalizer
import Karsa.Foundations.Runs
import Mathlib.Tactic.Linarith

/-!
# Data - Bad ticks

`BadTickFilter` keeps the last accepted price of every exchange and symbol and rejects a tick
that is more than five percent away from it within a second.  The distance is relative to the
last price, which it divides by.

Main results:

- Theorem `isBadTick_raises_iff`: a tick raises exactly behind an accepted price of zero.
- Theorem `neverWedges_iff`: the ticks that the filter survives.
-/

namespace Karsa
namespace BadTicks

open Normalizer (ExchangeData RawTrade normalizeTrade divide)

/-! ## The filter -/

/-- `max_price_change_pct`. -/
def maxPriceChangePct : ℚ := 1 / 20

/-- `last_prices` and `last_timestamps`. -/
structure BadTickFilter where
  lastPrices : Text → Option ℚ
  lastTimestamps : Text → Option ℚ

/-- A new filter. -/
def start : BadTickFilter :=
  ⟨fun _ => none, fun _ => none⟩

/-- What a call of `is_bad_tick` comes to. -/
inductive Verdict where
  | accepted
  | rejected
  | raised
deriving Repr, DecidableEq

/-- `f"{data.exchange}:{data.symbol}"`. -/
def tickKey (data : ExchangeData) : Text :=
  data.exchange ++ ':' :: data.symbol

/-- Record a tick. -/
def BadTickFilter.record (f : BadTickFilter) (data : ExchangeData) (price : ℚ) :
    BadTickFilter where
  lastPrices := Function.update f.lastPrices (tickKey data) (some price)
  lastTimestamps := Function.update f.lastTimestamps (tickKey data) (some data.timestamp)

/-- `is_bad_tick`, with the filter it leaves. -/
def BadTickFilter.isBadTick (f : BadTickFilter) (data : ExchangeData) :
    Verdict × BadTickFilter :=
  match data.lastPrice with
  | none => (.accepted, f)
  | some price =>
      match f.lastPrices (tickKey data), f.lastTimestamps (tickKey data) with
      | some lastPrice, some lastTs =>
          match divide |price - lastPrice| lastPrice with
          | none => (.raised, f)
          | some priceChange =>
              if maxPriceChangePct < priceChange ∧ data.timestamp - lastTs < 1 then
                (.rejected, f)
              else (.accepted, f.record data price)
      | _, _ => (.accepted, f.record data price)

/-- The filter behind a tick. -/
def BadTickFilter.next (f : BadTickFilter) (data : ExchangeData) : BadTickFilter :=
  (f.isBadTick data).2

/-- What becomes of a tick. -/
def BadTickFilter.verdict (f : BadTickFilter) (data : ExchangeData) : Verdict :=
  (f.isBadTick data).1

/-- A raw trade with what it is converted with. -/
structure RawTick where
  raw : RawTrade
  exchangeId : Text
  symbol : Text
  now : ℚ
deriving Repr, DecidableEq

/-- The trades that can be converted. -/
def converted (raws : List RawTick) : List ExchangeData :=
  raws.filterMap fun r => normalizeTrade r.raw r.exchangeId r.symbol r.now

/-! ## One tick -/

section Tick

variable {f : BadTickFilter} {data : ExchangeData} {price : ℚ}

/-- Prices and times are recorded together. -/
def Paired (f : BadTickFilter) : Prop :=
  ∀ key, (f.lastPrices key).isSome = (f.lastTimestamps key).isSome

/-- A converted trade has a price. -/
theorem exists_price_of_converted {raws : List RawTick} (h : data ∈ converted raws) :
    ∃ price, data.lastPrice = some price := by
  rcases List.mem_filterMap.mp h with ⟨r, -, hdata⟩
  rcases Option.map_eq_some_iff.mp hdata with ⟨price, -, rfl⟩
  exact ⟨price, rfl⟩

/-- A recorded tick is the last of its key. -/
@[simp] theorem lastPrices_record_self :
    (f.record data price).lastPrices (tickKey data) = some price :=
  Function.update_self ..

@[simp] theorem lastTimestamps_record_self :
    (f.record data price).lastTimestamps (tickKey data) = some data.timestamp :=
  Function.update_self ..

/-- Recording keeps prices and times together. -/
theorem Paired.record (hf : Paired f) : Paired (f.record data price) := by
  intro key
  by_cases hkey : key = tickKey data
  · rw [hkey, lastPrices_record_self, lastTimestamps_record_self]
    rfl
  · simpa [BadTickFilter.record, Function.update_of_ne hkey] using hf key

/-- A tick with a price is recorded, or the filter stays as it is. -/
theorem next_cases (hprice : data.lastPrice = some price) :
    (f.verdict data = .accepted ∧ f.next data = f.record data price) ∨
      (f.verdict data ≠ .accepted ∧ f.next data = f) := by
  unfold BadTickFilter.verdict BadTickFilter.next BadTickFilter.isBadTick
  rw [hprice]
  dsimp only
  split
  · split
    · exact Or.inr ⟨by simp, rfl⟩
    · split_ifs
      · exact Or.inr ⟨by simp, rfl⟩
      · exact Or.inl ⟨rfl, rfl⟩
  · exact Or.inl ⟨rfl, rfl⟩

/-- Ticks keep prices and times together. -/
theorem Paired.next (hf : Paired f) : Paired (f.next data) := by
  cases hdata : data.lastPrice with
  | none =>
      have hsame : f.next data = f := by
        unfold BadTickFilter.next BadTickFilter.isBadTick
        rw [hdata]
      rwa [hsame]
  | some price =>
      rcases next_cases (f := f) hdata with ⟨-, hnext⟩ | ⟨-, hnext⟩
      · rw [hnext]
        exact hf.record
      · rwa [hnext]

/-- A tick raises exactly behind an accepted price of zero. -/
theorem isBadTick_raises_iff (hf : Paired f) (hprice : data.lastPrice = some price) :
    f.verdict data = .raised ↔ f.lastPrices (tickKey data) = some 0 := by
  have hpair := hf (tickKey data)
  unfold BadTickFilter.verdict BadTickFilter.isBadTick
  rw [hprice]
  dsimp only
  cases hlast : f.lastPrices (tickKey data) with
  | none => simp
  | some lastPrice =>
      rw [hlast, Option.isSome_some] at hpair
      rcases Option.isSome_iff_exists.mp hpair.symm with ⟨lastTs, hts⟩
      rw [hts]
      dsimp only
      by_cases hzero : lastPrice = 0
      · rw [Normalizer.divide_eq_none_iff.mpr hzero, hzero]
        exact iff_of_true rfl rfl
      · rw [Normalizer.divide_of_ne hzero]
        refine iff_of_false ?_ fun h => hzero (Option.some.inj h)
        dsimp only
        split_ifs <;> simp

/-- A tick is accepted if none was before it, or if it is within five percent of the last one
or a second behind it, and that one's price is not zero. -/
theorem accepted_of (hprice : data.lastPrice = some price)
    (hzero : f.lastPrices (tickKey data) ≠ some 0)
    (hgood : ∀ lastPrice lastTs, f.lastPrices (tickKey data) = some lastPrice →
      f.lastTimestamps (tickKey data) = some lastTs →
        |price - lastPrice| ≤ maxPriceChangePct * |lastPrice| ∨ lastTs + 1 ≤ data.timestamp) :
    f.verdict data = .accepted := by
  unfold BadTickFilter.verdict BadTickFilter.isBadTick
  rw [hprice]
  dsimp only
  split
  · rename_i lastPrice lastTs hlast hts
    have hne : lastPrice ≠ 0 := fun h => hzero (h ▸ hlast)
    rw [Normalizer.divide_of_ne hne]
    dsimp only
    rw [if_neg]
    rintro ⟨hfar, hsoon⟩
    rcases hgood lastPrice lastTs hlast hts with hnear | hlate
    · rcases lt_or_gt_of_ne hne with hneg | hpos
      · have hquot : |price - lastPrice| / lastPrice ≤ 0 :=
          div_nonpos_of_nonneg_of_nonpos (abs_nonneg _) hneg.le
        have hpct : (0 : ℚ) < maxPriceChangePct := by
          unfold maxPriceChangePct
          norm_num
        exact (hfar.trans_le hquot).not_gt hpct
      · rw [abs_of_pos hpos, ← div_le_iff₀ hpos] at hnear
        exact hnear.not_gt hfar
    · linarith
  · rfl

end Tick

/-! ## Runs of the filter -/

/-- The filter behind some ticks. -/
def filterAfter (ticks : List ExchangeData) : BadTickFilter :=
  run BadTickFilter.next start ticks

/-- The second tick is within five percent of the first. -/
def Near (first second : ExchangeData) : Prop :=
  ∃ p q, first.lastPrice = some p ∧ second.lastPrice = some q ∧
    |q - p| ≤ maxPriceChangePct * |p|

/-- A tick is at least a second behind the last accepted one of its key. -/
def Settled (f : BadTickFilter) (data : ExchangeData) : Prop :=
  ∀ lastTs, f.lastTimestamps (tickKey data) = some lastTs → lastTs + 1 ≤ data.timestamp

/-- No tick raises, and behind any ticks two consecutive ticks of a key are accepted that are
within five percent of each other and a second behind the last accepted one. -/
structure NeverWedges (ticks : List ExchangeData) : Prop where
  never_raises : ∀ before tick after, ticks = before ++ tick :: after →
    (filterAfter before).verdict tick ≠ .raised
  recovers : ∀ before first between second after,
    ticks = before ++ first :: (between ++ second :: after) →
      tickKey second = tickKey first → (∀ t ∈ between, tickKey t ≠ tickKey first) →
        Near first second → Settled (filterAfter before) first →
          Settled (filterAfter before) second →
            (filterAfter before).verdict first = .accepted ∧
              (filterAfter (before ++ first :: between)).verdict second = .accepted

/-- No tick comes behind an accepted price of zero of its key. -/
def NotBehindZero (f : BadTickFilter) (tick : ExchangeData) : Prop :=
  f.lastPrices (tickKey tick) ≠ some 0

section Runs

/-- Prices and times are recorded together in every run. -/
theorem paired_filterAfter (ticks : List ExchangeData) : Paired (filterAfter ticks) := by
  have hstart : Paired start := fun _ => rfl
  exact invariant_run (fun _ _ h _ => Paired.next h) hstart (admits_true _ _ _)

/-- Ticks of other keys leave what is recorded of a key. -/
theorem next_of_other {f : BadTickFilter} {data : ExchangeData} {key : Text}
    (hkey : tickKey data ≠ key) :
    (f.next data).lastPrices key = f.lastPrices key ∧
      (f.next data).lastTimestamps key = f.lastTimestamps key := by
  cases hdata : data.lastPrice with
  | none =>
      have hsame : f.next data = f := by
        unfold BadTickFilter.next BadTickFilter.isBadTick
        rw [hdata]
      rw [hsame]
      exact ⟨rfl, rfl⟩
  | some price =>
      rcases next_cases (f := f) hdata with ⟨-, hnext⟩ | ⟨-, hnext⟩
      · rw [hnext]
        exact ⟨Function.update_of_ne hkey.symm _ _, Function.update_of_ne hkey.symm _ _⟩
      · rw [hnext]
        exact ⟨rfl, rfl⟩

/-- Any number of ticks of other keys leave what is recorded of a key. -/
theorem run_of_others {f : BadTickFilter} {ticks : List ExchangeData} {key : Text}
    (hkeys : ∀ t ∈ ticks, tickKey t ≠ key) :
    (run BadTickFilter.next f ticks).lastPrices key = f.lastPrices key ∧
      (run BadTickFilter.next f ticks).lastTimestamps key = f.lastTimestamps key := by
  induction ticks generalizing f with
  | nil => exact ⟨rfl, rfl⟩
  | cons tick rest ih =>
      have hrest := ih (f := f.next tick) fun t ht => hkeys t (List.mem_cons_of_mem tick ht)
      have hfirst := next_of_other (f := f) (hkeys tick List.mem_cons_self)
      rw [run_cons]
      exact ⟨hrest.1.trans hfirst.1, hrest.2.trans hfirst.2⟩

/-- A run in two parts. -/
theorem filterAfter_append_cons (before between : List ExchangeData) (tick : ExchangeData) :
    filterAfter (before ++ tick :: between) =
      run BadTickFilter.next ((filterAfter before).next tick) between := by
  rw [filterAfter, run, List.foldl_append]
  rfl

/-- The filter survives the converted trades exactly if none of them comes behind an accepted
price of zero of its key. -/
theorem neverWedges_iff (raws : List RawTick) :
    NeverWedges (converted raws) ↔
      Admits BadTickFilter.next NotBehindZero start (converted raws) := by
  have hprice : ∀ before tick after, converted raws = before ++ tick :: after →
      ∃ price, tick.lastPrice = some price := by
    intro before tick after hsplit
    have hmem : tick ∈ converted raws := by
      rw [hsplit]
      simp
    exact exists_price_of_converted hmem
  rw [admits_iff_forall]
  constructor
  · intro h before tick after hsplit
    rcases hprice before tick after hsplit with ⟨price, htick⟩
    have hraise := h.never_raises before tick after hsplit
    rwa [Ne, isBadTick_raises_iff (paired_filterAfter before) htick] at hraise
  · intro h
    refine ⟨fun before tick after hsplit => ?_, ?_⟩
    · rcases hprice before tick after hsplit with ⟨price, htick⟩
      rw [Ne, isBadTick_raises_iff (paired_filterAfter before) htick]
      exact h before tick after hsplit
    · rintro before first between second after hsplit hkey hothers ⟨p, q, hp, hq, hnear⟩
        hfirst -
      have haccepted : (filterAfter before).verdict first = .accepted :=
        accepted_of hp (h before first _ hsplit) fun _ lastTs _ hts => Or.inr (hfirst lastTs hts)
      refine ⟨haccepted, ?_⟩
      have hsecond := h (before ++ first :: between) second after (by rw [hsplit]; simp)
      refine accepted_of hq hsecond fun lastPrice _ hlast _ => Or.inl ?_
      rcases next_cases (f := filterAfter before) hp with ⟨-, hnext⟩ | ⟨hnot, -⟩
      · have hkept := (run_of_others (f := (filterAfter before).next first) hothers).1
        rw [filterAfter_append_cons, hkey, hkept, hnext, lastPrices_record_self] at hlast
        rw [← Option.some.inj hlast]
        exact hnear
      · exact absurd haccepted hnot

end Runs

/-- A trade without a price makes the next one raise. -/
theorem wedged_by_missing_price :
    ¬ NeverWedges (converted
      [⟨⟨none⟩, "bybit".toList, "BTC/USDT".toList, 0⟩,
        ⟨⟨some (.value 100)⟩, "bybit".toList, "BTC/USDT".toList, 10⟩]) := by
  intro h
  exact h.never_raises
    [⟨"bybit".toList, "BTC/USDT".toList, [], [], some 0, 0, false⟩]
    ⟨"bybit".toList, "BTC/USDT".toList, [], [], some 100, 10, false⟩ [] (by decide +kernel)
    (by decide +kernel)

end BadTicks
end Karsa
