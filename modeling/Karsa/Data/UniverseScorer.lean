import Karsa.Consumer.CandleBuffer
import Karsa.Foundations.Decimal
import Karsa.Foundations.Dicts
import Karsa.Foundations.Quotas
import Mathlib.Data.Rat.Floor

/-!
# Market data - The universe scorer

`UniverseScorer` scores the configured symbols, ranks the candidates, and picks them from the
top under a limit and a quota for each sector.  If nothing is picked, `refresh` activates the
beginning of a static list.

What Redis and the exchange answer for a symbol is part of the input.  Decimals are rationals;
the Bollinger bands, which are computed with floats, and the table of sectors are parameters.

Main results:

- Theorem `scoreSymbol_scored`: a candidate is no excluded symbol and has its sector.
- Theorem `selectLoop_eq_pick`: the loop of `select` is a picking under quotas.
- Theorem `activates_iff`: when the activated list keeps its invariants.
- Theorem `activated_sound`: it keeps them where a candidate can be selected.
-/

namespace Karsa
namespace UniverseScorer

open MarketFeed (Candle)

/-! ## Scoring a symbol -/

/-- `toxic_tickers`. -/
def toxicTickers : List Text :=
  ["HEMI/USDT".toList, "BANK/USDT".toList, "ZEST/USDT".toList, "SOL/USDT".toList,
    "ACE/USDT".toList]

/-- The endings of leveraged tokens. -/
def leveragedEndings : List Text :=
  ["UP/USDT".toList, "DOWN/USDT".toList, "BULL/USDT".toList, "BEAR/USDT".toList]

/-- A blacklisted symbol, a stablecoin or a leveraged token. -/
def Excluded (stablecoins : List Text) (symbol : Text) : Prop :=
  symbol ∈ toxicTickers ∨ symbol ∈ stablecoins ∨ ∃ ending ∈ leveragedEndings, ending <:+ symbol

instance (stablecoins : List Text) : DecidablePred (Excluded stablecoins) := fun symbol =>
  inferInstanceAs (Decidable (symbol ∈ toxicTickers ∨ symbol ∈ stablecoins ∨
    ∃ ending ∈ leveragedEndings, ending <:+ symbol))

/-- What `get_global_state` answers: an exception, nothing, or a state with its
`total_volume`. -/
inductive StateAnswer where
  | raised
  | missing
  | found (totalVolume : Option (Numeral ℚ))
deriving Repr, DecidableEq

/-- What Redis and the exchange answer for a symbol; no candles are an exception. -/
structure SymbolData where
  state : StateAnswer
  candles : Option (List Candle)
  fundingRate : ℚ
deriving Repr, DecidableEq

/-- What `score_symbol` returns for a symbol that passes. -/
structure Candidate where
  symbol : Text
  volumeScore : ℚ
  momentumScore : ℚ
  overextensionPenalty : ℚ
  squeezeScore : ℚ
  fundingScore : ℚ
  volumeAnomalyScore : ℚ
  strongPerformer : Bool
  totalScore : ℚ
  sector : Text
deriving Repr, DecidableEq

/-- How scoring a symbol ends. -/
inductive Scoring where
  | raised
  | rejected
  | scored (c : Candidate)
deriving Repr, DecidableEq

/-- `closes[-n]`. -/
def fromEnd (closes : List ℚ) (n : ℕ) : ℚ :=
  closes.reverse.getD (n - 1) 0

/-- Down more than sixty percent from the high of the week. -/
def deathSpiral (closes : List ℚ) : Bool :=
  let high := (closes.max?).getD 0
  decide (0 < high ∧ fromEnd closes 1 < high * (40 / 100))

/-- No movement in the last day. -/
def zombie (closes : List ℚ) : Bool :=
  let day := closes.drop (closes.length - 24)
  decide (day.max? = day.min?)

/-- `momentum_score`; `none` is a division by zero. -/
def momentumScore (closes : List ℚ) : Option ℚ :=
  if fromEnd closes 2 = 0 then none
  else
    let change := (fromEnd closes 1 - fromEnd closes 2) / fromEnd closes 2
    let score := min (|change| * 1000) 40
    some (if change < 0 then score * (7 / 10) else score)

/-- `overextension_penalty`, before strong performers are excused. -/
def overextension (closes : List ℚ) : ℚ :=
  let before := fromEnd closes 21
  if 0 < before then
    let move := |(fromEnd closes 1 - before) / before|
    if 30 / 100 < move then -min ((move - 30 / 100) * 200) 40 else 0
  else 0

/-- `squeeze_score`. -/
def squeezeScore (bands : List ℚ → Option (ℚ × ℚ × ℚ)) (closes : List ℚ) : ℚ :=
  match bands closes with
  | none => 0
  | some (upper, middle, lower) =>
      if 0 < middle then max (30 - (upper - lower) / middle * 400) 0 else 0

/-- `volume_anomaly_score`. -/
def volumeAnomaly (candles : List Candle) (closes : List ℚ) : ℚ :=
  let volumes := candles.map Candle.volume
  let average := (volumes.drop (volumes.length - 4)).sum / 4
  if 0 < average then
    let ratio := fromEnd volumes 1 / average
    let change :=
      if 0 < fromEnd closes 4 then
        |(fromEnd closes 1 - fromEnd closes 4) / fromEnd closes 4|
      else 0
    if 3 < ratio ∧ change < 5 / 100 then min ((ratio - 3) * 5) 25 else 0
  else 0

/-- Up more than fifteen percent in two days. -/
def strongPerformer (closes : List ℚ) : Bool :=
  let before := fromEnd closes 48
  decide (0 < before ∧ 15 / 100 < (fromEnd closes 1 - before) / before)

/-- `round(x, 2)`. -/
def round2 (x : ℚ) : ℚ :=
  quantize (1 / 100) x

section Scorer

variable (stablecoins : List Text) (getSector : Text → Text)
  (bands : List ℚ → Option (ℚ × ℚ × ℚ))

/-- The scores of a symbol that is traded enough, from its candles. -/
def scoreCandles (symbol : Text) (totalVolume fundingRate : ℚ) (candles : List Candle) :
    Scoring :=
  let closes := candles.map Candle.close
  if deathSpiral closes then .rejected
  else if zombie closes then .rejected
  else
    match momentumScore closes with
    | none => .raised
    | some momentum =>
        let volume := min (totalVolume / 1000000000 * 30) 30
        let squeeze := squeezeScore bands closes
        let funding := min (|fundingRate| * 50000) 50
        let anomaly := volumeAnomaly candles closes
        let strong := strongPerformer closes
        let penalty := if strong then 0 else overextension closes
        .scored
          { symbol := symbol
            volumeScore := round2 volume
            momentumScore := round2 momentum
            overextensionPenalty := round2 penalty
            squeezeScore := round2 squeeze
            fundingScore := round2 funding
            volumeAnomalyScore := round2 anomaly
            strongPerformer := strong
            totalScore := round2 (volume + momentum + penalty + squeeze + funding + anomaly)
            sector := getSector symbol }

/-- `score_symbol`. -/
def scoreSymbol (symbol : Text) (data : SymbolData) : Scoring :=
  if Excluded stablecoins symbol then .rejected
  else
    match data.state with
    | .raised => .raised
    | .missing => .rejected
    | .found volume =>
        match (volume.getD (.value 0)).decimal with
        | none => .raised
        | some totalVolume =>
            if totalVolume < 5000000 then .rejected
            else
              match data.candles with
              | none => .rejected
              | some candles =>
                  if candles.length < 168 then .rejected
                  else scoreCandles getSector bands symbol totalVolume data.fundingRate candles

/-- `score_all`; `none` is an exception. -/
def scoreAll : List (Text × SymbolData) → Option (List Candidate)
  | [] => some []
  | (symbol, data) :: rest =>
      match scoreSymbol stablecoins getSector bands symbol data with
      | .raised => none
      | .rejected => scoreAll rest
      | .scored c => (scoreAll rest).map (c :: ·)

/-! ## Selection -/

/-- `top_n`, `min_score` and `max_per_sector`. -/
structure Thresholds where
  topN : ℤ
  minScore : ℚ
  maxPerSector : ℤ

/-- The loop of `select`. -/
def selectLoop (t : Thresholds) (sectorCounts : Dict Text ℕ) (selected : List Candidate) :
    List Candidate → List Candidate
  | [] => selected
  | candidate :: rest =>
      if candidate.totalScore < t.minScore then selectLoop t sectorCounts selected rest
      else
        let count := (sectorCounts.get candidate.sector).getD 0
        if t.maxPerSector ≤ count then selectLoop t sectorCounts selected rest
        else
          let selected' := selected ++ [candidate]
          if t.topN ≤ selected'.length then selected'
          else selectLoop t (sectorCounts.set candidate.sector (count + 1)) selected' rest

/-- `select` on the scored candidates. -/
def select (t : Thresholds) (scored : List Candidate) : List Candidate :=
  selectLoop t [] [] (ranked Candidate.totalScore scored)

/-- `symbols[:n]`. -/
def sliceTo (symbols : List Text) (n : ℤ) : List Text :=
  if 0 ≤ n then symbols.take n.toNat else symbols.take (symbols.length - (-n).toNat)

/-- The symbols that are activated, with the scores that are written for them. -/
structure Universe where
  symbols : List Text
  scores : Dict Text ℚ
deriving Repr, DecidableEq

/-- `refresh` on the scored candidates. -/
def activate (t : Thresholds) (scored : List Candidate) (configSymbols : List Text) : Universe :=
  let selected := select t scored
  if selected.map Candidate.symbol = [] then
    ⟨sliceTo configSymbols t.topN,
      Dict.index ((sliceTo configSymbols t.topN).map fun s => (s, 0))⟩
  else
    ⟨selected.map Candidate.symbol,
      Dict.index (selected.map fun c => (c.symbol, c.totalScore))⟩

/-- `refresh`; `none` is an exception, and then nothing is activated. -/
def refresh (t : Thresholds) (offers : List (Text × SymbolData)) (configSymbols : List Text) :
    Option Universe :=
  (scoreAll stablecoins getSector bands offers).map fun scored => activate t scored configSymbols

end Scorer

section Results

variable {stablecoins : List Text} {getSector : Text → Text}
  {bands : List ℚ → Option (ℚ × ℚ × ℚ)}

/-- A candidate is no excluded symbol and has its sector. -/
theorem scoreSymbol_scored {symbol : Text} {data : SymbolData} {c : Candidate}
    (h : scoreSymbol stablecoins getSector bands symbol data = .scored c) :
    ¬ Excluded stablecoins c.symbol ∧ c.sector = getSector c.symbol := by
  have hcandles : ∀ totalVolume fundingRate candles,
      scoreCandles getSector bands symbol totalVolume fundingRate candles = .scored c →
      c.symbol = symbol ∧ c.sector = getSector symbol := by
    intro totalVolume fundingRate candles hc
    unfold scoreCandles at hc
    dsimp only at hc
    split at hc
    · cases hc
    · split at hc
      · cases hc
      · split at hc
        · cases hc
        · rw [← Scoring.scored.inj hc]
          exact ⟨rfl, rfl⟩
  unfold scoreSymbol at h
  split_ifs at h with hexcluded
  split at h
  · cases h
  · cases h
  · split at h
    · cases h
    · split_ifs at h
      split at h
      · cases h
      · split_ifs at h
        rcases hcandles _ _ _ h with ⟨hsymbol, hsector⟩
        rw [hsymbol]
        exact ⟨hexcluded, hsector⟩

/-- So are all candidates. -/
theorem scoreAll_some {offers : List (Text × SymbolData)} {scored : List Candidate}
    (h : scoreAll stablecoins getSector bands offers = some scored) :
    ∀ c ∈ scored, ¬ Excluded stablecoins c.symbol ∧ c.sector = getSector c.symbol := by
  induction offers generalizing scored with
  | nil =>
      rw [← Option.some.inj h]
      simp
  | cons offer rest ih =>
      rw [scoreAll] at h
      split at h
      · cases h
      · exact ih h
      · rename_i c hc
        rcases Option.map_eq_some_iff.mp h with ⟨others, hothers, rfl⟩
        rw [List.forall_mem_cons]
        exact ⟨scoreSymbol_scored hc, ih hothers⟩

/-! ## The selection is a picking -/

/-- A candidate reaches the least score. -/
def Thresholds.qualifies (t : Thresholds) (c : Candidate) : Bool :=
  decide (t.minScore ≤ c.totalScore)

/-- The loop of `select` is a picking under quotas, its counters are the sizes of the sectors. -/
theorem selectLoop_eq_pick (t : Thresholds) {counts : Dict Text ℕ} {selected : List Candidate}
    (hcounts : ∀ g, (counts.get g).getD 0 = Quotas.groupSize Candidate.sector g selected)
    (candidates : List Candidate) :
    selectLoop t counts selected candidates =
      Quotas.pick Candidate.sector t.qualifies t.maxPerSector t.topN selected candidates := by
  induction candidates generalizing counts selected with
  | nil => rfl
  | cons c rest ih =>
      have hlow : c.totalScore < t.minScore ↔ t.qualifies c = false := by
        rw [Thresholds.qualifies, decide_eq_false_iff_not, not_le]
      rw [selectLoop, Quotas.pick]
      dsimp only
      rw [hcounts c.sector, List.length_append, List.length_singleton, Nat.cast_add, Nat.cast_one]
      by_cases hqualifies : t.qualifies c = false
      · rw [if_pos (hlow.mpr hqualifies), if_pos hqualifies]
        exact ih hcounts
      · rw [if_neg fun h => hqualifies (hlow.mp h), if_neg hqualifies]
        split_ifs with hfull hlimit
        · exact ih hcounts
        · rfl
        · refine ih fun g => ?_
          rw [Quotas.groupSize_append_singleton]
          by_cases hg : c.sector = g
          · rw [if_pos hg, ← hg, Dict.get_set_self]
            rfl
          · rw [if_neg hg, Dict.get_set_of_ne (fun h => hg h.symm), hcounts g, Nat.add_zero]

/-- `select` picks from the ranking. -/
theorem select_eq_pick (t : Thresholds) (scored : List Candidate) :
    select t scored = Quotas.pick Candidate.sector t.qualifies t.maxPerSector t.topN []
      (ranked Candidate.totalScore scored) :=
  selectLoop_eq_pick t (fun _ => rfl) _

/-- Nothing is selected if sectors have no quota or no candidate reaches the least score. -/
theorem select_eq_nil_iff (t : Thresholds) (scored : List Candidate) :
    select t scored = [] ↔ t.maxPerSector ≤ 0 ∨ ∀ c ∈ scored, c.totalScore < t.minScore := by
  rw [select_eq_pick, Quotas.pick_eq_nil_iff]
  refine or_congr_right (forall_congr' fun c => ?_)
  rw [(ranked_perm Candidate.totalScore scored).mem_iff, Thresholds.qualifies,
    decide_eq_false_iff_not, not_le]

/-! ## The invariants -/

/-- Candidates in the order of their scores, each at the least score or above, with every
candidate that is better than one of them and of its sector, and with every one that a place and
its sector are free for. -/
structure Greedy (t : Thresholds) (scored included : List Candidate) : Prop where
  sub : included.Subperm scored
  sorted : included.Pairwise fun a b => b.totalScore ≤ a.totalScore
  enough : ∀ c ∈ included, t.minScore ≤ c.totalScore
  best : ∀ c ∈ included, ∀ other, other.sector = c.sector → c.totalScore < other.totalScore →
    included.count other = scored.count other
  full : (included.length : ℤ) < t.topN → ∀ c, t.minScore ≤ c.totalScore →
    (Quotas.groupSize Candidate.sector c.sector included : ℤ) < t.maxPerSector →
      included.count c = scored.count c

/-- At most `top_n` symbols, at most `max_per_sector` of a sector, none excluded, and the best
of the candidates if there are any. -/
structure Sound (stablecoins : List Text) (getSector : Text → Text) (t : Thresholds)
    (scored : List Candidate) (symbols : List Text) : Prop where
  few : (symbols.length : ℤ) ≤ t.topN
  spread : ∀ s ∈ symbols, (Quotas.groupSize getSector (getSector s) symbols : ℤ) ≤ t.maxPerSector
  clean : ∀ s ∈ symbols, ¬ Excluded stablecoins s
  greedy : scored ≠ [] → ∃ included, included.map Candidate.symbol = symbols ∧
    Greedy t scored included

/-- What a scan needs for a sound list: a place to fill if a candidate can be selected, and
otherwise a static list that is sound itself, empty if there are candidates. -/
def Selectable (stablecoins : List Text) (getSector : Text → Text) (t : Thresholds)
    (scored : List Candidate) (configSymbols : List Text) : Prop :=
  if 0 < t.maxPerSector ∧ ∃ c ∈ scored, t.minScore ≤ c.totalScore then 0 < t.topN
  else
    0 ≤ t.topN ∧ (scored ≠ [] → sliceTo configSymbols t.topN = []) ∧
      (∀ s ∈ sliceTo configSymbols t.topN, ¬ Excluded stablecoins s) ∧
      ∀ s ∈ sliceTo configSymbols t.topN,
        (Quotas.groupSize getSector (getSector s) (sliceTo configSymbols t.topN) : ℤ) ≤
          t.maxPerSector

/-- The selected candidates are the best ones. -/
theorem greedy_select (t : Thresholds) (scored : List Candidate) :
    Greedy t scored (select t scored) := by
  have hsorted := pairwise_ranked Candidate.totalScore scored
  have hperm := ranked_perm Candidate.totalScore scored
  have hkey : ∀ c d : Candidate, t.qualifies c = true → c.totalScore ≤ d.totalScore →
      t.qualifies d = true := by
    intro c d hc hle
    rw [Thresholds.qualifies, decide_eq_true_eq] at hc ⊢
    exact hc.trans hle
  rcases Quotas.pick_spec Candidate.sector t.qualifies t.maxPerSector t.topN []
    (ranked Candidate.totalScore scored) with ⟨added, hpick, hsub, hall⟩
  rcases @Quotas.pick_best _ _ _ _ _ Candidate.sector t.qualifies t.maxPerSector t.topN _
    Candidate.totalScore hkey [] _ hsorted with ⟨added', hpick', hbest⟩
  have hselect : select t scored = added := by
    rw [select_eq_pick, hpick, List.nil_append]
  have hadded : added' = added := by
    rw [hpick] at hpick'
    exact (List.append_cancel_left hpick').symm
  rw [hselect]
  refine ⟨hsub.subperm.trans hperm.subperm, hsorted.sublist hsub, fun c hc => ?_,
    fun c hc other hsector hlt => ?_, fun hplace c hc hopen => ?_⟩
  · simpa [Thresholds.qualifies] using hall c hc
  · rw [← hperm.count_eq other]
    rw [hadded] at hbest
    exact hbest c hc other hsector hlt
  · rw [← hselect, select_eq_pick] at hplace hopen ⊢
    have hqualifies : t.qualifies c = true := decide_eq_true hc
    rw [Quotas.pick_full hqualifies [] _ hplace hopen, List.count_nil, Nat.zero_add,
      hperm.count_eq c]

/-- Sectors of symbols are sectors of their candidates. -/
theorem groupSize_symbols {l : List Candidate} (hsector : ∀ c ∈ l, c.sector = getSector c.symbol)
    (g : Text) :
    Quotas.groupSize getSector g (l.map Candidate.symbol) =
      Quotas.groupSize Candidate.sector g l := by
  unfold Quotas.groupSize
  rw [List.filter_map, List.length_map]
  congr 1
  refine List.filter_congr fun c hc => ?_
  simp [hsector c hc]

/-- A selection of candidates is sound if there is a place to fill. -/
theorem sound_select {t : Thresholds} {scored : List Candidate}
    (hscored : ∀ c ∈ scored, ¬ Excluded stablecoins c.symbol ∧ c.sector = getSector c.symbol)
    (hplace : 0 < t.topN) :
    Sound stablecoins getSector t scored ((select t scored).map Candidate.symbol) := by
  have hgreedy := greedy_select t scored
  have hmem : ∀ c ∈ select t scored, c ∈ scored := fun c hc => hgreedy.sub.subset hc
  refine ⟨?_, ?_, ?_, fun _ => ⟨select t scored, rfl, hgreedy⟩⟩
  · rw [List.length_map, select_eq_pick]
    exact Quotas.length_pick_le (by simpa using hplace) _
  · intro s hs
    rcases List.mem_map.mp hs with ⟨c, hc, rfl⟩
    rw [groupSize_symbols (fun d hd => (hscored d (hmem d hd)).2),
      ← (hscored c (hmem c hc)).2]
    rw [select_eq_pick] at hc ⊢
    exact Quotas.group_pick_le (by simp) _ c hc
  · intro s hs
    rcases List.mem_map.mp hs with ⟨c, hc, rfl⟩
    exact (hscored c (hmem c hc)).1

/-- The selection is activated unless it is empty. -/
theorem symbols_activate (t : Thresholds) (scored : List Candidate) (configSymbols : List Text) :
    (activate t scored configSymbols).symbols =
      if select t scored = [] then sliceTo configSymbols t.topN
      else (select t scored).map Candidate.symbol := by
  unfold activate
  by_cases h : select t scored = []
  · simp [h]
  · simp [h]

/-- The list that is activated for scored candidates is sound exactly under its condition. -/
theorem sound_activate_iff (t : Thresholds) {scored : List Candidate} (configSymbols : List Text)
    (hscored : ∀ c ∈ scored, ¬ Excluded stablecoins c.symbol ∧ c.sector = getSector c.symbol) :
    Sound stablecoins getSector t scored (activate t scored configSymbols).symbols ↔
      Selectable stablecoins getSector t scored configSymbols := by
  have hnil : select t scored = [] ↔
      ¬ (0 < t.maxPerSector ∧ ∃ c ∈ scored, t.minScore ≤ c.totalScore) := by
    rw [select_eq_nil_iff, not_and_or, not_lt]
    simp
  rw [symbols_activate, Selectable]
  by_cases hselect : select t scored = []
  · rw [if_pos hselect, if_neg (hnil.mp hselect)]
    constructor
    · intro h
      have htopN : 0 ≤ t.topN := le_trans (by positivity) h.few
      refine ⟨htopN, fun hne => ?_, h.clean, h.spread⟩
      rcases h.greedy hne with ⟨included, hincluded, hgreedy⟩
      cases hcases : included with
      | nil => rw [← hincluded, hcases, List.map_nil]
      | cons c rest =>
          -- A listed candidate reaches the least score, and its sector has a quota.
          have hc : c ∈ included := hcases ▸ List.mem_cons_self
          have hs : c.symbol ∈ sliceTo configSymbols t.topN :=
            hincluded ▸ List.mem_map_of_mem hc
          have hpos : 0 < Quotas.groupSize getSector (getSector c.symbol)
              (sliceTo configSymbols t.topN) :=
            List.length_pos_of_mem (List.mem_filter.mpr ⟨hs, by simp⟩)
          have hquota := h.spread c.symbol hs
          refine absurd ⟨by omega, c, hgreedy.sub.subset hc, hgreedy.enough c hc⟩ (hnil.mp hselect)
    · rintro ⟨htopN, hempty, hclean, hspread⟩
      refine ⟨?_, hspread, hclean, fun hne => ⟨[], (hempty hne).symm, ?_⟩⟩
      · unfold sliceTo
        rw [if_pos htopN, List.length_take]
        omega
      · refine ⟨List.nil_subperm, List.Pairwise.nil, by simp, by simp, fun _ c hc hopen => ?_⟩
        rw [Quotas.groupSize_nil] at hopen
        refine (List.count_eq_zero.mpr fun hmem => ?_).symm
        exact hnil.mp hselect ⟨by omega, c, hmem, hc⟩
  · have hcan : 0 < t.maxPerSector ∧ ∃ c ∈ scored, t.minScore ≤ c.totalScore :=
      not_not.mp fun h => hselect (hnil.mpr h)
    rw [if_neg hselect, if_pos hcan]
    constructor
    · intro h
      have hlength : 0 < ((select t scored).map Candidate.symbol).length :=
        List.length_pos_iff.mpr (by simpa using hselect)
      have hfew := h.few
      omega
    · exact fun hplace => sound_select hscored hplace

/-- The activated list is sound exactly in the scans that meet the condition. -/
theorem activates_iff (stablecoins : List Text) (getSector : Text → Text)
    (bands : List ℚ → Option (ℚ × ℚ × ℚ)) (t : Thresholds) (offers : List (Text × SymbolData))
    (configSymbols : List Text) :
    (∀ u, refresh stablecoins getSector bands t offers configSymbols = some u →
        ∀ scored, scoreAll stablecoins getSector bands offers = some scored →
          Sound stablecoins getSector t scored u.symbols) ↔
      ∀ scored, scoreAll stablecoins getSector bands offers = some scored →
        Selectable stablecoins getSector t scored configSymbols := by
  unfold refresh
  cases hscore : scoreAll stablecoins getSector bands offers with
  | none => simp
  | some scored =>
      have hiff := sound_activate_iff t configSymbols (scoreAll_some hscore)
      constructor
      · intro h other hother
        rw [← Option.some.inj hother]
        exact hiff.mp (h _ rfl scored rfl)
      · intro h u hu other hother
        rw [← Option.some.inj hother, ← Option.some.inj hu]
        exact hiff.mpr (h scored rfl)

/-- With a place to fill, at most `top_n` symbols are activated: a sound list if a candidate can
be selected, and otherwise the beginning of the static list. -/
theorem activated_sound (stablecoins : List Text) (getSector : Text → Text)
    (bands : List ℚ → Option (ℚ × ℚ × ℚ)) (t : Thresholds) (hplace : 0 < t.topN)
    (offers : List (Text × SymbolData)) (configSymbols : List Text) {u : Universe}
    (hrefresh : refresh stablecoins getSector bands t offers configSymbols = some u) :
    ∃ scored, scoreAll stablecoins getSector bands offers = some scored ∧
      (u.symbols.length : ℤ) ≤ t.topN ∧
      if 0 < t.maxPerSector ∧ ∃ c ∈ scored, t.minScore ≤ c.totalScore then
        Sound stablecoins getSector t scored u.symbols
      else u.symbols = sliceTo configSymbols t.topN := by
  rcases Option.map_eq_some_iff.mp hrefresh with ⟨scored, hscore, rfl⟩
  refine ⟨scored, hscore, ?_⟩
  have hscored := scoreAll_some hscore
  by_cases hcan : 0 < t.maxPerSector ∧ ∃ c ∈ scored, t.minScore ≤ c.totalScore
  · have hsound := (sound_activate_iff t configSymbols hscored).mpr (by
      rw [Selectable, if_pos hcan]
      exact hplace)
    rw [if_pos hcan]
    exact ⟨hsound.few, hsound⟩
  · have hnil : select t scored = [] := by
      rw [select_eq_nil_iff]
      by_contra hnot
      push Not at hnot
      exact hcan hnot
    rw [if_neg hcan, symbols_activate, if_pos hnil]
    refine ⟨?_, rfl⟩
    rw [sliceTo, if_pos hplace.le, List.length_take]
    omega

/-- A symbol of the given volume, with a week of candles that ends with a rise. -/
def risingBy (rise totalVolume : ℚ) : SymbolData where
  state := .found (some (.value totalVolume))
  candles := some (List.replicate 167 ⟨0, 100, 100, 100, 100, 10⟩ ++
    [⟨0, 100, 100 + rise, 100, 100 + rise, 10⟩])
  fundingRate := 0

/-- Two sectors. -/
def twoSectors (symbol : Text) : Text :=
  if symbol = "BTC/USDT".toList ∨ symbol = "ETH/USDT".toList then "MAJORS".toList
  else "L1".toList

/-- Four candidates, of which one scores too low, and a leveraged token. -/
def fiveOffers : List (Text × SymbolData) :=
  [("ADA/USDT".toList, risingBy 4 600000000), ("ETH/USDT".toList, risingBy 4 800000000),
    ("BTC/USDT".toList, risingBy 4 1000000000), ("BTCUP/USDT".toList, risingBy 4 1000000000),
    ("DOT/USDT".toList, risingBy 1 100000000)]

/-- Its candidates. -/
def fourCandidates : List Candidate :=
  (scoreAll [] twoSectors (fun _ => none) fiveOffers).getD []

/-- With one place in each sector the best of both are activated. -/
theorem activated_sound_fiveOffers :
    scoreAll [] twoSectors (fun _ => none) fiveOffers = some fourCandidates ∧
      fourCandidates.map Candidate.totalScore = [58, 64, 70, 13] ∧
      Sound [] twoSectors ⟨3, 40, 1⟩ fourCandidates ["BTC/USDT".toList, "ADA/USDT".toList] := by
  have hscore : scoreAll [] twoSectors (fun _ => none) fiveOffers = some fourCandidates := by
    decide +kernel
  have hranked : ranked Candidate.totalScore fourCandidates =
      [2, 1, 0, 3].filterMap fun i => fourCandidates[i]? :=
    ranked_eq Candidate.totalScore (by decide +kernel) (by decide +kernel)
  have hselect : (select ⟨3, 40, 1⟩ fourCandidates).map Candidate.symbol =
      ["BTC/USDT".toList, "ADA/USDT".toList] := by
    rw [select, hranked]
    decide +kernel
  have hne : select ⟨3, 40, 1⟩ fourCandidates ≠ [] := by
    intro hnil
    rw [hnil] at hselect
    cases hselect
  have hrefresh : refresh [] twoSectors (fun _ => none) ⟨3, 40, 1⟩ fiveOffers [] =
      some (activate ⟨3, 40, 1⟩ fourCandidates []) := by
    rw [refresh, hscore, Option.map_some]
  rcases activated_sound [] twoSectors (fun _ => none) ⟨3, 40, 1⟩ (by decide) fiveOffers []
    hrefresh with ⟨scored, hscored, -, hsound⟩
  obtain rfl := Option.some.inj (hscore.symm.trans hscored)
  rw [if_pos ⟨by decide, by decide +kernel⟩, symbols_activate, if_neg hne, hselect] at hsound
  exact ⟨hscore, by decide +kernel, hsound⟩

/-- Without data for any symbol four symbols of one sector are activated from the static list. -/
theorem static_list_activated :
    ∃ u, refresh [] (fun _ => "L1".toList) (fun _ => none) ⟨40, 40, 3⟩ []
        ["SUI/USDT".toList, "DOT/USDT".toList, "ADA/USDT".toList, "TRX/USDT".toList] = some u ∧
      ∀ scored, scoreAll [] (fun _ => "L1".toList) (fun _ => none) [] = some scored →
        ¬ Sound [] (fun _ => "L1".toList) ⟨40, 40, 3⟩ scored u.symbols := by
  refine ⟨_, rfl, ?_⟩
  intro scored _ h
  have hspread := h.spread "SUI/USDT".toList (by decide +kernel)
  revert hspread
  decide +kernel

end Results

end UniverseScorer
end Karsa
