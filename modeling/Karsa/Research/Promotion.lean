import Karsa.Foundations.Drawdowns
import Mathlib.Algebra.BigOperators.Group.List.Basic
import Mathlib.Algebra.Order.Ring.Rat
import Mathlib.Data.List.Forall2
import Mathlib.Data.List.Sort
import Mathlib.Data.Rat.Floor
import Mathlib.Tactic.FieldSimp
import Mathlib.Tactic.NormNum
import Mathlib.Tactic.Ring

/-!
# Research - Promotion of strategies

Every hour `_ranking_refresh_loop` reads the newest closed trades, has `MetricsEngine` compute
their metrics and `RankingEngine` decide by them.  Numbers are taken as exact.  The engine expects
fractional returns in the order of the trades; the loop hands it the results in dollars, newest
trade first.

Main results:

- Theorem `equityCurve_pos_iff`: when an equity curve is positive.
- Theorem `maxDrawdown_eq`: the drawdown of a positive curve is its worst decline.
- Theorem `evaluate_promote`: what a promotion shows.
- Theorem `decidedOnReturns_iff`: the histories on which real returns decide.
-/

namespace Karsa
namespace Promotion

/-! ## Metrics -/

/-- An entry of the trades that the loop hands over. -/
structure Entry where
  pnlPct : ℚ
  entryTime : ℚ
deriving Repr, DecidableEq

/-- `math.sqrt` and the power of floats. -/
structure Roots where
  sqrt : ℚ → ℚ
  pow : ℚ → ℚ → ℚ

/-- The metrics of `MetricsEngine.compute`; the drawdown may be no number. -/
structure Metrics where
  totalTrades : ℚ
  winRate : ℚ
  profitFactor : WithTop ℚ
  expectancy : ℚ
  medianReturn : ℚ
  sharpeRatio : ℚ
  sortinoRatio : ℚ
  calmarRatio : WithTop ℚ
  maxDrawdown : Option ℚ
  var95 : ℚ
  cagr : ℚ

/-- `_empty_metrics`. -/
def emptyMetrics : Metrics :=
  ⟨0, 0, 0, 0, 0, 0, 0, 0, some 0, 0, 0⟩

/-- `np.mean`. -/
def mean (xs : List ℚ) : ℚ :=
  xs.sum / xs.length

/-- `np.std`, which is zero for a single value. -/
def std (R : Roots) (xs : List ℚ) : ℚ :=
  if 1 < xs.length then R.sqrt (mean (xs.map fun x => (x - mean xs) ^ 2)) else 0

/-- `np.percentile`: between two ranks the value is interpolated.  The median is the fiftieth. -/
def percentile (xs : List ℚ) (q : ℚ) : ℚ :=
  let sorted := xs.insertionSort (· ≤ ·)
  let rank := (xs.length - 1) * (q / 100)
  let low := sorted.getD ⌊rank⌋.toNat 0
  let high := sorted.getD (min (⌊rank⌋.toNat + 1) (xs.length - 1)) 0
  low + (high - low) * (rank - ⌊rank⌋)

/-- `np.cumprod(1 + returns)`. -/
def equityCurve (returns : List ℚ) : List ℚ :=
  cumprodFrom 1 (returns.map fun r => 1 + r)

/-- `np.min(drawdowns)`.  The first point of the curve that a peak of zero belongs to is zero as
well, and its drawdown is no number. -/
def maxDrawdown (curve : List ℚ) : Option ℚ :=
  if 0 ∈ accumulateMax curve then none else some ((drawdowns curve).min?.getD 0)

/-- The days between the first and the last entry, at least one. -/
def tradedDays (times : List ℚ) : ℚ :=
  max (⌊(times.max?.getD 0 - times.min?.getD 0) / 86400⌋ : ℚ) 1

/-- `MetricsEngine.compute`, on entries that have `pnl_pct` and `entry_time`. -/
def compute (R : Roots) (trades : List Entry) : Metrics :=
  if trades = [] then emptyMetrics
  else
    let returns := trades.map Entry.pnlPct
    let curve := equityCurve returns
    let maxDd := maxDrawdown curve
    let wins := returns.filter fun r => decide (0 < r)
    let losses := returns.filter fun r => decide (r < 0)
    let grossProfit := wins.sum
    let grossLoss := |losses.sum|
    let days := tradedDays (trades.map Entry.entryTime)
    let tradesPerYear := returns.length / (days / 365)
    let annFactor := R.sqrt (max tradesPerYear 1)
    let stdRet := std R returns
    let downsideStd := std R losses
    let final := curve.getLastD 0
    let cagr := if 0 < final then R.pow final (365 / days) - 1 else 0
    { totalTrades := returns.length
      winRate := wins.length / returns.length
      profitFactor := if 0 < grossLoss then ((grossProfit / grossLoss : ℚ) : WithTop ℚ) else ⊤
      expectancy := mean returns
      medianReturn := percentile returns 50
      sharpeRatio := if 0 < stdRet then mean returns / stdRet * annFactor else 0
      sortinoRatio := if 0 < downsideStd then mean returns / downsideStd * annFactor else 0
      calmarRatio :=
        match maxDd with
        | some d => if d < 0 then ((cagr / |d| : ℚ) : WithTop ℚ) else ⊤
        | none => ⊤
      maxDrawdown := maxDd
      var95 := percentile returns 5
      cagr := cagr }

/-! ## Decisions -/

/-- `PromotionPolicy`. -/
structure PromotionPolicy where
  minTrades : ℚ := 50
  minPf : ℚ := 5 / 4
  minSharpe : ℚ := 1
  maxDd : ℚ := 3 / 20
  pValueThreshold : ℚ := 1 / 20

/-- The keys of the statistics that `evaluate` reads. -/
structure Stats where
  pVal : ℚ := 1
  probBeat : ℚ := 0

inductive Decision where
  | promote
  | needsMoreEvidence
  | reject
deriving Repr, DecidableEq

/-- A line of the reasons: a value, its threshold and whether it was met. -/
inductive Reason where
  | tradeCount (trades minTrades : ℚ) (met : Bool)
  | profitFactor (pf : WithTop ℚ) (minPf : ℚ) (met : Bool)
  | sharpeRatio (sharpe minSharpe : ℚ) (met : Bool)
  | maxDrawdown (maxDd : Option ℚ) (limit : ℚ) (met : Bool)
  | significance (pVal threshold : ℚ) (met : Bool)
  | probability (probBeat : ℚ)
  | validationSkipped
  | marginallyProfitable

structure Ranking where
  decision : Decision
  reasons : List Reason

/-- A drawdown is at most a limit; what is no number is not. -/
def within (maxDd : Option ℚ) (limit : ℚ) : Bool :=
  match maxDd with
  | some d => decide (d ≤ limit)
  | none => false

/-- `RankingEngine.evaluate`. -/
def evaluate (metrics : Metrics) (stats : Option Stats) (policy : PromotionPolicy) : Ranking :=
  let trades := metrics.totalTrades
  let pf := metrics.profitFactor
  let sharpe := metrics.sharpeRatio
  let maxDd := metrics.maxDrawdown.map fun d => |d|
  let enoughTrades := decide (policy.minTrades ≤ trades)
  let profitable := decide ((policy.minPf : WithTop ℚ) ≤ pf)
  let rewarding := decide (policy.minSharpe ≤ sharpe)
  let shallow := within maxDd policy.maxDd
  let performance := [.tradeCount trades policy.minTrades enoughTrades,
    .profitFactor pf policy.minPf profitable, .sharpeRatio sharpe policy.minSharpe rewarding,
    .maxDrawdown maxDd policy.maxDd shallow]
  let significant :=
    match stats with
    | some s => decide (s.pVal ≤ policy.pValueThreshold)
    | none => true
  let confidence :=
    match stats with
    | some s => [.significance s.pVal policy.pValueThreshold significant, .probability s.probBeat]
    | none => [.validationSkipped]
  let reasons := performance ++ confidence
  if enoughTrades && profitable && rewarding && shallow && significant then ⟨.promote, reasons⟩
  else if decide (1 ≤ pf) && within maxDd (1 / 5) && decide (10 ≤ trades) then
    ⟨.needsMoreEvidence, reasons ++ [.marginallyProfitable]⟩
  else ⟨.reject, reasons⟩

/-! ## The refresh -/

/-- A closed trade with a positive entry value that did not lose all of it. -/
structure ClosedTrade where
  amount : ℚ
  entryPrice : ℚ
  realizedPnl : ℚ
  entryTime : ℚ
  exitTime : ℚ
  value_pos : 0 < entryPrice * amount
  loss_lt : -(entryPrice * amount) < realizedPnl

/-- What was paid for the position. -/
def ClosedTrade.value (t : ClosedTrade) : ℚ :=
  t.entryPrice * t.amount

/-- The fractional return. -/
def ClosedTrade.fraction (t : ClosedTrade) : ℚ :=
  t.realizedPnl / t.value

/-- The closed trades as the query orders them, `ORDER BY exit_time DESC`. -/
structure History where
  rows : List ClosedTrade
  newestFirst : rows.Pairwise fun a b => b.exitTime ≤ a.exitTime

/-- `get_recent_trades(limit=200)`. -/
def History.recentTrades (h : History) : List ClosedTrade :=
  h.rows.take 200

/-- The entry that the loop makes of a trade. -/
def tradeDict (t : ClosedTrade) : Entry where
  pnlPct := t.realizedPnl
  entryTime := t.entryTime

/-- The metrics of one pass of `_ranking_refresh_loop`, which skips short histories. -/
def refreshMetrics (R : Roots) (h : History) : Option Metrics :=
  let trades := h.recentTrades
  if trades.length < 10 then none else some (compute R (trades.map tradeDict))

/-- The ranking that the pass stores. -/
def rankingRefresh (R : Roots) (policy : PromotionPolicy) (h : History) : Option Ranking :=
  (refreshMetrics R h).map fun metrics => evaluate metrics none policy

/-! ## Real returns -/

/-- The entries of the trades read in the order in which they were closed, with real returns. -/
def History.realEntries (h : History) : List Entry :=
  h.recentTrades.reverse.map fun t => ⟨t.fraction, t.entryTime⟩

/-- The fractional returns in the order in which the trades were closed. -/
def History.realReturns (h : History) : List ℚ :=
  h.recentTrades.reverse.map ClosedTrade.fraction

/-- The returns that the loop hands over. -/
def History.fedReturns (h : History) : List ℚ :=
  h.recentTrades.map fun t => (tradeDict t).pnlPct

/-- The metrics of a pass are those of the real returns, its equity curve is positive, its
drawdown the worst decline of that curve, and a promotion meets every threshold. -/
structure DecidedOnReturns (R : Roots) (policy : PromotionPolicy) (h : History) (m : Metrics) :
    Prop where
  returns : h.fedReturns = h.realReturns
  metrics : m = compute R h.realEntries
  equity_pos : ∀ e ∈ equityCurve h.fedReturns, 0 < e
  drawdown : ∃ d, m.maxDrawdown = some d ∧ -1 < d ∧ d ≤ 0 ∧
    WorstDecline (equityCurve h.realReturns) d
  promoted : (evaluate m none policy).decision = .promote →
    policy.minTrades ≤ m.totalTrades ∧ (policy.minPf : WithTop ℚ) ≤ m.profitFactor ∧
      policy.minSharpe ≤ m.sharpeRatio ∧ ∃ d, m.maxDrawdown = some d ∧ |d| ≤ policy.maxDd

/-- Two trades of which each has in dollars the return of the other: neither has a result, or
their values are reciprocal and one result is the return of the other. -/
def Reciprocal (t t' : ClosedTrade) : Prop :=
  t.realizedPnl = 0 ∧ t'.realizedPnl = 0 ∨
    t.value * t'.value = 1 ∧ t'.realizedPnl = t.realizedPnl / t.value

/-! ## Metrics of real returns -/

/-- An equity curve is positive exactly if no return is a loss of everything. -/
theorem equityCurve_pos_iff (returns : List ℚ) :
    (∀ e ∈ equityCurve returns, 0 < e) ↔ ∀ r ∈ returns, -1 < r := by
  rw [equityCurve, cumprodFrom_pos_iff one_pos, List.forall_mem_map]
  exact forall₂_congr fun r _ => by rw [neg_lt_iff_pos_add']

/-- The highest values of a positive curve are positive. -/
theorem accumulateMax_pos {curve : List ℚ} (hcurve : ∀ e ∈ curve, 0 < e) :
    ∀ p ∈ accumulateMax curve, 0 < p := by
  have hfrom : ∀ (peak : ℚ) (rest : List ℚ), 0 < peak →
      ∀ p ∈ accumulateMaxFrom peak rest, 0 < p := by
    intro peak rest hpeak
    induction rest generalizing peak with
    | nil => exact fun p hp => absurd hp List.not_mem_nil
    | cons x rest ih =>
        rw [accumulateMaxFrom, List.forall_mem_cons]
        exact ⟨lt_max_of_lt_left hpeak, ih _ (lt_max_of_lt_left hpeak)⟩
  cases curve with
  | nil => exact fun p hp => absurd hp List.not_mem_nil
  | cons x rest =>
      have hx := hcurve x List.mem_cons_self
      rw [accumulateMax, List.forall_mem_cons]
      exact ⟨hx, hfrom x rest hx⟩

/-- The drawdown of a positive curve is its worst decline, which loses less than everything. -/
theorem maxDrawdown_eq {curve : List ℚ} (hsome : curve ≠ []) (hcurve : ∀ e ∈ curve, 0 < e) :
    ∃ d, maxDrawdown curve = some d ∧ -1 < d ∧ d ≤ 0 ∧ WorstDecline curve d := by
  have hpeaks : 0 ∉ accumulateMax curve := fun h => (accumulateMax_pos hcurve 0 h).false
  rw [maxDrawdown, if_neg hpeaks]
  cases hmin : (drawdowns curve).min? with
  | none =>
      rw [List.min?_eq_none_iff] at hmin
      cases curve with
      | nil => exact absurd rfl hsome
      | cons x rest => exact absurd hmin (by rw [drawdowns_cons]; exact List.cons_ne_nil _ _)
  | some d =>
      rw [List.min?_eq_some_iff] at hmin
      have hbounds := drawdowns_mem hcurve hmin.1
      exact ⟨d, rfl, hbounds.1, hbounds.2, isLeast_decline hcurve hmin.1 hmin.2⟩

/-! ## Promotions -/

/-- A promotion meets every threshold. -/
theorem evaluate_promote {m : Metrics} {stats : Option Stats} {policy : PromotionPolicy}
    (hpromote : (evaluate m stats policy).decision = .promote) :
    policy.minTrades ≤ m.totalTrades ∧ (policy.minPf : WithTop ℚ) ≤ m.profitFactor ∧
      policy.minSharpe ≤ m.sharpeRatio ∧ ∃ d, m.maxDrawdown = some d ∧ |d| ≤ policy.maxDd := by
  unfold evaluate at hpromote
  dsimp only at hpromote
  split_ifs at hpromote with hpasses
  simp only [Bool.and_eq_true, decide_eq_true_eq] at hpasses
  rcases hpasses with ⟨⟨⟨⟨htrades, hpf⟩, hsharpe⟩, hdrawdown⟩, -⟩
  refine ⟨htrades, hpf, hsharpe, ?_⟩
  cases hd : m.maxDrawdown with
  | none => simp [hd, within] at hdrawdown
  | some d => exact ⟨d, rfl, by simpa [hd, within] using hdrawdown⟩

/-! ## Histories on which real returns decide -/

/-- Entry values are positive. -/
theorem ClosedTrade.value_ne_zero (t : ClosedTrade) : t.value ≠ 0 :=
  t.value_pos.ne'

/-- A trade that does not lose its entry value has a return above minus one. -/
theorem ClosedTrade.neg_one_lt_fraction (t : ClosedTrade) : -1 < t.fraction := by
  have hvalue : 0 < t.value := t.value_pos
  have hloss : -t.value < t.realizedPnl := t.loss_lt
  rw [ClosedTrade.fraction]
  rw [lt_div_iff₀ hvalue]
  linarith

/-- Reciprocal trades are those that have in dollars the return of each other. -/
theorem reciprocal_iff (t t' : ClosedTrade) :
    Reciprocal t t' ↔ t.realizedPnl = t'.fraction ∧ t'.realizedPnl = t.fraction := by
  have hvalue := t.value_ne_zero
  have hvalue' := t'.value_ne_zero
  unfold Reciprocal ClosedTrade.fraction
  constructor
  · rintro (⟨hpnl, hpnl'⟩ | ⟨hproduct, hpnl'⟩)
    · rw [hpnl, hpnl', zero_div, zero_div]
      exact ⟨rfl, rfl⟩
    · refine ⟨?_, hpnl'⟩
      rw [hpnl', div_div, hproduct, div_one]
  · rintro ⟨hpnl, hpnl'⟩
    by_cases hzero : t.realizedPnl = 0
    · exact Or.inl ⟨hzero, by rw [hpnl', hzero, zero_div]⟩
    · refine Or.inr ⟨?_, hpnl'⟩
      rw [hpnl', div_div, eq_div_iff (mul_ne_zero hvalue hvalue')] at hpnl
      exact mul_left_cancel₀ hzero (hpnl.trans (mul_one _).symm)

/-- The loop hands over real returns exactly if the trades are reciprocal from both ends. -/
theorem fedReturns_eq_iff (h : History) :
    h.fedReturns = h.realReturns ↔
      List.Forall₂ Reciprocal h.recentTrades h.recentTrades.reverse := by
  rw [History.fedReturns, History.realReturns, ← List.forall₂_eq_eq_eq, List.forall₂_map_left_iff,
    List.forall₂_map_right_iff]
  constructor
  · intro hequal
    have hflip := List.forall₂_reverse_iff.mpr hequal.flip
    rw [List.reverse_reverse] at hflip
    rw [List.forall₂_iff_zip] at hequal hflip ⊢
    exact ⟨hequal.1, fun hp => (reciprocal_iff _ _).mpr ⟨hequal.2 hp, hflip.2 hp⟩⟩
  · intro hpairs
    exact hpairs.imp fun t t' hpair => ((reciprocal_iff t t').mp hpair).1

/-- Real returns are above minus one. -/
theorem History.neg_one_lt_realReturns (h : History) : ∀ r ∈ h.realReturns, -1 < r :=
  List.forall_mem_map.mpr fun t _ => t.neg_one_lt_fraction

/-- The metrics that a pass computes. -/
theorem refreshMetrics_eq_some_iff (R : Roots) (h : History) (m : Metrics) :
    refreshMetrics R h = some m ↔
      10 ≤ h.recentTrades.length ∧ m = compute R (h.recentTrades.map tradeDict) := by
  unfold refreshMetrics
  dsimp only
  split_ifs with hshort
  · exact iff_of_false (by simp) (fun hm => by omega)
  · rw [Option.some_inj]
    exact ⟨fun hm => ⟨by omega, hm.symm⟩, fun hm => hm.2.symm⟩

/-- The drawdown among the metrics of some trades. -/
theorem compute_maxDrawdown (R : Roots) {trades : List Entry} (hsome : trades ≠ []) :
    (compute R trades).maxDrawdown = maxDrawdown (equityCurve (trades.map Entry.pnlPct)) := by
  rw [compute, if_neg hsome]

/-- The days traded do not depend on the order of the times. -/
theorem tradedDays_reverse (times : List ℚ) : tradedDays times.reverse = tradedDays times := by
  have hmax : times.reverse.max? = times.max? := by
    cases h : times.max? with
    | none => rw [List.max?_eq_none_iff] at h ⊢; rw [h, List.reverse_nil]
    | some m => rw [List.max?_eq_some_iff] at h ⊢; simpa using h
  have hmin : times.reverse.min? = times.min? := by
    cases h : times.min? with
    | none => rw [List.min?_eq_none_iff] at h ⊢; rw [h, List.reverse_nil]
    | some m => rw [List.min?_eq_some_iff] at h ⊢; simpa using h
  rw [tradedDays, tradedDays, hmax, hmin]

/-- Metrics depend on the returns and the days traded only. -/
theorem compute_congr (R : Roots) {trades trades' : List Entry}
    (hreturns : trades.map Entry.pnlPct = trades'.map Entry.pnlPct)
    (hdays : tradedDays (trades.map Entry.entryTime) = tradedDays (trades'.map Entry.entryTime)) :
    compute R trades = compute R trades' := by
  have hempty : trades = [] ↔ trades' = [] := by
    rw [← List.map_eq_nil_iff (f := Entry.pnlPct), hreturns, List.map_eq_nil_iff]
  unfold compute
  rw [hreturns, hdays]
  simp only [hempty]

/-- Promotion is decided on real returns exactly for the histories that are too short for a
decision or in which, of the trades read, the newest and the oldest, the next to them and so on
are reciprocal. -/
theorem decidedOnReturns_iff (R : Roots) (policy : PromotionPolicy) (h : History) :
    (∀ m, refreshMetrics R h = some m → DecidedOnReturns R policy h m) ↔
      h.recentTrades.length < 10 ∨
        List.Forall₂ Reciprocal h.recentTrades h.recentTrades.reverse := by
  simp only [refreshMetrics_eq_some_iff]
  constructor
  · intro hdecided
    rcases lt_or_ge h.recentTrades.length 10 with hshort | hlong
    · exact Or.inl hshort
    · exact Or.inr ((fedReturns_eq_iff h).mp (hdecided _ ⟨hlong, rfl⟩).returns)
  · rintro (hshort | hpairs) m ⟨hlong, rfl⟩
    · omega
    · have hreturns := (fedReturns_eq_iff h).mpr hpairs
      have hcolumn : (h.recentTrades.map tradeDict).map Entry.pnlPct = h.realReturns := by
        rw [List.map_map, ← hreturns]
        rfl
      have hpos : ∀ e ∈ equityCurve h.realReturns, 0 < e :=
        (equityCurve_pos_iff _).mpr h.neg_one_lt_realReturns
      have hlength : h.realReturns.length = h.recentTrades.length := by
        simp [History.realReturns]
      have hcurve : equityCurve h.realReturns ≠ [] := by
        cases hreal : h.realReturns with
        | nil => rw [hreal, List.length_nil] at hlength; omega
        | cons r rest => exact List.cons_ne_nil _ _
      have htrades : h.recentTrades.map tradeDict ≠ [] := by
        intro hnil
        rw [List.map_eq_nil_iff] at hnil
        rw [hnil, List.length_nil] at hlong
        omega
      refine ⟨hreturns, ?_, ?_, ?_, evaluate_promote⟩
      · refine compute_congr R ?_ ?_
        · rw [hcolumn, History.realReturns, History.realEntries, List.map_map]
          rfl
        · rw [History.realEntries, List.map_map, List.map_map, List.map_reverse]
          exact (tradedDays_reverse _).symm
      · rw [hreturns]
        exact hpos
      · rw [compute_maxDrawdown R htrades, hcolumn]
        exact maxDrawdown_eq hcurve hpos

/-- A trade that loses twenty of a thousand dollars. -/
def smallLoss (exitTime : ℚ) : ClosedTrade where
  amount := 10
  entryPrice := 100
  realizedPnl := -20
  entryTime := exitTime - 3600
  exitTime := exitTime
  value_pos := by norm_num
  loss_lt := by norm_num

/-- Ten of them, a day apart. -/
def smallLosses : History where
  rows := (List.range 10).map fun n : ℕ => smallLoss (86400 * (10 - (n : ℚ)))
  newestFirst := by decide +kernel

/-- Ten losses of two percent have a positive equity curve; the one that decides is negative from
the first trade on. -/
theorem smallLosses_not_decided :
    (∀ e ∈ equityCurve smallLosses.realReturns, 0 < e) ∧
      (∃ e ∈ equityCurve smallLosses.fedReturns, e < 0) ∧
        ∀ R policy, ¬ ∀ m, refreshMetrics R smallLosses = some m →
          DecidedOnReturns R policy smallLosses m := by
  have hnegative : ∃ e ∈ equityCurve smallLosses.fedReturns, e < 0 := by decide +kernel
  refine ⟨by decide +kernel, hnegative, fun R policy hdecided => ?_⟩
  rcases hnegative with ⟨e, he, hneg⟩
  have hmetrics := (refreshMetrics_eq_some_iff R smallLosses _).mpr ⟨by decide, rfl⟩
  exact absurd ((hdecided _ hmetrics).equity_pos e he) hneg.not_gt

end Promotion
end Karsa
