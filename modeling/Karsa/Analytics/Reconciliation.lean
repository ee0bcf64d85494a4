import Karsa.Foundations.NearestPairs
import Karsa.Foundations.Text
import Mathlib.Algebra.BigOperators.Group.List.Basic
import Mathlib.Algebra.Order.BigOperators.Group.List
import Mathlib.Algebra.Order.Field.Basic
import Mathlib.Algebra.Order.Field.Rat
import Mathlib.Tactic.FieldSimp
import Mathlib.Tactic.Ring

/-!
# Analytics - Shadow and live trades

The parity report pairs each live trade with a shadow trade of the same symbol and side that was
entered within a window of it, and compares their prices and profits.

Main results:

- Theorem `matchTrades_settled`: which trades are compared.
- Theorem `matchTrades_perm`: when the order of the shadow trades does not matter.
- Theorem `report_consistent`: how the averages and totals of a report are related.
-/

namespace Karsa
namespace Reconciliation

/-- A trade dict, with its entry time as a timestamp; `none` is a key that is not there. -/
structure Trade where
  symbol : Option Text
  side : Option Text
  entryPrice : Option ℚ
  exitPrice : Option ℚ
  pnl : Option ℚ
  fees : Option ℚ
  slippage : Option ℚ
  entryTime : Option ℚ
deriving Repr, DecidableEq

/-- `ReconciliationEntry`. -/
structure ReconciliationEntry where
  symbol : Text
  side : Text
  liveEntryPrice : ℚ
  shadowEntryPrice : ℚ
  liveExitPrice : ℚ
  shadowExitPrice : ℚ
  livePnl : ℚ
  shadowPnl : ℚ
  liveFees : ℚ
  shadowFees : ℚ
  liveSlippage : ℚ
  shadowSlippage : ℚ
  liveEntryTime : Option ℚ
  shadowEntryTime : Option ℚ
  entryPriceDelta : ℚ
  exitPriceDelta : ℚ
  pnlDelta : ℚ
  executionPenalty : ℚ
deriving Repr, DecidableEq

/-- `ReconciliationReport`. -/
structure ReconciliationReport where
  totalPairs : ℕ
  matchedPairs : List ReconciliationEntry
  avgEntrySlippage : ℚ
  avgExitSlippage : ℚ
  avgPnlDelta : ℚ
  totalLivePnl : ℚ
  totalShadowPnl : ℚ
  totalPnlPenalty : ℚ
  avgExecutionPenalty : ℚ
  feeAsymmetry : ℚ
  slippageAsymmetry : ℚ
deriving Repr, DecidableEq

/-! ## Matching -/

/-- The gap between two trades of one symbol and side, if both have an entry time and the gap is
within the window. -/
def gap (timeWindowSeconds : ℚ) (live shadow : Trade) : Option ℚ :=
  if live.symbol ≠ shadow.symbol then none
  else if live.side ≠ shadow.side then none
  else
    match live.entryTime, shadow.entryTime with
    | some liveTs, some shadowTs =>
        let delta := |liveTs - shadowTs|
        if delta ≤ timeWindowSeconds then some delta else none
    | _, _ => none

/-- The entry of a matched pair; `live["symbol"]` and `live["side"]` are read without a default. -/
def entry (live bestMatch : Trade) : Option ReconciliationEntry :=
  match live.symbol, live.side with
  | some symbol, some side =>
      let entryDelta := live.entryPrice.getD 0 - bestMatch.entryPrice.getD 0
      let exitDelta := live.exitPrice.getD 0 - bestMatch.exitPrice.getD 0
      some
        { symbol := symbol
          side := side
          liveEntryPrice := live.entryPrice.getD 0
          shadowEntryPrice := bestMatch.entryPrice.getD 0
          liveExitPrice := live.exitPrice.getD 0
          shadowExitPrice := bestMatch.exitPrice.getD 0
          livePnl := live.pnl.getD 0
          shadowPnl := bestMatch.pnl.getD 0
          liveFees := live.fees.getD 0
          shadowFees := bestMatch.fees.getD 0
          liveSlippage := live.slippage.getD 0
          shadowSlippage := bestMatch.slippage.getD 0
          liveEntryTime := live.entryTime
          shadowEntryTime := bestMatch.entryTime
          entryPriceDelta := entryDelta
          exitPriceDelta := exitDelta
          pnlDelta := live.pnl.getD 0 - bestMatch.pnl.getD 0
          executionPenalty := |entryDelta| + |exitDelta| }
  | _, _ => none

/-- The loop over the live trades, `none` for a `KeyError`. -/
def matchLoop (timeWindowSeconds : ℚ) :
    List Trade → List Trade → Option (List ReconciliationEntry)
  | _, [] => some []
  | shadowPool, live :: rest =>
      match NearestPairs.nearest (gap timeWindowSeconds) shadowPool live with
      | none => matchLoop timeWindowSeconds shadowPool rest
      | some bestMatch => do
          let matched ← entry live bestMatch
          let others ← matchLoop timeWindowSeconds (shadowPool.erase bestMatch) rest
          return matched :: others

/-- `match_trades`. -/
def matchTrades (liveTrades shadowTrades : List Trade) (timeWindowSeconds : ℚ) :
    Option (List ReconciliationEntry) :=
  matchLoop timeWindowSeconds shadowTrades liveTrades

/-! ## Report -/

/-- The sum of a field of the entries over their number, exactly; a `Decimal` keeps 28 digits. -/
def average (field : ReconciliationEntry → ℚ) (matched : List ReconciliationEntry) : ℚ :=
  (matched.map field).sum / matched.length

/-- `compute_reconciliation`. -/
def computeReconciliation (matched : List ReconciliationEntry) : ReconciliationReport :=
  if matched = [] then ⟨0, [], 0, 0, 0, 0, 0, 0, 0, 0, 0⟩
  else
    let totalLivePnl := (matched.map ReconciliationEntry.livePnl).sum
    let totalShadowPnl := (matched.map ReconciliationEntry.shadowPnl).sum
    { totalPairs := matched.length
      matchedPairs := matched
      avgEntrySlippage := average ReconciliationEntry.entryPriceDelta matched
      avgExitSlippage := average ReconciliationEntry.exitPriceDelta matched
      avgPnlDelta := average ReconciliationEntry.pnlDelta matched
      totalLivePnl := totalLivePnl
      totalShadowPnl := totalShadowPnl
      totalPnlPenalty := totalLivePnl - totalShadowPnl
      avgExecutionPenalty := average ReconciliationEntry.executionPenalty matched
      feeAsymmetry := (matched.map fun e => e.liveFees - e.shadowFees).sum
      slippageAsymmetry := (matched.map fun e => e.liveSlippage - e.shadowSlippage).sum }

/-! ## Matched trades -/

/-- A trade has a symbol and a side. -/
def Trade.Named (trade : Trade) : Prop :=
  trade.symbol.isSome = true ∧ trade.side.isSome = true

instance (trade : Trade) : Decidable trade.Named :=
  inferInstanceAs (Decidable (_ ∧ _))

/-- The entries of the pairs. -/
def entries (pairs : List (Trade × Option Trade)) : List ReconciliationEntry :=
  pairs.filterMap fun pair => pair.2.bind (entry pair.1)

/-- A named trade has an entry with whatever it is matched to. -/
theorem exists_entry {live : Trade} (h : live.Named) (shadow : Trade) :
    ∃ matched, entry live shadow = some matched := by
  rcases Option.isSome_iff_exists.mp h.1 with ⟨symbol, hsymbol⟩
  rcases Option.isSome_iff_exists.mp h.2 with ⟨side, hside⟩
  rw [entry, hsymbol, hside]
  exact ⟨_, rfl⟩

/-- The loop makes the entries of the nearest pairs. -/
theorem matchLoop_eq {timeWindowSeconds : ℚ} {liveTrades : List Trade}
    (hnamed : ∀ live ∈ liveTrades, live.Named) (shadowPool : List Trade) :
    matchLoop timeWindowSeconds shadowPool liveTrades =
      some (entries (NearestPairs.pairUp (gap timeWindowSeconds) shadowPool liveTrades).1) := by
  induction liveTrades generalizing shadowPool with
  | nil => rfl
  | cons live rest ih =>
      have hrest : ∀ trade ∈ rest, trade.Named :=
        fun trade htrade => hnamed trade (List.mem_cons_of_mem live htrade)
      rw [matchLoop, NearestPairs.pairUp]
      cases hbest : NearestPairs.nearest (gap timeWindowSeconds) shadowPool live with
      | none => exact ih hrest shadowPool
      | some bestMatch =>
          rcases exists_entry (hnamed live List.mem_cons_self) bestMatch with ⟨matched, hentry⟩
          dsimp only
          rw [hentry, ih hrest]
          simp [entries, hentry]

/-- Each live trade is compared with the nearest shadow trade that is left when its turn comes,
and no shadow trade is compared twice: one that is nearer to it was taken by an earlier live
trade, and a live trade without an entry found none within the window. -/
theorem matchTrades_settled {liveTrades : List Trade}
    (hnamed : ∀ live ∈ liveTrades, live.Named) (shadowTrades : List Trade)
    (timeWindowSeconds : ℚ) :
    ∃ pairs left,
      NearestPairs.Settled (gap timeWindowSeconds) shadowTrades liveTrades pairs left ∧
        matchTrades liveTrades shadowTrades timeWindowSeconds = some (entries pairs) :=
  ⟨_, _, NearestPairs.settled_pairUp shadowTrades liveTrades, matchLoop_eq hnamed shadowTrades⟩

/-- A trade entered at a time, with profit. -/
def tradeAt (entryTime pnl : ℚ) : Trade :=
  ⟨some ['B'], some ['L'], some 100, some 110, some pnl, none, none, some entryTime⟩

/-- Two live trades want the same shadow trade; the later one gets none. -/
theorem matchTrades_settled_rivals :
    ∃ pairs left,
      NearestPairs.Settled (gap 300) [tradeAt 20 8] [tradeAt 0 10, tradeAt 10 9] pairs left ∧
        matchTrades [tradeAt 0 10, tradeAt 10 9] [tradeAt 20 8] 300 = some (entries pairs) :=
  matchTrades_settled (by decide) [tradeAt 20 8] 300

/-- If no live trade is equally far from two shadow trades, the order in which the shadow trades
are given does not change the entries. -/
theorem matchTrades_perm {liveTrades : List Trade}
    (hnamed : ∀ live ∈ liveTrades, live.Named) {shadowTrades shadowTrades' : List Trade}
    (hperm : shadowTrades.Perm shadowTrades') {timeWindowSeconds : ℚ}
    (hties : NearestPairs.NoTies (gap timeWindowSeconds) shadowTrades liveTrades) :
    matchTrades liveTrades shadowTrades timeWindowSeconds =
      matchTrades liveTrades shadowTrades' timeWindowSeconds := by
  have hpairs := (NearestPairs.settled_pairUp shadowTrades liveTrades).unique
    (NearestPairs.settled_pairUp shadowTrades' liveTrades) hperm hties
  rw [matchTrades, matchTrades, matchLoop_eq hnamed, matchLoop_eq hnamed, hpairs]

/-- Two shadow trades of which one is out of reach, in both orders. -/
theorem matchTrades_perm_two :
    matchTrades [tradeAt 0 10] [tradeAt 20 8, tradeAt 900 9] 300 =
      matchTrades [tradeAt 0 10] [tradeAt 900 9, tradeAt 20 8] 300 := by
  refine matchTrades_perm (by decide) (List.Perm.swap _ _ _) ?_
  have hfar : gap 300 (tradeAt 0 10) (tradeAt 900 9) = none := by decide +kernel
  intro a ha b hb b' hb' d hgap hgap'
  rw [List.mem_singleton.mp ha] at hgap hgap'
  rw [List.mem_pair] at hb hb'
  rcases hb with rfl | rfl
  · rcases hb' with rfl | rfl
    · rfl
    · rw [hfar] at hgap'
      contradiction
  · rw [hfar] at hgap
    contradiction

/-! ## Consistency of a report -/

/-- What the entries of a match have in common. -/
structure ReconciliationEntry.Derived (e : ReconciliationEntry) : Prop where
  pnl : e.pnlDelta = e.livePnl - e.shadowPnl
  penalty : e.executionPenalty = |e.entryPriceDelta| + |e.exitPriceDelta|

/-- The entry of a pair. -/
theorem derived_of_entry {live shadow : Trade} {matched : ReconciliationEntry}
    (h : entry live shadow = some matched) : matched.Derived := by
  rw [entry] at h
  cases hsymbol : live.symbol with
  | none => simp [hsymbol] at h
  | some symbol =>
      cases hside : live.side with
      | none => simp [hsymbol, hside] at h
      | some side =>
          rw [hsymbol, hside] at h
          rw [← Option.some.inj h]
          exact ⟨rfl, rfl⟩

/-- The entries of a match. -/
theorem derived_of_matchLoop {timeWindowSeconds : ℚ} {liveTrades shadowPool : List Trade}
    {matched : List ReconciliationEntry}
    (h : matchLoop timeWindowSeconds shadowPool liveTrades = some matched) :
    ∀ e ∈ matched, e.Derived := by
  induction liveTrades generalizing shadowPool matched with
  | nil =>
      rw [← Option.some.inj h]
      simp
  | cons live rest ih =>
      rw [matchLoop] at h
      cases hbest : NearestPairs.nearest (gap timeWindowSeconds) shadowPool live with
      | none =>
          rw [hbest] at h
          exact ih h
      | some bestMatch =>
          rw [hbest] at h
          rcases Option.bind_eq_some_iff.mp h with ⟨first, hfirst, h⟩
          rcases Option.bind_eq_some_iff.mp h with ⟨others, hothers, h⟩
          rw [← Option.some.inj h]
          intro e he
          rcases List.mem_cons.mp he with rfl | he
          · exact derived_of_entry hfirst
          · exact ih hothers e he

/-- Sums of entry fields. -/
theorem sum_map_sub (f g : ReconciliationEntry → ℚ) (matched : List ReconciliationEntry) :
    (matched.map fun e => f e - g e).sum = (matched.map f).sum - (matched.map g).sum := by
  induction matched with
  | nil => simp
  | cons e rest ih =>
      simp only [List.map_cons, List.sum_cons, ih]
      ring

/-- The averages of signed fields are within the average of their absolute values. -/
theorem abs_sum_add_abs_sum_le (f g : ReconciliationEntry → ℚ)
    (matched : List ReconciliationEntry) :
    |(matched.map f).sum| + |(matched.map g).sum| ≤
      (matched.map fun e => |f e| + |g e|).sum := by
  induction matched with
  | nil => simp
  | cons e rest ih =>
      simp only [List.map_cons, List.sum_cons]
      calc |f e + (rest.map f).sum| + |g e + (rest.map g).sum|
          ≤ (|f e| + |(rest.map f).sum|) + (|g e| + |(rest.map g).sum|) :=
            add_le_add (abs_add_le _ _) (abs_add_le _ _)
        _ = (|f e| + |g e|) + (|(rest.map f).sum| + |(rest.map g).sum|) := by ring
        _ ≤ (|f e| + |g e|) + (rest.map fun e => |f e| + |g e|).sum := by
            exact add_le_add le_rfl ih

/-- In every report on matched trades the total penalty is the average profit difference times
the number of pairs, and the two average slippages together are within the average execution
penalty. -/
theorem report_consistent {liveTrades shadowTrades : List Trade} {timeWindowSeconds : ℚ}
    {matched : List ReconciliationEntry}
    (h : matchTrades liveTrades shadowTrades timeWindowSeconds = some matched) :
    let report := computeReconciliation matched
    report.totalPnlPenalty = report.totalPairs * report.avgPnlDelta ∧
      |report.avgEntrySlippage| + |report.avgExitSlippage| ≤ report.avgExecutionPenalty := by
  have hderived := derived_of_matchLoop h
  dsimp only
  rw [computeReconciliation]
  split_ifs with hempty
  · simp
  · have hlength : (0 : ℚ) < matched.length := by
      exact_mod_cast List.length_pos_of_ne_nil hempty
    constructor
    · have hpnl : matched.map ReconciliationEntry.pnlDelta =
          matched.map fun e => e.livePnl - e.shadowPnl :=
        List.map_congr_left fun e he => (hderived e he).pnl
      dsimp only
      rw [average, hpnl, sum_map_sub, mul_div_cancel₀ _ hlength.ne']
    · have hpenalty : matched.map ReconciliationEntry.executionPenalty =
          matched.map fun e => |e.entryPriceDelta| + |e.exitPriceDelta| :=
        List.map_congr_left fun e he => (hderived e he).penalty
      dsimp only
      rw [average, average, average, hpenalty, abs_div, abs_div, abs_of_pos hlength, ← add_div]
      exact div_le_div_of_nonneg_right (abs_sum_add_abs_sum_le _ _ matched) hlength.le

/-- A trade entered at a time, with its prices and profit. -/
def tradeOver (entryTime entryPrice exitPrice pnl : ℚ) : Trade :=
  ⟨some ['B'], some ['L'], some entryPrice, some exitPrice, some pnl, none, none, some entryTime⟩

/-- Three live trades at other prices than their shadows, and one without a shadow. -/
def slippedTrades : List Trade :=
  [tradeOver 0 101 110 9, tradeOver 1000 100 109 8, tradeOver 2000 103 120 15,
    tradeOver 9000 100 104 4]

/-- Their shadows. -/
def shadowTrades : List Trade :=
  [tradeOver 1020 102 108 6, tradeOver 10 100 112 12, tradeOver 2005 100 117 17]

/-- The report on three pairs whose slippages partly cancel out. -/
theorem report_consistent_slipped :
    ∃ report, (matchTrades slippedTrades shadowTrades 300).map computeReconciliation =
        some report ∧
      report.totalPairs = 3 ∧ report.totalPnlPenalty = -3 ∧ report.avgPnlDelta = -1 ∧
      report.avgEntrySlippage = 2 / 3 ∧ report.avgExitSlippage = 2 / 3 ∧
      report.avgExecutionPenalty = 4 ∧
      report.totalPnlPenalty = report.totalPairs * report.avgPnlDelta ∧
      |report.avgEntrySlippage| + |report.avgExitSlippage| ≤ report.avgExecutionPenalty := by
  have hmatched : (matchTrades slippedTrades shadowTrades 300).isSome = true := by decide +kernel
  rcases Option.isSome_iff_exists.mp hmatched with ⟨matched, h⟩
  have hfigures : (matchTrades slippedTrades shadowTrades 300).map
      (fun pairs => let r := computeReconciliation pairs
        (r.totalPairs, r.totalPnlPenalty, r.avgPnlDelta, r.avgEntrySlippage, r.avgExitSlippage,
          r.avgExecutionPenalty)) = some (3, -3, -1, 2 / 3, 2 / 3, 4) := by
    decide +kernel
  rw [h] at hfigures ⊢
  simp only [Option.map_some, Option.some.injEq, Prod.mk.injEq] at hfigures
  rcases hfigures with ⟨hpairs, htotal, hpnl, hentry, hexit, hpenalty⟩
  exact ⟨_, rfl, hpairs, htotal, hpnl, hentry, hexit, hpenalty, report_consistent h⟩

end Reconciliation
end Karsa
