import Karsa.Backtest.Termination

/-!
# Backtests - No look-ahead

Two replays of arrays with a common beginning are run side by side.  They stay at the same
bar, with the same reports, until a trade reaches the first bar that may differ; from then on
neither adds anything that is settled before this bar.  A trade that ends with the data is
never settled: a longer array would have gone on with it.

Main results:

- Theorem `simulateBars_agree`: one simulation on two arrays.
- Theorem `InStep.pass`: one pass on two arrays.
- Theorem `returns_agree`: without live gates, what a common beginning settles is common to
  both replays, and trades are entered one after the other.
-/

namespace Karsa
namespace Backtest
namespace BacktestEngine

open MarketFeed (Candle)

variable {e : BacktestEngine} {job : Job}

/-! ## One trade on two arrays -/

/-- The trade is not settled before bar `k`: it is held until then, or it ends with the data,
which reach as far. -/
def Late (k entryIdx : ℕ) (report : BacktestReport) : Prop :=
  k ≤ entryIdx + report.barsHeld ∨
    (report.exitReason = some .endOfData ∧ k ≤ entryIdx + report.barsHeld + 1)

/-- A simulation at a bar comes to that bar, or to the end of the data. -/
theorem simulateBars_late {t : Trade} {entryIdx : ℕ} {h : Holding} {j : ℕ}
    (hj : entryIdx + h.barsHeld + 1 = j) {rest : List Candle}
    (hrest : rest = [] → h.barsHeld = 0) :
    Late j entryIdx (e.simulateBars t h j rest) := by
  induction rest generalizing h j with
  | nil =>
      have hzero := hrest rfl
      refine Or.inr ⟨rfl, ?_⟩
      change j ≤ entryIdx + 0 + 1
      omega
  | cons candle rest ih =>
      have hbars := e.simulateBar_barsHeld t h j candle
      rw [simulateBars]
      cases hbar : e.simulateBar t h j candle with
      | close price reason h' =>
          rw [hbar] at hbars
          change h'.barsHeld = h.barsHeld + 1 at hbars
          refine Or.inl ?_
          change j ≤ entryIdx + h'.barsHeld
          omega
      | hold h' =>
          rw [hbar] at hbars
          change h'.barsHeld = h.barsHeld + 1 at hbars
          dsimp only
          split_ifs with hlast
          · refine Or.inl ?_
            change j ≤ entryIdx + h'.barsHeld
            omega
          · have hnext : Late (j + 1) entryIdx (e.simulateBars t h' (j + 1) rest) :=
              ih (by omega) fun hnil => absurd hnil hlast
            rcases hnext with hheld | ⟨hend, hheld⟩
            · exact Or.inl (by omega)
            · exact Or.inl (by omega)

/-- A trade held at bar `j` comes behind it, or to the end of the data there. -/
theorem held_late {t : Trade} {entryIdx : ℕ} {h : Holding} {j : ℕ}
    (hj : entryIdx + h.barsHeld = j) (candle : Candle) (rest : List Candle) :
    Late (j + 1) entryIdx
      (if rest = [] then
        e.buildReport t candle.close .endOfData candle.ts h.barsHeld h.accumulatedFunding
      else e.simulateBars t h (j + 1) rest) := by
  split_ifs with hlast
  · refine Or.inr ⟨rfl, ?_⟩
    change j + 1 ≤ entryIdx + h.barsHeld + 1
    omega
  · exact simulateBars_late (by omega) fun hnil => absurd hnil hlast

/-- Arrays with a common beginning end together, or not within it. -/
theorem nil_or_of_take_eq {α : Type*} {xs ys : List α} {n : ℕ}
    (h : xs.take (n + 1) = ys.take (n + 1)) :
    (xs = [] ∧ ys = []) ∨
      ∃ x xs' ys', xs = x :: xs' ∧ ys = x :: ys' ∧ xs'.take n = ys'.take n := by
  cases xs with
  | nil =>
      cases ys with
      | nil => exact Or.inl ⟨rfl, rfl⟩
      | cons y ys => simp at h
  | cons x xs =>
      cases ys with
      | nil => simp at h
      | cons y ys =>
          simp only [List.take_succ_cons, List.cons.injEq] at h
          rcases h with ⟨rfl, hrest⟩
          exact Or.inr ⟨x, xs, ys, rfl, rfl, hrest⟩

/-- On arrays that agree before bar `k` a simulation gives the same report, or one that is
not settled before bar `k` on either. -/
theorem simulateBars_agree {t : Trade} {entryIdx k m : ℕ} {h : Holding} {j : ℕ}
    (hj : entryIdx + h.barsHeld + 1 = j) (hk : j + m = k) {xs ys : List Candle}
    (hagree : xs.take m = ys.take m) (hxs : xs = [] → h.barsHeld = 0)
    (hys : ys = [] → h.barsHeld = 0) :
    e.simulateBars t h j xs = e.simulateBars t h j ys ∨
      (Late k entryIdx (e.simulateBars t h j xs) ∧
        Late k entryIdx (e.simulateBars t h j ys)) := by
  induction m generalizing h j xs ys with
  | zero =>
      rw [Nat.add_zero] at hk
      subst hk
      exact Or.inr ⟨simulateBars_late hj hxs, simulateBars_late hj hys⟩
  | succ m ih =>
      rcases nil_or_of_take_eq hagree with ⟨rfl, rfl⟩ | ⟨candle, xs', ys', rfl, rfl, hrest⟩
      · exact Or.inl rfl
      · have hbars := e.simulateBar_barsHeld t h j candle
        rw [simulateBars, simulateBars]
        cases hbar : e.simulateBar t h j candle with
        | close price reason h' => exact Or.inl rfl
        | hold h' =>
            rw [hbar] at hbars
            change h'.barsHeld = h.barsHeld + 1 at hbars
            dsimp only
            cases m with
            | zero =>
                subst hk
                exact Or.inr ⟨held_late (by omega) candle xs', held_late (by omega) candle ys'⟩
            | succ m =>
                have hnil : xs' = [] ↔ ys' = [] := by
                  rcases nil_or_of_take_eq hrest with ⟨hx, hy⟩ | ⟨x, xs, ys, hx, hy, _⟩
                  · simp [hx, hy]
                  · simp [hx, hy]
                by_cases hx : xs' = []
                · rw [if_pos hx, if_pos (hnil.1 hx)]
                  exact Or.inl rfl
                · rw [if_neg hx, if_neg (mt hnil.2 hx)]
                  exact ih (by omega) (by omega) hrest (fun h => absurd h hx)
                    fun h => absurd h (mt hnil.2 hx)

/-! ## One bar of two arrays -/

variable {xs ys : List Candle} {k : ℕ}

/-- Below the common beginning's end both arrays have a bar, or neither has. -/
theorem inside_iff {s t : Replay} (hagree : xs.take k = ys.take k) (hidx : s.idx = t.idx)
    (hk : s.idx < k) : Inside xs s ↔ Inside ys t := by
  have hlength := congrArg List.length hagree
  rw [List.length_take, List.length_take] at hlength
  unfold Inside
  omega

/-- Shorter beginnings are common too. -/
theorem take_eq_of_le {α : Type*} {xs ys : List α} {i k : ℕ} (hagree : xs.take k = ys.take k)
    (hi : i ≤ k) : xs.take i = ys.take i := by
  have htake := congrArg (List.take i) hagree
  rwa [List.take_take, List.take_take, min_eq_left hi] at htake

/-- The views of a common bar differ in what lies behind it only. -/
theorem viewAt_agree (e : BacktestEngine) (job : Job) (hagree : xs.take k = ys.take k) {i : ℕ}
    (hk : i < k) (hinside : i < xs.length) :
    ∃ v : BarView, e.viewAt job xs i = some { v with rest := xs.drop (i + 1) } ∧
      e.viewAt job ys i = some { v with rest := ys.drop (i + 1) } := by
  have hprefix : xs.take (i + 1) = ys.take (i + 1) := take_eq_of_le hagree hk
  have hbar : xs[i]? = ys[i]? := by
    have hget := congrArg (fun l => l[i]?) hprefix
    simpa using hget
  have hx : xs[i]? = some xs[i] := List.getElem?_eq_getElem hinside
  have hys : i < ys.length := (List.getElem?_eq_some_iff.1 (hbar ▸ hx)).1
  have hatr : (TrueRange.backtestAtrArray TrueRange.atrPeriod xs).getD i 0 =
      (TrueRange.backtestAtrArray TrueRange.atrPeriod ys).getD i 0 := by
    rw [List.getD_eq_getElem?_getD, List.getD_eq_getElem?_getD,
      TrueRange.backtestAtrArray_getElem? _ _ hinside,
      TrueRange.backtestAtrArray_getElem? _ _ hys, hprefix]
  unfold viewAt
  rw [← hbar, hx, Option.map_some, Option.map_some, ← hprefix, ← hatr]
  exact ⟨⟨_, e.classify (snapshot job (xs.take (i + 1)) xs[i].ts), xs[i], [], _⟩, rfl, rfl⟩

/-- Behind the same entry two arrays give the same decision, or neither is settled. -/
theorem entered_agree (e : BacktestEngine) (job : Job) (hagree : xs.take k = ys.take k)
    {i : ℕ} (hk : i < k) (v : BarView) (direction : Side) :
    e.entered job { v with rest := xs.drop (i + 1) } i direction =
        e.entered job { v with rest := ys.drop (i + 1) } i direction ∨
      (Late k i (e.entered job { v with rest := xs.drop (i + 1) } i direction).report ∧
        Late k i (e.entered job { v with rest := ys.drop (i + 1) } i direction).report) := by
  have hrest : (xs.drop (i + 1)).take (k - (i + 1)) = (ys.drop (i + 1)).take (k - (i + 1)) := by
    rw [← List.drop_take, ← List.drop_take, hagree]
  have hstart : ∀ t, i + (startHolding t i).barsHeld + 1 = i + 1 := fun _ => rfl
  rcases simulateBars_agree (e := e) (hstart (e.openTrade job.symbol direction v.regime
      (e.evaluateSignal v.snapshot v.regime direction).1 v.entryCandle v.atr))
    (Nat.add_sub_cancel' hk) hrest (fun _ => rfl) (fun _ => rfl) with hsame | hlate
  · refine Or.inl ?_
    unfold entered simulateTrade
    rw [hsame]
  · exact Or.inr hlate

/-! ## Two replays side by side -/

/-- The decision is made before bar `k`, and its trade ends before it, other than with the
data. -/
def Settled (k : ℕ) (d : Decision) : Prop :=
  d.bar < k ∧ (d.report.tradeTaken = true →
    d.bar + d.report.barsHeld < k ∧ d.report.exitReason ≠ some .endOfData)

instance (k : ℕ) : DecidablePred (Settled k) :=
  fun d => inferInstanceAs (Decidable (d.bar < k ∧ (d.report.tradeTaken = true →
    d.bar + d.report.barsHeld < k ∧ d.report.exitReason ≠ some .endOfData)))

/-- The settled decisions of a replay. -/
def settled (k : ℕ) (decisions : List Decision) : List Decision :=
  decisions.filter fun d => decide (Settled k d)

/-- Both replays have settled the same decisions, and they are at the same bar unless both
are past the common beginning. -/
structure InStep (k : ℕ) (s t : Replay) : Prop where
  sameSettled : settled k s.decisions = settled k t.decisions
  sameIdx : s.idx = t.idx ∨ (k ≤ s.idx ∧ k ≤ t.idx)

theorem settled_append (k : ℕ) (decisions added : List Decision) :
    settled k (decisions ++ added) = settled k decisions ++ settled k added :=
  List.filter_append ..

/-- Decisions at bars past the common beginning are not settled. -/
theorem settled_append_of_le {decisions added : List Decision} (h : ∀ d ∈ added, k ≤ d.bar) :
    settled k (decisions ++ added) = settled k decisions := by
  have hnone : settled k added = [] := by
    rw [settled, List.filter_eq_nil_iff]
    intro d hd hsettled
    exact absurd (of_decide_eq_true hsettled).1 (not_lt.2 (h d hd))
  rw [settled_append, hnone, List.append_nil]

/-- Nor is a late one. -/
theorem settled_append_late {decisions : List Decision} {d : Decision}
    (htaken : d.report.tradeTaken = true) (hlate : Late k d.bar d.report) :
    settled k (decisions ++ [d]) = settled k decisions := by
  have hnot : ¬ Settled k d := by
    rintro ⟨_, hends⟩
    rcases hends htaken with ⟨hbefore, hreason⟩
    rcases hlate with hheld | ⟨hend, _⟩
    · omega
    · exact hreason hend
  have hnone : settled k [d] = [] := List.filter_cons_of_neg (by simpa using hnot)
  rw [settled_append, hnone, List.append_nil]

/-- A late trade leads past the common beginning. -/
theorem le_behind_of_late {d : Decision} (hlate : Late k d.bar d.report) : k ≤ behind d := by
  unfold behind
  rcases hlate with hheld | ⟨_, hheld⟩ <;> omega

/-- A pass adds decisions at its bar only, and does not go back. -/
theorem pass_adds {s : Replay} (hinside : Inside xs s) :
    s.idx ≤ (e.pass job xs s).idx ∧
      ∃ added, (e.pass job xs s).decisions = s.decisions ++ added ∧ ∀ d ∈ added, d.bar = s.idx := by
  rcases e.viewAt_of_inside job hinside with ⟨v, hview⟩
  rw [pass_eq e job hview]
  cases (determineDirections v.regime).find? (e.enters job v) with
  | some direction =>
      refine ⟨?_, _, List.append_assoc _ _ _, ?_⟩
      · have hbehind := lt_behind (e.entered job v s.idx direction)
        have hbar : (e.entered job v s.idx direction).bar = s.idx := rfl
        dsimp only
        omega
      · intro d hd
        rcases List.mem_append.1 hd with hrejected | hentered
        · exact (e.not_taken_of_mem_rejections job hrejected).1
        · rw [List.mem_singleton.1 hentered]
          rfl
  | none =>
      refine ⟨?_, _, rfl, fun d hd => (e.not_taken_of_mem_rejections job hd).1⟩
      dsimp only
      split_ifs <;> omega

/-- Past the common beginning a replay settles nothing more. -/
theorem pass_past (e : BacktestEngine) (job : Job) (xs : List Candle) {s : Replay}
    (hk : k ≤ s.idx) :
    settled k (if Inside xs s then e.pass job xs s else s).decisions = settled k s.decisions ∧
      k ≤ (if Inside xs s then e.pass job xs s else s).idx := by
  split_ifs with hinside
  · rcases pass_adds hinside with ⟨hle, added, hadded, hbars⟩
    rw [hadded]
    exact ⟨settled_append_of_le fun d hd => (hbars d hd).symm ▸ hk, hk.trans hle⟩
  · exact ⟨rfl, hk⟩

/-- Without live gates no direction is gated. -/
theorem gatedCount_eq_zero (hgates : e.enableLiveGates = false) (v : BarView) :
    e.gatedCount job v = 0 := by
  rw [gatedCount, List.countP_eq_zero]
  simp [skips, hgates]

/-- A pass without live gates, for a view whose rest is exchanged. -/
theorem pass_ungated (hgates : e.enableLiveGates = false) {s : Replay} {v : BarView}
    {rest : List Candle} (hview : e.viewAt job xs s.idx = some { v with rest := rest }) :
    e.pass job xs s =
      match (determineDirections v.regime).find? (e.enters job v) with
      | some direction =>
          ⟨behind (e.entered job { v with rest := rest } s.idx direction),
            s.decisions ++ e.rejections job v s.idx (determineDirections v.regime) ++
              [e.entered job { v with rest := rest } s.idx direction]⟩
      | none =>
          ⟨s.idx + 1, s.decisions ++ e.rejections job v s.idx (determineDirections v.regime)⟩ := by
  rw [pass_eq e job hview, gatedCount_eq_zero hgates, takenLately_zero]
  rfl

/-- One pass of both replays keeps them in step. -/
theorem InStep.pass (hgates : e.enableLiveGates = false) (hagree : xs.take k = ys.take k)
    {s t : Replay} (h : InStep k s t) :
    InStep k (if Inside xs s then e.pass job xs s else s)
      (if Inside ys t then e.pass job ys t else t) := by
  by_cases hpast : k ≤ s.idx ∧ k ≤ t.idx
  · have hs := pass_past e job xs hpast.1
    have ht := pass_past e job ys hpast.2
    exact ⟨hs.1.trans (h.sameSettled.trans ht.1.symm), Or.inr ⟨hs.2, ht.2⟩⟩
  · have hidx : s.idx = t.idx := h.sameIdx.resolve_right hpast
    have hk : s.idx < k := by omega
    have hboth := inside_iff hagree hidx hk
    by_cases hinside : Inside xs s
    · rw [if_pos hinside, if_pos (hboth.1 hinside)]
      rcases viewAt_agree e job hagree hk hinside with ⟨v, hxs, hys⟩
      have hentered := entered_agree e job hagree hk v
      rw [hidx] at hys
      rw [pass_ungated hgates hxs, pass_ungated hgates hys, ← hidx]
      cases (determineDirections v.regime).find? (e.enters job v) with
      | none =>
          refine ⟨?_, Or.inl rfl⟩
          dsimp only
          rw [settled_append, settled_append, h.sameSettled]
      | some direction =>
          have hrejected : settled k
              (s.decisions ++ e.rejections job v s.idx (determineDirections v.regime)) =
              settled k
                (t.decisions ++ e.rejections job v s.idx (determineDirections v.regime)) := by
            rw [settled_append, settled_append, h.sameSettled]
          rcases hentered direction with hsame | ⟨hx, hy⟩
          · dsimp only
            rw [hsame]
            refine ⟨?_, Or.inl rfl⟩
            dsimp only
            rw [settled_append k (s.decisions ++ _), settled_append k (t.decisions ++ _),
              hrejected]
          · refine ⟨?_, Or.inr ⟨le_behind_of_late hx, le_behind_of_late hy⟩⟩
            exact (settled_append_late (e.entered_taken job _ _ _) hx).trans
              (hrejected.trans (settled_append_late (e.entered_taken job _ _ _) hy).symm)
    · rw [if_neg hinside, if_neg (mt hboth.2 hinside)]
      exact h

/-! ## Whole replays -/

/-- What `run` returns is what the replay has gathered when it ends. -/
theorem returns_iff {candles : List Candle} {decisions : List Decision} :
    e.Returns job candles decisions ↔
      ∃ n, ¬ Inside candles (e.replay job candles n) ∧
        decisions = (e.replay job candles n).decisions := by
  unfold Returns
  split_ifs with hshort
  · have hout : ¬ Inside candles start := by
      intro hinside
      have hlt : 50 < candles.length := hinside
      omega
    have hstay : ∀ n, e.replay job candles n = start := passes_of_not_guard hout
    simp only [hstay]
    exact ⟨fun h => ⟨0, hout, h⟩, fun ⟨_, _, h⟩ => h⟩
  · exact Iff.rfl

/-- Without live gates the replay ends. -/
theorem exists_returns (hgates : e.enableLiveGates = false) (candles : List Candle) :
    ∃ decisions, e.Returns job candles decisions := by
  have hfree : EveryPass (Inside candles) (e.pass job candles)
      (e.Unobstructed job candles) start := by
    intro n _ v _
    rw [gatedCount_eq_zero hgates]
    exact Or.inr (takenLately_zero _)
  rcases ((replay_advances_iff e job candles).1.2 hfree).1 with ⟨n, hn⟩
  exact ⟨_, returns_iff.2 ⟨n, hn, rfl⟩⟩

/-- Trades so far, one behind the other, and all of them behind the current bar. -/
structure Consecutive (s : Replay) : Prop where
  before : ∀ d ∈ s.decisions, d.report.tradeTaken = true → d.bar + d.report.barsHeld < s.idx
  ordered : (s.decisions.filter fun d => d.report.tradeTaken).Pairwise
    fun a b => a.bar + a.report.barsHeld < b.bar

/-- Rejections add no trade. -/
theorem Consecutive.rejected {s : Replay} (h : Consecutive s) {rejected : List Decision}
    (hrejected : ∀ d ∈ rejected, d.report.tradeTaken = false) {idx : ℕ} (hidx : s.idx ≤ idx) :
    Consecutive ⟨idx, s.decisions ++ rejected⟩ := by
  have hnone : rejected.filter (fun d => d.report.tradeTaken) = [] := by
    rw [List.filter_eq_nil_iff]
    intro d hd
    simp [hrejected d hd]
  constructor
  · intro d hd htaken
    rcases List.mem_append.1 hd with hold | hnew
    · exact (h.before d hold htaken).trans_le hidx
    · rw [hrejected d hnew] at htaken
      contradiction
  · rw [List.filter_append, hnone, List.append_nil]
    exact h.ordered

/-- A trade at the current bar lies behind all others. -/
theorem Consecutive.taken {s : Replay} (h : Consecutive s) {d : Decision}
    (hbar : d.bar = s.idx) : Consecutive ⟨behind d, s.decisions ++ [d]⟩ := by
  have hbehind := lt_behind d
  constructor
  · intro c hc htaken
    rcases List.mem_append.1 hc with hold | hnew
    · have hbefore := h.before c hold htaken
      dsimp only
      omega
    · rw [List.mem_singleton.1 hnew]
      exact hbehind
  · rw [List.filter_append, List.pairwise_append]
    refine ⟨h.ordered, (List.pairwise_singleton _ _).filter _, ?_⟩
    intro a ha b hb
    have hb' := List.mem_singleton.1 (List.mem_of_mem_filter hb)
    rw [hb', hbar]
    exact h.before a (List.mem_of_mem_filter ha) (List.mem_filter.1 ha).2

/-- A pass enters at most one trade, at its bar. -/
theorem Consecutive.pass {candles : List Candle} {s : Replay} (hinside : Inside candles s)
    (h : Consecutive s) : Consecutive (e.pass job candles s) := by
  rcases e.viewAt_of_inside job hinside with ⟨v, hview⟩
  have hrejected : ∀ idx directions, ∀ d ∈ e.rejections job v idx directions,
      d.report.tradeTaken = false :=
    fun _ _ _ hd => (e.not_taken_of_mem_rejections job hd).2
  rw [pass_eq e job hview]
  cases (determineDirections v.regime).find? (e.enters job v) with
  | some direction => exact (h.rejected (hrejected _ _) le_rfl).taken rfl
  | none =>
      refine h.rejected (hrejected _ _) ?_
      split_ifs
      · exact le_rfl
      · exact Nat.le_succ _

/-- Trades are entered one behind the other. -/
theorem Returns.consecutive {candles : List Candle} {decisions : List Decision}
    (h : e.Returns job candles decisions) :
    (decisions.filter fun d => d.report.tradeTaken).Pairwise
      fun a b => a.bar + a.report.barsHeld < b.bar := by
  rcases returns_iff.1 h with ⟨n, _, rfl⟩
  have hstart : Consecutive start := ⟨by simp [start], by simp [start]⟩
  have hbody : ∀ s, Inside candles s → Consecutive s → Consecutive (e.pass job candles s) :=
    fun _ => Consecutive.pass
  exact (passes_invariant hbody hstart n).ordered

/-- Without live gates `run` returns, and arrays that agree before bar `k` give the same
decisions before it among those that are rejections or whose trades end before bar `k`,
except the trades that end with the data.  Trades hold disjoint intervals of bars. -/
theorem returns_agree (e : BacktestEngine) (job : Job) (hgates : e.enableLiveGates = false)
    (xs ys : List Candle) (k : ℕ) (hagree : xs.take k = ys.take k) :
    (∃ decisions, e.Returns job xs decisions) ∧ (∃ decisions, e.Returns job ys decisions) ∧
      ∀ ds ds', e.Returns job xs ds → e.Returns job ys ds' →
        settled k ds = settled k ds' ∧
        (ds.filter fun d => d.report.tradeTaken).Pairwise
          fun a b => a.bar + a.report.barsHeld < b.bar := by
  refine ⟨exists_returns hgates xs, exists_returns hgates ys, ?_⟩
  intro ds ds' hds hds'
  refine ⟨?_, hds.consecutive⟩
  rcases returns_iff.1 hds with ⟨m, hm, rfl⟩
  rcases returns_iff.1 hds' with ⟨n, hn, rfl⟩
  have hstart : InStep k start start := ⟨rfl, Or.inl rfl⟩
  have hlock : InStep k (e.replay job xs (max m n)) (e.replay job ys (max m n)) :=
    passes_related (fun _ _ => InStep.pass hgates hagree) hstart (max m n)
  have hxs : e.replay job xs (max m n) = e.replay job xs m :=
    passes_of_halted hm (le_max_left m n)
  have hys : e.replay job ys (max m n) = e.replay job ys n :=
    passes_of_halted hn (le_max_right m n)
  rw [← hxs, ← hys]
  exact hlock.sameSettled

/-! ## A trade that ends with the data -/

/-- Candles around a steady price. -/
def swings (n : ℕ) : List Candle :=
  (List.range n).map fun i => ⟨3600000 * i, 100, 101, 99, 100, 0⟩

/-- The engine that enters wherever it may, without live gates. -/
def ungatedEngine : BacktestEngine :=
  { eagerEngine with enableLiveGates := false }

/-- Sixty candles that leave the steady price at bar 55. -/
def swingsThenRise : List Candle :=
  swings 55 ++ (List.range 5).map fun i => (⟨3600000 * (55 + i), 104, 112, 104, 111, 0⟩ : Candle)

/-- Both arrays settle the trade of bar 50 alike, and go on differently. -/
theorem returns_agree_swingsThenRise :
    ∃ ds ds', ungatedEngine.Returns altcoinJob (swings 60) ds ∧
      ungatedEngine.Returns altcoinJob swingsThenRise ds' ∧ ds ≠ ds' ∧
      settled 55 ds = settled 55 ds' ∧ (settled 55 ds).map Decision.bar = [50] := by
  have hds : ungatedEngine.Returns altcoinJob (swings 60)
      (ungatedEngine.replay altcoinJob (swings 60) 2).decisions :=
    returns_iff.2 ⟨2, by decide +kernel, rfl⟩
  have hds' : ungatedEngine.Returns altcoinJob swingsThenRise
      (ungatedEngine.replay altcoinJob swingsThenRise 6).decisions :=
    returns_iff.2 ⟨6, by decide +kernel, rfl⟩
  have hagree := returns_agree ungatedEngine altcoinJob rfl (swings 60) swingsThenRise 55
    (by decide +kernel)
  exact ⟨_, _, hds, hds', by decide +kernel, (hagree.2.2 _ _ hds hds').1, by decide +kernel⟩

/-- The decision is made before bar `k`, and its trade ends before it in any way. -/
def EndsBefore (k : ℕ) (d : Decision) : Prop :=
  d.bar < k ∧ (d.report.tradeTaken = true → d.bar + d.report.barsHeld < k)

instance (k : ℕ) : DecidablePred (EndsBefore k) :=
  fun d => inferInstanceAs
    (Decidable (d.bar < k ∧ (d.report.tradeTaken = true → d.bar + d.report.barsHeld < k)))

/-- The trade entered at bar 50 ends at bar 51 where the array does, and at bar 54 where the
array goes on. -/
theorem returns_differ_at_end_of_data :
    ungatedEngine.enableLiveGates = false ∧ (swings 52).take 52 = (swings 60).take 52 ∧
      ¬ ∀ ds ds', ungatedEngine.Returns altcoinJob (swings 52) ds →
        ungatedEngine.Returns altcoinJob (swings 60) ds' →
        ds.filter (fun d => decide (EndsBefore 52 d)) =
          ds'.filter (fun d => decide (EndsBefore 52 d)) := by
  refine ⟨rfl, by decide +kernel, fun h => ?_⟩
  have hsame := h _ _ (returns_iff.2 ⟨1, by decide +kernel, rfl⟩)
    (returns_iff.2 ⟨2, by decide +kernel, rfl⟩)
  revert hsame
  decide +kernel

end BacktestEngine
end Backtest
end Karsa
