import Karsa.Backtest.Termination

/-!
# Backtests - Exit prices

A simulated trade is closed at the close of a bar, or at its stop or target when the extreme of
the bar has reached it.  The engine fills these two at their own price, also on a bar that lies
beyond them altogether.

Main results:

- Theorem `simulateBar_close`: the price at which one bar closes a trade.
- Theorem `simulateTrade_closesBehind`: the price of every exit was traded in its bar, or is that
  of a stop or target that the market has jumped over.
-/

namespace Karsa
namespace Backtest
namespace BacktestEngine

open MarketFeed (Candle)

/-! ## Bars and levels -/

/-- Open and close lie between low and high. -/
structure WellFormedBar (candle : Candle) : Prop where
  low_opening : candle.low ≤ candle.opening
  opening_high : candle.opening ≤ candle.high
  low_close : candle.low ≤ candle.close
  close_high : candle.close ≤ candle.high

/-- The price was traded in the bar. -/
def Traded (candle : Candle) (price : ℚ) : Prop :=
  candle.low ≤ price ∧ price ≤ candle.high

/-- A price has reached the stop of the trade. -/
def ReachesStop (t : Trade) (price : ℚ) : Prop :=
  match t.direction with
  | .LONG => price ≤ t.slPrice
  | .SHORT => t.slPrice ≤ price

/-- The whole bar lies on the losing side of a stop, or on the winning side of a target: the
market has jumped over the level. -/
def JumpedOver (t : Trade) (candle : Candle) (reason : ExitReason) (level : ℚ) : Prop :=
  match reason, t.direction with
  | .slHit, .LONG | .tpHit, .SHORT => candle.high < level
  | .slHit, .SHORT | .tpHit, .LONG => level < candle.low
  | _, _ => False

/-- The level of an exit that is filled at one. -/
def levelOf (t : Trade) : ExitReason → Option ℚ
  | .slHit => some t.slPrice
  | .tpHit => t.tpPrice
  | .timeExit | .endOfData => none

/-- How a trade can be closed in its bar: at a price that was traded there; at a level which
the market has jumped over; or, in the first bar, at a stop that the entry price had reached
already. -/
inductive ExitIn (t : Trade) (candle : Candle) (barsHeld : ℕ) (reason : ExitReason) (price : ℚ) :
    Prop where
  | traded (h : Traded candle price) : ExitIn t candle barsHeld reason price
  | jumped (hlevel : levelOf t reason = some price) (h : JumpedOver t candle reason price) :
      ExitIn t candle barsHeld reason price
  | atEntry (hreason : reason = .slHit) (hprice : price = t.slPrice) (hfirst : barsHeld = 1)
      (h : ReachesStop t t.entryPrice) : ExitIn t candle barsHeld reason price

/-! ## One bar -/

/-- The worst price has not reached the stop, unless it is still the entry price. -/
def Unstopped (t : Trade) (h : Holding) : Prop :=
  ReachesStop t h.worstPrice → h.barsHeld = 0 ∧ h.worstPrice = t.entryPrice

theorem slHit_iff {t : Trade} {h : Holding} : slHit t h = true ↔ ReachesStop t h.worstPrice := by
  unfold slHit ReachesStop
  cases t.direction <;> exact decide_eq_true_iff

/-- A stop that is hit was reached in the bar, or by the entry price. -/
theorem slHit_observe {t : Trade} {h : Holding} (hopen : Unstopped t h) {candle : Candle}
    (hhit : slHit t (observe t.direction candle h) = true) :
    ExitIn t candle (h.barsHeld + 1) .slHit t.slPrice := by
  rw [slHit_iff] at hhit
  by_cases hbefore : ReachesStop t h.worstPrice
  · rcases hopen hbefore with ⟨hzero, hentry⟩
    rw [hentry] at hbefore
    exact .atEntry rfl rfl (by rw [hzero]) hbefore
  · unfold ReachesStop at hhit hbefore
    unfold observe at hhit
    cases hside : t.direction with
    | LONG =>
        rw [hside] at hhit hbefore
        dsimp only at hhit hbefore
        have hlow : candle.low ≤ t.slPrice := (min_le_iff.mp hhit).resolve_left hbefore
        by_cases hhigh : t.slPrice ≤ candle.high
        · exact .traded ⟨hlow, hhigh⟩
        · refine .jumped rfl ?_
          unfold JumpedOver
          rw [hside]
          exact not_le.mp hhigh
    | SHORT =>
        rw [hside] at hhit hbefore
        dsimp only at hhit hbefore
        have hhigh : t.slPrice ≤ candle.high := (le_max_iff.mp hhit).resolve_left hbefore
        by_cases hlow : candle.low ≤ t.slPrice
        · exact .traded ⟨hlow, hhigh⟩
        · refine .jumped rfl ?_
          unfold JumpedOver
          rw [hside]
          exact not_le.mp hlow

/-- A target that is hit was reached in the bar. -/
theorem tpHit_exit {t : Trade} {candle : Candle} {target : ℚ} (htarget : t.tpPrice = some target)
    (hhit : tpHit t candle target = true) (barsHeld : ℕ) :
    ExitIn t candle barsHeld .tpHit target := by
  unfold tpHit at hhit
  cases hside : t.direction with
  | LONG =>
      rw [hside] at hhit
      have hhigh : target ≤ candle.high := of_decide_eq_true hhit
      by_cases hlow : candle.low ≤ target
      · exact .traded ⟨hlow, hhigh⟩
      · refine .jumped htarget ?_
        unfold JumpedOver
        rw [hside]
        exact not_le.mp hlow
  | SHORT =>
      rw [hside] at hhit
      have hlow : candle.low ≤ target := of_decide_eq_true hhit
      by_cases hhigh : target ≤ candle.high
      · exact .traded ⟨hlow, hhigh⟩
      · refine .jumped htarget ?_
        unfold JumpedOver
        rw [hside]
        exact not_le.mp hhigh

variable (e : BacktestEngine)

/-- What a bar does to a trade whose stop has not been reached: it closes it in one of these
ways, or leaves its stop unreached. -/
theorem simulateBar_close {t : Trade} {h : Holding} (hopen : Unstopped t h) (j : ℕ)
    {candle : Candle} (hbar : WellFormedBar candle) :
    match e.simulateBar t h j candle with
    | .close price reason _ => ExitIn t candle (h.barsHeld + 1) reason price
    | .hold h' => Unstopped t h' := by
  rw [simulateBar]
  dsimp only
  cases hsl : slHit t (observe t.direction candle h) with
  | true => exact slHit_observe hopen hsl
  | false =>
      rw [if_neg Bool.false_ne_true]
      cases htp : t.tpPrice.filter (tpHit t candle) with
      | some target =>
          rw [Option.filter_eq_some_iff] at htp
          exact tpHit_exit htp.1 htp.2 _
      | none =>
          dsimp only
          split_ifs
          · exact .traded ⟨hbar.low_close, hbar.close_high⟩
          · intro hreached
            have hworst : (e.chargeFunding t j (observe t.direction candle h)).worstPrice =
                (observe t.direction candle h).worstPrice := by
              unfold chargeFunding
              split_ifs <;> rfl
            rw [hworst, ← slHit_iff, hsl] at hreached
            cases hreached

/-! ## A whole trade -/

/-- The report closes the trade at one of the bars, in one of these ways. -/
def ClosesAt (t : Trade) (rest : List Candle) (earlier : ℕ) (report : BacktestReport) : Prop :=
  ∃ k candle reason price, rest[k]? = some candle ∧ report.barsHeld = earlier + k + 1 ∧
    report.exitTime = some candle.ts ∧ report.exitReason = some reason ∧
      report.exitPrice = some price ∧ ExitIn t candle report.barsHeld reason price

/-- The loop closes the trade so at one of the bars that it is given. -/
theorem simulateBars_closesAt {t : Trade} {h : Holding} (hopen : Unstopped t h) (j : ℕ)
    {rest : List Candle} (hrest : rest ≠ []) (hbars : ∀ candle ∈ rest, WellFormedBar candle) :
    ClosesAt t rest h.barsHeld (e.simulateBars t h j rest) := by
  induction rest generalizing h j with
  | nil => exact absurd rfl hrest
  | cons candle rest ih =>
      have hbar := hbars candle List.mem_cons_self
      have hcount := e.simulateBar_barsHeld t h j candle
      have hstep := e.simulateBar_close hopen j hbar
      rw [simulateBars]
      cases houtcome : e.simulateBar t h j candle with
      | close price reason h' =>
          rw [houtcome] at hcount hstep
          change h'.barsHeld = h.barsHeld + 1 at hcount
          refine ⟨0, candle, reason, price, rfl, hcount, rfl, rfl, rfl, ?_⟩
          change ExitIn t candle h'.barsHeld reason price
          rw [hcount]
          exact hstep
      | hold h' =>
          rw [houtcome] at hcount hstep
          change h'.barsHeld = h.barsHeld + 1 at hcount
          dsimp only
          split_ifs with hlast
          · exact ⟨0, candle, .endOfData, candle.close, rfl, hcount, rfl, rfl, rfl,
              .traded ⟨hbar.low_close, hbar.close_high⟩⟩
          · have hlater := ih hstep (j + 1) hlast fun c hc => hbars c (List.mem_cons_of_mem _ hc)
            rcases hlater with ⟨k, closing, reason, price, hk, hheld, htime, hreason, hprice, hexit⟩
            refine ⟨k + 1, closing, reason, price, hk, ?_, htime, hreason, hprice, hexit⟩
            rw [hheld, hcount]
            omega

/-- The report closes the trade at a bar of the array behind its entry, in one of these ways. -/
def ClosesBehind (t : Trade) (candles : List Candle) (entryIdx : ℕ) (report : BacktestReport) :
    Prop :=
  0 < report.barsHeld ∧ ∃ candle reason price, candles[entryIdx + report.barsHeld]? = some candle ∧
    report.exitTime = some candle.ts ∧ report.exitReason = some reason ∧
      report.exitPrice = some price ∧ ExitIn t candle report.barsHeld reason price

/-- So does the report of every trade with bars behind its entry. -/
theorem simulateTrade_closesBehind (t : Trade) (candles : List Candle) (entryIdx : ℕ)
    (hbehind : entryIdx + 1 < candles.length) (hbars : ∀ candle ∈ candles, WellFormedBar candle) :
    ClosesBehind t candles entryIdx
      (e.simulateTrade t entryIdx (candles.drop (entryIdx + 1))) := by
  have hrest : candles.drop (entryIdx + 1) ≠ [] := by
    rw [ne_eq, List.drop_eq_nil_iff]
    omega
  have hstart : Unstopped t (startHolding t entryIdx) := fun _ => ⟨rfl, rfl⟩
  rcases e.simulateBars_closesAt hstart (entryIdx + 1) hrest
      (fun c hc => hbars c (List.mem_of_mem_drop hc)) with
    ⟨k, candle, reason, price, hk, hheld, htime, hreason, hprice, hexit⟩
  change (e.simulateTrade t entryIdx (candles.drop (entryIdx + 1))).barsHeld = 0 + k + 1 at hheld
  refine ⟨by omega, candle, reason, price, ?_, htime, hreason, hprice, hexit⟩
  rw [List.getElem?_drop] at hk
  rw [hheld, ← hk]
  congr 1
  omega

/-! ## A gap -/

/-- An hourly candle at 100, and one behind a gap, at 50. -/
def gapCandles : List Candle :=
  [⟨0, 100, 100, 100, 100, 0⟩, ⟨3600000, 50, 60, 40, 50, 0⟩]

/-- A long that is entered at the first one, with an average true range of two. -/
def gapTrade : Trade :=
  eagerEngine.openTrade "SOL/USDT".toList .LONG .RANGE 100 ⟨0, 100, 100, 100, 100, 0⟩ 2

theorem gapCandles_wellFormed : ∀ candle ∈ gapCandles, WellFormedBar candle := by
  intro candle hcandle
  rw [gapCandles, List.mem_cons, List.mem_singleton] at hcandle
  rcases hcandle with rfl | rfl <;> constructor <;> norm_num

/-- It is closed at the second one. -/
theorem gapTrade_closesBehind :
    ClosesBehind gapTrade gapCandles 0 (eagerEngine.simulateTrade gapTrade 0 (gapCandles.drop 1)) :=
  eagerEngine.simulateTrade_closesBehind gapTrade gapCandles 0 (by decide) gapCandles_wellFormed

/-- Its stop is filled above the high of that bar. -/
theorem gapTrade_filled_above_high :
    (∀ candle ∈ gapCandles, WellFormedBar candle) ∧
      (eagerEngine.simulateTrade gapTrade 0 (gapCandles.drop 1)).barsHeld = 1 ∧
        (eagerEngine.simulateTrade gapTrade 0 (gapCandles.drop 1)).exitPrice =
            some gapTrade.slPrice ∧
          ∃ candle, gapCandles[1]? = some candle ∧ candle.high < gapTrade.slPrice := by
  refine ⟨gapCandles_wellFormed, by decide +kernel, by decide +kernel, _, rfl, ?_⟩
  decide +kernel

end BacktestEngine
end Backtest
end Karsa
