import Karsa.Execution.Manager.Tasks
import Karsa.Foundations.Traces

/-!
# Active position manager - The recorded amount

Partial closes subtract from the record what they asked for, while the client sends
the quantity rounded to the instrument's step and raised to its minimum, found under
the spelling of the symbol it is given.  The exchange's size is computed here from
the log of accepted reduce-only orders; record and exchange agree as long as every
order closes exactly what was asked for.

Main results:

- Theorem `CycleRule.ledger_kept`: one rule under its condition.
- Theorem `closePart_ledger`: every sequence of partial closes.
-/

namespace Karsa
namespace Manager

open Bybit

/-! ## The exchange's size -/

/-- What a reduce-only order closes: the rounded quantity, at most the position, if
it names the position's instrument. -/
def executedQty (t : InstrumentTables) (symbol : Text) (size : ℚ) (sent : Text) (qty : ℚ) : ℚ :=
  if t.toBybitSymbol sent = t.toBybitSymbol symbol then min (t.roundQty sent qty) size else 0

/-- Is the event an accepted reduction? -/
def ApmEvent.reduces : ApmEvent → Bool
  | .reduceSent _ _ accepted => accepted
  | .stopSent _ _ | .stopRead _ | .takeProfitSent _ _ | .limitSent _ _ _ | .cancelSent _ _
  | .marketSent _ _ _ | .written _ | .removed => false

/-- The exchange's size after one event. -/
def sizeAfter (t : InstrumentTables) (symbol : Text) (size : ℚ) : ApmEvent → ℚ
  | .reduceSent sent qty true => size - executedQty t symbol size sent qty
  | .reduceSent _ _ false | .stopSent _ _ | .stopRead _ | .takeProfitSent _ _ | .limitSent _ _ _
  | .cancelSent _ _ | .marketSent _ _ _ | .written _ | .removed => size

/-- The exchange's size after a log. -/
def exchangeSize (t : InstrumentTables) (symbol : Text) (size : ℚ) (log : List ApmEvent) : ℚ :=
  log.foldl (sizeAfter t symbol) size

section Size

variable (t : InstrumentTables) (symbol : Text) (size : ℚ)

theorem exchangeSize_append (log new : List ApmEvent) :
    exchangeSize t symbol size (log ++ new) =
      exchangeSize t symbol (exchangeSize t symbol size log) new :=
  List.foldl_append

/-- Other events do not change the size. -/
theorem exchangeSize_of_appended {log log' : List ApmEvent}
    (h : Appended (fun e => ApmEvent.reduces e = false) log log') :
    exchangeSize t symbol size log' = exchangeSize t symbol size log := by
  rcases h with ⟨new, rfl, hnew⟩
  rw [exchangeSize_append]
  generalize exchangeSize t symbol size log = size'
  induction new generalizing size' with
  | nil => rfl
  | cons e rest ih =>
      have hsame : sizeAfter t symbol size' e = size' := by
        have hkeeps := hnew e List.mem_cons_self
        cases e with
        | reduceSent sent qty accepted =>
            cases accepted with
            | true => cases hkeeps
            | false => rfl
        | _ => rfl
      have hrest := ih (fun e he => hnew e (List.mem_cons_of_mem _ he)) size'
      rw [exchangeSize, List.foldl_cons, hsame]
      exact hrest

/-- A reduction with something to close was executed after the log `base`. -/
def ReducedSince (base : List ApmEvent) (sent : Text) (log : List ApmEvent) : Prop :=
  ∃ before qty after, log = before ++ .reduceSent sent qty true :: after ∧ base <+: before ∧
    0 < executedQty t symbol (exchangeSize t symbol size before) sent qty

theorem ReducedSince.append {base : List ApmEvent} {sent : Text} {log : List ApmEvent}
    (h : ReducedSince t symbol size base sent log) (new : List ApmEvent) :
    ReducedSince t symbol size base sent (log ++ new) := by
  rcases h with ⟨before, qty, after, rfl, hbase, hpos⟩
  exact ⟨before, qty, after ++ new, by simp, hbase, hpos⟩

end Size

/-! ## Steps -/

/-- The rules of a cycle that close a part of the position. -/
def partialCloseRules : List CycleRule :=
  [.scaleOutAndLock, .cvdOrTrendTiers, .moonBagExit]

/-- The partial closes of one cycle: the record is read, these rules run, and the
record is written back unless one of them returned. -/
def partialCloses (a : CycleAnswers) (live : Option ℚ) (s : ManagerState) : ManagerState :=
  match s.stored with
  | none => s
  | some record =>
      let s := readLocals (startCycle live record s)
      let snap := snapshot s.pos
      ((Flow.blocks (partialCloseRules.map (CycleRule.block a snap)) s).andThen
        (CycleRule.persist.block a snap)).state

/-- One step: the partial closes of a cycle, or a reallocation. -/
inductive PartialClose where
  | cycle (live : Option ℚ) (answers : CycleAnswers)
  | proactive (ratio : ℚ) (reduced : Bool) (lock : BreakevenAnswers)

/-- What the step does. -/
def closePart (s : ManagerState) : PartialClose → ManagerState
  | .cycle live answers => partialCloses answers live s
  | .proactive ratio reduced lock => proactiveScaleOut ratio reduced lock s

/-! ## Conditions -/

/-- The order closes exactly what it asks for. -/
def FullyExecuted (t : InstrumentTables) (pos : PositionRecord) (sent : Text) (qty : ℚ) : Prop :=
  executedQty t pos.symbol pos.amount sent qty = qty

/-- An order under the position's own symbol, for a multiple of the step between the
minimum and the position, closes exactly what it asks for. -/
theorem FullyExecuted.of_multiple {t : InstrumentTables} {pos : PositionRecord} {lot qty : ℚ}
    (hlot : (t.lotSizes pos.symbol).getD 1 = lot) (hpos : 0 < lot)
    (hleast : (t.minQty pos.symbol).getD 1 ≤ qty) (hmultiple : ∃ n : ℤ, qty = n * lot)
    (hcovered : qty ≤ pos.amount) : FullyExecuted t pos pos.symbol qty := by
  unfold FullyExecuted executedQty
  rw [if_pos rfl, roundQty_eq_self hlot hpos hleast hmultiple]
  exact min_eq_left hcovered

/-- The share that a rule is about to scale out, with the exchange's answer. -/
def dueScaleOut (a : CycleAnswers) (snap : Snapshot) :
    CycleRule → ManagerState → Option (ℚ × Bool)
  | .scaleOutAndLock, _ =>
      if sniperScaleDue snap || nonTrendScaleDue snap then some (1 / 2, a.reduce .scaleOut)
      else none
  | .cvdOrTrendTiers, s =>
      if 8 / 10 ≤ snap.rMult ∧ s.movedToBe = false then none
      else if snap.scaleTier < 1 ∧ 3 / 2 ≤ snap.rMult then some (33 / 100, a.reduce .trendFirst)
      else if snap.scaleTier < 2 ∧ 3 ≤ snap.rMult then some (33 / 100, a.reduce .trendSecond)
      else none
  | _, _ => none

/-- Condition on the state a rule starts in: a scale-out that is due is accepted and
closes exactly the quantity asked for, which is not zero; an accepted moon-bag exit
closes exactly its quantity, and its rest is not closed for want of a stop. -/
structure RuleKeepsLedger (t : InstrumentTables) (a : CycleAnswers) (snap : Snapshot)
    (rule : CycleRule) (s : ManagerState) : Prop where
  scaleOut : ∀ pct accepted, dueScaleOut a snap rule s = some (pct, accepted) →
    accepted = true ∧ 0 < closeQty s.pos.amount pct ∧
      FullyExecuted t s.pos s.pos.symbol (closeQty s.pos.amount pct)
  moonBag : rule = .moonBagExit → moonBagDue snap s.pos = true → a.reduce .moonBag = true →
    FullyExecuted t s.pos (s.pos.symbol.without '/') (closeQty s.pos.amount (8 / 10)) ∧
      (a.moonStop = true ∨ a.reduce .moonBagRest = false)

/-- Condition of one step for the stored record, if there is one. -/
def StepKeepsLedger (t : InstrumentTables) (s : ManagerState) : PartialClose → Prop
  | .cycle live a => ∀ record, s.stored = some record →
      let start := readLocals (startCycle live record s)
      Flow.Met (CycleRule.block a (snapshot start.pos))
        (RuleKeepsLedger t a (snapshot start.pos)) partialCloseRules start
  | .proactive ratio reduced _ => ∀ record, s.stored = some record →
      record.proactiveScaleOutExecuted = false → 0 < record.entryPrice →
        reduced = true → 0 < closeQty record.amount ratio →
          FullyExecuted t record record.symbol (closeQty record.amount ratio)

/-! ## Changes that leave the ledger alone -/

/-- The fields of a record that the ledger is about. -/
structure LedgerView where
  symbol : Text
  amount : ℚ
  scaleTier : Nat
  trancheState : TrancheState
deriving Repr, DecidableEq

/-- These fields of a record. -/
def ledgerView (pos : PositionRecord) : LedgerView where
  symbol := pos.symbol
  amount := pos.amount
  scaleTier := pos.scaleTier
  trancheState := pos.trancheState

/-- Neither the ledger's fields nor the exchange's size change. -/
structure SameLedger (s s' : ManagerState) : Prop where
  view : ledgerView s'.pos = ledgerView s.pos
  log : Appended (fun e => ApmEvent.reduces e = false) s.log s'.log

namespace SameLedger

variable {s s' s'' : ManagerState}

theorem trans (h : SameLedger s s') (h' : SameLedger s' s'') : SameLedger s s'' :=
  ⟨h'.view.trans h.view, h.log.trans h'.log⟩

theorem of_eq (hview : ledgerView s'.pos = ledgerView s.pos) (hlog : s'.log = s.log) :
    SameLedger s s' :=
  ⟨hview, by rw [hlog]; exact Appended.refl _ _⟩

theorem refl (s : ManagerState) : SameLedger s s :=
  of_eq rfl rfl

theorem sendStop (s : ManagerState) {symbol : Text} (accepted : Bool) (stop : ℚ) :
    SameLedger s (s.sendStop symbol accepted stop) :=
  ⟨rfl, Appended.single rfl⟩

theorem persist (s : ManagerState) : SameLedger s s.persist :=
  ⟨rfl, Appended.single rfl⟩

theorem updateSl (s : ManagerState) (stop : ℚ) : SameLedger s (s.updateSl stop) := by
  unfold ManagerState.updateSl
  cases s.stored with
  | none => exact refl s
  | some record => exact ⟨rfl, Appended.single rfl⟩

theorem amendAndTrack (s : ManagerState) (symbol : Text) (accepted : Bool) (stop : ℚ) :
    SameLedger s (amendAndTrack symbol accepted stop s) := by
  have hsent : SameLedger s (s.sendStop symbol accepted stop) := sendStop s accepted stop
  cases accepted with
  | true => exact hsent.trans (of_eq rfl rfl)
  | false => exact hsent

theorem moveStopToBreakeven (b : BreakevenAnswers) (entryPrice : ℚ) (s : ManagerState) :
    SameLedger s (moveStopToBreakeven b entryPrice s) := by
  have hsent : SameLedger s (sendWithRetry b (breakevenStop entryPrice) s) := by
    unfold sendWithRetry
    dsimp only
    split_ifs
    · exact sendStop s _ _
    · exact (sendStop s _ _).trans (sendStop _ _ _)
  unfold Manager.moveStopToBreakeven
  dsimp only
  split_ifs
  · have hmarked : SameLedger s ((sendWithRetry b (breakevenStop entryPrice) s).edit
        fun pos => { pos.recordStop (breakevenStop entryPrice) with movedToBreakeven := true }) :=
      hsent.trans (of_eq rfl rfl)
    exact (hmarked.trans (persist _)).trans (updateSl _ _)
  · exact hsent

theorem lockBreakeven (b : BreakevenAnswers) (snap : Snapshot) (s : ManagerState) :
    SameLedger s (lockBreakeven b snap s) := by
  unfold Manager.lockBreakeven
  split_ifs
  · exact refl s
  · exact (moveStopToBreakeven b snap.entryPrice s).trans (of_eq rfl rfl)

end SameLedger

/-! ## One rule -/

/-- Invariant of a step that started from the record and the log: record and
exchange agree on the size, and a tier or tranche that changed has its reduction. -/
structure LedgerKept (t : InstrumentTables) (size : ℚ) (record : PositionRecord)
    (base : List ApmEvent) (s : ManagerState) : Prop where
  symbol : s.pos.symbol = record.symbol
  amount : s.pos.amount = exchangeSize t record.symbol size s.log
  log : base <+: s.log
  tier : s.pos.scaleTier ≠ record.scaleTier →
    ReducedSince t record.symbol size base record.symbol s.log
  tranche : s.pos.trancheState ≠ record.trancheState →
    ReducedSince t record.symbol size base (record.symbol.without '/') s.log

section Rules

variable {t : InstrumentTables} {size : ℚ} {record : PositionRecord} {base : List ApmEvent}
variable {a : CycleAnswers} {snap : Snapshot} {s s' : ManagerState}

theorem LedgerKept.same (h : LedgerKept t size record base s) (hsame : SameLedger s s') :
    LedgerKept t size record base s' := by
  rcases hsame.log with ⟨new, hlog, -⟩
  have hamount : s'.pos.amount = s.pos.amount := congrArg LedgerView.amount hsame.view
  have htier : s'.pos.scaleTier = s.pos.scaleTier := congrArg LedgerView.scaleTier hsame.view
  have htranche : s'.pos.trancheState = s.pos.trancheState :=
    congrArg LedgerView.trancheState hsame.view
  refine ⟨(congrArg LedgerView.symbol hsame.view).trans h.symbol, ?_, ?_, ?_, ?_⟩
  · rw [hamount, h.amount, exchangeSize_of_appended t record.symbol size hsame.log]
  · rw [hlog]
    exact h.log.trans (List.prefix_append _ _)
  · intro hchanged
    rw [htier] at hchanged
    rw [hlog]
    exact (h.tier hchanged).append t record.symbol size new
  · intro hchanged
    rw [htranche] at hchanged
    rw [hlog]
    exact (h.tranche hchanged).append t record.symbol size new

/-- An accepted reduction that closes what it asks for, subtracted from the record. -/
theorem LedgerKept.reduce (h : LedgerKept t size record base s) {sent : Text} {qty : ℚ}
    (hexact : FullyExecuted t s.pos sent qty) :
    LedgerKept t size record base
      ((s.sendReduce sent qty true).edit ({ · with amount := s.pos.amount - qty })) := by
  have hexecuted : executedQty t record.symbol (exchangeSize t record.symbol size s.log) sent qty =
      qty := by
    rw [← h.amount, ← h.symbol]
    exact hexact
  refine ⟨h.symbol, ?_, h.log.trans (List.prefix_append _ _), ?_, ?_⟩
  · have hsize : exchangeSize t record.symbol size (s.log ++ [.reduceSent sent qty true]) =
        exchangeSize t record.symbol size s.log - qty := by
      rw [exchangeSize_append]
      exact congrArg (exchangeSize t record.symbol size s.log - ·) hexecuted
    exact (congrArg (· - qty) h.amount).trans hsize.symm
  · exact fun hchanged => (h.tier hchanged).append t record.symbol size _
  · exact fun hchanged => (h.tranche hchanged).append t record.symbol size _

/-- Such a reduction counts as executed. -/
theorem LedgerKept.reducedSince (h : LedgerKept t size record base s) {sent : Text} {qty : ℚ}
    (hexact : FullyExecuted t s.pos sent qty) (hpos : 0 < qty) :
    ReducedSince t record.symbol size base sent (s.sendReduce sent qty true).log := by
  refine ⟨s.log, qty, [], rfl, h.log, ?_⟩
  rw [← h.amount, ← h.symbol]
  exact lt_of_lt_of_eq hpos hexact.symm

theorem scaleOutPosition_ledger_kept (h : LedgerKept t size record base s) {accepted : Bool}
    {pct : ℚ} (hexact : accepted = true → 0 < closeQty s.pos.amount pct →
      FullyExecuted t s.pos s.pos.symbol (closeQty s.pos.amount pct)) :
    LedgerKept t size record base (scaleOutPosition accepted pct s) := by
  unfold scaleOutPosition
  dsimp only
  by_cases hqty : closeQty s.pos.amount pct ≤ 0
  · rw [if_pos hqty]
    exact h
  · rw [if_neg hqty]
    cases accepted with
    | true =>
        have hreduced := h.reduce (hexact rfl (not_le.mp hqty))
        exact hreduced.same (SameLedger.of_eq rfl rfl)
    | false => exact h.same ⟨rfl, Appended.single rfl⟩

/-- A due scale-out that is accepted and exact moves the tier together with the size. -/
theorem scaleOutTo_ledger_kept (h : LedgerKept t size record base s) (tier : Nat)
    {accepted : Bool} {pct : ℚ} (hdue : accepted = true ∧ 0 < closeQty s.pos.amount pct ∧
      FullyExecuted t s.pos s.pos.symbol (closeQty s.pos.amount pct)) :
    LedgerKept t size record base (scaleOutTo tier accepted pct s) := by
  rcases hdue with ⟨haccepted, hpos, hexact⟩
  have hkept : LedgerKept t size record base (scaleOutPosition accepted pct s) :=
    scaleOutPosition_ledger_kept h fun _ _ => hexact
  have hreduced : ReducedSince t record.symbol size base record.symbol
      (scaleOutPosition accepted pct s).log := by
    have hsince := h.reducedSince hexact hpos
    rw [h.symbol] at hsince
    unfold scaleOutPosition
    dsimp only
    rw [if_neg (not_le.mpr hpos), haccepted, h.symbol]
    exact hsince
  exact ⟨hkept.symbol, hkept.amount, hkept.log, fun _ => hreduced, hkept.tranche⟩

theorem scaleOutAndLock_ledger_kept (h : LedgerKept t size record base s)
    (hcond : RuleKeepsLedger t a snap .scaleOutAndLock s) :
    LedgerKept t size record base
      (scaleOutAndLock (a.reduce .scaleOut) (a.lock .scaleOut) snap s) := by
  unfold scaleOutAndLock
  split_ifs with hdue
  · have hscaled := scaleOutTo_ledger_kept h 1 (hcond.scaleOut _ _ (if_pos hdue))
    exact hscaled.same (SameLedger.lockBreakeven _ snap _)
  · exact h

theorem cvdOrTrendTiers_ledger_kept (h : LedgerKept t size record base s)
    (hcond : RuleKeepsLedger t a snap .cvdOrTrendTiers s) :
    LedgerKept t size record base
      (cvdOrTrendTiers a.reduce (a.lock .cvd) (a.lock .trendTier) a.cvdSlope snap s) := by
  unfold cvdOrTrendTiers
  split_ifs with hcvd hslope hfirst hsecond
  · exact h.same (SameLedger.lockBreakeven _ snap s)
  · exact h
  · have hdue := hcond.scaleOut (33 / 100) (a.reduce .trendFirst) (by
      simp only [dueScaleOut, if_neg hcvd, if_pos hfirst])
    exact (scaleOutTo_ledger_kept h 1 hdue).same (SameLedger.lockBreakeven _ snap _)
  · have hdue := hcond.scaleOut (33 / 100) (a.reduce .trendSecond) (by
      simp only [dueScaleOut, if_neg hcvd, if_neg hfirst, if_pos hsecond])
    exact scaleOutTo_ledger_kept h 2 hdue
  · exact h

/-- The moon bag sends its order under the symbol without the slash. -/
theorem moonBagStarted_ledger_kept (hsymbol : snap.symbol = s.pos.symbol)
    (h : LedgerKept t size record base s) (hdue : moonBagDue snap s.pos = true)
    (hexact : FullyExecuted t s.pos (s.pos.symbol.without '/') (closeQty s.pos.amount (8 / 10))) :
    LedgerKept t size record base (moonBagStarted snap s) := by
  have hqty : 0 < closeQty s.pos.amount (8 / 10) := by
    simp only [moonBagDue, Bool.and_eq_true, decide_eq_true_eq] at hdue
    exact hdue.2
  have hreduced := h.reduce hexact
  have hsince := h.reducedSince hexact hqty
  rw [h.symbol] at hreduced hsince
  unfold moonBagStarted
  rw [hsymbol, h.symbol]
  exact ⟨hreduced.symbol, hreduced.amount, hreduced.log, hreduced.tier, fun _ => hsince⟩

/-- Its rest is never closed here, so the rule falls through. -/
theorem moonBagExit_ledger_kept (hsymbol : snap.symbol = s.pos.symbol)
    (h : LedgerKept t size record base s) (hcond : RuleKeepsLedger t a snap .moonBagExit s) :
    (moonBagExit a.reduce a.moonStop snap s).Ends (LedgerKept t size record base)
      fun _ => False := by
  have htracked : moonBagDue snap s.pos = true → a.reduce .moonBag = true → ∀ accepted,
      LedgerKept t size record base
        (amendAndTrack (snap.symbol.without '/') accepted (breakevenStop snap.entryPrice)
          (moonBagStarted snap s)) := by
    intro hdue hclosed accepted
    have hexact := (hcond.moonBag rfl hdue hclosed).1
    exact (moonBagStarted_ledger_kept hsymbol h hdue hexact).same
      (SameLedger.amendAndTrack _ _ accepted _)
  cases moonBagExit_outcome a.reduce a.moonStop snap s with
  | idle _ hflow => rw [hflow]; exact h
  | refused _ _ hflow =>
      rw [hflow]
      exact h.same ⟨rfl, Appended.single rfl⟩
  | started hdue hclosed _ hflow => rw [hflow]; exact htracked hdue hclosed true
  | unprotected rest hdue hclosed _ _ hflow =>
      rw [hflow]
      exact (htracked hdue hclosed false).same ⟨rfl, Appended.single rfl⟩
  | closed rest hdue hclosed hstop hrest hflow =>
      rcases (hcond.moonBag rfl hdue hclosed).2 with hmoonStop | hmoonRest
      · rw [hstop] at hmoonStop
        cases hmoonStop
      · rw [hrest] at hmoonRest
        cases hmoonRest

/-- The rules that close a part keep the ledger and never return. -/
theorem CycleRule.ledger_kept (hsymbol : snap.symbol = record.symbol) (rule : CycleRule)
    (hrule : rule ∈ partialCloseRules) (h : LedgerKept t size record base s)
    (hcond : RuleKeepsLedger t a snap rule s) :
    (rule.block a snap s).Ends (LedgerKept t size record base) fun _ => False := by
  simp only [partialCloseRules, List.mem_cons, List.not_mem_nil, or_false] at hrule
  rcases hrule with rfl | rfl | rfl
  · exact scaleOutAndLock_ledger_kept h hcond
  · exact cvdOrTrendTiers_ledger_kept h hcond
  · exact moonBagExit_ledger_kept (hsymbol.trans h.symbol.symm) h hcond

end Rules

/-! ## Runs of partial closes -/

/-- The stored record has the exchange's size. -/
def LedgerExact (t : InstrumentTables) (symbol : Text) (size : ℚ) (s : ManagerState) : Prop :=
  ∀ record, s.stored = some record →
    record.symbol = symbol ∧ record.amount = exchangeSize t symbol size s.log

/-- Between the two states the stored tier changed only with an executed scale-out,
and the tranche only with an executed moon-bag exit. -/
def AdvancesBacked (t : InstrumentTables) (symbol : Text) (size : ℚ) (s s' : ManagerState) :
    Prop :=
  ∀ record record', s.stored = some record → s'.stored = some record' →
    (record'.scaleTier ≠ record.scaleTier →
      ReducedSince t symbol size s.log symbol s'.log) ∧
    (record'.trancheState ≠ record.trancheState →
      ReducedSince t symbol size s.log (symbol.without '/') s'.log)

section Runs

variable {t : InstrumentTables} {symbol : Text} {size : ℚ} {s s' : ManagerState}

/-- A record just read starts a step. -/
theorem LedgerExact.start (h : LedgerExact t symbol size s) {record : PositionRecord}
    (hstored : s.stored = some record) (hview : ledgerView s'.pos = ledgerView record)
    (hlog : s'.log = s.log) : LedgerKept t size record s.log s' := by
  rcases h record hstored with ⟨hsymbol, hamount⟩
  refine ⟨congrArg LedgerView.symbol hview, ?_, ?_, ?_, ?_⟩
  · rw [hlog, hsymbol, ← hamount]
    exact congrArg LedgerView.amount hview
  · rw [hlog]
  · exact fun hchanged => absurd (congrArg LedgerView.scaleTier hview) hchanged
  · exact fun hchanged => absurd (congrArg LedgerView.trancheState hview) hchanged

/-- A step that ends by writing the record back. -/
theorem LedgerKept.written (h : LedgerExact t symbol size s) {record : PositionRecord}
    (hstored : s.stored = some record) (hkept : LedgerKept t size record s.log s') :
    LedgerExact t symbol size s'.persist ∧ AdvancesBacked t symbol size s s'.persist := by
  rcases h record hstored with ⟨hsymbol, -⟩
  have hfinal := hkept.same (SameLedger.persist s')
  rw [← hsymbol]
  constructor
  · rintro record' hrecord'
    obtain rfl := Option.some.inj hrecord'
    exact ⟨hfinal.symbol, hfinal.amount⟩
  · rintro old record' hold hrecord'
    obtain rfl := Option.some.inj (hstored.symm.trans hold)
    obtain rfl := Option.some.inj hrecord'
    exact ⟨hfinal.tier, hfinal.tranche⟩

/-- Nothing advances when the state stays the same. -/
theorem AdvancesBacked.refl (t : InstrumentTables) (symbol : Text) (size : ℚ)
    (s : ManagerState) : AdvancesBacked t symbol size s s := by
  intro record record' hrecord hrecord'
  obtain rfl := Option.some.inj (hrecord.symm.trans hrecord')
  exact ⟨fun hchanged => absurd rfl hchanged, fun hchanged => absurd rfl hchanged⟩

/-- One step keeps record and exchange in agreement. -/
theorem closePart_step (s : ManagerState) (step : PartialClose) (h : LedgerExact t symbol size s)
    (hcond : StepKeepsLedger t s step) :
    LedgerExact t symbol size (closePart s step) ∧
      AdvancesBacked t symbol size s (closePart s step) := by
  have hidle : LedgerExact t symbol size s ∧ AdvancesBacked t symbol size s s :=
    ⟨h, AdvancesBacked.refl t symbol size s⟩
  cases step with
  | cycle live a =>
      unfold closePart partialCloses
      cases hstored : s.stored with
      | none => exact hidle
      | some record =>
          have hstart : LedgerKept t size record s.log (readLocals (startCycle live record s)) :=
            h.start hstored rfl rfl
          have hends := (hcond record hstored).ends_of_mem
            (fun rule hrule _ hinv hrulecond => rule.ledger_kept rfl hrule hinv hrulecond) hstart
          rcases hends.exists_next with ⟨s', hnext, hkept⟩
          dsimp only
          rw [hnext]
          exact hkept.written h hstored
  | proactive ratio reduced lock =>
      unfold closePart proactiveScaleOut
      cases hstored : s.stored with
      | none => exact hidle
      | some record =>
          dsimp only
          split_ifs with hexecuted hentry
          · exact hidle
          · exact hidle
          · have hstart : LedgerKept t size record s.log (s.load record) := h.start hstored rfl rfl
            have hscaled : LedgerKept t size record s.log
                (scaleOutPosition reduced ratio (s.load record)) :=
              scaleOutPosition_ledger_kept hstart
                (hcond record hstored (by simpa using hexecuted) (not_le.mp hentry))
            have hlocked := hscaled.same (SameLedger.moveStopToBreakeven lock record.entryPrice _)
            have hflagged : LedgerKept t size record s.log ((moveStopToBreakeven lock
                record.entryPrice (scaleOutPosition reduced ratio (s.load record))).edit
                  ({ · with proactiveScaleOutExecuted := true })) :=
              hlocked.same (SameLedger.of_eq rfl rfl)
            exact hflagged.written h hstored

end Runs

/-- Started with the exchange's size, a record has it after every step of a run whose
steps meet their conditions, and advances only with executed reductions. -/
theorem closePart_ledger (t : InstrumentTables) (record : PositionRecord)
    (steps : List PartialClose)
    (hadmits : Admits closePart (StepKeepsLedger t) (.ofRecord record) steps) (n : Nat) :
    LedgerExact t record.symbol record.amount (run closePart (.ofRecord record) (steps.take n)) ∧
      AdvancesBacked t record.symbol record.amount
        (run closePart (.ofRecord record) (steps.take n))
        (run closePart (.ofRecord record) (steps.take (n + 1))) := by
  have hinit : LedgerExact t record.symbol record.amount (.ofRecord record) := by
    rintro record' hrecord'
    obtain rfl := Option.some.inj hrecord'
    exact ⟨rfl, rfl⟩
  have hkeep : ∀ s step, LedgerExact t record.symbol record.amount s →
      StepKeepsLedger t s step → LedgerExact t record.symbol record.amount (closePart s step) :=
    fun s step h hcond => (closePart_step s step h hcond).1
  exact ⟨invariant_run_take hkeep hinit hadmits n,
    relation_run_take hkeep (fun s step h hcond => (closePart_step s step h hcond).2)
      (AdvancesBacked.refl t record.symbol record.amount) hinit hadmits n⟩

/-! ## Two concrete runs -/

/-- The client after loading `BTCUSDT` with a step and a minimum of 0.001. -/
def loadedTables : InstrumentTables :=
  connect [.page [{ listed "BTCUSDT" with
    qtyStep := some (.value (1 / 1000)), minOrderQty := some (.value (1 / 1000)) }] false] .empty

/-- Half of one unit is a multiple of the step. -/
theorem closePart_ledger_on_half :
    LedgerExact loadedTables samplePosition.symbol samplePosition.amount
        (run closePart (.ofRecord samplePosition)
          ([.proactive (1 / 2) true ⟨true, true⟩].take 1)) ∧
      AdvancesBacked loadedTables samplePosition.symbol samplePosition.amount
        (run closePart (.ofRecord samplePosition)
          ([.proactive (1 / 2) true ⟨true, true⟩].take 1))
        (run closePart (.ofRecord samplePosition)
          ([.proactive (1 / 2) true ⟨true, true⟩].take 2)) := by
  apply closePart_ledger
  refine ⟨?_, trivial⟩
  rintro record hrecord - - - -
  obtain rfl : samplePosition = record := Option.some.inj hrecord
  have hhalf : closeQty samplePosition.amount (1 / 2) = (500 : ℤ) * (1 / 1000) := by
    decide +kernel
  have hlot : (loadedTables.lotSizes samplePosition.symbol).getD 1 = 1 / 1000 := by
    decide +kernel
  rw [hhalf]
  apply FullyExecuted.of_multiple hlot (by norm_num)
  · decide +kernel
  · exact ⟨500, rfl⟩
  · decide +kernel

/-- The same position after its scale-outs. -/
def scaledPosition : PositionRecord :=
  { samplePosition with scaleTier := 2, movedToBreakeven := true }

/-- The moon-bag exit asks for 0.8 units; the order is rounded to the whole position. -/
theorem closePart_moon_bag_diverges :
    ¬ LedgerExact loadedTables scaledPosition.symbol scaledPosition.amount
      (run closePart (.ofRecord scaledPosition)
        [.cycle (some 104) (acceptingAnswers (holdingReport .Buy 98))]) := by
  intro hexact
  have hrecorded : (run closePart (.ofRecord scaledPosition)
      [.cycle (some 104) (acceptingAnswers (holdingReport .Buy 98))]).stored.map (·.amount) =
        some (1 / 5) := by
    decide +kernel
  rcases Option.map_eq_some_iff.mp hrecorded with ⟨record, hstored, hamount⟩
  have hsize := (hexact record hstored).2
  rw [hamount] at hsize
  exact absurd hsize (by decide +kernel)

end Manager
end Karsa
