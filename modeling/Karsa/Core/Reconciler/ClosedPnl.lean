import Karsa.Core.TradeStore
import Karsa.Execution.Bybit.Symbols
import Karsa.Foundations.Matching

/-!
# Trade reconciler - Matching closed-PnL records

`_compare_closed_pnl` takes Bybit's closing records in order.  A record first takes an open
local trade of its symbol and side, whatever their times; only without one does it look for
a closed trade that exited within thirty minutes of it.

Main results:

- Theorem `verdicts_closes_iff`: within a symbol and side, records and open trades are paired
  in order.
- Theorem `closesOnlyByOwnRecord_iff`: when no live trade is closed by an old record.
-/

namespace Karsa
namespace Reconciler

open Bybit Trades

/-! ## Sides and symbols -/

/-- `_normalize_side` of the reconciler. -/
def normalizeTradeSide (side : Text) : Text :=
  let s := side.map Char.toLower
  if s = "buy".toList ∨ s = "long".toList then "Buy".toList
  else if s = "sell".toList ∨ s = "short".toList then "Sell".toList
  else side

/-- The unified symbol of a Bybit symbol. -/
def unifiedSymbol (reverseMap : Text → Option Text) (bybitSymbol : Text) : Text :=
  let symbol := (reverseMap bybitSymbol).getD bybitSymbol
  if usdt <:+ symbol ∧ '/' ∉ symbol then symbol.dropRight 4 ++ slashUsdt else symbol

/-! ## Records and discrepancies -/

/-- A record of `get_closed_pnl`; its side is that of the closing order, its times are in
milliseconds. -/
structure ClosedPnl where
  symbol : Text
  side : Text
  closedPnl : Option (Numeral ℚ)
  qty : Option (Numeral ℚ)
  avgEntryPrice : Option (Numeral ℚ)
  avgExitPrice : Option (Numeral ℚ)
  createdTime : Option ℤ
  updatedTime : Option ℤ
deriving Repr, DecidableEq

namespace ClosedPnl

/-- Side of the position that was closed. -/
def positionSide (r : ClosedPnl) : Text :=
  if normalizeTradeSide r.side = "Sell".toList then "Buy".toList else "Sell".toList

/-- `int(r.get("updatedTime", r.get("createdTime", "0")))`. -/
def updatedTimeMs (r : ClosedPnl) : ℤ :=
  r.updatedTime.getD (r.createdTime.getD 0)

/-- Closing time in seconds. -/
def closedAt (r : ClosedPnl) : ℚ :=
  r.updatedTimeMs / 1000

end ClosedPnl

/-- `Discrepancy.kind`. -/
inductive DiscrepancyKind where
  | missing_entry
  | missing_exit
  | price_mismatch
  | pnl_mismatch
deriving Repr, DecidableEq

/-- `Discrepancy.severity`. -/
inductive Severity where
  | WARNING
  | CRITICAL
deriving Repr, DecidableEq

/-- `Discrepancy.bybit_data`: each kind has its own keys. -/
inductive BybitData where
  | entry (price qty execTime : ℚ) (orderId : Text)
  | exit (closedPnl avgEntryPrice avgExitPrice qty : ℚ) (updatedTimeMs : ℤ)
  | prices (bybitPrice localPrice : ℚ)
  | pnls (bybitPnl localPnl : ℚ)
deriving Repr, DecidableEq

/-- A mismatch between Bybit and local trade records. -/
structure Discrepancy where
  symbol : Text
  side : Text
  bybitData : BybitData
  localTradeId : Option Nat
  severity : Severity
deriving Repr, DecidableEq

/-- The kind goes with the data. -/
def Discrepancy.kind (d : Discrepancy) : DiscrepancyKind :=
  match d.bybitData with
  | .entry .. => .missing_entry
  | .exit .. => .missing_exit
  | .prices .. => .price_mismatch
  | .pnls .. => .pnl_mismatch

/-! ## The comparison -/

/-- What the loop decides about a record. -/
inductive Verdict where
  | closes (t : Trade)
  | books (t : Trade)
  | unmatched
deriving Repr, DecidableEq

/-- `matched_local_ids` after a verdict. -/
def Verdict.taken (taken : List Nat) : Verdict → List Nat
  | .closes t => t.id :: taken
  | .books t => t.id :: taken
  | .unmatched => taken

/-- `open_index.get(symbol, [])`. -/
def openCandidates (trades : List Trade) (symbol : Text) : List Trade :=
  (trades.filter Trade.isOpen).filter fun t => decide (t.symbol = symbol)

/-- `closed_index.get(symbol, [])`. -/
def closedCandidates (trades : List Trade) (symbol : Text) : List Trade :=
  (trades.filter fun t => !t.isOpen).filter fun t => decide (t.symbol = symbol)

/-- The exit lies within thirty minutes of the record. -/
def exitNear (closedAt : ℚ) (t : Trade) : Bool :=
  t.exitTime.any fun exitTime => decide (|exitTime - closedAt| < 1800)

section Compare

variable (reverseMap : Text → Option Text) (trades : List Trade)

/-- Body of the loop: an open trade first, then a closed one near in time. -/
def judge (taken : List Nat) (r : ClosedPnl) : Verdict :=
  let symbol := unifiedSymbol reverseMap r.symbol
  match (openCandidates trades symbol).find? fun t =>
      decide (normalizeTradeSide t.side = r.positionSide) && decide (t.id ∉ taken) with
  | some t => .closes t
  | none =>
      match (closedCandidates trades symbol).find? fun t =>
          decide (normalizeTradeSide t.side = r.positionSide) && decide (t.id ∉ taken) &&
            exitNear r.closedAt t with
      | some t => .books t
      | none => .unmatched

/-- The loop over the records. -/
def verdicts (taken : List Nat) : List ClosedPnl → List (ClosedPnl × Verdict)
  | [] => []
  | r :: rest =>
      let v := judge reverseMap trades taken r
      (r, v) :: verdicts (v.taken taken) rest

/-- The missing exit of a record. -/
def missingExit (r : ClosedPnl) (localTradeId : Option Nat) (severity : Severity) :
    Discrepancy where
  symbol := unifiedSymbol reverseMap r.symbol
  side := r.positionSide
  bybitData := .exit (Numeral.safeDecimal r.closedPnl) (Numeral.safeDecimal r.avgEntryPrice)
    (Numeral.safeDecimal r.avgExitPrice) (Numeral.safeDecimal r.qty) r.updatedTimeMs
  localTradeId := localTradeId
  severity := severity

/-- Five percent between the recorded and the local result. -/
def pnlMismatch (pnl localPnl : ℚ) : Bool :=
  decide (pnl ≠ 0 ∧ localPnl ≠ 0 ∧ 5 / 100 < |localPnl - pnl| / max |pnl| (1 / 10000))

/-- What a verdict appends to the discrepancies. -/
def report (r : ClosedPnl) : Verdict → Option Discrepancy
  | .closes t => some (missingExit reverseMap r (some t.id) .CRITICAL)
  | .books t =>
      let pnl := Numeral.safeDecimal r.closedPnl
      let localPnl := t.pnl.getD 0
      if pnlMismatch pnl localPnl then
        some ⟨unifiedSymbol reverseMap r.symbol, r.positionSide, .pnls pnl localPnl, some t.id,
          .WARNING⟩
      else none
  | .unmatched => some (missingExit reverseMap r none .WARNING)

/-- The discrepancies with the records they come from. -/
def reports (records : List ClosedPnl) : List (ClosedPnl × Discrepancy) :=
  (verdicts reverseMap trades [] records).filterMap fun item =>
    (report reverseMap item.1 item.2).map fun d => (item.1, d)

/-- `_compare_closed_pnl`. -/
def compareClosedPnl (records : List ClosedPnl) : List Discrepancy :=
  (reports reverseMap trades records).map Prod.snd

end Compare

/-! ## Closing by its own record -/

/-- Local trades as `get_trades_since` returns them: no id is listed twice. -/
structure LocalTrades where
  list : List Trade
  distinct : (list.map Trade.id).Nodup

/-- The rows entered since the given time. -/
def LocalTrades.since (table : TradeTable) (since : ℚ) : LocalTrades :=
  ⟨table.tradesSince since, table.nodup_tradesSince since⟩

/-- Symbol and position side of a record. -/
def recordClass (reverseMap : Text → Option Text) (r : ClosedPnl) : Text × Text :=
  (unifiedSymbol reverseMap r.symbol, r.positionSide)

/-- Symbol and side of a trade. -/
def tradeClass (t : Trade) : Text × Text :=
  (t.symbol, normalizeTradeSide t.side)

section Purpose

variable (reverseMap : Text → Option Text) (trades : LocalTrades) (records : List ClosedPnl)

/-- The closed trade is the record's own: same symbol and side, exit within thirty
minutes of the closing time. -/
def BookedAs (r : ClosedPnl) (c : Trade) : Prop :=
  c.isOpen = false ∧ tradeClass c = recordClass reverseMap r ∧ exitNear r.closedAt c = true

/-- The trade was not entered after the record closed, nor after the trade that already
books the record. -/
def Fits (r : ClosedPnl) (t : Trade) : Prop :=
  t.entryTime ≤ r.closedAt ∧
    ∀ c ∈ trades.list, BookedAs reverseMap r c → t.entryTime ≤ c.entryTime

/-- An open trade is reported only by a record of its symbol and side that closed after its
entry, and never by one whose own closed trade is older than it. -/
structure ClosesOnlyByOwnRecord : Prop where
  own : ∀ item ∈ reports reverseMap trades.list records, ∀ t ∈ trades.list,
    t.isOpen = true → item.2.localTradeId = some t.id →
      recordClass reverseMap item.1 = tradeClass t ∧ t.entryTime ≤ item.1.closedAt
  unbooked : ∀ item ∈ reports reverseMap trades.list records, ∀ t ∈ trades.list,
    t.isOpen = true → item.2.localTradeId = some t.id →
      ∀ c ∈ trades.list, BookedAs reverseMap item.1 c → ¬ c.entryTime < t.entryTime

/-- The n-th record of a symbol and side fits the n-th open trade of them. -/
def FitInOrder : Prop :=
  ∀ c, ∀ pair ∈ (Matching.members (recordClass reverseMap) c records).zip
      (Matching.members tradeClass c (trades.list.filter Trade.isOpen)),
    Fits reverseMap trades pair.1 pair.2

end Purpose

/-! ## The loop serves the open trades in order -/

section Serve

variable {reverseMap : Text → Option Text} {trades : LocalTrades}

/-- Trades with one id are one trade. -/
theorem LocalTrades.eq_of_id {t t' : Trade} (ht : t ∈ trades.list) (ht' : t' ∈ trades.list)
    (hid : t.id = t'.id) : t = t' :=
  List.inj_on_of_nodup_map trades.distinct ht ht' hid

/-- The open trade a verdict closes. -/
def Verdict.closed : Verdict → Option Trade
  | .closes t => some t
  | .books _ => none
  | .unmatched => none

@[simp] theorem Verdict.closed_closes (t : Trade) : (Verdict.closes t).closed = some t := rfl

@[simp] theorem Verdict.closed_books (t : Trade) : (Verdict.books t).closed = none := rfl

@[simp] theorem Verdict.closed_unmatched : Verdict.unmatched.closed = none := rfl

/-- Open trades no record has taken yet. -/
def untaken (trades : List Trade) (taken : List Nat) : List Trade :=
  (trades.filter Trade.isOpen).filter fun t => decide (t.id ∉ taken)

/-- The open trade a record takes is the first of its class that is left. -/
theorem judge_closed (trades : List Trade) (taken : List Nat) (r : ClosedPnl) :
    (judge reverseMap trades taken r).closed =
      (untaken trades taken).find? fun t => decide (tradeClass t = recordClass reverseMap r) := by
  have hfind : ((openCandidates trades (unifiedSymbol reverseMap r.symbol)).find? fun t =>
      decide (normalizeTradeSide t.side = r.positionSide) && decide (t.id ∉ taken)) =
        (untaken trades taken).find? fun t =>
          decide (tradeClass t = recordClass reverseMap r) := by
    simp only [openCandidates, untaken, List.find?_filter]
    congr 1
    funext t
    by_cases hsymbol : t.symbol = unifiedSymbol reverseMap r.symbol <;>
      by_cases hside : normalizeTradeSide t.side = r.positionSide <;>
        simp [tradeClass, recordClass, hsymbol, hside]
  rw [← hfind]
  unfold judge
  dsimp only
  cases hopen : (openCandidates trades (unifiedSymbol reverseMap r.symbol)).find? fun t =>
      decide (normalizeTradeSide t.side = r.positionSide) && decide (t.id ∉ taken) with
  | some t => rfl
  | none =>
      dsimp only
      split <;> rfl

/-- Where ids are distinct, taking an item is erasing the first of its kind. -/
theorem filter_ne_eq_eraseP {list : List Trade} (hdistinct : (list.map Trade.id).Nodup)
    {p : Trade → Bool} {t : Trade} (hfind : list.find? p = some t) :
    list.filter (fun t' => decide (t'.id ≠ t.id)) = list.eraseP p := by
  induction list with
  | nil => cases hfind
  | cons first rest ih =>
      rw [List.map_cons, List.nodup_cons] at hdistinct
      rcases hdistinct with ⟨hfirst, hrest⟩
      by_cases hp : p first = true
      · rw [List.find?_cons_of_pos hp] at hfind
        obtain rfl := Option.some.inj hfind
        rw [List.eraseP_cons_of_pos hp, List.filter_cons_of_neg (by simp)]
        apply List.filter_eq_self.mpr
        intro other hother
        apply decide_eq_true
        intro hid
        exact hfirst (hid ▸ List.mem_map_of_mem hother)
      · rw [List.find?_cons_of_neg hp] at hfind
        have hne : first.id ≠ t.id := by
          intro hid
          exact hfirst (hid ▸ List.mem_map_of_mem (List.mem_of_find?_eq_some hfind))
        rw [List.eraseP_cons_of_neg hp, List.filter_cons_of_pos (by simpa using hne),
          ih hrest hfind]

/-- A record is booked by a closed trade of the list. -/
theorem judge_books {taken : List Nat} {r : ClosedPnl} {t : Trade}
    (h : judge reverseMap trades.list taken r = .books t) :
    t ∈ trades.list ∧ BookedAs reverseMap r t ∧ t.id ∉ taken := by
  unfold judge at h
  dsimp only at h
  split at h
  · cases h
  · split at h
    · rename_i found hfind
      obtain rfl := Verdict.books.inj h
      have hmem := List.mem_of_find?_eq_some hfind
      have hprop := List.find?_some hfind
      simp only [closedCandidates, List.mem_filter, Bool.not_eq_true', decide_eq_true_eq] at hmem
      simp only [Bool.and_eq_true, decide_eq_true_eq] at hprop
      rcases hmem with ⟨⟨hlist, hclosed⟩, hsymbol⟩
      rcases hprop with ⟨⟨hside, hfree⟩, hnear⟩
      exact ⟨hlist, ⟨hclosed, Prod.ext hsymbol hside, hnear⟩, hfree⟩
    · cases h

theorem untaken_cons (list : List Trade) (id : Nat) (taken : List Nat) :
    untaken list (id :: taken) =
      (untaken list taken).filter fun t => decide (t.id ≠ id) := by
  simp only [untaken, List.filter_filter, List.mem_cons, not_or, Bool.decide_and]
  congr 1
  funext t
  rw [Bool.and_assoc]

/-- A taken closed trade leaves the open ones untaken. -/
theorem untaken_of_closed {t : Trade} (ht : t ∈ trades.list) (hclosed : t.isOpen = false)
    (taken : List Nat) : untaken trades.list (t.id :: taken) = untaken trades.list taken := by
  rw [untaken_cons]
  apply List.filter_eq_self.mpr
  intro other hother
  rcases List.mem_filter.mp (List.mem_filter.mp hother).1 with ⟨hlist, hopen⟩
  apply decide_eq_true
  intro hid
  rw [trades.eq_of_id hlist ht hid, hclosed] at hopen
  cases hopen

/-- The loop serves the records with the open trades of their class. -/
theorem verdicts_serve (taken : List Nat) (records : List ClosedPnl) :
    (verdicts reverseMap trades.list taken records).map (fun item => (item.1, item.2.closed)) =
      Matching.serve (recordClass reverseMap) tradeClass (untaken trades.list taken) records := by
  induction records generalizing taken with
  | nil => rfl
  | cons r rest ih =>
      have hclosed := @judge_closed reverseMap trades.list taken r
      rw [verdicts, Matching.serve, List.map_cons, ← hclosed]
      cases hjudge : judge reverseMap trades.list taken r with
      | closes t =>
          rw [hjudge, Verdict.closed_closes] at hclosed
          have hdistinct : ((untaken trades.list taken).map Trade.id).Nodup :=
            trades.distinct.sublist
              ((List.filter_sublist.trans List.filter_sublist).map Trade.id)
          dsimp only [Verdict.closed_closes, Verdict.taken]
          rw [ih, untaken_cons, filter_ne_eq_eraseP hdistinct hclosed.symm]
      | books t =>
          rcases judge_books hjudge with ⟨ht, hbooked, -⟩
          dsimp only [Verdict.closed_books, Verdict.taken]
          rw [ih, untaken_of_closed ht hbooked.1]
      | unmatched =>
          dsimp only [Verdict.closed_unmatched, Verdict.taken]
          rw [ih]

/-- Within a symbol and side, records and open trades are paired in order. -/
theorem verdicts_closes_iff {records : List ClosedPnl} {r : ClosedPnl} {t : Trade} :
    (r, Verdict.closes t) ∈ verdicts reverseMap trades.list [] records ↔
      ∃ c, (r, t) ∈ (Matching.members (recordClass reverseMap) c records).zip
        (Matching.members tradeClass c (trades.list.filter Trade.isOpen)) := by
  have hall : untaken trades.list [] = trades.list.filter Trade.isOpen := by
    simp [untaken]
  rw [← hall, ← Matching.serve_mem_iff, ← verdicts_serve, List.mem_map]
  constructor
  · intro hmem
    exact ⟨_, hmem, rfl⟩
  · rintro ⟨⟨r', v⟩, hmem, heq⟩
    rcases Prod.mk.inj heq with ⟨hr, hv⟩
    dsimp only at hr hv
    subst hr
    cases v with
    | closes t' =>
        obtain rfl := Option.some.inj hv
        exact hmem
    | books t' => cases hv
    | unmatched => cases hv

end Serve

/-! ## What is reported -/

section Reported

variable {reverseMap : Text → Option Text} {trades : LocalTrades} {records : List ClosedPnl}

/-- A verdict that closes was reached for an open trade of the record's class. -/
theorem class_of_closes {r : ClosedPnl} {t : Trade}
    (h : (r, Verdict.closes t) ∈ verdicts reverseMap trades.list [] records) :
    t ∈ trades.list ∧ t.isOpen = true ∧ recordClass reverseMap r = tradeClass t := by
  rcases verdicts_closes_iff.mp h with ⟨c, hpair⟩
  rcases List.of_mem_zip hpair with ⟨hr, ht⟩
  rcases List.mem_filter.mp hr with ⟨-, hrclass⟩
  rcases List.mem_filter.mp ht with ⟨hopen, htclass⟩
  rcases List.mem_filter.mp hopen with ⟨hlist, hisOpen⟩
  exact ⟨hlist, hisOpen, (of_decide_eq_true hrclass).trans (of_decide_eq_true htclass).symm⟩

/-- A booked record is in the verdicts with a closed trade. -/
theorem mem_of_verdicts_books {taken : List Nat} {r : ClosedPnl} {t : Trade}
    (h : (r, Verdict.books t) ∈ verdicts reverseMap trades.list taken records) :
    t ∈ trades.list ∧ t.isOpen = false := by
  induction records generalizing taken with
  | nil => cases h
  | cons first rest ih =>
      rw [verdicts] at h
      rcases List.mem_cons.mp h with heq | hrest
      · rcases Prod.mk.inj heq with ⟨-, hjudge⟩
        rcases judge_books hjudge.symm with ⟨ht, hbooked, -⟩
        exact ⟨ht, hbooked.1⟩
      · exact ih hrest

/-- The open trades that are reported are those a verdict closes. -/
theorem reported_iff {r : ClosedPnl} {t : Trade} (ht : t ∈ trades.list)
    (hopen : t.isOpen = true) :
    (∃ d, (r, d) ∈ reports reverseMap trades.list records ∧ d.localTradeId = some t.id) ↔
      (r, Verdict.closes t) ∈ verdicts reverseMap trades.list [] records := by
  constructor
  · rintro ⟨d, hd, hid⟩
    rcases List.mem_filterMap.mp hd with ⟨⟨r', v⟩, hmem, hreport⟩
    rcases Option.map_eq_some_iff.mp hreport with ⟨d', hd', heq⟩
    rcases Prod.mk.inj heq with ⟨rfl, rfl⟩
    dsimp only at hd' hmem
    cases v with
    | closes t' =>
        obtain rfl := Option.some.inj hd'
        have hsame : t' = t :=
          trades.eq_of_id (class_of_closes hmem).1 ht (Option.some.inj hid)
        rwa [hsame] at hmem
    | books t' =>
        rcases mem_of_verdicts_books hmem with ⟨ht', hclosed⟩
        dsimp only [report] at hd'
        split at hd'
        · obtain rfl := Option.some.inj hd'
          rw [trades.eq_of_id ht' ht (Option.some.inj hid), hopen] at hclosed
          cases hclosed
        · cases hd'
    | unmatched =>
        obtain rfl := Option.some.inj hd'
        cases hid
  · intro hmem
    refine ⟨missingExit reverseMap r (some t.id) .CRITICAL, ?_, rfl⟩
    exact List.mem_filterMap.mpr ⟨_, hmem, rfl⟩

/-- The n-th record of a symbol and side is reported with the n-th open trade of them. -/
theorem fitInOrder_of_own {records : List ClosedPnl}
    (hown : ClosesOnlyByOwnRecord reverseMap trades records) :
    FitInOrder reverseMap trades records := by
  intro c pair hpair
  have hverdict := verdicts_closes_iff.mpr ⟨c, hpair⟩
  rcases class_of_closes hverdict with ⟨ht, hopen, -⟩
  rcases (reported_iff ht hopen).mpr hverdict with ⟨d, hd, hid⟩
  refine ⟨(hown.own _ hd _ ht hopen hid).2, ?_⟩
  intro closed hclosed hbooked
  exact not_lt.mp (hown.unbooked _ hd _ ht hopen hid closed hclosed hbooked)

/-- No live trade is closed by an old record exactly when, within each symbol and side, the
n-th record fits the n-th open trade. -/
theorem closesOnlyByOwnRecord_iff (reverseMap : Text → Option Text) (trades : LocalTrades)
    (records : List ClosedPnl) :
    ClosesOnlyByOwnRecord reverseMap trades records ↔ FitInOrder reverseMap trades records := by
  constructor
  · exact fitInOrder_of_own
  · intro hfit
    have hverdict : ∀ item ∈ reports reverseMap trades.list records, ∀ t ∈ trades.list,
        t.isOpen = true → item.2.localTradeId = some t.id →
          (item.1, Verdict.closes t) ∈ verdicts reverseMap trades.list [] records :=
      fun item hitem t ht hopen hid => (reported_iff ht hopen).mp ⟨item.2, hitem, hid⟩
    constructor
    · intro item hitem t ht hopen hid
      have hcloses := hverdict item hitem t ht hopen hid
      rcases verdicts_closes_iff.mp hcloses with ⟨c, hpair⟩
      exact ⟨(class_of_closes hcloses).2.2, (hfit c _ hpair).1⟩
    · intro item hitem t ht hopen hid closed hclosed hbooked
      rcases verdicts_closes_iff.mp (hverdict item hitem t ht hopen hid) with ⟨c, hpair⟩
      exact not_lt.mpr ((hfit c _ hpair).2 closed hclosed hbooked)

/-- A booked round trip and the long entered after it: the old record closes the new
trade. -/
theorem closesOnlyByOwnRecord_reentry :
    ¬ ∀ (reverseMap : Text → Option Text) (trades : LocalTrades) (records : List ClosedPnl),
      ClosesOnlyByOwnRecord reverseMap trades records := by
  intro h
  let booked : Trade := ⟨1, "BTC/USDT".toList, "LONG".toList, 1, 100, some 110, some 10, none,
    500, some 1000, none⟩
  let live : Trade := ⟨2, "BTC/USDT".toList, "LONG".toList, 1, 120, none, none, none, 5000,
    none, none⟩
  let old : ClosedPnl := ⟨"BTCUSDT".toList, "Sell".toList, some (.value 10), some (.value 1),
    some (.value 100), some (.value 110), some 1000000, some 1000000⟩
  let trades : LocalTrades := ⟨[live, booked], by decide⟩
  have hfit := fitInOrder_of_own (h (fun _ => none) trades [old])
    ("BTC/USDT".toList, "Buy".toList) (old, live) (by decide +kernel)
  have hlate : ¬ live.entryTime ≤ old.closedAt := by
    norm_num [live, old, ClosedPnl.closedAt, ClosedPnl.updatedTimeMs]
  exact hlate hfit.1

end Reported

end Reconciler
end Karsa
