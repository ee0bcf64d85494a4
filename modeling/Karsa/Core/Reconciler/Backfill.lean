import Karsa.Core.Reconciler.Cycle
import Karsa.Foundations.FirstOfKey

/-!
# Trade reconciler - Backfill at startup

The first `backfill_from_bybit` of a process reads Bybit's closed-PnL records and inserts a
complete trade for each.  A record is skipped where its key (symbol, side and the minute its
time lies in) is that of a local trade entered since the oldest record, or of a record
inserted before it.

Main results:

- Theorem `mem_inserted_iff`: which closures are inserted.
- Theorem `backfillCalls_eq`: only the first call inserts.
- Theorem `insertsMissingOnce_iff`: when each missing closure is inserted, and no other.
-/

namespace Karsa
namespace Reconciler

open Bybit Trades FirstOfKey

/-! ## Reading the records -/

/-- A closing order and its record; the backfill reads the record only. -/
structure Closure where
  orderId : Text
  record : ClosedPnl
deriving Repr, DecidableEq

/-- An answer of `get_closed_pnl`; `more` tells that it holds a cursor. -/
structure ClosedPnlPage where
  closures : List Closure
  more : Bool
deriving Repr, DecidableEq

/-- The paging loop: up to an empty page, one without a cursor, or `max_pages`. -/
def gatherPages : ℕ → List ClosedPnlPage → List Closure
  | 0, _ => []
  | _, [] => []
  | pages + 1, page :: rest =>
      if page.closures = [] then []
      else if page.more then page.closures ++ gatherPages pages rest
      else page.closures

/-- What a call meets: the pages in order, and which of the gathered records can be
inserted. -/
structure BackfillAnswers where
  maxPages : ℕ
  pages : List ClosedPnlPage
  accepts : ℕ → Bool

namespace BackfillAnswers

variable (a : BackfillAnswers)

/-- `all_records`. -/
def closures : List Closure :=
  gatherPages a.maxPages a.pages

/-- The records in order, each with whether its insert goes through. -/
def attempts : List (Closure × Bool) :=
  a.closures.zipIdx.map fun item => (item.1, a.accepts item.2)

/-- `oldest_ts`; `none` without records. -/
def oldestMs : Option ℤ :=
  (a.closures.map fun c => c.record.createdTimeMs).min?

end BackfillAnswers

/-! ## Keys -/

/-- Entry time of the backfilled trade, in seconds. -/
def ClosedPnl.createdAt (r : ClosedPnl) : ℚ :=
  r.createdTimeMs / 1000

/-- `f"{symbol}:{side}:{minute_key}"`; the minute is counted from the epoch. -/
def minuteKey (symbol side : Text) (time : ℚ) : Text × ℤ :=
  (symbol ++ ':' :: side, ⌊time / 60⌋)

/-- Key of a local trade. -/
def localKey (t : Trade) : Text × ℤ :=
  minuteKey t.symbol (normalizeTradeSide t.side) t.entryTime

/-- Key of a record. -/
def closureKey (reverseMap : Text → Option Text) (c : Closure) : Text × ℤ :=
  minuteKey (unifiedSymbol reverseMap c.record.symbol) c.record.positionSide c.record.createdAt

/-- The record has a positive entry price and quantity. -/
def Closure.priced (c : Closure) : Bool :=
  decide (0 < Numeral.safeDecimal c.record.avgEntryPrice ∧
    0 < Numeral.safeDecimal c.record.qty)

/-- The row of `record_full_trade`. -/
def closureRow (reverseMap : Text → Option Text) (c : Closure) : Trade where
  id := 0
  symbol := unifiedSymbol reverseMap c.record.symbol
  side := c.record.positionSide
  amount := Numeral.safeDecimal c.record.qty
  entryPrice := Numeral.safeDecimal c.record.avgEntryPrice
  exitPrice := some (Numeral.safeDecimal c.record.avgExitPrice)
  pnl := some (Numeral.safeDecimal c.record.closedPnl)
  regime := some "BACKFILL".toList
  entryTime := c.record.createdAt
  exitTime := some c.record.closedAt
  exitReason := some "bybit_sync".toList

/-! ## The backfill -/

/-- The loop's state: the table, `local_keys`, and the closures inserted so far. -/
structure Backfilled where
  table : TradeTable
  keys : List (Text × ℤ)
  inserted : List Closure

/-- Body of the loop. -/
def backfillItem (reverseMap : Text → Option Text) (s : Backfilled) (item : Closure × Bool) :
    Backfilled :=
  let c := item.1
  if closureKey reverseMap c ∈ s.keys then s
  else if Numeral.safeDecimal c.record.avgEntryPrice ≤ 0 ∨
      Numeral.safeDecimal c.record.qty ≤ 0 then s
  else if item.2 then
    { table := s.table.insert (closureRow reverseMap c)
      keys := closureKey reverseMap c :: s.keys
      inserted := s.inserted ++ [c] }
  else s

/-- Keys of the local trades entered since the oldest record. -/
def localKeys (a : BackfillAnswers) (table : TradeTable) : List (Text × ℤ) :=
  match a.oldestMs with
  | none => []
  | some oldest => (table.tradesSince (oldest / 1000)).map localKey

/-- The loop over the records. -/
def backfillClosures (reverseMap : Text → Option Text) (a : BackfillAnswers)
    (table : TradeTable) : Backfilled :=
  match a.oldestMs with
  | none => ⟨table, [], []⟩
  | some _ => a.attempts.foldl (backfillItem reverseMap) ⟨table, localKeys a table, []⟩

/-- `_backfill_done`, the table, and the closures inserted by all calls. -/
structure BackfillState where
  done : Bool
  table : TradeTable
  inserted : List Closure

/-- A process that has not run the backfill. -/
def BackfillState.fresh (table : TradeTable) : BackfillState where
  done := false
  table := table
  inserted := []

/-- `backfill_from_bybit`. -/
def backfillFromBybit (reverseMap : Text → Option Text) (s : BackfillState)
    (a : BackfillAnswers) : BackfillState :=
  if s.done then s
  else
    let b := backfillClosures reverseMap a s.table
    ⟨true, b.table, s.inserted ++ b.inserted⟩

/-- The calls of a process. -/
def backfillCalls (reverseMap : Text → Option Text) (calls : List BackfillAnswers)
    (table : TradeTable) : BackfillState :=
  calls.foldl (backfillFromBybit reverseMap) (.fresh table)

/-! ## Inserting each missing trade once -/

section Purpose

variable (δ : ℚ) (reverseMap : Text → Option Text) (table : TradeTable)

/-- The table holds a trade of the record's symbol and side, entered within `δ` seconds of
its time. -/
def HasCounterpart (c : Closure) : Prop :=
  ∃ t ∈ table.rows, tradeClass t = recordClass reverseMap c.record ∧
    |t.entryTime - c.record.createdAt| ≤ δ

instance (c : Closure) : Decidable (HasCounterpart δ reverseMap table c) :=
  inferInstanceAs (Decidable (∃ t ∈ table.rows, tradeClass t = recordClass reverseMap c.record ∧
    |t.entryTime - c.record.createdAt| ≤ δ))

/-- After the first call and any later ones, every priced closure without a counterpart is
inserted once, no other is, and the table has gained one complete trade for each. -/
structure InsertsMissingOnce (a : BackfillAnswers) (later : List BackfillAnswers) : Prop where
  once : ∀ c, (backfillCalls reverseMap (a :: later) table).inserted.count c =
    if c ∈ a.closures ∧ c.priced = true ∧ ¬ HasCounterpart δ reverseMap table c then 1 else 0
  rows : ∃ new, (backfillCalls reverseMap (a :: later) table).table.rows = table.rows ++ new ∧
    new.map (fun t => { t with id := 0 }) =
      (backfillCalls reverseMap (a :: later) table).inserted.map (closureRow reverseMap)

/-- The closure can be inserted, before any other priced one of its key that can. -/
def LeadsMinute (a : BackfillAnswers) (c : Closure) : Prop :=
  Leads (fun item => closureKey reverseMap item.1) (fun item => item.1.priced && item.2)
    a.attempts (c, true)

/-- Minutes tell the closures apart: one with a counterpart shares its key with a local trade
read or does not lead its minute, and one without leads its minute and shares its key with
none. -/
structure MinutesTell (a : BackfillAnswers) : Prop where
  known : ∀ c ∈ a.closures, c.priced = true → HasCounterpart δ reverseMap table c →
    closureKey reverseMap c ∈ localKeys a table ∨ ¬ LeadsMinute reverseMap a c
  missing : ∀ c ∈ a.closures, c.priced = true → ¬ HasCounterpart δ reverseMap table c →
    closureKey reverseMap c ∉ localKeys a table ∧ LeadsMinute reverseMap a c

end Purpose

/-! ## What the loop inserts -/

section Loop

variable {reverseMap : Text → Option Text} {s : Backfilled} {item : Closure × Bool}

/-- An item is inserted under its key. -/
theorem backfillItem_of_kept
    (hkey : closureKey reverseMap item.1 ∉ s.keys)
    (hpasses : (item.1.priced && item.2) = true) :
    backfillItem reverseMap s item =
      ⟨s.table.insert (closureRow reverseMap item.1), closureKey reverseMap item.1 :: s.keys,
        s.inserted ++ [item.1]⟩ := by
  rw [Bool.and_eq_true, Closure.priced, decide_eq_true_iff] at hpasses
  have hpositive : ¬ (Numeral.safeDecimal item.1.record.avgEntryPrice ≤ 0 ∨
      Numeral.safeDecimal item.1.record.qty ≤ 0) := by
    rw [not_or, not_le, not_le]
    exact hpasses.1
  rw [backfillItem, if_neg hkey, if_neg hpositive, if_pos hpasses.2]

/-- Any other item changes nothing. -/
theorem backfillItem_of_skipped
    (h : ¬ (closureKey reverseMap item.1 ∉ s.keys ∧ (item.1.priced && item.2) = true)) :
    backfillItem reverseMap s item = s := by
  rw [backfillItem]
  split
  · rfl
  · rename_i hkey
    split
    · rfl
    · rename_i hpositive
      split
      · rename_i haccepted
        rw [not_or, not_le, not_le] at hpositive
        refine absurd ⟨hkey, ?_⟩ h
        rw [haccepted, Bool.and_true]
        exact decide_eq_true hpositive
      · rfl

/-- The loop inserts the first of every key. -/
theorem inserted_foldl (items : List (Closure × Bool)) (s : Backfilled) :
    (items.foldl (backfillItem reverseMap) s).inserted =
      s.inserted ++ (keepFirst (fun item => closureKey reverseMap item.1)
        (fun item => item.1.priced && item.2) s.keys items).map Prod.fst := by
  induction items generalizing s with
  | nil => simp [keepFirst]
  | cons item rest ih =>
      rw [List.foldl_cons, ih, keepFirst]
      by_cases hkept : closureKey reverseMap item.1 ∉ s.keys ∧
          (item.1.priced && item.2) = true
      · rw [if_pos hkept, backfillItem_of_kept hkept.1 hkept.2, List.map_cons,
          List.append_assoc]
        rfl
      · rw [if_neg hkept, backfillItem_of_skipped hkept]

/-- The rows of the old table, then one for each inserted closure. -/
def Recorded (reverseMap : Text → Option Text) (old : TradeTable) (s : Backfilled) : Prop :=
  ∃ new, s.table.rows = old.rows ++ new ∧
    new.map (fun t => { t with id := 0 }) = s.inserted.map (closureRow reverseMap)

/-- One item keeps the rows recorded. -/
theorem Recorded.step {old : TradeTable} (h : Recorded reverseMap old s)
    (item : Closure × Bool) : Recorded reverseMap old (backfillItem reverseMap s item) := by
  by_cases hkept : closureKey reverseMap item.1 ∉ s.keys ∧ (item.1.priced && item.2) = true
  · rcases h with ⟨new, hrows, hnew⟩
    rw [backfillItem_of_kept hkept.1 hkept.2]
    refine ⟨new ++ [{ closureRow reverseMap item.1 with id := s.table.lastId + 1 }], ?_, ?_⟩
    · rw [← List.append_assoc, ← hrows]
      rfl
    · rw [List.map_append, List.map_append, hnew]
      rfl
  · rwa [backfillItem_of_skipped hkept]

/-- So does the loop. -/
theorem Recorded.foldl {old : TradeTable} (h : Recorded reverseMap old s)
    (items : List (Closure × Bool)) :
    Recorded reverseMap old (items.foldl (backfillItem reverseMap) s) := by
  induction items generalizing s with
  | nil => exact h
  | cons item rest ih => exact ih (h.step item)

end Loop

/-! ## What a process inserts -/

section Calls

variable {δ : ℚ} {reverseMap : Text → Option Text} {table : TradeTable} {a : BackfillAnswers}

/-- Without records the loop does not run. -/
theorem backfillClosures_eq (reverseMap : Text → Option Text) (a : BackfillAnswers)
    (table : TradeTable) :
    backfillClosures reverseMap a table =
      a.attempts.foldl (backfillItem reverseMap) ⟨table, localKeys a table, []⟩ := by
  unfold backfillClosures
  split
  · rename_i hnone
    have hempty : a.closures = [] := by simpa [BackfillAnswers.oldestMs] using hnone
    simp [BackfillAnswers.attempts, localKeys, hempty, hnone]
  · rfl

/-- A process that has run the backfill inserts nothing more. -/
theorem foldl_backfill_of_done {s : BackfillState} (hdone : s.done = true)
    (calls : List BackfillAnswers) : calls.foldl (backfillFromBybit reverseMap) s = s := by
  induction calls with
  | nil => rfl
  | cons a rest ih => rw [List.foldl_cons, backfillFromBybit, if_pos hdone, ih]

/-- Only the first call inserts. -/
theorem backfillCalls_eq (a : BackfillAnswers) (later : List BackfillAnswers) :
    backfillCalls reverseMap (a :: later) table =
      ⟨true, (backfillClosures reverseMap a table).table,
        (backfillClosures reverseMap a table).inserted⟩ := by
  have hfresh : ¬ (BackfillState.fresh table).done = true := Bool.false_ne_true
  rw [backfillCalls, List.foldl_cons, backfillFromBybit, if_neg hfresh]
  exact foldl_backfill_of_done rfl later

/-- A closure that leads its minute is one of the records, and priced. -/
theorem mem_closures_of_leads {c : Closure} (h : LeadsMinute reverseMap a c) :
    c ∈ a.closures ∧ c.priced = true := by
  rcases h with ⟨before, after, hsplit, hpasses, -⟩
  have hmem : (c, true) ∈ a.attempts := by
    rw [hsplit]
    exact List.mem_append_right _ List.mem_cons_self
  rcases List.mem_map.mp hmem with ⟨item, hitem, heq⟩
  rw [← (Prod.mk.inj heq).1]
  refine ⟨List.fst_mem_of_mem_zipIdx hitem, ?_⟩
  rw [(Prod.mk.inj heq).1]
  exact (Bool.and_eq_true_iff.mp hpasses).1

/-- The closures inserted lead their minute, and no local trade read has their key. -/
theorem mem_inserted_iff {c : Closure} :
    c ∈ (backfillClosures reverseMap a table).inserted ↔
      closureKey reverseMap c ∉ localKeys a table ∧ LeadsMinute reverseMap a c := by
  rw [backfillClosures_eq, inserted_foldl, List.nil_append, List.mem_map]
  constructor
  · rintro ⟨⟨c', accepted⟩, hmem, rfl⟩
    rcases (mem_keepFirst_iff _ _).mp hmem with ⟨hkey, hleads⟩
    have haccepted : accepted = true := by
      rcases hleads with ⟨-, -, -, hpasses, -⟩
      exact (Bool.and_eq_true_iff.mp hpasses).2
    subst haccepted
    exact ⟨hkey, hleads⟩
  · intro h
    exact ⟨(c, true), (mem_keepFirst_iff _ _).mpr h, rfl⟩

/-- No closure is inserted twice. -/
theorem nodup_inserted (reverseMap : Text → Option Text) (a : BackfillAnswers)
    (table : TradeTable) : (backfillClosures reverseMap a table).inserted.Nodup := by
  rw [backfillClosures_eq, inserted_foldl, List.nil_append]
  have hkeys := nodup_keepFirst (fun item : Closure × Bool => closureKey reverseMap item.1)
    (fun item => item.1.priced && item.2) (localKeys a table) a.attempts
  refine List.Nodup.of_map (closureKey reverseMap) ?_
  rwa [List.map_map]

/-- The count of a list without repetitions is that of a predicate. -/
theorem count_eq_ite_iff {list : List Closure} (hnodup : list.Nodup) {c : Closure} {p : Prop}
    [Decidable p] : (list.count c = if p then 1 else 0) ↔ (c ∈ list ↔ p) := by
  rw [hnodup.count]
  by_cases hmem : c ∈ list <;> by_cases hp : p <;> simp [hmem, hp]

/-- Each missing closure is inserted once, and no other, exactly when minutes tell the closures
apart. -/
theorem insertsMissingOnce_iff (δ : ℚ) (reverseMap : Text → Option Text) (table : TradeTable)
    (a : BackfillAnswers) (later : List BackfillAnswers) :
    InsertsMissingOnce δ reverseMap table a later ↔ MinutesTell δ reverseMap table a := by
  have honce : ∀ c, ((backfillCalls reverseMap (a :: later) table).inserted.count c =
      if c ∈ a.closures ∧ c.priced = true ∧ ¬ HasCounterpart δ reverseMap table c
        then 1 else 0) ↔
      ((closureKey reverseMap c ∉ localKeys a table ∧ LeadsMinute reverseMap a c) ↔
        c ∈ a.closures ∧ c.priced = true ∧ ¬ HasCounterpart δ reverseMap table c) := by
    intro c
    rw [backfillCalls_eq, count_eq_ite_iff (nodup_inserted reverseMap a table),
      mem_inserted_iff]
  constructor
  · rintro ⟨hcount, -⟩
    constructor
    · intro c hc hpriced hhas
      by_contra hnot
      rw [not_or, not_not] at hnot
      exact ((honce c).mp (hcount c)).mp hnot |>.2.2 hhas
    · intro c hc hpriced hnone
      exact ((honce c).mp (hcount c)).mpr ⟨hc, hpriced, hnone⟩
  · rintro ⟨hknown, hmissing⟩
    constructor
    · intro c
      rw [honce]
      constructor
      · rintro ⟨hkey, hleads⟩
        rcases mem_closures_of_leads hleads with ⟨hc, hpriced⟩
        refine ⟨hc, hpriced, ?_⟩
        intro hhas
        rcases hknown c hc hpriced hhas with hlocal | hnot
        · exact hkey hlocal
        · exact hnot hleads
      · rintro ⟨hc, hpriced, hnone⟩
        exact hmissing c hc hpriced hnone
    · rw [backfillCalls_eq, backfillClosures_eq]
      exact Recorded.foldl ⟨[], by simp, rfl⟩ a.attempts

/-- A closed long that was entered at the given time. -/
def longClosure (orderId : Text) (createdTime : ℤ) : Closure where
  orderId := orderId
  record := ⟨"BTCUSDT".toList, "Sell".toList, some (.value 5), some (.value 1),
    some (.value 100), some (.value 105), some createdTime, some (createdTime + 300000)⟩

/-- One page of records, all of which can be inserted. -/
def onePage (closures : List Closure) : BackfillAnswers where
  maxPages := 10
  pages := [⟨closures, false⟩]
  accepts := fun _ => true

/-- A closed local trade, entered a second before its minute ended. -/
def storedLong : Trade :=
  closureRow (fun _ => none) (longClosure "c".toList 600059000)

/-- The second of two closures within one minute is lost; a record two seconds after its local
trade, in the next minute, is inserted beside it. -/
theorem backfill_loses_and_doubles :
    ¬ InsertsMissingOnce 5 (fun _ => none) TradeTable.empty
        (onePage [longClosure "a".toList 600010000, longClosure "b".toList 600040000]) [] ∧
      ¬ InsertsMissingOnce 5 (fun _ => none) (TradeTable.empty.insert storedLong)
        (onePage [longClosure "a".toList 600010000, longClosure "c".toList 600061000]) [] := by
  constructor
  · intro h
    exact absurd (h.once (longClosure "b".toList 600040000)) (by decide +kernel)
  · intro h
    exact absurd (h.once (longClosure "c".toList 600061000)) (by decide +kernel)

end Calls

end Reconciler
end Karsa
