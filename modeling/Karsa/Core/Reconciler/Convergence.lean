import Karsa.Core.Reconciler.Cycle

/-!
# Trade reconciler - Convergence

After a cycle whose repairs all went through, the next cycles on the same history should find
nothing to repair, and no order or record of Bybit should ever get two rows.  Both depend on
what the two comparisons recognise of the earlier repairs.

Main results:

- Theorem `entryItems_eq`, `exitItems_eq`: the discrepancies in terms of the history and the
  table.
- Theorem `diverged_step_iff`: when one more cycle changes nothing.
- Theorem `produced_step`: when no source gets a second row.
- Theorem `reconciliation_converges`: the runs that converge.
-/

namespace Karsa
namespace Reconciler

open Bybit Trades

/-! ## What is still to be repaired -/

/-- A record of the window with its place in the history and the open trade it takes; one
that takes none has no closed trade within thirty minutes either. -/
structure PendingExit where
  record : ClosedPnl
  index : ℕ
  trade : Option Trade

section Pending

variable (settings : ReconcilerSettings) (history : BybitHistory) (now : ℚ) (table : TradeTable)

/-- The orders past the grace period that entered no local trade of the window. -/
def pendingOrders : List BybitOrder :=
  (orders settings.reverseMap (fetchPages Fill.execTime (windowStartMs settings now) maxPages
    history.fills)).filter fun o =>
      decide (o.execTime ≤ now - 300 ∧
        ∀ t ∈ table.tradesSince (windowStart settings now), ¬ EnteredBy o t)

/-- The records that take an open trade or find no trade at all. -/
def pendingExits : List PendingExit :=
  let records := windowRecords settings history now
  ((verdicts settings.reverseMap (table.tradesSince (windowStart settings now)) []
      (records.map Prod.fst)).zip (records.map Prod.snd)).filterMap fun item =>
    match item.1.2 with
    | .closes t => some ⟨item.1.1, item.2, some t⟩
    | .books _ => none
    | .unmatched => some ⟨item.1.1, item.2, none⟩

/-- Those of them that one cycle comes to. -/
def dueOrders : List BybitOrder :=
  (pendingOrders settings history now table).take maxRepairsPerCycle

/-- The places left by the orders go to the exits. -/
def dueExits : List PendingExit :=
  (pendingExits settings history now table).take
    (maxRepairsPerCycle - (pendingOrders settings history now table).length)

end Pending

section Conditions

variable (settings : ReconcilerSettings) (history : BybitHistory)

/-- The missing exit of a record. -/
def PendingExit.discrepancy (x : PendingExit) : Discrepancy :=
  match x.trade with
  | some t => missingExit settings.reverseMap x.record (some t.id) .CRITICAL
  | none => missingExit settings.reverseMap x.record none .WARNING

/-- No row for the order: it has no quantity or price, the latest open trade of its symbol is
of its side, or the write is refused. -/
def OrderIdle (a : CycleAnswers) (table : TradeTable) (o : BybitOrder) : Prop :=
  o.qty ≤ 0 ∨ o.price ≤ 0 ∨ alreadyOpen table (missingEntry o) = true ∨
    a.accepts (missingEntry o) = false

/-- Nothing is written for the record: a quantity or price is missing, or the write is
refused. -/
def ExitIdle (a : CycleAnswers) (x : PendingExit) : Prop :=
  Numeral.safeDecimal x.record.qty ≤ 0 ∨ Numeral.safeDecimal x.record.avgExitPrice ≤ 0 ∨
    (x.trade = none ∧ Numeral.safeDecimal x.record.avgEntryPrice ≤ 0) ∨
      a.accepts (x.discrepancy settings) = false

/-- The condition of convergence: after a settled cycle, as long as the history lies in the
window, the first ten orders without a trade and records that take an open trade or find none
are idle. -/
def Quiet (s : ReconcilerState) (a : CycleAnswers) : Prop :=
  a.answered = true → s.settled = true → inWindow settings history (s.now + a.elapsed) = true →
    (∀ o ∈ dueOrders settings history (s.now + a.elapsed) s.table, OrderIdle a s.table o) ∧
      ∀ x ∈ dueExits settings history (s.now + a.elapsed) s.table, ExitIdle settings a x

/-- The condition against doubles: an order is idle where an order of its symbol got a row
before, and a record where it got one itself. -/
def Fresh (s : ReconcilerState) (a : CycleAnswers) : Prop :=
  a.answered = true →
    (∀ o ∈ dueOrders settings history (s.now + a.elapsed) s.table, .order o.key ∈ s.produced →
      ∀ other ∈ dueOrders settings history (s.now + a.elapsed) s.table,
        other.key.symbol = o.key.symbol → OrderIdle a s.table other) ∧
      ∀ x ∈ dueExits settings history (s.now + a.elapsed) s.table, .record x.index ∈ s.produced →
        ExitIdle settings a x

end Conditions

/-- The repair of an order. -/
def BybitOrder.item (o : BybitOrder) : RepairItem :=
  ⟨.order o.key, missingEntry o⟩

/-- It is a missing exit. -/
theorem PendingExit.kind_discrepancy (settings : ReconcilerSettings) (x : PendingExit) :
    (x.discrepancy settings).kind = .missing_exit := by
  unfold PendingExit.discrepancy
  cases x.trade with
  | some t => rfl
  | none => rfl

/-- The repair of a record. -/
def PendingExit.item (settings : ReconcilerSettings) (x : PendingExit) : RepairItem :=
  ⟨.record x.index, x.discrepancy settings⟩

section Items

variable {settings : ReconcilerSettings} {history : BybitHistory} {now : ℚ} {table : TradeTable}

/-- The missing entries are those of the pending orders. -/
theorem entryItems_eq :
    entryItems settings history now table =
      (pendingOrders settings history now table).map BybitOrder.item := by
  unfold entryItems pendingOrders fillReports
  induction orders settings.reverseMap (fetchPages Fill.execTime (windowStartMs settings now)
      maxPages history.fills) with
  | nil => rfl
  | cons o rest ih =>
      by_cases hgrace : o.execTime ≤ now - 300
      · by_cases hentered : ∀ t ∈ table.tradesSince (windowStart settings now), ¬ EnteredBy o t
        · have hreport : compareOrder (table.tradesSince (windowStart settings now)) o =
              some (missingEntry o) :=
            (compareOrder_missing_iff.mpr ⟨hentered, rfl⟩).1
          rw [List.filter_cons_of_pos (by simpa using hgrace),
            List.filter_cons_of_pos (by simpa using ⟨hgrace, hentered⟩),
            List.filterMap_cons_some (by rw [hreport]; rfl), List.filter_cons_of_pos (by rfl),
            List.map_cons, List.map_cons, ih]
          rfl
        · rw [List.filter_cons_of_pos (by simpa using hgrace),
            List.filter_cons_of_neg (by simpa using fun _ => hentered)]
          cases hreport : compareOrder (table.tradesSince (windowStart settings now)) o with
          | none =>
              rw [List.filterMap_cons_none (by rw [hreport]; rfl)]
              exact ih
          | some d =>
              have hkind : d.kind ≠ .missing_entry := fun hmissing =>
                hentered (compareOrder_missing_iff.mp ⟨hreport, hmissing⟩).1
              rw [List.filterMap_cons_some (by rw [hreport]; rfl),
                List.filter_cons_of_neg (by simpa using hkind)]
              exact ih
      · rw [List.filter_cons_of_neg (by simpa using hgrace),
          List.filter_cons_of_neg (by simpa using fun h => absurd h hgrace)]
        exact ih

/-- The missing exits are those of the pending records. -/
theorem exitItems_eq :
    exitItems settings history now table =
      (pendingExits settings history now table).map (PendingExit.item settings) := by
  unfold exitItems pendingExits
  rw [List.filter_filterMap, List.map_filterMap]
  apply List.filterMap_congr
  rintro ⟨⟨r, v⟩, index⟩ -
  cases v with
  | closes t => rfl
  | books t =>
      dsimp only [report]
      split_ifs
      · rfl
      · rfl
  | unmatched => rfl

/-- Repairs of one cycle, orders before records. -/
theorem dueRepairs_eq :
    dueRepairs settings history now table =
      (dueOrders settings history now table).map BybitOrder.item ++
        (dueExits settings history now table).map (PendingExit.item settings) := by
  rw [dueRepairs, repairable, List.take_append, entryItems_eq, exitItems_eq, ← List.map_take,
    ← List.map_take, List.length_map, dueOrders, dueExits]

/-- The trade a pending record takes is open. -/
theorem hasOpen_pendingExit {x : PendingExit} (hx : x ∈ pendingExits settings history now table)
    {t : Trade} (htrade : x.trade = some t) : table.hasOpen t.id = true := by
  rcases List.mem_filterMap.mp hx with ⟨⟨⟨r, v⟩, index⟩, hitem, hpending⟩
  cases v with
  | closes t' =>
      obtain rfl := Option.some.inj hpending
      obtain rfl := Option.some.inj htrade
      have hverdict := (List.of_mem_zip hitem).1
      rcases @class_of_closes _ (.since table (windowStart settings now)) _ _ _ hverdict with
        ⟨ht, hopen, -⟩
      have hrow := (TradeTable.mem_tradesSince.mp ht).1
      exact List.any_eq_true.mpr ⟨t', hrow, by simp [hopen]⟩
  | books t' => cases hpending
  | unmatched =>
      obtain rfl := Option.some.inj hpending
      cases htrade

variable {a : CycleAnswers}

theorem idle_missingEntry_iff {o : BybitOrder} :
    Idle a table (missingEntry o) ↔ OrderIdle a table o := by
  have hvalid : ¬ Valid (missingEntry o) ↔ o.qty ≤ 0 ∨ o.price ≤ 0 := by
    simp only [Valid, missingEntry, not_and_or, not_lt]
  have hcovered : Covered table (missingEntry o) ↔ alreadyOpen table (missingEntry o) = true :=
    Iff.rfl
  rw [Idle, hvalid, hcovered, OrderIdle, or_assoc]

theorem idle_pendingExit_iff {x : PendingExit}
    (hx : x ∈ pendingExits settings history now table) :
    Idle a table (x.discrepancy settings) ↔ ExitIdle settings a x := by
  unfold ExitIdle
  cases htrade : x.trade with
  | some t =>
      have hdiscrepancy : x.discrepancy settings =
          missingExit settings.reverseMap x.record (some t.id) .CRITICAL := by
        rw [PendingExit.discrepancy, htrade]
      have hopen := hasOpen_pendingExit hx htrade
      rw [hdiscrepancy]
      simp only [Idle, Valid, Covered, missingExit, Option.some.injEq, exists_eq_left', hopen,
        Bool.true_eq_false, reduceCtorEq, false_implies, and_true, not_and_or, not_lt, false_or,
        false_and, or_assoc]
  | none =>
      have hdiscrepancy : x.discrepancy settings =
          missingExit settings.reverseMap x.record none .WARNING := by
        rw [PendingExit.discrepancy, htrade]
      rw [hdiscrepancy]
      simp only [Idle, Valid, Covered, missingExit, reduceCtorEq, false_and, exists_const,
        forall_const, true_and, not_and_or, not_lt, false_or, or_assoc]

/-- The repairs of a cycle are all idle exactly when its orders and records are. -/
theorem dueRepairs_idle_iff :
    (∀ item ∈ dueRepairs settings history now table, Idle a table item.discrepancy) ↔
      (∀ o ∈ dueOrders settings history now table, OrderIdle a table o) ∧
        ∀ x ∈ dueExits settings history now table, ExitIdle settings a x := by
  rw [dueRepairs_eq, List.forall_mem_append, List.forall_mem_map, List.forall_mem_map]
  apply and_congr
  · exact forall₂_congr fun o _ => idle_missingEntry_iff
  · exact forall₂_congr fun x hx => idle_pendingExit_iff (List.mem_of_mem_take hx)

end Items

/-! ## Sources of the discrepancies -/

/-- What passes through a partial map keeps the order of its keys. -/
theorem sublist_filterMap_key {α β κ : Type} {f : α → Option β} {key : α → κ} {source : β → κ}
    (hsource : ∀ x y, f x = some y → source y = key x) (l : List α) :
    ((l.filterMap f).map source).Sublist (l.map key) := by
  induction l with
  | nil => exact List.Sublist.refl _
  | cons x rest ih =>
      rw [List.map_cons]
      cases hx : f x with
      | none =>
          rw [List.filterMap_cons_none hx]
          exact ih.cons _
      | some y =>
          rw [List.filterMap_cons_some hx, List.map_cons, hsource x y hx]
          exact ih.cons_cons _

/-- What is fetched stands in the history in this order. -/
theorem fetchPages_sublist {α : Type} (timeMs : α → ℤ) (sinceMs : ℤ) (pages : ℕ)
    (history : List α) : (fetchPages timeMs sinceMs pages history).Sublist history := by
  induction pages generalizing history with
  | zero => exact List.nil_sublist _
  | succ pages ih =>
      rw [fetchPages]
      dsimp only
      cases (history.take pageSize).getLast? with
      | none => exact List.nil_sublist _
      | some oldest =>
          dsimp only
          have hpage := @List.filter_sublist _ (fun x => decide (sinceMs ≤ timeMs x))
            (history.take pageSize)
          split_ifs
          · exact hpage.trans (List.take_sublist _ _)
          · have happend := hpage.append (ih (history.drop pageSize))
            rwa [List.take_append_drop] at happend

section Sources

variable {settings : ReconcilerSettings} {history : BybitHistory} {now : ℚ} {table : TradeTable}

/-- No order is pending twice. -/
theorem nodup_pendingOrders :
    ((pendingOrders settings history now table).map BybitOrder.key).Nodup :=
  (nodup_orderKeys _).sublist (List.filter_sublist.map BybitOrder.key)

theorem length_verdicts (reverseMap : Text → Option Text) (trades : List Trade)
    (taken : List ℕ) (records : List ClosedPnl) :
    (verdicts reverseMap trades taken records).length = records.length := by
  induction records generalizing taken with
  | nil => rfl
  | cons r rest ih => rw [verdicts, List.length_cons, ih, List.length_cons]

/-- No record is pending twice. -/
theorem nodup_pendingExits :
    ((pendingExits settings history now table).map PendingExit.index).Nodup := by
  have hindices : ((windowRecords settings history now).map Prod.snd).Nodup := by
    refine List.Nodup.sublist ((fetchPages_sublist _ _ _ _).map Prod.snd) ?_
    rw [List.zipIdx_map_snd]
    exact List.nodup_range'
  have hzip : ((verdicts settings.reverseMap (table.tradesSince (windowStart settings now)) []
      ((windowRecords settings history now).map Prod.fst)).zip
        ((windowRecords settings history now).map Prod.snd)).map Prod.snd =
      (windowRecords settings history now).map Prod.snd := by
    apply List.map_snd_zip
    rw [length_verdicts, List.length_map, List.length_map]
  rw [← hzip] at hindices
  refine hindices.sublist (sublist_filterMap_key ?_ _)
  rintro ⟨⟨r, v⟩, index⟩ x hx
  cases v with
  | closes t =>
      obtain rfl := Option.some.inj hx
      rfl
  | books t => cases hx
  | unmatched =>
      obtain rfl := Option.some.inj hx
      rfl

/-- No source is due twice in a cycle. -/
theorem nodup_dueRepairs :
    ((dueRepairs settings history now table).map RepairItem.source).Nodup := by
  have horder : Function.Injective RepairSource.order := fun _ _ h => RepairSource.order.inj h
  have hrecord : Function.Injective RepairSource.record := fun _ _ h => RepairSource.record.inj h
  have horders := (nodup_pendingOrders.sublist
    ((List.take_sublist maxRepairsPerCycle (pendingOrders settings history now table)).map
      BybitOrder.key)).map horder
  have hexits := (nodup_pendingExits.sublist
    ((List.take_sublist (maxRepairsPerCycle - (pendingOrders settings history now table).length)
      (pendingExits settings history now table)).map PendingExit.index)).map hrecord
  rw [List.map_map] at horders hexits
  rw [dueRepairs_eq, List.map_append, List.map_map, List.map_map, List.nodup_append]
  refine ⟨horders, hexits, ?_⟩
  intro first hfirst second hsecond heq
  rcases List.mem_map.mp hfirst with ⟨o, -, rfl⟩
  rcases List.mem_map.mp hsecond with ⟨x, -, rfl⟩
  cases heq

end Sources

/-! ## Repairs of a source -/

section Repairs

variable {a : CycleAnswers}

/-- A missing entry never closes a trade. -/
theorem planRepair_entry {table : TradeTable} {d : Discrepancy} (hentry : d.kind = .missing_entry)
    {id : ℕ} {e : Exit} : planRepair a table d ≠ some (.close id e) := by
  intro h
  rcases planRepair_cases h with ⟨-, _, _, hw⟩ | ⟨-, -, _, _, _, _, hw⟩ | ⟨hexit, -⟩
  · cases hw
  · cases hw
  · rw [hentry] at hexit
    cases hexit

/-- The exit of a listed trade never inserts a row. -/
theorem planRepair_exit {table : TradeTable} {d : Discrepancy} (hexit : d.kind = .missing_exit)
    {id : ℕ} (hid : d.localTradeId = some id) {t : Trade} :
    planRepair a table d ≠ some (.insert t) := by
  intro h
  rcases planRepair_cases h with ⟨hentry, -⟩ | ⟨-, hnone, -⟩ | ⟨-, _, _, _, -, -, hw⟩
  · rw [hexit] at hentry
    cases hentry
  · rw [hid] at hnone
    cases hnone
  · cases hw

/-- A covered exit is that of a listed trade. -/
theorem localTradeId_of_covered {table : TradeTable} {d : Discrepancy}
    (hexit : d.kind = .missing_exit) (hcovered : Covered table d) :
    ∃ id, d.localTradeId = some id := by
  unfold Covered at hcovered
  cases hdata : d.bybitData with
  | exit pnl entryPrice exitPrice qty updatedTimeMs =>
      rw [hdata] at hcovered
      exact hcovered.imp fun _ h => h.1
  | entry price qty execTime orderId =>
      rw [Discrepancy.kind, hdata] at hexit
      cases hexit
  | prices bybitPrice localPrice =>
      rw [Discrepancy.kind, hdata] at hexit
      cases hexit
  | pnls bybitPnl localPnl =>
      rw [Discrepancy.kind, hdata] at hexit
      cases hexit

/-- The repair of an entry leaves the table or inserts a row of its symbol. -/
theorem repairItem_entry {item : RepairItem} (hentry : item.discrepancy.kind = .missing_entry)
    (s : Repaired) :
    repairItem a s item = s ∨
      ∃ t : Trade, t.symbol = item.discrepancy.symbol ∧
        repairItem a s item = ⟨s.table.insert t, s.inserted ++ [item.source]⟩ := by
  unfold repairItem
  split_ifs
  · cases hplan : planRepair a s.table item.discrepancy with
    | none => exact Or.inl rfl
    | some repair =>
        cases repair with
        | insert t => exact Or.inr ⟨t, symbol_of_plan hplan, rfl⟩
        | close id e => exact absurd hplan (planRepair_entry hentry)
  · exact Or.inl rfl

/-- A row of another symbol leaves the latest open trade of a symbol. -/
theorem openTradeBySymbol_insert {table : TradeTable} {t : Trade} {symbol : Text}
    (hsymbol : t.symbol ≠ symbol) :
    (table.insert t).openTradeBySymbol symbol = table.openTradeBySymbol symbol := by
  simp [TradeTable.openTradeBySymbol, TradeTable.insert, List.filter_append, hsymbol]

/-- An idle entry stays idle when a row of another symbol is inserted. -/
theorem idle_insert {table : TradeTable} {t : Trade} {d : Discrepancy}
    (hentry : d.kind = .missing_entry) (hsymbol : t.symbol ≠ d.symbol)
    (hidle : Idle a table d) : Idle a (table.insert t) d := by
  rcases hidle with h | h | h
  · exact Or.inl h
  · refine Or.inr (Or.inl ?_)
    unfold Covered at h ⊢
    cases hdata : d.bybitData with
    | entry price qty execTime orderId =>
        rw [hdata] at h
        dsimp only at h ⊢
        unfold alreadyOpen at h ⊢
        rwa [openTradeBySymbol_insert hsymbol]
    | exit pnl entryPrice exitPrice qty updatedTimeMs =>
        rw [Discrepancy.kind, hdata] at hentry
        cases hentry
    | prices bybitPrice localPrice => trivial
    | pnls bybitPnl localPnl => trivial
  · exact Or.inr (Or.inr h)

/-- Where every entry of a symbol is idle, no source of that symbol gets a row. -/
theorem not_inserted_entries {items : List RepairItem} {s : Repaired} {source : RepairSource}
    {symbol : Text} (hentry : ∀ item ∈ items, item.discrepancy.kind = .missing_entry)
    (hidle : ∀ item ∈ items, item.discrepancy.symbol = symbol → Idle a s.table item.discrepancy)
    (hsource : ∀ item ∈ items, item.source = source → item.discrepancy.symbol = symbol)
    (hnew : source ∉ s.inserted) : source ∉ (items.foldl (repairItem a) s).inserted := by
  induction items generalizing s with
  | nil => exact hnew
  | cons item rest ih =>
      rw [List.forall_mem_cons] at hentry hidle hsource
      rw [List.foldl_cons]
      rcases repairItem_entry hentry.1 s with hsame | ⟨t, ht, hinsert⟩
      · rw [hsame]
        exact ih hentry.2 hidle.2 hsource.2 hnew
      · by_cases hsymbol : item.discrepancy.symbol = symbol
        · rw [repairItem_of_idle (hidle.1 hsymbol)]
          exact ih hentry.2 hidle.2 hsource.2 hnew
        · rw [hinsert]
          refine ih hentry.2 ?_ hsource.2 ?_
          · intro other hother hother'
            refine idle_insert (hentry.2 other hother) ?_ (hidle.2 other hother hother')
            rw [ht, hother']
            exact hsymbol
          · rw [List.mem_append, List.mem_singleton]
            rintro (hold | hitem)
            · exact hnew hold
            · exact hsymbol (hsource.1 hitem.symm)

/-- An exit that was idle in some table never inserts a row. -/
theorem repairItem_exit {item : RepairItem} {table : TradeTable}
    (hexit : item.discrepancy.kind = .missing_exit) (hidle : Idle a table item.discrepancy)
    (s : Repaired) : (repairItem a s item).inserted = s.inserted := by
  unfold repairItem
  split_ifs with haccepts
  · cases hplan : planRepair a s.table item.discrepancy with
    | none => rfl
    | some write =>
        cases write with
        | close id e => rfl
        | insert t =>
            exfalso
            rcases hidle with hinvalid | hcovered | hrefused
            · rw [planRepair_eq_none_iff.mpr (Or.inl hinvalid)] at hplan
              cases hplan
            · rcases localTradeId_of_covered hexit hcovered with ⟨id, hid⟩
              exact planRepair_exit hexit hid hplan
            · rw [haccepts] at hrefused
              cases hrefused
  · rfl

/-- An idle exit gets no row. -/
theorem not_inserted_exits {items : List RepairItem} {s : Repaired} {source : RepairSource}
    {table : TradeTable} (hexit : ∀ item ∈ items, item.discrepancy.kind = .missing_exit)
    (hidle : ∀ item ∈ items, item.source = source → Idle a table item.discrepancy)
    (hnew : source ∉ s.inserted) : source ∉ (items.foldl (repairItem a) s).inserted := by
  induction items generalizing s with
  | nil => exact hnew
  | cons item rest ih =>
      rw [List.forall_mem_cons] at hexit hidle
      rw [List.foldl_cons]
      refine ih hexit.2 hidle.2 ?_
      by_cases hsource : item.source = source
      · rwa [repairItem_exit hexit.1 (hidle.1 hsource)]
      · rcases @repairItem_inserted a s item with h | h
        · rwa [h]
        · rw [h, List.mem_append, List.mem_singleton]
          rintro (hold | hitem)
          · exact hnew hold
          · exact hsource hitem.symm

end Repairs

/-! ## One cycle -/

section Cycle

variable {settings : ReconcilerSettings} {history : BybitHistory}

/-- After a settled cycle the next one changes nothing exactly under its condition. -/
theorem diverged_step_iff {s : ReconcilerState} (hs : s.diverged = false) (a : CycleAnswers) :
    (reconcileCycle settings history s a).diverged = false ↔ Quiet settings history s a := by
  unfold reconcileCycle Quiet
  dsimp only
  cases hanswered : a.answered with
  | false => simp [hs]
  | true =>
      rw [if_pos rfl, ← dueRepairs_idle_iff, ← autoRepair_rows_iff]
      dsimp only
      rw [hs, Bool.false_or]
      cases hsettled : s.settled <;>
        cases hwindow : inWindow settings history (s.now + a.elapsed) <;> simp

/-- An order with a row gets no second one in a cycle that meets the condition, and no record
does. -/
theorem not_inserted_of_fresh {s : ReconcilerState} {a : CycleAnswers}
    (hfresh : Fresh settings history s a) (hanswered : a.answered = true)
    {source : RepairSource} (hproduced : source ∈ s.produced) :
    source ∉ (autoRepair a s.table
      (dueRepairs settings history (s.now + a.elapsed) s.table)).inserted := by
  rcases hfresh hanswered with ⟨horders, hexits⟩
  rw [dueRepairs_eq, autoRepair, List.foldl_append]
  apply not_inserted_exits
  · intro item hitem
    rcases List.mem_map.mp hitem with ⟨x, -, rfl⟩
    exact x.kind_discrepancy settings
  · intro item hitem hsource
    rcases List.mem_map.mp hitem with ⟨x, hx, rfl⟩
    rw [← hsource] at hproduced
    exact (idle_pendingExit_iff (List.mem_of_mem_take hx)).mpr (hexits x hx hproduced)
  · by_cases hlisted : ∃ o ∈ dueOrders settings history (s.now + a.elapsed) s.table,
        .order o.key = source
    · rcases hlisted with ⟨o, ho, rfl⟩
      apply @not_inserted_entries a _ ⟨s.table, []⟩ _ o.key.symbol
      · intro item hitem
        rcases List.mem_map.mp hitem with ⟨other, -, rfl⟩
        rfl
      · intro item hitem hsymbol
        rcases List.mem_map.mp hitem with ⟨other, hother, rfl⟩
        exact idle_missingEntry_iff.mpr (horders o ho hproduced other hother hsymbol)
      · intro item hitem hsource
        rcases List.mem_map.mp hitem with ⟨other, -, rfl⟩
        have hkey : other.key = o.key := RepairSource.order.inj hsource
        exact congrArg OrderKey.symbol hkey
      · exact List.not_mem_nil
    · intro hinserted
      rcases @repairs_inserted a _ ⟨s.table, []⟩ with ⟨added, hadded, hsub⟩
      rw [hadded, List.nil_append] at hinserted
      rcases List.mem_map.mp (hsub.subset hinserted) with ⟨item, hitem, hsource⟩
      rcases List.mem_map.mp hitem with ⟨o, ho, rfl⟩
      exact hlisted ⟨o, ho, hsource⟩

/-- No source gets a second row in a cycle that meets the condition. -/
theorem produced_step {s : ReconcilerState} {a : CycleAnswers} (hs : s.produced.Nodup)
    (hfresh : Fresh settings history s a) :
    (reconcileCycle settings history s a).produced.Nodup := by
  unfold reconcileCycle
  dsimp only
  cases hanswered : a.answered with
  | false => exact hs
  | true =>
      rw [if_pos rfl]
      dsimp only
      rw [List.nodup_append]
      refine ⟨hs, ?_, ?_⟩
      · rcases @repairs_inserted a
          (dueRepairs settings history (s.now + a.elapsed) s.table) ⟨s.table, []⟩ with
            ⟨added, hadded, hsub⟩
        rw [autoRepair, hadded, List.nil_append]
        exact nodup_dueRepairs.sublist hsub
      · intro source hsource other hother heq
        rw [← heq] at hother
        exact not_inserted_of_fresh hfresh hanswered hsource hother

end Cycle

/-! ## Runs -/

/-- No cycle after a settled one changes the rows exactly when each of them meets `Quiet`, and
no order or record gets two rows when every cycle meets `Fresh`. -/
theorem reconciliation_converges (settings : ReconcilerSettings) (history : BybitHistory)
    (table : TradeTable) (now : ℚ) (cycles : List CycleAnswers) :
    ((∀ n, (run (reconcileCycle settings history) (.start table now) (cycles.take n)).diverged =
        false) ↔
      Admits (reconcileCycle settings history) (Quiet settings history) (.start table now)
        cycles) ∧
    (Admits (reconcileCycle settings history) (Fresh settings history) (.start table now) cycles →
      ∀ n, (run (reconcileCycle settings history) (.start table now)
        (cycles.take n)).produced.Nodup) := by
  constructor
  · exact @invariant_iff_admits _ _ (reconcileCycle settings history) (Quiet settings history)
      (fun s => s.diverged = false) (fun _ a hs => diverged_step_iff hs a) _ _ rfl
  · intro hadmits n
    exact @invariant_run_take _ _ (reconcileCycle settings history) (Fresh settings history)
      (fun s => s.produced.Nodup) (fun _ _ hs hfresh => produced_step hs hfresh) _ _
      List.nodup_nil hadmits n

/-- A record two hours old without a local trade gets a row, and five minutes later
another. -/
theorem reconciliation_duplicates :
    ¬ ∀ (settings : ReconcilerSettings) (history : BybitHistory) (table : TradeTable) (now : ℚ)
      (cycles : List CycleAnswers) (n : ℕ),
      (run (reconcileCycle settings history) (.start table now) (cycles.take n)).diverged =
          false ∧
        (run (reconcileCycle settings history) (.start table now)
          (cycles.take n)).produced.Nodup := by
  intro h
  have hconverged := (h ⟨fun _ => none, 24⟩
    ⟨[], [⟨"BTCUSDT".toList, "Sell".toList, some (.value 10), some (.value 1),
      some (.value 100), some (.value 110), some 100000000, some 100000000⟩]⟩
    .empty 107200
    [⟨0, true, 107200, fun _ => 107200, fun _ => true⟩,
      ⟨300, true, 107500, fun _ => 107500, fun _ => true⟩] 2).1
  revert hconverged
  decide +kernel

end Reconciler
end Karsa
