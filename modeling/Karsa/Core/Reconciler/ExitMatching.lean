import Karsa.Core.Reconciler.ClosedPnl

/-!
# Trade reconciler - Exits one to one

Every closing record gets one verdict: it closes an open local trade, it is booked by a closed
one, or it is unmatched.  A verdict reports a missing exit unless the record is booked, and
`matched_local_ids` keeps a local trade from being used again.

Main results:

- Theorem `verdict_cases`: what a verdict rests on, and what it reports.
- Theorem `nodup_usedTrades`: no local trade is used twice.
- Theorem `exitsOneToOne`: missing exits and booked records make up all records.
-/

namespace Karsa
namespace Reconciler

open Trades

/-! ## Trades used and exits missed -/

/-- The local trade a verdict uses. -/
def Verdict.trade : Verdict → Option Trade
  | .closes t => some t
  | .books t => some t
  | .unmatched => none

/-- The record is matched to a closed local trade. -/
def Verdict.booked : Verdict → Bool
  | .closes _ => false
  | .books _ => true
  | .unmatched => false

/-- The missing exits reported for a record. -/
def missingExits (reverseMap : Text → Option Text) (item : ClosedPnl × Verdict) :
    List Discrepancy :=
  (report reverseMap item.1 item.2).toList.filter fun d => decide (d.kind = .missing_exit)

section Purpose

variable (reverseMap : Text → Option Text) (trades : LocalTrades) (records : List ClosedPnl)

/-- The local trades the comparison uses, record by record. -/
def usedTrades : List Trade :=
  (verdicts reverseMap trades.list [] records).filterMap fun item => item.2.trade

/-- The records are judged in order; each local trade is used for at most one; a record is
booked by a closed trade of its own or has one missing exit; and the missing exits of the
comparison are these. -/
structure ExitsOneToOne : Prop where
  judged : (verdicts reverseMap trades.list [] records).map Prod.fst = records
  stored : ∀ t ∈ usedTrades reverseMap trades records, t ∈ trades.list
  once : (usedTrades reverseMap trades records).Nodup
  each : ∀ item ∈ verdicts reverseMap trades.list [] records,
    (item.2.booked = true ∧ (∃ t, item.2.trade = some t ∧ BookedAs reverseMap item.1 t) ∧
        missingExits reverseMap item = []) ∨
      (item.2.booked = false ∧ ∃ d, missingExits reverseMap item = [d])
  reported : (compareClosedPnl reverseMap trades.list records).filter
      (fun d => decide (d.kind = .missing_exit)) =
    (verdicts reverseMap trades.list [] records).flatMap (missingExits reverseMap)
  total : (compareClosedPnl reverseMap trades.list records).countP
        (fun d => decide (d.kind = .missing_exit)) +
      (verdicts reverseMap trades.list [] records).countP (fun item => item.2.booked) =
    records.length

end Purpose

/-! ## One record -/

section Judge

variable {reverseMap : Text → Option Text} {trades : LocalTrades} {taken : List Nat}
  {r : ClosedPnl} {t : Trade}

/-- A record closes an open trade of its class that is not taken. -/
theorem judge_closes (h : judge reverseMap trades.list taken r = .closes t) :
    t ∈ trades.list ∧ t.isOpen = true ∧ t.id ∉ taken := by
  have hfind := @judge_closed reverseMap trades.list taken r
  rw [h, Verdict.closed_closes] at hfind
  rcases List.mem_filter.mp (List.mem_of_find?_eq_some hfind.symm) with ⟨hopen, hfree⟩
  rcases List.mem_filter.mp hopen with ⟨hlist, hisOpen⟩
  exact ⟨hlist, hisOpen, of_decide_eq_true hfree⟩

/-- The trade of a verdict is a local one that is not taken. -/
theorem judge_trade (h : (judge reverseMap trades.list taken r).trade = some t) :
    t ∈ trades.list ∧ t.id ∉ taken := by
  cases hjudge : judge reverseMap trades.list taken r with
  | closes t' =>
      rw [hjudge] at h
      obtain rfl := Option.some.inj h
      rcases judge_closes hjudge with ⟨hlist, -, hfree⟩
      exact ⟨hlist, hfree⟩
  | books t' =>
      rw [hjudge] at h
      obtain rfl := Option.some.inj h
      rcases judge_books hjudge with ⟨hlist, -, hfree⟩
      exact ⟨hlist, hfree⟩
  | unmatched =>
      rw [hjudge] at h
      cases h

/-- A record is booked, or misses one exit. -/
theorem verdict_cases (trades : LocalTrades) (taken : List Nat) (r : ClosedPnl) :
    let v := judge reverseMap trades.list taken r
    (v.booked = true ∧ (∃ t, v.trade = some t ∧ BookedAs reverseMap r t) ∧
        missingExits reverseMap (r, v) = []) ∨
      (v.booked = false ∧ ∃ d, missingExits reverseMap (r, v) = [d]) := by
  intro v
  cases hjudge : v with
  | closes t => exact Or.inr ⟨rfl, _, rfl⟩
  | books t =>
      refine Or.inl ⟨rfl, ⟨t, rfl, (judge_books hjudge).2.1⟩, ?_⟩
      rw [missingExits, report]
      dsimp only
      split
      · rfl
      · rfl
  | unmatched => exact Or.inr ⟨rfl, _, rfl⟩

end Judge

/-! ## All records -/

section Loop

variable {reverseMap : Text → Option Text} {trades : LocalTrades}

/-- The records are judged one by one, in order. -/
theorem verdicts_fst (taken : List Nat) (records : List ClosedPnl) :
    (verdicts reverseMap trades.list taken records).map Prod.fst = records := by
  induction records generalizing taken with
  | nil => rfl
  | cons r rest ih => rw [verdicts, List.map_cons, ih]

/-- Every verdict is that of its record, whatever was taken before. -/
theorem mem_verdicts {taken : List Nat} {records : List ClosedPnl}
    {item : ClosedPnl × Verdict} (h : item ∈ verdicts reverseMap trades.list taken records) :
    ∃ before, item.2 = judge reverseMap trades.list before item.1 := by
  induction records generalizing taken with
  | nil => cases h
  | cons r rest ih =>
      rw [verdicts] at h
      rcases List.mem_cons.mp h with rfl | hrest
      · exact ⟨taken, rfl⟩
      · exact ih hrest

/-- `matched_local_ids` is kept as claims. -/
theorem verdicts_claims (taken : List Nat) (records : List ClosedPnl) :
    (verdicts reverseMap trades.list taken records).map
        (fun item => item.2.trade.map Trade.id) =
      Matching.claims
        (fun taken r => (judge reverseMap trades.list taken r).trade.map Trade.id)
        taken records := by
  induction records generalizing taken with
  | nil => rfl
  | cons r rest ih =>
      have htaken : ∀ v : Verdict,
          v.taken taken = (v.trade.map Trade.id).toList ++ taken := by
        intro v
        cases v <;> rfl
      rw [verdicts, Matching.claims, List.map_cons, htaken, ih]

/-- No local trade is used twice. -/
theorem nodup_usedTrades (reverseMap : Text → Option Text) (trades : LocalTrades)
    (records : List ClosedPnl) : (usedTrades reverseMap trades records).Nodup := by
  apply List.Nodup.of_map Trade.id
  have hids : (usedTrades reverseMap trades records).map Trade.id =
      ((verdicts reverseMap trades.list [] records).map
        fun item => item.2.trade.map Trade.id).reduceOption := by
    rw [usedTrades, List.map_filterMap, List.reduceOption, List.filterMap_map]
    rfl
  rw [hids, verdicts_claims]
  apply Matching.nodup_claims
  intro taken r i hi
  rcases Option.map_eq_some_iff.mp hi with ⟨t, ht, rfl⟩
  exact (judge_trade ht).2

/-- The comparison reports verdict by verdict. -/
theorem compareClosedPnl_eq (records : List ClosedPnl) :
    compareClosedPnl reverseMap trades.list records =
      (verdicts reverseMap trades.list [] records).flatMap fun item =>
        (report reverseMap item.1 item.2).toList := by
  rw [compareClosedPnl, reports]
  induction verdicts reverseMap trades.list [] records with
  | nil => rfl
  | cons item rest ih =>
      rw [List.flatMap_cons, ← ih]
      cases hreport : report reverseMap item.1 item.2 with
      | none => simp [hreport]
      | some d => simp [hreport]

/-- One exit for each record that is not booked. -/
theorem length_missingExits {items : List (ClosedPnl × Verdict)}
    (h : ∀ item ∈ items, (missingExits reverseMap item).length +
      (if item.2.booked = true then 1 else 0) = 1) :
    (items.flatMap (missingExits reverseMap)).length +
      items.countP (fun item => item.2.booked) = items.length := by
  induction items with
  | nil => rfl
  | cons item rest ih =>
      have hfirst := h item List.mem_cons_self
      have hrest := ih fun item hitem => h item (List.mem_cons_of_mem _ hitem)
      rw [List.flatMap_cons, List.length_append, List.countP_cons, List.length_cons]
      omega

/-- Every local trade is used for at most one record, every record is booked by a closed trade
or has one missing exit, and the two make up all records. -/
theorem exitsOneToOne (reverseMap : Text → Option Text) (trades : LocalTrades)
    (records : List ClosedPnl) : ExitsOneToOne reverseMap trades records := by
  have heach : ∀ item ∈ verdicts reverseMap trades.list [] records,
      (item.2.booked = true ∧ (∃ t, item.2.trade = some t ∧ BookedAs reverseMap item.1 t) ∧
          missingExits reverseMap item = []) ∨
        (item.2.booked = false ∧ ∃ d, missingExits reverseMap item = [d]) := by
    rintro ⟨r, v⟩ hitem
    rcases mem_verdicts hitem with ⟨before, hv⟩
    dsimp only at hv
    subst hv
    exact verdict_cases trades before r
  have hreported : (compareClosedPnl reverseMap trades.list records).filter
        (fun d => decide (d.kind = .missing_exit)) =
      (verdicts reverseMap trades.list [] records).flatMap (missingExits reverseMap) := by
    rw [compareClosedPnl_eq, List.filter_flatMap]
    rfl
  constructor
  case judged => exact verdicts_fst [] records
  case stored =>
    intro t ht
    rcases List.mem_filterMap.mp ht with ⟨item, hitem, htrade⟩
    rcases mem_verdicts hitem with ⟨before, hv⟩
    rw [hv] at htrade
    exact (judge_trade htrade).1
  case once => exact nodup_usedTrades reverseMap trades records
  case each => exact heach
  case reported => exact hreported
  case total =>
    rw [List.countP_eq_length_filter, hreported, length_missingExits]
    · rw [← List.length_map (f := Prod.fst), verdicts_fst]
    · intro item hitem
      rcases heach item hitem with ⟨hbooked, -, hexits⟩ | ⟨hbooked, d, hexits⟩
      · rw [hbooked, hexits]
        rfl
      · rw [hbooked, hexits]
        rfl

end Loop

end Reconciler
end Karsa
