import Karsa.Execution.Shadow.Monitor

/-!
# Shadow trading - Virtual limit orders

A post-only signal should rest as a limit order: its position is open from the first check
whose mid price has crossed the entry, expires after ten minutes otherwise, and pays the
maker fee.  The order that `execute` returns says so, the monitor's `checkPendingFill` acts on
it, but `save` has no parameter for the status, the time and the fee type, so the position is
open from its first check on.

Main results:

- Theorem `RestingEntry.order_pending`: what the order says of itself.
- Theorem `stored_entryFeeRate`: the fee rate of a saved position.
- Theorem `stored_of_quiet`: checks without a price leave the record as it was saved.
- Theorem `limitOrder_iff`: the position is treated as a limit order exactly when every check
  up to the first crossing finds no price in time, and the two fees are equal.
-/

namespace Karsa
namespace Shadow

/-! ## Resting orders -/

/-- A post-only signal, the order it got and the record it left. -/
structure RestingEntry (settings : ShadowSettings) (a : EntryAnswers) (signal : ShadowSignal)
    (order : ShadowOrder) (record : ShadowRecord) : Prop where
  postOnly : signal.riskProfile.usePostOnly = true
  executed : execute settings a signal.symbol signal.direction signal.amount signal.entryPrice
    true = .ok (some order)
  saved : onSignalShadow settings a signal = some record

/-- Such an order is pending since the clock of its execution, at the maker's fee. -/
theorem RestingEntry.order_pending {settings : ShadowSettings} {a : EntryAnswers}
    {signal : ShadowSignal} {order : ShadowOrder} {record : ShadowRecord}
    (h : RestingEntry settings a signal order record) :
    order.status = "PENDING_VIRTUAL_FILL".toList ∧ order.feeType = "maker".toList ∧
      order.pendingSince = some a.now := by
  have hexecuted := h.executed
  unfold execute at hexecuted
  by_cases hamount : signal.amount ≤ 0
  · rw [if_pos hamount] at hexecuted
    cases hexecuted
  · rw [if_neg hamount] at hexecuted
    split at hexecuted
    · cases hexecuted
    · obtain rfl := Option.some.inj (Except.ok.inj hexecuted)
      exact ⟨rfl, rfl, rfl⟩

/-- The record is the one `save` makes of the order. -/
theorem RestingEntry.record_eq {settings : ShadowSettings} {a : EntryAnswers}
    {signal : ShadowSignal} {order : ShadowOrder} {record : ShadowRecord}
    (h : RestingEntry settings a signal order record) :
    record = savedRecord signal order a.saveClock := by
  rcases onSignalShadow_cases h.saved with ⟨other, hother, hrecord⟩
  rw [h.postOnly, h.executed] at hother
  obtain rfl := Option.some.inj (Except.ok.inj hother)
  exact hrecord

/-- Has the mid price of the check crossed the entry of the order? -/
def fillsAt (order : ShadowOrder) (a : CheckAnswers) : Prop :=
  ∃ mid, a.mid = some mid ∧ crossed order.side mid order.price = true

/-- Does the check come later than the order may rest? -/
def tooLate (order : ShadowOrder) (a : CheckAnswers) : Prop :=
  ∃ since, order.pendingSince = some since ∧ 600 < a.pendingClock - since

/-- The check finds an open position and a price, and puts its stops and exits to work. -/
def treatsAsOpen (s : MonitorState) (a : CheckAnswers) : Prop :=
  ∃ record mid, s.stored = some record ∧ record.status.getD "OPEN".toList = "OPEN".toList ∧
    record.symbol ≠ [] ∧ 0 < record.entryPrice ∧ a.mid = some mid

/-- None of the earlier checks has filled the order. -/
def unfilledBefore (order : ShadowOrder) (checks : List CheckAnswers) (n : Nat) : Prop :=
  ∀ m < n, ∀ a, checks[m]? = some a → ¬ fillsAt order a

/-- What a limit order promises of a run of checks: it is open only from the first crossing
on, expires when none comes in time, and its entry is charged at the maker's rate. -/
structure TreatedAsLimitOrder (settings : ShadowSettings) (order : ShadowOrder)
    (record : ShadowRecord) (checks : List CheckAnswers) : Prop where
  open_of_filled : ∀ n a, checks[n]? = some a →
    treatsAsOpen (stateAt (check settings) (.ofRecord record) checks n) a →
      ∃ m ≤ n, ∃ a', checks[m]? = some a' ∧ fillsAt order a'
  expires : ∀ n a, checks[n]? = some a → unfilledBefore order checks n → tooLate order a →
    ¬ treatsAsOpen (stateAt (check settings) (.ofRecord record) checks n) a ∧
      (stateAt (check settings) (.ofRecord record) checks (n + 1)).stored = none
  makerFee : ∀ n current,
    (stateAt (check settings) (.ofRecord record) checks n).stored = some current →
      entryFeeRate settings current = settings.makerFeePct

/-- Every check up to the first crossing comes in time and finds no price. -/
def QuietUntilCrossed (order : ShadowOrder) (record : ShadowRecord)
    (checks : List CheckAnswers) : Prop :=
  ∀ n a, checks[n]? = some a → unfilledBefore order checks n →
    ¬ tooLate order a ∧
      (record.symbol ≠ [] → 0 < record.entryPrice → a.mid ≠ none → fillsAt order a)

/-! ## Saved records -/

section Saved

variable {settings : ShadowSettings} {a : EntryAnswers} {signal : ShadowSignal}
  {order : ShadowOrder} {record : ShadowRecord}

/-- Every later record of the position still has the entry as it was saved. -/
theorem RestingEntry.kept (h : RestingEntry settings a signal order record)
    (checks : List CheckAnswers) (n : Nat) :
    EntryKept record.entryPart (stateAt (check settings) (.ofRecord record) checks n) := by
  have hopen : record.entryPart.status ≠ some "PENDING_VIRTUAL_FILL".toList := by
    rw [h.record_eq]
    rintro ⟨⟩
  exact (EntryKept.ofRecord record).run hopen settings (checks.take n)

/-- The entry of a saved position is charged at the taker's rate. -/
theorem stored_entryFeeRate (h : RestingEntry settings a signal order record)
    (checks : List CheckAnswers) {n : Nat} {current : ShadowRecord}
    (hcurrent : (stateAt (check settings) (.ofRecord record) checks n).stored = some current) :
    entryFeeRate settings current = settings.takerFeePct := by
  have hfee : current.entryPart.feeType = record.entryPart.feeType :=
    congrArg ShadowRecord.feeType ((h.kept checks n).stored current hcurrent)
  have hnone : current.feeType = none := by
    rw [h.record_eq] at hfee
    exact hfee
  rw [entryFeeRate, hnone]
  exact if_neg nofun

/-- A check that finds no price, or an unusable record, changes nothing. -/
theorem check_of_quiet (h : RestingEntry settings a signal order record) {s : MonitorState}
    (hstored : s.stored = some record) {b : CheckAnswers}
    (hquiet : record.symbol ≠ [] → 0 < record.entryPrice → b.mid = none) :
    (check settings s b).stored = some record := by
  have hstatus : record.status = none := by
    rw [h.record_eq]
    rfl
  have hmanaged : check settings s b = manageOpenPosition settings b (startCheck record s) := by
    unfold check
    rw [hstored]
    dsimp only
    unfold manageShadowPosition
    have hstart : (startCheck record s).pos.status = none := hstatus
    rw [hstart]
    rfl
  rw [hmanaged]
  unfold manageOpenPosition
  split_ifs with hunusable
  · exact hstored
  · rw [not_or, not_le] at hunusable
    rw [hquiet hunusable.1 hunusable.2]
    exact hstored

/-- Until the first crossing, quiet checks leave the record as it was saved. -/
theorem stored_of_quiet (h : RestingEntry settings a signal order record)
    {checks : List CheckAnswers} {n : Nat}
    (hquiet : ∀ m < n, ∀ b, checks[m]? = some b →
      record.symbol ≠ [] → 0 < record.entryPrice → b.mid = none) :
    (stateAt (check settings) (.ofRecord record) checks n).stored = some record := by
  induction n with
  | zero => rfl
  | succ n ih =>
      have hbefore := ih fun m hm => hquiet m (Nat.lt_succ_of_lt hm)
      cases hcheck : checks[n]? with
      | none => rwa [stateAt_succ_of_none hcheck]
      | some b =>
          rw [stateAt_succ hcheck]
          exact check_of_quiet h hbefore (hquiet n (Nat.lt_succ_self n) b hcheck)

end Saved

/-! ## The whole chain -/

section Chain

variable {settings : ShadowSettings} {a : EntryAnswers} {signal : ShadowSignal}
  {order : ShadowOrder} {record : ShadowRecord} {checks : List CheckAnswers}

/-- Quiet checks and equal fees make it a limit order. -/
theorem treated_of_quiet (h : RestingEntry settings a signal order record)
    (hfees : settings.makerFeePct = settings.takerFeePct)
    (hquiet : QuietUntilCrossed order record checks) :
    TreatedAsLimitOrder settings order record checks := by
  refine ⟨?_, ?_, ?_⟩
  · rintro n b hb ⟨current, mid, hcurrent, -, hsymbol, hentry, hmid⟩
    by_contra hnone
    have hunfilled : ∀ m ≤ n, ∀ b', checks[m]? = some b' → ¬ fillsAt order b' :=
      fun m hm b' hb' hfills => hnone ⟨m, hm, b', hb', hfills⟩
    have hsame := (h.kept checks n).stored current hcurrent
    have hsymbol' : current.entryPart.symbol = record.entryPart.symbol :=
      congrArg ShadowRecord.symbol hsame
    have hentry' : current.entryPart.entryPrice = record.entryPart.entryPrice :=
      congrArg ShadowRecord.entryPrice hsame
    have hfilled := (hquiet n b hb fun m hm => hunfilled m hm.le).2
      (fun hempty => hsymbol (hsymbol'.trans hempty)) (hentry'.symm ▸ hentry)
      (by rw [hmid]; exact Option.some_ne_none mid)
    exact hunfilled n (le_refl n) b hb hfilled
  · intro n b hb hunfilled hlate
    exact absurd hlate (hquiet n b hb hunfilled).1
  · intro n current hcurrent
    rw [stored_entryFeeRate h checks hcurrent, hfees]

/-- A position treated as a limit order was only checked quietly. -/
theorem quiet_of_treated (h : RestingEntry settings a signal order record)
    (htreated : TreatedAsLimitOrder settings order record checks) :
    QuietUntilCrossed order record checks := by
  intro n
  induction n using Nat.strong_induction_on with
  | _ n ih =>
      intro b hb hunfilled
      have hstored : (stateAt (check settings) (.ofRecord record) checks n).stored =
          some record := by
        apply stored_of_quiet h
        intro m hm b' hb' hsymbol hentry
        by_contra hpriced
        have hrest := ih m hm b' hb' fun k hk => hunfilled k (hk.trans hm)
        exact hunfilled m hm b' hb' (hrest.2 hsymbol hentry hpriced)
      have hstatus : record.status.getD "OPEN".toList = "OPEN".toList := by
        rw [h.record_eq]
        rfl
      have hopen : record.symbol ≠ [] → 0 < record.entryPrice → b.mid ≠ none →
          treatsAsOpen (stateAt (check settings) (.ofRecord record) checks n) b := by
        intro hsymbol hentry hpriced
        rcases Option.ne_none_iff_exists'.mp hpriced with ⟨mid, hmid⟩
        exact ⟨record, mid, hstored, hstatus, hsymbol, hentry, hmid⟩
      refine ⟨?_, ?_⟩
      · intro hlate
        rcases htreated.expires n b hb hunfilled hlate with ⟨hclosed, hgone⟩
        have hquiet : record.symbol ≠ [] → 0 < record.entryPrice → b.mid = none := by
          intro hsymbol hentry
          by_contra hpriced
          exact hclosed (hopen hsymbol hentry hpriced)
        rw [stateAt_succ hb, check_of_quiet h hstored hquiet] at hgone
        cases hgone
      · intro hsymbol hentry hpriced
        rcases htreated.open_of_filled n b hb (hopen hsymbol hentry hpriced) with
          ⟨m, hm, b', hb', hfills⟩
        rcases Nat.lt_or_eq_of_le hm with hlt | rfl
        · exact absurd hfills (hunfilled m hlt b' hb')
        · rw [hb] at hb'
          obtain rfl := Option.some.inj hb'
          exact hfills

/-- The position of a post-only signal is treated as a limit order exactly when maker and
taker pay the same and every check up to the first crossing comes in time and finds no
price. -/
theorem limitOrder_iff (h : RestingEntry settings a signal order record)
    (checks : List CheckAnswers) :
    TreatedAsLimitOrder settings order record checks ↔
      settings.makerFeePct = settings.takerFeePct ∧ QuietUntilCrossed order record checks := by
  constructor
  · intro htreated
    have hstored : (stateAt (check settings) (.ofRecord record) checks 0).stored = some record :=
      rfl
    have hmaker := htreated.makerFee 0 record hstored
    rw [stored_entryFeeRate h checks hstored] at hmaker
    exact ⟨hmaker.symm, quiet_of_treated h htreated⟩
  · rintro ⟨hfees, hquiet⟩
    exact treated_of_quiet h hfees hquiet

end Chain

/-- Settings that charge makers as much as takers. -/
def sharedFee : ShadowSettings :=
  { defaultSettings with makerFeePct := defaultSettings.takerFeePct }

/-- A check that finds no price, one at which the order is crossed, and one behind it. -/
def quietThenCrossed : List CheckAnswers :=
  [{ checkAt 0 with mid := none }, checkAt 100, checkAt (201 / 2)]

/-- Where the fees are equal and the first price crosses the entry, the order fills there. -/
theorem limitOrder_iff_quietThenCrossed :
    TreatedAsLimitOrder sharedFee { rangeOrder with fee := 6 / 100 } rangeRecord
      quietThenCrossed := by
  have hrests : RestingEntry sharedFee quotedAt100 rangeSignal { rangeOrder with fee := 6 / 100 }
      rangeRecord := ⟨rfl, by decide +kernel, by decide +kernel⟩
  refine (limitOrder_iff hrests quietThenCrossed).mpr ⟨rfl, ?_⟩
  intro n b hb hunfilled
  have hlate : ∀ c ∈ quietThenCrossed, ¬ tooLate { rangeOrder with fee := 6 / 100 } c := by
    intro c hc hlate
    rcases hlate with ⟨since, hsince, hlate⟩
    obtain rfl := Option.some.inj hsince
    revert c
    decide +kernel
  refine ⟨hlate b (List.mem_of_getElem? hb), fun _ _ hpriced => ?_⟩
  match n with
  | 0 =>
      obtain rfl := Option.some.inj hb
      exact absurd rfl hpriced
  | 1 =>
      obtain rfl := Option.some.inj hb
      exact ⟨100, rfl, by decide +kernel⟩
  | n + 2 =>
      exact absurd ⟨100, rfl, by decide +kernel⟩ (hunfilled 1 (by omega) (checkAt 100) rfl)

/-- At 100.5 the resting order is managed as an open position. -/
theorem limitOrder_opens_uncrossed :
    ¬ TreatedAsLimitOrder defaultSettings rangeOrder rangeRecord [checkAt (201 / 2)] := by
  intro htreated
  have hopen : treatsAsOpen (stateAt (check defaultSettings) (.ofRecord rangeRecord)
      [checkAt (201 / 2)] 0) (checkAt (201 / 2)) :=
    ⟨rangeRecord, 201 / 2, rfl, rfl, by decide, by decide +kernel, rfl⟩
  rcases htreated.open_of_filled 0 _ rfl hopen with ⟨m, hm, a', ha', mid, hmid, hcrossed⟩
  obtain rfl := Nat.le_zero.mp hm
  obtain rfl := Option.some.inj ha'
  obtain rfl := Option.some.inj hmid
  exact absurd hcrossed (by decide +kernel)

end Shadow
end Karsa
