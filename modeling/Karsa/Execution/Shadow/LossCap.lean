import Karsa.Execution.Shadow.Monitor
import Mathlib.Tactic.FieldSimp
import Mathlib.Tactic.Linarith

/-!
# Shadow trading - The loss cap

A stop that would lose more than five dollars is moved to the level at which five dollars are
lost.  The move rewrites the record, while the rest of the check goes on with its own copy of the
stop, tests that one and closes the position at it.

Main results:

- Theorem `cappedStop_tighter`: the cap tightens the stop, to a loss of five dollars.
- Theorem `capHolds_iff`: when the stop that one check tests keeps the cap.
- Theorem `capHolds_run_iff`: which runs keep it throughout.
-/

namespace Karsa
namespace Shadow

/-! ## Losses -/

/-- What a close at the stop loses, before fees and funding. -/
def grossLoss (pos : ShadowRecord) (stop : ℚ) : ℚ :=
  match pos.side with
  | .LONG => (pos.entryPrice - stop) * pos.amount
  | .SHORT => (stop - pos.entryPrice) * pos.amount

/-- A close at the stop loses no more than five dollars. -/
def WithinCap (pos : ShadowRecord) (stop : ℚ) : Prop :=
  0 < pos.amount → grossLoss pos stop ≤ 5

/-- The stop is no looser than another one. -/
def NoLooser (side : Side) (stop old : ℚ) : Prop :=
  match side with
  | .LONG => old ≤ stop
  | .SHORT => stop ≤ old

/-- The cap is due where a stop loses more. -/
theorem capDue_eq_false_iff {pos : ShadowRecord} {stop : ℚ} (hstop : 0 < stop) :
    capDue pos stop = false ↔ WithinCap pos stop := by
  unfold capDue WithinCap grossLoss
  cases pos.side with
  | LONG =>
      have hneg : (stop - pos.entryPrice) * pos.amount =
          -((pos.entryPrice - stop) * pos.amount) := by ring
      rw [hneg]
      simp [hstop]
  | SHORT =>
      have hneg : (pos.entryPrice - stop) * pos.amount =
          -((stop - pos.entryPrice) * pos.amount) := by ring
      rw [hneg]
      simp [hstop]

/-- A due cap tightens the stop, to a loss of five dollars. -/
theorem cappedStop_tighter {pos : ShadowRecord} {stop : ℚ} (hdue : capDue pos stop = true) :
    NoLooser pos.side (cappedStop pos) stop ∧ grossLoss pos (cappedStop pos) = 5 := by
  unfold capDue at hdue
  simp only [Bool.and_eq_true, decide_eq_true_eq] at hdue
  rcases hdue with ⟨⟨hamount, -⟩, hloss⟩
  unfold NoLooser grossLoss cappedStop
  cases hside : pos.side with
  | LONG =>
      rw [hside] at hloss
      dsimp only at hloss ⊢
      constructor
      · rw [le_sub_iff_add_le, ← le_sub_iff_add_le', div_le_iff₀ hamount]
        linarith
      · field_simp
        ring
  | SHORT =>
      rw [hside] at hloss
      dsimp only at hloss ⊢
      constructor
      · rw [← le_sub_iff_add_le', div_le_iff₀ hamount]
        linarith
      · field_simp
        ring

/-! ## One check -/

section Check

variable (settings : ShadowSettings)

/-- In the next check the stop that is tested, and the price of a stop hit, lose no more than
five dollars, and the cap leaves no looser stop. -/
structure CapHolds (s : MonitorState) (a : CheckAnswers) : Prop where
  tested : ∀ record mid s', s.stored = some record → priceAt a record = some mid →
    comesTo settings a mid .slHit (startCheck record s) = some s' → 0 < s'.virtualSl →
      WithinCap record s'.virtualSl
  closed : ∀ record close, s.stored = some record → (check settings s a).closed = some close →
    close.reason = .slHit → WithinCap record close.exitPrice
  kept : ∀ record mid s', s.stored = some record → priceAt a record = some mid →
    comesTo settings a mid .lossCap (startCheck record s) = some s' →
      capDue s'.pos s'.virtualSl = true →
        ∃ stop, (lossCap s').pos.virtualSl = some stop ∧ NoLooser record.side stop s'.virtualSl

/-- The next check does not come to its cap with a stop that loses more. -/
def CapIdle (s : MonitorState) (a : CheckAnswers) : Prop :=
  ∀ record mid s', s.stored = some record → priceAt a record = some mid →
    comesTo settings a mid .lossCap (startCheck record s) = some s' →
      capDue s'.pos s'.virtualSl = false

variable {settings}

/-- What stands between the cap and the test of the stop. -/
theorem comesTo_slHit (a : CheckAnswers) (mid : ℚ) (s : MonitorState) :
    comesTo settings a mid .slHit s =
      (comesTo settings a mid .lossCap s).bind fun s' =>
        (Flow.blocks ([.lossCap, .staleCleanup, .funding].map
          (CheckRule.block settings a (locals s.pos mid))) s').next? := by
  have hsplit : checkOrder.takeWhile (· ≠ .slHit) =
      checkOrder.takeWhile (· ≠ .lossCap) ++ [.lossCap, .staleCleanup, .funding] := by decide
  rw [comesTo, hsplit, List.map_append, Flow.blocks_append, Flow.next?_andThen, comesTo]

/-- The cap rewrites the record and leaves the local stop. -/
theorem lossCap_virtualSl (s : MonitorState) : (lossCap s).virtualSl = s.virtualSl := by
  unfold lossCap
  split_ifs <;> rfl

theorem applyFundingIfDue_virtualSl (a : CheckAnswers) (s : MonitorState) :
    (applyFundingIfDue a s).virtualSl = s.virtualSl := by
  unfold applyFundingIfDue
  cases s.pos.lastFundingTs with
  | none => rfl
  | some last =>
      dsimp only
      split_ifs <;> rfl

/-- The stop that is tested is the one that the cap has met. -/
theorem comesTo_slHit_virtualSl {a : CheckAnswers} {mid : ℚ} {s s' : MonitorState}
    (h : comesTo settings a mid .slHit s = some s') :
    ∃ before, comesTo settings a mid .lossCap s = some before ∧
      s'.virtualSl = before.virtualSl := by
  rw [comesTo_slHit] at h
  rcases Option.bind_eq_some_iff.mp h with ⟨before, hbefore, hrest⟩
  refine ⟨before, hbefore, ?_⟩
  have hcap := lossCap_virtualSl before
  simp only [List.map_cons, List.map_nil, Flow.blocks_cons, CheckRule.block,
    Flow.next_andThen] at hrest
  generalize lossCap before = capped at hcap hrest
  unfold staleCleanup at hrest
  rw [← hcap]
  cases hentered : capped.pos.enteredAt with
  | none =>
      rw [hentered] at hrest
      obtain rfl := Option.some.inj hrest
      exact applyFundingIfDue_virtualSl a capped
  | some entered =>
      rw [hentered] at hrest
      dsimp only at hrest
      split_ifs at hrest
      · cases hrest
      · obtain rfl := Option.some.inj hrest
        exact applyFundingIfDue_virtualSl a capped

/-- A check that meets its cap with a stop comes to the test of it. -/
theorem comesTo_slHit_of_pos {a : CheckAnswers} {mid : ℚ} {s before : MonitorState}
    (h : comesTo settings a mid .lossCap s = some before) (hstop : 0 < before.virtualSl) :
    ∃ s', comesTo settings a mid .slHit s = some s' ∧ s'.virtualSl = before.virtualSl := by
  have hcap := lossCap_virtualSl before
  have hstale : staleCleanup settings a.staleClock (locals s.pos mid) (lossCap before) =
      .next (lossCap before) := by
    unfold staleCleanup
    cases (lossCap before).pos.enteredAt with
    | none => rfl
    | some entered => exact if_neg fun hdue => hdue.1.not_gt (hcap ▸ hstop)
  refine ⟨applyFundingIfDue a (lossCap before), ?_,
    (applyFundingIfDue_virtualSl a _).trans hcap⟩
  rw [comesTo_slHit, h]
  simp only [Option.bind_some, List.map_cons, List.map_nil, Flow.blocks_cons,
    Flow.andThen_blocks_nil, CheckRule.block, Flow.next_andThen, hstale, Flow.next?_next]

/-- No rule but the test itself closes at the stop. -/
theorem rule_not_hit {a : CheckAnswers} {loc : CheckLocals} {r : CheckRule}
    (hr : r ≠ .slHit) {s : MonitorState}
    (h : ∀ close, s.closed = some close → close.reason ≠ .slHit) :
    ∀ close, (r.block settings a loc s).state.closed = some close → close.reason ≠ .slHit := by
  have houtcome := ruleOutcome settings a loc r s
  generalize (r.block settings a loc s).state = s' at houtcome ⊢
  cases houtcome with
  | hit hstop hcrossed => exact absurd rfl hr
  | killed exitPrice reason hreason | closed exitPrice reason hreason =>
      intro close hclose
      obtain rfl := Option.some.inj hclose
      exact hreason
  | same | shifted | ticked | locked | trailed | persisted | capped | clocked | charged =>
      exact h

/-- A stop hit is at the stop that was tested. -/
theorem runChecks_slHit {a : CheckAnswers} {mid : ℚ} {s : MonitorState} {close : ShadowClose}
    (hopen : s.closed = none) (hclosed : (runChecks settings a mid s).closed = some close)
    (hhit : close.reason = .slHit) :
    ∃ s', comesTo settings a mid .slHit s = some s' ∧ 0 < s'.virtualSl ∧
      close.exitPrice = s'.virtualSl := by
  have hrest : checkOrder.dropWhile (· ≠ .slHit) = [.slHit, .tpHit] := by decide
  have hfront : Flow.Spec (fun s => ∀ close, s.closed = some close → close.reason ≠ .slHit)
      (Flow.blocks ((checkOrder.takeWhile (· ≠ .slHit)).map
        (CheckRule.block settings a (locals s.pos mid))))
      (fun s => ∀ close, s.closed = some close → close.reason ≠ .slHit)
      (fun s => ∀ close, s.closed = some close → close.reason ≠ .slHit) := by
    apply Flow.Spec.blocks_of_state
    intro r hr s' hs'
    exact rule_not_hit (ne_of_before hr) hs'
  have hends := hfront (observe mid s) (by
    intro close hclose
    have hnone : (observe mid s).closed = none := hopen
    rw [hnone] at hclose
    cases hclose)
  rw [runChecks_split .slHit, hrest] at hclosed
  unfold comesTo
  generalize Flow.blocks ((checkOrder.takeWhile (· ≠ .slHit)).map
    (CheckRule.block settings a (locals s.pos mid))) (observe mid s) = flow at hends hclosed ⊢
  cases flow with
  | ret s' => exact absurd hhit (hends close hclosed)
  | raise s' => exact absurd hhit (hends close hclosed)
  | next s' =>
      refine ⟨s', rfl, ?_⟩
      rw [Flow.next_andThen, List.map_cons, List.map_singleton, Flow.blocks_cons,
        Flow.blocks_singleton, CheckRule.block, slHit] at hclosed
      split_ifs at hclosed with hcrossed
      · obtain rfl := Option.some.inj hclosed
        exact ⟨hcrossed.1, rfl⟩
      · -- the target does not close at the stop either
        have hne : CheckRule.tpHit ≠ .slHit := by decide
        exact absurd hhit (rule_not_hit (a := a) hne hends close hclosed)

/-- The loss of a stop is told by what the entry wrote. -/
theorem WithinCap.of_entry {pos pos' : ShadowRecord} (h : pos.entryPart = pos'.entryPart)
    (stop : ℚ) : WithinCap pos stop ↔ WithinCap pos' stop := by
  have hsame : WithinCap pos.entryPart stop ↔ WithinCap pos'.entryPart stop := by rw [h]
  exact hsame

/-- One check keeps the cap exactly where it does not come to it with a stop that loses more. -/
theorem capHolds_iff (s : MonitorState) (a : CheckAnswers) :
    CapHolds settings s a ↔ CapIdle settings s a := by
  constructor
  · intro h record mid before hstored hprice hbefore
    by_contra hdue
    have hdue' : capDue before.pos before.virtualSl = true := Bool.not_eq_false _ ▸ hdue
    have hstop : 0 < before.virtualSl := by
      unfold capDue at hdue'
      simp only [Bool.and_eq_true, decide_eq_true_eq] at hdue'
      exact hdue'.1.2
    rcases comesTo_slHit_of_pos hbefore hstop with ⟨s', hs', hsame⟩
    have hentry := (comesTo_entry (startCheck_entry hstored) hbefore).pos
    have hwithin := h.tested record mid s' hstored hprice hs' (hsame ▸ hstop)
    rw [hsame, ← WithinCap.of_entry hentry] at hwithin
    exact hdue ((capDue_eq_false_iff hstop).2 hwithin)
  · intro h
    have htested : ∀ record mid s', s.stored = some record → priceAt a record = some mid →
        comesTo settings a mid .slHit (startCheck record s) = some s' → 0 < s'.virtualSl →
          WithinCap record s'.virtualSl := by
      intro record mid s' hstored hprice hs' hstop
      rcases comesTo_slHit_virtualSl hs' with ⟨before, hbefore, hsame⟩
      have hidle := h record mid before hstored hprice hbefore
      have hentry := (comesTo_entry (startCheck_entry hstored) hbefore).pos
      rw [hsame] at hstop ⊢
      rw [← WithinCap.of_entry hentry]
      exact (capDue_eq_false_iff hstop).1 hidle
    refine ⟨htested, ?_, ?_⟩
    · intro record close hstored hclosed hhit
      cases hprice : priceAt a record with
      | none =>
          rw [check_closed_of_priceAt_eq_none hstored hprice] at hclosed
          cases hclosed
      | some mid =>
          rw [check_of_priceAt hstored hprice] at hclosed
          rcases runChecks_slHit rfl hclosed hhit with ⟨s', hs', hstop, hexit⟩
          rw [hexit]
          exact htested record mid s' hstored hprice hs' hstop
    · intro record mid s' hstored hprice hs' hdue
      rw [h record mid s' hstored hprice hs'] at hdue
      cases hdue

/-- In every run, each check keeps the cap exactly where none comes to it with a stop that loses
more. -/
theorem capHolds_run_iff (settings : ShadowSettings) (record : ShadowRecord)
    (checks : List CheckAnswers) :
    Admits (check settings) (CapHolds settings) (.ofRecord record) checks ↔
      Admits (check settings) (CapIdle settings) (.ofRecord record) checks := by
  have hsame : CapHolds settings = CapIdle settings := by
    funext s a
    exact propext (capHolds_iff s a)
  rw [hsame]

end Check

/-- A long of one unit at 100, saved with a stop at 90. -/
def looseLong : ShadowRecord :=
  save "BTC/USDT".toList .LONG 100 1 none "RANGE".toList
    (some [("sl_pct".toList, .decimal (10 / 100))]) (some 90) none 0

/-- At 89 it is closed at 90, with a loss of ten dollars. -/
theorem looseLong_loses_ten :
    ¬ Admits (check defaultSettings) (CapHolds defaultSettings) (.ofRecord looseLong)
      [checkAt 89] := by
  rintro ⟨h, -⟩
  have hclosed : (check defaultSettings (.ofRecord looseLong) (checkAt 89)).closed.map
      (fun close => (close.exitPrice, close.reason)) = some (90, .slHit) := by decide +kernel
  rcases Option.map_eq_some_iff.mp hclosed with ⟨close, hclose, hdata⟩
  have hprice : close.exitPrice = 90 := congrArg Prod.fst hdata
  have hwithin := h.closed looseLong close rfl hclose (congrArg Prod.snd hdata)
  rw [hprice] at hwithin
  have hloss := hwithin (by decide +kernel)
  revert hloss
  decide +kernel

end Shadow
end Karsa
