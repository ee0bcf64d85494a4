import Karsa.Execution.Manager.Cycle

/-!
# Active position manager - The regime kill switch

`_check_regime_shift` counts checks that read a regime of another family than the entry
regime and force-closes at the fifth.  The counter belongs to the symbol: it outlives the
position it was counted for, a long and a short of one symbol share it, and a failed check
leaves it as it is.

A position carries what its own checks read, so that a closure can be compared with the
evidence about that position.

Main results:

- Theorem `checkRegimeShift_cases`: what one check does to the counter.
- Theorem `regimeShift_ownEvidence`: the runs in which every closure rests on five
  consecutive checks of the position itself.
-/

namespace Karsa
namespace Manager

/-! ## One check -/

/-- `REGIME_SHIFT_CONFIRM_COUNT`. -/
def regimeShiftConfirmCount : Nat := 5

/-- The regime is of another family than the entry regime. -/
def Shifted (entryRegime current : Text) : Prop :=
  regimeFamily entryRegime ≠ regimeFamily current

instance (entryRegime current : Text) : Decidable (Shifted entryRegime current) :=
  inferInstanceAs (Decidable (_ ≠ _))

/-- A check leaves the counter, resets it, adds to it, or closes the position with the
fifth reading of another family. -/
theorem checkRegimeShift_cases (current : Except Text Text) (close : CloseAnswers)
    (snap : Snapshot) (s : ManagerState) :
    ((snap.entryRegime = "UNKNOWN".toList ∨ ∃ message, current = .error message) ∧
        checkRegimeShift current close snap s = .next s) ∨
      (snap.entryRegime ≠ "UNKNOWN".toList ∧ ∃ regime, current = .ok regime ∧
        ((¬ Shifted snap.entryRegime regime ∧
            checkRegimeShift current close snap s = .next { s with shiftCount := 0 }) ∨
          (Shifted snap.entryRegime regime ∧ s.shiftCount + 1 < regimeShiftConfirmCount ∧
            checkRegimeShift current close snap s =
              .next { s with shiftCount := s.shiftCount + 1 }) ∨
          (Shifted snap.entryRegime regime ∧ regimeShiftConfirmCount ≤ s.shiftCount + 1 ∧
            ∃ closed : ManagerState, checkRegimeShift current close snap s =
              .ret { closed with shiftCount := 0 }))) := by
  unfold checkRegimeShift
  by_cases hunknown : snap.entryRegime = "UNKNOWN".toList
  · rw [if_pos hunknown]
    exact Or.inl ⟨Or.inl hunknown, rfl⟩
  · rw [if_neg hunknown]
    cases current with
    | error message => exact Or.inl ⟨Or.inr ⟨message, rfl⟩, rfl⟩
    | ok regime =>
        refine Or.inr ⟨hunknown, regime, rfl, ?_⟩
        dsimp only
        by_cases hshifted : Shifted snap.entryRegime regime
        · have hother : ¬ (regimeFamily snap.entryRegime = regimeFamily regime ∨
              regime = snap.entryRegime) := by
            rintro (hfamily | rfl)
            · exact hshifted hfamily
            · exact hshifted rfl
          rw [if_neg hother]
          by_cases hfifth : 5 ≤ s.shiftCount + 1
          · rw [if_pos hfifth]
            exact Or.inr (Or.inr ⟨hshifted, hfifth, _, rfl⟩)
          · rw [if_neg hfifth]
            exact Or.inr (Or.inl ⟨hshifted, not_le.mp hfifth, rfl⟩)
        · rw [if_pos (Or.inl (not_not.mp hshifted))]
          exact Or.inl ⟨hshifted, rfl⟩

/-! ## Many positions -/

/-- A position under the manager with what its checks read so far, the latest first. -/
structure Watched where
  symbol : Text
  side : Side
  entryRegime : Text
  readings : List (Option Text)
deriving Repr, DecidableEq

/-- `_regime_shift_counts`, and every position that was ever opened.  `checked` is the
position of the last check that read the regime of a symbol. -/
structure RegimeWatch where
  counts : Text → Nat
  checked : Text → Option Nat
  positions : List Watched

/-- A position is opened, or a check is made for one: the regime it reads and the rest of
the cycle it stands in.  Positions that are closed are not checked any more. -/
inductive WatchInput where
  | opened (symbol : Text) (side : Side) (entryRegime : Text)
  | check (i : Nat) (current : Except Text Text) (close : CloseAnswers) (snap : Snapshot)
      (s : ManagerState)

namespace RegimeWatch

/-- The check of a position. -/
def verdict (w : RegimeWatch) (p : Watched) (current : Except Text Text) (close : CloseAnswers)
    (snap : Snapshot) (s : ManagerState) : Flow ManagerState :=
  checkRegimeShift current close { snap with symbol := p.symbol, entryRegime := p.entryRegime }
    { s with shiftCount := w.counts p.symbol }

/-- The readings of a position after a check; an orphan's regime is not read. -/
def readingsAfter (p : Watched) (current : Except Text Text) : List (Option Text) :=
  if p.entryRegime = "UNKNOWN".toList then p.readings
  else current.toOption :: p.readings

/-- One event. -/
def step (w : RegimeWatch) : WatchInput → RegimeWatch
  | .opened symbol side entryRegime =>
      { w with positions := w.positions ++ [⟨symbol, side, entryRegime, []⟩] }
  | .check i current close snap s =>
      match w.positions[i]? with
      | none => w
      | some p =>
          { counts := Function.update w.counts p.symbol
              (w.verdict p current close snap s).state.shiftCount
            checked :=
              if p.entryRegime = "UNKNOWN".toList then w.checked
              else Function.update w.checked p.symbol (some i)
            positions := w.positions.set i { p with readings := readingsAfter p current } }

/-- The last five checks of the position all read a regime of another family. -/
def FiveShifted (entryRegime : Text) (readings : List (Option Text)) : Prop :=
  regimeShiftConfirmCount ≤ readings.length ∧
    ∀ r ∈ readings.take regimeShiftConfirmCount, ∃ regime ∈ r, Shifted entryRegime regime

/-- A closure by the check rests on evidence about the position. -/
def OwnEvidence (w : RegimeWatch) : WatchInput → Prop
  | .opened _ _ _ => True
  | .check i current close snap s =>
      ∀ p ∈ w.positions[i]?, (w.verdict p current close snap s).next? = none →
        p.entryRegime ≠ "UNKNOWN".toList ∧
          FiveShifted p.entryRegime (readingsAfter p current)

/-- While the counter of the symbol is above zero, its checks are all for one position and
succeed. -/
def OnePosition (w : RegimeWatch) : WatchInput → Prop
  | .opened _ _ _ => True
  | .check i current _ _ _ =>
      ∀ p ∈ w.positions[i]?, p.entryRegime ≠ "UNKNOWN".toList → w.counts p.symbol ≠ 0 →
        w.checked p.symbol = some i ∧ current.toOption.isSome = true

instance (w : RegimeWatch) : DecidablePred w.OnePosition
  | .opened _ _ _ => isTrue trivial
  | .check i current _ _ _ => inferInstanceAs (Decidable (∀ p ∈ w.positions[i]?,
      p.entryRegime ≠ "UNKNOWN".toList → w.counts p.symbol ≠ 0 →
        w.checked p.symbol = some i ∧ current.toOption.isSome = true))

/-- The counter of a symbol stands for the latest checks of one position. -/
def Counted (w : RegimeWatch) : Prop :=
  ∀ symbol, w.counts symbol ≠ 0 →
    ∃ i p, w.checked symbol = some i ∧ w.positions[i]? = some p ∧ p.symbol = symbol ∧
      w.counts symbol ≤ p.readings.length ∧
        ∀ r ∈ p.readings.take (w.counts symbol), ∃ regime ∈ r, Shifted p.entryRegime regime

/-- Nothing is counted and no position is open. -/
def start : RegimeWatch := ⟨fun _ => 0, fun _ => none, []⟩

theorem start_counted : start.Counted :=
  fun _ hcount => (hcount rfl).elim

/-! ## The invariant -/

variable {w : RegimeWatch}

/-- Before a check that is counted, the counter stands for checks of the position itself. -/
theorem Counted.own (h : w.Counted) {i : Nat} {p : Watched} (hp : w.positions[i]? = some p)
    (hown : w.counts p.symbol ≠ 0 → w.checked p.symbol = some i) :
    w.counts p.symbol ≤ p.readings.length ∧
      ∀ r ∈ p.readings.take (w.counts p.symbol), ∃ regime ∈ r,
        Shifted p.entryRegime regime := by
  by_cases hcount : w.counts p.symbol = 0
  · rw [hcount]
    exact ⟨Nat.zero_le _, by simp⟩
  · rcases h p.symbol hcount with ⟨j, q, hj, hq, -, hlength, hread⟩
    rw [hown hcount] at hj
    cases hj
    rw [hp] at hq
    cases hq
    exact ⟨hlength, hread⟩

/-- One more reading of another family. -/
theorem shifted_take_succ {entryRegime regime : Text} {readings : List (Option Text)} {n : Nat}
    (hnew : Shifted entryRegime regime) (hn : n ≤ readings.length)
    (hread : ∀ r ∈ readings.take n, ∃ regime ∈ r, Shifted entryRegime regime) :
    n + 1 ≤ (some regime :: readings).length ∧
      ∀ r ∈ (some regime :: readings).take (n + 1), ∃ regime ∈ r,
        Shifted entryRegime regime := by
  refine ⟨by simpa using hn, ?_⟩
  intro r hr
  rw [List.take_succ_cons, List.mem_cons] at hr
  rcases hr with rfl | hr
  · exact ⟨regime, rfl, hnew⟩
  · exact hread r hr

/-- A check that leaves the counter of every symbol and the positions' evidence. -/
theorem Counted.check_of_counts_eq (h : w.Counted) {i : Nat} {p : Watched}
    (hp : w.positions[i]? = some p) {counts : Text → Nat} {checked : Text → Option Nat}
    {readings : List (Option Text)}
    (hcounts : ∀ symbol, symbol ≠ p.symbol → counts symbol = w.counts symbol)
    (hchecked : ∀ symbol, symbol ≠ p.symbol → checked symbol = w.checked symbol)
    (hself : counts p.symbol ≠ 0 → checked p.symbol = some i ∧
      counts p.symbol ≤ readings.length ∧
        ∀ r ∈ readings.take (counts p.symbol), ∃ regime ∈ r, Shifted p.entryRegime regime) :
    Counted ⟨counts, checked, w.positions.set i { p with readings := readings }⟩ := by
  intro symbol hcount
  rcases List.getElem?_eq_some_iff.mp hp with ⟨hi, rfl⟩
  by_cases hsymbol : symbol = w.positions[i].symbol
  · subst hsymbol
    rcases hself hcount with ⟨hcheck, hlength, hread⟩
    exact ⟨i, _, hcheck, List.getElem?_set_self hi, rfl, hlength, hread⟩
  · dsimp only at hcount ⊢
    rw [hcounts symbol hsymbol] at hcount ⊢
    rcases h symbol hcount with ⟨j, q, hj, hq, hqsymbol, hread⟩
    have hij : i ≠ j := by
      rintro rfl
      rw [List.getElem?_eq_getElem hi] at hq
      cases hq
      exact hsymbol hqsymbol.symm
    exact ⟨j, q, (hchecked symbol hsymbol).trans hj, by rwa [List.getElem?_set_ne hij],
      hqsymbol, hread⟩

/-- Opening a position changes no evidence. -/
theorem Counted.opened (h : w.Counted) (symbol : Text) (side : Side) (entryRegime : Text) :
    (w.step (.opened symbol side entryRegime)).Counted := by
  intro other hcount
  rcases h other hcount with ⟨i, p, hi, hp, hread⟩
  exact ⟨i, p, hi, by rw [step, List.getElem?_append_left
    (List.getElem?_eq_some_iff.mp hp).1]; exact hp, hread⟩

/-- A check for an orphan changes nothing. -/
theorem step_check_unknown {i : Nat} {p : Watched} (hp : w.positions[i]? = some p)
    (hunknown : p.entryRegime = "UNKNOWN".toList) (current : Except Text Text)
    (close : CloseAnswers) (snap : Snapshot) (s : ManagerState) :
    w.step (.check i current close snap s) = w := by
  have hverdict : w.verdict p current close snap s =
      .next { s with shiftCount := w.counts p.symbol } := if_pos hunknown
  have hreadings : readingsAfter p current = p.readings := if_pos hunknown
  have hpositions : w.positions.set i { p with readings := p.readings } = w.positions := by
    rcases List.getElem?_eq_some_iff.mp hp with ⟨hi, rfl⟩
    exact List.set_getElem_self hi
  have hcounts : Function.update w.counts p.symbol (w.counts p.symbol) = w.counts :=
    Function.update_eq_self p.symbol w.counts
  rw [step, hp]
  dsimp only
  rw [hverdict, hreadings, if_pos hunknown, hpositions, Flow.state_next, hcounts]

/-- A check of a known regime, with the counter it leaves. -/
theorem step_check_known {i : Nat} {p : Watched} (hp : w.positions[i]? = some p)
    (hknown : p.entryRegime ≠ "UNKNOWN".toList) (current : Except Text Text)
    (close : CloseAnswers) (snap : Snapshot) (s : ManagerState) :
    w.step (.check i current close snap s) =
      ⟨Function.update w.counts p.symbol (w.verdict p current close snap s).state.shiftCount,
        Function.update w.checked p.symbol (some i),
        w.positions.set i { p with readings := current.toOption :: p.readings }⟩ := by
  have hreadings : readingsAfter p current = current.toOption :: p.readings := if_neg hknown
  rw [step, hp]
  dsimp only
  rw [hreadings, if_neg hknown]

/-- A check under the condition keeps the counter to one position. -/
theorem Counted.check (h : w.Counted) {i : Nat} {current : Except Text Text}
    {close : CloseAnswers} {snap : Snapshot} {s : ManagerState}
    (hone : w.OnePosition (.check i current close snap s)) :
    (w.step (.check i current close snap s)).Counted := by
  cases hp : w.positions[i]? with
  | none =>
      rw [step, hp]
      exact h
  | some p =>
      by_cases hunknown : p.entryRegime = "UNKNOWN".toList
      · rw [step_check_unknown hp hunknown]
        exact h
      · have hown : w.counts p.symbol ≠ 0 →
            w.checked p.symbol = some i ∧ current.toOption.isSome = true :=
          hone p hp hunknown
        rw [step_check_known hp hunknown]
        apply h.check_of_counts_eq hp
        · intro symbol hne
          exact Function.update_of_ne hne _ _
        · intro symbol hne
          exact Function.update_of_ne hne _ _
        · rw [Function.update_self, Function.update_self]
          unfold verdict
          rcases checkRegimeShift_cases current close
              { snap with symbol := p.symbol, entryRegime := p.entryRegime }
              { s with shiftCount := w.counts p.symbol } with
            ⟨hskipped, hcheck⟩ | ⟨-, regime, hcurrent, hread⟩
          · -- a failed check finds the counter at zero
            rw [hcheck]
            intro hcount
            rcases hskipped with hsame | ⟨message, rfl⟩
            · exact (hunknown hsame).elim
            · cases (hown hcount).2
          · subst hcurrent
            rcases hread with ⟨-, hcheck⟩ | ⟨hshifted, -, hcheck⟩ | ⟨-, -, closed, hcheck⟩
            · rw [hcheck]
              intro hcount
              exact (hcount rfl).elim
            · rw [hcheck]
              intro _
              have hread := h.own hp fun hcount => (hown hcount).1
              exact ⟨rfl, shifted_take_succ hshifted hread.1 hread.2⟩
            · rw [hcheck]
              intro hcount
              exact (hcount rfl).elim

/-- A check under the condition closes on the position's own evidence. -/
theorem Counted.ownEvidence (h : w.Counted) {input : WatchInput} (hone : w.OnePosition input) :
    w.OwnEvidence input := by
  cases input with
  | opened symbol side entryRegime => trivial
  | check i current close snap s =>
      intro p hp hclosed
      unfold verdict at hclosed
      rcases checkRegimeShift_cases current close
          { snap with symbol := p.symbol, entryRegime := p.entryRegime }
          { s with shiftCount := w.counts p.symbol } with
        ⟨-, hcheck⟩ | ⟨hknown, regime, rfl, hread⟩
      · rw [hcheck] at hclosed
        cases hclosed
      · rcases hread with ⟨-, hcheck⟩ | ⟨-, -, hcheck⟩ | ⟨hshifted, hfifth, -⟩
        · rw [hcheck] at hclosed
          cases hclosed
        · rw [hcheck] at hclosed
          cases hclosed
        · have hreadings : readingsAfter p (.ok regime) = some regime :: p.readings :=
            if_neg hknown
          have hown := h.own hp fun hcount => (hone p hp hknown hcount).1
          have hfour : 4 ≤ w.counts p.symbol := Nat.le_of_succ_le_succ hfifth
          refine ⟨hknown, ?_⟩
          rw [hreadings]
          apply shifted_take_succ hshifted (hfour.trans hown.1)
          intro r hr
          apply hown.2 r
          rw [← Nat.min_eq_left hfour, ← List.take_take] at hr
          exact List.mem_of_mem_take hr

/-- In every run in which a symbol's checks are all for one position and succeed while its
counter is above zero, a closure rests on five consecutive checks of that position, and an
unknown entry regime never leads to one. -/
theorem regimeShift_ownEvidence (inputs : List WatchInput)
    (hadmits : Admits step OnePosition start inputs) :
    Admits step OwnEvidence start inputs := by
  refine Admits.of_invariant ?_ ?_ start_counted hadmits
  · intro w input hcounted hone
    cases input with
    | opened symbol side entryRegime => exact hcounted.opened symbol side entryRegime
    | check i current close snap s => exact hcounted.check hone
  · intro w input hcounted hone
    exact hcounted.ownEvidence hone

/-- A check that reads the regime, in a cycle of a position in `BTC/USDT`. -/
def reads (i : Nat) (regime : String) : WatchInput :=
  .check i (.ok regime.toList) (acceptedClose 0) (snapshot samplePosition)
    (.ofRecord samplePosition)

theorem regimeShift_ownEvidence_fiveChecks :
    Admits step OwnEvidence start
      [.opened "BTC/USDT".toList .LONG "TREND_BULL".toList, reads 0 "RANGE", reads 0 "RANGE",
        reads 0 "CHOP", reads 0 "RANGE", reads 0 "RANGE"] :=
  regimeShift_ownEvidence _ (by decide +kernel)

/-- Four checks of a position that another exit then closes, and the first check of the next
position in the symbol closes that one. -/
theorem regimeShift_closes_on_earlier_position :
    ¬ Admits step OwnEvidence start
      [.opened "BTC/USDT".toList .LONG "TREND_BULL".toList, reads 0 "RANGE", reads 0 "RANGE",
        reads 0 "RANGE", reads 0 "RANGE", .opened "BTC/USDT".toList .LONG "TREND_BULL".toList,
        reads 1 "RANGE"] := by
  rintro ⟨-, -, -, -, -, -, hlast, -⟩
  have hclosed := hlast ⟨"BTC/USDT".toList, .LONG, "TREND_BULL".toList, []⟩ (by decide +kernel)
    (by decide +kernel)
  have hfive : 5 ≤ [some "RANGE".toList].length := hclosed.2.1
  exact absurd hfive (by decide)

end RegimeWatch

end Manager
end Karsa
