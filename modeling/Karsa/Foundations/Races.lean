import Karsa.Foundations.Runs
import Mathlib.Logic.Function.Basic

/-!
# Foundations - Two read-modify-write operations on one cell

An update reads a cell, computes a new value and writes it back; the reading and the
writing are two separate turns.  A removal is one turn.  Two operations that take
their turns in any order leave what they would leave one after the other, unless one
of them writes back a value it read before the other one took effect.

Main results:

- Theorem `Race.run_alone`: an operation whose partner is done has its whole effect.
- Theorem `Race.serial_iff_lossless`: when an interleaving leaves what a serial order
  leaves.
-/

namespace Karsa

universe u

variable {ρ : Type u}

/-! ## Operations -/

/-- An operation on a cell; a patch without result writes nothing. -/
inductive CellOp (ρ : Type u) where
  | update (patch : ρ → Option ρ)
  | remove

/-- What an update that reads this cell is going to write. -/
def CellOp.pending : CellOp ρ → Option ρ → Option ρ
  | update patch, cell => cell.bind patch
  | remove, _ => none

/-- What the operation leaves when it runs alone. -/
def CellOp.apply : CellOp ρ → Option ρ → Option ρ
  | update patch, cell => (cell.bind patch).or cell
  | remove, _ => none

/-- How far an operation has come. -/
inductive Phase (ρ : Type u) where
  | waiting
  | holding (value : ρ)
  | done

/-- One turn of an operation. -/
def CellOp.turn (op : CellOp ρ) (cell : Option ρ) : Phase ρ → Option ρ × Phase ρ
  | .waiting => match op with
      | update patch => match cell.bind patch with
          | none => (cell, .done)
          | some value => (cell, .holding value)
      | remove => (none, .done)
  | .holding value => (some value, .done)
  | .done => (cell, .done)

/-- An operation that has nothing to write is done after one turn. -/
theorem CellOp.turn_of_pending_none {op : CellOp ρ} {cell : Option ρ}
    (h : op.pending cell = none) : op.turn cell .waiting = (op.apply cell, .done) := by
  cases op with
  | update patch =>
      rw [pending] at h
      simp only [turn, apply, h, Option.none_or]
  | remove => rfl

/-- An operation that has something to write holds it after one turn. -/
theorem CellOp.turn_of_pending_some {op : CellOp ρ} {cell : Option ρ} {value : ρ}
    (h : op.pending cell = some value) : op.turn cell .waiting = (cell, .holding value) := by
  cases op with
  | update patch =>
      rw [pending] at h
      simp only [turn, h]
  | remove => cases h

/-- What it holds is what it leaves. -/
theorem CellOp.apply_of_pending_some {op : CellOp ρ} {cell : Option ρ} {value : ρ}
    (h : op.pending cell = some value) : op.apply cell = some value := by
  cases op with
  | update patch =>
      rw [pending] at h
      rw [apply, h, Option.some_or]
  | remove => cases h

/-- An update without result leaves the cell alone. -/
theorem CellOp.apply_of_pending_none {op : CellOp ρ} {cell : Option ρ}
    (h : op.pending cell = none) (hop : op ≠ remove) : op.apply cell = cell := by
  cases op with
  | update patch =>
      rw [pending] at h
      rw [apply, h, Option.none_or]
  | remove => exact (hop rfl).elim

/-- Nothing brings back a removed cell. -/
@[simp] theorem CellOp.apply_none (op : CellOp ρ) : op.apply none = none := by
  cases op <;> rfl

/-! ## Two operations -/

/-- Whose turn it is. -/
inductive Turn where
  | first
  | second
deriving Repr, DecidableEq

/-- The other operation. -/
def Turn.other : Turn → Turn
  | first => second
  | second => first

@[simp] theorem Turn.other_other (t : Turn) : t.other.other = t := by
  cases t <;> rfl

theorem Turn.other_ne (t : Turn) : t.other ≠ t := by
  cases t <;> simp [other]

theorem Turn.eq_or_eq_other (t t' : Turn) : t' = t ∨ t' = t.other := by
  cases t <;> cases t' <;> simp [other]

/-- The cell and the phases of the two operations. -/
structure Race (ρ : Type u) where
  cell : Option ρ
  phase : Turn → Phase ρ

namespace Race

variable (ops : Turn → CellOp ρ)

/-- Before anything has happened. -/
def start (cell : Option ρ) : Race ρ :=
  ⟨cell, fun _ => .waiting⟩

/-- One of the operations takes its turn. -/
def step (s : Race ρ) (t : Turn) : Race ρ :=
  let moved := (ops t).turn s.cell (s.phase t)
  ⟨moved.1, Function.update s.phase t moved.2⟩

/-- Both operations are done. -/
def Complete (s : Race ρ) : Prop :=
  ∀ t, s.phase t = .done

@[simp] theorem step_phase_other (s : Race ρ) (t : Turn) :
    (step ops s t).phase t.other = s.phase t.other :=
  Function.update_of_ne t.other_ne _ _

@[simp] theorem step_phase_self (s : Race ρ) (t : Turn) :
    (step ops s t).phase t = ((ops t).turn s.cell (s.phase t)).2 :=
  Function.update_self _ _ _

/-- A turn of an operation that is done changes nothing. -/
theorem step_of_done {s : Race ρ} {t : Turn} (h : s.phase t = .done) : step ops s t = s := by
  simp only [step, h, CellOp.turn]
  rw [← h, Function.update_eq_self]

variable {ops}

/-- An operation is done once both of two turns' owners are. -/
theorem complete_of_done {s : Race ρ} {t : Turn} (hself : s.phase t = .done)
    (hother : s.phase t.other = .done) : s.Complete := by
  intro t'
  rcases t.eq_or_eq_other t' with rfl | rfl
  · exact hself
  · exact hother

/-- Nothing happens once both operations are done. -/
theorem run_of_complete {s : Race ρ} (h : s.Complete) (turns : List Turn) :
    run (step ops) s turns = s := by
  induction turns with
  | nil => rfl
  | cons t rest ih => rw [run_cons, step_of_done ops (h t), ih]

/-- An operation that waits to write overwrites what its partner has left. -/
theorem run_holding {s : Race ρ} {t : Turn} {value : ρ} {turns : List Turn}
    (hdone : s.phase t.other = .done) (hhold : s.phase t = .holding value)
    (hcomplete : (run (step ops) s turns).Complete) :
    (run (step ops) s turns).cell = some value := by
  induction turns with
  | nil =>
      have habsurd := hcomplete t
      rw [run_nil, hhold] at habsurd
      cases habsurd
  | cons t' rest ih =>
      rw [run_cons] at hcomplete ⊢
      rcases t.eq_or_eq_other t' with rfl | rfl
      · have hself : (step ops s t').phase t' = .done := by
          rw [step_phase_self, hhold, CellOp.turn]
        have hother : (step ops s t').phase t'.other = .done := by
          rw [step_phase_other, hdone]
        rw [run_of_complete (complete_of_done hself hother)]
        simp only [step, hhold, CellOp.turn]
      · rw [step_of_done ops hdone] at hcomplete ⊢
        exact ih hcomplete

/-- An operation whose partner is done has its whole effect. -/
theorem run_alone {s : Race ρ} {t : Turn} {turns : List Turn}
    (hdone : s.phase t.other = .done) (hwait : s.phase t = .waiting)
    (hcomplete : (run (step ops) s turns).Complete) :
    (run (step ops) s turns).cell = (ops t).apply s.cell := by
  induction turns with
  | nil =>
      have habsurd := hcomplete t
      rw [run_nil, hwait] at habsurd
      cases habsurd
  | cons t' rest ih =>
      rw [run_cons] at hcomplete ⊢
      rcases t.eq_or_eq_other t' with rfl | rfl
      · have hother : (step ops s t').phase t'.other = .done := by
          rw [step_phase_other, hdone]
        cases hpending : (ops t').pending s.cell with
        | none =>
            have hturn := CellOp.turn_of_pending_none hpending
            have hself : (step ops s t').phase t' = .done := by
              rw [step_phase_self, hwait, hturn]
            rw [run_of_complete (complete_of_done hself hother)]
            simp only [step, hwait, hturn]
        | some value =>
            have hself : (step ops s t').phase t' = .holding value := by
              rw [step_phase_self, hwait, CellOp.turn_of_pending_some hpending]
            rw [run_holding hother hself hcomplete, CellOp.apply_of_pending_some hpending]
      · rw [step_of_done ops hdone] at hcomplete ⊢
        exact ih hcomplete

/-- Where both operations wait to write, the one whose turn comes later wins. -/
theorem run_both_holding {s : Race ρ} {t : Turn} {value : ρ} {turns : List Turn}
    (hhold : ∃ lost, s.phase t = .holding lost) (hother : s.phase t.other = .holding value)
    (hcomplete : (run (step ops) s (t :: turns)).Complete) :
    (run (step ops) s (t :: turns)).cell = some value := by
  rcases hhold with ⟨lost, hhold⟩
  rw [run_cons] at hcomplete ⊢
  have hself : (step ops s t).phase t.other.other = .done := by
    rw [Turn.other_other, step_phase_self, hhold, CellOp.turn]
  have hkeeps : (step ops s t).phase t.other = .holding value := by
    rw [step_phase_other, hother]
  exact run_holding hself hkeeps hcomplete

/-! ## Interleavings -/

variable (ops)

/-- Turns after which both operations are done. -/
structure Interleaving (cell : Option ρ) where
  turns : List Turn
  complete : (run (step ops) (start cell) turns).Complete

/-- What an interleaving leaves. -/
def Interleaving.result {cell : Option ρ} (i : Interleaving ops cell) : Option ρ :=
  (run (step ops) (start cell) i.turns).cell

/-- What one of the two serial orders leaves. -/
def Serial (cell result : Option ρ) : Prop :=
  ∃ t, result = (ops t.other).apply ((ops t).apply cell)

/-- Running the first operation before or after the second one adds nothing to what the
second one leaves alone. -/
def Absorbs (lost kept : CellOp ρ) (cell : Option ρ) : Prop :=
  kept.apply (lost.apply cell) = kept.apply cell ∨
    lost.apply (kept.apply cell) = kept.apply cell

/-- Where one operation reads and the other one takes the next turn before the first has
written, the other one is an update, and if both write then the one that writes last
absorbs the one that writes first. -/
def Lossless (cell : Option ρ) (turns : List Turn) : Prop :=
  ∀ t rest, turns = t :: t.other :: rest → ((ops t).pending cell).isSome →
    ops t.other ≠ .remove ∧ (((ops t.other).pending cell).isSome →
      ∀ last more, rest = Turn.other last :: more → Absorbs (ops last.other) (ops last) cell)

variable {ops}

/-- With a removal every serial order leaves the cell empty. -/
theorem Serial.eq_none {cell result : Option ρ} (h : Serial ops cell result)
    (hremove : ∃ t, ops t = .remove) : result = none := by
  rcases h with ⟨t, rfl⟩
  rcases hremove with ⟨t', hop⟩
  rcases t.eq_or_eq_other t' with rfl | rfl
  · rw [hop, CellOp.apply, CellOp.apply_none]
  · rw [hop, CellOp.apply]

/-- What the last of two writers leaves is serial exactly when it absorbs the other. -/
theorem serial_iff_absorbs {cell : Option ρ} (last : Turn) :
    Serial ops cell ((ops last).apply cell) ↔ Absorbs (ops last.other) (ops last) cell := by
  constructor
  · rintro ⟨t, h⟩
    rcases last.eq_or_eq_other t with rfl | rfl
    · exact Or.inr h.symm
    · rw [Turn.other_other] at h
      exact Or.inl h.symm
  · intro h
    rcases h with h | h
    · exact ⟨last.other, by rw [Turn.other_other, h]⟩
    · exact ⟨last, h.symm⟩

/-- Turns that do not begin with an overlap are lossless. -/
theorem lossless_of_not_overlap {cell : Option ρ} {t t' : Turn} {rest : List Turn}
    (h : t' ≠ t.other ∨ (ops t).pending cell = none) : Lossless ops cell (t :: t' :: rest) := by
  intro t'' rest' heq hsome
  rw [List.cons.injEq, List.cons.injEq] at heq
  rcases heq with ⟨rfl, rfl, rfl⟩
  rcases h with h | h
  · exact (h rfl).elim
  · rw [h] at hsome
    cases hsome

/-- Two operations that wait to write: the one whose turn comes later has to absorb the
other. -/
theorem serial_iff_of_both_holding {cell : Option ρ} {s : Race ρ} {turns : List Turn}
    (hhold : ∀ t, ∃ value, s.phase t = .holding value ∧ (ops t).apply cell = some value)
    (hcomplete : (run (step ops) s turns).Complete) :
    Serial ops cell (run (step ops) s turns).cell ↔
      ∀ last more, turns = Turn.other last :: more →
        Absorbs (ops last.other) (ops last) cell := by
  cases turns with
  | nil =>
      rcases hhold .first with ⟨value, hphase, -⟩
      have habsurd := hcomplete .first
      rw [run_nil, hphase] at habsurd
      cases habsurd
  | cons t more =>
      rcases hhold t with ⟨lost, hlost, -⟩
      rcases hhold t.other with ⟨value, hphase, hvalue⟩
      rw [run_both_holding ⟨lost, hlost⟩ hphase hcomplete, ← hvalue, serial_iff_absorbs]
      constructor
      · intro h last more' heq
        rw [List.cons.injEq] at heq
        rw [heq.1] at h
        simpa only [Turn.other_other] using h
      · intro h
        exact h t.other more (by rw [Turn.other_other])

/-- An operation that waits to write while its partner takes the next turn. -/
theorem serial_iff_of_overlap {cell : Option ρ} {s : Race ρ} {t : Turn} {value : ρ}
    {turns : List Turn} (hcell : s.cell = cell) (hpending : (ops t).pending cell = some value)
    (hhold : s.phase t = .holding value) (hwait : s.phase t.other = .waiting)
    (hcomplete : (run (step ops) s (t.other :: turns)).Complete) :
    Serial ops cell (run (step ops) s (t.other :: turns)).cell ↔
      ops t.other ≠ .remove ∧ (((ops t.other).pending cell).isSome →
        ∀ last more, turns = Turn.other last :: more →
          Absorbs (ops last.other) (ops last) cell) := by
  rw [run_cons] at hcomplete ⊢
  have hkeeps : (step ops s t.other).phase t = .holding value := by
    have hphase := step_phase_other ops s t.other
    rw [Turn.other_other] at hphase
    rw [hphase, hhold]
  have hvalue := CellOp.apply_of_pending_some hpending
  cases hother : (ops t.other).pending cell with
  | none =>
      have hdone : (step ops s t.other).phase t.other = .done := by
        rw [step_phase_self, hwait, hcell, CellOp.turn_of_pending_none hother]
      rw [run_holding hdone hkeeps hcomplete]
      constructor
      · intro hserial
        refine ⟨?_, by simp⟩
        intro hremove
        cases hserial.eq_none ⟨t.other, hremove⟩
      · rintro ⟨hupdate, -⟩
        refine ⟨t.other, ?_⟩
        rw [Turn.other_other, CellOp.apply_of_pending_none hother hupdate, hvalue]
  | some other =>
      have hphase : (step ops s t.other).phase t.other = .holding other := by
        rw [step_phase_self, hwait, hcell, CellOp.turn_of_pending_some hother]
      have hboth : ∀ t', ∃ held, (step ops s t.other).phase t' = .holding held ∧
          (ops t').apply cell = some held := by
        intro t'
        rcases t.eq_or_eq_other t' with rfl | rfl
        · exact ⟨value, hkeeps, hvalue⟩
        · exact ⟨other, hphase, CellOp.apply_of_pending_some hother⟩
      rw [serial_iff_of_both_holding hboth hcomplete]
      have hupdate : ops t.other ≠ .remove := by
        intro hremove
        rw [hremove] at hother
        cases hother
      simp [hupdate]

/-- An operation that takes its two turns in a row comes first. -/
theorem run_in_a_row {cell : Option ρ} {s : Race ρ} {t : Turn} {value : ρ} {turns : List Turn}
    (hpending : (ops t).pending cell = some value) (hhold : s.phase t = .holding value)
    (hwait : s.phase t.other = .waiting)
    (hcomplete : (run (step ops) s (t :: turns)).Complete) :
    (run (step ops) s (t :: turns)).cell = (ops t.other).apply ((ops t).apply cell) := by
  have hself : (step ops s t).phase t.other.other = .done := by
    rw [Turn.other_other, step_phase_self, hhold, CellOp.turn]
  have hwait' : (step ops s t).phase t.other = .waiting := by
    rw [step_phase_other, hwait]
  have hcell : (step ops s t).cell = (ops t).apply cell := by
    rw [CellOp.apply_of_pending_some hpending]
    simp only [step, hhold, CellOp.turn]
  rw [run_cons] at hcomplete ⊢
  rw [run_alone hself hwait' hcomplete, hcell]

/-- An operation with nothing to write comes first. -/
theorem run_of_pending_none {cell : Option ρ} {t : Turn} {turns : List Turn}
    (hpending : (ops t).pending cell = none)
    (hcomplete : (run (step ops) (start cell) (t :: turns)).Complete) :
    (run (step ops) (start cell) (t :: turns)).cell =
      (ops t.other).apply ((ops t).apply cell) := by
  have hturn := CellOp.turn_of_pending_none hpending
  have hself : (step ops (start cell) t).phase t.other.other = .done := by
    rw [Turn.other_other, step_phase_self]
    exact congrArg Prod.snd hturn
  have hwait : (step ops (start cell) t).phase t.other = .waiting := step_phase_other ops _ _
  have hcell : (step ops (start cell) t).cell = (ops t).apply cell := congrArg Prod.fst hturn
  rw [run_cons] at hcomplete ⊢
  rw [run_alone hself hwait hcomplete, hcell]

/-- An interleaving leaves what a serial order leaves exactly when it is lossless. -/
theorem serial_iff_lossless {cell : Option ρ} (i : Interleaving ops cell) :
    Serial ops cell i.result ↔ Lossless ops cell i.turns := by
  rcases i with ⟨turns, hcomplete⟩
  unfold Interleaving.result
  dsimp only
  rcases turns with _ | ⟨t, _ | ⟨t', rest⟩⟩
  · cases hcomplete .first
  · have habsurd := hcomplete t.other
    rw [run_cons, run_nil, step_phase_other] at habsurd
    cases habsurd
  · cases hpending : (ops t).pending cell with
    | none =>
        rw [run_of_pending_none hpending hcomplete]
        constructor
        · intro _
          exact lossless_of_not_overlap (Or.inr hpending)
        · intro _
          exact ⟨t, rfl⟩
    | some value =>
        have hturn := CellOp.turn_of_pending_some hpending
        have hhold : (step ops (start cell) t).phase t = .holding value := by
          rw [step_phase_self]
          exact congrArg Prod.snd hturn
        have hwait : (step ops (start cell) t).phase t.other = .waiting :=
          step_phase_other ops _ _
        have hcell : (step ops (start cell) t).cell = cell := congrArg Prod.fst hturn
        rw [run_cons] at hcomplete ⊢
        rcases t.eq_or_eq_other t' with rfl | rfl
        · rw [run_in_a_row hpending hhold hwait hcomplete]
          constructor
          · intro _
            exact lossless_of_not_overlap (Or.inl t'.other_ne.symm)
          · intro _
            exact ⟨t', rfl⟩
        · rw [serial_iff_of_overlap hcell hpending hhold hwait hcomplete]
          constructor
          · intro h t'' rest' heq _
            rw [List.cons.injEq, List.cons.injEq] at heq
            rcases heq with ⟨rfl, -, rfl⟩
            exact h
          · intro h
            exact h t rest rfl (by rw [hpending]; rfl)

end Race
end Karsa
