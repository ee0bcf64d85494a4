import Karsa.Execution.Manager.Carried
import Karsa.Execution.Manager.RegimeShift
import Karsa.Execution.Manager.Tasks

/-!
# Active position manager - The regime of adopted positions

The orphan sync saves a position without a regime and marks it `UNKNOWN` in a second write.
That write serializes with `_json`, a name that a later import inside the same function
makes local to it: until the price loop has come to that import, the name is unbound, the
write raises, and the exception is swallowed.  The record then stands with an empty regime,
and the reconcile step cannot fill it: its call of the classifier raises.

Main results:

- Theorem `act_storedRegime`: no routine of the manager changes a stored entry regime.
- Theorem `adoptedOrphans_exempt`: the runs in which adopted positions stay exempt from the
  kill switch.
-/

namespace Karsa
namespace Manager

open Bybit

/-! ## Keeping a regime -/

/-- The record in memory and the stored one have the entry regime. -/
structure HasRegime (regime : Text) (s : ManagerState) : Prop where
  pos : s.pos.entryRegime = some regime
  stored : ∀ r ∈ s.stored, r.entryRegime = some regime

namespace HasRegime

variable {regime : Text} {s : ManagerState}

/-- The regime is one of the fields that a cycle carries along. -/
theorem carries (h : HasRegime regime s) :
    Carries (·.entryRegime = some regime) (·.entryRegime = some regime) s :=
  ⟨h.pos, h.stored⟩

theorem of_carries
    (h : Carries (·.entryRegime = some regime) (·.entryRegime = some regime) s) :
    HasRegime regime s :=
  ⟨h.pos, h.stored⟩

theorem edit (h : HasRegime regime s) {f : PositionRecord → PositionRecord}
    (hf : (f s.pos).entryRegime = s.pos.entryRegime) : HasRegime regime (s.edit f) :=
  ⟨hf.trans h.pos, h.stored⟩

theorem emit (h : HasRegime regime s) (e : ApmEvent) : HasRegime regime (s.emit e) :=
  of_carries (h.carries.emit e)

theorem persist (h : HasRegime regime s) : HasRegime regime s.persist :=
  of_carries (h.carries.persist fun _ hv => hv)

theorem remove (h : HasRegime regime s) : HasRegime regime s.remove :=
  of_carries h.carries.remove

theorem moveStopToBreakeven (h : HasRegime regime s) (b : BreakevenAnswers) (entryPrice : ℚ) :
    HasRegime regime (moveStopToBreakeven b entryPrice s) :=
  of_carries (h.carries.moveStopToBreakeven (fun _ hv => hv) b entryPrice)

theorem scaleOutPosition (h : HasRegime regime s) (accepted : Bool) (pct : ℚ) :
    HasRegime regime (scaleOutPosition accepted pct s) :=
  of_carries (h.carries.scaleOutPosition accepted pct)

/-- The entry regime is no field that the reconcile step fills. -/
theorem reconcilePosition (h : HasRegime regime s) (a : ReconcileAnswers) :
    HasRegime regime (reconcilePosition a s) :=
  of_carries (h.carries.reconcilePosition (fun _ hv => hv) (fun _ _ hv => hv) a)

/-- The rules of a cycle start with it. -/
theorem rulesStart (h : HasRegime regime s) (a : CycleAnswers) :
    HasRegime regime (rulesStart a s) :=
  of_carries (h.carries.rulesStart (fun _ hv => hv) (fun _ _ hv => hv) a)

/-- A cycle keeps the entry regime. -/
theorem manageSinglePosition (h : HasRegime regime s) (a : CycleAnswers) :
    HasRegime regime (manageSinglePosition a s) :=
  of_carries (h.carries.manageSinglePosition (fun _ hv => hv) (fun _ _ hv => hv)
    (fun _ _ hv => hv) a)

end HasRegime

/-! ## Steps on a key -/

/-- The stored record has the entry regime. -/
def StoredRegime (regime : Text) (s : ManagerState) : Prop :=
  ∀ r ∈ s.stored, r.entryRegime = some regime

/-- A record read into memory has the regime of the stored one. -/
theorem StoredRegime.load {regime : Text} {s : ManagerState} (h : StoredRegime regime s)
    {record : PositionRecord} (hrecord : s.stored = some record) :
    HasRegime regime (s.load record) :=
  ⟨h record hrecord, h⟩

/-- So has the record that a cycle starts with. -/
theorem StoredRegime.startCycle {regime : Text} {s : ManagerState} (h : StoredRegime regime s)
    {record : PositionRecord} (hrecord : s.stored = some record) (live : Option ℚ) :
    HasRegime regime (startCycle live record s) :=
  ⟨h record hrecord, h⟩

/-- Recording a stop keeps the stored regime. -/
theorem StoredRegime.updateStop {regime : Text} {s : ManagerState} (h : StoredRegime regime s)
    (stop : ℚ) : StoredRegime regime (s.updateStop stop) := by
  unfold ManagerState.updateStop
  cases hstored : s.stored with
  | none => exact h
  | some old =>
      intro r hr
      cases hr
      exact h old hstored

/-- The health check keeps a stored regime. -/
theorem StoredRegime.healthCheck {regime : Text} {s : ManagerState} (h : StoredRegime regime s)
    (answers : ReconcileAnswers) (accepted : Bool) :
    StoredRegime regime (healthCheck answers accepted s) := by
  unfold Manager.healthCheck
  cases hstored : s.stored with
  | none => exact h
  | some record =>
      have hchecked := (h.load hstored).reconcilePosition answers
      dsimp only
      generalize reconcilePosition answers (s.load record) = s' at hchecked
      have hsent := hchecked.emit (.stopSent ⟨record.symbol, s'.pos.side, s'.pos.currentSl,
        emergencyStop s'.pos⟩ accepted)
      split_ifs
      · exact h
      · exact StoredRegime.updateStop hsent.stored (emergencyStop s'.pos)
      · exact (hchecked.emit _).stored
      · exact hchecked.stored

/-- No routine of the manager changes a stored regime. -/
theorem act_storedRegime {regime : Text} {s : ManagerState} (h : StoredRegime regime s)
    {step : ApmStep}
    (hadopt : ∀ a now marked, step = .adopt a now marked → s.stored ≠ none) :
    StoredRegime regime (act s step) := by
  cases step with
  | cycle input =>
      rw [act, manage]
      cases hstored : s.stored with
      | none => exact h
      | some record =>
          exact ((h.startCycle hstored input.live).manageSinglePosition _).stored
  | healthCheck answers accepted => exact h.healthCheck answers accepted
  | reconcile external accepted =>
      unfold act reconcilePositions
      cases hstored : s.stored with
      | none => exact h
      | some record =>
          cases external with
          | none => exact h
          | some positions =>
              have hloaded := h.load hstored
              dsimp only
              split_ifs
              · exact (hloaded.emit _).stored
              · exact hloaded.stored
              · exact hloaded.remove.stored
  | adopt adoption now marked =>
      rw [act, adopt]
      cases hstored : s.stored with
      | none => exact (hadopt adoption now marked rfl hstored).elim
      | some record => exact h
  | scaleOut ratio reduced lock =>
      rw [act, proactiveScaleOut]
      cases hstored : s.stored with
      | none => exact h
      | some record =>
          have hlocked := ((h.load hstored).scaleOutPosition reduced ratio).moveStopToBreakeven
            lock record.entryPrice
          dsimp only
          split_ifs
          · exact h
          · exact h
          · have hmarked := hlocked.edit (f := ({ · with proactiveScaleOutExecuted := true })) rfl
            exact hmarked.persist.stored

/-- A marked adoption stores an unknown regime. -/
theorem adopt_marked (a : Adoption) (now : ℚ) {s : ManagerState} (h : s.stored = none) :
    StoredRegime "UNKNOWN".toList (adopt a now true s) := by
  unfold adopt
  rw [h]
  intro r hr
  cases hr
  rfl

/-! ## The monitoring loop -/

/-- `start_monitoring` with the keys it works on: whether the import of `_json` was come to,
and the keys whose record the orphan sync has saved. -/
structure MonitorLoop where
  jsonBound : Bool
  keys : Text × Side → ManagerState
  adopted : Text × Side → Bool

/-- What happens next: a routine of the manager on a key, the price loop over the symbols of
the positions, or another component that saves or removes a record. -/
inductive LoopInput where
  | act (key : Text × Side) (step : ApmStep)
  | prices (symbols : List Text)
  | saved (key : Text × Side) (record : PositionRecord)
  | removed (key : Text × Side)

/-- The key an event is on. -/
def LoopInput.key? : LoopInput → Option (Text × Side)
  | .act key _ | .saved key _ | .removed key => some key
  | .prices _ => none

/-- The second write of an adoption needs the bound name. -/
def ApmStep.resolve (jsonBound : Bool) : ApmStep → ApmStep
  | .adopt a now marked => .adopt a now (jsonBound && marked)
  | .cycle input => .cycle input
  | .healthCheck answers accepted => .healthCheck answers accepted
  | .reconcile external accepted => .reconcile external accepted
  | .scaleOut ratio reduced lock => .scaleOut ratio reduced lock

/-- The step saves a record for a key that has none. -/
def ApmStep.adopts (s : ManagerState) : ApmStep → Bool
  | .adopt _ _ _ => s.stored.isNone
  | .cycle _ | .healthCheck _ _ | .reconcile _ _ | .scaleOut _ _ _ => false

namespace MonitorLoop

/-- One event. -/
def step (s : MonitorLoop) : LoopInput → MonitorLoop
  | .act key step =>
      { s with
        keys := Function.update s.keys key (Manager.act (s.keys key) (step.resolve s.jsonBound))
        adopted :=
          if step.adopts (s.keys key) then Function.update s.adopted key true else s.adopted }
  | .prices symbols => { s with jsonBound := s.jsonBound || symbols.any (· ≠ []) }
  | .saved key record =>
      { s with
        keys := Function.update s.keys key ((s.keys key).load record).persist
        adopted := Function.update s.adopted key false }
  | .removed key =>
      { s with
        keys := Function.update s.keys key (s.keys key).remove
        adopted := Function.update s.adopted key false }

/-- The loop at its start. -/
def start (keys : Text × Side → ManagerState) : MonitorLoop :=
  ⟨false, keys, fun _ => false⟩

/-- A cycle of an adopted position finds its regime unknown, and the kill switch passes it
whatever the rules before have done. -/
def Exempt (s : MonitorLoop) : LoopInput → Prop
  | .act key (.cycle input) =>
      s.adopted key = true → ∀ record ∈ (s.keys key).stored,
        record.entryRegime = some "UNKNOWN".toList ∧
          ∀ t, CycleRule.block input.answers
            (snapshot (rulesStart input.answers
              (startCycle input.live record (s.keys key))).pos) .regimeShift t = .next t
  | .act _ (.adopt _ _ _) | .act _ (.healthCheck _ _) | .act _ (.reconcile _ _)
  | .act _ (.scaleOut _ _ _) | .prices _ | .saved _ _ | .removed _ => True

/-- An adoption can be marked: the price loop has come to a position before, and the store
answers. -/
def Marks (s : MonitorLoop) : LoopInput → Prop
  | .act key (.adopt _ _ marked) =>
      (s.keys key).stored = none → s.jsonBound = true ∧ marked = true
  | .act _ (.cycle _) | .act _ (.healthCheck _ _) | .act _ (.reconcile _ _)
  | .act _ (.scaleOut _ _ _) | .prices _ | .saved _ _ | .removed _ => True

instance (s : MonitorLoop) : DecidablePred s.Marks
  | .act _ (.adopt _ _ marked) => inferInstanceAs (Decidable (_ → _ ∧ marked = true))
  | .act _ (.cycle _) | .act _ (.healthCheck _ _) | .act _ (.reconcile _ _)
  | .act _ (.scaleOut _ _ _) | .prices _ | .saved _ _ | .removed _ => isTrue trivial

/-- The records of adopted positions have an unknown regime. -/
def Unknown (s : MonitorLoop) : Prop :=
  ∀ key, s.adopted key = true → StoredRegime "UNKNOWN".toList (s.keys key)

/-- An event on another key leaves this one. -/
theorem step_of_ne {s : MonitorLoop} {input : LoopInput} {key : Text × Side}
    (hkey : input.key? ≠ some key) :
    (s.step input).keys key = s.keys key ∧ (s.step input).adopted key = s.adopted key := by
  cases input with
  | prices symbols => exact ⟨rfl, rfl⟩
  | act other step =>
      have hne : key ≠ other := fun h => hkey (h ▸ rfl)
      refine ⟨Function.update_of_ne hne _ _, ?_⟩
      unfold MonitorLoop.step
      dsimp only
      split_ifs
      · exact Function.update_of_ne hne _ _
      · rfl
  | saved other record =>
      have hne : key ≠ other := fun h => hkey (h ▸ rfl)
      exact ⟨Function.update_of_ne hne _ _, Function.update_of_ne hne _ _⟩
  | removed other =>
      have hne : key ≠ other := fun h => hkey (h ▸ rfl)
      exact ⟨Function.update_of_ne hne _ _, Function.update_of_ne hne _ _⟩

/-- A routine on the key of an adopted position keeps the regime unknown, if the adoption is
marked. -/
theorem Unknown.act {s : MonitorLoop} (h : s.Unknown) {key : Text × Side} {step : ApmStep}
    (hmarks : s.Marks (.act key step)) (hadopted : (s.step (.act key step)).adopted key = true) :
    StoredRegime "UNKNOWN".toList ((s.step (.act key step)).keys key) := by
  unfold MonitorLoop.step at hadopted ⊢
  dsimp only at hadopted ⊢
  rw [Function.update_self]
  cases step with
  | adopt a now marked =>
      cases hstored : (s.keys key).stored with
      | none =>
          rcases hmarks hstored with ⟨hbound, hmarked⟩
          rw [ApmStep.resolve, hbound, hmarked]
          exact adopt_marked a now hstored
      | some record =>
          rw [if_neg (by simp [ApmStep.adopts, hstored])] at hadopted
          apply act_storedRegime (h key hadopted)
          intro _ _ _ _ hnone
          rw [hstored] at hnone
          cases hnone
  | cycle input => exact act_storedRegime (h key hadopted) nofun
  | healthCheck answers accepted => exact act_storedRegime (h key hadopted) nofun
  | reconcile external accepted => exact act_storedRegime (h key hadopted) nofun
  | scaleOut ratio reduced lock => exact act_storedRegime (h key hadopted) nofun

/-- An event whose adoptions are marked keeps the regimes unknown. -/
theorem Unknown.step {s : MonitorLoop} (h : s.Unknown) {input : LoopInput}
    (hmarks : s.Marks input) : (s.step input).Unknown := by
  intro key hadopted
  by_cases hkey : input.key? = some key
  · cases input with
    | prices symbols => cases hkey
    | act other step =>
        obtain rfl := Option.some.inj hkey
        exact h.act hmarks hadopted
    | saved other record =>
        obtain rfl := Option.some.inj hkey
        exact absurd (hadopted.symm.trans (Function.update_self _ _ _)) (by decide)
    | removed other =>
        obtain rfl := Option.some.inj hkey
        exact absurd (hadopted.symm.trans (Function.update_self _ _ _)) (by decide)
  · rcases step_of_ne (s := s) hkey with ⟨hsame, hsame'⟩
    rw [hsame]
    exact h key (hsame' ▸ hadopted)

/-- Where the regimes are unknown, adopted positions are exempt. -/
theorem Unknown.exempt {s : MonitorLoop} (h : s.Unknown) (input : LoopInput) :
    s.Exempt input := by
  rcases input with ⟨key, step⟩ | _ | _ | _
  · cases step with
    | cycle input =>
        intro hadopted record hrecord
        have hstored := h key hadopted
        refine ⟨hstored record hrecord, ?_⟩
        intro t
        have hstart := (hstored.startCycle hrecord input.live).rulesStart input.answers
        have hregime : (snapshot (rulesStart input.answers
            (startCycle input.live record (s.keys key))).pos).entryRegime =
              "UNKNOWN".toList := by
          unfold snapshot
          dsimp only
          rw [hstart.pos]
          rfl
        exact if_pos hregime
    | healthCheck answers accepted => trivial
    | reconcile external accepted => trivial
    | adopt a now marked => trivial
    | scaleOut ratio reduced lock => trivial
  · trivial
  · trivial
  · trivial

/-- In every run in which each adoption can be marked, the cycles of adopted positions find
an unknown regime and the kill switch passes them. -/
theorem adoptedOrphans_exempt (keys : Text × Side → ManagerState) (inputs : List LoopInput)
    (hadmits : Admits step Marks (start keys) inputs) :
    Admits step Exempt (start keys) inputs := by
  have hstep : ∀ (s : MonitorLoop) (input : LoopInput), s.Unknown → s.Marks input →
      (s.step input).Unknown := fun s input h hmarks => h.step hmarks
  have hexempt : ∀ (s : MonitorLoop) (input : LoopInput), s.Unknown → s.Marks input →
      s.Exempt input := fun s input h _ => h.exempt input
  have hinit : (start keys).Unknown := by
    intro key hadopted
    cases hadopted
  exact Admits.of_invariant hstep hexempt hinit hadmits

/-- A position of one `BTC/USDT` that has no record. -/
def orphan : Adoption where
  symbol := "BTC/USDT".toList
  side := .LONG
  entryPrice := 100
  amount := 1

/-- No position has a record. -/
def emptyKeys (_key : Text × Side) : ManagerState :=
  { ManagerState.ofRecord samplePosition with stored := none }

/-- A cycle of the orphan: the candles give a range of one, and the kill switch reads a
ranging market. -/
def orphanCycle : LoopInput :=
  .act ("BTC/USDT".toList, .LONG)
    (.cycle ⟨none, acceptingAnswers { holdingReport .Buy 98 with computedAtr := 1 }⟩)

/-- Its adoption, with a store that answers. -/
def orphanAdoption : LoopInput :=
  .act ("BTC/USDT".toList, .LONG) (.adopt orphan 0 true)

theorem adoptedOrphans_exempt_later :
    Admits step Exempt (start emptyKeys)
      [.prices ["ETH/USDT".toList], orphanAdoption, .prices ["BTC/USDT".toList], orphanCycle] :=
  adoptedOrphans_exempt emptyKeys _ (by decide +kernel)

/-- In the first pass of the loop the mark is lost: the orphan keeps its empty regime, which
the kill switch takes for a changed one, and is closed after five cycles. -/
theorem adoptedOrphans_closed :
    ¬ Admits step Exempt (start emptyKeys)
        [orphanAdoption, .prices ["BTC/USDT".toList], orphanCycle] ∧
      ((run step (start emptyKeys)
          [orphanAdoption, .prices ["BTC/USDT".toList], orphanCycle, orphanCycle, orphanCycle,
            orphanCycle, orphanCycle]).keys ("BTC/USDT".toList, .LONG)).log.getLast? =
        some .removed := by
  constructor
  · rintro ⟨-, -, hcycle, -⟩
    have hexempt := hcycle (by decide +kernel) (Manager.adopted orphan 0) (by decide +kernel)
    exact absurd hexempt.1 (by decide +kernel)
  · decide +kernel

end MonitorLoop

end Manager
end Karsa
