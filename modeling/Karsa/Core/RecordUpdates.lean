import Karsa.Core.PositionRecord
import Karsa.Foundations.Races
import Mathlib.Data.Finmap

/-!
# Position store - Concurrent updates of one record

Every update of `PositionStore` reads the whole JSON dictionary of a key, changes some
of its fields and writes the whole dictionary back; the manager's loops do the same
with a dictionary they have held for a while.  Nothing guards the two accesses, so the
operations of two tasks on one key interleave between them.

Main results:

- Theorem `updatesKept_iff`: which interleavings of two operations keep both effects.
-/

namespace Karsa
namespace RecordUpdates

/-! ## The stored dictionary -/

/-- A JSON value as the store writes it; numbers and decimal texts are `decimal`. -/
inductive FieldValue where
  | null
  | text (t : Text)
  | decimal (q : ℚ)
  | flag (b : Bool)
deriving Repr, DecidableEq

/-- `Decimal(value)`; `none` stands for the exception it raises. -/
def FieldValue.decimal? : FieldValue → Option ℚ
  | .decimal q => some q
  | .flag b => some (if b then 1 else 0)
  | .null | .text _ => none

/-- The dictionary under a key. -/
abbrev Fields := Finmap fun _ : Text => FieldValue

/-- `pos[field] = value`. -/
def Fields.put (pos : Fields) (field : String) (value : FieldValue) : Fields :=
  pos.insert field.toList value

/-- `pos.get(field)`, where a JSON null reads like an absent field. -/
def Fields.read (pos : Fields) (field : String) : Option FieldValue :=
  match pos.lookup field.toList with
  | none | some .null => none
  | some value => some value

/-- `pos["last_check_at"] = now`. -/
def Fields.stamp (pos : Fields) (now : Text) : Fields :=
  pos.put "last_check_at" (.text now)

/-! ## Operations -/

/-- Is the price a new peak of the side? -/
def improves (side : Side) (price peak : ℚ) : Bool :=
  match side with
  | .LONG => decide (peak < price)
  | .SHORT => decide (price < peak)

/-- `update_peak` on the record it read; an unreadable peak raises. -/
def updatePeak (side : Side) (price : ℚ) (now : Text) (pos : Fields) : Option Fields :=
  let updated := ((pos.put "peak_price" (.decimal price))).stamp now
  match pos.read "peak_price" with
  | none => some updated
  | some current => match current.decimal? with
      | none => none
      | some peak => if improves side price peak then some updated else none

/-- `update_sl` on the record it read. -/
def updateSl (slOrderId : Text) (newSlPrice : Option ℚ) (now : Text) (pos : Fields) :
    Option Fields :=
  let pos := pos.put "sl_order_id" (.text slOrderId)
  let pos := match newSlPrice with
    | none => pos
    | some price =>
        if 0 < price then
          (pos.put "current_sl" (.decimal price)).put "stop_loss" (.decimal price)
        else pos
  some (pos.stamp now)

/-- `update_checkpoint` on the record it read. -/
def updateCheckpoint (checkpoint now : Text) (pos : Fields) : Option Fields :=
  some ((pos.put "checkpoint" (.text checkpoint)).stamp now)

/-- `update_fields` on the record it read. -/
def updateFields (updates : Fields) (now : Text) (pos : Fields) : Option Fields :=
  some (Fields.stamp (updates ∪ pos) now)

/-- `if not pos: return`: an empty dictionary counts as missing. -/
def guarded (patch : Fields → Option Fields) (pos : Fields) : Option Fields :=
  if pos = ∅ then none else patch pos

/-- An operation on a position's key.  The whole-record write is the manager's: it takes
the record it read, modifies it and sets the full JSON. -/
inductive StoreOp where
  | updatePeak (price : ℚ) (now : Text)
  | updateSl (slOrderId : Text) (newSlPrice : Option ℚ) (now : Text)
  | updateCheckpoint (checkpoint now : Text)
  | updateFields (updates : Fields) (now : Text)
  | writeRecord (modify : Fields → Fields)
  | remove

/-- The operation on the key of a position of the given side. -/
def StoreOp.onCell (side : Side) : StoreOp → CellOp Fields
  | .updatePeak price now => .update (guarded (RecordUpdates.updatePeak side price now))
  | .updateSl slOrderId newSlPrice now =>
      .update (guarded (RecordUpdates.updateSl slOrderId newSlPrice now))
  | .updateCheckpoint checkpoint now =>
      .update (guarded (RecordUpdates.updateCheckpoint checkpoint now))
  | .updateFields updates now => .update (guarded (RecordUpdates.updateFields updates now))
  | .writeRecord modify => .update fun pos => some (modify pos)
  | .remove => .remove

/-- Two operations on the key. -/
def onKey (side : Side) (ops : Turn → StoreOp) (t : Turn) : CellOp Fields :=
  (ops t).onCell side

/-! ## Keeping both effects -/

/-- The record left behind has the effects of both operations, as after one of their
serial orders, and there is none after a removal. -/
structure UpdatesKept (side : Side) (ops : Turn → StoreOp) (record result : Option Fields) :
    Prop where
  serial : Race.Serial (onKey side ops) record result
  removed : (∃ t, ops t = .remove) → result = none

/-- Both effects are kept exactly in the lossless interleavings. -/
theorem updatesKept_iff (side : Side) (ops : Turn → StoreOp) (record : Option Fields)
    (i : Race.Interleaving (onKey side ops) record) :
    UpdatesKept side ops record i.result ↔ Race.Lossless (onKey side ops) record i.turns := by
  constructor
  · intro h
    exact (Race.serial_iff_lossless i).mp h.serial
  · intro h
    have hserial := (Race.serial_iff_lossless i).mpr h
    refine ⟨hserial, ?_⟩
    rintro ⟨t, hremove⟩
    exact hserial.eq_none ⟨t, by rw [onKey, hremove, StoreOp.onCell]⟩

/-! ## The health check against the monitoring loop -/

/-- A record without a stop. -/
def unstopped : Fields :=
  (Fields.put ∅ "peak_price" (.decimal 100)).put "current_sl" (.text [])

/-- The health check records a stop while the monitoring loop holds the record to write
a new peak. -/
def stopAgainstPeak : Turn → StoreOp
  | .first => .writeRecord (·.put "peak_price" (.decimal 110))
  | .second => .updateFields (Fields.put ∅ "current_sl" (.decimal 95)) []

/-- The loop reads, the health check reads and writes, the loop writes. -/
def stopLost : Race.Interleaving (onKey .LONG stopAgainstPeak) (some unstopped) where
  turns := [.first, .second, .second, .first]
  complete := by
    intro t
    cases t <;> rfl

/-- The exit loop removes the record that the monitoring loop holds. -/
def removeAgainstPeak : Turn → StoreOp
  | .first => .writeRecord (·.put "peak_price" (.decimal 110))
  | .second => .remove

/-- The loop reads, the record is removed, the loop writes. -/
def recordRevived : Race.Interleaving (onKey .LONG removeAgainstPeak) (some unstopped) where
  turns := [.first, .second, .first]
  complete := by
    intro t
    cases t <;> rfl

/-- The recorded stop is lost, and the removed record is back. -/
theorem updates_lost_and_revived :
    ¬ UpdatesKept .LONG stopAgainstPeak (some unstopped) stopLost.result ∧
      ¬ UpdatesKept .LONG removeAgainstPeak (some unstopped) recordRevived.result := by
  constructor
  · rintro ⟨⟨t, hserial⟩, -⟩
    revert hserial
    cases t <;> decide +kernel
  · rintro ⟨-, hremoved⟩
    have hnone := hremoved ⟨.second, rfl⟩
    cases hnone

end RecordUpdates
end Karsa
