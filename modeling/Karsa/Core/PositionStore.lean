import Karsa.Core.PositionRecord
import Mathlib.Data.List.AList

/-!
# Position store

`PositionStore` keeps one record per symbol and canonical side.  Every call
takes a side word and normalizes it first.  Redis is modelled by an association
list without repeated keys; a key whose text cannot be decoded counts as absent,
as it does for `get`.

Main results:

- Theorem `PositionStore.get_save`: a saved record is the one read back.
- Theorem `PositionStore.get_eq_none`: no side has a record where `has_position`
  finds none.
-/

namespace Karsa

/-- Key `karsa:position:{symbol}:{side}` with its record. -/
abbrev PositionStore := AList fun _ : Text × Side => PositionRecord

namespace PositionStore

/-- `_key`: the side is always canonical. -/
def key (symbol side : Text) : Text × Side :=
  (symbol, normalizeSide side)

/-- `PositionStore.get`. -/
def get (store : PositionStore) (symbol side : Text) : Option PositionRecord :=
  store.lookup (key symbol side)

/-- `PositionStore.save`, which overwrites what the key held. -/
def save (store : PositionStore) (symbol side : Text) (entryPrice amount : ℚ)
    (atr : Option ℚ) (regime entryRegime : Option Text) (initialRiskPerUnit now : ℚ) :
    PositionStore :=
  store.insert (key symbol side)
    (.opened symbol (normalizeSide side) entryPrice amount atr regime entryRegime
      initialRiskPerUnit now)

/-- `PositionStore.has_position` without a side. -/
def hasPosition (store : PositionStore) (symbol : Text) : Bool :=
  (store.get symbol Side.LONG.word).isSome || (store.get symbol Side.SHORT.word).isSome

/-- `PositionStore.list_all`. -/
def listAll (store : PositionStore) : List PositionRecord :=
  store.entries.map Sigma.snd

/-- A saved record is the one read back, under every spelling of its side. -/
@[simp] theorem get_save (store : PositionStore) (symbol side : Text)
    (entryPrice amount : ℚ) (atr : Option ℚ) (regime entryRegime : Option Text)
    (initialRiskPerUnit now : ℚ) :
    (store.save symbol side entryPrice amount atr regime entryRegime initialRiskPerUnit
      now).get symbol side =
      some (.opened symbol (normalizeSide side) entryPrice amount atr regime entryRegime
        initialRiskPerUnit now) :=
  AList.lookup_insert store

/-- A canonical side word stands for its side. -/
theorem get_word (store : PositionStore) (symbol : Text) (side : Side) :
    store.get symbol side.word = store.lookup (symbol, side) := by
  rw [get, key, normalizeSide_word]

/-- Where `has_position` finds nothing, neither side has a record. -/
theorem get_eq_none {store : PositionStore} {symbol : Text}
    (hfree : store.hasPosition symbol = false) (side : Text) :
    store.get symbol side = none := by
  simp only [hasPosition, get_word, Bool.or_eq_false_iff, Option.isSome_eq_false_iff,
    Option.isNone_iff_eq_none] at hfree
  rcases hfree with ⟨hlong, hshort⟩
  unfold get key
  cases normalizeSide side with
  | LONG => exact hlong
  | SHORT => exact hshort

end PositionStore
end Karsa
