import Karsa.Core.PositionRecord
import Mathlib.Data.List.TakeWhile

/-!
# Active position manager - Matching exchange positions with records

Records are keyed by the unified symbol, exchange positions carry Bybit's
spelling.  The manager converts between the two in two places: the orphan sync
slices four characters off Bybit's spelling, and the reconcile step compares both
spellings without their slash.  Neither knows the multiplier prefix that
`BybitClient.connect` strips.

Main results:

- Theorem `orphanSyncSymbol_eq_iff`, `sameInstrument_iff`: either conversion
  agrees with the symbol table exactly on instruments without a multiplier.
- Theorem `connect_identity_iff`: when all conversions agree for an instrument
  list.
-/

namespace Karsa
namespace Manager

open Bybit

/-! ## The two conversions -/

/-- `ep_sym[:-4] + "/" + ep_sym[-4:] if len(ep_sym) > 4 else ep_sym`. -/
def orphanSyncSymbol (bybitSymbol : Text) : Text :=
  if 4 < bybitSymbol.length then bybitSymbol.dropRight 4 ++ '/' :: bybitSymbol.takeRight 4
  else bybitSymbol

/-- The comparison of `_reconcile_position`. -/
def sameInstrument (symbol bybitSymbol : Text) : Bool :=
  bybitSymbol.without '/' = symbol.without '/'

/-- The exchange position that `_reconcile_position` finds for a record; a record
without one is purged as a phantom. -/
def findExchangePosition (positions : List ExchangePosition) (symbol : Text) (side : Side) :
    Option ExchangePosition :=
  positions.find? fun p => sameInstrument symbol p.symbol && Side.ofOrderSide p.side == side

/-- `ORPHAN_RE_ENTRY_GRACE_S`. -/
def orphanReEntryGrace : ℚ := 120

/-- Arguments of the `save` that adopts an orphan. -/
structure Adoption where
  symbol : Text
  side : Side
  entryPrice : ℚ
  amount : ℚ
deriving Repr, DecidableEq

/-- Body of the orphan sync for one exchange position: nothing for a key that
exists, a symbol force-closed recently (zero is never), or a tiny position. -/
def adoptOrphan (existing : List (Text × Side)) (forceClosedAt : Text → ℚ) (now : ℚ)
    (ep : ExchangePosition) : Option Adoption :=
  let symbol := orphanSyncSymbol ep.symbol
  let side := Side.ofOrderSide ep.side
  if (symbol, side) ∈ existing then none
  else if 0 < forceClosedAt symbol ∧ now - forceClosedAt symbol < orphanReEntryGrace then none
  else if ep.entryPrice * ep.contracts < 5 then none
  else if 0 < ep.entryPrice ∧ 0 < ep.contracts then
    some ⟨symbol, side, ep.entryPrice, ep.contracts⟩
  else none

/-! ## Parts of a listed symbol -/

/-- Bybit's spelling of a recorded instrument: multiplier digits, a token that
does not start with a digit, and the quote. -/
theorem ccxtSymbol_eq_some {bybitSymbol symbol : Text}
    (h : ccxtSymbol bybitSymbol = some symbol) :
    ∃ digits token, bybitSymbol = digits ++ token ++ usdt ∧ symbol = token ++ slashUsdt ∧
      (∀ c ∈ digits, c.isDigit = true) ∧ ∃ c rest, token = c :: rest ∧ c.isDigit = false := by
  unfold ccxtSymbol at h
  by_cases hquote : usdt <:+ bybitSymbol
  · rcases hquote with ⟨base, rfl⟩
    simp only [List.suffix_append, if_true, Text.dropRight_append] at h
    by_cases hempty : stripMultiplier base = []
    · simp [hempty] at h
    · rw [if_neg hempty] at h
      refine ⟨base.takeWhile Char.isDigit, stripMultiplier base, ?_, ?_, ?_, ?_⟩
      · rw [stripMultiplier, List.takeWhile_append_dropWhile]
      · simpa using h.symm
      · intro c hc
        exact List.mem_takeWhile_imp hc
      · exact ⟨_, _, (List.cons_head_tail hempty).symm,
          List.head_dropWhile_not Char.isDigit hempty⟩
  · simp [hquote] at h

/-- Removing the slash from a text of digits removes nothing. -/
theorem without_slash_digits {digits : Text} (h : ∀ c ∈ digits, c.isDigit = true) :
    digits.without '/' = digits := by
  apply List.filter_eq_self.mpr
  intro c hc
  have hne : c ≠ '/' := by
    rintro rfl
    exact absurd (h '/' hc) (by decide)
  simpa using hne

/-! ## Agreement with the symbol table -/

/-- The listed symbol starts with a multiplier. -/
def hasMultiplier (bybitSymbol : Text) : Bool :=
  bybitSymbol.head?.any Char.isDigit

/-- An instrument has no multiplier exactly when its digits part is empty. -/
theorem hasMultiplier_eq_false_iff {digits token : Text}
    (hdigits : ∀ c ∈ digits, c.isDigit = true)
    (htoken : ∃ c rest, token = c :: rest ∧ c.isDigit = false) :
    hasMultiplier (digits ++ token ++ usdt) = false ↔ digits = [] := by
  cases digits with
  | nil =>
      rcases htoken with ⟨c, rest, rfl, hc⟩
      simp [hasMultiplier, hc]
  | cons d rest =>
      have hd : d.isDigit = true := hdigits d (by simp)
      simp [hasMultiplier, hd]

/-- The orphan sync recovers the unified symbol exactly when there is no
multiplier. -/
theorem orphanSyncSymbol_eq_iff {bybitSymbol symbol : Text}
    (h : ccxtSymbol bybitSymbol = some symbol) :
    orphanSyncSymbol bybitSymbol = symbol ↔ hasMultiplier bybitSymbol = false := by
  rcases ccxtSymbol_eq_some h with ⟨digits, token, rfl, rfl, hdigits, htoken⟩
  have hlong : 4 < (digits ++ token ++ usdt).length := by
    rcases htoken with ⟨c, rest, rfl, -⟩
    simp only [List.length_append, List.length_cons, show usdt.length = 4 from rfl]
    omega
  have hslice : orphanSyncSymbol (digits ++ token ++ usdt) = digits ++ (token ++ slashUsdt) := by
    have hdrop := Text.dropRight_append (digits ++ token) usdt
    have htake := Text.takeRight_append (digits ++ token) usdt
    have hslash : slashUsdt = '/' :: usdt := rfl
    rw [orphanSyncSymbol, if_pos hlong, show (4 : Nat) = usdt.length from rfl, hdrop, htake,
      hslash, List.append_assoc]
  rw [hasMultiplier_eq_false_iff hdigits htoken, hslice]
  constructor
  · exact Text.eq_nil_of_append_eq
  · rintro rfl
    rfl

/-- The reconcile step recognizes the instrument exactly when there is no
multiplier. -/
theorem sameInstrument_iff {bybitSymbol symbol : Text}
    (h : ccxtSymbol bybitSymbol = some symbol) :
    sameInstrument symbol bybitSymbol = true ↔ hasMultiplier bybitSymbol = false := by
  rcases ccxtSymbol_eq_some h with ⟨digits, token, rfl, rfl, hdigits, htoken⟩
  have hquote : Text.without '/' slashUsdt = Text.without '/' usdt := by decide
  rw [hasMultiplier_eq_false_iff hdigits htoken, sameInstrument, decide_eq_true_eq,
    List.append_assoc, Text.without_append, Text.without_append, Text.without_append, hquote,
    without_slash_digits hdigits]
  constructor
  · exact Text.eq_nil_of_append_eq
  · rintro rfl
    rfl

/-- Positions of one instrument are identified everywhere alike: the symbol table
is injective, and for each of its entries both conversions agree, an open
position is found again, and a recorded one is not adopted anew. -/
structure IdentityAgrees (t : InstrumentTables) : Prop where
  injective : ∀ s s' b, t.symbolMap s = some b → t.symbolMap s' = some b → s = s'
  orphan : ∀ s b, t.symbolMap s = some b → orphanSyncSymbol (t.toBybitSymbol s) = s
  same : ∀ s b, t.symbolMap s = some b → sameInstrument s (t.toBybitSymbol s) = true
  notPhantom : ∀ s b, t.symbolMap s = some b →
    ∀ positions p, p ∈ positions → p.symbol = t.toBybitSymbol s →
      (findExchangePosition positions s (Side.ofOrderSide p.side)).isSome = true
  notAdopted : ∀ s b, t.symbolMap s = some b →
    ∀ existing forceClosedAt now p, p.symbol = t.toBybitSymbol s →
      (s, Side.ofOrderSide p.side) ∈ existing →
        adoptOrphan existing forceClosedAt now p = none

/-- Every instrument that the table of the list maps to is listed without a
multiplier. -/
def NoMappedMultiplier (symbols : List Text) : Prop :=
  ∀ before b after s, symbols = before ++ b :: after → ccxtSymbol b = some s →
    (∀ later ∈ after, ccxtSymbol later ≠ some s) → hasMultiplier b = false

/-- What the symbol table of a connected client maps: the last listed instrument that strips to
the symbol. -/
theorem connect_symbolMap_iff (replies : List InstrumentReply) (s b : Text) :
    (connect replies .empty).symbolMap s = some b ↔
      ∃ before after, processedSymbols replies = before ++ b :: after ∧
        ccxtSymbol b = some s ∧ ∀ later ∈ after, ccxtSymbol later ≠ some s := by
  have hmap : (connect replies .empty).symbolMap = symbolMapOf (processedSymbols replies) :=
    connect_symbolMap replies .empty
  rw [hmap]
  exact symbolMapOf_eq_some_iff _ s b

/-- The client spells a mapped symbol as its instrument, which strips to the symbol. -/
theorem connect_spelling {replies : List InstrumentReply} {s b : Text}
    (hb : (connect replies .empty).symbolMap s = some b) :
    (connect replies .empty).toBybitSymbol s = b ∧ ccxtSymbol b = some s := by
  rcases (connect_symbolMap_iff replies s b).mp hb with ⟨-, -, -, hccxt, -⟩
  exact ⟨by simp [InstrumentTables.toBybitSymbol, hb], hccxt⟩

/-- Where no mapped instrument has a multiplier, positions are identified alike everywhere. -/
theorem identityAgrees_of_plain {replies : List InstrumentReply}
    (hfree : ∀ s b, (connect replies .empty).symbolMap s = some b → hasMultiplier b = false) :
    IdentityAgrees (connect replies .empty) := by
  constructor
  · intro s s' b hs hs'
    have hccxt := (connect_spelling hs).2
    rw [(connect_spelling hs').2] at hccxt
    simpa using hccxt.symm
  · intro s b hb
    rcases connect_spelling hb with ⟨hto, hccxt⟩
    rw [hto]
    exact (orphanSyncSymbol_eq_iff hccxt).mpr (hfree s b hb)
  · intro s b hb
    rcases connect_spelling hb with ⟨hto, hccxt⟩
    rw [hto]
    exact (sameInstrument_iff hccxt).mpr (hfree s b hb)
  · intro s b hb positions p hp hsymbol
    rcases connect_spelling hb with ⟨hto, hccxt⟩
    have hsame := (sameInstrument_iff hccxt).mpr (hfree s b hb)
    rw [findExchangePosition, List.find?_isSome]
    refine ⟨p, hp, ?_⟩
    rw [hsymbol, hto, hsame]
    simp
  · intro s b hb existing forceClosedAt now p hsymbol hmem
    rcases connect_spelling hb with ⟨hto, hccxt⟩
    have horphan := (orphanSyncSymbol_eq_iff hccxt).mpr (hfree s b hb)
    unfold adoptOrphan
    rw [hsymbol, hto, horphan]
    simp [hmem]

/-- For every instrument list, positions are identified alike everywhere exactly
when no instrument of the symbol table has a multiplier. -/
theorem connect_identity_iff (replies : List InstrumentReply) :
    IdentityAgrees (connect replies .empty) ↔
      NoMappedMultiplier (processedSymbols replies) := by
  constructor
  · intro hagrees before b after s hsplit hccxt hafter
    have hb := (connect_symbolMap_iff replies s b).mpr ⟨before, after, hsplit, hccxt, hafter⟩
    have hsame := hagrees.same s b hb
    rw [(connect_spelling hb).1] at hsame
    exact (sameInstrument_iff hccxt).mp hsame
  · intro hplain
    apply identityAgrees_of_plain
    intro s b hb
    rcases (connect_symbolMap_iff replies s b).mp hb with ⟨before, after, hsplit, hccxt, hafter⟩
    exact hplain before b after s hsplit hccxt hafter

/-- A listed instrument with sane filters. -/
def listed (symbol : String) : Instrument where
  symbol := symbol.toList
  qtyStep := some (.value 1)
  minOrderQty := some (.value 1)
  tickSize := some (.value (1 / 100))

/-- One page with `1000PEPEUSDT` breaks the identity of its positions. -/
theorem connect_identity_fails_on_multiplier :
    ¬ IdentityAgrees (connect [.page [listed "1000PEPEUSDT"] false] .empty) := by
  intro hagrees
  have hsame := hagrees.same "PEPE/USDT".toList "1000PEPEUSDT".toList (by decide +kernel)
  exact absurd hsame (by decide +kernel)

end Manager
end Karsa
