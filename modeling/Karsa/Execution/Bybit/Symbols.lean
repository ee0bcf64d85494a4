import Karsa.Foundations.ControlFlow
import Karsa.Foundations.Decimal
import Karsa.Foundations.Text
import Mathlib.Data.Rat.Floor

/-!
# Bybit client - Instrument tables and symbol spellings

`BybitClient.connect` pages through the exchange's instrument list and fills
four dictionaries keyed by the unified symbol: the Bybit spelling, the lot step,
the minimum quantity and the price tick.  Bybit prefixes some tokens with a
multiplier (`1000PEPEUSDT`), which the unified symbol drops (`PEPE/USDT`).

Main results:

- Theorem `connect_symbolMap`: the symbol dictionary is the left fold of the
  instruments that were read.
- Theorem `symbolMapOf_eq_some_iff`: a unified symbol maps to the last listed
  instrument that strips to it.
-/

namespace Karsa
namespace Bybit

/-! ## Instruments as the exchange lists them -/

/-- One entry of `get_instruments_info`; filter texts may be missing. -/
structure Instrument where
  symbol : Text
  qtyStep : Option (Numeral ℚ)
  minOrderQty : Option (Numeral ℚ)
  tickSize : Option (Numeral ℚ)

/-- The client's dictionaries, keyed by the unified (ccxt) symbol. -/
structure InstrumentTables where
  symbolMap : Text → Option Text
  lotSizes : Text → Option ℚ
  minQty : Text → Option ℚ
  priceTicks : Text → Option ℚ

/-- The dictionaries of a new client. -/
def InstrumentTables.empty : InstrumentTables where
  symbolMap := fun _ => none
  lotSizes := fun _ => none
  minQty := fun _ => none
  priceTicks := fun _ => none

/-- The settlement suffix of linear USDT contracts. -/
def usdt : Text := "USDT".toList

/-- The unified symbol's separator and quote. -/
def slashUsdt : Text := "/USDT".toList

/-- The token left when leading multiplier digits are stripped from a base. -/
def stripMultiplier (base : Text) : Text :=
  base.dropWhile Char.isDigit

/-- Unified symbol under which an instrument is recorded, if it is recorded:
other settlement coins and purely numeric bases are skipped. -/
def ccxtSymbol (bybitSymbol : Text) : Option Text :=
  if usdt <:+ bybitSymbol then
    let token := stripMultiplier (bybitSymbol.dropRight usdt.length)
    if token = [] then none else some (token ++ slashUsdt)
  else none

/-- A decimal text with a default; `none` when the text raises. -/
def numeralOr (default : ℚ) (text : Option (Numeral ℚ)) : Option ℚ :=
  (text.getD (.value default)).decimal

/-- Body of the loop over one page: record one instrument.  The symbol is
written before the filters are parsed, so a malformed filter leaves it behind. -/
def loadInstrument (inst : Instrument) (t : InstrumentTables) : Flow InstrumentTables :=
  match ccxtSymbol inst.symbol with
  | none => .next t
  | some ccxt =>
      let t := { t with symbolMap := Function.update t.symbolMap ccxt (some inst.symbol) }
      match numeralOr 1 inst.qtyStep with
      | none => .raise t
      | some step =>
          let t := { t with lotSizes := Function.update t.lotSizes ccxt (some step) }
          match numeralOr 1 inst.minOrderQty with
          | none => .raise t
          | some least =>
              let t := { t with minQty := Function.update t.minQty ccxt (some least) }
              match numeralOr (1 / 100) inst.tickSize with
              | none => .raise t
              | some tick =>
                  .next { t with
                    priceTicks := Function.update t.priceTicks ccxt (some tick) }

/-- Answer to one `get_instruments_info` call. -/
inductive InstrumentReply where
  | raised
  | refused
  | page (list : List Instrument) (nextPage : Bool)

/-- `BybitClient.connect`: the paging loop under its `try`.  Whatever was
recorded before a failure stays recorded. -/
def connect : List InstrumentReply → InstrumentTables → InstrumentTables
  | .page list nextPage :: rest, t =>
      match Flow.blocks (list.map loadInstrument) t with
      | .next t' => if nextPage then connect rest t' else t'
      | .ret t' => t'
      | .raise t' => t'
  | .raised :: _, t => t
  | .refused :: _, t => t
  | [], t => t

/-- `BybitClient._to_bybit_symbol`. -/
def InstrumentTables.toBybitSymbol (t : InstrumentTables) (symbol : Text) : Text :=
  (t.symbolMap symbol).getD (symbol.without '/')

/-! ## The symbol dictionary as a fold -/

/-- Effect of one instrument on the symbol dictionary. -/
def recordSymbol (m : Text → Option Text) (bybitSymbol : Text) : Text → Option Text :=
  match ccxtSymbol bybitSymbol with
  | none => m
  | some ccxt => Function.update m ccxt (some bybitSymbol)

/-- Dictionary of a new client after a list of instruments. -/
def symbolMapOf (symbols : List Text) : Text → Option Text :=
  symbols.foldl recordSymbol (fun _ => none)

/-- Do the filters of an instrument parse? -/
def Instrument.wellFormed (inst : Instrument) : Bool :=
  (numeralOr 1 inst.qtyStep).isSome && (numeralOr 1 inst.minOrderQty).isSome &&
    (numeralOr (1 / 100) inst.tickSize).isSome

/-- Does reading this instrument keep the loop going?  A skipped instrument's
filters are never looked at. -/
def Instrument.continues (inst : Instrument) : Bool :=
  (ccxtSymbol inst.symbol).isNone || inst.wellFormed

/-- Symbols of one page up to and including the first one that raises. -/
def pageSymbols : List Instrument → List Text
  | [] => []
  | inst :: rest =>
      inst.symbol :: if inst.continues then pageSymbols rest else []

/-- Symbols of all instruments that `connect` processes. -/
def processedSymbols : List InstrumentReply → List Text
  | .page list nextPage :: rest =>
      pageSymbols list ++
        if list.all Instrument.continues && nextPage then processedSymbols rest else []
  | .raised :: _ => []
  | .refused :: _ => []
  | [] => []

/-- Recording an instrument changes the symbol dictionary by `recordSymbol` and
stops the loop exactly when a filter is malformed. -/
theorem loadInstrument_cases (inst : Instrument) (t : InstrumentTables) :
    (loadInstrument inst t).state.symbolMap = recordSymbol t.symbolMap inst.symbol ∧
      ((∃ t', loadInstrument inst t = .next t' ∧ inst.continues = true) ∨
        (∃ t', loadInstrument inst t = .raise t' ∧ inst.continues = false)) := by
  unfold loadInstrument recordSymbol Instrument.continues Instrument.wellFormed
  cases hccxt : ccxtSymbol inst.symbol with
  | none => simp
  | some ccxt =>
      cases hstep : numeralOr 1 inst.qtyStep with
      | none => simp
      | some step =>
          cases hleast : numeralOr 1 inst.minOrderQty with
          | none => simp
          | some least =>
              cases htick : numeralOr (1 / 100) inst.tickSize with
              | none => simp
              | some tick => simp

/-- One page: the dictionary is folded over the symbols read, and the loop goes
on exactly when no instrument raised. -/
theorem loadPage_cases (list : List Instrument) (t : InstrumentTables) :
    (Flow.blocks (list.map loadInstrument) t).state.symbolMap =
        (pageSymbols list).foldl recordSymbol t.symbolMap ∧
      ((∃ t', Flow.blocks (list.map loadInstrument) t = .next t' ∧
          list.all Instrument.continues = true) ∨
        (∃ t', Flow.blocks (list.map loadInstrument) t = .raise t' ∧
          list.all Instrument.continues = false)) := by
  induction list generalizing t with
  | nil => simp [pageSymbols]
  | cons inst rest ih =>
      rcases loadInstrument_cases inst t with ⟨hmap, hflow⟩
      rcases hflow with ⟨t', hload, hcont⟩ | ⟨t', hload, hcont⟩
      · rw [hload, Flow.state_next] at hmap
        rcases ih t' with ⟨hrest, hends⟩
        refine ⟨?_, ?_⟩
        · simpa [pageSymbols, hload, hcont, hmap] using hrest
        · simpa [hload, hcont] using hends
      · rw [hload, Flow.state_raise] at hmap
        exact ⟨by simp [pageSymbols, hload, hcont, hmap], by simp [hload, hcont]⟩

/-- The symbol dictionary after `connect` is the fold over what it processed. -/
theorem connect_symbolMap (replies : List InstrumentReply) (t : InstrumentTables) :
    (connect replies t).symbolMap =
      (processedSymbols replies).foldl recordSymbol t.symbolMap := by
  induction replies generalizing t with
  | nil => rfl
  | cons reply rest ih =>
      cases reply with
      | raised => rfl
      | refused => rfl
      | page list nextPage =>
          rcases loadPage_cases list t with ⟨hmap, hflow⟩
          rcases hflow with ⟨t', hload, hall⟩ | ⟨t', hload, hall⟩
          · rw [hload, Flow.state_next] at hmap
            cases nextPage with
            | false => simp [connect, processedSymbols, hload, hmap]
            | true => simp [connect, processedSymbols, hload, hall, ih t', hmap]
          · rw [hload, Flow.state_raise] at hmap
            simp [connect, processedSymbols, hload, hall, hmap]

/-- A place in a list that is given with its last item: that item, or one before it. -/
theorem append_singleton_eq_iff {α : Type} {list before after : List α} {last x : α} :
    list ++ [last] = before ++ x :: after ↔
      (after = [] ∧ list = before ∧ last = x) ∨
        ∃ init, after = init ++ [last] ∧ list = before ++ x :: init := by
  constructor
  · intro hsplit
    rcases List.eq_nil_or_concat after with rfl | ⟨init, final, rfl⟩
    · have hsame := List.append_inj' hsplit rfl
      exact Or.inl ⟨rfl, hsame.1, by simpa using hsame.2⟩
    · have hsplit' : list ++ [last] = (before ++ x :: init) ++ [final] := by simpa using hsplit
      have hsame := List.append_inj' hsplit' rfl
      have hfinal : last = final := by simpa using hsame.2
      exact Or.inr ⟨init, by rw [hfinal, List.concat_eq_append], hsame.1⟩
  · rintro (⟨rfl, rfl, rfl⟩ | ⟨init, rfl, rfl⟩)
    · rfl
    · simp

/-- A unified symbol maps to the last listed instrument that strips to it. -/
theorem symbolMapOf_eq_some_iff (symbols : List Text) (ccxt bybitSymbol : Text) :
    symbolMapOf symbols ccxt = some bybitSymbol ↔
      ∃ before after, symbols = before ++ bybitSymbol :: after ∧
        ccxtSymbol bybitSymbol = some ccxt ∧
        ∀ later ∈ after, ccxtSymbol later ≠ some ccxt := by
  induction symbols using List.reverseRecOn with
  | nil => simp [symbolMapOf]
  | append_singleton symbols last ih =>
      have hfold : symbolMapOf (symbols ++ [last]) =
          recordSymbol (symbolMapOf symbols) last := by
        simp [symbolMapOf]
      rw [hfold]
      by_cases hlast : ccxtSymbol last = some ccxt
      · have hmap : recordSymbol (symbolMapOf symbols) last ccxt = some last := by
          simp [recordSymbol, hlast]
        rw [hmap]
        constructor
        · intro heq
          obtain rfl := Option.some.inj heq
          exact ⟨symbols, [], rfl, hlast, by simp⟩
        · rintro ⟨before, after, hsplit, -, hafter⟩
          rcases append_singleton_eq_iff.mp hsplit with ⟨-, -, rfl⟩ | ⟨init, rfl, -⟩
          · rfl
          · exact absurd hlast (hafter last (by simp))
      · have hmap : recordSymbol (symbolMapOf symbols) last ccxt =
            symbolMapOf symbols ccxt := by
          unfold recordSymbol
          cases hccxt : ccxtSymbol last with
          | none => rfl
          | some other =>
              have hne : ccxt ≠ other := by
                intro heq
                exact hlast (heq ▸ hccxt)
              exact Function.update_of_ne hne _ _
        rw [hmap, ih]
        constructor
        · rintro ⟨before, after, rfl, hccxt, hafter⟩
          refine ⟨before, after ++ [last], by simp, hccxt, ?_⟩
          intro later hlater
          rcases List.mem_append.mp hlater with hmem | hmem
          · exact hafter later hmem
          · rw [List.mem_singleton.mp hmem]
            exact hlast
        · rintro ⟨before, after, hsplit, hccxt, hafter⟩
          rcases append_singleton_eq_iff.mp hsplit with ⟨-, -, rfl⟩ | ⟨init, rfl, hinit⟩
          · exact absurd hccxt hlast
          · refine ⟨before, init, hinit, hccxt, ?_⟩
            intro later hlater
            exact hafter later (by simp [hlater])

end Bybit
end Karsa
