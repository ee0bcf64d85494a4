import Karsa.Core.PositionRecord
import Karsa.Foundations.AverageCost
import Karsa.Foundations.Dicts
import Karsa.Foundations.Runs

/-!
# State manager - The position ledger

`StateManager` keeps one position per symbol.  `update_position` books a fill,
`close_position` takes the position out and returns its profit, and `reconcile` replaces the
ledger by what the exchange reports.  Fills speak of `LONG` and `SHORT`, the exchange's
records of `buy` and `sell`.

The true positions are those of the same fills, loads and closings at average cost.  A symbol
is the text it is filed under; the times of the records and their copies in Redis are left out.

Main results:

- Theorem `get_reconcile`: a reconciliation leaves the exchange's last record of each symbol.
- Theorem `sameSide_fills`: fills of one direction add up at their mean price.
- Theorem `ledger_faithful_iff`: the runs in which the ledger agrees with the true positions
  and every closing returns the true profit.
-/

namespace Karsa
namespace StateManager

open AverageCost Bybit

/-! ## The ledger -/

/-- A side word of either vocabulary. -/
inductive SideWord where
  | signal (side : Side)
  | exchange (side : OrderSide)
deriving Repr, DecidableEq

namespace SideWord

/-- The word itself. -/
def word : SideWord → Text
  | signal side => side.word
  | exchange side => side.word

/-- What the word means. -/
def direction : SideWord → Direction
  | signal .LONG | exchange .buy => .long
  | signal .SHORT | exchange .sell => .short

/-- One of the two words for a long position is `LONG`. -/
theorem word_eq_LONG_iff (side : SideWord) :
    side.word = "LONG".toList ↔ side = signal .LONG := by
  cases side with
  | signal side => cases side <;> decide
  | exchange side => cases side <;> decide

end SideWord

/-- `Position`. -/
structure Position where
  symbol : Text
  side : SideWord
  size : ℚ
  entryPrice : ℚ
deriving Repr, DecidableEq

/-- The fields of `StateManager`. -/
structure State where
  positions : Dict Text Position
  openOrders : Dict Text OpenOrder
  reconciled : Bool

/-- `StateManager.__init__`. -/
def init : State :=
  ⟨[], [], false⟩

/-- `update_position`. -/
def updatePosition (symbol : Text) (side : SideWord) (size price : ℚ) (s : State) : State :=
  match s.positions.get symbol with
  | some pos =>
      let totalSize := pos.size + size
      let entryPrice :=
        if 0 < totalSize then (pos.entryPrice * pos.size + price * size) / totalSize
        else pos.entryPrice
      let updated := { pos with entryPrice := entryPrice, size := totalSize, side := side }
      { s with positions := s.positions.set symbol updated }
  | none => { s with positions := s.positions.set symbol ⟨symbol, side, size, price⟩ }

/-- What closing a position returns. -/
def Position.pnl (pos : Position) (price : ℚ) : ℚ :=
  if pos.side.word = "LONG".toList then (price - pos.entryPrice) * pos.size
  else (pos.entryPrice - price) * pos.size

/-- `close_position`. -/
def closePosition (symbol : Text) (price : ℚ) (s : State) : Option ℚ × State :=
  match s.positions.get symbol with
  | none => (none, s)
  | some pos => (some (pos.pnl price), { s with positions := s.positions.pop symbol })

/-! ## Reconciliation -/

/-- What the outside answers: the exchange's lists, or none where a fetch raises, and whether
Redis takes the positions. -/
structure Answers where
  fetched : Option (List RawPosition × List RawOrder)
  cached : Bool

/-- `Position(symbol=symbol, side=pos_data["side"], ...)`. -/
def ofRecord (p : ExchangePosition) : Position :=
  ⟨p.symbol, .exchange p.side, p.contracts, p.entryPrice⟩

/-- `exchange_pos_map`. -/
def exchangePosMap (records : List ExchangePosition) : Dict Text ExchangePosition :=
  Dict.index (records.map fun p => (p.symbol, p))

/-- The orders to cancel: those the ledger does not know. -/
def orphanedOrders (orders : List OpenOrder) (s : State) : List OpenOrder :=
  orders.filter fun o => decide (o.id ∉ s.openOrders.keys)

/-- The positions without the ghosts. -/
def withoutGhosts (exchange : Dict Text ExchangePosition) (positions : Dict Text Position) :
    Dict Text Position :=
  positions.restrict fun symbol => decide (symbol ∈ exchange.keys)

/-- The positions after the sync from the exchange. -/
def synced (exchange : Dict Text ExchangePosition) (positions : Dict Text Position) :
    Dict Text Position :=
  (exchange.map fun item => (item.1, ofRecord item.2)).foldl
    (fun d item => d.set item.1 item.2) (withoutGhosts exchange positions)

/-- What `reconcile` does; no answer is an exception. -/
structure Reconciliation where
  answer : Option Bool
  cancelled : List OpenOrder
  state : State

/-- `reconcile`. -/
def reconcile (answers : Answers) (s : State) : Reconciliation :=
  match answers.fetched with
  | none => ⟨some false, [], s⟩
  | some (list, orderList) =>
      let exchange := exchangePosMap (fetchPositions list)
      let orders := fetchOpenOrders orderList
      let synced :=
        { s with
          positions := synced exchange s.positions
          openOrders := Dict.index (orders.map fun o => (o.id, o)) }
      if answers.cached || synced.positions.isEmpty then
        ⟨some true, orphanedOrders orders s, { synced with reconciled := true }⟩
      else ⟨none, orphanedOrders orders s, synced⟩

/-- The exchange's last record of a symbol. -/
def lastRecord (records : List ExchangePosition) (symbol : Text) : Option ExchangePosition :=
  (records.filter fun p => decide (p.symbol = symbol)).getLast?

/-- The index of the records holds the last one of each symbol. -/
theorem get_exchangePosMap (records : List ExchangePosition) (symbol : Text) :
    (exchangePosMap records).get symbol = lastRecord records symbol := by
  rw [exchangePosMap, Dict.get_index, List.filter_map, List.getLast?_map, Option.map_map]
  exact congrFun Option.map_id _

/-- Lookups in a dictionary whose values are rewritten. -/
theorem get_map_snd {α β : Type} (f : α → β) (d : Dict Text α) (key : Text) :
    Dict.get key (d.map fun item => (item.1, f item.2)) = (d.get key).map f := by
  induction d with
  | nil => rfl
  | cons item rest ih =>
      rw [List.map_cons, Dict.get, Dict.get, ih]
      split_ifs <;> rfl

/-- After a reconciliation the ledger holds the exchange's last record of each symbol. -/
theorem get_reconcile {list : List RawPosition} {orders : List RawOrder} (cached : Bool)
    (s : State) (symbol : Text) :
    (reconcile ⟨some (list, orders), cached⟩ s).state.positions.get symbol =
      (lastRecord (fetchPositions list) symbol).map ofRecord := by
  have hsynced : (synced (exchangePosMap (fetchPositions list)) s.positions).get symbol =
      (lastRecord (fetchPositions list) symbol).map ofRecord := by
    have hkeys : Dict.keys ((exchangePosMap (fetchPositions list)).map
        fun item => (item.1, ofRecord item.2)) = (exchangePosMap (fetchPositions list)).keys := by
      rw [Dict.keys, List.map_map]
      rfl
    have hnodup := Dict.nodup_keys_index ((fetchPositions list).map fun p => (p.symbol, p))
    rw [synced, Dict.get_foldl_of_nodup (hkeys ▸ hnodup), get_map_snd, get_exchangePosMap]
    cases hlast : lastRecord (fetchPositions list) symbol with
    | some p => rfl
    | none =>
        -- A symbol without a record has lost its entry as a ghost.
        have hghost : (withoutGhosts (exchangePosMap (fetchPositions list)) s.positions).get symbol
            = none := by
          cases hget : (withoutGhosts (exchangePosMap (fetchPositions list)) s.positions).get
              symbol with
          | none => rfl
          | some pos =>
              have hkey := Dict.mem_keys_of_get hget
              rw [withoutGhosts, Dict.keys_restrict, List.mem_filter, decide_eq_true_eq] at hkey
              rcases Dict.exists_get_of_mem_keys hkey.2 with ⟨p, hp⟩
              rw [get_exchangePosMap, hlast] at hp
              cases hp
        exact hghost
  unfold reconcile
  dsimp only
  split_ifs <;> exact hsynced

/-! ## The true positions -/

/-- The position an exchange record speaks of. -/
def trueHolding (p : ExchangePosition) : Option (Holding ℚ) :=
  if h : 0 < p.contracts then
    some ⟨(SideWord.exchange p.side).direction, p.contracts, p.contracts * p.entryPrice, h⟩
  else none

/-- A fill, a closing or a load. -/
inductive Event where
  | fill (symbol : Text) (side : SideWord) (lot : Lot ℚ)
  | close (symbol : Text) (price : ℚ)
  | reconcile (answers : Answers)

/-- The ledger beside the true positions, with what every closing returned and what it
truly earned. -/
structure World where
  state : State
  truth : Text → Option (Holding ℚ)
  closings : List (Option ℚ × Option ℚ)

/-- A new ledger, with nothing open. -/
def start : World :=
  ⟨init, fun _ => none, []⟩

/-- An event reaches the ledger and the true positions. -/
def step (w : World) : Event → World
  | .fill symbol side lot =>
      { w with
        state := updatePosition symbol side lot.size lot.price w.state
        truth := Function.update w.truth symbol (trade side.direction lot (w.truth symbol)) }
  | .close symbol price =>
      let earned := (w.truth symbol).map fun h => h.profit price
      { state := (closePosition symbol price w.state).2
        truth := Function.update w.truth symbol none
        closings := w.closings ++ [((closePosition symbol price w.state).1, earned)] }
  | .reconcile answers =>
      { w with
        state := (reconcile answers w.state).state
        truth := match answers.fetched with
          | none => w.truth
          | some (list, _) =>
              fun symbol => (lastRecord (fetchPositions list) symbol).bind trueHolding }

/-- Direction, size and entry price of a ledger entry. -/
def Position.view (pos : Position) : Direction × ℚ × ℚ :=
  (pos.side.direction, pos.size, pos.entryPrice)

/-- Direction, size and entry price of a true position. -/
def holdingView (h : Holding ℚ) : Direction × ℚ × ℚ :=
  (h.direction, h.size, h.entry)

/-- An entry stands for a true position, none for none. -/
def Agrees (pos : Option Position) (h : Option (Holding ℚ)) : Prop :=
  pos.map Position.view = h.map holdingView

/-- Every entry agrees with the true position, and every closing returned what it earned. -/
structure Faithful (w : World) : Prop where
  agrees : ∀ symbol, Agrees (w.state.positions.get symbol) (w.truth symbol)
  closings : ∀ closing ∈ w.closings, closing.1 = closing.2

/-- No fill is against the position it reaches, and a long position is closed under the word
`LONG` or at its entry price. -/
def Kept (w : World) : Event → Prop
  | .fill symbol side _ => ∀ h, w.truth symbol = some h → h.direction = side.direction
  | .close symbol price =>
      ∀ pos, w.state.positions.get symbol = some pos →
        pos.side.direction = .long → pos.side = .signal .LONG ∨ price = pos.entryPrice
  | .reconcile _ => True

/-! ## One event -/

/-- The entry after a fill. -/
def Position.filled (pos : Option Position) (symbol : Text) (side : SideWord) (lot : Lot ℚ) :
    Position :=
  match pos with
  | none => ⟨symbol, side, lot.size, lot.price⟩
  | some pos =>
      let totalSize := pos.size + lot.size
      let entryPrice :=
        if 0 < totalSize then (pos.entryPrice * pos.size + lot.price * lot.size) / totalSize
        else pos.entryPrice
      { pos with entryPrice := entryPrice, size := totalSize, side := side }

/-- A fill assigns the entry of its symbol. -/
theorem positions_updatePosition (symbol : Text) (side : SideWord) (lot : Lot ℚ) (s : State) :
    (updatePosition symbol side lot.size lot.price s).positions =
      s.positions.set symbol (Position.filled (s.positions.get symbol) symbol side lot) := by
  unfold updatePosition Position.filled
  cases s.positions.get symbol <;> rfl

/-- A fill keeps an entry right exactly if it is not against the position. -/
theorem agrees_filled_iff {pos : Option Position} {h : Option (Holding ℚ)} (hagrees : Agrees pos h)
    (symbol : Text) (side : SideWord) (lot : Lot ℚ) :
    Agrees (some (Position.filled pos symbol side lot)) (trade side.direction lot h) ↔
      ∀ held, h = some held → held.direction = side.direction := by
  cases h with
  | none =>
      cases pos with
      | none => simp [Agrees, Position.filled, trade, Position.view, holdingView, Holding.ofLot,
          Holding.entry, lot.size_pos.ne']
      | some pos => cases hagrees
  | some held =>
      cases pos with
      | none => cases hagrees
      | some pos =>
          simp only [Agrees, Option.map_some, Option.some.injEq, Position.view, holdingView,
            Prod.mk.injEq] at hagrees
          rcases hagrees with ⟨hdirection, hsize, hentry⟩
          have hheld : 0 < held.size := held.size_pos
          have hlot : 0 < lot.size := lot.size_pos
          have htotal : 0 < pos.size + lot.size := by
            rw [hsize]
            exact add_pos hheld hlot
          constructor
          · intro hnext other hother
            rw [← Option.some.inj hother]
            by_contra hagainst
            cases htrade : trade side.direction lot (some held) with
            | none =>
                rw [htrade] at hnext
                cases hnext
            | some left =>
                have hless := trade_against hagainst htrade
                rw [htrade] at hnext
                simp only [Agrees, Option.map_some, Option.some.injEq, Position.view, holdingView,
                  Prod.mk.injEq, Position.filled] at hnext
                rw [← hnext.2.1, hsize] at hless
                exact lt_irrefl _ hless
          · intro hsame
            rw [trade, if_pos (hsame held rfl)]
            have hmean : (pos.entryPrice * pos.size + lot.price * lot.size) /
                (pos.size + lot.size) = (held.add lot).entry := by
              rw [hsize, hentry, held.entry_mul_size, mul_comm lot.price]
              rfl
            simp only [Agrees, Option.map_some, Position.view, holdingView, Position.filled,
              if_pos htotal, hmean]
            rw [hsize, ← hsame held rfl]
            rfl

/-- Closing returns what the position earned exactly under the word `LONG` for a long position,
or at its entry price. -/
theorem pnl_eq_iff {pos : Position} {h : Holding ℚ} (hagrees : Agrees (some pos) (some h))
    (price : ℚ) :
    pos.pnl price = h.profit price ↔
      (pos.side.direction = .long → pos.side = .signal .LONG ∨ price = pos.entryPrice) := by
  simp only [Agrees, Option.map_some, Option.some.injEq, Position.view, holdingView,
    Prod.mk.injEq] at hagrees
  rcases hagrees with ⟨hdirection, hsize, hentry⟩
  have hpos : 0 < h.size := h.size_pos
  unfold Position.pnl Holding.profit
  rw [← hdirection, ← hsize, ← hentry]
  rw [← hsize] at hpos
  simp only [SideWord.word_eq_LONG_iff]
  cases hside : pos.side.direction with
  | short =>
      have hword : pos.side ≠ .signal .LONG := by
        intro hLONG
        rw [hLONG] at hside
        cases hside
      simp [hword]
  | long =>
      by_cases hword : pos.side = .signal .LONG
      · simp [hword]
      · simp only [hword, if_false, false_or, forall_true_left]
        constructor
        · intro heq
          have hzero : (price - pos.entryPrice) * pos.size = 0 := by linarith
          rcases mul_eq_zero.mp hzero with hprice | hnone
          · linarith
          · exact absurd hnone hpos.ne'
        · rintro rfl
          ring

/-- A loaded record agrees with the position it speaks of. -/
theorem agrees_load (list : List RawPosition) (symbol : Text) :
    Agrees ((lastRecord (fetchPositions list) symbol).map ofRecord)
      ((lastRecord (fetchPositions list) symbol).bind trueHolding) := by
  cases hlast : lastRecord (fetchPositions list) symbol with
  | none => rfl
  | some p =>
      have hmem : p ∈ fetchPositions list :=
        List.mem_of_mem_filter (List.mem_of_getLast? hlast)
      have hsize : 0 < p.contracts := contracts_pos_of_mem hmem
      simp [Agrees, trueHolding, hsize, ofRecord, Position.view, holdingView, Holding.entry,
        hsize.ne']

/-- A close returns what the true position earned exactly under its condition. -/
theorem closing_eq_iff {w : World} (hw : Faithful w) (symbol : Text) (price : ℚ) :
    (closePosition symbol price w.state).1 = (w.truth symbol).map (fun h => h.profit price) ↔
      Kept w (.close symbol price) := by
  have hagrees := hw.agrees symbol
  unfold closePosition Kept
  cases hget : w.state.positions.get symbol with
  | none =>
      rw [hget] at hagrees
      cases htruth : w.truth symbol with
      | none => simp [hget]
      | some h =>
          rw [htruth] at hagrees
          cases hagrees
  | some pos =>
      rw [hget] at hagrees
      cases htruth : w.truth symbol with
      | none =>
          rw [htruth] at hagrees
          cases hagrees
      | some h =>
          rw [htruth] at hagrees
          have hkept : (∀ other, w.state.positions.get symbol = some other →
              other.side.direction = .long →
                other.side = .signal .LONG ∨ price = other.entryPrice) ↔
              (pos.side.direction = .long →
                pos.side = .signal .LONG ∨ price = pos.entryPrice) := by
            rw [hget]
            exact ⟨fun h => h pos rfl, fun h other hother => Option.some.inj hother ▸ h⟩
          exact Option.some_inj.trans ((pnl_eq_iff hagrees price).trans hkept.symm)

/-- It leaves nothing of the position on either side, and all others as they are. -/
theorem agrees_closed {w : World} (hw : Faithful w) (symbol : Text) (price : ℚ) (other : Text) :
    Agrees ((step w (.close symbol price)).state.positions.get other)
      ((step w (.close symbol price)).truth other) := by
  have hagrees := hw.agrees other
  unfold step closePosition
  dsimp only
  by_cases hother : other = symbol
  · rw [hother] at hagrees ⊢
    rw [Function.update_self]
    cases hget : w.state.positions.get symbol with
    | none =>
        dsimp only
        rw [hget]
        rfl
    | some pos =>
        dsimp only
        rw [Dict.get_pop_self]
        rfl
  · rw [Function.update_of_ne hother]
    cases hget : w.state.positions.get symbol with
    | none => exact hagrees
    | some pos =>
        dsimp only
        rw [Dict.get_pop_of_ne hother]
        exact hagrees

/-- An event keeps the ledger right exactly under its condition. -/
theorem faithful_step_iff {w : World} (e : Event) (hw : Faithful w) :
    Faithful (step w e) ↔ Kept w e := by
  cases e with
  | fill symbol side lot =>
      have hiff := agrees_filled_iff (hw.agrees symbol) symbol side lot
      constructor
      · intro hnext
        have hsymbol := hnext.agrees symbol
        dsimp only [step] at hsymbol
        rw [positions_updatePosition, Dict.get_set_self, Function.update_self] at hsymbol
        exact hiff.mp hsymbol
      · intro hkept
        refine ⟨fun other => ?_, hw.closings⟩
        dsimp only [step]
        rw [positions_updatePosition]
        by_cases hother : other = symbol
        · rw [hother, Dict.get_set_self, Function.update_self]
          exact hiff.mpr hkept
        · rw [Dict.get_set_of_ne hother, Function.update_of_ne hother]
          exact hw.agrees other
  | close symbol price =>
      constructor
      · intro hnext
        exact (closing_eq_iff hw symbol price).mp
          (hnext.closings _ (List.mem_append_right _ List.mem_cons_self))
      · intro hkept
        refine ⟨agrees_closed hw symbol price, fun closing hclosing => ?_⟩
        rcases List.mem_append.mp hclosing with hold | hnew
        · exact hw.closings closing hold
        · rw [List.mem_singleton.mp hnew]
          exact (closing_eq_iff hw symbol price).mpr hkept
  | reconcile answers =>
      refine iff_of_true ⟨fun symbol => ?_, hw.closings⟩ trivial
      rcases answers with ⟨fetched, cached⟩
      cases fetched with
      | none => exact hw.agrees symbol
      | some lists =>
          rw [step, get_reconcile]
          exact agrees_load lists.1 symbol

/-! ## Runs -/

/-- Every entry agrees with the true position and every closing returns what it earned exactly
in the runs without fills against a position, in which long positions are closed under the word
`LONG` or at their entry price. -/
theorem ledger_faithful_iff (events : List Event) :
    (∀ n, Faithful (run step start (events.take n))) ↔ Admits step Kept start events :=
  invariant_iff_admits (fun _ e hw => faithful_step_iff e hw) ⟨fun _ => rfl, by simp [start]⟩

/-- Fills of one direction add up, and the entry price is the mean of their prices weighted by
their sizes. -/
theorem sameSide_fills (symbol : Text) (side : SideWord) {lots : List (Lot ℚ)} (hlots : lots ≠ []) :
    ∃ pos, (run step start (lots.map fun lot => Event.fill symbol side lot)).state.positions.get
        symbol = some pos ∧ pos.side.direction = side.direction ∧
      pos.size = (lots.map Lot.size).sum ∧
      pos.entryPrice =
        (lots.map fun lot => lot.size * lot.price).sum / (lots.map Lot.size).sum := by
  have hrun : ∀ (l : List (Lot ℚ)) (w : World), Faithful w →
      (∀ h, w.truth symbol = some h → h.direction = side.direction) →
      Faithful (run step w (l.map fun lot => Event.fill symbol side lot)) ∧
        (run step w (l.map fun lot => Event.fill symbol side lot)).truth symbol =
          l.foldl (fun p lot => trade side.direction lot p) (w.truth symbol) := by
    intro l
    induction l with
    | nil => exact fun w hw _ => ⟨hw, rfl⟩
    | cons lot rest ih =>
        intro w hw hsame
        have hnext : Faithful (step w (.fill symbol side lot)) :=
          (faithful_step_iff _ hw).mpr hsame
        have htruth : (step w (.fill symbol side lot)).truth symbol =
            trade side.direction lot (w.truth symbol) := Function.update_self _ _ _
        rw [List.map_cons, run_cons, List.foldl_cons, ← htruth]
        refine ih _ hnext fun h hh => ?_
        rw [htruth] at hh
        cases hold : w.truth symbol with
        | none =>
            rw [hold] at hh
            rw [← Option.some.inj hh]
            rfl
        | some held =>
            rw [hold, trade, if_pos (hsame held hold)] at hh
            rw [← Option.some.inj hh]
            exact hsame held hold
  rcases hrun lots start ⟨fun _ => rfl, by simp [start]⟩ (by simp [start]) with ⟨hfaithful, htruth⟩
  rcases trades_same side.direction hlots with ⟨total, hfold, hdirection, hsize, hentry⟩
  have hagrees := hfaithful.agrees symbol
  rw [htruth, show start.truth symbol = none from rfl, hfold] at hagrees
  rcases Option.map_eq_some_iff.mp hagrees with ⟨pos, hpos, hview⟩
  simp only [Position.view, holdingView, Prod.mk.injEq] at hview
  exact ⟨pos, hpos, hview.1.trans hdirection, hview.2.1.trans hsize, hview.2.2.trans hentry⟩

/-- A long position loaded from the exchange and closed ten higher. -/
def loadedLong : List Event :=
  [.reconcile ⟨some ([⟨"BTCUSDT".toList, .Buy, some (.value 1), some (.value 100), none, none,
      none, none, none⟩], []), true⟩,
    .close "BTCUSDT".toList 110]

/-- Closing it returns a loss. -/
theorem loaded_long_negated : ¬ Faithful (run step start loadedLong) := by
  intro h
  have hclosing := h.closings (some (-10), some 10) (by decide +kernel)
  revert hclosing
  decide +kernel

end StateManager
end Karsa
