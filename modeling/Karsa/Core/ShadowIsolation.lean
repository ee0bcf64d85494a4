import Karsa.Core.ShadowStores
import Karsa.Foundations.Isolation

/-!
# Shadow stores - Isolation from the live data

The shadow stores are to have nothing in common with the live ones: calls on them neither
change `karsa:position:*` and `trades` nor answer by them.  This is so for every method that
goes through the replaced `_key` or that the trade store defines itself.  The methods that it
inherits with their SQL read `trades`, and one of them writes it.

Main results:

- Theorem `confined_of_not_leaks`: which methods stay with the shadow data.
- Theorem `stores_isolated_iff`: the isolated sequences of calls.
-/

namespace Karsa
namespace ShadowStores

open Trades RecordUpdates

/-! ## The two parts of the stored data -/

/-- The live data: the live positions and the table `trades`. -/
@[ext] structure LiveData where
  positions : Dict Text (Option Fields)
  isLive : ∀ item ∈ positions, isLiveKey item.1 = true
  trades : TradeTable
  aiConfidence : Nat → Option ℤ

/-- All other stored data. -/
@[ext] structure ShadowData where
  redis : Dict Text (Option Fields)
  shadowTrades : TradeTable
  aiDecisions : List Decision
  signals : List SignalRow

/-- The live data of a world. -/
def liveData (w : World) : LiveData where
  positions := w.redis.restrict isLiveKey
  isLive _ hitem := (List.mem_filter.mp hitem).2
  trades := w.trades
  aiConfidence := w.aiConfidence

/-- The rest of a world. -/
def shadowData (w : World) : ShadowData where
  redis := w.redis.restrict fun k => !isLiveKey k
  shadowTrades := w.shadowTrades
  aiDecisions := w.aiDecisions
  signals := w.signals

/-- A world with other live data. -/
def withLive (w : World) (live : LiveData) : World where
  redis := live.positions ++ w.redis.restrict fun k => !isLiveKey k
  trades := live.trades
  aiConfidence := live.aiConfidence
  shadowTrades := w.shadowTrades
  aiDecisions := w.aiDecisions
  signals := w.signals

/-- Live data as the part of a world that is out of bounds. -/
def liveSplit : Isolation.Split World ShadowData LiveData where
  visible := shadowData
  secret := liveData
  join := withLive
  visible_join w live := by
    have hnone : Dict.restrict (fun k => !isLiveKey k) live.positions = [] := by
      rw [Dict.restrict, List.filter_eq_nil_iff]
      intro item hitem
      rw [live.isLive item hitem]
      decide
    have hredis : (withLive w live).redis.restrict (fun k => !isLiveKey k) =
        w.redis.restrict fun k => !isLiveKey k := by
      rw [Dict.restrict, withLive, List.filter_append]
      rw [Dict.restrict] at hnone
      rw [hnone, Dict.restrict, List.filter_filter]
      simp
    rw [shadowData, shadowData, hredis]
    rfl
  secret_join w live := by
    have hall : live.positions.filter (fun item => isLiveKey item.1) = live.positions :=
      List.filter_eq_self.mpr live.isLive
    have hnone : (w.redis.restrict fun k => !isLiveKey k).filter
        (fun item => isLiveKey item.1) = [] := by
      rw [Dict.restrict, List.filter_filter, List.filter_eq_nil_iff]
      simp
    ext1
    · show ((live.positions ++ w.redis.restrict fun k => !isLiveKey k).filter
        fun item => isLiveKey item.1) = live.positions
      rw [List.filter_append, hall, hnone, List.append_nil]
    · rfl
    · rfl

/-! ## Positions under shadow keys -/

/-- Methods go to shadow keys. -/
@[simp] theorem isShadowKey_key (symbol side : Text) : isShadowKey (key symbol side) = true :=
  isShadowKey_shadowKey symbol (normalizeSide side)

section Positions

variable {k : Text} (hk : isShadowKey k = true)
include hk

/-- Writing a shadow position leaves the live data. -/
theorem liveData_setPosition (w : World) (pos : Fields) :
    liveData (w.setPosition k pos) = liveData w := by
  ext1
  · exact (Dict.restrict_set isLiveKey k w.redis (some pos)).trans
      (if_neg (by simp [isLiveKey_eq_false hk]))
  · rfl
  · rfl

/-- Deleting a shadow position leaves the live data. -/
theorem liveData_deletePosition (w : World) : liveData (w.deletePosition k) = liveData w := by
  ext1
  · exact Dict.restrict_pop_of_not (isLiveKey_eq_false hk) w.redis
  · rfl
  · rfl

/-- A shadow position written is a part of the shadow data. -/
theorem shadowData_setPosition (w : World) (pos : Fields) :
    shadowData (w.setPosition k pos) =
      { shadowData w with redis := (shadowData w).redis.set k (some pos) } := by
  ext1
  · exact (Dict.restrict_set (fun k => !isLiveKey k) k w.redis (some pos)).trans
      (if_pos (by simp [isLiveKey_eq_false hk]))
  · rfl
  · rfl
  · rfl

/-- A shadow position is read from the shadow data. -/
theorem loadPosition_eq (w : World) :
    w.loadPosition k = ((shadowData w).redis.get k).join := by
  have hpart : (!isLiveKey k) = true := by rw [isLiveKey_eq_false hk]; rfl
  exact congrArg Option.join (Dict.get_restrict (p := fun k => !isLiveKey k) hpart w.redis).symm

end Positions

/-- Deleting a key, as far as the shadow data go. -/
theorem shadowData_deletePosition (w : World) (k : Text) :
    shadowData (w.deletePosition k) =
      { shadowData w with redis := (shadowData w).redis.pop k } := by
  ext1
  · exact Dict.restrict_pop (fun k => !isLiveKey k) k w.redis
  · rfl
  · rfl
  · rfl

/-- A scan sees the shadow data only. -/
theorem scan_eq (w : World) : w.scan = (shadowData w).redis.keys.filter isShadowKey := by
  rw [World.scan, shadowData, Dict.keys_restrict, List.filter_filter]
  apply List.filter_congr
  intro k _
  cases hk : isShadowKey k with
  | true => simp [isLiveKey_eq_false hk]
  | false => rfl

/-! ## Worlds with the same shadow data -/

section Alike

variable {w w' : World} (h : shadowData w = shadowData w')
include h

theorem getPosition_congr (symbol side : Text) :
    w.getPosition symbol side = w'.getPosition symbol side := by
  rw [World.getPosition, World.getPosition, loadPosition_eq (isShadowKey_key symbol side),
    loadPosition_eq (isShadowKey_key symbol side), h]

theorem setPosition_congr {k : Text} (hk : isShadowKey k = true) (pos : Fields) :
    shadowData (w.setPosition k pos) = shadowData (w'.setPosition k pos) := by
  rw [shadowData_setPosition hk, shadowData_setPosition hk, h]

theorem patch_congr (symbol side : Text) (change : Fields → Option Fields) :
    shadowData (w.patch symbol side change) = shadowData (w'.patch symbol side change) := by
  rw [World.patch, World.patch, getPosition_congr h symbol side]
  split
  · exact h
  · exact setPosition_congr h (isShadowKey_key symbol side) _

theorem peakUnreadable_congr (symbol side : Text) :
    w.peakUnreadable symbol side = w'.peakUnreadable symbol side := by
  rw [World.peakUnreadable, World.peakUnreadable, getPosition_congr h symbol side]

theorem hasPosition_congr (symbol : Text) (side : Option Text) :
    w.hasPosition symbol side = w'.hasPosition symbol side := by
  unfold World.hasPosition
  split
  · rw [getPosition_congr h]
  · rw [getPosition_congr h, getPosition_congr h]

theorem getMissingFields_congr (symbol side : Text) (required : List Text) :
    w.getMissingFields symbol side required = w'.getMissingFields symbol side required := by
  rw [World.getMissingFields, World.getMissingFields, getPosition_congr h symbol side]

theorem listAll_congr : w.listAll = w'.listAll := by
  have hscan : w.scan = w'.scan := by
    rw [scan_eq, scan_eq, h]
  rw [World.listAll, World.listAll, hscan]
  apply List.filterMap_congr
  intro k hk
  have hshadow : isShadowKey k = true := by
    rw [← hscan, World.scan] at hk
    exact (List.mem_filter.mp hk).2
  rw [loadPosition_eq hshadow, loadPosition_eq hshadow, h]

theorem shadowTrades_congr : w.shadowTrades = w'.shadowTrades :=
  congrArg ShadowData.shadowTrades h

theorem orphaned_congr : w.orphaned = w'.orphaned := by
  rw [World.orphaned, World.orphaned, listAll_congr h, shadowTrades_congr h]

theorem closeTarget_congr (symbol : Text) (tradeId : Option Nat) :
    w.closeTarget symbol tradeId = w'.closeTarget symbol tradeId := by
  unfold World.closeTarget
  rw [shadowTrades_congr h]

/-- The same table in place of the trades of both. -/
theorem setTrades_congr (table : TradeTable) :
    shadowData { w with shadowTrades := table } =
      shadowData { w' with shadowTrades := table } := by
  have hparts := (ShadowData.ext_iff.mp h)
  exact ShadowData.ext hparts.1 rfl hparts.2.2.1 hparts.2.2.2

theorem closeTrade_congr (symbol : Text) (tradeId : Option Nat) (e : Exit) :
    shadowData (w.closeTrade symbol tradeId e) = shadowData (w'.closeTrade symbol tradeId e) := by
  unfold World.closeTrade
  rw [closeTarget_congr h symbol tradeId, shadowTrades_congr h]
  split
  · exact h
  · exact setTrades_congr h _

end Alike

/-- An update method leaves the live data. -/
theorem liveData_patch (w : World) (symbol side : Text) (change : Fields → Option Fields) :
    liveData (w.patch symbol side change) = liveData w := by
  unfold World.patch
  split
  · rfl
  · exact liveData_setPosition (isShadowKey_key symbol side) w _

/-- `close_trade` leaves the live data. -/
theorem liveData_closeTrade (w : World) (symbol : Text) (tradeId : Option Nat) (e : Exit) :
    liveData (w.closeTrade symbol tradeId e) = liveData w := by
  unfold World.closeTrade
  split <;> rfl

/-! ## Confined methods -/

/-- The methods that run the SQL of their parent on `trades`.  A limit of no rows, or one
that the statement does not accept, keeps their reads from showing anything. -/
def Call.leaks : Call → Bool
  | .recordFullTrade _ | .getTradesSince _ | .getAllOpenTrades | .getOpenTradeBySymbol _ => true
  | .getRecentTrades limit => decide (limit ≠ 0) && isRowCount limit
  | .getHistory page perPage => isRowCount perPage && isRowCount ((page - 1) * perPage)
  | _ => false

/-- A call that does not leak leaves the live data. -/
theorem liveData_act {call : Call} (hcall : call.leaks = false) (w : World) :
    liveData (act w call).1 = liveData w := by
  cases call with
  | save e => exact liveData_setPosition (isShadowKey_key e.symbol e.side) w e.record
  | updatePeak symbol side price now =>
      dsimp only [act]
      split
      · rfl
      · exact liveData_patch w symbol side _
  | updateSl symbol side slOrderId newSlPrice now => exact liveData_patch w symbol side _
  | updateCheckpoint symbol side checkpoint now => exact liveData_patch w symbol side _
  | updateFields symbol side updates now => exact liveData_patch w symbol side _
  | remove symbol side => exact liveData_deletePosition (isShadowKey_key symbol side) w
  | closeTrade symbol tradeId e => exact liveData_closeTrade w symbol tradeId e
  | recordFullTrade f => cases hcall
  | _ => rfl

/-- Where no rows are asked for, or the statement raises, there are no rows. -/
theorem getRecentTrades_eq_nil {limit : ℤ} (h : (Call.getRecentTrades limit).leaks = false)
    (w : World) : getRecentTrades w limit = [] := by
  by_cases hzero : limit = 0
  · subst hzero
    simp [getRecentTrades, window, isRowCount]
  · have hrejected : isRowCount limit = false := by simpa [Call.leaks, hzero] using h
    simp [getRecentTrades, window, hrejected]

/-- A page that the statement does not accept raises. -/
theorem getHistory_eq_raised {page perPage : ℤ} (h : (Call.getHistory page perPage).leaks = false)
    (w : World) : getHistory w page perPage = .raised := by
  have hrejected : (isRowCount perPage && isRowCount ((page - 1) * perPage)) = false := h
  simp [getHistory, window, hrejected]

/-- A call that does not leak does the same in worlds with the same shadow data. -/
theorem act_congr {call : Call} (hcall : call.leaks = false) {w w' : World}
    (h : shadowData w = shadowData w') :
    (act w call).2 = (act w' call).2 ∧ shadowData (act w call).1 = shadowData (act w' call).1 := by
  cases call with
  | save e => exact ⟨rfl, setPosition_congr h (isShadowKey_key e.symbol e.side) e.record⟩
  | get symbol side => exact ⟨congrArg Answer.position (getPosition_congr h symbol side), h⟩
  | updatePeak symbol side price now =>
      dsimp only [act]
      rw [peakUnreadable_congr h symbol side]
      split
      · exact ⟨rfl, h⟩
      · exact ⟨rfl, patch_congr h symbol side _⟩
  | updateSl symbol side slOrderId newSlPrice now => exact ⟨rfl, patch_congr h symbol side _⟩
  | updateCheckpoint symbol side checkpoint now => exact ⟨rfl, patch_congr h symbol side _⟩
  | remove symbol side =>
      refine ⟨rfl, ?_⟩
      show shadowData (w.deletePosition _) = shadowData (w'.deletePosition _)
      rw [shadowData_deletePosition, shadowData_deletePosition, h]
  | hasPosition symbol side => exact ⟨congrArg Answer.flag (hasPosition_congr h symbol side), h⟩
  | listAll => exact ⟨congrArg Answer.positions (listAll_congr h), h⟩
  | cleanupStale exchangeSymbols => exact ⟨rfl, h⟩
  | updateFields symbol side updates now => exact ⟨rfl, patch_congr h symbol side _⟩
  | getMissingFields symbol side required =>
      exact ⟨congrArg Answer.names (getMissingFields_congr h symbol side required), h⟩
  | closeOrphans now =>
      have hrows := orphaned_congr h
      refine ⟨congrArg (fun rows : List Trade => Answer.number rows.length) hrows, ?_⟩
      show shadowData (w.closeOrphans now) = shadowData (w'.closeOrphans now)
      rw [World.closeOrphans, World.closeOrphans, hrows, shadowTrades_congr h]
      exact setTrades_congr h _
  | recordEntry e =>
      have htrades := shadowTrades_congr h
      refine ⟨congrArg (fun table : TradeTable => Answer.number (table.lastId + 1)) htrades, ?_⟩
      show shadowData (w.recordEntry e) = shadowData (w'.recordEntry e)
      rw [World.recordEntry, World.recordEntry, htrades]
      exact setTrades_congr h _
  | closeTrade symbol tradeId e =>
      exact ⟨congrArg (fun id : Option Nat => Answer.number id.toList.length)
        (closeTarget_congr h symbol tradeId), closeTrade_congr h symbol tradeId e⟩
  | getHistory page perPage =>
      refine ⟨?_, h⟩
      exact (getHistory_eq_raised hcall w).trans (getHistory_eq_raised hcall w').symm
  | getRecentTrades limit =>
      refine ⟨congrArg Answer.recent ?_, h⟩
      rw [getRecentTrades_eq_nil hcall, getRecentTrades_eq_nil hcall]
  | recordDecision d =>
      have hparts := ShadowData.ext_iff.mp h
      exact ⟨rfl, ShadowData.ext hparts.1 hparts.2.1 (congrArg (· ++ [d]) hparts.2.2.1)
        hparts.2.2.2⟩
  | recordSignal row =>
      have hparts := ShadowData.ext_iff.mp h
      exact ⟨rfl, ShadowData.ext hparts.1 hparts.2.1 hparts.2.2.1
        (congrArg (· ++ [row]) hparts.2.2.2)⟩
  | recordFullTrade f => cases hcall
  | getTradesSince since => cases hcall
  | getAllOpenTrades => cases hcall
  | getOpenTradeBySymbol symbol => cases hcall

/-- The methods that do not leak stay with the shadow data. -/
theorem confined_of_not_leaks (call : Call) (hcall : call.leaks = false) :
    Isolation.Confined liveSplit act call where
  untouched := liveData_act hcall
  blind _ _ h := act_congr hcall h

/-! ## Methods that leak -/

instance : Nonempty World :=
  ⟨emptyWorld⟩

/-- Live data of one trade. -/
def oneTrade (t : Trade) : LiveData where
  positions := []
  isLive := by simp
  trades := TradeTable.empty.insert t
  aiConfidence := fun _ => none

/-- An entry of a symbol at a time. -/
def entryAt (symbol : Text) (now : ℚ) : TradeEntry :=
  ⟨symbol, "LONG".toList, 1, 100, none, now⟩

/-- A trade that lost ten. -/
def lostTrade : FullTrade :=
  ⟨"BTC/USDT".toList, "LONG".toList, 1, 100, 90, -10, "TREND".toList, 0, 1, "sl_hit".toList⟩

/-- A method that answers by the live data leaks if two of them are answered differently. -/
theorem leaks_of_shown {call : Call}
    (hlive : ∀ w, (act w call).2 = (act (withLive emptyWorld (liveData w)) call).2)
    (live live' : LiveData)
    (hne : (act (withLive emptyWorld live) call).2 ≠ (act (withLive emptyWorld live') call).2) :
    Isolation.Leaks liveSplit act call := by
  intro w
  refine ⟨live, live', ?_⟩
  rintro t t' - - ht ht'
  refine Or.inr ?_
  rw [hlive t, hlive t', show liveData t = live from ht, show liveData t' = live' from ht']
  exact hne

/-- A complete trade is inserted into the live table. -/
theorem leaks_recordFullTrade (f : FullTrade) :
    Isolation.Leaks liveSplit act (.recordFullTrade f) := by
  intro w
  refine ⟨liveData w, liveData w, ?_⟩
  rintro t t' - - ht -
  refine Or.inl fun hkept => ?_
  have hsame : (liveData (t.recordFullTrade f)).trades.lastId = (liveData t).trades.lastId :=
    congrArg (fun live : LiveData => live.trades.lastId) (hkept.trans ht.symm)
  exact Nat.succ_ne_self _ hsame

/-- The trades since a time. -/
theorem leaks_getTradesSince (since : ℚ) :
    Isolation.Leaks liveSplit act (.getTradesSince since) := by
  refine leaks_of_shown (fun w => rfl) (liveData emptyWorld) (oneTrade (entryAt [] since).row) ?_
  intro heq
  have hrows := congrArg List.length (Answer.since.inj heq)
  simp [TradeTable.tradesSince, withLive, liveData, emptyWorld, oneTrade, TradeTable.insert,
    TradeTable.empty, entryAt, TradeEntry.row] at hrows

/-- The open trades. -/
theorem leaks_getAllOpenTrades : Isolation.Leaks liveSplit act .getAllOpenTrades := by
  refine leaks_of_shown (fun w => rfl) (liveData emptyWorld) (oneTrade (entryAt [] 0).row) ?_
  intro heq
  have hrows := congrArg List.length (Answer.openTrades.inj heq)
  revert hrows
  decide +kernel

/-- The open trade of a symbol. -/
theorem leaks_getOpenTradeBySymbol (symbol : Text) :
    Isolation.Leaks liveSplit act (.getOpenTradeBySymbol symbol) := by
  refine leaks_of_shown (fun w => rfl) (liveData emptyWorld) (oneTrade (entryAt symbol 0).row) ?_
  intro heq
  have hrow := Answer.openTrade.inj heq
  simp [TradeTable.openTradeBySymbol, withLive, liveData, emptyWorld, oneTrade,
    TradeTable.insert, TradeTable.empty, entryAt, TradeEntry.row, Trade.isOpen] at hrow

/-- No closed live trades, and one. -/
theorem length_closedTrades :
    (closedTrades (withLive emptyWorld (liveData emptyWorld)).trades).length = 0 ∧
      (closedTrades (withLive emptyWorld (oneTrade lostTrade.row)).trades).length = 1 := by
  decide +kernel

/-- How many trades an accepted limit shows. -/
theorem length_getRecentTrades {limit : ℤ} (h : isRowCount limit = true) (w : World) :
    (getRecentTrades w limit).length = min limit.toNat (closedTrades w.trades).length := by
  have hzero : isRowCount 0 = true := by decide
  rw [getRecentTrades, window, h, hzero]
  simp

/-- The recent trades, where the statement is asked for some. -/
theorem leaks_getRecentTrades {limit : ℤ} (h : (Call.getRecentTrades limit).leaks = true) :
    Isolation.Leaks liveSplit act (.getRecentTrades limit) := by
  have hlimit : limit ≠ 0 ∧ isRowCount limit = true := by simpa [Call.leaks] using h
  have hcount := hlimit.2
  simp only [isRowCount, Bool.and_eq_true, decide_eq_true_eq] at hcount
  refine leaks_of_shown (fun w => rfl) (liveData emptyWorld) (oneTrade lostTrade.row) ?_
  intro heq
  have hrows := congrArg List.length (Answer.recent.inj heq)
  rw [length_getRecentTrades hlimit.2, length_getRecentTrades hlimit.2] at hrows
  rw [length_closedTrades.1, length_closedTrades.2] at hrows
  omega

/-- The total that a page of the history shows. -/
def Answer.total : Answer → Nat
  | .history _ total _ _ _ => total
  | _ => 0

/-- An accepted page shows how many closed trades there are. -/
theorem total_getHistory {page perPage : ℤ}
    (h : (isRowCount perPage && isRowCount ((page - 1) * perPage)) = true) (w : World) :
    (getHistory w page perPage).total = (closedTrades w.trades).length := by
  rw [getHistory, window, if_pos h]
  rfl

/-- A page of the history, unless the statement raises. -/
theorem leaks_getHistory {page perPage : ℤ} (h : (Call.getHistory page perPage).leaks = true) :
    Isolation.Leaks liveSplit act (.getHistory page perPage) := by
  refine leaks_of_shown (fun w => rfl) (liveData emptyWorld) (oneTrade lostTrade.row) ?_
  intro heq
  have htotal := congrArg Answer.total heq
  have hcounts := (total_getHistory h _).symm.trans (htotal.trans (total_getHistory h _))
  rw [length_closedTrades.1, length_closedTrades.2] at hcounts
  cases hcounts

/-- The other methods leak whatever the shadow data are. -/
theorem leaks_of_leaks (call : Call) (h : call.leaks = true) :
    Isolation.Leaks liveSplit act call := by
  cases call with
  | recordFullTrade f => exact leaks_recordFullTrade f
  | getHistory page perPage => exact leaks_getHistory h
  | getTradesSince since => exact leaks_getTradesSince since
  | getRecentTrades limit => exact leaks_getRecentTrades h
  | getAllOpenTrades => exact leaks_getAllOpenTrades
  | getOpenTradeBySymbol symbol => exact leaks_getOpenTradeBySymbol symbol
  | _ => cases h

/-! ## Sequences of calls -/

/-- Calls on the shadow stores change no live data and answer the same whatever these are
exactly if none of them runs its parent's SQL on `trades`. -/
theorem stores_isolated_iff (calls : List Call) :
    Isolation.Isolated liveSplit act calls ↔ ∀ call ∈ calls, call.leaks = false :=
  Isolation.isolated_iff confined_of_not_leaks leaks_of_leaks calls

/-- The drawdown check of the shadow risk manager reads the live losses. -/
theorem recentTrades_not_isolated :
    ¬ Isolation.Isolated liveSplit act [.getRecentTrades 50] := by
  intro h
  have hshadow :
      shadowData emptyWorld = shadowData (withLive emptyWorld (oneTrade lostTrade.row)) :=
    (liveSplit.visible_join emptyWorld (oneTrade lostTrade.row)).symm
  have hanswers := (h.blind emptyWorld (withLive emptyWorld (oneTrade lostTrade.row)) hshadow).1
  have hrows := congrArg List.length (Answer.recent.inj (List.cons.inj hanswers).1)
  revert hrows
  decide +kernel

end ShadowStores
end Karsa
