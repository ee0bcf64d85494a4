import Karsa.Core.ShadowStores
import Karsa.Foundations.Pools
import Karsa.Foundations.Runs

/-!
# Shadow stores - The orphan cleanup beside its writers

`close_orphans` scans the position keys, reads the positions, asks for the open trades and
updates those without a position.  Meanwhile `_on_signal_shadow` saves positions and records
their trades, and `ShadowAPM` closes trades and removes their positions.  Each call of Redis or
Postgres is one turn of its task, and the tasks take turns in any order.

A scan walks through Redis's hash table: a key that is there all the time is found, one that
comes and goes may be missed.  A position that is saved behind the scan's back is not among
the active ones, but its trade can be among the open ones.

Main results:

- Theorem `leads_closeOrphans`: an uninterrupted cleanup is the method as a whole.
- Theorem `step_sound`: what the phases of a cleanup know about the stored data.
- Theorem `cleanup_closes_unbacked`: in which runs only trades without a position are closed.
-/

namespace Karsa
namespace ShadowStores

open Trades RecordUpdates

namespace OrphanCleanup

/-! ## Tasks -/

/-- Redis's hash table, as far as a scan depends on it. -/
structure HashTable where
  slots : Nat
  slot : Text → Nat
  slot_lt : ∀ key, slot key < slots

/-- What `_on_signal_shadow` saves and records for an executed signal, and the clocks read. -/
structure Opening where
  symbol : Text
  direction : Side
  fillPrice : ℚ
  amount : ℚ
  atr : ℚ
  score : ℚ
  regime : Text
  riskProfileJson : Text
  virtualSl : Option ℚ
  virtualTp : Option ℚ
  saveClocks : Text × Text × Text
  recordClock : ℚ
deriving Repr, DecidableEq

/-- The call of `save`. -/
def Opening.entry (o : Opening) : Entry where
  symbol := o.symbol
  side := o.direction.word
  entryPrice := o.fillPrice
  amount := o.amount
  slOrderId := none
  atr := some o.atr
  entryConfidence := some o.score
  regime := some o.regime
  entryRegime := none
  initialRiskPerUnit := none
  riskProfileJson := some o.riskProfileJson
  virtualSl := o.virtualSl
  virtualTp := o.virtualTp
  entryTime := o.saveClocks.1
  enteredAt := o.saveClocks.2.1
  lastCheckAt := o.saveClocks.2.2

/-- The call of `record_entry`. -/
def Opening.trade (o : Opening) : TradeEntry where
  symbol := o.symbol
  side := o.direction.word
  amount := o.amount
  entryPrice := o.fillPrice
  regime := some o.regime
  now := o.recordClock

/-- Where a task has come to: the call it makes in its next turn. -/
inductive Task where
  | saving (o : Opening)
  | recording (o : Opening)
  | closing (symbol side : Text) (e : Exit)
  | removing (symbol side : Text)
  | scanning (cursor : Nat) (keys : List Text)
  | reading (keys : List Text) (active : List (FieldValue × FieldValue))
  | updating (rows : List Trade)
  | done

variable (table : HashTable)

/-- The turn of a task at a time. -/
def turn (now : ℚ) (w : World) : Task → World × Task
  | .saving o => (w.save o.entry, .recording o)
  | .recording o => (w.recordEntry o.trade, .done)
  | .closing symbol side e => (w.closeTrade symbol none e, .removing symbol side)
  | .removing symbol side => (w.deletePosition (key symbol side), .done)
  | .scanning cursor keys =>
      if cursor < table.slots then
        (w, .scanning (cursor + 1)
          (keys ++ w.scan.filter fun k => decide (table.slot k = cursor)))
      else (w, .reading keys [])
  | .reading (k :: keys) active =>
      (w, .reading keys (active ++ (w.loadPosition k).toList.map activePair))
  | .reading [] active => (w, .updating (orphans w.shadowTrades active))
  | .updating (t :: rows) =>
      ({ w with shadowTrades := closeOrphan w.shadowTrades t.id now }, .updating rows)
  | .updating [] => (w, .done)
  | .done => (w, .done)

/-- What happens next: a new task, or the turn of one. -/
inductive Input where
  | open (o : Opening)
  | close (symbol side : Text) (e : Exit)
  | expire (symbol side : Text)
  | cleanup
  | turn (i : Nat) (now : ℚ)

/-- One step. -/
def step (p : Pool World Task) : Input → Pool World Task
  | .open o => p.spawn (.saving o)
  | .close symbol side e => p.spawn (.closing symbol side e)
  | .expire symbol side => p.spawn (.removing symbol side)
  | .cleanup => p.spawn (.scanning 0 [])
  | .turn i now => p.turn (turn table now) i

/-! ## Closing backed trades -/

/-- A position of the symbol and side is in Redis. -/
def Saved (w : World) (symbol : Text) (side : Side) : Prop :=
  (w.loadPosition (shadowKey symbol side)).isSome = true

/-- A trade of the symbol and side is open. -/
def Traded (w : World) (symbol : Text) (side : Side) : Prop :=
  ∃ t ∈ w.shadowTrades.rows, t.isOpen = true ∧ t.symbol = symbol ∧ t.side = side.word

/-- A cleanup that is about to update a trade finds no position of its symbol and side. -/
def Task.ClosesUnbacked (w : World) : Task → Prop
  | .updating (t :: _) => w.hasPosition t.symbol (some t.side) = false
  | _ => True

/-- The same of the task whose turn it is. -/
def ClosesUnbacked (p : Pool World Task) : Input → Prop
  | .turn i _ => ∀ u ∈ p.tasks[i]?, u.ClosesUnbacked p.shared
  | _ => True

/-- A cleanup has passed the key of a position by, and has not asked for the trades yet. -/
def Task.Passed (symbol : Text) (side : Side) : Task → Prop
  | .scanning cursor keys =>
      table.slot (shadowKey symbol side) < cursor ∧ shadowKey symbol side ∉ keys
  | .reading keys active =>
      shadowKey symbol side ∉ keys ∧ (FieldValue.text symbol, FieldValue.text side.word) ∉ active
  | _ => False

/-- A cleanup has a trade of the symbol and side among those it goes on to update. -/
def Task.Listed (symbol : Text) (side : Side) : Task → Prop
  | .updating rows => ∃ t ∈ rows, t.symbol = symbol ∧ t.side = side.word
  | _ => False

/-- A position is saved, or its trade recorded, so that no cleanup goes wrong by it: one that
has passed the position by does not find a trade of it, and none has listed one. -/
def Task.OpensUnpassed (p : Pool World Task) : Task → Prop
  | .saving o => ∀ u ∈ p.tasks, ¬ u.Listed o.symbol o.direction ∧
      (u.Passed table o.symbol o.direction → ¬ Traded p.shared o.symbol o.direction)
  | .recording o => ∀ u ∈ p.tasks,
      u.Passed table o.symbol o.direction → ¬ Saved p.shared o.symbol o.direction
  | _ => True

/-- The same of the task whose turn it is. -/
def OpensUnpassed (p : Pool World Task) : Input → Prop
  | .turn i _ => ∀ u ∈ p.tasks[i]?, u.OpensUnpassed table p
  | _ => True

/-! ## Both conditions on concrete runs -/

instance (w : World) (symbol : Text) (side : Side) : Decidable (Saved w symbol side) :=
  inferInstanceAs (Decidable (_ = true))

instance (w : World) (symbol : Text) (side : Side) : Decidable (Traded w symbol side) :=
  inferInstanceAs (Decidable (∃ t ∈ w.shadowTrades.rows, _))

instance (symbol : Text) (side : Side) : DecidablePred (Task.Passed table symbol side)
  | .scanning _ _ | .reading _ _ => inferInstanceAs (Decidable (_ ∧ _))
  | .saving _ | .recording _ | .closing _ _ _ | .removing _ _ | .updating _ | .done => isFalse id

instance (symbol : Text) (side : Side) : DecidablePred (Task.Listed symbol side)
  | .updating rows => inferInstanceAs (Decidable (∃ t ∈ rows, _))
  | .saving _ | .recording _ | .closing _ _ _ | .removing _ _ | .scanning _ _ | .reading _ _
  | .done => isFalse id

instance (w : World) : DecidablePred (Task.ClosesUnbacked w)
  | .updating (_ :: _) => inferInstanceAs (Decidable (_ = false))
  | .updating [] | .saving _ | .recording _ | .closing _ _ _ | .removing _ _ | .scanning _ _
  | .reading _ _ | .done => isTrue trivial

instance (p : Pool World Task) : DecidablePred (Task.OpensUnpassed table p)
  | .saving _ | .recording _ => inferInstanceAs (Decidable (∀ u ∈ p.tasks, _))
  | .closing _ _ _ | .removing _ _ | .scanning _ _ | .reading _ _ | .updating _
  | .done => isTrue trivial

instance (p : Pool World Task) : DecidablePred (ClosesUnbacked p)
  | .turn i _ => inferInstanceAs (Decidable (∀ u ∈ p.tasks[i]?, _))
  | .open _ | .close _ _ _ | .expire _ _ | .cleanup => isTrue trivial

instance (p : Pool World Task) : DecidablePred (OpensUnpassed table p)
  | .turn i _ => inferInstanceAs (Decidable (∀ u ∈ p.tasks[i]?, _))
  | .open _ | .close _ _ _ | .expire _ _ | .cleanup => isTrue trivial

/-! ## What the turns do to positions and trades -/

/-- What a key holds after an assignment to one. -/
theorem lookup_put (pos : Fields) (field : String) (value : FieldValue) (f : Text) :
    (pos.put field value).lookup f = if f = field.toList then some value else pos.lookup f := by
  rw [Fields.put]
  split_ifs with hf
  · rw [hf, Finmap.lookup_insert]
  · exact Finmap.lookup_insert_of_ne pos hf

/-- A saved record names its symbol and side. -/
theorem activePair_record (o : Opening) :
    activePair o.entry.record = (.text o.symbol, .text o.direction.word) := by
  have hother : ∀ (pos : Fields) (field : String) (value : Option ℚ) (f : Text),
      f ≠ field.toList → (putIf pos field value).lookup f = pos.lookup f := by
    intro pos field value f hf
    cases value with
    | none => rfl
    | some q => rw [putIf, lookup_put, if_neg hf]
  have hsl : "symbol".toList ≠ "virtual_sl".toList ∧ "side".toList ≠ "virtual_sl".toList := by
    decide
  have htp : "symbol".toList ≠ "virtual_tp".toList ∧ "side".toList ≠ "virtual_tp".toList := by
    decide
  simp only [activePair, Entry.record, hother _ _ _ _ hsl.1, hother _ _ _ _ hsl.2,
    hother _ _ _ _ htp.1, hother _ _ _ _ htp.2]
  simp +decide [lookup_put, Opening.entry]

/-- What a save leaves under the keys of positions. -/
theorem loadPosition_save (w : World) (o : Opening) (symbol : Text) (side : Side) :
    (w.save o.entry).loadPosition (shadowKey symbol side) =
      if symbol = o.symbol ∧ side = o.direction then some o.entry.record
      else w.loadPosition (shadowKey symbol side) := by
  have hkey : key o.entry.symbol o.entry.side = shadowKey o.symbol o.direction := by
    rw [key, Opening.entry, normalizeSide_word]
  rw [World.save, World.setPosition, World.loadPosition, hkey]
  split_ifs with hsame
  · rw [hsame.1, hsame.2, Dict.get_set_self]
    rfl
  · have hne : shadowKey symbol side ≠ shadowKey o.symbol o.direction := fun h =>
      hsame (shadowKey_inj h)
    rw [Dict.get_set_of_ne hne, World.loadPosition]

/-- A deletion leaves no new positions. -/
theorem loadPosition_delete {w : World} {k k' : Text} {pos : Fields}
    (h : (w.deletePosition k).loadPosition k' = some pos) : w.loadPosition k' = some pos := by
  rw [World.deletePosition, World.loadPosition] at h
  by_cases hk : k' = k
  · rw [hk, Dict.get_pop_self] at h
    cases h
  · rwa [Dict.get_pop_of_ne hk] at h

/-- An open row of a table in which some rows were closed was there before. -/
theorem mem_of_mem_closed {rows : List Trade} {p : Trade → Prop} [DecidablePred p]
    {close : Trade → Trade} (hclose : ∀ t, (close t).isOpen = false) {t : Trade}
    (ht : t ∈ rows.map fun t => if p t then close t else t) (hopen : t.isOpen = true) :
    t ∈ rows := by
  rcases List.mem_map.mp ht with ⟨old, hold, rfl⟩
  split_ifs at hopen ⊢
  · rw [hclose] at hopen
    cases hopen
  · exact hold

/-- An orphan's close opens no row. -/
theorem mem_rows_closeOrphan {trades : TradeTable} {id : Nat} {now : ℚ} {t : Trade}
    (ht : t ∈ (closeOrphan trades id now).rows) (hopen : t.isOpen = true) : t ∈ trades.rows :=
  mem_of_mem_closed (fun _ => rfl) ht hopen

/-- `close_trade` opens no row. -/
theorem mem_rows_close {w : World} {symbol : Text} {tradeId : Option Nat} {e : Exit} {t : Trade}
    (ht : t ∈ (w.closeTrade symbol tradeId e).shadowTrades.rows) (hopen : t.isOpen = true) :
    t ∈ w.shadowTrades.rows := by
  unfold World.closeTrade at ht
  split at ht
  · exact ht
  · exact mem_of_mem_closed (fun _ => rfl) ht hopen

/-- A recorded trade is the only new row. -/
theorem mem_rows_record {w : World} {o : Opening} {t : Trade}
    (ht : t ∈ (w.recordEntry o.trade).shadowTrades.rows) :
    t ∈ w.shadowTrades.rows ∨ (t.symbol = o.symbol ∧ t.side = o.direction.word) := by
  rcases List.mem_append.mp ht with hold | hnew
  · exact Or.inl hold
  · rw [List.mem_singleton.mp hnew]
    exact Or.inr ⟨rfl, rfl⟩

/-! ## A cleanup by itself -/

section Alone

variable (now : ℚ)

/-- The only task comes from one place to another in some turns of its own. -/
def Leads (w : World) (u : Task) (w' : World) (u' : Task) : Prop :=
  ∃ n, run (step table) ⟨w, [u]⟩ (List.replicate n (.turn 0 now)) = ⟨w', [u']⟩

variable {table now}

theorem Leads.refl (w : World) (u : Task) : Leads table now w u w u :=
  ⟨0, rfl⟩

theorem Leads.trans {w w' w'' : World} {u u' u'' : Task} (h : Leads table now w u w' u')
    (h' : Leads table now w' u' w'' u'') : Leads table now w u w'' u'' := by
  rcases h with ⟨n, hn⟩
  rcases h' with ⟨m, hm⟩
  refine ⟨n + m, ?_⟩
  rw [List.replicate_add, run, List.foldl_append]
  rw [run] at hn
  rw [hn]
  exact hm

variable (table now) in
/-- One turn. -/
theorem Leads.turn (w : World) (u : Task) :
    Leads table now w u (turn table now w u).1 (turn table now w u).2 :=
  ⟨1, rfl⟩

variable (table now) in
/-- A scan collects every key that is there. -/
theorem leads_scanned (w : World) (cursor : Nat) (hcursor : cursor ≤ table.slots)
    (keys : List Text) :
    ∃ found, (∀ k, k ∈ found ↔ k ∈ keys ∨ (k ∈ w.scan ∧ cursor ≤ table.slot k)) ∧
      Leads table now w (.scanning cursor keys) w (.reading found []) := by
  obtain ⟨left, hleft⟩ := Nat.exists_eq_add_of_le hcursor
  induction left generalizing cursor keys with
  | zero =>
      refine ⟨keys, fun k => ?_, ?_⟩
      · have hslot := table.slot_lt k
        constructor
        · exact Or.inl
        · rintro (hk | ⟨-, hk⟩)
          · exact hk
          · omega
      · have hlead := Leads.turn table now w (.scanning cursor keys)
        rwa [OrphanCleanup.turn, if_neg (by omega)] at hlead
  | succ left ih =>
      obtain ⟨found, hfound, hlead⟩ := ih (cursor + 1) (by omega)
        (keys ++ w.scan.filter fun k => decide (table.slot k = cursor)) (by omega)
      refine ⟨found, fun k => ?_, ?_⟩
      · rw [hfound, List.mem_append, List.mem_filter, decide_eq_true_eq, or_assoc]
        have hsplit : cursor ≤ table.slot k ↔
            table.slot k = cursor ∨ cursor + 1 ≤ table.slot k := by
          omega
        rw [hsplit, and_or_left]
      · refine Leads.trans ?_ hlead
        have hturn := Leads.turn table now w (.scanning cursor keys)
        rwa [OrphanCleanup.turn, if_pos (by omega)] at hturn

/-- The reads add what the keys hold to the active positions. -/
theorem leads_read (w : World) (keys : List Text) (active : List (FieldValue × FieldValue)) :
    Leads table now w (.reading keys active) w
      (.reading [] (active ++ (keys.filterMap w.loadPosition).map activePair)) := by
  induction keys generalizing active with
  | nil => simpa using Leads.refl w (.reading [] active)
  | cons k keys ih =>
      refine (Leads.turn table now w (.reading (k :: keys) active)).trans ?_
      have hrest := ih (active ++ (w.loadPosition k).toList.map activePair)
      cases hload : w.loadPosition k <;> simpa [OrphanCleanup.turn, hload] using hrest

/-- The updates go through the rows. -/
theorem leads_updated (w : World) (rows : List Trade) :
    Leads table now w (.updating rows)
      { w with shadowTrades := rows.foldl (fun trades t => closeOrphan trades t.id now)
                w.shadowTrades } .done := by
  induction rows generalizing w with
  | nil => exact Leads.turn table now w (.updating [])
  | cons t rows ih => exact (Leads.turn table now w (.updating (t :: rows))).trans (ih _)

/-- Active positions count whatever the order they were read in. -/
theorem orphans_congr {trades : TradeTable} {active active' : List (FieldValue × FieldValue)}
    (h : ∀ pair, pair ∈ active ↔ pair ∈ active') :
    orphans trades active = orphans trades active' := by
  have hactive : ∀ t, isActive active t = isActive active' t := by
    intro t
    rw [isActive, isActive, Bool.eq_iff_iff, List.contains_iff_mem, List.contains_iff_mem, h]
  simp only [orphans, hactive]

/-- Without interruption the turns of a cleanup do what `close_orphans` does in one go. -/
theorem leads_closeOrphans (w : World) :
    Leads table now w (.scanning 0 []) (w.closeOrphans now) .done := by
  obtain ⟨found, hfound, hscanned⟩ :=
    leads_scanned table now w 0 (Nat.zero_le _) []
  have hrows : orphans w.shadowTrades ([] ++ (found.filterMap w.loadPosition).map activePair) =
      w.orphaned := by
    refine orphans_congr fun pair => ?_
    simp [World.listAll, hfound]
  have hasked := Leads.turn table now w
    (.reading [] ([] ++ (found.filterMap w.loadPosition).map activePair))
  rw [OrphanCleanup.turn, hrows] at hasked
  exact ((hscanned.trans (leads_read w found [])).trans hasked).trans (leads_updated w w.orphaned)

end Alone

/-! ## What a cleanup knows -/

/-- Positions lie under the keys they name, and open trades have a canonical side. -/
structure Sound (w : World) : Prop where
  filed : ∀ symbol side pos, w.loadPosition (shadowKey symbol side) = some pos →
    activePair pos = (.text symbol, .text side.word)
  sides : ∀ t ∈ w.shadowTrades.rows, t.isOpen = true → ∃ side : Side, t.side = side.word

/-- No open trade has a position that the cleanup has passed by, and no trade that it goes on
to update has one at all. -/
structure Stands (w : World) (u : Task) : Prop where
  passed : ∀ symbol side, u.Passed table symbol side → Saved w symbol side →
    ¬ Traded w symbol side
  listed : ∀ symbol side, u.Listed symbol side → ¬ Saved w symbol side
  sides : ∀ rows, u = .updating rows → ∀ t ∈ rows, ∃ side : Side, t.side = side.word

variable {table}

/-- Knowledge outlives the end of positions and trades. -/
theorem Stands.mono {w w' : World} {u : Task} (h : Stands table w u)
    (hsaved : ∀ symbol side, Saved w' symbol side → Saved w symbol side)
    (htraded : ∀ symbol side, Traded w' symbol side → Traded w symbol side) :
    Stands table w' u where
  passed symbol side hpassed hsave htrade :=
    h.passed symbol side hpassed (hsaved symbol side hsave) (htraded symbol side htrade)
  listed symbol side hlisted hsave := h.listed symbol side hlisted (hsaved symbol side hsave)
  sides := h.sides

/-- Fewer open rows, fewer trades. -/
theorem Traded.mono {w w' : World} {symbol : Text} {side : Side}
    (hrows : ∀ t ∈ w'.shadowTrades.rows, t.isOpen = true → t ∈ w.shadowTrades.rows)
    (h : Traded w' symbol side) : Traded w symbol side := by
  rcases h with ⟨t, ht, hopen, hpair⟩
  exact ⟨t, hrows t ht hopen, hopen, hpair⟩

/-- Positions saved after a save. -/
theorem saved_save {w : World} {o : Opening} {symbol : Text} {side : Side}
    (h : Saved (w.save o.entry) symbol side) :
    Saved w symbol side ∨ (symbol = o.symbol ∧ side = o.direction) := by
  rw [Saved, loadPosition_save] at h
  split_ifs at h with hsame
  · exact Or.inr hsame
  · exact Or.inl h

/-- Trades open after an entry is recorded. -/
theorem traded_record {w : World} {o : Opening} {symbol : Text} {side : Side}
    (h : Traded (w.recordEntry o.trade) symbol side) :
    Traded w symbol side ∨ (symbol = o.symbol ∧ side = o.direction) := by
  rcases h with ⟨t, ht, hopen, hsymbol, hside⟩
  rcases mem_rows_record ht with hold | ⟨hsymbol', hside'⟩
  · exact Or.inl ⟨t, hold, hopen, hsymbol, hside⟩
  · have hwords := congrArg normalizeSide (hside.symm.trans hside')
    rw [normalizeSide_word, normalizeSide_word] at hwords
    exact Or.inr ⟨hsymbol.symm.trans hsymbol', hwords⟩

/-- A world with no new position and no new open trade. -/
structure Shrinks (w w' : World) : Prop where
  positions : ∀ symbol side pos, w'.loadPosition (shadowKey symbol side) = some pos →
    w.loadPosition (shadowKey symbol side) = some pos
  rows : ∀ t ∈ w'.shadowTrades.rows, t.isOpen = true → t ∈ w.shadowTrades.rows

theorem Shrinks.refl (w : World) : Shrinks w w :=
  ⟨fun _ _ _ h => h, fun _ ht _ => ht⟩

theorem Shrinks.saved {w w' : World} (h : Shrinks w w') {symbol : Text} {side : Side}
    (hsaved : Saved w' symbol side) : Saved w symbol side := by
  rcases Option.isSome_iff_exists.mp hsaved with ⟨pos, hpos⟩
  exact Option.isSome_iff_exists.mpr ⟨pos, h.positions symbol side pos hpos⟩

/-- What a turn does to the stored data. -/
theorem turn_world (table : HashTable) (now : ℚ) (w : World) (u : Task) :
    (∃ o, u = .saving o ∧ (turn table now w u).1 = w.save o.entry) ∨
      (∃ o, u = .recording o ∧ (turn table now w u).1 = w.recordEntry o.trade) ∨
        Shrinks w (turn table now w u).1 := by
  cases u with
  | saving o => exact Or.inl ⟨o, rfl, rfl⟩
  | recording o => exact Or.inr (Or.inl ⟨o, rfl, rfl⟩)
  | closing symbol side e =>
      refine Or.inr (Or.inr ⟨fun s d pos hpos => ?_, fun t ht hopen => mem_rows_close ht hopen⟩)
      have hredis : (w.closeTrade symbol none e).redis = w.redis := by
        unfold World.closeTrade
        split <;> rfl
      rwa [turn, World.loadPosition, hredis] at hpos
  | removing symbol side =>
      exact Or.inr (Or.inr ⟨fun s d pos hpos => loadPosition_delete hpos, fun t ht _ => ht⟩)
  | scanning cursor keys =>
      refine Or.inr (Or.inr ?_)
      dsimp only [turn]
      split <;> exact Shrinks.refl w
  | reading keys active => cases keys <;> exact Or.inr (Or.inr (Shrinks.refl w))
  | updating rows =>
      cases rows with
      | nil => exact Or.inr (Or.inr (Shrinks.refl w))
      | cons t rows =>
          exact Or.inr (Or.inr ⟨fun _ _ _ hpos => hpos,
            fun t ht hopen => mem_rows_closeOrphan ht hopen⟩)
  | done => exact Or.inr (Or.inr (Shrinks.refl w))

/-- Every turn files positions and trades as they should be. -/
theorem turn_world_sound (table : HashTable) (now : ℚ) {w : World} (h : Sound w) (u : Task) :
    Sound (turn table now w u).1 := by
  rcases turn_world table now w u with ⟨o, -, hsave⟩ | ⟨o, -, hrecord⟩ | hshrinks
  · rw [hsave]
    refine ⟨fun symbol side pos hpos => ?_, h.sides⟩
    rw [loadPosition_save] at hpos
    split_ifs at hpos with hsame
    · rw [← Option.some.inj hpos, hsame.1, hsame.2, activePair_record]
    · exact h.filed symbol side pos hpos
  · rw [hrecord]
    refine ⟨h.filed, fun t ht hopen => ?_⟩
    rcases mem_rows_record ht with hold | ⟨-, hside⟩
    · exact h.sides t hold hopen
    · exact ⟨o.direction, hside⟩
  · exact ⟨fun symbol side pos hpos => h.filed symbol side pos (hshrinks.positions _ _ _ hpos),
      fun t ht hopen => h.sides t (hshrinks.rows t ht hopen) hopen⟩

/-- A task that is no cleanup knows nothing. -/
theorem Stands.of_not_cleanup {w : World} {u : Task}
    (hpassed : ∀ symbol side, ¬ u.Passed table symbol side)
    (hupdating : ∀ rows, u ≠ .updating rows) : Stands table w u where
  passed symbol side h := absurd h (hpassed symbol side)
  listed symbol side h := by
    cases u with
    | updating rows => exact absurd rfl (hupdating rows)
    | _ => exact absurd h id
  sides rows h := absurd h (hupdating rows)

/-- One more slot of a scan: a saved position of the slot is among the keys now. -/
theorem Stands.scanned {w : World} {cursor : Nat} {keys : List Text}
    (h : Stands table w (.scanning cursor keys)) :
    Stands table w (.scanning (cursor + 1)
      (keys ++ w.scan.filter fun k => decide (table.slot k = cursor))) := by
  refine ⟨fun symbol side hpassed hsaved => ?_, nofun, nofun⟩
  rcases hpassed with ⟨hslot, hkeys⟩
  have hbefore : table.slot (shadowKey symbol side) ≠ cursor := by
    intro hhere
    rcases Option.isSome_iff_exists.mp hsaved with ⟨pos, hpos⟩
    have hget : w.redis.get (shadowKey symbol side) = some (some pos) :=
      Option.join_eq_some_iff.mp hpos
    have hscan : shadowKey symbol side ∈ w.scan :=
      List.mem_filter.mpr ⟨Dict.mem_keys_of_get hget, isShadowKey_shadowKey symbol side⟩
    exact hkeys (List.mem_append_right keys
      (List.mem_filter.mpr ⟨hscan, decide_eq_true hhere⟩))
  have hpassed' : (Task.scanning cursor keys).Passed table symbol side :=
    ⟨by omega, fun hmem => hkeys (List.mem_append_left _ hmem)⟩
  exact h.passed symbol side hpassed' hsaved

/-- Behind the last slot the scan has passed every key that it did not find. -/
theorem Stands.collected {w : World} {cursor : Nat} {keys : List Text}
    (h : Stands table w (.scanning cursor keys)) (hcursor : ¬ cursor < table.slots) :
    Stands table w (.reading keys []) := by
  refine ⟨fun symbol side hpassed hsaved => ?_, nofun, nofun⟩
  have hslot := table.slot_lt (shadowKey symbol side)
  exact h.passed symbol side ⟨by omega, hpassed.1⟩ hsaved

/-- A position read is active. -/
theorem Stands.read {w : World} (hsound : Sound w) {k : Text} {keys : List Text}
    {active : List (FieldValue × FieldValue)} (h : Stands table w (.reading (k :: keys) active)) :
    Stands table w
      (.reading keys (active ++ (w.loadPosition k).toList.map activePair)) := by
  refine ⟨fun symbol side hpassed hsaved => ?_, nofun, nofun⟩
  rcases hpassed with ⟨hkeys, hactive⟩
  have hother : shadowKey symbol side ≠ k := by
    rintro rfl
    rcases Option.isSome_iff_exists.mp hsaved with ⟨pos, hpos⟩
    refine hactive (List.mem_append_right active ?_)
    rw [hpos, Option.toList_some, List.map_singleton, hsound.filed symbol side pos hpos]
    exact List.mem_singleton_self _
  have hleft : shadowKey symbol side ∉ k :: keys := by
    intro hmem
    rcases List.mem_cons.mp hmem with hfirst | hlater
    · exact hother hfirst
    · exact hkeys hlater
  exact h.passed symbol side ⟨hleft, fun hmem => hactive (List.mem_append_left _ hmem)⟩ hsaved

/-- With all positions read, an open trade without an active one has none. -/
theorem Stands.asked {w : World} (hsound : Sound w) {active : List (FieldValue × FieldValue)}
    (h : Stands table w (.reading [] active)) :
    Stands table w (.updating (orphans w.shadowTrades active)) := by
  refine ⟨nofun, ?_, ?_⟩
  · rintro symbol side ⟨t, ht, rfl, hside⟩ hsaved
    rcases List.mem_filter.mp ht with ⟨hrow, hinactive⟩
    rcases List.mem_filter.mp hrow with ⟨hmem, hopen⟩
    refine h.passed t.symbol side ⟨List.not_mem_nil, fun hactive => ?_⟩ hsaved
      ⟨t, hmem, hopen, rfl, hside⟩
    rw [isActive, hside, List.contains_iff_mem.mpr hactive] at hinactive
    cases hinactive
  · rintro rows heq t ht
    cases heq
    rcases List.mem_filter.mp (List.mem_of_mem_filter ht) with ⟨hmem, hopen⟩
    exact hsound.sides t hmem hopen

/-- The trades left are among those listed. -/
theorem Stands.updated {w : World} {t : Trade} {rows : List Trade}
    (h : Stands table w (.updating (t :: rows))) : Stands table w (.updating rows) := by
  refine ⟨nofun, ?_, ?_⟩
  · rintro symbol side ⟨t', ht', hpair⟩
    exact h.listed symbol side ⟨t', List.mem_cons_of_mem t ht', hpair⟩
  · rintro rows' heq t' ht'
    cases heq
    exact h.sides _ rfl t' (List.mem_cons_of_mem t ht')

/-- A cleanup knows at its next call what it has to know there. -/
theorem turn_stands (now : ℚ) {w : World} (hsound : Sound w) {u : Task} (h : Stands table w u) :
    Stands table (turn table now w u).1 (turn table now w u).2 := by
  cases u with
  | saving o => exact .of_not_cleanup (fun _ _ hp => hp) nofun
  | recording o => exact .of_not_cleanup (fun _ _ hp => hp) nofun
  | closing symbol side e => exact .of_not_cleanup (fun _ _ hp => hp) nofun
  | removing symbol side => exact .of_not_cleanup (fun _ _ hp => hp) nofun
  | done => exact .of_not_cleanup (fun _ _ hp => hp) nofun
  | scanning cursor keys =>
      dsimp only [turn]
      split_ifs with hcursor
      · exact h.scanned
      · exact h.collected hcursor
  | reading keys active =>
      cases keys with
      | cons k keys => exact h.read hsound
      | nil => exact h.asked hsound
  | updating rows =>
      cases rows with
      | nil => exact .of_not_cleanup (fun _ _ hp => hp) nofun
      | cons t rows =>
          exact h.updated.mono (fun _ _ hsaved => hsaved) fun symbol side =>
            Traded.mono fun t' ht' hopen => mem_rows_closeOrphan ht' hopen

/-! ## Runs -/

/-- The invariant of every run whose openings meet the condition. -/
abbrev Knows (table : HashTable) : Pool World Task → Prop :=
  Pool.Inv Sound (Stands table) fun _ _ => True

/-- A task notices of the turn of another one only what the condition excludes. -/
theorem stands_beside {p : Pool World Task} {i : Nat} {now : ℚ} {u v : Task}
    (hcond : OpensUnpassed table p (.turn i now)) (hi : p.tasks[i]? = some u)
    (hv : v ∈ p.tasks) (h : Stands table p.shared v) :
    Stands table (turn table now p.shared u).1 v := by
  rcases turn_world table now p.shared u with ⟨o, rfl, hsave⟩ | ⟨o, rfl, hrecord⟩ | hshrinks
  · rcases hcond _ hi v hv with ⟨hlisted, hpassed⟩
    rw [hsave]
    refine ⟨fun symbol side hp hs ht => ?_, fun symbol side hl hs => ?_, h.sides⟩
    · rcases saved_save hs with hold | ⟨rfl, rfl⟩
      · exact h.passed symbol side hp hold ht
      · exact hpassed hp ht
    · rcases saved_save hs with hold | ⟨rfl, rfl⟩
      · exact h.listed symbol side hl hold
      · exact hlisted hl
  · rw [hrecord]
    refine ⟨fun symbol side hp hs ht => ?_, h.listed, h.sides⟩
    rcases traded_record ht with hold | ⟨rfl, rfl⟩
    · exact h.passed symbol side hp hs hold
    · exact hcond _ hi v hv hp hs
  · exact h.mono (fun symbol side => hshrinks.saved) fun symbol side => Traded.mono hshrinks.rows

/-- Every step that meets the condition keeps the invariant. -/
theorem step_sound {p : Pool World Task} (h : Knows table p) (input : Input)
    (hcond : OpensUnpassed table p input) : Knows table (step table p input) := by
  cases input with
  | «open» o => exact h.spawn (.of_not_cleanup (fun _ _ hp => hp) nofun) fun _ _ => trivial
  | close symbol side e =>
      exact h.spawn (.of_not_cleanup (fun _ _ hp => hp) nofun) fun _ _ => trivial
  | expire symbol side =>
      exact h.spawn (.of_not_cleanup (fun _ _ hp => hp) nofun) fun _ _ => trivial
  | cleanup =>
      refine h.spawn (.of_not_cleanup ?_ nofun) fun _ _ => trivial
      exact fun symbol side hpassed => Nat.not_lt_zero _ hpassed.1
  | turn i now =>
      refine h.turn (fun _ _ _ => trivial) i (fun u hi => ?_) fun u hi v hv _ => ?_
      · exact ⟨turn_world_sound table now h.shared u,
          turn_stands now h.shared (h.each u (List.mem_of_getElem? hi))⟩
      · exact ⟨stands_beside hcond hi hv (h.each v hv), trivial⟩

/-- A cleanup that knows what it should updates only trades without a position. -/
theorem Stands.closesUnbacked {w : World} {u : Task} (h : Stands table w u) :
    u.ClosesUnbacked w := by
  cases u with
  | updating rows =>
      cases rows with
      | nil => trivial
      | cons t rows =>
          rcases h.sides _ rfl t List.mem_cons_self with ⟨side, hside⟩
          have hfree := h.listed t.symbol side ⟨t, List.mem_cons_self, rfl, hside⟩
          have hword : (some t.side).filter (· ≠ []) = some side.word := by
            rw [hside]
            cases side <;> rfl
          have hnone : (w.loadPosition (shadowKey t.symbol side)).isSome = false :=
            Bool.eq_false_iff.mpr hfree
          rw [Task.ClosesUnbacked, World.hasPosition, hword]
          simpa [World.getPosition, key] using hnone
  | _ => trivial

/-- So does the task whose turn it is. -/
theorem Knows.closesUnbacked {p : Pool World Task} (h : Knows table p) (input : Input) :
    ClosesUnbacked p input := by
  cases input with
  | turn i now => exact fun u hi => (h.each u (List.mem_of_getElem? hi)).closesUnbacked
  | _ => trivial

/-- Stored data to start from. -/
structure Start where
  world : World
  sound : Sound world

/-- In every run in which no position is opened behind a cleanup's back, a cleanup updates a
trade only while no position of its symbol and side is in Redis. -/
theorem cleanup_closes_unbacked (table : HashTable) (start : Start) (inputs : List Input)
    (hopens : Admits (step table) (OpensUnpassed table) ⟨start.world, []⟩ inputs) :
    Admits (step table) ClosesUnbacked ⟨start.world, []⟩ inputs := by
  have hstart : Knows table ⟨start.world, []⟩ :=
    ⟨start.sound, fun u hu => absurd hu List.not_mem_nil, List.Pairwise.nil⟩
  exact Admits.of_invariant (fun p input hp hcond => step_sound hp input hcond)
    (fun p input hp _ => Knows.closesUnbacked hp input) hstart hopens

/-- Nothing is stored. -/
def emptyStart : Start where
  world := emptyWorld
  sound := by
    refine ⟨fun symbol side pos h => ?_, fun t ht => absurd ht List.not_mem_nil⟩
    have hnone : emptyWorld.loadPosition (shadowKey symbol side) = none := rfl
    rw [hnone] at h
    cases h

/-- A hash table of one slot. -/
def oneSlot : HashTable where
  slots := 1
  slot := fun _ => 0
  slot_lt := fun _ => Nat.zero_lt_one

/-- A long position in BTC/USDT. -/
def btcLong : Opening where
  symbol := "BTC/USDT".toList
  direction := .LONG
  fillPrice := 100
  amount := 1
  atr := 1
  score := 70
  regime := "TREND".toList
  riskProfileJson := []
  virtualSl := some 98
  virtualTp := none
  saveClocks := ([], [], [])
  recordClock := 0

/-- The position is there and its trade recorded, and the key is gone; then a cleanup. -/
def orphanLeft : List Input :=
  [.open btcLong, .turn 0 0, .turn 0 0, .expire btcLong.symbol btcLong.direction.word, .turn 1 0,
    .cleanup, .turn 2 0, .turn 2 0, .turn 2 0, .turn 2 0]

/-- The cleanup of an expired position closes its trade, and no position is there. -/
theorem cleanup_closes_unbacked_expired :
    Admits (step oneSlot) ClosesUnbacked ⟨emptyStart.world, []⟩ orphanLeft :=
  cleanup_closes_unbacked oneSlot emptyStart orphanLeft (by decide +kernel)

/-- A handler saves and records its position while a cleanup is between its scan and its
query. -/
def openedBehindScan : List Input :=
  [.open btcLong, .cleanup, .turn 1 0, .turn 1 0, .turn 0 0, .turn 0 0, .turn 1 0, .turn 1 0]

/-- The cleanup closes the trade of the position just opened. -/
theorem cleanup_closes_backed :
    ¬ Admits (step oneSlot) ClosesUnbacked ⟨emptyStart.world, []⟩ openedBehindScan := by
  decide +kernel

end OrphanCleanup
end ShadowStores
end Karsa
