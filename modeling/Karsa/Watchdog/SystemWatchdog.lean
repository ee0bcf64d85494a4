import Karsa.Core.PositionStore
import Karsa.Foundations.Dicts

/-!
# System watchdog - Position desync

Every fifteen seconds `SystemWatchdog` compares the position store with the
exchange and writes the global halt when they differ.  Both sides are indexed by
`symbol:side` in their own words: records are keyed `BTC/USDT:LONG`, exchange
positions `BTCUSDT:buy`.

Main results:

- Theorem `watchKey_ne`: a record and an exchange position never share a key.
- Theorem `checkPositionDesync_exact_iff`: the check is exact exactly when no record
  stands for a position on the exchange.
-/

namespace Karsa
namespace Watchdog

open Bybit

/-! ## The comparison -/

/-- One value of the two maps. -/
structure Holding where
  symbol : Text
  side : Text
  qty : ℚ
deriving Repr, DecidableEq

/-- `f"{sym}:{side}"`. -/
def watchKey (symbol side : Text) : Text :=
  symbol ++ ':' :: side

/-- The key of a holding. -/
def Holding.key (h : Holding) : Text :=
  watchKey h.symbol h.side

/-- `qty != 0.0 and sym`. -/
def Holding.counts (h : Holding) : Bool :=
  decide (h.qty ≠ 0 ∧ h.symbol ≠ [])

/-- What the check reads of a record. -/
def ofRecord (r : PositionRecord) : Holding :=
  ⟨r.symbol, r.side.word, r.amount⟩

/-- What the check reads of an exchange position. -/
def ofPosition (p : ExchangePosition) : Holding :=
  ⟨p.symbol, p.side.word, p.contracts⟩

/-- `redis_map` and `bybit_map`: the holdings that count, by key. -/
def holdingMap (holdings : List Holding) : Dict Text Holding :=
  Dict.index ((holdings.filter Holding.counts).map fun h => (h.key, h))

/-- One difference found. -/
inductive Desync where
  | orphan (symbol side : Text) (qty : ℚ)
  | phantom (symbol side : Text) (qty : ℚ)
  | qtyMismatch (key : Text) (redis bybit : ℚ)
deriving Repr, DecidableEq

/-- Text of a difference; `repr` writes a float. -/
def Desync.text (repr : ℚ → Text) : Desync → Text
  | .orphan symbol side qty =>
      "orphan:".toList ++ symbol ++ ':' :: side ++ ':' :: repr qty
  | .phantom symbol side qty =>
      "phantom:".toList ++ symbol ++ ':' :: side ++ ':' :: repr qty
  | .qtyMismatch key redis bybit =>
      "qty_mismatch:".toList ++ key ++ ":redis=".toList ++ repr redis ++
        ":bybit=".toList ++ repr bybit

/-- Tolerance of the quantity comparison. -/
def qtyTolerance : ℚ := 1 / 100000000

/-- Holdings of one map whose key is not in the other. -/
def missingFrom (others : Dict Text Holding) (holdings : Dict Text Holding) : List Holding :=
  (holdings.filter fun item => decide (item.1 ∉ others.keys)).map Prod.snd

/-- Differences of two maps. -/
def desyncs (redis bybit : Dict Text Holding) : List Desync :=
  (missingFrom redis bybit).map (fun h => .orphan h.symbol h.side h.qty) ++
    (missingFrom bybit redis).map (fun h => .phantom h.symbol h.side h.qty) ++
      redis.filterMap fun item =>
        (bybit.lookup item.1).bind fun h =>
          if qtyTolerance < |item.2.qty - h.qty| then
            some (.qtyMismatch item.1 item.2.qty h.qty)
          else none

/-- `_check_position_desync` on what it read, `none` for a read that raised. -/
def checkPositionDesync (read : Option (List PositionRecord × List ExchangePosition)) :
    Option (List Desync) :=
  match read with
  | none => none
  | some (records, positions) =>
      match desyncs (holdingMap (records.map ofRecord)) (holdingMap (positions.map ofPosition)) with
      | [] => none
      | first :: rest => some (first :: rest)

/-- The returned text. -/
def desyncText (repr : ℚ → Text) (found : List Desync) : Text :=
  "position_content_desync: ".toList ++
    List.intercalate "; ".toList (found.map (Desync.text repr))

/-! ## What it should find -/

section Exactness

/-- The record stands for the exchange position: one instrument, one direction. -/
def SamePosition (t : InstrumentTables) (r : PositionRecord) (p : ExchangePosition) : Prop :=
  t.toBybitSymbol r.symbol = p.symbol ∧ r.side = Side.ofOrderSide p.side

instance (t : InstrumentTables) (r : PositionRecord) (p : ExchangePosition) :
    Decidable (SamePosition t r p) :=
  inferInstanceAs (Decidable (_ ∧ _))

variable (t : InstrumentTables) (records : List PositionRecord)
  (positions : List ExchangePosition)

/-- Records with a quantity. -/
def heldRecords : List PositionRecord :=
  records.filter fun r => (ofRecord r).counts

/-- Exchange positions with a quantity. -/
def heldPositions : List ExchangePosition :=
  positions.filter fun p => (ofPosition p).counts

/-- No record stands for the exchange position. -/
def Orphaned (p : ExchangePosition) : Prop :=
  p ∈ heldPositions positions ∧ ∀ r ∈ heldRecords records, ¬ SamePosition t r p

/-- The record stands for no exchange position. -/
def Phantom (r : PositionRecord) : Prop :=
  r ∈ heldRecords records ∧ ∀ p ∈ heldPositions positions, ¬ SamePosition t r p

/-- Record and exchange position disagree on the quantity. -/
def Mismatched (r : PositionRecord) (p : ExchangePosition) : Prop :=
  r ∈ heldRecords records ∧ p ∈ heldPositions positions ∧ SamePosition t r p ∧
    qtyTolerance < |r.amount - p.contracts|

/-- Store and exchange contain the same positions. -/
def InSync : Prop :=
  (∀ p, ¬ Orphaned t records positions p) ∧ (∀ r, ¬ Phantom t records positions r) ∧
    ∀ r p, ¬ Mismatched t records positions r p

/-- The result is `none` exactly for the same positions, and names exactly the
orphaned, phantom and mismatched ones otherwise. -/
structure Exact (result : Option (List Desync)) : Prop where
  none_iff : result = none ↔ InSync t records positions
  orphans : ∀ found ∈ result, ∀ symbol side,
    (∃ qty, .orphan symbol side qty ∈ found) ↔
      ∃ p, Orphaned t records positions p ∧ p.symbol = symbol ∧ p.side.word = side
  phantoms : ∀ found ∈ result, ∀ symbol side,
    (∃ qty, .phantom symbol side qty ∈ found) ↔
      ∃ r, Phantom t records positions r ∧ r.symbol = symbol ∧ r.side.word = side
  mismatches : ∀ found ∈ result, ∀ key,
    (∃ redis bybit, .qtyMismatch key redis bybit ∈ found) ↔
      ∃ r p, Mismatched t records positions r p ∧ watchKey r.symbol r.side.word = key

/-- No record stands for a position on the exchange. -/
def Unrelated : Prop :=
  ∀ r ∈ heldRecords records, ∀ p ∈ heldPositions positions, ¬ SamePosition t r p

end Exactness

/-! ## Keys of the two vocabularies -/

/-- A key ends in the last letter of its side word. -/
theorem getLast?_watchKey (symbol : Text) {side : Text} (h : side ≠ []) :
    (watchKey symbol side).getLast? = side.getLast? := by
  have hkey : watchKey symbol side = (symbol ++ [':']) ++ side := by simp [watchKey]
  rw [hkey, List.getLast?_append_of_ne_nil _ h]

/-- A record and an exchange position never share a key. -/
theorem watchKey_ne (symbol symbol' : Text) (side : Side) (apiSide : OrderSide) :
    watchKey symbol side.word ≠ watchKey symbol' apiSide.word := by
  intro heq
  have hside : side.word ≠ [] ∧ apiSide.word ≠ [] := by
    cases side <;> cases apiSide <;> decide
  have hlast := congrArg List.getLast? heq
  rw [getLast?_watchKey symbol hside.1, getLast?_watchKey symbol' hside.2] at hlast
  revert hlast
  cases side <;> cases apiSide <;> decide

/-- Keys whose side words end in different letters tell symbol and side. -/
theorem watchKey_inj {ι : Type} {word : ι → Text} (hne : ∀ i, word i ≠ [])
    (hlast : ∀ i j, (word i).getLast? = (word j).getLast? → i = j)
    {symbol symbol' : Text} {i j : ι} (heq : watchKey symbol (word i) = watchKey symbol' (word j)) :
    symbol = symbol' ∧ i = j := by
  have hside : i = j := by
    apply hlast i j
    rw [← getLast?_watchKey symbol (hne i), heq, getLast?_watchKey symbol' (hne j)]
  subst hside
  exact ⟨List.append_cancel_right heq, rfl⟩

/-- Canonical keys tell symbol and side. -/
theorem watchKey_word_inj {symbol symbol' : Text} {side side' : Side}
    (heq : watchKey symbol side.word = watchKey symbol' side'.word) :
    symbol = symbol' ∧ side = side' := by
  refine watchKey_inj (fun side => ?_) (fun side side' => ?_) heq
  · cases side <;> decide
  · cases side <;> cases side' <;> decide

/-- So do the exchange's keys. -/
theorem watchKey_orderWord_inj {symbol symbol' : Text} {side side' : OrderSide}
    (heq : watchKey symbol side.word = watchKey symbol' side'.word) :
    symbol = symbol' ∧ side = side' := by
  refine watchKey_inj (fun side => ?_) (fun side side' => ?_) heq
  · cases side <;> decide
  · cases side <;> cases side' <;> decide

/-! ## The two maps -/

section Entries

variable {α : Type} {holding : α → Holding} {list : List α}

/-- An entry of a map comes from a holding that counts, under its own key. -/
theorem exists_of_mem_holdingMap {item : Text × Holding}
    (h : item ∈ holdingMap (list.map holding)) :
    ∃ x ∈ list.filter fun x => (holding x).counts, item = ((holding x).key, holding x) := by
  rcases List.mem_map.mp (Dict.mem_of_mem_index h) with ⟨found, hfound, rfl⟩
  rcases List.mem_filter.mp hfound with ⟨hmem, hcounts⟩
  rcases List.mem_map.mp hmem with ⟨x, hx, rfl⟩
  exact ⟨x, List.mem_filter.mpr ⟨hx, hcounts⟩, rfl⟩

/-- A holding that counts has an entry under its key. -/
theorem exists_mem_holdingMap {x : α} (h : x ∈ list.filter fun x => (holding x).counts) :
    ∃ found, ((holding x).key, found) ∈ holdingMap (list.map holding) := by
  rcases List.mem_filter.mp h with ⟨hx, hcounts⟩
  have hitem : ((holding x).key, holding x) ∈
      ((list.map holding).filter Holding.counts).map fun h => (h.key, h) :=
    List.mem_map_of_mem (List.mem_filter.mpr ⟨List.mem_map_of_mem hx, hcounts⟩)
  exact Dict.exists_mem_index hitem

/-- Where keys tell symbol and side, the entries show these of all holdings that count. -/
theorem exists_entry_iff
    (hkey : ∀ x y, (holding x).key = (holding y).key →
      (holding x).symbol = (holding y).symbol ∧ (holding x).side = (holding y).side)
    {symbol side : Text} :
    (∃ item ∈ holdingMap (list.map holding), item.2.symbol = symbol ∧ item.2.side = side) ↔
      ∃ x ∈ list.filter fun x => (holding x).counts,
        (holding x).symbol = symbol ∧ (holding x).side = side := by
  constructor
  · rintro ⟨item, hitem, hnames⟩
    rcases exists_of_mem_holdingMap hitem with ⟨x, hx, rfl⟩
    exact ⟨x, hx, hnames⟩
  · rintro ⟨x, hx, rfl, rfl⟩
    rcases exists_mem_holdingMap hx with ⟨found, hentry⟩
    rcases exists_of_mem_holdingMap hentry with ⟨y, -, heq⟩
    rcases Prod.ext_iff.mp heq with ⟨hsame, hfound⟩
    dsimp only at hsame hfound
    subst hfound
    rcases hkey x y hsame with ⟨hsymbol, hside⟩
    exact ⟨_, hentry, hsymbol.symm, hside.symm⟩

end Entries

section Maps

variable {records : List PositionRecord} {positions : List ExchangePosition}

/-- A key of one map is not in the other. -/
theorem holdingMap_disjoint {record position : Text × Holding}
    (hrecord : record ∈ holdingMap (records.map ofRecord))
    (hposition : position ∈ holdingMap (positions.map ofPosition)) : record.1 ≠ position.1 := by
  rcases exists_of_mem_holdingMap hrecord with ⟨r, -, rfl⟩
  rcases exists_of_mem_holdingMap hposition with ⟨p, -, rfl⟩
  exact watchKey_ne _ _ _ _

/-- Where no key is shared, every holding is missing from the other map. -/
theorem missingFrom_eq {others holdings : Dict Text Holding}
    (hdisjoint : ∀ item ∈ holdings, ∀ other ∈ others, item.1 ≠ other.1) :
    missingFrom others holdings = holdings.map Prod.snd := by
  unfold missingFrom
  congr 1
  apply List.filter_eq_self.mpr
  intro item hitem
  apply decide_eq_true
  intro hkey
  rcases List.mem_map.mp hkey with ⟨other, hother, heq⟩
  exact hdisjoint item hitem other hother heq.symm

/-- The check reports every exchange position as an orphan, every record as a phantom
and nothing else. -/
theorem desyncs_eq (records : List PositionRecord) (positions : List ExchangePosition) :
    desyncs (holdingMap (records.map ofRecord)) (holdingMap (positions.map ofPosition)) =
      (holdingMap (positions.map ofPosition)).map
          (fun item => .orphan item.2.symbol item.2.side item.2.qty) ++
        (holdingMap (records.map ofRecord)).map
          (fun item => .phantom item.2.symbol item.2.side item.2.qty) := by
  have horphans : missingFrom (holdingMap (records.map ofRecord))
      (holdingMap (positions.map ofPosition)) = _ :=
    missingFrom_eq fun p hp r hr => (holdingMap_disjoint hr hp).symm
  have hphantoms : missingFrom (holdingMap (positions.map ofPosition))
      (holdingMap (records.map ofRecord)) = _ :=
    missingFrom_eq fun r hr p hp => holdingMap_disjoint hr hp
  have hmatched : (holdingMap (records.map ofRecord)).filterMap (fun item =>
      ((holdingMap (positions.map ofPosition)).lookup item.1).bind fun h =>
        if qtyTolerance < |item.2.qty - h.qty| then
          some (Desync.qtyMismatch item.1 item.2.qty h.qty)
        else none) = [] := by
    apply List.filterMap_eq_nil_iff.mpr
    intro item hitem
    have hlookup : (holdingMap (positions.map ofPosition)).lookup item.1 = none := by
      apply List.lookup_eq_none_iff.mpr
      intro p hp
      simpa using holdingMap_disjoint hitem hp
    rw [hlookup, Option.bind_none]
  unfold desyncs
  rw [horphans, hphantoms, hmatched, List.append_nil, List.map_map, List.map_map]
  rfl

/-- Orphans reported: all held positions. -/
theorem orphan_mem_iff {symbol side : Text} :
    (∃ qty, .orphan symbol side qty ∈ desyncs (holdingMap (records.map ofRecord))
        (holdingMap (positions.map ofPosition))) ↔
      ∃ p ∈ heldPositions positions, p.symbol = symbol ∧ p.side.word = side := by
  have hkey : ∀ p q : ExchangePosition, (ofPosition p).key = (ofPosition q).key →
      p.symbol = q.symbol ∧ p.side.word = q.side.word := fun p q heq =>
    (watchKey_orderWord_inj heq).imp_right (congrArg OrderSide.word)
  refine Iff.trans ?_ (exists_entry_iff hkey)
  simp only [desyncs_eq, List.mem_append, List.mem_map, reduceCtorEq, and_false, exists_false,
    or_false, Desync.orphan.injEq]
  constructor
  · rintro ⟨qty, item, hitem, hsymbol, hside, -⟩
    exact ⟨item, hitem, hsymbol, hside⟩
  · rintro ⟨item, hitem, hsymbol, hside⟩
    exact ⟨item.2.qty, item, hitem, hsymbol, hside, rfl⟩

/-- Phantoms reported: all held records. -/
theorem phantom_mem_iff {symbol side : Text} :
    (∃ qty, .phantom symbol side qty ∈ desyncs (holdingMap (records.map ofRecord))
        (holdingMap (positions.map ofPosition))) ↔
      ∃ r ∈ heldRecords records, r.symbol = symbol ∧ r.side.word = side := by
  have hkey : ∀ r r' : PositionRecord, (ofRecord r).key = (ofRecord r').key →
      r.symbol = r'.symbol ∧ r.side.word = r'.side.word := fun r r' heq =>
    (watchKey_word_inj heq).imp_right (congrArg Side.word)
  refine Iff.trans ?_ (exists_entry_iff hkey)
  simp only [desyncs_eq, List.mem_append, List.mem_map, reduceCtorEq, and_false, exists_false,
    false_or, Desync.phantom.injEq]
  constructor
  · rintro ⟨qty, item, hitem, hsymbol, hside, -⟩
    exact ⟨item, hitem, hsymbol, hside⟩
  · rintro ⟨item, hitem, hsymbol, hside⟩
    exact ⟨item.2.qty, item, hitem, hsymbol, hside, rfl⟩

/-- No mismatch is ever reported. -/
theorem qtyMismatch_not_mem {key : Text} {redis bybit : ℚ} :
    .qtyMismatch key redis bybit ∉ desyncs (holdingMap (records.map ofRecord))
      (holdingMap (positions.map ofPosition)) := by
  simp [desyncs_eq]

/-- Nothing is reported exactly when nothing is held on either side. -/
theorem desyncs_eq_nil_iff :
    desyncs (holdingMap (records.map ofRecord)) (holdingMap (positions.map ofPosition)) = [] ↔
      heldPositions positions = [] ∧ heldRecords records = [] := by
  constructor
  · intro hnil
    constructor
    · apply List.eq_nil_iff_forall_not_mem.mpr
      intro p hp
      rcases (@orphan_mem_iff records _ _ _).mpr ⟨p, hp, rfl, rfl⟩ with ⟨qty, hmem⟩
      rw [hnil] at hmem
      cases hmem
    · apply List.eq_nil_iff_forall_not_mem.mpr
      intro r hr
      rcases (@phantom_mem_iff _ positions _ _).mpr ⟨r, hr, rfl, rfl⟩ with ⟨qty, hmem⟩
      rw [hnil] at hmem
      cases hmem
  · rintro ⟨hpositions, hrecords⟩
    apply List.eq_nil_iff_forall_not_mem.mpr
    intro found hfound
    cases found with
    | orphan symbol side qty =>
        rcases orphan_mem_iff.mp ⟨qty, hfound⟩ with ⟨p, hp, -⟩
        rw [hpositions] at hp
        cases hp
    | phantom symbol side qty =>
        rcases phantom_mem_iff.mp ⟨qty, hfound⟩ with ⟨r, hr, -⟩
        rw [hrecords] at hr
        cases hr
    | qtyMismatch key redis bybit => exact qtyMismatch_not_mem hfound

end Maps

/-! ## Exactness -/

section Exactness

variable {t : InstrumentTables} {records : List PositionRecord}
  {positions : List ExchangePosition}

/-- The check on two delivered lists. -/
theorem checkPositionDesync_eq_none_iff :
    checkPositionDesync (some (records, positions)) = none ↔
      desyncs (holdingMap (records.map ofRecord)) (holdingMap (positions.map ofPosition)) =
        [] := by
  unfold checkPositionDesync
  dsimp only
  split
  · rename_i hnil
    simp [hnil]
  · rename_i first rest hcons
    simp [hcons]

/-- What it reports are the differences of the two maps. -/
theorem checkPositionDesync_mem {found : List Desync}
    (h : found ∈ checkPositionDesync (some (records, positions))) :
    found = desyncs (holdingMap (records.map ofRecord))
      (holdingMap (positions.map ofPosition)) := by
  unfold checkPositionDesync at h
  dsimp only at h
  split at h
  · cases h
  · rename_i first rest hcons
    rw [hcons]
    exact (Option.some.inj h).symm

/-- Positions without a counterpart make a desync unless nothing is held. -/
theorem inSync_iff_of_unrelated (hunrelated : Unrelated t records positions) :
    InSync t records positions ↔ heldPositions positions = [] ∧ heldRecords records = [] := by
  constructor
  · rintro ⟨horphans, hphantoms, -⟩
    constructor
    · apply List.eq_nil_iff_forall_not_mem.mpr
      intro p hp
      exact horphans p ⟨hp, fun r hr => hunrelated r hr p hp⟩
    · apply List.eq_nil_iff_forall_not_mem.mpr
      intro r hr
      exact hphantoms r ⟨hr, hunrelated r hr⟩
  · rintro ⟨hpositions, hrecords⟩
    refine ⟨?_, ?_, ?_⟩
    · rintro p ⟨hp, -⟩
      rw [hpositions] at hp
      cases hp
    · rintro r ⟨hr, -⟩
      rw [hrecords] at hr
      cases hr
    · rintro r p ⟨hr, -⟩
      rw [hrecords] at hr
      cases hr

/-- The check is exact for lists that have no position in common. -/
theorem exact_of_unrelated (hunrelated : Unrelated t records positions) :
    Exact t records positions (checkPositionDesync (some (records, positions))) where
  none_iff := by
    rw [checkPositionDesync_eq_none_iff, desyncs_eq_nil_iff, inSync_iff_of_unrelated hunrelated]
  orphans := by
    intro found hfound symbol side
    rw [checkPositionDesync_mem hfound, orphan_mem_iff]
    constructor
    · rintro ⟨p, hp, hsymbol, hside⟩
      exact ⟨p, ⟨hp, fun r hr => hunrelated r hr p hp⟩, hsymbol, hside⟩
    · rintro ⟨p, ⟨hp, -⟩, hsymbol, hside⟩
      exact ⟨p, hp, hsymbol, hside⟩
  phantoms := by
    intro found hfound symbol side
    rw [checkPositionDesync_mem hfound, phantom_mem_iff]
    constructor
    · rintro ⟨r, hr, hsymbol, hside⟩
      exact ⟨r, ⟨hr, hunrelated r hr⟩, hsymbol, hside⟩
    · rintro ⟨r, ⟨hr, -⟩, hsymbol, hside⟩
      exact ⟨r, hr, hsymbol, hside⟩
  mismatches := by
    intro found hfound key
    rw [checkPositionDesync_mem hfound]
    constructor
    · rintro ⟨redis, bybit, hmem⟩
      exact (qtyMismatch_not_mem hmem).elim
    · rintro ⟨r, p, ⟨hr, hp, hsame, -⟩, -⟩
      exact (hunrelated r hr p hp hsame).elim

/-- A position of a record is reported as an orphan, so that an exact check has seen none. -/
theorem unrelated_of_exact {t : InstrumentTables} {store : PositionStore}
    {list : List RawPosition}
    (hexact : Exact t store.listAll (fetchPositions list)
      (checkPositionDesync (some (store.listAll, fetchPositions list)))) :
    Unrelated t store.listAll (fetchPositions list) := by
  intro r hr p hp hsame
  cases hresult : checkPositionDesync (some (store.listAll, fetchPositions list)) with
  | none =>
      have hnil := checkPositionDesync_eq_none_iff.mp hresult
      rw [(desyncs_eq_nil_iff.mp hnil).1] at hp
      cases hp
  | some found =>
      have hfound : found ∈ checkPositionDesync (some (store.listAll, fetchPositions list)) :=
        hresult
      have hreported : ∃ qty, .orphan p.symbol p.side.word qty ∈ found := by
        rw [checkPositionDesync_mem hfound]
        exact orphan_mem_iff.mpr ⟨p, hp, rfl, rfl⟩
      rcases (hexact.orphans found hfound _ _).mp hreported with
        ⟨p', ⟨-, hnone⟩, hsymbol, hside⟩
      have hword : watchKey p'.symbol p'.side.word = watchKey p.symbol p.side.word := by
        rw [hsymbol, hside]
      rcases watchKey_orderWord_inj hword with ⟨-, hsame'⟩
      apply hnone r hr
      exact ⟨hsame.1.trans hsymbol.symm, by rw [hsame', hsame.2]⟩

/-- The check is exact exactly when no record stands for an exchange position. -/
theorem checkPositionDesync_exact_iff (t : InstrumentTables) (store : PositionStore)
    (list : List RawPosition) :
    Exact t store.listAll (fetchPositions list)
        (checkPositionDesync (some (store.listAll, fetchPositions list))) ↔
      Unrelated t store.listAll (fetchPositions list) :=
  ⟨unrelated_of_exact, exact_of_unrelated⟩

end Exactness

/-- A long of one bitcoin on both sides: same instrument, direction and size. -/
theorem checkPositionDesync_false_alarm :
    ¬ ∀ (t : InstrumentTables) (store : PositionStore) (list : List RawPosition),
      Exact t store.listAll (fetchPositions list)
        (checkPositionDesync (some (store.listAll, fetchPositions list))) := by
  intro h
  have hexact := h .empty
    (PositionStore.save ∅ "BTC/USDT".toList Side.LONG.word 100 1 none none none 0 0)
    [{ symbol := "BTCUSDT".toList, side := .Buy, size := some (.value 1),
       avgPrice := some (.value 100), unrealisedPnl := none, stopLoss := none,
       takeProfit := none, trailingStop := none, liqPrice := none }]
  have hunrelated := unrelated_of_exact hexact
  revert hunrelated
  unfold Unrelated
  decide +kernel

/-! ## The cycle -/

/-- State of the watchdog; a time of zero means that nothing was recorded yet. -/
structure WatchdogState where
  halted : Bool
  lastBalanceTs : ℚ
  lastOrderbookTs : ℚ
deriving Repr, DecidableEq

/-- A desync that `_check_all` collects. -/
inductive Alarm where
  | positions (found : List Desync)
  | balanceStale (elapsed : ℚ)
  | orderbookStale (elapsed : ℚ)
deriving Repr, DecidableEq

/-- `_check_balance_staleness` and `_check_orderbook_staleness`: a feed that was seen
once and has been silent for longer than the limit. -/
def staleness (limit last now : ℚ) : Option ℚ :=
  if last = 0 then none
  else if limit < now - last then some (now - last)
  else none

/-- What one cycle meets: the halt key, `none` where the read raised, the two
lists, and whether the halt could be written. -/
structure CycleAnswers where
  now : ℚ
  haltKey : Option (Option Text)
  read : Option (List PositionRecord × List ExchangePosition)
  haltWritten : Bool

/-- The alarms of one cycle, in the order of the checks. -/
def alarms (w : WatchdogState) (a : CycleAnswers) : List Alarm :=
  ((checkPositionDesync a.read).map Alarm.positions).toList ++
    ((staleness 60 w.lastBalanceTs a.now).map Alarm.balanceStale).toList ++
      ((staleness 30 w.lastOrderbookTs a.now).map Alarm.orderbookStale).toList

/-- `_is_already_halted`: a failed read counts as not halted. -/
def alreadyHalted (a : CycleAnswers) : Bool :=
  decide ((a.haltKey.getD none).getD [] ≠ [])

/-- Does the cycle run `_trigger_halt`? -/
def triggers (w : WatchdogState) (a : CycleAnswers) : Bool :=
  !alreadyHalted a && !(alarms w a).isEmpty

/-- `_check_all`: the watchdog's own flag, and whether the halt key was written. -/
def checkAll (w : WatchdogState) (a : CycleAnswers) : WatchdogState × Bool :=
  if alreadyHalted a then ({ w with halted := true }, false)
  else if triggers w a then ({ w with halted := true }, a.haltWritten)
  else (w, false)

end Watchdog
end Karsa
