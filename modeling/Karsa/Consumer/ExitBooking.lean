import Karsa.Core.PositionRecord
import Karsa.Foundations.Runs
import Mathlib.Data.List.Nodup
import Mathlib.Logic.Function.Basic

/-!
# Live loop - Booking closed positions

`_position_exit_loop` finds positions that have left the exchange, books each in the trade
store and removes its record; `_force_close_position` closes a position, writes the exit
price into the record and removes it too.  The loop keeps a dedup key for sixty seconds per
symbol and side, and `close_trade` without an id closes the latest open row of the symbol.

The system is that of one symbol.  Positions are numbered in the order in which they are
opened, and records and rows carry the number of their position.

Main results:

- Theorem `closeTrade_spec`: which row a booking closes.
- Theorem `step_orderly`: one step of either task keeps the books in order.
- Theorem `closedPositions_booked_once`: runs in which every closed position is booked once.
-/

namespace Karsa
namespace Booking

/-! ## The trade store -/

/-- A row of `trades`; without an exit it is open. -/
structure TradeRow where
  position : Nat
  exitPrice : Option ℚ
deriving Repr, DecidableEq

/-- `TradeStore.close_trade` without an id: the latest open row is closed.  Rows stand in
the order of their entry times.  `none` is an update of no row. -/
def closeTrade (exitPrice : ℚ) : List TradeRow → Option (Nat × List TradeRow)
  | [] => none
  | row :: rest =>
      match closeTrade exitPrice rest with
      | some (closed, rest') => some (closed, row :: rest')
      | none =>
          if row.exitPrice = none then
            some (row.position, { row with exitPrice := some exitPrice } :: rest)
          else none

/-- A call of `close_trade` for the record of a position, with the row it closed. -/
structure CloseCall where
  position : Nat
  row : Option Nat
deriving Repr, DecidableEq

/-! ## State -/

/-- A stored record: its position and the exit price the manager may have written. -/
structure StoredRecord where
  position : Nat
  exitPrice : Option ℚ
deriving Repr, DecidableEq

/-- Where the exit loop stands; `held` tells the sides that were in its exchange list. -/
inductive LoopPhase where
  | idle
  | fetched (held : Side → Bool)
  | listed (held : Side → Bool) (rest : List (Side × StoredRecord))
  | due (held : Side → Bool) (rest : List (Side × StoredRecord)) (side : Side) (r : StoredRecord)
  | booking (held : Side → Bool) (rest : List (Side × StoredRecord)) (side : Side)
      (r : StoredRecord)
  | removing (held : Side → Bool) (rest : List (Side × StoredRecord)) (side : Side)
      (r : StoredRecord)

/-- Where a force close of the manager stands. -/
inductive ApmPhase where
  | idle
  | holding (side : Side) (r : StoredRecord)
  | closed (side : Side) (r : StoredRecord) (fill : ℚ)
  | removing (side : Side) (r : StoredRecord)

/-- Exchange, store, trade rows and dedup keys with the variables of both tasks; `tracked`
and `bookings` are history. -/
structure BookState where
  now : ℚ
  held : Side → Option Nat
  nextPosition : Nat
  store : Side → Option StoredRecord
  rows : List TradeRow
  dedupUntil : Side → Option ℚ
  exitLoop : LoopPhase
  apm : ApmPhase
  tracked : List Nat
  bookings : List CloseCall

/-- Nothing open, stored or recorded. -/
def BookState.start (now : ℚ) : BookState where
  now := now
  held := fun _ => none
  nextPosition := 0
  store := fun _ => none
  rows := []
  dedupUntil := fun _ => none
  exitLoop := .idle
  apm := .idle
  tracked := []
  bookings := []

/-! ## Steps -/

/-- What happens next: time passes, a position is opened, recorded or closed, or one of
the two tasks goes on to its next await. -/
inductive BookInput where
  | elapse (seconds : ℚ≥0)
  | opens (side : Side)
  | saves (side : Side) (position : Nat)
  | records (position : Nat)
  | stops (side : Side)
  | exitFetch
  | exitList (order : List Side)
  | exitNext
  | exitDedup (answered : Bool)
  | exitBook (exitPrice : ℚ) (answered : Bool)
  | exitRemove
  | exitAborts
  | apmHolds (side : Side)
  | apmMarket (fill : Option ℚ)
  | apmStore
  | apmRemove

/-- Write a record under its side. -/
def BookState.write (s : BookState) (side : Side) (r : StoredRecord) : BookState :=
  { s with
    store := Function.update s.store side (some r)
    tracked := r.position :: s.tracked }

/-- Delete the record of a side. -/
def BookState.delete (s : BookState) (side : Side) : BookState :=
  { s with store := Function.update s.store side none }

/-- A position is opened on a side that has none. -/
def opens (side : Side) (s : BookState) : BookState :=
  match s.held side with
  | some _ => s
  | none =>
      { s with
        held := Function.update s.held side (some s.nextPosition)
        nextPosition := s.nextPosition + 1 }

/-- `record_entry` for a position that has no row yet. -/
def records (position : Nat) (s : BookState) : BookState :=
  if position ∈ s.rows.map TradeRow.position then s
  else { s with rows := s.rows ++ [⟨position, none⟩] }

/-- The next listed record: skipped when its side was in the exchange list. -/
def exitNext (s : BookState) : BookState :=
  match s.exitLoop with
  | .listed held ((side, r) :: rest) =>
      if held side then { s with exitLoop := .listed held rest }
      else { s with exitLoop := .due held rest side r }
  | .listed _ [] => { s with exitLoop := .idle }
  | _ => s

/-- Is the dedup key of the side alive? -/
def alreadySent (s : BookState) (side : Side) : Bool :=
  (s.dedupUntil side).any fun expiry => decide (s.now < expiry)

/-- The dedup guard; without an answer from Redis it lets the booking through. -/
def exitDedup (answered : Bool) (s : BookState) : BookState :=
  match s.exitLoop with
  | .due held rest side r =>
      if answered then
        if alreadySent s side then { s with exitLoop := .removing held rest side r }
        else
          { s with
            dedupUntil := Function.update s.dedupUntil side (some (s.now + 60))
            exitLoop := .booking held rest side r }
      else { s with exitLoop := .booking held rest side r }
  | _ => s

/-- `close_trade` with the stored exit price, or the one found elsewhere. -/
def exitBook (exitPrice : ℚ) (answered : Bool) (s : BookState) : BookState :=
  match s.exitLoop with
  | .booking held rest side r =>
      let s := { s with exitLoop := .removing held rest side r }
      if answered then
        match closeTrade (r.exitPrice.getD exitPrice) s.rows with
        | none => { s with bookings := s.bookings ++ [⟨r.position, none⟩] }
        | some (closed, rows) =>
            { s with
              rows := rows
              bookings := s.bookings ++ [⟨r.position, some closed⟩] }
      else s
  | _ => s

/-- The loop removes the record's key. -/
def exitRemove (s : BookState) : BookState :=
  match s.exitLoop with
  | .removing held rest side _ => { s.delete side with exitLoop := .listed held rest }
  | _ => s

/-- The manager takes a record it has read into a force close. -/
def apmHolds (side : Side) (s : BookState) : BookState :=
  match s.apm, s.store side with
  | .idle, some r => { s with apm := .holding side r }
  | _, _ => s

/-- The market order of a force close: a failure writes the record back with a retry
time. -/
def apmMarket (fill : Option ℚ) (s : BookState) : BookState :=
  match s.apm with
  | .holding side r =>
      match fill with
      | none => { s.write side r with apm := .idle }
      | some price =>
          { s with
            held := Function.update s.held side none
            apm := .closed side r price }
  | _ => s

/-- Store the exit price when there is one. -/
def apmStore (s : BookState) : BookState :=
  match s.apm with
  | .closed side r fill =>
      if 0 < fill then
        { s.write side { r with exitPrice := some fill } with apm := .removing side r }
      else { s with apm := .removing side r }
  | _ => s

/-- The manager removes the record's key. -/
def apmRemove (s : BookState) : BookState :=
  match s.apm with
  | .removing side _ => { s.delete side with apm := .idle }
  | _ => s

/-- One step of the system. -/
def step (s : BookState) : BookInput → BookState
  | .elapse seconds => { s with now := s.now + seconds }
  | .opens side => opens side s
  | .saves side position => s.write side ⟨position, none⟩
  | .records position => records position s
  | .stops side => { s with held := Function.update s.held side none }
  | .exitFetch =>
      match s.exitLoop with
      | .idle => { s with exitLoop := .fetched fun side => (s.held side).isSome }
      | _ => s
  | .exitList order =>
      match s.exitLoop with
      | .fetched held =>
          { s with
            exitLoop := .listed held (order.filterMap fun side =>
              (s.store side).map fun r => (side, r)) }
      | _ => s
  | .exitNext => exitNext s
  | .exitDedup answered => exitDedup answered s
  | .exitBook exitPrice answered => exitBook exitPrice answered s
  | .exitRemove => exitRemove s
  | .exitAborts => { s with exitLoop := .idle }
  | .apmHolds side => apmHolds side s
  | .apmMarket fill => apmMarket fill s
  | .apmStore => apmStore s
  | .apmRemove => apmRemove s

/-! ## What booking should do -/

/-- Exactly one `close_trade` concerns the position: the one for its record, which closed
its own row. -/
def BookedOnce (s : BookState) (position : Nat) : Prop :=
  s.bookings.filter (fun b => b.position = position ∨ b.row = some position) =
    [⟨position, some position⟩]

/-- The position had a record and has none now. -/
def HasLeft (s : BookState) (position : Nat) : Prop :=
  position ∈ s.tracked ∧ ∀ side r, s.store side = some r → r.position ≠ position

/-- Every position that is closed on the exchange and has left the store is booked once. -/
def ClosedBooked (s : BookState) : Prop :=
  ∀ position, (∀ side, s.held side ≠ some position) → HasLeft s position →
    BookedOnce s position

/-- The position's row is closed. -/
def RowClosed (rows : List TradeRow) (position : Nat) : Prop :=
  ∃ row ∈ rows, row.position = position ∧ row.exitPrice.isSome = true

/-- The key holds no record of another position whose row is open. -/
def Overwrites (s : BookState) (side : Side) (position : Nat) : Prop :=
  ∀ r, s.store side = some r → r.position = position ∨ RowClosed s.rows r.position

/-- The condition of one step: no record is overwritten before its position is booked; a
dedup key is alive only for a booked record; the booking succeeds, and the latest open row
of the symbol is the position's own; the loop removes the record it has read, and the
manager one that is booked. -/
def Met (s : BookState) : BookInput → Prop
  | .saves side position => Overwrites s side position
  | .exitDedup answered =>
      match s.exitLoop with
      | .due _ _ side r => answered = true → alreadySent s side = true →
          RowClosed s.rows r.position
      | _ => True
  | .exitBook exitPrice answered =>
      match s.exitLoop with
      | .booking _ _ _ r => answered = true ∧
          (closeTrade (r.exitPrice.getD exitPrice) s.rows).map Prod.fst = some r.position
      | _ => True
  | .exitRemove =>
      match s.exitLoop with
      | .removing _ _ side r => Overwrites s side r.position
      | _ => True
  | .apmMarket fill =>
      match s.apm with
      | .holding side r => fill = none → Overwrites s side r.position
      | _ => True
  | .apmStore =>
      match s.apm with
      | .closed side r fill => 0 < fill → Overwrites s side r.position
      | _ => True
  | .apmRemove =>
      match s.apm with
      | .removing side _ => ∀ r, s.store side = some r → RowClosed s.rows r.position
      | _ => True
  | _ => True

/-! ## Which row a booking closes -/

/-- A booking closes one open row and leaves the others as they are. -/
theorem closeTrade_spec {exitPrice : ℚ} {rows rows' : List TradeRow} {closed : Nat}
    (h : closeTrade exitPrice rows = some (closed, rows')) :
    rows'.map TradeRow.position = rows.map TradeRow.position ∧
      (∃ row ∈ rows, row.position = closed ∧ row.exitPrice = none) ∧
        ∀ p, RowClosed rows' p ↔ p = closed ∨ RowClosed rows p := by
  induction rows generalizing rows' with
  | nil => cases h
  | cons row rest ih =>
      rw [closeTrade] at h
      cases hrest : closeTrade exitPrice rest with
      | some result =>
          rcases result with ⟨closed', rest'⟩
          rw [hrest] at h
          cases h
          rcases ih hrest with ⟨hpositions, ⟨hit, hmem, hhit⟩, hclosed⟩
          refine ⟨by rw [List.map_cons, List.map_cons, hpositions],
            ⟨hit, List.mem_cons_of_mem row hmem, hhit⟩, fun p => ?_⟩
          have hp := hclosed p
          simp only [RowClosed, List.exists_mem_cons_iff] at hp ⊢
          rw [hp]
          exact or_left_comm
      | none =>
          rw [hrest] at h
          dsimp only at h
          split_ifs at h with hopen
          cases h
          refine ⟨rfl, ⟨row, List.mem_cons_self, rfl, hopen⟩, fun p => ?_⟩
          simp only [RowClosed, List.exists_mem_cons_iff, hopen, Option.isSome_some,
            Option.isSome_none, Bool.false_eq_true, and_true, and_false, false_or]
          exact or_congr_left eq_comm

/-- Rows of distinct positions: an open row is not closed too. -/
theorem not_rowClosed_of_open {rows : List TradeRow}
    (hdistinct : (rows.map TradeRow.position).Nodup) {row : TradeRow} (hrow : row ∈ rows)
    (hopen : row.exitPrice = none) : ¬ RowClosed rows row.position := by
  rintro ⟨other, hother, hposition, hclosed⟩
  have hsame : other = row := List.inj_on_of_nodup_map hdistinct hother hrow hposition
  rw [hsame, hopen] at hclosed
  cases hclosed

/-! ## The books -/

/-- One row per position; a position with a closed row is booked once, and no booking
concerns any other position. -/
structure Books (s : BookState) : Prop where
  distinct : (s.rows.map TradeRow.position).Nodup
  untouched : ∀ p, ¬ RowClosed s.rows p → ∀ b ∈ s.bookings, b.position ≠ p ∧ b.row ≠ some p
  booked : ∀ p, RowClosed s.rows p → BookedOnce s p

/-- A tracked position has its record or a closed row. -/
def Kept (s : BookState) : Prop :=
  ∀ p ∈ s.tracked, (∃ side r, s.store side = some r ∧ r.position = p) ∨ RowClosed s.rows p

/-- The books are in order, no record is lost, and the loop removes booked records only. -/
structure Orderly (s : BookState) : Prop where
  books : Books s
  kept : Kept s
  removing : ∀ held rest side r, s.exitLoop = .removing held rest side r →
    RowClosed s.rows r.position

/-- Rows and bookings alone decide whether the books are in order. -/
theorem Books.of_eq {s s' : BookState} (h : Books s) (hrows : s'.rows = s.rows)
    (hbookings : s'.bookings = s.bookings) : Books s' where
  distinct := by
    rw [hrows]
    exact h.distinct
  untouched := by
    rw [hrows, hbookings]
    exact h.untouched
  booked := by
    intro p hp
    rw [hrows] at hp
    have honce := h.booked p hp
    unfold BookedOnce at honce ⊢
    rw [hbookings]
    exact honce

/-- A record is written over its own position's or a booked one. -/
theorem Kept.write {s : BookState} (h : Kept s) {side : Side} {r : StoredRecord}
    (hover : Overwrites s side r.position) : Kept (s.write side r) := by
  intro p hp
  have hself : (s.write side r).store side = some r := Function.update_self side _ _
  rcases List.mem_cons.mp hp with rfl | hold
  · exact Or.inl ⟨side, r, hself, rfl⟩
  · rcases h p hold with ⟨side', r', hstored, hposition⟩ | hclosed
    · by_cases hside : side' = side
      · subst hside
        rcases hover r' hstored with hsame | hclosed
        · exact Or.inl ⟨side', r, hself, hsame.symm.trans hposition⟩
        · exact Or.inr (hposition ▸ hclosed)
      · exact Or.inl ⟨side', r', (Function.update_of_ne hside _ _).trans hstored, hposition⟩
    · exact Or.inr hclosed

/-- A booked record may be deleted. -/
theorem Kept.delete {s : BookState} (h : Kept s) {side : Side}
    (hbooked : ∀ r, s.store side = some r → RowClosed s.rows r.position) :
    Kept (s.delete side) := by
  intro p hp
  rcases h p hp with ⟨side', r, hstored, hposition⟩ | hclosed
  · by_cases hside : side' = side
    · subst hside
      exact Or.inr (hposition ▸ hbooked r hstored)
    · exact Or.inl ⟨side', r, (Function.update_of_ne hside _ _).trans hstored, hposition⟩
  · exact Or.inr hclosed

/-- A row for a new position. -/
theorem Books.record {s : BookState} (h : Books s) {position : Nat}
    (hnew : position ∉ s.rows.map TradeRow.position) :
    Books { s with rows := s.rows ++ [⟨position, none⟩] } := by
  have hclosed : ∀ p, RowClosed (s.rows ++ [⟨position, none⟩]) p ↔ RowClosed s.rows p := by
    intro p
    simp [RowClosed, or_and_right, exists_or]
  refine ⟨?_, fun p hp => h.untouched p fun hrow => hp ((hclosed p).mpr hrow),
    fun p hp => h.booked p ((hclosed p).mp hp)⟩
  rw [List.map_append, List.nodup_append]
  refine ⟨h.distinct, by simp, ?_⟩
  intro p hp q hq heq
  rw [List.map_singleton, List.mem_singleton] at hq
  rw [heq, hq] at hp
  exact hnew hp

/-- A booking of the position's own open row. -/
theorem Books.close {s : BookState} (h : Books s) {position : Nat} {exitPrice : ℚ}
    {rows : List TradeRow} (hclose : closeTrade exitPrice s.rows = some (position, rows)) :
    Books { s with
      rows := rows
      bookings := s.bookings ++ [⟨position, some position⟩] } := by
  rcases closeTrade_spec hclose with ⟨hpositions, ⟨row, hrow, rfl, hopen⟩, hclosed⟩
  have hfresh := h.untouched row.position (not_rowClosed_of_open h.distinct hrow hopen)
  constructor
  · dsimp only
    rw [hpositions]
    exact h.distinct
  · intro p hp b hb
    dsimp only at hp hb
    rw [hclosed, not_or] at hp
    rcases List.mem_append.mp hb with hold | hnew
    · exact h.untouched p hp.2 b hold
    · rw [List.mem_singleton.mp hnew]
      exact ⟨fun heq => hp.1 heq.symm, fun heq => hp.1 (Option.some.inj heq).symm⟩
  · intro p hp
    dsimp only at hp
    unfold BookedOnce
    dsimp only
    rw [List.filter_append]
    rcases (hclosed p).mp hp with rfl | hold
    · have hnone : s.bookings.filter
          (fun b => b.position = row.position ∨ b.row = some row.position) = [] := by
        rw [List.filter_eq_nil_iff]
        intro b hb
        simpa using hfresh b hb
      rw [hnone]
      simp
    · have hother : p ≠ row.position := by
        rintro rfl
        exact not_rowClosed_of_open h.distinct hrow hopen hold
      have honce := h.booked p hold
      unfold BookedOnce at honce
      rw [honce]
      simp [Ne.symm hother]

/-! ## One step -/

/-- A step that writes neither rows, bookings nor records, and does not start a removal. -/
theorem Orderly.of_eq {s s' : BookState} (h : Orderly s) (hrows : s'.rows = s.rows)
    (hbookings : s'.bookings = s.bookings) (hstore : s'.store = s.store)
    (htracked : s'.tracked = s.tracked)
    (hloop : s'.exitLoop = s.exitLoop ∨
      ∀ held rest side r, s'.exitLoop ≠ .removing held rest side r) : Orderly s' where
  books := h.books.of_eq hrows hbookings
  kept := by
    unfold Kept
    rw [htracked, hstore, hrows]
    exact h.kept
  removing := by
    intro held rest side r hphase
    rw [hrows]
    rcases hloop with hsame | hother
    · exact h.removing held rest side r (hsame ▸ hphase)
    · exact absurd hphase (hother held rest side r)

/-- The loop goes on to anything but a removal. -/
theorem Orderly.moves {s : BookState} (h : Orderly s) {phase : LoopPhase}
    (hphase : ∀ held rest side r, phase ≠ .removing held rest side r) :
    Orderly { s with exitLoop := phase } :=
  h.of_eq rfl rfl rfl rfl (Or.inr hphase)

/-- A step that writes a record. -/
theorem Orderly.write {s : BookState} (h : Orderly s) {side : Side} {r : StoredRecord}
    (hover : Overwrites s side r.position) : Orderly (s.write side r) where
  books := h.books.of_eq rfl rfl
  kept := h.kept.write hover
  removing := h.removing

/-- A step that deletes a booked record. -/
theorem Orderly.delete {s : BookState} (h : Orderly s) {side : Side}
    (hbooked : ∀ r, s.store side = some r → RowClosed s.rows r.position) :
    Orderly (s.delete side) where
  books := h.books.of_eq rfl rfl
  kept := h.kept.delete hbooked
  removing := h.removing

theorem records_orderly {s : BookState} (h : Orderly s) (position : Nat) :
    Orderly (records position s) := by
  unfold records
  split_ifs with hold
  · exact h
  · have hmono : ∀ p, RowClosed s.rows p → RowClosed (s.rows ++ [⟨position, none⟩]) p := by
      rintro p ⟨row, hrow, hclosed⟩
      exact ⟨row, List.mem_append_left _ hrow, hclosed⟩
    refine ⟨h.books.record hold, fun p hp => ?_, fun held rest side r hphase => ?_⟩
    · exact (h.kept p hp).imp_right (hmono p)
    · exact hmono _ (h.removing held rest side r hphase)

theorem exitNext_orderly {s : BookState} (h : Orderly s) : Orderly (exitNext s) := by
  unfold exitNext
  split
  · split_ifs
    · exact h.moves (by simp)
    · exact h.moves (by simp)
  · exact h.moves (by simp)
  · exact h

theorem exitDedup_orderly {s : BookState} (h : Orderly s) {answered : Bool}
    (hmet : Met s (.exitDedup answered)) : Orderly (exitDedup answered s) := by
  unfold exitDedup
  unfold Met at hmet
  split
  · rename_i held rest side r hphase
    rw [hphase] at hmet
    split_ifs with hanswered hsent
    · refine ⟨h.books.of_eq rfl rfl, h.kept, fun held' rest' side' r' hphase' => ?_⟩
      cases hphase'
      exact hmet hanswered hsent
    · exact h.of_eq rfl rfl rfl rfl (Or.inr (by simp))
    · exact h.moves (by simp)
  · exact h

theorem exitBook_orderly {s : BookState} (h : Orderly s) {exitPrice : ℚ} {answered : Bool}
    (hmet : Met s (.exitBook exitPrice answered)) : Orderly (exitBook exitPrice answered s) := by
  unfold exitBook
  unfold Met at hmet
  split
  · rename_i held rest side r hphase
    rw [hphase] at hmet
    rcases hmet with ⟨rfl, hown⟩
    rcases Option.map_eq_some_iff.mp hown with ⟨⟨closed, rows⟩, hclose, rfl⟩
    have hclosed := (closeTrade_spec hclose).2.2
    have hmono : ∀ p, RowClosed s.rows p → RowClosed rows p := fun p hp =>
      (hclosed p).mpr (Or.inr hp)
    dsimp only
    rw [if_pos rfl, hclose]
    refine ⟨(h.books.close hclose).of_eq rfl rfl, fun p hp => ?_, ?_⟩
    · exact (h.kept p hp).imp_right (hmono p)
    · intro held' rest' side' r' hphase'
      cases hphase'
      exact (hclosed _).mpr (Or.inl rfl)
  · exact h

theorem exitRemove_orderly {s : BookState} (h : Orderly s) (hmet : Met s .exitRemove) :
    Orderly (exitRemove s) := by
  unfold exitRemove
  unfold Met at hmet
  split
  · rename_i held rest side r hphase
    rw [hphase] at hmet
    have hread := h.removing held rest side r hphase
    have hdeleted : Orderly (s.delete side) := by
      refine h.delete fun r' hstored => ?_
      rcases hmet r' hstored with hsame | hclosed
      · rw [hsame]
        exact hread
      · exact hclosed
    exact hdeleted.moves (by simp)
  · exact h

theorem apmMarket_orderly {s : BookState} (h : Orderly s) {fill : Option ℚ}
    (hmet : Met s (.apmMarket fill)) : Orderly (apmMarket fill s) := by
  unfold apmMarket
  unfold Met at hmet
  split
  · rename_i side r hphase
    rw [hphase] at hmet
    split
    · exact (h.write (hmet rfl)).of_eq rfl rfl rfl rfl (Or.inl rfl)
    · exact h.of_eq rfl rfl rfl rfl (Or.inl rfl)
  · exact h

theorem apmStore_orderly {s : BookState} (h : Orderly s) (hmet : Met s .apmStore) :
    Orderly (apmStore s) := by
  unfold apmStore
  unfold Met at hmet
  split
  · rename_i side r fill hphase
    rw [hphase] at hmet
    split_ifs with hfill
    · have hwritten := @Orderly.write s h side { r with exitPrice := some fill } (hmet hfill)
      exact hwritten.of_eq rfl rfl rfl rfl (Or.inl rfl)
    · exact h.of_eq rfl rfl rfl rfl (Or.inl rfl)
  · exact h

theorem apmRemove_orderly {s : BookState} (h : Orderly s) (hmet : Met s .apmRemove) :
    Orderly (apmRemove s) := by
  unfold apmRemove
  unfold Met at hmet
  split
  · rename_i side r hphase
    rw [hphase] at hmet
    exact (h.delete hmet).of_eq rfl rfl rfl rfl (Or.inl rfl)
  · exact h

/-- Under its condition a step of either task keeps the books in order. -/
theorem step_orderly (s : BookState) (input : BookInput) (h : Orderly s) (hmet : Met s input) :
    Orderly (step s input) := by
  cases input with
  | elapse seconds => exact h.of_eq rfl rfl rfl rfl (Or.inl rfl)
  | opens side =>
      dsimp only [step]
      unfold opens
      split
      · exact h
      · exact h.of_eq rfl rfl rfl rfl (Or.inl rfl)
  | saves side position => exact h.write hmet
  | records position => exact records_orderly h position
  | stops side => exact h.of_eq rfl rfl rfl rfl (Or.inl rfl)
  | exitFetch =>
      dsimp only [step]
      split
      · exact h.moves (by simp)
      · exact h
  | exitList order =>
      dsimp only [step]
      split
      · exact h.moves (by simp)
      · exact h
  | exitNext => exact exitNext_orderly h
  | exitDedup answered => exact exitDedup_orderly h hmet
  | exitBook exitPrice answered => exact exitBook_orderly h hmet
  | exitRemove => exact exitRemove_orderly h hmet
  | exitAborts => exact h.moves (by simp)
  | apmHolds side =>
      dsimp only [step]
      unfold apmHolds
      split
      · exact h.of_eq rfl rfl rfl rfl (Or.inl rfl)
      · exact h
  | apmMarket fill => exact apmMarket_orderly h hmet
  | apmStore => exact apmStore_orderly h hmet
  | apmRemove => exact apmRemove_orderly h hmet

/-! ## Runs of both tasks -/

theorem start_orderly (now : ℚ) : Orderly (.start now) where
  books :=
    { distinct := List.nodup_nil
      untouched := fun _ _ b hb => by cases hb
      booked := fun p hp => by
        rcases hp with ⟨row, hrow, -⟩
        cases hrow }
  kept := fun p hp => by cases hp
  removing := fun _ _ _ _ hphase => by cases hphase

/-- With the books in order every closed position that has left the store is booked. -/
theorem Orderly.closedBooked {s : BookState} (h : Orderly s) : ClosedBooked s := by
  rintro p - ⟨htracked, hgone⟩
  rcases h.kept p htracked with ⟨side, r, hstored, hposition⟩ | hclosed
  · exact absurd hposition (hgone side r hstored)
  · exact h.books.booked p hclosed

/-- In a run whose steps all meet their condition, every position that is closed on the
exchange and has left the store is booked exactly once, in its own row. -/
theorem closedPositions_booked_once (now : ℚ) (inputs : List BookInput)
    (hmet : Admits step Met (.start now) inputs) (n : Nat) :
    ClosedBooked (stateAt step (.start now) inputs n) :=
  (invariant_run_take step_orderly (start_orderly now) hmet n).closedBooked

/-- A position is opened and recorded, its stop fills, and the loop books it. -/
def bookedRun : List BookInput :=
  [.opens .LONG, .saves .LONG 0, .records 0, .stops .LONG, .exitFetch, .exitList [.LONG, .SHORT],
    .exitNext, .exitDedup true, .exitBook 110 true, .exitRemove, .exitNext]

theorem closedPositions_booked_by_loop :
    ClosedBooked (stateAt step (.start 0) bookedRun 11) := by
  refine closedPositions_booked_once 0 bookedRun ⟨trivial, fun r h => ?_, trivial, trivial,
    trivial, trivial, trivial, fun _ h => ?_, ⟨rfl, by decide +kernel⟩, fun r h => ?_, trivial,
    trivial⟩ 11
  · cases h
  · cases h
  · cases h
    exact Or.inl rfl

/-- The manager closes a position: the exit price is stored, and the record removed. -/
def forceClosedRun : List BookInput :=
  [.opens .LONG, .saves .LONG 0, .records 0, .apmHolds .LONG, .apmMarket (some 110), .apmStore,
    .apmRemove]

/-- The loop books a position, and half a minute later a second one of the same side is
stopped out. -/
def reEntryRun : List BookInput :=
  bookedRun ++
    [.opens .LONG, .saves .LONG 1, .records 1, .elapse 30, .stops .LONG, .exitFetch,
      .exitList [.LONG], .exitNext, .exitDedup true, .exitRemove]

/-- The position closed by the manager is never booked, and neither is the second one of a
quick re-entry, whose dedup key is alive. -/
theorem closedPositions_unbooked :
    ¬ ClosedBooked (stateAt step (.start 0) forceClosedRun 7) ∧
      ¬ ClosedBooked (stateAt step (.start 0) reEntryRun 21) := by
  constructor
  · intro h
    have honce := h 0 (fun side => by cases side <;> decide +kernel)
      ⟨by decide +kernel, fun side r hstored => ?_⟩
    · revert honce
      unfold BookedOnce
      decide +kernel
    · cases side <;> cases hstored
  · intro h
    have honce := h 1 (fun side => by cases side <;> decide +kernel)
      ⟨by decide +kernel, fun side r hstored => ?_⟩
    · revert honce
      unfold BookedOnce
      decide +kernel
    · have hempty : (stateAt step (.start 0) reEntryRun 21).store side = none := by
        cases side <;> decide +kernel
      rw [hempty] at hstored
      cases hstored

end Booking
end Karsa
