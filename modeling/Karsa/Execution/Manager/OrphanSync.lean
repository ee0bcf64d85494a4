import Karsa.Foundations.Runs
import Karsa.Startup.StoreSync
import Mathlib.Tactic.IntervalCases

/-!
# Active position manager - The orphan sync beside the other loops

Every two seconds `start_monitoring` lists the store and adopts the exchange positions
that have no record, from a copy of the exchange's list that is refreshed every thirty
seconds.  The exit loop and the checkpoint manager remove records in between.  Only
closures by the manager itself are remembered, for two minutes.

Main results:

- Theorem `stillHeld_iff`: the exit loop's comparison of a record with its list.
- Theorem `lastFetch_lt_of_grace`: the grace period outlasts the cached list.
- Theorem `orphanSync_only_live`: runs in which only live positions are adopted.
-/

namespace Karsa
namespace OrphanSync

open Bybit Manager Watchdog

/-! ## State -/

/-- Where the monitoring loop stands in its cycle. -/
inductive MonitorPhase where
  | idle
  | listed (existing : List (Text × Side)) (clock : ℚ)
  | syncing (existing : List (Text × Side)) (clock : ℚ) (rest : List ExchangePosition)

/-- Where the exit loop stands in its cycle. -/
inductive ExitPhase where
  | idle
  | fetched (positions : List ExchangePosition)
  | closing (positions : List ExchangePosition) (rest : List PositionRecord)

/-- Clock, exchange and store with the variables of the loops. -/
structure SyncState where
  now : ℚ
  exchange : List ExchangePosition
  store : PositionStore
  cached : List ExchangePosition
  lastFetch : ℚ
  monitor : MonitorPhase
  forceClosedAt : Text → ℚ
  exitLoop : ExitPhase

/-- State when the loops are started. -/
def SyncState.start (exchange : List ExchangePosition) (store : PositionStore) (now : ℚ) :
    SyncState where
  now := now
  exchange := exchange
  store := store
  cached := []
  lastFetch := 0
  monitor := .idle
  forceClosedAt := fun _ => 0
  exitLoop := .idle

/-! ## Steps -/

/-- `_POSITIONS_CACHE_TTL`. -/
def positionsCacheTtl : ℚ := 30

/-- The key under which the sync files an exchange position. -/
def orphanKey (p : ExchangePosition) : Text × Side :=
  (orphanSyncSymbol p.symbol, Side.ofOrderSide p.side)

/-- `key in exchange_map` of the exit loop. -/
def stillHeld (positions : List ExchangePosition) (r : PositionRecord) : Bool :=
  decide (watchKey (r.symbol.without '/') r.side.apiSide.word ∈
    (Sync.exchangeMap positions).keys)

/-- Save an orphan with an unknown regime. -/
def saveOrphan (a : Adoption) (now : ℚ) (store : PositionStore) : PositionStore :=
  store.insert (a.symbol, a.side)
    { PositionRecord.opened a.symbol a.side a.entryPrice a.amount none none none 0 now with
      entryRegime := some "UNKNOWN".toList, regime := some "UNKNOWN".toList }

/-- What happens next: time passes, the exchange opens or closes a position, an entry is
recorded, or one of the three loops goes on to its next await. -/
inductive SyncInput where
  | elapse (seconds : ℚ≥0)
  | opens (p : ExchangePosition)
  | closes (symbol : Text) (side : OrderSide)
  | saves (r : PositionRecord)
  | exitFetch (answered : Bool)
  | exitList
  | exitNext
  | checkpointExit (symbol side : Text)
  | forceCloses (symbol : Text) (side : Side)
  | monitorList
  | monitorFetch (answered : Bool)
  | monitorSync

/-- Is the monitoring loop about to fetch the exchange's list? -/
def fetchDue (s : SyncState) (clock : ℚ) : Bool :=
  decide (positionsCacheTtl ≤ clock - s.lastFetch)

/-- The exit loop reads the exchange's list; a failed read ends the cycle. -/
def exitFetch (answered : Bool) (s : SyncState) : SyncState :=
  match s.exitLoop with
  | .idle => if answered then { s with exitLoop := .fetched s.exchange } else s
  | .fetched _ | .closing _ _ => s

/-- The exit loop lists the store. -/
def exitList (s : SyncState) : SyncState :=
  match s.exitLoop with
  | .fetched positions => { s with exitLoop := .closing positions s.store.listAll }
  | .idle | .closing _ _ => s

/-- The next record of an exit-loop cycle: booked and removed when its position is not in
the list. -/
def exitNext (s : SyncState) : SyncState :=
  match s.exitLoop with
  | .closing positions (r :: rest) =>
      if stillHeld positions r then { s with exitLoop := .closing positions rest }
      else
        { s with
          store := Sync.remove s.store r.symbol r.side.word
          exitLoop := .closing positions rest }
  | .closing _ [] => { s with exitLoop := .idle }
  | .idle | .fetched _ => s

/-- A monitoring cycle starts with the clock and the keys of the store. -/
def monitorList (s : SyncState) : SyncState :=
  match s.monitor with
  | .idle =>
      { s with monitor := .listed (s.store.listAll.map fun r => (r.symbol, r.side)) s.now }
  | .listed _ _ | .syncing _ _ _ => s

/-- Refresh the cached list when it is due; a failed read ends the cycle. -/
def monitorFetch (answered : Bool) (s : SyncState) : SyncState :=
  match s.monitor with
  | .listed existing clock =>
      if fetchDue s clock then
        if answered then
          { s with
            cached := s.exchange
            lastFetch := clock
            monitor := .syncing existing clock s.exchange }
        else { s with monitor := .idle }
      else { s with monitor := .syncing existing clock s.cached }
  | .idle | .syncing _ _ _ => s

/-- The orphan sync for the next cached position. -/
def monitorSync (s : SyncState) : SyncState :=
  match s.monitor with
  | .syncing existing clock (ep :: rest) =>
      match adoptOrphan existing s.forceClosedAt clock ep with
      | none => { s with monitor := .syncing existing clock rest }
      | some a =>
          { s with
            store := saveOrphan a s.now s.store
            monitor := .syncing existing clock rest }
  | .syncing _ _ [] => { s with monitor := .idle }
  | .idle | .listed _ _ => s

/-- One step of the system. -/
def step (s : SyncState) : SyncInput → SyncState
  | .elapse seconds => { s with now := s.now + seconds }
  | .opens p => { s with exchange := p :: s.exchange.filter fun q => orphanKey q ≠ orphanKey p }
  | .closes symbol side =>
      { s with exchange := s.exchange.filter fun q => ¬ (q.symbol = symbol ∧ q.side = side) }
  | .saves r => { s with store := s.store.insert (r.symbol, r.side) r }
  | .exitFetch answered => exitFetch answered s
  | .exitList => exitList s
  | .exitNext => exitNext s
  | .checkpointExit symbol side => { s with store := Sync.remove s.store symbol side }
  | .forceCloses symbol side =>
      { s with
        store := Sync.remove s.store symbol side.word
        forceClosedAt := Function.update s.forceClosedAt symbol s.now }
  | .monitorList => monitorList s
  | .monitorFetch answered => monitorFetch answered s
  | .monitorSync => monitorSync s

/-! ## What the sync should do -/

/-- The exchange has a position under the key. -/
def IsOpen (s : SyncState) (k : Text × Side) : Prop :=
  ∃ p ∈ s.exchange, orphanKey p = k

/-- The key whose record a step creates from the cached list. -/
def adopts (s : SyncState) : SyncInput → Option (Text × Side)
  | .monitorSync =>
      match s.monitor with
      | .syncing existing clock (ep :: _) =>
          (adoptOrphan existing s.forceClosedAt clock ep).map fun a => (a.symbol, a.side)
      | .syncing _ _ [] | .idle | .listed _ _ => none
  | _ => none

/-- Does the step refresh the cached list? -/
def Refreshes (s : SyncState) (input : SyncInput) : Prop :=
  input = .monitorFetch true ∧
    match s.monitor with
    | .listed _ clock => fetchDue s clock = true
    | .idle | .syncing _ _ _ => False

section Runs

variable (s : SyncState) (inputs : List SyncInput)

/-- The orphan sync creates a record of the key in step `n`. -/
def AdoptedAt (n : Nat) (k : Text × Side) : Prop :=
  ∃ input, inputs[n]? = some input ∧ adopts (stateAt step s inputs n) input = some k

/-- The record of the key is removed in step `n`. -/
def RemovedAt (n : Nat) (k : Text × Side) : Prop :=
  k ∈ (stateAt step s inputs n).store ∧ k ∉ (stateAt step s inputs (n + 1)).store

/-- The cached list is refreshed in step `n`. -/
def FetchedAt (n : Nat) : Prop :=
  ∃ input, inputs[n]? = some input ∧ Refreshes (stateAt step s inputs n) input

/-- The manager itself closes a position of the key in step `n`. -/
def ForceClosedAt (n : Nat) (k : Text × Side) : Prop :=
  ∃ side, inputs[n]? = some (.forceCloses k.1 side)

/-- Every adoption is of a position that was open at some moment after its previous record
was removed. -/
def OnlyLive : Prop :=
  ∀ n k, AdoptedAt s inputs n k → ∀ m < n, RemovedAt s inputs m k →
    ∃ j, m < j ∧ j ≤ n ∧ IsOpen (stateAt step s inputs j) k

/-- Where another task than the manager removed a record of the key before an adoption, the
cached list was refreshed since, or the position is open. -/
def AdoptsFresh : Prop :=
  ∀ n k, AdoptedAt s inputs n k → ∀ m < n, RemovedAt s inputs m k →
    ForceClosedAt inputs m k ∨ IsOpen (stateAt step s inputs n) k ∨
      ∃ f, m < f ∧ f < n ∧ FetchedAt s inputs f

end Runs

/-! ## The exit loop's comparison -/

/-- A record counts as open exactly when a listed position has its symbol, slashes apart,
and its side. -/
theorem stillHeld_iff (positions : List ExchangePosition) (r : PositionRecord) :
    stillHeld positions r = true ↔
      ∃ p ∈ positions, p.symbol.without '/' = r.symbol.without '/' ∧ p.side = r.side.apiSide := by
  rw [stillHeld, decide_eq_true_iff, Sync.exchangeMap, Dict.mem_keys_index, List.map_map]
  simp only [List.mem_map, Function.comp_apply]
  constructor
  · rintro ⟨p, hp, hkey⟩
    rcases watchKey_orderWord_inj hkey with ⟨hsymbol, hside⟩
    exact ⟨p, hp, hsymbol, hside⟩
  · rintro ⟨p, hp, hsymbol, hside⟩
    exact ⟨p, hp, by rw [hsymbol, hside]⟩

/-! ## What each loop writes -/

/-- The exit loop's read and its listing write the loop's own phase only. -/
theorem exitFetch_eq (answered : Bool) (s : SyncState) :
    ∃ phase, exitFetch answered s = { s with exitLoop := phase } := by
  unfold exitFetch
  split
  · split_ifs
    · exact ⟨_, rfl⟩
    · exact ⟨s.exitLoop, rfl⟩
  · exact ⟨s.exitLoop, rfl⟩
  · exact ⟨s.exitLoop, rfl⟩

theorem exitList_eq (s : SyncState) : ∃ phase, exitList s = { s with exitLoop := phase } := by
  unfold exitList
  split
  · exact ⟨_, rfl⟩
  · exact ⟨s.exitLoop, rfl⟩
  · exact ⟨s.exitLoop, rfl⟩

/-- The rest of its cycle writes the store too. -/
theorem exitNext_eq (s : SyncState) :
    ∃ store phase, exitNext s = { s with store := store, exitLoop := phase } := by
  unfold exitNext
  split
  · split_ifs
    · exact ⟨s.store, _, rfl⟩
    · exact ⟨_, _, rfl⟩
  · exact ⟨s.store, _, rfl⟩
  · exact ⟨s.store, s.exitLoop, rfl⟩
  · exact ⟨s.store, s.exitLoop, rfl⟩

/-- The monitoring loop writes its phase, the cached list with its time, and the store. -/
theorem monitorList_eq (s : SyncState) :
    ∃ phase, monitorList s = { s with monitor := phase } := by
  unfold monitorList
  split
  · exact ⟨_, rfl⟩
  · exact ⟨s.monitor, rfl⟩
  · exact ⟨s.monitor, rfl⟩

theorem monitorFetch_eq (answered : Bool) (s : SyncState) :
    ¬ Refreshes s (.monitorFetch answered) ∧
        (∃ phase, monitorFetch answered s = { s with monitor := phase }) ∨
      Refreshes s (.monitorFetch answered) ∧
        ∃ existing clock phase, s.monitor = .listed existing clock ∧
          monitorFetch answered s =
            { s with cached := s.exchange, lastFetch := clock, monitor := phase } := by
  unfold monitorFetch Refreshes
  cases hphase : s.monitor with
  | idle => exact Or.inl ⟨fun hrefresh => hrefresh.2, s.monitor, rfl⟩
  | syncing existing clock rest => exact Or.inl ⟨fun hrefresh => hrefresh.2, s.monitor, rfl⟩
  | listed existing clock =>
      dsimp only
      split_ifs with hdue hanswered
      · exact Or.inr ⟨⟨by rw [hanswered], hdue⟩, existing, clock, _, rfl, rfl⟩
      · exact Or.inl ⟨fun hrefresh => hanswered (SyncInput.monitorFetch.inj hrefresh.1), _, rfl⟩
      · exact Or.inl ⟨fun hrefresh => hdue hrefresh.2, _, rfl⟩

theorem monitorSync_eq (s : SyncState) :
    ∃ store phase, monitorSync s = { s with store := store, monitor := phase } := by
  unfold monitorSync
  split
  · split
    · exact ⟨s.store, _, rfl⟩
    · exact ⟨_, _, rfl⟩
  · exact ⟨s.store, _, rfl⟩
  · exact ⟨s.store, s.monitor, rfl⟩
  · exact ⟨s.store, s.monitor, rfl⟩

/-! ## The cached list -/

/-- The loop works through the cached list, and its clock is not ahead of the time. -/
structure Consistent (s : SyncState) : Prop where
  listed : ∀ existing clock, s.monitor = .listed existing clock → clock ≤ s.now
  syncing : ∀ existing clock rest, s.monitor = .syncing existing clock rest →
    rest ⊆ s.cached ∧ clock - s.lastFetch < positionsCacheTtl

/-- Between two cycles there is nothing to check. -/
theorem consistent_of_idle {s : SyncState} (h : s.monitor = .idle) : Consistent s := by
  constructor
  · intro existing clock hphase
    rw [h] at hphase
    cases hphase
  · intro existing clock rest hphase
    rw [h] at hphase
    cases hphase

theorem consistent_of_syncing {s : SyncState} {existing : List (Text × Side)} {clock : ℚ}
    {rest : List ExchangePosition} (h : s.monitor = .syncing existing clock rest)
    (hrest : rest ⊆ s.cached) (hfresh : clock - s.lastFetch < positionsCacheTtl) :
    Consistent s := by
  constructor
  · intro existing' clock' hphase
    rw [h] at hphase
    cases hphase
  · intro existing' clock' rest' hphase
    rw [h] at hphase
    cases hphase
    exact ⟨hrest, hfresh⟩

/-- A step that leaves the monitoring loop alone. -/
theorem Consistent.of_eq {s s' : SyncState} (h : Consistent s) (hnow : s.now ≤ s'.now)
    (hcached : s'.cached = s.cached) (hfetch : s'.lastFetch = s.lastFetch)
    (hmonitor : s'.monitor = s.monitor) : Consistent s' where
  listed := fun existing clock hphase =>
    (h.listed existing clock (hmonitor ▸ hphase)).trans hnow
  syncing := fun existing clock rest hphase => by
    rw [hcached, hfetch]
    exact h.syncing existing clock rest (hmonitor ▸ hphase)

theorem monitorList_consistent {s : SyncState} (h : Consistent s) :
    Consistent (monitorList s) := by
  unfold monitorList
  split
  · constructor
    · intro existing clock hphase
      cases hphase
      exact le_rfl
    · intro existing clock rest hphase
      cases hphase
  · exact h
  · exact h

theorem monitorFetch_consistent (answered : Bool) {s : SyncState} (h : Consistent s) :
    Consistent (monitorFetch answered s) := by
  unfold monitorFetch
  split
  · split_ifs with hdue
    · refine consistent_of_syncing rfl (List.Subset.refl _) ?_
      rw [sub_self, positionsCacheTtl]
      norm_num
    · exact consistent_of_idle rfl
    · refine consistent_of_syncing rfl (List.Subset.refl _) ?_
      simpa [fetchDue] using hdue
  · exact h
  · exact h

theorem monitorSync_consistent {s : SyncState} (h : Consistent s) :
    Consistent (monitorSync s) := by
  unfold monitorSync
  split
  · rename_i existing clock ep rest hphase
    have hsync := h.syncing existing clock (ep :: rest) hphase
    have hrest : rest ⊆ s.cached := fun p hp => hsync.1 (List.mem_cons_of_mem ep hp)
    split
    · exact consistent_of_syncing rfl hrest hsync.2
    · exact consistent_of_syncing rfl hrest hsync.2
  · exact consistent_of_idle rfl
  · exact h
  · exact h

/-- No other step touches the variables of the monitoring loop, and time does not go
back. -/
theorem step_monitor (s : SyncState) (input : SyncInput) :
    s.now ≤ (step s input).now ∧
      ((step s input).cached = s.cached ∧ (step s input).lastFetch = s.lastFetch ∧
          (step s input).monitor = s.monitor ∨
        input = .monitorList ∨ (∃ answered, input = .monitorFetch answered) ∨
          input = .monitorSync) := by
  cases input with
  | elapse seconds => exact ⟨le_add_of_nonneg_right seconds.coe_nonneg, Or.inl ⟨rfl, rfl, rfl⟩⟩
  | opens p => exact ⟨le_rfl, Or.inl ⟨rfl, rfl, rfl⟩⟩
  | closes symbol side => exact ⟨le_rfl, Or.inl ⟨rfl, rfl, rfl⟩⟩
  | saves r => exact ⟨le_rfl, Or.inl ⟨rfl, rfl, rfl⟩⟩
  | exitFetch answered =>
      rcases exitFetch_eq answered s with ⟨phase, heq⟩
      rw [step, heq]
      exact ⟨le_rfl, Or.inl ⟨rfl, rfl, rfl⟩⟩
  | exitList =>
      rcases exitList_eq s with ⟨phase, heq⟩
      rw [step, heq]
      exact ⟨le_rfl, Or.inl ⟨rfl, rfl, rfl⟩⟩
  | exitNext =>
      rcases exitNext_eq s with ⟨store, phase, heq⟩
      rw [step, heq]
      exact ⟨le_rfl, Or.inl ⟨rfl, rfl, rfl⟩⟩
  | checkpointExit symbol side => exact ⟨le_rfl, Or.inl ⟨rfl, rfl, rfl⟩⟩
  | forceCloses symbol side => exact ⟨le_rfl, Or.inl ⟨rfl, rfl, rfl⟩⟩
  | monitorList =>
      rcases monitorList_eq s with ⟨phase, heq⟩
      refine ⟨?_, Or.inr (Or.inl rfl)⟩
      rw [step, heq]
  | monitorFetch answered =>
      refine ⟨?_, Or.inr (Or.inr (Or.inl ⟨answered, rfl⟩))⟩
      rw [step]
      rcases monitorFetch_eq answered s with ⟨-, phase, heq⟩ | ⟨-, existing, clock, phase, -, heq⟩
      · rw [heq]
      · rw [heq]
  | monitorSync =>
      rcases monitorSync_eq s with ⟨store, phase, heq⟩
      refine ⟨?_, Or.inr (Or.inr (Or.inr rfl))⟩
      rw [step, heq]

theorem step_consistent (s : SyncState) (input : SyncInput) (h : Consistent s) :
    Consistent (step s input) := by
  rcases step_monitor s input with ⟨hnow, ⟨hcached, hfetch, hmonitor⟩ | rfl | ⟨answered, rfl⟩ | rfl⟩
  · exact h.of_eq hnow hcached hfetch hmonitor
  · exact monitorList_consistent h
  · exact monitorFetch_consistent answered h
  · exact monitorSync_consistent h

/-- A step refreshes the cached list and notes its cycle's time, or leaves both. -/
theorem step_cache (s : SyncState) (input : SyncInput) :
    (Refreshes s input ∧ (step s input).cached = s.exchange ∧
        ∃ existing clock, s.monitor = .listed existing clock ∧
          (step s input).lastFetch = clock) ∨
      ¬ Refreshes s input ∧ (step s input).cached = s.cached ∧
        (step s input).lastFetch = s.lastFetch := by
  by_cases hfetch : ∃ answered, input = .monitorFetch answered
  · rcases hfetch with ⟨answered, rfl⟩
    rw [step]
    rcases monitorFetch_eq answered s with
      ⟨hno, phase, heq⟩ | ⟨hrefresh, existing, clock, phase, hmonitor, heq⟩
    · rw [heq]
      exact Or.inr ⟨hno, rfl, rfl⟩
    · rw [heq]
      exact Or.inl ⟨hrefresh, rfl, existing, clock, hmonitor, rfl⟩
  · refine Or.inr ⟨fun hrefresh => hfetch ⟨true, hrefresh.1⟩, ?_⟩
    rcases step_monitor s input with ⟨-, ⟨hcached, hlast, -⟩ | rfl | hsome | rfl⟩
    · exact ⟨hcached, hlast⟩
    · rcases monitorList_eq s with ⟨phase, heq⟩
      rw [step, heq]
      exact ⟨rfl, rfl⟩
    · exact absurd hsome hfetch
    · rcases monitorSync_eq s with ⟨store, phase, heq⟩
      rw [step, heq]
      exact ⟨rfl, rfl⟩

/-- The cached list mirrors the exchange. -/
theorem cached_mirror : Mirror step SyncState.exchange SyncState.cached Refreshes where
  refreshed := by
    intro s input hrefresh
    rcases step_cache s input with ⟨-, hcached, -⟩ | ⟨hno, -⟩
    · rw [hcached]
      exact List.Subset.refl _
    · exact absurd hrefresh hno
  kept := by
    intro s input hno
    rcases step_cache s input with ⟨hrefresh, -⟩ | ⟨-, hcached, -⟩
    · exact absurd hrefresh hno
    · rw [hcached]
      exact List.Subset.refl _

/-- The times of the manager's own closures change by such a closure only. -/
theorem step_forceClosedAt (s : SyncState) (input : SyncInput) (symbol : Text) :
    (step s input).forceClosedAt symbol = s.forceClosedAt symbol ∨
      (step s input).forceClosedAt symbol = s.now := by
  cases input with
  | forceCloses closed side =>
      by_cases hsymbol : symbol = closed
      · subst hsymbol
        exact Or.inr (Function.update_self _ _ _)
      · exact Or.inl (Function.update_of_ne hsymbol _ _)
  | exitFetch answered =>
      rcases exitFetch_eq answered s with ⟨phase, heq⟩
      rw [step, heq]
      exact Or.inl rfl
  | exitList =>
      rcases exitList_eq s with ⟨phase, heq⟩
      rw [step, heq]
      exact Or.inl rfl
  | exitNext =>
      rcases exitNext_eq s with ⟨store, phase, heq⟩
      rw [step, heq]
      exact Or.inl rfl
  | monitorList =>
      rcases monitorList_eq s with ⟨phase, heq⟩
      rw [step, heq]
      exact Or.inl rfl
  | monitorFetch answered =>
      rw [step]
      rcases monitorFetch_eq answered s with ⟨-, phase, heq⟩ | ⟨-, existing, clock, phase, -, heq⟩
      · rw [heq]
        exact Or.inl rfl
      · rw [heq]
        exact Or.inl rfl
  | monitorSync =>
      rcases monitorSync_eq s with ⟨store, phase, heq⟩
      rw [step, heq]
      exact Or.inl rfl
  | _ => exact Or.inl rfl

/-! ## Runs of the loops -/

section Runs

variable {exchange : List ExchangePosition} {store : PositionStore} {now : ℚ}
  {inputs : List SyncInput}

theorem stateAt_consistent (n : Nat) :
    Consistent (stateAt step (.start exchange store now) inputs n) :=
  stateAt_invariant (consistent_of_idle rfl) (fun s input h => step_consistent s input h) n

/-- Time does not go back. -/
theorem stateAt_now_mono (s : SyncState) {m n : Nat} (hmn : m ≤ n) :
    (stateAt step s inputs m).now ≤ (stateAt step s inputs n).now :=
  stateAt_mono (fun s input => (step_monitor s input).1) s inputs hmn

/-- An item in the cached list was on the exchange at some moment since any refresh. -/
theorem open_since_fetch {f n : Nat} {p : ExchangePosition}
    (hfetched : FetchedAt (.start exchange store now) inputs f) (hfn : f < n)
    (hp : p ∈ (stateAt step (.start exchange store now) inputs n).cached) :
    ∃ j, f ≤ j ∧ j < n ∧ p ∈ (stateAt step (.start exchange store now) inputs j).exchange := by
  rcases hfetched with ⟨input, hinput, hrefresh⟩
  exact cached_mirror.held_since hinput hrefresh hfn hp

/-- Behind a non-empty cached list there is a fetch no earlier than its noted time. -/
theorem exists_fetch (n : Nat) :
    (stateAt step (.start exchange store now) inputs n).cached = [] ∨
      ∃ f < n, FetchedAt (.start exchange store now) inputs f ∧
        (stateAt step (.start exchange store now) inputs n).lastFetch ≤
          (stateAt step (.start exchange store now) inputs f).now := by
  induction n with
  | zero => exact Or.inl (by rw [stateAt_zero]; rfl)
  | succ n ih =>
      cases h : inputs[n]? with
      | none =>
          rw [stateAt_succ_of_none h]
          rcases ih with hnil | ⟨f, hf, hfetched, hle⟩
          · exact Or.inl hnil
          · exact Or.inr ⟨f, by omega, hfetched, hle⟩
      | some input =>
          rw [stateAt_succ h]
          rcases step_cache (stateAt step (.start exchange store now) inputs n) input with
            ⟨hrefresh, -, existing, clock, hphase, hlast⟩ | ⟨-, hcached, hlast⟩
          · refine Or.inr ⟨n, Nat.lt_succ_self n, ⟨input, h, hrefresh⟩, ?_⟩
            rw [hlast]
            exact (stateAt_consistent n).listed existing clock hphase
          · rw [hcached, hlast]
            rcases ih with hnil | ⟨f, hf, hfetched, hle⟩
            · exact Or.inl hnil
            · exact Or.inr ⟨f, by omega, hfetched, hle⟩

/-- A closure by the manager is remembered with its time or a later one. -/
theorem forceClosedAt_le {m n : Nat} {k : Text × Side} (h : ForceClosedAt inputs m k)
    (hmn : m < n) (s : SyncState) :
    (stateAt step s inputs m).now ≤ (stateAt step s inputs n).forceClosedAt k.1 := by
  rcases h with ⟨side, hinput⟩
  induction n with
  | zero => omega
  | succ n ih =>
      by_cases hlast : m = n
      · subst hlast
        rw [stateAt_succ hinput]
        dsimp only [step]
        rw [Function.update_self]
      · have hold := ih (by omega)
        cases hnext : inputs[n]? with
        | none => rwa [stateAt_succ_of_none hnext]
        | some input =>
            rw [stateAt_succ hnext]
            rcases step_forceClosedAt (stateAt step s inputs n) input k.1 with hsame | hnew
            · rwa [hsame]
            · rw [hnew]
              exact stateAt_now_mono s (by omega)

/-- An adoption takes the next item of the cached list, outside the grace period. -/
theorem adoptedAt_cases {s : SyncState} {n : Nat} {k : Text × Side}
    (h : AdoptedAt s inputs n k) (hconsistent : Consistent (stateAt step s inputs n)) :
    ∃ p clock, p ∈ (stateAt step s inputs n).cached ∧ orphanKey p = k ∧
      clock - (stateAt step s inputs n).lastFetch < positionsCacheTtl ∧
      ¬ (0 < (stateAt step s inputs n).forceClosedAt k.1 ∧
        clock - (stateAt step s inputs n).forceClosedAt k.1 < orphanReEntryGrace) := by
  rcases h with ⟨input, -, hadopts⟩
  generalize stateAt step s inputs n = s at hadopts hconsistent ⊢
  unfold adopts at hadopts
  split at hadopts
  · split at hadopts
    · rename_i existing clock ep rest hphase
      rcases Option.map_eq_some_iff.mp hadopts with ⟨a, ha, hk⟩
      have hsync := hconsistent.syncing existing clock (ep :: rest) hphase
      unfold adoptOrphan at ha
      dsimp only at ha
      split_ifs at ha with _ hgrace
      rw [Option.some.injEq] at ha
      subst ha
      refine ⟨ep, clock, hsync.1 List.mem_cons_self, hk, hsync.2, ?_⟩
      rw [← hk]
      exact hgrace
    · cases hadopts
    · cases hadopts
    · cases hadopts
  · cases hadopts

/-- The grace period outlasts the cached list: an item adopted after a closure by the
manager was fetched after it. -/
theorem lastFetch_lt_of_grace {clock lastFetch closedAt : ℚ} (hclosed : 0 < closedAt)
    (hcache : clock - lastFetch < positionsCacheTtl)
    (hgrace : ¬ (0 < closedAt ∧ clock - closedAt < orphanReEntryGrace)) :
    closedAt < lastFetch := by
  rw [not_and, not_lt] at hgrace
  have hlate := hgrace hclosed
  rw [orphanReEntryGrace] at hlate
  rw [positionsCacheTtl] at hcache
  linarith

end Runs

/-- In a run whose adoptions are from a list refreshed after the removals by other tasks, or
of open positions, only live positions are adopted. -/
theorem orphanSync_only_live (exchange : List ExchangePosition) (store : PositionStore)
    (now : ℚ) (inputs : List SyncInput) (hnow : 0 < now)
    (hfresh : AdoptsFresh (.start exchange store now) inputs) :
    OnlyLive (.start exchange store now) inputs := by
  intro n k hadopted m hmn hremoved
  rcases adoptedAt_cases hadopted (stateAt_consistent n) with
    ⟨p, clock, hp, hkey, hcache, hgrace⟩
  have hsince : ∀ f, m < f → f < n → FetchedAt (.start exchange store now) inputs f →
      ∃ j, m < j ∧ j ≤ n ∧ IsOpen (stateAt step (.start exchange store now) inputs j) k := by
    intro f hmf hfn hfetched
    rcases open_since_fetch hfetched hfn hp with ⟨j, hfj, hjn, hj⟩
    exact ⟨j, by omega, by omega, p, hj, hkey⟩
  rcases hfresh n k hadopted m hmn hremoved with hforced | hopen | ⟨f, hmf, hfn, hfetched⟩
  · rcases exists_fetch n with hnil | ⟨f, hfn, hfetched, hle⟩
    · rw [hnil] at hp
      cases hp
    · refine hsince f ?_ hfn hfetched
      by_contra hearly
      have hclosed := forceClosedAt_le hforced hmn (.start exchange store now)
      have hstart := @stateAt_now_mono inputs (.start exchange store now) 0 m (Nat.zero_le m)
      rw [stateAt_zero] at hstart
      have hpositive : 0 < (stateAt step (.start exchange store now) inputs n).forceClosedAt k.1 :=
        (hnow.trans_le hstart).trans_le hclosed
      have hfetch := lastFetch_lt_of_grace hpositive hcache hgrace
      have hback := @stateAt_now_mono inputs (.start exchange store now) f m (by omega)
      linarith
  · exact ⟨n, hmn, le_refl n, hopen⟩
  · exact hsince f hmf hfn hfetched

/-- Its key. -/
def longKey : Text × Side :=
  ("BTC/USDT".toList, .LONG)

/-- The store with its record. -/
def longStore : PositionStore :=
  AList.singleton longKey (.opened "BTC/USDT".toList .LONG 100 1 none none none 2 0)

/-- A closed position is removed by the exit loop, opened again and adopted. -/
def reopenedRun : List SyncInput :=
  [.exitFetch true, .exitList, .exitNext, .opens .unitLong, .monitorList, .monitorFetch true,
    .monitorSync]

/-- The adoption of the position that was opened again is of a live position. -/
theorem orphanSync_adopts_reopened : OnlyLive (.start [] longStore 100) reopenedRun := by
  refine orphanSync_only_live [] longStore 100 reopenedRun (by norm_num) ?_
  rintro n k ⟨input, hinput, hadopts⟩ m hmn -
  have hlast : n = 6 := by
    by_contra hother
    have hsync : input ≠ .monitorSync := by
      rintro rfl
      have hlt : n < 7 := (List.getElem?_eq_some_iff.mp hinput).1
      interval_cases n <;> first | exact hother rfl | cases hinput
    unfold adopts at hadopts
    split at hadopts
    · exact hsync rfl
    · cases hadopts
  subst hlast
  cases hinput
  have hkey : adopts (stateAt step (.start [] longStore 100) reopenedRun 6) .monitorSync =
      some longKey := by
    decide +kernel
  rw [hkey, Option.some.injEq] at hadopts
  subst hadopts
  refine Or.inr (Or.inl ⟨.unitLong, ?_, by decide +kernel⟩)
  have hexchange : (stateAt step (.start [] longStore 100) reopenedRun 6).exchange =
      [.unitLong] := by
    decide +kernel
  rw [hexchange]
  exact List.mem_singleton_self _

/-- A stop fills, the exit loop books and removes the record, and three seconds later the
orphan sync creates it again from its cached list. -/
def stoppedRun : List SyncInput :=
  [.monitorList, .monitorFetch true, .monitorSync, .monitorSync, .closes "BTCUSDT".toList .buy,
    .exitFetch true, .exitList, .exitNext, .elapse 3, .monitorList, .monitorFetch true,
    .monitorSync]

/-- The closed and booked position is in the store again. -/
theorem orphanSync_adopts_closed :
    ¬ OnlyLive (.start [.unitLong] longStore 100) stoppedRun ∧
      (stateAt step (.start [.unitLong] longStore 100) stoppedRun 12).exchange = [] ∧
      ((stateAt step (.start [.unitLong] longStore 100) stoppedRun 12).store.lookup
        longKey).isSome = true := by
  refine ⟨fun h => ?_, by decide +kernel, by decide +kernel⟩
  have hadopted : AdoptedAt (.start [.unitLong] longStore 100) stoppedRun 11 longKey :=
    ⟨.monitorSync, rfl, by decide +kernel⟩
  have hremoved : RemovedAt (.start [.unitLong] longStore 100) stoppedRun 7 longKey :=
    ⟨AList.lookup_isSome.mp (by decide +kernel), AList.lookup_eq_none.mp (by decide +kernel)⟩
  rcases h 11 longKey hadopted 7 (by omega) hremoved with ⟨j, hlow, hhigh, p, hp, -⟩
  have hempty :
      (stateAt step (.start [.unitLong] longStore 100) stoppedRun j).exchange = [] := by
    interval_cases j
    · decide +kernel
    · decide +kernel
    · decide +kernel
    · decide +kernel
  rw [hempty] at hp
  cases hp

end OrphanSync
end Karsa
