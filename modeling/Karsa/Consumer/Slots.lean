import Karsa.Consumer.LiveSignal
import Karsa.Foundations.Pools
import Karsa.Foundations.Runs

/-!
# Signal loops - Position slots under concurrent workers

Signals of one symbol go to one worker, and a worker handles one signal at a time.  A handler
looks for positions of its symbol, counts the open positions, and then waits for the analyst,
the risk manager and the executor before it saves the new position.

A turn of a handler is one call that it awaits; the waits between the count and the save change
nothing that another handler reads, and are one turn.

Main results:

- Theorem `one_per_symbol`: no run gives a symbol two positions.
- Theorem `slots_run_iff`: the runs that stay within the limits.
-/

namespace Karsa
namespace Slots

open Live

/-! ## Store and signals -/

/-- The stored positions, with the word of the regime each was opened in. -/
abbrev Store := AList fun _ : Text × Side => Text

/-- A signal in a worker's queue. -/
structure QueuedSignal where
  symbol : Text
  direction : Side
  regime : MarketRegime
deriving Repr, DecidableEq

/-- Which loop it is. -/
inductive Loop where
  | shadow
  | live
deriving Repr, DecidableEq

/-- The loop, `KARSA_WORKER_COUNT`, `hash`, and the limits that the settings give. -/
structure Config where
  loop : Loop
  workerCount : Nat
  hash : Text → ℤ
  maxPositions : ℤ
  maxHyperSlots : ℤ

/-- `hash(symbol) % WORKER_COUNT`. -/
def Config.workerIdx (c : Config) (symbol : Text) : Nat :=
  (c.hash symbol % c.workerCount).toNat

/-- `unsupported_symbols` of the shadow loop. -/
def unsupportedSymbols : List Text :=
  ["ALLO/USDT".toList, "COIN/USDT".toList]

/-! ## Handlers -/

/-- The next call of a handler: the gates before the first look at the store, the two reads of
the duplicate check, the loss block of the shadow loop, the scan for keys, one read for each
key and then the settings, and whatever comes between the slot check and the save. -/
inductive Phase where
  | gates
  | readLong
  | readShort (hasLong : Bool)
  | losses
  | scan (keys : List (Text × Side))
  | list (keys : List (Text × Side)) (regimes : List Text)
  | admitted
deriving Repr, DecidableEq

/-- What a turn meets.  The call does not raise and its gate lets the signal go on; a scan
brings these keys of the store, and they are the last ones; the settings can be read. -/
structure Answer where
  goesOn : Bool
  keys : List (Text × Side)
  last : Bool
  settings : Bool
deriving Repr, DecidableEq

/-- Both limits; the live loop has defaults for settings that it cannot read. -/
def limits (c : Config) (a : Answer) : Option (ℤ × ℤ) :=
  if a.settings then some (c.maxPositions, c.maxHyperSlots)
  else
    match c.loop with
    | .shadow => none
    | .live => some (5, 2)

/-- The slot check: hyper regimes compete among themselves, the others with every position. -/
def slotFree (limits : ℤ × ℤ) (regimes : List Text) (regime : MarketRegime) : Bool :=
  if isHyper regime.value then decide ((regimes.countP isHyper : ℤ) < limits.2)
  else decide ((regimes.length : ℤ) < limits.1)

/-- One call of a handler that goes on: the store behind it, and the handler's next call. -/
def call (c : Config) (a : Answer) (store : Store) (signal : QueuedSignal) :
    Phase → Store × Option Phase
  | .gates => (store, some .readLong)
  | .readLong => (store, some (.readShort (store.lookup (signal.symbol, .LONG)).isSome))
  | .readShort hasLong =>
      (store,
        if hasLong || (store.lookup (signal.symbol, .SHORT)).isSome then none
        else
          match c.loop with
          | .shadow => some .losses
          | .live => some (.scan []))
  | .losses =>
      (store, if signal.symbol ∈ unsupportedSymbols then none else some (.scan []))
  | .scan keys =>
      let found := keys ++ a.keys.filter fun key => decide (key ∈ store)
      (store, if a.last then some (.list found []) else some (.scan found))
  | .list (key :: rest) regimes =>
      (store, some (.list rest (regimes ++ (store.lookup key).toList)))
  | .list [] regimes =>
      (store,
        (limits c a).bind fun limits =>
          if slotFree limits regimes signal.regime then some .admitted else none)
  | .admitted => (store.insert (signal.symbol, signal.direction) signal.regime.value, none)

/-- `_on_signal_shadow` or `_on_signal_live`: a call that raises or a gate that refuses ends
it. -/
def handle (c : Config) (a : Answer) (store : Store) (signal : QueuedSignal) (phase : Phase) :
    Store × Option Phase :=
  if a.goesOn then call c a store signal phase else (store, none)

/-! ## Workers -/

/-- A worker with its queue, and the signal that it handles. -/
structure Worker where
  workerId : Nat
  queue : List QueuedSignal
  handler : Option (QueuedSignal × Phase)
deriving Repr, DecidableEq

/-- The first call of a handler. -/
def Loop.firstPhase : Loop → Phase
  | shadow => .readLong
  | live => .gates

/-- A turn of `_signal_worker`. -/
def workerTurn (c : Config) (a : Answer) (store : Store) (w : Worker) : Store × Worker :=
  match w.handler with
  | some (signal, phase) =>
      ((handle c a store signal phase).1,
        { w with handler := (handle c a store signal phase).2.map fun next => (signal, next) })
  | none =>
      match w.queue with
      | [] => (store, w)
      | signal :: rest =>
          (store, { w with queue := rest, handler := some (signal, c.loop.firstPhase) })

/-- `on_signal` for one worker: a full queue rejects its signals. -/
def enqueue (c : Config) (signal : QueuedSignal) (w : Worker) : Worker :=
  if c.workerIdx signal.symbol = w.workerId ∧ w.queue.length < 100 then
    { w with queue := w.queue ++ [signal] }
  else w

/-- What happens next: a signal arrives, a worker gets its turn, or a position is closed. -/
inductive SlotInput where
  | signal (signal : QueuedSignal)
  | turn (i : Nat) (answer : Answer)
  | close (key : Text × Side)
deriving DecidableEq

/-- One step. -/
def step (c : Config) (p : Pool Store Worker) : SlotInput → Pool Store Worker
  | .signal signal => p.alter (enqueue c signal)
  | .turn i answer => p.turn (workerTurn c answer) i
  | .close key => p.update fun store => store.erase key

/-- Idle workers. -/
def start (c : Config) (store : Store) : Pool Store Worker where
  shared := store
  tasks := (List.range c.workerCount).map fun i => ⟨i, [], none⟩

/-! ## Limits -/

/-- The positions of HYPER regimes. -/
def hyperOpen (store : Store) : Nat :=
  store.entries.countP fun entry => isHyper entry.2

/-- The other positions. -/
def otherOpen (store : Store) : Nat :=
  store.entries.countP fun entry => !isHyper entry.2

/-- No symbol is held on both sides. -/
def OnePerSymbol (store : Store) : Prop :=
  ∀ symbol, store.lookup (symbol, .LONG) = none ∨ store.lookup (symbol, .SHORT) = none

/-- The positions fit the slots. -/
structure WithinLimits (c : Config) (store : Store) : Prop where
  single : OnePerSymbol store
  hyper : (hyperOpen store : ℤ) ≤ c.maxHyperSlots
  other : (otherOpen store : ℤ) ≤ c.maxPositions

/-- A store that is within limits. -/
structure InitialStore (c : Config) where
  store : Store
  within : WithinLimits c store

/-- There is a slot for one more position of this regime. -/
def HasSlot (c : Config) (store : Store) (regime : MarketRegime) : Prop :=
  if isHyper regime.value then (hyperOpen store : ℤ) < c.maxHyperSlots
  else (otherOpen store : ℤ) < c.maxPositions

/-- A handler that comes to its save finds a slot, still. -/
def SlotKept (c : Config) (p : Pool Store Worker) : SlotInput → Prop
  | .turn i answer =>
      answer.goesOn = true → ∀ w ∈ p.tasks[i]?, ∀ signal,
        w.handler = some (signal, .admitted) → HasSlot c p.shared signal.regime
  | .signal _ | .close _ => True

/-! ## Lookups and counts -/

/-- No position of the symbol. -/
def Free (store : Store) (symbol : Text) : Prop :=
  store.lookup (symbol, .LONG) = none ∧ store.lookup (symbol, .SHORT) = none

/-- A closed position is gone, and no other one appears. -/
theorem lookup_erase_eq_none {store : Store} {key : Text × Side}
    (h : store.lookup key = none) (closed : Text × Side) :
    (store.erase closed).lookup key = none := by
  by_cases hkey : key = closed
  · rw [hkey, AList.lookup_erase]
  · rw [AList.lookup_erase_ne hkey, h]

/-- Positions of other symbols are no positions of this one. -/
theorem lookup_insert_of_ne {store : Store} {symbol other : Text} (hne : symbol ≠ other)
    (side direction : Side) (regime : Text) :
    (store.insert (other, direction) regime).lookup (symbol, side) =
      store.lookup (symbol, side) := by
  rw [AList.lookup_insert_ne]
  rintro ⟨⟩
  exact hne rfl

/-- A symbol without a position has none under either key. -/
theorem Free.notMem {store : Store} {symbol : Text} (h : Free store symbol) (side : Side) :
    (symbol, side) ∉ store := by
  cases side with
  | LONG => exact AList.lookup_eq_none.mp h.1
  | SHORT => exact AList.lookup_eq_none.mp h.2

/-- A symbol without a position may be given one. -/
theorem OnePerSymbol.insert {store : Store} (h : OnePerSymbol store) {symbol : Text}
    (hfree : Free store symbol) (side : Side) (regime : Text) :
    OnePerSymbol (store.insert (symbol, side) regime) := by
  intro other
  by_cases hsymbol : other = symbol
  · subst hsymbol
    cases side with
    | LONG => exact Or.inr (by rw [AList.lookup_insert_ne (by simp), hfree.2])
    | SHORT => exact Or.inl (by rw [AList.lookup_insert_ne (by simp), hfree.1])
  · simpa [lookup_insert_of_ne hsymbol] using h other

/-- Closing keeps it so. -/
theorem OnePerSymbol.erase {store : Store} (h : OnePerSymbol store) (key : Text × Side) :
    OnePerSymbol (store.erase key) := by
  intro symbol
  rcases h symbol with hlong | hshort
  · exact Or.inl (lookup_erase_eq_none hlong key)
  · exact Or.inr (lookup_erase_eq_none hshort key)

/-- One more position of a HYPER regime counts there. -/
theorem hyperOpen_insert {store : Store} {key : Text × Side} (h : key ∉ store)
    (regime : Text) :
    hyperOpen (store.insert key regime) = hyperOpen store + if isHyper regime then 1 else 0 := by
  rw [hyperOpen, AList.entries_insert_of_notMem h, List.countP_cons, hyperOpen]

/-- One more position of another regime counts there. -/
theorem otherOpen_insert {store : Store} {key : Text × Side} (h : key ∉ store)
    (regime : Text) :
    otherOpen (store.insert key regime) = otherOpen store + if isHyper regime then 0 else 1 := by
  rw [otherOpen, AList.entries_insert_of_notMem h, List.countP_cons, otherOpen]
  cases isHyper regime <;> simp

/-- Closing a position frees its slot. -/
theorem hyperOpen_erase_le (store : Store) (key : Text × Side) :
    hyperOpen (store.erase key) ≤ hyperOpen store :=
  (List.kerase_sublist key store.entries).countP_le

theorem otherOpen_erase_le (store : Store) (key : Text × Side) :
    otherOpen (store.erase key) ≤ otherOpen store :=
  (List.kerase_sublist key store.entries).countP_le

/-- A position that is saved fits where there is a slot. -/
theorem withinLimits_insert_iff {c : Config} {store : Store} (h : WithinLimits c store)
    {symbol : Text} (hfree : Free store symbol) (side : Side) (regime : MarketRegime) :
    WithinLimits c (store.insert (symbol, side) regime.value) ↔ HasSlot c store regime := by
  have hhyper := hyperOpen_insert (hfree.notMem side) regime.value
  have hother := otherOpen_insert (hfree.notMem side) regime.value
  have hbounds := And.intro h.hyper h.other
  unfold HasSlot
  cases hregime : isHyper regime.value with
  | true =>
      simp only [hregime, if_true] at hhyper hother ⊢
      constructor
      · intro hafter
        have hle := hafter.hyper
        omega
      · intro hslot
        exact ⟨h.single.insert hfree side _, by omega, by omega⟩
  | false =>
      simp only [hregime, if_false, Bool.false_eq_true] at hhyper hother ⊢
      constructor
      · intro hafter
        have hle := hafter.other
        omega
      · intro hslot
        exact ⟨h.single.insert hfree side _, by omega, by omega⟩

/-- Closing a position keeps within limits. -/
theorem WithinLimits.erase {c : Config} {store : Store} (h : WithinLimits c store)
    (key : Text × Side) : WithinLimits c (store.erase key) := by
  have hhyper := h.hyper
  have hother := h.other
  have hhyperLe := hyperOpen_erase_le store key
  have hotherLe := otherOpen_erase_le store key
  exact ⟨h.single.erase key, by omega, by omega⟩

/-! ## Workers and their symbols -/

/-- What a handler knows of its symbol when it comes to a call. -/
def Knows (store : Store) (symbol : Text) : Phase → Prop
  | .gates | .readLong => True
  | .readShort hasLong => hasLong = false → store.lookup (symbol, .LONG) = none
  | .losses | .scan _ | .list _ _ | .admitted => Free store symbol

/-- The signals of a worker are its own, and what its handler knows is so. -/
structure Stands (c : Config) (store : Store) (w : Worker) : Prop where
  queue : ∀ signal ∈ w.queue, c.workerIdx signal.symbol = w.workerId
  handler : ∀ signal phase, w.handler = some (signal, phase) →
    c.workerIdx signal.symbol = w.workerId ∧ Knows store signal.symbol phase

/-- Two workers differ. -/
def Apart (v w : Worker) : Prop :=
  v.workerId ≠ w.workerId

theorem apart_symm (v w : Worker) (h : Apart v w) : Apart w v :=
  h.symm

/-- The invariant of every run. -/
abbrev Sound (c : Config) : Pool Store Worker → Prop :=
  Pool.Inv OnePerSymbol (Stands c) Apart

/-- Knowledge outlives the closing of positions. -/
theorem Knows.erase {store : Store} {symbol : Text} {phase : Phase}
    (h : Knows store symbol phase) (key : Text × Side) :
    Knows (store.erase key) symbol phase := by
  cases phase with
  | gates | readLong => trivial
  | readShort hasLong => exact fun hnone => lookup_erase_eq_none (h hnone) key
  | losses | scan _ | list _ _ | admitted =>
      exact ⟨lookup_erase_eq_none h.1 key, lookup_erase_eq_none h.2 key⟩

/-- Knowledge of one symbol outlives positions of another one. -/
theorem Knows.insert {store : Store} {symbol other : Text} {phase : Phase}
    (h : Knows store symbol phase) (hne : symbol ≠ other) (side : Side) (regime : Text) :
    Knows (store.insert (other, side) regime) symbol phase := by
  cases phase with
  | gates | readLong => trivial
  | readShort hasLong =>
      intro hnone
      rw [lookup_insert_of_ne hne, h hnone]
  | losses | scan _ | list _ _ | admitted =>
      exact ⟨by rw [lookup_insert_of_ne hne, h.1], by rw [lookup_insert_of_ne hne, h.2]⟩

/-- Only an admitted handler that goes on changes the store. -/
theorem handle_store (c : Config) (a : Answer) (store : Store) (signal : QueuedSignal)
    (phase : Phase) :
    ((phase = .admitted → a.goesOn = false) ∧ (handle c a store signal phase).1 = store) ∨
      phase = .admitted ∧ a.goesOn = true ∧ (handle c a store signal phase).1 =
        store.insert (signal.symbol, signal.direction) signal.regime.value := by
  cases hgoes : a.goesOn with
  | false => exact Or.inl ⟨fun _ => rfl, by simp [handle, hgoes]⟩
  | true =>
      cases phase with
      | admitted => exact Or.inr ⟨rfl, rfl, by simp [handle, hgoes, call]⟩
      | list keys regimes =>
          refine Or.inl ⟨nofun, ?_⟩
          cases keys <;> simp [handle, hgoes, call]
      | gates | readLong | readShort _ | losses | scan _ =>
          exact Or.inl ⟨nofun, by simp [handle, hgoes, call]⟩

/-- A handler knows at its next call what it has to know there. -/
theorem handle_knows {c : Config} {a : Answer} {store : Store} {signal : QueuedSignal}
    {phase next : Phase} (h : Knows store signal.symbol phase)
    (hnext : (handle c a store signal phase).2 = some next) :
    Knows (handle c a store signal phase).1 signal.symbol next := by
  cases hgoes : a.goesOn with
  | false => simp [handle, hgoes] at hnext
  | true =>
      simp only [handle, hgoes, if_true] at hnext ⊢
      cases phase with
      | gates =>
          cases hnext
          trivial
      | readLong =>
          cases hnext
          exact fun hnone => Option.isNone_iff_eq_none.mp (Option.isSome_eq_false_iff.mp hnone)
      | readShort hasLong =>
          simp only [call] at hnext
          split at hnext
          · cases hnext
          · rename_i hheld
            have hboth : hasLong = false ∧ store.lookup (signal.symbol, .SHORT) = none := by
              simpa using hheld
            have hfree : Free store signal.symbol := ⟨h hboth.1, hboth.2⟩
            cases hloop : c.loop <;> simp only [hloop] at hnext <;> cases hnext <;> exact hfree
      | losses =>
          simp only [call] at hnext
          split at hnext
          · cases hnext
          · cases hnext
            exact h
      | scan keys =>
          simp only [call] at hnext
          split at hnext <;> cases hnext <;> exact h
      | list keys regimes =>
          cases keys with
          | cons key rest =>
              cases hnext
              exact h
          | nil =>
              rcases Option.bind_eq_some_iff.mp hnext with ⟨limits, -, hslot⟩
              split at hslot
              · cases hslot
                exact h
              · cases hslot
      | admitted => cases hnext

/-! ## Runs -/

/-- A turn of a worker changes the store only where its handler saves. -/
theorem workerTurn_store (c : Config) (a : Answer) (store : Store) (w : Worker) :
    ((∀ signal, w.handler = some (signal, .admitted) → a.goesOn = false) ∧
        (workerTurn c a store w).1 = store) ∨
      ∃ signal, w.handler = some (signal, .admitted) ∧ a.goesOn = true ∧
        (workerTurn c a store w).1 =
          store.insert (signal.symbol, signal.direction) signal.regime.value := by
  cases hhandler : w.handler with
  | none =>
      refine Or.inl ⟨nofun, ?_⟩
      simp only [workerTurn, hhandler]
      cases w.queue <;> rfl
  | some handler =>
      rcases handler with ⟨signal, phase⟩
      simp only [workerTurn, hhandler]
      rcases handle_store c a store signal phase with ⟨hrefuses, hsame⟩ | ⟨rfl, hgoes, hsave⟩
      · refine Or.inl ⟨fun signal' hsaving => ?_, hsame⟩
        cases hsaving
        exact hrefuses rfl
      · exact Or.inr ⟨signal, rfl, hgoes, hsave⟩

/-- A worker keeps its number, and stands where it should after its turn. -/
theorem workerTurn_stands {c : Config} {a : Answer} {store : Store} {w : Worker}
    (h : Stands c store w) :
    Stands c (workerTurn c a store w).1 (workerTurn c a store w).2 ∧
      (workerTurn c a store w).2.workerId = w.workerId := by
  cases hhandler : w.handler with
  | some handler =>
      rcases handler with ⟨signal, phase⟩
      rcases h.handler signal phase hhandler with ⟨hworker, hknows⟩
      simp only [workerTurn, hhandler]
      refine ⟨⟨h.queue, fun signal' phase' hnext => ?_⟩, trivial⟩
      rcases Option.map_eq_some_iff.mp hnext with ⟨next, hnext', heq⟩
      cases heq
      exact ⟨hworker, handle_knows hknows hnext'⟩
  | none =>
      cases hqueue : w.queue with
      | nil =>
          simp only [workerTurn, hhandler, hqueue]
          exact ⟨h, trivial⟩
      | cons signal rest =>
          have hqueued := h.queue
          rw [hqueue] at hqueued
          simp only [workerTurn, hhandler, hqueue]
          refine ⟨⟨fun s hs => hqueued s (List.mem_cons_of_mem _ hs), fun s phase hnext => ?_⟩,
            trivial⟩
          cases hnext
          refine ⟨hqueued signal List.mem_cons_self, ?_⟩
          cases c.loop <;> trivial

/-- A worker does not notice what another one does. -/
theorem stands_beside {c : Config} {a : Answer} {store : Store} {v w : Worker}
    (hv : Stands c store v) (hw : Stands c store w) (hapart : Apart v w) :
    Stands c (workerTurn c a store v).1 w := by
  rcases workerTurn_store c a store v with ⟨-, hsame⟩ | ⟨signal, hsaving, -, hsave⟩
  · rw [hsame]
    exact hw
  · rw [hsave]
    refine ⟨hw.queue, fun signal' phase hhandler => ?_⟩
    rcases hw.handler signal' phase hhandler with ⟨hworker, hknows⟩
    refine ⟨hworker, hknows.insert ?_ _ _⟩
    intro hsymbol
    have hother := (hv.handler signal _ hsaving).1
    rw [← hsymbol, hworker] at hother
    exact hapart hother.symm

/-- Every step keeps the invariant. -/
theorem step_sound {c : Config} {p : Pool Store Worker} (h : Sound c p) (input : SlotInput) :
    Sound c (step c p input) := by
  cases input with
  | signal signal =>
      have hid : ∀ w : Worker, (enqueue c signal w).workerId = w.workerId := by
        intro w
        rw [enqueue]
        split <;> rfl
      refine h.alter (fun w _ hw => ?_) fun v w hapart => by rwa [Apart, hid, hid]
      rw [enqueue]
      split
      · rename_i hqueue
        refine ⟨fun s hs => ?_, hw.handler⟩
        rcases List.mem_append.mp hs with hold | hnew
        · exact hw.queue s hold
        · rw [List.mem_singleton.mp hnew]
          exact hqueue.1
      · exact hw
  | turn i a =>
      refine h.turn apart_symm i (fun w hi => ?_) fun v hi w hw hapart => ?_
      · have hw := h.each w (List.mem_of_getElem? hi)
        refine ⟨?_, (workerTurn_stands hw).1⟩
        rcases workerTurn_store c a p.shared w with ⟨-, hsame⟩ | ⟨signal, hsaving, -, hsave⟩
        · rw [hsame]
          exact h.shared
        · rw [hsave]
          exact h.shared.insert (hw.handler signal _ hsaving).2 _ _
      · have hv := h.each v (List.mem_of_getElem? hi)
        refine ⟨stands_beside hv (h.each w hw) hapart, ?_⟩
        rw [Apart, (workerTurn_stands hv).2]
        exact hapart
  | close key =>
      exact h.update (h.shared.erase key) fun w hw =>
        ⟨(h.each w hw).queue, fun signal phase hhandler =>
          ((h.each w hw).handler signal phase hhandler).imp_right fun hknows =>
            hknows.erase key⟩

/-- Idle workers meet the invariant. -/
theorem start_sound (c : Config) {store : Store} (h : OnePerSymbol store) :
    Sound c (start c store) := by
  refine ⟨h, fun w hw => ?_, List.pairwise_map.mpr ?_⟩
  · rcases List.mem_map.mp hw with ⟨i, -, rfl⟩
    exact ⟨nofun, nofun⟩
  · exact List.nodup_range.imp fun hne => hne

/-- No run gives a symbol two positions. -/
theorem one_per_symbol (c : Config) {store : Store} (h : OnePerSymbol store)
    (inputs : List SlotInput) (n : Nat) :
    OnePerSymbol (stateAt (step c) (start c store) inputs n).shared :=
  (stateAt_invariant (start_sound c h) (fun _ input hs => step_sound hs input) n).shared

/-- A step keeps within the limits if the slot of the handler that saves is still there. -/
theorem step_within_iff {c : Config} {p : Pool Store Worker} (hsound : Sound c p)
    (hwithin : WithinLimits c p.shared) (input : SlotInput) :
    WithinLimits c (step c p input).shared ↔ SlotKept c p input := by
  cases input with
  | signal signal => exact iff_of_true hwithin trivial
  | close key => exact iff_of_true (hwithin.erase key) trivial
  | turn i a =>
      cases hi : p.tasks[i]? with
      | none =>
          rw [step, Pool.turn_of_none hi]
          exact iff_of_true hwithin fun _ w hw => by simp [hi] at hw
      | some w =>
          have hw := hsound.each w (List.mem_of_getElem? hi)
          rw [step, Pool.turn_of_some hi]
          rcases workerTurn_store c a p.shared w with
            ⟨hrefuses, hsame⟩ | ⟨signal, hsaving, hgoes, hsave⟩
          · rw [hsame]
            refine iff_of_true hwithin fun hgoes v hv signal hsaving => ?_
            have hvw : w = v := by simpa [hi] using hv
            rw [← hvw] at hsaving
            simp [hrefuses signal hsaving] at hgoes
          · rw [hsave, withinLimits_insert_iff hwithin (hw.handler signal _ hsaving).2]
            constructor
            · intro hslot _ v hv signal' hsaving'
              have hvw : w = v := by simpa [hi] using hv
              rw [← hvw, hsaving] at hsaving'
              cases hsaving'
              exact hslot
            · intro hkept
              exact hkept hgoes w hi signal hsaving

/-- The runs that stay within the limits are those in which every handler that comes to its
save still finds a slot. -/
theorem slots_run_iff (c : Config) (initial : InitialStore c) (inputs : List SlotInput) :
    (∀ n, WithinLimits c (run (step c) (start c initial.store) (inputs.take n)).shared) ↔
      Admits (step c) (SlotKept c) (start c initial.store) inputs := by
  exact invariant_iff_admits_beside (Sound c) (fun p => WithinLimits c p.shared)
    (fun _ input hp => step_sound hp input)
    (fun _ input hp hwithin => step_within_iff hp hwithin input)
    (start_sound c initial.within.single) initial.within

/-- Two workers, one HYPER slot, and no position. -/
def twoWorkers : Config where
  loop := .shadow
  workerCount := 2
  hash := fun symbol => symbol.length
  maxPositions := 5
  maxHyperSlots := 1

/-- The answer that lets every handler go on. -/
def goOn : Answer := ⟨true, [], true, true⟩

/-- Both workers count the positions before either saves its own. -/
def twoHandlers : List SlotInput :=
  [.signal ⟨"BTC/USDT".toList, .LONG, .HYPER_BULL⟩,
      .signal ⟨"DOGE/USDT".toList, .LONG, .HYPER_BULL⟩] ++
    ((List.replicate 6 (.turn 0 goOn)) ++ (List.replicate 6 (.turn 1 goOn))) ++
    [.turn 0 goOn, .turn 1 goOn]

/-- Two handlers take the last slot. -/
theorem twoHandlers_not_within :
    ¬ ∀ (c : Config) (initial : InitialStore c) (inputs : List SlotInput) (n : Nat),
      WithinLimits c (run (step c) (start c initial.store) (inputs.take n)).shared := by
  intro h
  have hempty : WithinLimits twoWorkers ∅ :=
    ⟨fun _ => Or.inl rfl, by decide +kernel, by decide +kernel⟩
  have hhyper : (hyperOpen (run (step twoWorkers) (start twoWorkers ∅)
      (twoHandlers.take 16)).shared : ℤ) ≤ twoWorkers.maxHyperSlots :=
    (h twoWorkers ⟨∅, hempty⟩ twoHandlers 16).hyper
  clear hempty
  revert hhyper
  decide +kernel

end Slots
end Karsa
