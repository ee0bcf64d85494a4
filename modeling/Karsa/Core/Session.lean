import Karsa.Foundations.Pools
import Karsa.Foundations.Runs
import Mathlib.Algebra.Order.Ring.Rat
import Mathlib.Data.NNRat.Defs
import Mathlib.Tactic.Linarith

/-!
# Autonomous sessions - Three keys and their writers

A session is three Redis keys: its config, the flag that it is active, and its start time.
`start_session` and `stop_session` write them one after the other, and the loop that ends
expired sessions, in a process of its own, reads them one after the other.  Nothing holds
the keys together.

The keys carry the number of the start that wrote them.  A turn is one Redis call.

Main results:

- Theorem `step_inv`: what every orderly step keeps.
- Theorem `orderly_safe`: the sessions of an orderly run end, and fit together, as they should.
-/

namespace Karsa
namespace Session

/-! ## Keys and tasks -/

/-- The JSON under `karsa:auto:config`. -/
structure SessionConfig where
  riskPct : ℤ
  maxPos : ℤ
  intervalMin : ℤ
  durationMin : ℤ
deriving Repr, DecidableEq

/-- The keys with the number of the start that wrote each; `active` tells which start wrote
`"1"`.  Then the clock, how many starts there were, whether one is open, how often starts
wrote the config and the start time, whether an expiry stopped a session that it had not
compared or that had time left, and whether a stop was the last thing to begin and is done. -/
structure Store where
  config : Option (Nat × SessionConfig)
  active : Option Nat
  startTime : Option (Nat × ℚ)
  clock : ℚ
  starts : Nat
  isOpen : Bool
  configWrites : Nat
  startTimeWrites : Nat
  misStopped : Bool
  stopped : Bool
deriving Repr, DecidableEq

/-- What the loop compared before it stopped a session, with the counts of writes at its
reads. -/
structure Expiry where
  config : Nat × SessionConfig
  startTime : Nat × ℚ
  configWrites : Nat
  startTimeWrites : Nat
deriving Repr, DecidableEq

/-- The next call of `start_session`. -/
inductive StartPhase where
  | setConfig
  | setActive
  | setStartTime
  | verify
deriving Repr, DecidableEq

/-- The next call of `stop_session`. -/
inductive StopPhase where
  | setInactive
  | deleteConfig
  | deleteStartTime
  | verify
deriving Repr, DecidableEq

/-- The next call of one round of `run_loop`. -/
inductive CheckPhase where
  | readActive
  | readConfig
  | readStartTime (config : Nat × SessionConfig) (configWrites : Nat)
deriving Repr, DecidableEq

/-- A task; a stop knows how many starts there were before it, and why it was called. -/
inductive SessionTask where
  | starting (id : Nat) (config : SessionConfig) (phase : StartPhase)
  | stopping (before : Nat) (expiry : Option Expiry) (phase : StopPhase)
  | checking (phase : CheckPhase)
  | done
deriving Repr, DecidableEq

namespace SessionTask

/-- Is it a start in progress? -/
def isStart : SessionTask → Bool
  | starting _ _ _ => true
  | stopping _ _ _ | checking _ | done => false

/-- Is it a stop in progress? -/
def isStop : SessionTask → Bool
  | stopping _ _ _ => true
  | starting _ _ _ | checking _ | done => false

/-- Is it a stop that has cleared the flag and not yet the other two keys? -/
def isClearing : SessionTask → Bool
  | stopping _ _ .deleteConfig | stopping _ _ .deleteStartTime => true
  | stopping _ _ .setInactive | stopping _ _ .verify => false
  | starting _ _ _ | checking _ | done => false

end SessionTask

/-! ## Steps -/

/-- `elapsed >= config["duration_min"] * 60`. -/
def Expired (clock : ℚ) (config : SessionConfig) (startTime : ℚ) : Prop :=
  (config.durationMin : ℚ) * 60 ≤ clock - startTime

instance (clock : ℚ) (config : SessionConfig) (startTime : ℚ) :
    Decidable (Expired clock config startTime) :=
  inferInstanceAs (Decidable (_ ≤ _))

/-- Does the expiry concern this session, and has its duration elapsed? -/
def Expiry.Of (e : Expiry) (clock : ℚ) (id : Nat) : Prop :=
  e.config.1 = id ∧ e.startTime.1 = id ∧ Expired clock e.config.2 e.startTime.2

instance (e : Expiry) (clock : ℚ) (id : Nat) : Decidable (e.Of clock id) :=
  inferInstanceAs (Decidable (_ ∧ _ ∧ _))

/-- Is an active session stopped by an expiry that does not concern it? -/
def Store.stopsWrongly (s : Store) (expiry : Option Expiry) : Bool :=
  s.active.any fun id => expiry.any fun e => !decide (e.Of s.clock id)

/-- One call of `start_session`. -/
def startCall (s : Store) (id : Nat) (config : SessionConfig) :
    StartPhase → Store × SessionTask
  | .setConfig =>
      ({ s with config := some (id, config), configWrites := s.configWrites + 1 },
        .starting id config .setActive)
  | .setActive => ({ s with active := some id }, .starting id config .setStartTime)
  | .setStartTime =>
      ({ s with startTime := some (id, s.clock), startTimeWrites := s.startTimeWrites + 1 },
        .starting id config .verify)
  | .verify => ({ s with isOpen := false }, .done)

/-- One call of `stop_session`. -/
def stopCall (s : Store) (before : Nat) (expiry : Option Expiry) :
    StopPhase → Store × SessionTask
  | .setInactive =>
      ({ s with active := none, misStopped := s.misStopped || s.stopsWrongly expiry },
        .stopping before expiry .deleteConfig)
  | .deleteConfig => ({ s with config := none }, .stopping before expiry .deleteStartTime)
  | .deleteStartTime => ({ s with startTime := none }, .stopping before expiry .verify)
  | .verify => ({ s with stopped := s.stopped || decide (s.starts = before) }, .done)

/-- One call of a round of `run_loop`; an expired session is stopped next. -/
def checkCall (s : Store) : CheckPhase → SessionTask
  | .readActive => if s.active.isSome then .checking .readConfig else .done
  | .readConfig =>
      match s.config with
      | none => .done
      | some config => .checking (.readStartTime config s.configWrites)
  | .readStartTime config configWrites =>
      match s.startTime with
      | none => .done
      | some startTime =>
          if 0 < config.2.durationMin ∧ Expired s.clock config.2 startTime.2 then
            .stopping s.starts (some ⟨config, startTime, configWrites, s.startTimeWrites⟩)
              .setInactive
          else .done

/-- One turn of a task. -/
def act (s : Store) : SessionTask → Store × SessionTask
  | .starting id config phase => startCall s id config phase
  | .stopping before expiry phase => stopCall s before expiry phase
  | .checking phase => (s, checkCall s phase)
  | .done => (s, .done)

/-- Before the first session. -/
def start (clock : ℚ) : Pool Store SessionTask where
  shared :=
    { config := none, active := none, startTime := none, clock := clock, starts := 0
      isOpen := false, configWrites := 0, startTimeWrites := 0, misStopped := false
      stopped := false }
  tasks := []

/-- What happens next. -/
inductive SessionInput where
  | start (config : SessionConfig)
  | stop
  | check
  | turn (i : Nat)
  | advance (elapsed : ℚ≥0)
deriving DecidableEq

/-- One step. -/
def step (p : Pool Store SessionTask) : SessionInput → Pool Store SessionTask
  | .start config =>
      (p.update fun s =>
        { s with starts := s.starts + 1, isOpen := true, stopped := false }).spawn
          (.starting p.shared.starts config .setConfig)
  | .stop => p.spawn (.stopping p.shared.starts none .setInactive)
  | .check => p.spawn (.checking .readActive)
  | .turn i => p.turn act i
  | .advance elapsed => p.update fun s => { s with clock := s.clock + elapsed }

/-! ## Safety and order -/

/-- No start and no stop is in progress. -/
def Quiescent (p : Pool Store SessionTask) : Prop :=
  ∀ t ∈ p.tasks, t.isStart = false ∧ t.isStop = false

/-- Expiry stops only the session that it compared and whose duration has elapsed, an active
session without a start or stop in progress has the config and the start time of one start,
and after a stop without a later start no session is active. -/
structure Safe (p : Pool Store SessionTask) : Prop where
  stops : p.shared.misStopped = false
  fits : Quiescent p → p.shared.active.isSome = true →
    ∃ id config at', p.shared.config = some (id, config) ∧ p.shared.startTime = some (id, at')
  inactive : p.shared.stopped = true → p.shared.active = none

/-- A stop begins to write with no start in progress and, if it is an expiry, only if no start
wrote since what it read. -/
def BeginsInOrder (p : Pool Store SessionTask) : SessionTask → Prop
  | .stopping _ expiry .setInactive =>
      (∀ t ∈ p.tasks, t.isStart = false) ∧
        ∀ e ∈ expiry, e.configWrites = p.shared.configWrites ∧
          e.startTimeWrites = p.shared.startTimeWrites
  | .stopping _ _ _ | .starting _ _ _ | .checking _ | .done => True

instance (p : Pool Store SessionTask) : DecidablePred (BeginsInOrder p)
  | .stopping _ _ .setInactive => inferInstanceAs (Decidable (_ ∧ _))
  | .stopping _ _ .deleteConfig | .stopping _ _ .deleteStartTime | .stopping _ _ .verify
  | .starting _ _ _ | .checking _ | .done => isTrue trivial

/-- A start begins with no start in progress and no stop halfway through the keys, and stops
begin to write in order. -/
def Orderly (p : Pool Store SessionTask) : SessionInput → Prop
  | .start _ => ∀ t ∈ p.tasks, t.isStart = false ∧ t.isClearing = false
  | .turn i => ∀ t ∈ p.tasks[i]?, BeginsInOrder p t
  | .stop | .check | .advance _ => True

instance (p : Pool Store SessionTask) : DecidablePred (Orderly p)
  | .start _ => inferInstanceAs (Decidable (∀ t ∈ p.tasks, _))
  | .turn i => inferInstanceAs (Decidable (∀ t ∈ p.tasks[i]?, _))
  | .stop | .check | .advance _ => isTrue trivial

/-! ## Invariant -/

/-- The config and the start time are those of the start of this number. -/
def Store.FitsAt (s : Store) (id : Nat) : Prop :=
  (∃ config, s.config = some (id, config)) ∧ ∃ at', s.startTime = some (id, at')

/-- With no start in progress the three keys fit together. -/
structure Store.Sound (s : Store) : Prop where
  stops : s.misStopped = false
  fits : s.isOpen = false → ∀ id, s.active = some id → s.FitsAt id
  inactive : s.stopped = true → s.active = none

/-- What a start has written when it comes to a call. -/
def Store.Written (s : Store) (id : Nat) (config : SessionConfig) : StartPhase → Prop
  | .setConfig => True
  | .setActive => s.config = some (id, config)
  | .setStartTime => s.config = some (id, config) ∧ s.active = some id
  | .verify =>
      s.config = some (id, config) ∧ s.active = some id ∧ ∃ at', s.startTime = some (id, at')

/-- The key is unset or as read, unless it was written since. -/
def AsRead {α : Type} (key : Option α) (writes : Nat) (value : α) (writesThen : Nat) : Prop :=
  writesThen ≤ writes ∧ (writesThen = writes → ∀ value' ∈ key, value' = value)

/-- What an expiry compared is as it was read, and the duration has elapsed. -/
structure Store.Compared (s : Store) (e : Expiry) : Prop where
  config : AsRead s.config s.configWrites e.config e.configWrites
  startTime : AsRead s.startTime s.startTimeWrites e.startTime e.startTimeWrites
  expired : Expired s.clock e.config.2 e.startTime.2

/-- Where the tasks stand against the keys. -/
def Store.Stands (s : Store) : SessionTask → Prop
  | .starting id config phase =>
      s.isOpen = true ∧ s.stopped = false ∧ s.Written id config phase
  | .stopping before expiry .setInactive =>
      before ≤ s.starts ∧ ∀ e ∈ expiry, s.Compared e
  | .stopping before _ .deleteConfig | .stopping before _ .deleteStartTime =>
      before ≤ s.starts ∧ s.isOpen = false ∧ s.active = none
  | .stopping before _ .verify =>
      before ≤ s.starts ∧ (s.starts = before → s.isOpen = false ∧ s.active = none)
  | .checking (.readStartTime config writes) =>
      AsRead s.config s.configWrites config writes
  | .checking _ | .done => True

/-- Not two starts at a time. -/
def Apart (t u : SessionTask) : Prop :=
  t.isStart = false ∨ u.isStart = false

/-- The invariant of orderly runs: while a start is open, there is one. -/
structure Sound (p : Pool Store SessionTask) : Prop where
  pool : p.Inv Store.Sound Store.Stands Apart
  opened : p.shared.isOpen = true → ∃ t ∈ p.tasks, t.isStart = true

namespace AsRead

variable {α : Type} {key : Option α} {writes writesThen : Nat} {value : α}

/-- Deleting the key changes nothing for its readers. -/
theorem delete (h : AsRead key writes value writesThen) : AsRead none writes value writesThen :=
  ⟨h.1, fun _ _ hnone => nomatch hnone⟩

/-- A write is noticed. -/
theorem write (h : AsRead key writes value writesThen) (key' : Option α) :
    AsRead key' (writes + 1) value writesThen := by
  have hlt : writesThen < writes + 1 := Nat.lt_succ_of_le h.1
  exact ⟨hlt.le, fun heq => absurd heq (Nat.ne_of_lt hlt)⟩

/-- A read is as read. -/
theorem read (hkey : key = some value) : AsRead key writes value writes := by
  refine ⟨le_refl _, fun _ value' hvalue' => ?_⟩
  simpa [hkey] using hvalue'.symm

end AsRead

/-! ## Calls -/

/-- A call of a start keeps the keys sound and brings the start to its next call. -/
theorem startCall_sound {s : Store} (h : s.Sound) {id : Nat} {config : SessionConfig}
    {phase : StartPhase} (ht : s.Stands (.starting id config phase)) :
    (startCall s id config phase).1.Sound ∧
      (startCall s id config phase).1.Stands (startCall s id config phase).2 := by
  rcases ht with ⟨hopen, hstopped, hwritten⟩
  cases phase with
  | setConfig =>
      refine ⟨⟨h.stops, fun hclosed => ?_, h.inactive⟩, hopen, hstopped, rfl⟩
      simp [startCall, hopen] at hclosed
  | setActive =>
      refine ⟨⟨h.stops, fun hclosed => ?_, fun hstop => ?_⟩, hopen, hstopped, hwritten, rfl⟩
      · simp [startCall, hopen] at hclosed
      · simp [startCall, hstopped] at hstop
  | setStartTime =>
      refine ⟨⟨h.stops, fun hclosed => ?_, h.inactive⟩, hopen, hstopped, hwritten.1,
        hwritten.2, s.clock, rfl⟩
      simp [startCall, hopen] at hclosed
  | verify =>
      rcases hwritten with ⟨hconfig, hactive, hstart⟩
      refine ⟨⟨h.stops, fun _ id' hid' => ?_, h.inactive⟩, trivial⟩
      have hid : id = id' := by simpa [startCall, hactive] using hid'
      rw [← hid]
      exact ⟨⟨config, hconfig⟩, hstart⟩

/-- The tasks beside a start are no starts, and stand where they stood. -/
theorem startCall_beside {s : Store} {id : Nat} {config : SessionConfig} {phase : StartPhase}
    (ht : s.Stands (.starting id config phase)) {u : SessionTask} (hu : s.Stands u)
    (hstart : u.isStart = false) : (startCall s id config phase).1.Stands u := by
  have hopen : s.isOpen = true := ht.1
  cases u with
  | starting id' config' phase' => simp [SessionTask.isStart] at hstart
  | stopping before expiry phase' =>
      cases phase' with
      | setInactive =>
          refine ⟨?_, fun e he => ?_⟩
          · cases phase <;> exact hu.1
          · have hcompared := hu.2 e he
            cases phase with
            | setConfig =>
                exact ⟨hcompared.config.write _, hcompared.startTime, hcompared.expired⟩
            | setStartTime =>
                exact ⟨hcompared.config, hcompared.startTime.write _, hcompared.expired⟩
            | setActive | verify =>
                exact ⟨hcompared.config, hcompared.startTime, hcompared.expired⟩
      | deleteConfig | deleteStartTime => simp [Store.Stands, hopen] at hu
      | verify =>
          have hlater : s.starts ≠ before := by
            intro heq
            have hclosed : s.isOpen = false := (hu.2 heq).1
            simp [hopen] at hclosed
          refine ⟨?_, fun heq => absurd ?_ hlater⟩
          · cases phase <;> exact hu.1
          · cases phase <;> exact heq
  | checking phase' =>
      cases phase' with
      | readActive | readConfig => trivial
      | readStartTime config' writes =>
          cases phase with
          | setConfig => exact AsRead.write hu _
          | setActive | setStartTime | verify => exact hu
  | done => trivial

/-- With no start open, an expiry whose reads are current concerns the active session. -/
theorem stopsWrongly_of_compared {s : Store} (h : s.Sound) (hclosed : s.isOpen = false)
    {expiry : Option Expiry} (hcompared : ∀ e ∈ expiry, s.Compared e)
    (hcurrent : ∀ e ∈ expiry, e.configWrites = s.configWrites ∧
      e.startTimeWrites = s.startTimeWrites) : s.stopsWrongly expiry = false := by
  cases hactive : s.active with
  | none => simp [Store.stopsWrongly, hactive]
  | some id =>
      cases expiry with
      | none => simp [Store.stopsWrongly]
      | some e =>
          rcases h.fits hclosed id hactive with ⟨⟨config, hconfig⟩, at', hstart⟩
          have he := hcompared e rfl
          have hthen := hcurrent e rfl
          have hofConfig : (id, config) = e.config := he.config.2 hthen.1 _ hconfig
          have hofStart : (id, at') = e.startTime := he.startTime.2 hthen.2 _ hstart
          have hof : e.Of s.clock id := ⟨by rw [← hofConfig], by rw [← hofStart], he.expired⟩
          simp [Store.stopsWrongly, hactive, hof]

/-- A call of a stop keeps the keys sound and brings the stop to its next call, if it begins to
write in time. -/
theorem stopCall_sound {s : Store} (h : s.Sound) {before : Nat} {expiry : Option Expiry}
    {phase : StopPhase} (ht : s.Stands (.stopping before expiry phase))
    (hbegin : phase = .setInactive → s.isOpen = false ∧ s.stopsWrongly expiry = false) :
    (stopCall s before expiry phase).1.Sound ∧
      (stopCall s before expiry phase).1.Stands (stopCall s before expiry phase).2 := by
  cases phase with
  | setInactive =>
      rcases hbegin rfl with ⟨hclosed, hright⟩
      refine ⟨⟨?_, fun _ id hid => ?_, fun _ => rfl⟩, ht.1, hclosed, rfl⟩
      · simp [stopCall, h.stops, hright]
      · simp [stopCall] at hid
  | deleteConfig =>
      rcases ht with ⟨hbefore, hclosed, hinactive⟩
      refine ⟨⟨h.stops, fun _ id hid => ?_, h.inactive⟩, hbefore, hclosed, hinactive⟩
      simp [stopCall, hinactive] at hid
  | deleteStartTime =>
      rcases ht with ⟨hbefore, hclosed, hinactive⟩
      refine ⟨⟨h.stops, fun _ id hid => ?_, h.inactive⟩, hbefore, fun _ => ⟨hclosed, hinactive⟩⟩
      simp [stopCall, hinactive] at hid
  | verify =>
      refine ⟨⟨h.stops, h.fits, fun hstopped => ?_⟩, trivial⟩
      rcases Bool.or_eq_true_iff.mp hstopped with hold | hlast
      · exact h.inactive hold
      · exact (ht.2 (of_decide_eq_true hlast)).2

/-- The tasks beside a stop stand where they stood, and no start was among them when it was
the last to finish. -/
theorem stopCall_beside {s : Store} {before : Nat} {expiry : Option Expiry}
    {phase : StopPhase} (ht : s.Stands (.stopping before expiry phase)) {u : SessionTask}
    (hu : s.Stands u) (hbegin : phase = .setInactive → s.isOpen = false) :
    (stopCall s before expiry phase).1.Stands u := by
  cases u with
  | starting id config phase' =>
      rcases hu with ⟨hopen, hstopped, hwritten⟩
      cases phase with
      | setInactive => simp [hopen] at hbegin
      | deleteConfig | deleteStartTime => simp [Store.Stands, hopen] at ht
      | verify =>
          have hlater : s.starts ≠ before := by
            intro heq
            have hclosed : s.isOpen = false := (ht.2 heq).1
            simp [hopen] at hclosed
          refine ⟨hopen, ?_, ?_⟩
          · simp [stopCall, hstopped, hlater]
          · cases phase' <;> exact hwritten
  | stopping before' expiry' phase' =>
      cases phase' with
      | setInactive =>
          refine ⟨?_, fun e he => ?_⟩
          · cases phase <;> exact hu.1
          · have hcompared := hu.2 e he
            cases phase with
            | setInactive | verify =>
                exact ⟨hcompared.config, hcompared.startTime, hcompared.expired⟩
            | deleteConfig =>
                exact ⟨hcompared.config.delete, hcompared.startTime, hcompared.expired⟩
            | deleteStartTime =>
                exact ⟨hcompared.config, hcompared.startTime.delete, hcompared.expired⟩
      | deleteConfig | deleteStartTime =>
          rcases hu with ⟨hbefore, hclosed, hinactive⟩
          cases phase with
          | setInactive => exact ⟨hbefore, hclosed, rfl⟩
          | deleteConfig | deleteStartTime | verify => exact ⟨hbefore, hclosed, hinactive⟩
      | verify =>
          cases phase with
          | setInactive => exact ⟨hu.1, fun heq => ⟨(hu.2 heq).1, rfl⟩⟩
          | deleteConfig | deleteStartTime | verify => exact hu
  | checking phase' =>
      cases phase' with
      | readActive | readConfig => trivial
      | readStartTime config writes =>
          cases phase with
          | deleteConfig => exact AsRead.delete hu
          | setInactive | deleteStartTime | verify => exact hu
  | done => trivial

/-- A call of a round brings the round to its next call. -/
theorem checkCall_sound {s : Store} {phase : CheckPhase} (ht : s.Stands (.checking phase)) :
    s.Stands (checkCall s phase) := by
  cases phase with
  | readActive =>
      simp only [checkCall]
      split <;> trivial
  | readConfig =>
      cases hconfig : s.config with
      | none => simp [checkCall, hconfig, Store.Stands]
      | some config =>
          simp only [checkCall, hconfig]
          exact AsRead.read hconfig
  | readStartTime config writes =>
      cases hstart : s.startTime with
      | none => simp [checkCall, hstart, Store.Stands]
      | some at' =>
          simp only [checkCall, hstart]
          split
          · rename_i hexpired
            refine ⟨le_refl _, fun e he => ?_⟩
            obtain rfl : e = _ := (Option.some.inj he).symm
            exact ⟨ht, AsRead.read hstart, hexpired.2⟩
          · trivial

/-! ## Steps keep the invariant -/

/-- Only calls of a start leave a start behind. -/
theorem isStart_act (s : Store) (t : SessionTask) (h : t.isStart = false) :
    (act s t).2.isStart = false := by
  cases t with
  | starting id config phase => simp [SessionTask.isStart] at h
  | stopping before expiry phase => cases phase <;> rfl
  | checking phase =>
      cases phase with
      | readActive => simp only [act, checkCall]; split <;> rfl
      | readConfig => simp only [act, checkCall]; split <;> rfl
      | readStartTime config writes =>
          simp only [act, checkCall]
          split
          · rfl
          · split <;> rfl
  | done => rfl

/-- With no start in progress none is open. -/
theorem Sound.closed {p : Pool Store SessionTask} (h : Sound p)
    (hnone : ∀ t ∈ p.tasks, t.isStart = false) : p.shared.isOpen = false := by
  by_contra hopen
  rcases h.opened (by simpa using hopen) with ⟨t, hmem, ht⟩
  simp [hnone t hmem] at ht

/-- Two starts are apart from each other as two tasks are. -/
theorem apart_symm (t u : SessionTask) (h : Apart t u) : Apart u t :=
  h.symm

/-- A turn leaves a start in progress while one is open. -/
theorem opened_turn {p : Pool Store SessionTask} (h : Sound p) (i : Nat)
    (hopen : (p.turn act i).shared.isOpen = true) :
    ∃ t ∈ (p.turn act i).tasks, t.isStart = true := by
  cases hi : p.tasks[i]? with
  | none =>
      rw [Pool.turn_of_none hi] at hopen ⊢
      exact h.opened hopen
  | some t =>
      cases ht : t.isStart with
      | true =>
          refine ⟨_, Pool.next_mem_turn hi, ?_⟩
          rw [Pool.turn_of_some hi] at hopen
          cases t with
          | starting id config phase =>
              cases phase with
              | setConfig | setActive | setStartTime => rfl
              | verify => simp [act, startCall] at hopen
          | stopping _ _ _ | checking _ | done => simp [SessionTask.isStart] at ht
      | false =>
          have hbefore : p.shared.isOpen = true := by
            rw [Pool.turn_of_some hi] at hopen
            cases t with
            | starting _ _ _ => simp [SessionTask.isStart] at ht
            | stopping before expiry phase => cases phase <;> exact hopen
            | checking _ | done => exact hopen
          rcases h.opened hbefore with ⟨u, humem, hu⟩
          rcases List.mem_iff_getElem?.mp humem with ⟨j, hj⟩
          refine ⟨u, Pool.mem_turn_of_ne ?_ hj, hu⟩
          rintro rfl
          rw [hj] at hi
          simp [Option.some.inj hi, ht] at hu

/-- A turn of an orderly run keeps the invariant. -/
theorem turn_inv {p : Pool Store SessionTask} (h : Sound p) (i : Nat)
    (horder : Orderly p (.turn i)) : Sound (p.turn act i) := by
  refine ⟨h.pool.turn apart_symm i (fun t hi => ?_) (fun t hi u hu hapart => ?_), opened_turn h i⟩
  · have ht : p.shared.Stands t := h.pool.each t (List.mem_of_getElem? hi)
    cases t with
    | starting id config phase => exact startCall_sound h.pool.shared ht
    | stopping before expiry phase =>
        refine stopCall_sound h.pool.shared ht ?_
        rintro rfl
        rcases horder _ hi with ⟨hnone, hcurrent⟩
        exact ⟨h.closed hnone,
          stopsWrongly_of_compared h.pool.shared (h.closed hnone) ht.2 hcurrent⟩
    | checking phase => exact ⟨h.pool.shared, checkCall_sound ht⟩
    | done => exact ⟨h.pool.shared, trivial⟩
  · have ht : p.shared.Stands t := h.pool.each t (List.mem_of_getElem? hi)
    have hustands : p.shared.Stands u := h.pool.each u hu
    cases t with
    | starting id config phase =>
        have hustart : u.isStart = false := by simpa [Apart, SessionTask.isStart] using hapart
        exact ⟨startCall_beside ht hustands hustart, Or.inr hustart⟩
    | stopping before expiry phase =>
        refine ⟨stopCall_beside ht hustands ?_, Or.inl (isStart_act _ _ rfl)⟩
        rintro rfl
        exact h.closed (horder _ hi).1
    | checking phase => exact ⟨hustands, Or.inl (isStart_act p.shared (.checking phase) rfl)⟩
    | done => exact ⟨hustands, Or.inl rfl⟩

/-- A start that begins in order keeps the invariant. -/
theorem begin_inv {p : Pool Store SessionTask} (h : Sound p) (config : SessionConfig)
    (horder : Orderly p (.start config)) : Sound (step p (.start config)) := by
  have hupdate : (p.update fun s => { s with
      starts := s.starts + 1, isOpen := true, stopped := false }).Inv
      Store.Sound Store.Stands Apart := by
    refine h.pool.update ⟨h.pool.shared.stops, fun hclosed => ?_, fun hstopped => ?_⟩
      fun t ht => ?_
    · simp at hclosed
    · simp at hstopped
    · have hstands := h.pool.each t ht
      rcases horder t ht with ⟨hstart, hclearing⟩
      cases t with
      | starting _ _ _ => simp [SessionTask.isStart] at hstart
      | stopping before expiry phase =>
          have hearlier : before ≤ p.shared.starts := by
            cases phase with
            | setInactive | deleteConfig | deleteStartTime | verify => exact hstands.1
          cases phase with
          | setInactive =>
              refine ⟨hearlier.trans (Nat.le_succ _), fun e he => ?_⟩
              have hcompared := hstands.2 e he
              exact ⟨hcompared.config, hcompared.startTime, hcompared.expired⟩
          | deleteConfig | deleteStartTime => simp [SessionTask.isClearing] at hclearing
          | verify =>
              refine ⟨hearlier.trans (Nat.le_succ _), fun heq => ?_⟩
              exact absurd heq (by simp; omega)
      | checking phase => cases phase <;> exact hstands
      | done => trivial
  refine ⟨hupdate.spawn ⟨rfl, rfl, trivial⟩ fun t ht => Or.inl (horder t ht).1, fun _ => ?_⟩
  exact ⟨_, Pool.mem_spawn.mpr (Or.inr rfl), rfl⟩

/-- A task other than a start may begin at any time. -/
theorem spawn_inv {p : Pool Store SessionTask} (h : Sound p) {t : SessionTask}
    (hstands : p.shared.Stands t) (hstart : t.isStart = false) : Sound (p.spawn t) := by
  refine ⟨h.pool.spawn hstands fun _ _ => Or.inr hstart, fun hopen => ?_⟩
  rcases h.opened hopen with ⟨u, humem, hu⟩
  exact ⟨u, Pool.mem_spawn.mpr (Or.inl humem), hu⟩

/-- Time passes, and what has expired stays expired. -/
theorem advance_inv {p : Pool Store SessionTask} (h : Sound p) (elapsed : ℚ≥0) :
    Sound (step p (.advance elapsed)) := by
  have hshared : Store.Sound { p.shared with clock := p.shared.clock + elapsed } :=
    ⟨h.pool.shared.stops, h.pool.shared.fits, h.pool.shared.inactive⟩
  refine ⟨⟨hshared, fun t ht => ?_, h.pool.pair⟩, h.opened⟩
  have hstands := h.pool.each t ht
  cases t with
  | starting id config phase => cases phase <;> exact hstands
  | stopping before expiry phase =>
      cases phase with
      | setInactive =>
          refine ⟨hstands.1, fun e he => ?_⟩
          have hcompared := hstands.2 e he
          refine ⟨hcompared.config, hcompared.startTime, ?_⟩
          have hpast : (e.config.2.durationMin : ℚ) * 60 ≤ p.shared.clock - e.startTime.2 :=
            hcompared.expired
          have hnonneg : (0 : ℚ) ≤ elapsed := elapsed.2
          change (e.config.2.durationMin : ℚ) * 60 ≤ p.shared.clock + elapsed - e.startTime.2
          linarith
      | deleteConfig | deleteStartTime | verify => exact hstands
  | checking phase => cases phase <;> exact hstands
  | done => trivial

/-- Every orderly step keeps the invariant. -/
theorem step_inv {p : Pool Store SessionTask} (h : Sound p) (input : SessionInput)
    (horder : Orderly p input) : Sound (step p input) := by
  cases input with
  | start config => exact begin_inv h config horder
  | stop => exact spawn_inv h ⟨le_refl _, fun e he => nomatch he⟩ rfl
  | check => exact spawn_inv h trivial rfl
  | turn i => exact turn_inv h i horder
  | advance elapsed => exact advance_inv h elapsed

/-- The first state meets the invariant. -/
theorem start_inv (clock : ℚ) : Sound (start clock) := by
  refine ⟨⟨⟨rfl, fun _ id hid => ?_, fun hstopped => ?_⟩, fun t ht => ?_, List.Pairwise.nil⟩,
    fun hopen => ?_⟩
  · simp [start] at hid
  · simp [start] at hstopped
  · simp [start] at ht
  · simp [start] at hopen

/-- The invariant says that the sessions are safe. -/
theorem Sound.safe {p : Pool Store SessionTask} (h : Sound p) : Safe p := by
  refine ⟨h.pool.shared.stops, fun hquiescent hactive => ?_, h.pool.shared.inactive⟩
  have hclosed : p.shared.isOpen = false := h.closed fun t ht => (hquiescent t ht).1
  rcases Option.isSome_iff_exists.mp hactive with ⟨id, hid⟩
  rcases h.pool.shared.fits hclosed id hid with ⟨⟨config, hconfig⟩, at', hstart⟩
  exact ⟨id, config, at', hconfig, hstart⟩

/-- In an orderly run expiry stops only the expired session that it compared, an active session
has the config and the start time of one start, and after a stop nothing is active. -/
theorem orderly_safe (clock : ℚ) (inputs : List SessionInput)
    (horder : Admits step Orderly (start clock) inputs) (n : Nat) :
    Safe (run step (start clock) (inputs.take n)) := by
  have hsound : Sound (run step (start clock) (inputs.take n)) :=
    @invariant_run_take _ _ step Orderly Sound (fun _ input h hcond => step_inv h input hcond)
      _ _ (start_inv clock) horder n
  exact hsound.safe

/-- One start, its expiry and one more start, one call after the other. -/
def orderlyRun : List SessionInput :=
  [.start ⟨1, 3, 15, 60⟩, .turn 0, .turn 0, .turn 0, .turn 0, .advance 3600, .check,
    .turn 1, .turn 1, .turn 1, .turn 1, .turn 1, .turn 1, .turn 1, .start ⟨2, 3, 15, 30⟩]

/-- The expiry ends the session of the first start, and no session that had time left. -/
theorem orderlyRun_safe : Safe (run step (start 0) (orderlyRun.take 14)) :=
  orderly_safe 0 orderlyRun (by decide +kernel) 14

/-- A round compares the session of one start; before it stops that session a stop and another
start come between, and it stops the new session, which has all its time left. -/
def staleExpiry : List SessionInput :=
  [.start ⟨1, 3, 15, 60⟩, .turn 0, .turn 0, .turn 0, .turn 0, .advance 3600, .check,
    .turn 1, .turn 1, .turn 1, .stop, .turn 2, .turn 2, .turn 2, .turn 2,
    .start ⟨2, 3, 15, 30⟩, .turn 3, .turn 3, .turn 3, .turn 3, .turn 1]

/-- An expiry stops a session that is not the one it compared. -/
theorem staleExpiry_not_safe :
    ¬ ∀ (clock : ℚ) (inputs : List SessionInput) (n : Nat),
      Safe (run step (start clock) (inputs.take n)) := by
  intro h
  have hstops := (h 0 staleExpiry 21).stops
  revert hstops
  decide +kernel

end Session
end Karsa
