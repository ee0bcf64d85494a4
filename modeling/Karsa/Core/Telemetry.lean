import Karsa.Foundations.Dicts
import Karsa.Foundations.Leases
import Karsa.Foundations.Sightings
import Karsa.Foundations.Text
import Mathlib.Algebra.Order.Field.Rat
import Mathlib.Tactic.Linarith

/-!
# Core - Telemetry

Every service counts what it does and writes a heartbeat with its counters under
`health:{service_name}`, which lives two minutes in Redis.  The commander scans these keys, gets
each of them and judges each service by the age of its heartbeat.

Main results:

- Theorem `kept_iff`: what the key of a service holds.
- Theorem `health_iff`: what the commander shows.
- Theorem `prompt_health`: a reader that does not wait shows no service as dead; a silent service
  is not shown.
-/

namespace Karsa
namespace Telemetry

/-! ## Emitter -/

/-- `TelemetryEmitter`, as far as it goes into the heartbeat. -/
structure Emitter where
  startTs : ℚ
  candlesIngested : ℕ
  signalsFired : ℕ
  ordersPlaced : ℕ
  errorCount : ℕ
  lastCandleTs : Text
  positionsOpen : ℕ
  exchangeState : Text
deriving Repr, DecidableEq

/-- A new `TelemetryEmitter`. -/
def Emitter.new (startTs : ℚ) : Emitter :=
  ⟨startTs, 0, 0, 0, 0, [], 0, []⟩

/-- The heartbeat of `_write_heartbeat`. -/
structure Payload where
  serviceName : Text
  lastHeartbeat : ℚ
  lastCandleTs : Text
  candlesIngested : ℕ
  positionsOpen : ℕ
  signalsFired : ℕ
  ordersPlaced : ℕ
  errorCount : ℕ
  memoryMb : ℚ
  uptimeS : ℚ
  exchangeState : Text
deriving Repr, DecidableEq

/-- When a heartbeat is written and what is measured for it; whether the write reaches Redis is
not noticed. -/
structure Beat where
  now : ℚ
  monotonic : ℚ
  memoryMb : ℚ
  reaches : Bool
deriving Repr, DecidableEq

/-- What a service does. -/
inductive Act where
  | start (monotonic : ℚ)
  | recordCandle (ts : Text)
  | recordSignal
  | recordOrder
  | recordError
  | heartbeat (beat : Beat)
deriving Repr, DecidableEq

/-- The `record_…` methods. -/
def Emitter.record (e : Emitter) : Act → Emitter
  | .recordCandle ts =>
      { e with
        candlesIngested := e.candlesIngested + 1
        lastCandleTs := if ts ≠ [] then ts else e.lastCandleTs }
  | .recordSignal => { e with signalsFired := e.signalsFired + 1 }
  | .recordOrder => { e with ordersPlaced := e.ordersPlaced + 1 }
  | .recordError => { e with errorCount := e.errorCount + 1 }
  | .start _ | .heartbeat _ => e

/-- `payload`. -/
def Emitter.payload (e : Emitter) (serviceName : Text) (beat : Beat) : Payload :=
  { serviceName := serviceName
    lastHeartbeat := beat.now
    lastCandleTs := e.lastCandleTs
    candlesIngested := e.candlesIngested
    positionsOpen := e.positionsOpen
    signalsFired := e.signalsFired
    ordersPlaced := e.ordersPlaced
    errorCount := e.errorCount
    memoryMb := beat.memoryMb
    uptimeS := beat.monotonic - e.startTs
    exchangeState := e.exchangeState }

/-- `SERVICE_HEARTBEAT_TTL`. -/
def serviceHeartbeatTtl : ℚ := 120

/-- The emitter of a service's process, and the service's key in Redis. -/
structure Service where
  emitter : Option Emitter
  kept : Option (Lease ℚ Payload)
deriving Repr, DecidableEq

/-- A service that was never started. -/
def Service.unknown : Service :=
  ⟨none, none⟩

/-- One act of a service. -/
def Service.step (name : Text) (s : Service) : Act → Service
  | .start monotonic => { s with emitter := some (Emitter.new monotonic) }
  | .heartbeat beat =>
      match s.emitter with
      | none => s
      | some e =>
          if beat.reaches then
            { s with kept := Lease.write beat.now serviceHeartbeatTtl (e.payload name beat) }
          else s
  | act => { s with emitter := s.emitter.map fun e => e.record act }

/-- The services under their names. -/
abbrev Services : Type :=
  Dict Text Service

/-- An act of one of the services. -/
def step (services : Services) (event : Text × Act) : Services :=
  services.set event.1 (((services.get event.1).getD Service.unknown).step event.1 event.2)

/-! ## Reader -/

/-- The status of a service. -/
inductive Status where
  | fresh
  | stale
  | dead
  | unknown
deriving Repr, DecidableEq

/-- `ServiceHealth`. -/
structure ServiceHealth where
  serviceName : Text
  lastHeartbeat : Option ℚ
  status : Status
  lastCandleTs : Text
  candlesIngested : ℕ
  positionsOpen : ℕ
  signalsFired : ℕ
  ordersPlaced : ℕ
  errorCount : ℕ
  memoryMb : ℚ
  uptimeS : ℚ
  exchangeState : Text
deriving Repr, DecidableEq

/-- A `ServiceHealth` with nothing but a name and a status. -/
def ServiceHealth.bare (serviceName : Text) (status : Status) : ServiceHealth :=
  ⟨serviceName, none, status, [], 0, 0, 0, 0, 0, 0, 0, []⟩

/-- `STALE_AFTER_SECONDS`. -/
def staleAfterSeconds : ℚ := 80

/-- `DEAD_AFTER_SECONDS`. -/
def deadAfterSeconds : ℚ := 180

/-- The status for an age. -/
def statusOf (age : ℚ) : Status :=
  if age < staleAfterSeconds then .fresh
  else if age < deadAfterSeconds then .stale
  else .dead

/-- The `ServiceHealth` of a payload at the given time. -/
def Payload.health (p : Payload) (now : ℚ) : ServiceHealth :=
  { serviceName := p.serviceName
    lastHeartbeat := some p.lastHeartbeat
    status := statusOf (now - p.lastHeartbeat)
    lastCandleTs := p.lastCandleTs
    candlesIngested := p.candlesIngested
    positionsOpen := p.positionsOpen
    signalsFired := p.signalsFired
    ordersPlaced := p.ordersPlaced
    errorCount := p.errorCount
    memoryMb := p.memoryMb
    uptimeS := p.uptimeS
    exchangeState := p.exchangeState }

/-- `health:{service_name}`. -/
def healthKey (name : Text) : Text :=
  'h' :: 'e' :: 'a' :: 'l' :: 't' :: 'h' :: ':' :: name

/-- `key.split(":", 1)[1]`, or the key if it has no colon. -/
def serviceName (key : Text) : Text :=
  if ':' ∈ key then (key.dropWhile fun c => decide (c ≠ ':')).tail else key

/-- What a reader meets: the services at the scan of the keys, and at the get of each; `none` is
a call that raises.  Services go on in between. -/
structure Reading where
  scanned : Option (Services × ℚ)
  got : Text → Option (Services × ℚ)
  judged : Text → ℚ

/-- What a service's key holds. -/
def heldAt (services : Services) (now : ℚ) (name : Text) : Option Payload :=
  Lease.read now ((services.get name).bind Service.kept)

/-- `redis_client.keys("health:*")`. -/
def keysAt (services : Services) (now : ℚ) : List Text :=
  (services.keys.filter fun name => (heldAt services now name).isSome).map healthKey

/-- The health of the service of a key. -/
def healthOf (r : Reading) (name : Text) : ServiceHealth :=
  match r.got name with
  | none => .bare name .unknown
  | some (services, now) =>
      match heldAt services now name with
      | none => .bare name .dead
      | some p => p.health (r.judged name)

/-- `get_all_services_health`. -/
def getAllServicesHealth (r : Reading) : Dict Text ServiceHealth :=
  match r.scanned with
  | none => []
  | some (services, now) =>
      Dict.index ((keysAt services now).map fun key =>
        (serviceName key, healthOf r (serviceName key)))

/-! ## Acts of one service -/

/-- The acts of a service. -/
def actsOf (name : Text) (events : List (Text × Act)) : List Act :=
  events.filterMap fun event => if event.1 = name then some event.2 else none

/-- A service from its acts alone. -/
def serviceAfter (name : Text) (acts : List Act) : Service :=
  run (Service.step name) Service.unknown acts

/-- Services do not meet. -/
theorem get_run (events : List (Text × Act)) (name : Text) :
    ((run step [] events).get name).getD Service.unknown =
      serviceAfter name (actsOf name events) := by
  induction events using List.reverseRecOn with
  | nil => rfl
  | append_singleton events event ih =>
      rw [run_concat, step]
      by_cases hname : event.1 = name
      · have hacts : actsOf name (events ++ [event]) = actsOf name events ++ [event.2] := by
          simp [actsOf, hname]
        rw [hacts, serviceAfter, run_concat, hname, Dict.get_set_self, Option.getD_some, ih,
          serviceAfter]
      · have hacts : actsOf name (events ++ [event]) = actsOf name events := by
          simp [actsOf, hname]
        rw [hacts, Dict.get_set_of_ne (Ne.symm hname), ih]

/-! ## What the key holds -/

/-- Whether the act starts a process. -/
def Act.starts : Act → Bool
  | .start _ => true
  | _ => false

/-- Whether the act writes the key. -/
def Act.writes : Act → Bool
  | .heartbeat beat => beat.reaches
  | _ => false

/-- Whether the act counts a candle. -/
def Act.isCandle : Act → Bool
  | .recordCandle _ => true
  | _ => false

/-- The timestamp that comes with a candle. -/
def Act.candleTs : Act → Option Text
  | .recordCandle ts => if ts ≠ [] then some ts else none
  | _ => none

/-- The counters after some acts of a process: how many there were of each. -/
def counted (startTs : ℚ) (acts : List Act) : Emitter where
  startTs := startTs
  candlesIngested := acts.countP Act.isCandle
  signalsFired := acts.count .recordSignal
  ordersPlaced := acts.count .recordOrder
  errorCount := acts.count .recordError
  lastCandleTs := (acts.filterMap Act.candleTs).getLast?.getD []
  positionsOpen := 0
  exchangeState := []

/-- The counters one act later. -/
theorem counted_concat (startTs : ℚ) (acts : List Act) (act : Act) :
    counted startTs (acts ++ [act]) = (counted startTs acts).record act := by
  cases act with
  | recordCandle ts =>
      by_cases hts : ts = []
      · simp [counted, Emitter.record, Act.candleTs, Act.isCandle, hts, List.countP_append]
      · simp [counted, Emitter.record, Act.candleTs, Act.isCandle, hts, List.countP_append]
  | _ => simp [counted, Emitter.record, Act.candleTs, Act.isCandle, List.countP_append]

/-- The process that runs after some acts: it was started by the last start. -/
def Running (acts : List Act) (e : Emitter) : Prop :=
  ∃ before monotonic since, LastAt Act.starts acts before (.start monotonic) since ∧
    e = counted monotonic since

/-- The heartbeat that was written last. -/
def Reported (name : Text) (acts : List Act) (p : Payload) : Prop :=
  ∃ before beat after e, LastAt Act.writes acts before (.heartbeat beat) after ∧
    Running before e ∧ p = e.payload name beat

/-- The running process one act later. -/
theorem running_concat {acts : List Act} {act : Act} {e : Emitter} :
    Running (acts ++ [act]) e ↔
      (∃ monotonic, act = .start monotonic ∧ e = Emitter.new monotonic) ∨
        (act.starts = false ∧ ∃ e', Running acts e' ∧ e = e'.record act) := by
  constructor
  · rintro ⟨before, monotonic, since, hlast, rfl⟩
    rcases lastAt_concat.mp hlast with ⟨-, -, hact, rfl⟩ | ⟨hact, init, rfl, hinit⟩
    · exact Or.inl ⟨monotonic, hact.symm, rfl⟩
    · exact Or.inr ⟨hact, _, ⟨before, monotonic, init, hinit, rfl⟩,
        counted_concat monotonic init act⟩
  · rintro (⟨monotonic, rfl, rfl⟩ | ⟨hact, e', ⟨before, monotonic, since, hlast, rfl⟩, rfl⟩)
    · exact ⟨acts, monotonic, [], lastAt_concat.mpr (Or.inl ⟨rfl, rfl, rfl, rfl⟩), rfl⟩
    · refine ⟨before, monotonic, since ++ [act], ?_, (counted_concat monotonic since act).symm⟩
      exact lastAt_concat.mpr (Or.inr ⟨hact, since, rfl, hlast⟩)

/-- The written heartbeat one act later. -/
theorem reported_concat {name : Text} {acts : List Act} {act : Act} {p : Payload} :
    Reported name (acts ++ [act]) p ↔
      (∃ beat e, act = .heartbeat beat ∧ beat.reaches = true ∧ Running acts e ∧
        p = e.payload name beat) ∨ (act.writes = false ∧ Reported name acts p) := by
  constructor
  · rintro ⟨before, beat, after, e, hlast, hrunning, rfl⟩
    rcases lastAt_concat.mp hlast with ⟨hact, rfl, rfl, rfl⟩ | ⟨hact, init, rfl, hinit⟩
    · exact Or.inl ⟨beat, e, rfl, hact, hrunning, rfl⟩
    · exact Or.inr ⟨hact, before, beat, init, e, hinit, hrunning, rfl⟩
  · rintro (⟨beat, e, rfl, hreaches, hrunning, rfl⟩ |
      ⟨hact, before, beat, after, e, hlast, hrunning, rfl⟩)
    · exact ⟨acts, beat, [], e, lastAt_concat.mpr (Or.inl ⟨hreaches, rfl, rfl, rfl⟩), hrunning,
        rfl⟩
    · refine ⟨before, beat, after ++ [act], e, ?_, hrunning, rfl⟩
      exact lastAt_concat.mpr (Or.inr ⟨hact, after, rfl, hlast⟩)

/-- A service one act later. -/
theorem serviceAfter_concat (name : Text) (acts : List Act) (act : Act) :
    serviceAfter name (acts ++ [act]) = (serviceAfter name acts).step name act :=
  run_concat _ _ _ _

/-- The emitter of a service counts since the last start. -/
theorem emitter_iff {name : Text} {acts : List Act} {e : Emitter} :
    (serviceAfter name acts).emitter = some e ↔ Running acts e := by
  induction acts using List.reverseRecOn generalizing e with
  | nil =>
      refine iff_of_false (by simp [serviceAfter, Service.unknown]) ?_
      rintro ⟨before, monotonic, since, hlast, -⟩
      exact not_lastAt_nil hlast
  | append_singleton acts act ih =>
      rw [serviceAfter_concat, running_concat]
      have hother : act.starts = false →
          (((serviceAfter name acts).step name act).emitter = some e ↔
            ∃ e', Running acts e' ∧ e = e'.record act) := by
        intro hact
        have hstep : ((serviceAfter name acts).step name act).emitter =
            (serviceAfter name acts).emitter.map fun e => e.record act := by
          cases act with
          | start monotonic => simp [Act.starts] at hact
          | heartbeat beat =>
              rw [Service.step]
              cases hemitter : (serviceAfter name acts).emitter with
              | none => exact hemitter
              | some e' =>
                  dsimp only
                  split_ifs
                  · rfl
                  · rw [hemitter]
                    rfl
          | _ => rfl
        rw [hstep, Option.map_eq_some_iff]
        exact exists_congr fun e' => and_congr ih eq_comm
      cases act with
      | start monotonic =>
          rw [Service.step, Option.some_inj]
          constructor
          · intro h
            exact Or.inl ⟨monotonic, rfl, h.symm⟩
          · rintro (⟨m, hm, rfl⟩ | ⟨hact, -⟩)
            · rw [Act.start.inj hm]
            · simp [Act.starts] at hact
      | _ =>
          rw [hother rfl]
          refine ⟨fun h => Or.inr ⟨rfl, h⟩, ?_⟩
          rintro (⟨m, hm, -⟩ | ⟨-, h⟩)
          · simp at hm
          · exact h

/-- A service that runs no process has written nothing. -/
theorem kept_of_emitter_none {name : Text} {acts : List Act}
    (h : (serviceAfter name acts).emitter = none) : (serviceAfter name acts).kept = none := by
  induction acts using List.reverseRecOn with
  | nil => rfl
  | append_singleton acts act ih =>
      rw [serviceAfter_concat] at h ⊢
      cases act with
      | start monotonic => simp [Service.step] at h
      | heartbeat beat =>
          rw [Service.step] at h ⊢
          cases hemitter : (serviceAfter name acts).emitter with
          | none => exact ih hemitter
          | some e =>
              rw [hemitter] at h
              dsimp only at h
              split_ifs at h
              simp [hemitter] at h
      | _ => exact ih (Option.map_eq_none_iff.mp h)

/-- The key of a service holds the heartbeat that was written last, until two minutes behind
it. -/
theorem kept_iff {name : Text} {acts : List Act} {lease : Lease ℚ Payload} :
    (serviceAfter name acts).kept = some lease ↔
      ∃ p, Reported name acts p ∧ lease = ⟨p, p.lastHeartbeat + serviceHeartbeatTtl⟩ := by
  induction acts using List.reverseRecOn generalizing lease with
  | nil =>
      refine iff_of_false (by simp [serviceAfter, Service.unknown]) ?_
      rintro ⟨p, ⟨before, beat, after, e, hlast, -⟩, -⟩
      exact not_lastAt_nil hlast
  | append_singleton acts act ih =>
      -- an act that writes nothing keeps the key
      have hkeeps : act.writes = false →
          ((serviceAfter name acts).step name act).kept = (serviceAfter name acts).kept →
          (((serviceAfter name acts).step name act).kept = some lease ↔
            ∃ p, Reported name (acts ++ [act]) p ∧
              lease = ⟨p, p.lastHeartbeat + serviceHeartbeatTtl⟩) := by
        intro hact hsame
        rw [hsame, ih]
        refine exists_congr fun p => and_congr_left fun _ => ?_
        rw [reported_concat]
        refine ⟨fun h => Or.inr ⟨hact, h⟩, ?_⟩
        rintro (⟨beat, e, rfl, hreaches, -⟩ | ⟨-, h⟩)
        · rw [Act.writes, hreaches] at hact
          contradiction
        · exact h
      rw [serviceAfter_concat]
      cases act with
      | heartbeat beat =>
          cases hreaches : beat.reaches with
          | false =>
              refine hkeeps hreaches ?_
              rw [Service.step]
              cases (serviceAfter name acts).emitter <;> simp [hreaches]
          | true =>
              rw [Service.step]
              cases hemitter : (serviceAfter name acts).emitter with
              | none =>
                  dsimp only
                  rw [kept_of_emitter_none hemitter]
                  refine iff_of_false (by simp) ?_
                  rintro ⟨p, hp, -⟩
                  rcases reported_concat.mp hp with ⟨beat', e, -, -, hrunning, -⟩ | ⟨hact, -⟩
                  · rw [emitter_iff.mpr hrunning] at hemitter
                    contradiction
                  · rw [Act.writes, hreaches] at hact
                    contradiction
              | some e =>
                  dsimp only
                  rw [if_pos hreaches, Lease.write, Option.some_inj]
                  constructor
                  · rintro rfl
                    refine ⟨_, reported_concat.mpr (Or.inl ⟨beat, e, rfl, hreaches, ?_, rfl⟩), rfl⟩
                    exact emitter_iff.mp hemitter
                  · rintro ⟨p, hp, rfl⟩
                    rcases reported_concat.mp hp with ⟨beat', e', hbeat, -, hrunning, rfl⟩ |
                      ⟨hact, -⟩
                    · rw [emitter_iff.mpr hrunning, Option.some_inj] at hemitter
                      rw [← Act.heartbeat.inj hbeat, hemitter]
                      rfl
                    · rw [Act.writes, hreaches] at hact
                      contradiction
      | _ => exact hkeeps rfl rfl

/-! ## What the reader shows -/

/-- What is read under a service's name. -/
theorem heldAt_run {events : List (Text × Act)} {now : ℚ} {name : Text} {p : Payload} :
    heldAt (run step [] events) now name = some p ↔
      Reported name (actsOf name events) p ∧ now < p.lastHeartbeat + serviceHeartbeatTtl := by
  have hkept : ((run step [] events).get name).bind Service.kept =
      (serviceAfter name (actsOf name events)).kept := by
    rw [← get_run]
    cases (run step [] events).get name <;> rfl
  rw [heldAt, hkept]
  constructor
  · intro h
    cases hlease : (serviceAfter name (actsOf name events)).kept with
    | none =>
        rw [hlease] at h
        simp at h
    | some lease =>
        rcases kept_iff.mp hlease with ⟨q, hq, rfl⟩
        rw [hlease, Lease.read] at h
        dsimp only at h
        split_ifs at h with hlive
        rw [← Option.some.inj h]
        exact ⟨hq, hlive⟩
  · rintro ⟨hp, hlive⟩
    rw [kept_iff.mpr ⟨p, hp, rfl⟩, Lease.read]
    exact if_pos hlive

/-- The name of a service is found in its key. -/
@[simp] theorem serviceName_healthKey (name : Text) : serviceName (healthKey name) = name := by
  simp [serviceName, healthKey]

/-- The reader shows the services whose keys it found. -/
theorem get_health {r : Reading} {services : Services} {now : ℚ}
    (hscan : r.scanned = some (services, now)) (name : Text) :
    (getAllServicesHealth r).get name =
      if (heldAt services now name).isSome then some (healthOf r name) else none := by
  have hvalue : ∀ health, (getAllServicesHealth r).get name = some health →
      (heldAt services now name).isSome = true ∧ health = healthOf r name := by
    intro health hget
    rw [getAllServicesHealth, hscan] at hget
    have hitem := Dict.mem_of_mem_index (Dict.mem_of_get hget)
    rw [keysAt, List.map_map, List.mem_map] at hitem
    rcases hitem with ⟨other, hother, heq⟩
    rw [Function.comp_apply, serviceName_healthKey, Prod.mk.injEq] at heq
    rcases heq with ⟨rfl, hhealth⟩
    exact ⟨(List.mem_filter.mp hother).2, hhealth.symm⟩
  split_ifs with hheld
  · have hname : name ∈ (getAllServicesHealth r).keys := by
      rw [getAllServicesHealth, hscan]
      dsimp only
      rw [Dict.mem_keys_index, List.map_map, keysAt, List.map_map, List.mem_map]
      refine ⟨name, List.mem_filter.mpr ⟨?_, hheld⟩, by simp⟩
      cases hservice : services.get name with
      | none => simp [heldAt, hservice] at hheld
      | some service => exact Dict.mem_keys_of_get hservice
    rcases Dict.exists_get_of_mem_keys hname with ⟨health, hget⟩
    rw [hget, (hvalue health hget).2]
  · cases hget : (getAllServicesHealth r).get name with
    | none => rfl
    | some health => exact absurd (hvalue health hget).1 hheld

/-- A written key stays, or is written again. -/
theorem exists_reported_append {name : Text} {acts : List Act} {p : Payload}
    (h : Reported name acts p) (more : List Act) : ∃ q, Reported name (acts ++ more) q := by
  induction more using List.reverseRecOn with
  | nil => exact ⟨p, by rwa [List.append_nil]⟩
  | append_singleton more act ih =>
      rcases ih with ⟨q, hq⟩
      have hkept : ((serviceAfter name (acts ++ more)).step name act).kept.isSome = true := by
        have hold := kept_iff.mpr ⟨q, hq, rfl⟩
        cases act with
        | heartbeat beat =>
            rw [Service.step]
            cases (serviceAfter name (acts ++ more)).emitter with
            | none => exact Option.isSome_of_eq_some hold
            | some e =>
                dsimp only
                split_ifs
                · rfl
                · exact Option.isSome_of_eq_some hold
        | _ => exact Option.isSome_of_eq_some hold
      rw [← serviceAfter_concat, List.append_assoc] at hkept
      rcases Option.isSome_iff_exists.mp hkept with ⟨lease, hlease⟩
      rcases kept_iff.mp hlease with ⟨q', hq', -⟩
      exact ⟨q', hq'⟩

/-- There is one heartbeat that was written last. -/
theorem Reported.unique {name : Text} {acts : List Act} {p q : Payload}
    (hp : Reported name acts p) (hq : Reported name acts q) : p = q := by
  have hlease := kept_iff.mpr ⟨p, hp, rfl⟩
  rw [kept_iff.mpr ⟨q, hq, rfl⟩, Option.some_inj, Lease.mk.injEq] at hlease
  exact hlease.1.symm

/-- A reader of a run: it scans at one moment of it and gets the keys at later ones. -/
structure Reading.Of (r : Reading) (before : List (Text × Act)) (scannedAt : ℚ)
    (name : Text) (between : List (Text × Act)) (gotAt : ℚ) : Prop where
  scanned : r.scanned = some (run step [] before, scannedAt)
  got : r.got name = some (run step [] (before ++ between), gotAt)

/-- What is shown for a service that has written a heartbeat. -/
theorem healthOf_of {r : Reading} {before between : List (Text × Act)} {scannedAt gotAt : ℚ}
    {name : Text} (hr : r.Of before scannedAt name between gotAt) {last : Payload}
    (hlast : Reported name (actsOf name (before ++ between)) last) :
    healthOf r name = if gotAt < last.lastHeartbeat + serviceHeartbeatTtl then
      last.health (r.judged name) else .bare name .dead := by
  rw [healthOf, hr.got]
  dsimp only
  split_ifs with hlive
  · rw [heldAt_run.mpr ⟨hlast, hlive⟩]
  · cases hheld : heldAt (run step [] (before ++ between)) gotAt name with
    | none => rfl
    | some p =>
        rcases heldAt_run.mp hheld with ⟨hp, hp'⟩
        rw [hp.unique hlast] at hp'
        exact absurd hp' hlive

/-- A service is shown if a heartbeat of it was alive at the scan; it is shown as its last
heartbeat tells at the get, with the counters of its process at that heartbeat, and without them
as dead if that heartbeat has expired since the scan. -/
theorem health_iff {r : Reading} {before between : List (Text × Act)} {scannedAt gotAt : ℚ}
    {name : Text} (hr : r.Of before scannedAt name between gotAt) {health : ServiceHealth} :
    (getAllServicesHealth r).get name = some health ↔
      ∃ found last, Reported name (actsOf name before) found ∧
        scannedAt < found.lastHeartbeat + serviceHeartbeatTtl ∧
        Reported name (actsOf name (before ++ between)) last ∧
        health = if gotAt < last.lastHeartbeat + serviceHeartbeatTtl then
          last.health (r.judged name) else .bare name .dead := by
  have hacts : actsOf name (before ++ between) = actsOf name before ++ actsOf name between :=
    List.filterMap_append
  rw [get_health hr.scanned]
  constructor
  · intro h
    split_ifs at h with hheld
    rcases Option.isSome_iff_exists.mp hheld with ⟨found, hfound⟩
    rcases heldAt_run.mp hfound with ⟨hreported, hlive⟩
    rcases exists_reported_append hreported (actsOf name between) with ⟨last, hlast⟩
    rw [← hacts] at hlast
    refine ⟨found, last, hreported, hlive, hlast, ?_⟩
    rw [← healthOf_of hr hlast]
    exact (Option.some.inj h).symm
  · rintro ⟨found, last, hreported, hlive, hlast, rfl⟩
    rw [heldAt_run.mpr ⟨hreported, hlive⟩, healthOf_of hr hlast]
    rfl

/-- A reader that scans and gets at one moment and judges within the minute behind it shows no
service as dead: one whose last heartbeat is two minutes old is not shown at all. -/
theorem prompt_health {r : Reading} {events : List (Text × Act)} {now : ℚ} {name : Text}
    (hr : r.Of events now name [] now) (hjudged : r.judged name ≤ now + 60) :
    ((getAllServicesHealth r).get name = none ↔
      ∀ last, Reported name (actsOf name events) last →
        last.lastHeartbeat + serviceHeartbeatTtl ≤ now) ∧
      ∀ health, (getAllServicesHealth r).get name = some health →
        health.status = .fresh ∨ health.status = .stale := by
  constructor
  · rw [get_health hr.scanned]
    constructor
    · intro h last hlast
      by_contra hlive
      rw [heldAt_run.mpr ⟨hlast, not_le.mp hlive⟩] at h
      simp at h
    · intro h
      cases hheld : heldAt (run step [] events) now name with
      | none => rfl
      | some p =>
          rcases heldAt_run.mp hheld with ⟨hp, hlive⟩
          exact absurd (h p hp) (not_le.mpr hlive)
  · intro health hget
    rw [get_health hr.scanned] at hget
    split_ifs at hget with hheld
    rcases Option.isSome_iff_exists.mp hheld with ⟨last, hlast⟩
    rcases heldAt_run.mp hlast with ⟨hreported, hlive⟩
    have hlater : Reported name (actsOf name (events ++ [])) last := by rwa [List.append_nil]
    rw [← Option.some.inj hget, healthOf_of hr hlater, if_pos hlive, Payload.health]
    dsimp only
    have hage : r.judged name - last.lastHeartbeat < deadAfterSeconds := by
      rw [serviceHeartbeatTtl] at hlive
      rw [deadAfterSeconds]
      linarith
    rw [statusOf]
    split_ifs
    · exact Or.inl rfl
    · exact Or.inr rfl

/-- The live loop fires a signal, and its heartbeat reaches Redis. -/
def liveLoop : List (Text × Act) :=
  [(['l', 'i', 'v', 'e'], .start 0), (['l', 'i', 'v', 'e'], .recordSignal),
    (['l', 'i', 'v', 'e'], .heartbeat ⟨1000, 30, 64, true⟩)]

/-- A reader a hundred seconds later. -/
def hundredLater : Reading where
  scanned := some (run step [] liveLoop, 1100)
  got := fun _ => some (run step [] (liveLoop ++ []), 1100)
  judged := fun _ => 1100

/-- The signal is shown. -/
theorem health_iff_hundredLater :
    (getAllServicesHealth hundredLater).get ['l', 'i', 'v', 'e'] =
      some ⟨['l', 'i', 'v', 'e'], some 1000, .stale, [], 0, 0, 1, 0, 0, 64, 30, []⟩ := by
  have hbeat : Reported ['l', 'i', 'v', 'e'] (actsOf ['l', 'i', 'v', 'e'] liveLoop)
      ⟨['l', 'i', 'v', 'e'], 1000, [], 0, 0, 1, 0, 0, 64, 30, []⟩ :=
    ⟨[.start 0, .recordSignal], ⟨1000, 30, 64, true⟩, [], counted 0 [.recordSignal],
      ⟨by decide +kernel, rfl, by simp⟩, ⟨[], 0, [.recordSignal], ⟨rfl, rfl, by decide⟩, rfl⟩,
      by decide +kernel⟩
  refine (health_iff (r := hundredLater) ⟨rfl, rfl⟩).mpr
    ⟨_, _, hbeat, by decide +kernel, hbeat, by decide +kernel⟩

/-- It is not shown as dead. -/
theorem prompt_health_hundredLater :
    ((getAllServicesHealth hundredLater).get ['l', 'i', 'v', 'e'] = none ↔
      ∀ last, Reported ['l', 'i', 'v', 'e'] (actsOf ['l', 'i', 'v', 'e'] liveLoop) last →
        last.lastHeartbeat + serviceHeartbeatTtl ≤ 1100) ∧
      ∀ health, (getAllServicesHealth hundredLater).get ['l', 'i', 'v', 'e'] = some health →
        health.status = .fresh ∨ health.status = .stale :=
  prompt_health (r := hundredLater) ⟨rfl, rfl⟩ (by decide +kernel)

end Telemetry
end Karsa
