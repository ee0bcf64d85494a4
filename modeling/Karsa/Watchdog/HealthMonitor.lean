import Karsa.Foundations.Dicts
import Karsa.Foundations.Sightings
import Karsa.Foundations.Text
import Karsa.Foundations.Verdicts
import Karsa.Foundations.Windows
import Mathlib.Algebra.BigOperators.Group.List.Basic
import Mathlib.Algebra.Order.Field.Rat

/-!
# Watchdog - Heartbeats, latency and event loop lag

`Watchdog` checks the system every ten seconds: it pauses the signals while the heartbeat of an
exchange is old, stops everything when the event loop lags three times in a row, and has the
router use market orders while the execution latency is high.  Its loop gives up when three
checks in a row raise.

Main results:

- Theorem `paused_iff`: the pause follows the last check that could read a heartbeat.
- Theorem `killed_iff`: the kill switch is set by three lagging checks in a row.
- Theorem `skipToMarket_iff`: the routing follows the last twenty latencies at the last check.
- Theorem `running_iff`: the loop ends with a stop or with three raising checks in a row.
-/

namespace Karsa
namespace HealthMonitor

/-! ## State -/

/-- The watchdog, what it controls, and the hash of heartbeats that it reads: a time under each
exchange, or something that is none.  A control that was not handed over is missing. -/
structure Monitor where
  heartbeats : Dict Text (Option ℚ)
  alphaPaused : Option Bool
  killSwitch : Option Bool
  skipToMarket : Option Bool
  latencySamples : List ℚ
  highLagStreak : ℕ
  flattened : ℕ
  running : Bool
  restartCount : ℕ
deriving Repr, DecidableEq

/-- The watchdog as `main` starts it. -/
def Monitor.started : Monitor :=
  { heartbeats := [], alphaPaused := some false, killSwitch := some false,
    skipToMarket := some false, latencySamples := [], highLagStreak := 0, flattened := 0,
    running := true, restartCount := 0 }

/-- What a check meets: when it looks, whether the read of the heartbeats raises, whether Redis
answers it, and the lag of the event loop. -/
structure Check where
  now : ℚ
  raises : Bool
  answered : Bool
  lag : ℚ
deriving Repr, DecidableEq

/-! ## Checks -/

/-- `get_exchange_heartbeats`: nothing where Redis does not answer. -/
def Monitor.beats (s : Monitor) (c : Check) : Dict Text (Option ℚ) :=
  if c.answered then s.heartbeats else []

/-- A heartbeat counts as stale if it is no time, or more than thirty seconds old. -/
def staleBeat (now : ℚ) : Option ℚ → Bool
  | none => true
  | some ts => decide (30 < now - ts)

/-- `_check_heartbeat`. -/
def Monitor.checkHeartbeat (s : Monitor) (c : Check) : Monitor :=
  if s.beats c = [] then s
  else if (s.beats c).any fun item => staleBeat c.now item.2 then
    { s with alphaPaused := s.alphaPaused.map fun _ => true }
  else { s with alphaPaused := s.alphaPaused.map fun _ => false }

/-- `_check_event_loop_lag`; whether flattening succeeds makes no difference here. -/
def Monitor.checkEventLoopLag (s : Monitor) (c : Check) : Monitor :=
  if 1 / 10 < c.lag then
    let streak := s.highLagStreak + 1
    if 3 ≤ streak then
      { s with
        highLagStreak := streak
        flattened := s.flattened + s.skipToMarket.isSome.toNat
        killSwitch := s.killSwitch.map fun _ => true }
    else { s with highLagStreak := streak }
  else { s with highLagStreak := 0 }

/-- `avg`. -/
def meanLatency (samples : List ℚ) : ℚ :=
  samples.sum / samples.length

/-- `_check_latency`. -/
def Monitor.checkLatency (s : Monitor) : Monitor :=
  if s.latencySamples = [] then s
  else
    { s with
      skipToMarket := s.skipToMarket.map fun _ => decide (3 / 2 < meanLatency s.latencySamples) }

/-- `_check_health`, as far as it changes anything. -/
def Monitor.checkHealth (s : Monitor) (c : Check) : Monitor :=
  ((s.checkHeartbeat c).checkEventLoopLag c).checkLatency

/-- A pass of the loop of `start`. -/
def Monitor.cycle (s : Monitor) (c : Check) : Monitor :=
  if c.raises then
    let restartCount := s.restartCount + 1
    { s with restartCount := restartCount, running := decide (restartCount < 3) }
  else { s.checkHealth c with restartCount := 0 }

/-- What happens around the watchdog: an exchange's heartbeat, a measured latency, a pass of the
loop, `stop`. -/
inductive Event where
  | heartbeat (exchange : Text) (now : ℚ)
  | latency (seconds : ℚ)
  | check (c : Check)
  | stop
deriving Repr, DecidableEq

/-- One event; the loop makes no pass when it has ended. -/
def Monitor.step (s : Monitor) : Event → Monitor
  | .heartbeat exchange now => { s with heartbeats := s.heartbeats.set exchange (some now) }
  | .latency seconds => { s with latencySamples := (s.latencySamples ++ [seconds]).rtake 20 }
  | .check c => if s.running then s.cycle c else s
  | .stop => { s with running := false }

/-- The watchdog behind a run of events. -/
def after (events : List Event) : Monitor :=
  run Monitor.step Monitor.started events

theorem after_concat (events : List Event) (e : Event) :
    after (events ++ [e]) = (after events).step e :=
  run_concat _ _ events e

/-! ## The loop -/

/-- The passes among the events. -/
def checksOf (events : List Event) : List Check :=
  events.filterMap fun
    | .check c => some c
    | _ => none

theorem checksOf_concat (events : List Event) (e : Event) :
    checksOf (events ++ [e]) =
      match e with
      | .check c => checksOf events ++ [c]
      | _ => checksOf events := by
  rw [checksOf, List.filterMap_append]
  cases e <;> simp [checksOf]

/-- A check leaves the loop's own fields. -/
theorem checkHealth_frame (s : Monitor) (c : Check) :
    (s.checkHealth c).running = s.running ∧ (s.checkHealth c).heartbeats = s.heartbeats ∧
      (s.checkHealth c).latencySamples = s.latencySamples := by
  unfold Monitor.checkHealth Monitor.checkLatency Monitor.checkEventLoopLag Monitor.checkHeartbeat
  dsimp only
  split_ifs <;> exact ⟨rfl, rfl, rfl⟩

/-- The restarts in a row are counted while the loop runs. -/
theorem restartCount_after {events : List Event} (hrun : (after events).running = true) :
    (after events).restartCount = inRow Check.raises (checksOf events) ∧
      (after events).restartCount < 3 := by
  induction events using List.reverseRecOn with
  | nil => exact ⟨rfl, by decide⟩
  | append_singleton events e ih =>
      rw [after_concat] at hrun ⊢
      rw [checksOf_concat]
      cases e with
      | heartbeat exchange now => exact ih hrun
      | latency seconds => exact ih hrun
      | stop => cases hrun
      | check c =>
          unfold Monitor.step at hrun ⊢
          dsimp only at hrun ⊢
          by_cases hrunning : (after events).running = true
          · rw [if_pos hrunning] at hrun ⊢
            rw [inRow_concat, ← (ih hrunning).1]
            unfold Monitor.cycle at hrun ⊢
            by_cases hraises : c.raises = true
            · rw [if_pos hraises] at hrun ⊢
              rw [if_pos hraises]
              exact ⟨rfl, of_decide_eq_true hrun⟩
            · rw [if_neg hraises, if_neg hraises]
              exact ⟨rfl, Nat.succ_pos 2⟩
          · rw [if_neg hrunning] at hrun
            exact absurd hrun hrunning

/-- An ended loop stays ended. -/
theorem running_of_concat (events : List Event) (e : Event)
    (hrun : (after (events ++ [e])).running = true) : (after events).running = true := by
  rw [after_concat] at hrun
  cases e with
  | heartbeat exchange now => exact hrun
  | latency seconds => exact hrun
  | stop => cases hrun
  | check c =>
      by_contra hended
      unfold Monitor.step at hrun
      dsimp only at hrun
      rw [if_neg hended] at hrun
      exact hended hrun

/-- The loop runs until a stop, or until three passes in a row have raised. -/
theorem running_iff (events : List Event) :
    (after events).running = true ↔
      Event.stop ∉ events ∧
        ¬ ∃ before row rest, checksOf events = before ++ row ++ rest ∧ row.length = 3 ∧
          ∀ c ∈ row, c.raises = true := by
  rw [← everInRow_iff]
  induction events using List.reverseRecOn with
  | nil =>
      refine iff_of_true rfl ⟨List.not_mem_nil, ?_⟩
      rintro ⟨before, rest, hsplit, hrow⟩
      have hnil : before = [] := (List.append_eq_nil_iff.mp hsplit.symm).1
      rw [hnil, inRow_nil] at hrow
      omega
  | append_singleton events e ih =>
      have hstop : Event.stop ∉ events ++ [e] ↔ Event.stop ∉ events ∧ e ≠ .stop := by
        rw [List.mem_append, not_or, List.mem_singleton, ne_comm]
      rw [hstop, after_concat, checksOf_concat]
      cases e with
      | heartbeat exchange now => simpa [Monitor.step] using ih
      | latency seconds => simpa [Monitor.step] using ih
      | stop => simp [Monitor.step]
      | check c =>
          dsimp only
          rw [everInRow_concat]
          unfold Monitor.step
          dsimp only
          by_cases hrunning : (after events).running = true
          · have hcount := restartCount_after hrunning
            have hbefore := ih.mp hrunning
            rw [if_pos hrunning]
            unfold Monitor.cycle
            by_cases hraises : c.raises = true
            · rw [if_pos hraises, inRow_concat, if_pos hraises, ← hcount.1]
              dsimp only
              rw [decide_eq_true_eq]
              constructor
              · intro hfew
                refine ⟨⟨hbefore.1, by simp⟩, ?_⟩
                rintro (hrow | hrow)
                · exact hbefore.2 hrow
                · omega
              · rintro ⟨-, hnot⟩
                by_contra hmany
                exact hnot (Or.inr (not_lt.mp hmany))
            · rw [if_neg hraises, inRow_concat, if_neg hraises]
              refine iff_of_true ((checkHealth_frame _ c).1.trans hrunning)
                ⟨⟨hbefore.1, by simp⟩, ?_⟩
              rintro (hrow | hrow)
              · exact hbefore.2 hrow
              · omega
          · rw [if_neg hrunning]
            refine iff_of_false hrunning ?_
            rintro ⟨⟨hnever, -⟩, hnot⟩
            exact hrunning (ih.mpr ⟨hnever, fun hrow => hnot (Or.inl hrow)⟩)

/-- Three raising reads in a row end the loop, with a heartbeat between them. -/
example : (after [.check ⟨10, true, true, 0⟩, .heartbeat [] 12, .check ⟨20, true, true, 0⟩,
    .check ⟨30, true, true, 0⟩]).running = false := by
  decide +kernel

/-! ## Event loop lag -/

/-- The passes that did not raise. -/
def executed (events : List Event) : List Check :=
  (checksOf events).filter fun c => !c.raises

/-- `lag > self.max_event_loop_lag`. -/
def Check.lagging (c : Check) : Bool :=
  decide (1 / 10 < c.lag)

/-- What an executed check does to the lag counters. -/
theorem lag_checkHealth (s : Monitor) (c : Check) :
    let streak := if c.lagging then s.highLagStreak + 1 else 0
    (s.checkHealth c).highLagStreak = streak ∧
      (s.checkHealth c).killSwitch =
        (if 3 ≤ streak then s.killSwitch.map fun _ => true else s.killSwitch) ∧
      (s.checkHealth c).flattened =
        s.flattened + (if 3 ≤ streak then s.skipToMarket.isSome.toNat else 0) ∧
      (s.checkHealth c).skipToMarket.isSome = s.skipToMarket.isSome := by
  have hlatency : ∀ t : Monitor, t.checkLatency.highLagStreak = t.highLagStreak ∧
      t.checkLatency.killSwitch = t.killSwitch ∧ t.checkLatency.flattened = t.flattened ∧
      t.checkLatency.skipToMarket.isSome = t.skipToMarket.isSome := by
    intro t
    unfold Monitor.checkLatency
    split_ifs
    · exact ⟨rfl, rfl, rfl, rfl⟩
    · exact ⟨rfl, rfl, rfl, by simp⟩
  have hbeat : (s.checkHeartbeat c).highLagStreak = s.highLagStreak ∧
      (s.checkHeartbeat c).killSwitch = s.killSwitch ∧
      (s.checkHeartbeat c).flattened = s.flattened ∧
      (s.checkHeartbeat c).skipToMarket = s.skipToMarket := by
    unfold Monitor.checkHeartbeat
    split_ifs <;> exact ⟨rfl, rfl, rfl, rfl⟩
  rcases hlatency ((s.checkHeartbeat c).checkEventLoopLag c) with ⟨h1, h2, h3, h4⟩
  rcases hbeat with ⟨g1, g2, g3, g4⟩
  dsimp only
  unfold Monitor.checkHealth
  rw [h1, h2, h3, h4, ← g1, ← g2, ← g3, ← g4]
  unfold Monitor.checkEventLoopLag Check.lagging
  by_cases hlag : 1 / 10 < c.lag
  · rw [if_pos hlag, if_pos (decide_eq_true hlag)]
    dsimp only
    split_ifs
    · exact ⟨rfl, rfl, rfl, rfl⟩
    · exact ⟨rfl, rfl, rfl, rfl⟩
  · rw [if_neg hlag, if_neg (by simpa using hlag)]
    exact ⟨rfl, rfl, rfl, rfl⟩

/-- The checks up to which the lag was high at least three times in a row. -/
def sustained (checks : List Check) : ℕ :=
  (checks.inits.filter fun log => decide (3 ≤ inRow Check.lagging log)).length

theorem sustained_concat (checks : List Check) (c : Check) :
    sustained (checks ++ [c]) =
      sustained checks + if 3 ≤ inRow Check.lagging (checks ++ [c]) then 1 else 0 := by
  rw [sustained, List.inits_append, List.filter_append, List.length_append, sustained]
  congr 1
  by_cases hrow : 3 ≤ inRow Check.lagging (checks ++ [c])
  · simp [hrow]
  · simp [hrow]

/-- What the lag counters say about the executed checks. -/
structure LagTracked (checks : List Check) (s : Monitor) : Prop where
  streak : s.highLagStreak = inRow Check.lagging checks
  flattened : s.flattened = sustained checks
  killed : s.killSwitch = some true ↔ EverInRow Check.lagging 3 checks
  given : s.killSwitch.isSome = true ∧ s.skipToMarket.isSome = true

/-- An executed check keeps the lag counters right. -/
theorem LagTracked.checkHealth {checks : List Check} {s : Monitor} (h : LagTracked checks s)
    (c : Check) : LagTracked (checks ++ [c]) (s.checkHealth c) := by
  rcases lag_checkHealth s c with ⟨hstreak, hkilled, hflattened, hgiven⟩
  rw [h.streak, ← inRow_concat] at hstreak hkilled hflattened
  refine ⟨hstreak, ?_, ?_, ?_, ?_⟩
  · rw [hflattened, h.flattened, sustained_concat, h.given.2]
    rfl
  · rw [hkilled, everInRow_concat, ← h.killed]
    split_ifs with hrow
    · refine iff_of_true ?_ (Or.inr hrow)
      rw [Option.map_eq_some_iff]
      rcases Option.isSome_iff_exists.mp h.given.1 with ⟨b, hb⟩
      exact ⟨b, hb, rfl⟩
    · simp [hrow]
  · rw [hkilled]
    split_ifs
    · simpa using h.given.1
    · exact h.given.1
  · rw [hgiven]
    exact h.given.2

/-- The counters behind a run whose loop still runs. -/
theorem lagTracked_after {events : List Event} (hrun : (after events).running = true) :
    LagTracked (executed events) (after events) := by
  induction events using List.reverseRecOn with
  | nil =>
      refine ⟨rfl, rfl, iff_of_false (by simp [after, Monitor.started]) ?_, rfl, rfl⟩
      rintro ⟨before, rest, hsplit, hrow⟩
      have hnil : before = [] := (List.append_eq_nil_iff.mp hsplit.symm).1
      rw [hnil, inRow_nil] at hrow
      omega
  | append_singleton events e ih =>
      have hrunning := running_of_concat events e hrun
      have hbefore := ih hrunning
      rw [after_concat, executed, checksOf_concat]
      cases e with
      | heartbeat exchange now => exact ⟨hbefore.1, hbefore.2, hbefore.3, hbefore.4⟩
      | latency seconds => exact ⟨hbefore.1, hbefore.2, hbefore.3, hbefore.4⟩
      | stop => exact ⟨hbefore.1, hbefore.2, hbefore.3, hbefore.4⟩
      | check c =>
          dsimp only
          rw [List.filter_append]
          unfold Monitor.step Monitor.cycle
          dsimp only
          rw [if_pos hrunning]
          by_cases hraises : c.raises = true
          · rw [if_pos hraises, List.filter_cons_of_neg (by simp [hraises]), List.filter_nil,
              List.append_nil]
            exact ⟨hbefore.1, hbefore.2, hbefore.3, hbefore.4⟩
          · rw [if_neg hraises, List.filter_cons_of_pos (by simp [hraises]), List.filter_nil]
            have hnext := hbefore.checkHealth c
            exact ⟨hnext.1, hnext.2, hnext.3, hnext.4⟩

/-- While the loop runs: the kill switch is set if three executed checks in a row have found the
lag too high, and the positions have been flattened at every check that ended three or more of
them. -/
theorem killed_iff {events : List Event} (hrun : (after events).running = true) :
    ((after events).killSwitch = some true ↔
      ∃ before row rest, executed events = before ++ row ++ rest ∧ row.length = 3 ∧
        ∀ c ∈ row, 1 / 10 < c.lag) ∧
      (after events).flattened = sustained (executed events) := by
  have htracked := lagTracked_after hrun
  refine ⟨?_, htracked.flattened⟩
  rw [htracked.killed, everInRow_iff]
  simp only [Check.lagging, decide_eq_true_eq]

/-- Four lagging checks, with a raising one between them, flatten twice. -/
theorem killed_iff_four :
    (after [.check ⟨10, false, true, 1⟩, .check ⟨20, false, true, 1⟩, .check ⟨30, true, true, 0⟩,
      .check ⟨40, false, true, 1⟩, .check ⟨50, false, true, 1⟩]).flattened = 2 := by
  rw [(killed_iff (by decide +kernel)).2]
  decide +kernel

/-! ## Heartbeats -/

/-- The heartbeats of the exchanges, in order. -/
def beatsOf (events : List Event) : List (Text × ℚ) :=
  events.filterMap fun
    | .heartbeat exchange now => some (exchange, now)
    | _ => none

/-- The last heartbeat of an exchange. -/
def lastBeat (events : List Event) (exchange : Text) : Option ℚ :=
  ((beatsOf events).filter fun beat => decide (beat.1 = exchange)).getLast?.map Prod.snd

/-- The hash holds the last heartbeat of every exchange, for ever. -/
theorem heartbeats_after (events : List Event) :
    (after events).heartbeats =
      Dict.index ((beatsOf events).map fun beat => (beat.1, some beat.2)) := by
  induction events using List.reverseRecOn with
  | nil => rfl
  | append_singleton events e ih =>
      have hsplit : beatsOf (events ++ [e]) = beatsOf events ++ beatsOf [e] := by
        rw [beatsOf, List.filterMap_append]
        rfl
      rw [after_concat, hsplit, List.map_append, Dict.index, List.foldl_append, ← Dict.index, ← ih]
      cases e with
      | heartbeat exchange now => rfl
      | latency seconds => rfl
      | stop => rfl
      | check c =>
          unfold Monitor.step Monitor.cycle
          dsimp only
          split_ifs
          · rfl
          · exact (checkHealth_frame _ c).2.1
          · rfl

/-- What a pass says about the heartbeats: nothing if it raises, if Redis does not answer or if
there are none, else whether the last heartbeat of some exchange is more than thirty seconds
old. -/
def heartbeatVerdict (before : List Event) : Event → Option Bool
  | .check c =>
      if c.raises || !c.answered || decide (beatsOf before = []) then none
      else
        some ((beatsOf before).any fun beat =>
          match lastBeat before beat.1 with
          | none => false
          | some ts => decide (30 < c.now - ts))
  | _ => none

/-- A heartbeat of the hash is old if the last one of its exchange is. -/
theorem any_staleBeat (events : List Event) (now : ℚ) :
    ((after events).heartbeats.any fun item => staleBeat now item.2) =
      (beatsOf events).any fun beat =>
        match lastBeat events beat.1 with
        | none => false
        | some ts => decide (30 < now - ts) := by
  have hget : ∀ exchange, (after events).heartbeats.get exchange =
      (lastBeat events exchange).map some := by
    intro exchange
    rw [heartbeats_after, Dict.get_index, lastBeat, List.filter_map, List.getLast?_map,
      Option.map_map, Option.map_map]
    rfl
  have hnodup : (after events).heartbeats.keys.Nodup := by
    rw [heartbeats_after]
    exact Dict.nodup_keys_index _
  have hkeys : ∀ exchange, exchange ∈ (after events).heartbeats.keys ↔
      ∃ ts, (exchange, ts) ∈ beatsOf events := by
    intro exchange
    rw [heartbeats_after, Dict.mem_keys_index, List.map_map, List.mem_map]
    constructor
    · rintro ⟨⟨ex, ts⟩, hmem, rfl⟩
      exact ⟨ts, hmem⟩
    · rintro ⟨ts, hmem⟩
      exact ⟨(exchange, ts), hmem, rfl⟩
  rw [Bool.eq_iff_iff, List.any_eq_true, List.any_eq_true]
  constructor
  · rintro ⟨⟨exchange, beat⟩, hmem, hstale⟩
    have hread := Dict.get_of_mem hnodup hmem
    rcases (hkeys exchange).mp (Dict.mem_keys_of_get hread) with ⟨first, hfirst⟩
    rw [hget] at hread
    rcases Option.map_eq_some_iff.mp hread with ⟨ts, hlast, rfl⟩
    refine ⟨(exchange, first), hfirst, ?_⟩
    dsimp only
    rw [hlast]
    exact hstale
  · rintro ⟨⟨exchange, first⟩, hmem, hold⟩
    dsimp only at hold
    rcases Dict.exists_get_of_mem_keys ((hkeys exchange).mpr ⟨first, hmem⟩) with ⟨beat, hbeat⟩
    have hread := hbeat
    rw [hget] at hread
    rcases Option.map_eq_some_iff.mp hread with ⟨ts, hlast, rfl⟩
    rw [hlast] at hold
    exact ⟨(exchange, some ts), Dict.mem_of_get hbeat, hold⟩

/-- The hash is empty until the first heartbeat. -/
theorem heartbeats_eq_nil (events : List Event) :
    (after events).heartbeats = [] ↔ beatsOf events = [] := by
  rw [heartbeats_after, Dict.index_eq_nil, List.map_eq_nil_iff]

/-- An executed check sets the pause to its verdict, if it has one. -/
theorem alphaPaused_checkHealth (events : List Event) {c : Check} (hraises : c.raises = false)
    (hgiven : (after events).alphaPaused.isSome = true) :
    ((after events).checkHealth c).alphaPaused =
      (heartbeatVerdict events (.check c)).or (after events).alphaPaused := by
  have hframe : ∀ t : Monitor,
      ((t.checkEventLoopLag c).checkLatency).alphaPaused = t.alphaPaused := by
    intro t
    unfold Monitor.checkLatency Monitor.checkEventLoopLag
    dsimp only
    split_ifs <;> rfl
  rcases Option.isSome_iff_exists.mp hgiven with ⟨paused, hpaused⟩
  rw [Monitor.checkHealth, hframe, Monitor.checkHeartbeat, heartbeatVerdict, hraises, hpaused]
  unfold Monitor.beats
  cases hanswered : c.answered with
  | false => simp [hpaused]
  | true =>
      by_cases hempty : beatsOf events = []
      · simp [(heartbeats_eq_nil events).mpr hempty, hempty, hpaused]
      · have hheard : (after events).heartbeats ≠ [] := fun h =>
          hempty ((heartbeats_eq_nil events).mp h)
        simp only [if_true, hheard, if_false, Bool.not_true, Bool.or_self, hempty, decide_false,
          Bool.false_eq_true, ← any_staleBeat]
        split_ifs with hstale
        · rw [hstale]
          rfl
        · rw [Bool.eq_false_iff.mpr hstale]
          rfl

/-- One more event while the loop runs. -/
theorem alphaPaused_after_concat {events : List Event} {e : Event}
    (hrun : (after (events ++ [e])).running = true)
    (hgiven : (after events).alphaPaused.isSome = true) :
    (after (events ++ [e])).alphaPaused =
      (heartbeatVerdict events e).or (after events).alphaPaused := by
  have hrunning := running_of_concat events e hrun
  rw [after_concat]
  cases e with
  | heartbeat exchange now => rfl
  | latency seconds => rfl
  | stop => rfl
  | check c =>
      unfold Monitor.step Monitor.cycle
      dsimp only
      rw [if_pos hrunning]
      cases hraises : c.raises with
      | true => simp [heartbeatVerdict, hraises]
      | false => exact alphaPaused_checkHealth events hraises hgiven

/-- The controls that `main` hands over stay in place. -/
theorem alphaPaused_isSome {events : List Event} (hrun : (after events).running = true) :
    (after events).alphaPaused.isSome = true := by
  induction events using List.reverseRecOn with
  | nil => rfl
  | append_singleton events e ih =>
      have hbefore := ih (running_of_concat events e hrun)
      rw [alphaPaused_after_concat hrun hbefore, Option.isSome_or, hbefore, Bool.or_true]

/-- While the loop runs, the signals are paused if the last check that could read a heartbeat
found the last heartbeat of some exchange more than thirty seconds old; checks that raised, that
Redis did not answer or that found no heartbeat at all leave the pause as it is. -/
theorem paused_iff {events : List Event} (hrun : (after events).running = true) :
    (after events).alphaPaused = some true ↔ LastVerdict heartbeatVerdict events true := by
  have hflag := flag_eq_some_iff heartbeatVerdict (fun events => (after events).alphaPaused)
    (fun events => (after events).running = true) running_of_concat
    (fun events e h => alphaPaused_after_concat h
      (alphaPaused_isSome (running_of_concat events e h))) hrun true
  have hinit : (after []).alphaPaused = some false := rfl
  rw [hflag, hinit]
  simp

/-- An exchange that fell silent keeps the signals paused, though the other one and the Redis
outage behind it show nothing. -/
theorem paused_iff_silent :
    (after [.heartbeat "okx".toList 0, .heartbeat "bybit".toList 60, .check ⟨61, false, true, 0⟩,
      .check ⟨71, false, false, 0⟩]).alphaPaused = some true :=
  (paused_iff (by decide +kernel)).mpr
    ⟨[.heartbeat "okx".toList 0, .heartbeat "bybit".toList 60], .check ⟨61, false, true, 0⟩,
      [.check ⟨71, false, false, 0⟩], rfl, by decide +kernel, by
        intro mid e rest h
        cases mid with
        | nil =>
            rcases List.cons.inj h with ⟨rfl, -⟩
            rfl
        | cons x mid => simp at h⟩

/-! ## Execution latency -/

/-- The measured latencies, in order. -/
def latenciesOf (events : List Event) : List ℚ :=
  events.filterMap fun
    | .latency seconds => some seconds
    | _ => none

/-- The last twenty latencies are kept. -/
theorem latencySamples_after (events : List Event) :
    (after events).latencySamples = (latenciesOf events).rtake 20 := by
  induction events using List.reverseRecOn with
  | nil => rfl
  | append_singleton events e ih =>
      have hsplit : latenciesOf (events ++ [e]) = latenciesOf events ++ latenciesOf [e] := by
        rw [latenciesOf, List.filterMap_append]
        rfl
      rw [after_concat, hsplit]
      cases e with
      | heartbeat exchange now =>
          have hnone : latenciesOf [Event.heartbeat exchange now] = [] := rfl
          rw [hnone, List.append_nil, ← ih]
          rfl
      | latency seconds =>
          have hone : latenciesOf [Event.latency seconds] = [seconds] := rfl
          rw [hone, ← rtake_concat_rtake, ← ih]
          rfl
      | stop =>
          have hnone : latenciesOf [Event.stop] = [] := rfl
          rw [hnone, List.append_nil, ← ih]
          rfl
      | check c =>
          have hnone : latenciesOf [Event.check c] = [] := rfl
          rw [hnone, List.append_nil, ← ih]
          unfold Monitor.step Monitor.cycle
          dsimp only
          split_ifs
          · rfl
          · exact (checkHealth_frame _ c).2.2
          · rfl

/-- What a pass says about the latency: nothing if it raises or if none was measured, else
whether the last twenty are more than a second and a half on average. -/
def latencyVerdict (before : List Event) : Event → Option Bool
  | .check c =>
      if c.raises || decide (latenciesOf before = []) then none
      else some (decide (3 / 2 < meanLatency ((latenciesOf before).rtake 20)))
  | _ => none

/-- One more event while the loop runs. -/
theorem skipToMarket_after_concat {events : List Event} {e : Event}
    (hrun : (after (events ++ [e])).running = true) :
    (after (events ++ [e])).skipToMarket =
      (latencyVerdict events e).or (after events).skipToMarket := by
  have hrunning := running_of_concat events e hrun
  have hgiven := (lagTracked_after hrunning).given.2
  rcases Option.isSome_iff_exists.mp hgiven with ⟨skip, hskip⟩
  rw [after_concat]
  cases e with
  | heartbeat exchange now => rfl
  | latency seconds => rfl
  | stop => rfl
  | check c =>
      have hlag : (((after events).checkHeartbeat c).checkEventLoopLag c).skipToMarket =
          (after events).skipToMarket ∧
          (((after events).checkHeartbeat c).checkEventLoopLag c).latencySamples =
            (after events).latencySamples := by
        unfold Monitor.checkEventLoopLag Monitor.checkHeartbeat
        dsimp only
        split_ifs <;> exact ⟨rfl, rfl⟩
      have hempty : (latenciesOf events).rtake 20 = [] ↔ latenciesOf events = [] := by
        cases hall : latenciesOf events with
        | nil => simp
        | cons x rest =>
            refine iff_of_false (fun h => ?_) (List.cons_ne_nil x rest)
            have hlength := congrArg List.length h
            rw [List.rtake, List.length_drop, List.length_cons, List.length_nil] at hlength
            omega
      unfold Monitor.step Monitor.cycle
      dsimp only
      rw [if_pos hrunning, latencyVerdict]
      cases hraises : c.raises with
      | true => simp
      | false =>
          simp only [Bool.false_eq_true, if_false, Bool.false_or]
          rw [Monitor.checkHealth, Monitor.checkLatency, hlag.2, latencySamples_after]
          by_cases hnone : latenciesOf events = []
          · rw [if_pos (hempty.mpr hnone), hlag.1, if_pos (by simpa using hnone)]
            rfl
          · rw [if_neg fun h => hnone (hempty.mp h), if_neg (by simpa using hnone), hlag.1, hskip]
            rfl

/-- While the loop runs, the router uses market orders if the last check behind a measured
latency found the last twenty of them to be more than a second and a half on average; latencies
measured since then change nothing before the next check. -/
theorem skipToMarket_iff {events : List Event} (hrun : (after events).running = true) :
    (after events).skipToMarket = some true ↔ LastVerdict latencyVerdict events true := by
  have hflag := flag_eq_some_iff latencyVerdict (fun events => (after events).skipToMarket)
    (fun events => (after events).running = true) running_of_concat
    (fun events e h => skipToMarket_after_concat h) hrun true
  have hinit : (after []).skipToMarket = some false := rfl
  rw [hflag, hinit]
  simp

/-- One slow order and a fast one measured behind the check. -/
theorem skipToMarket_iff_slow :
    (after [.latency 2, .check ⟨10, false, true, 0⟩, .latency (1 / 10)]).skipToMarket = some true :=
  (skipToMarket_iff (by decide +kernel)).mpr
    ⟨[.latency 2], .check ⟨10, false, true, 0⟩, [.latency (1 / 10)], rfl, by decide +kernel, by
      intro mid e rest h
      cases mid with
      | nil =>
          rcases List.cons.inj h with ⟨rfl, -⟩
          rfl
      | cons x mid => simp at h⟩

end HealthMonitor
end Karsa
