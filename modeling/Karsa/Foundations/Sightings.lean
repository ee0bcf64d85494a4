import Karsa.Foundations.Runs
import Mathlib.Algebra.Order.Group.Defs
import Mathlib.Data.List.Chain
import Mathlib.Data.List.DropRight

/-!
# Foundations - Sightings and alarms

Something is looked at again and again.  A key is in sight since the first look of the stretch of
looks, up to the newest one, that all show it.  An alarm that an event raises stays up for a
while behind the event.

Main results:

- Theorem `since_concat`: since when a key is in sight, one look at a time.
- Theorem `since_eq_some_iff`: the stretch of looks that shows the key.
- Theorem `lastAt_concat`: the last event of a kind, one entry at a time.
- Theorem `Alarm.up_iff`: an alarm is up while some event is recent.
-/

namespace Karsa

universe u v w

variable {P : Type u} {κ : Type v} {T : Type w}

/-- A run by its newest input. -/
theorem run_concat {σ : Type u} {ι : Type v} (step : σ → ι → σ) (s : σ) (inputs : List ι)
    (input : ι) : run step s (inputs ++ [input]) = step (run step s inputs) input := by
  rw [run, run, List.foldl_append, List.foldl_cons, List.foldl_nil]

/-! ## Since when a key is in sight -/

/-- Since when the key is in sight. -/
def since (time : P → T) (shows : P → κ → Bool) (looks : List P) (key : κ) : Option T :=
  (looks.rtakeWhile fun p => shows p key).head?.map time

section Since

variable {time : P → T} {shows : P → κ → Bool}

@[simp] theorem since_nil (key : κ) : since time shows [] key = none := by
  rw [since, List.rtakeWhile_nil]
  rfl

/-- Since when a key is in sight, one look at a time. -/
theorem since_concat (looks : List P) (p : P) (key : κ) :
    since time shows (looks ++ [p]) key =
      if shows p key then some ((since time shows looks key).getD (time p)) else none := by
  rw [since, since, List.rtakeWhile_concat]
  split_ifs with hshows
  · cases hstretch : looks.rtakeWhile fun p => shows p key with
    | nil => rfl
    | cons first rest => rfl
  · rfl

/-- The stretch of looks that shows the key. -/
theorem since_eq_some_iff {looks : List P} {key : κ} {t : T} :
    since time shows looks key = some t ↔
      ∃ before first stretch, looks = before ++ first :: stretch ∧
        (∀ p ∈ first :: stretch, shows p key = true) ∧
        (∀ p, before.getLast? = some p → shows p key = false) ∧ time first = t := by
  constructor
  · intro h
    rw [since, Option.map_eq_some_iff] at h
    rcases h with ⟨first, hfirst, htime⟩
    rcases List.head?_eq_some_iff.mp hfirst with ⟨stretch, hstretch⟩
    refine ⟨looks.rdropWhile fun p => shows p key, first, stretch, ?_, ?_, ?_, htime⟩
    · rw [← hstretch, List.rdropWhile_append_rtakeWhile]
    · intro p hp
      rw [← hstretch] at hp
      have hshows := List.mem_rtakeWhile_imp (l := looks) hp
      exact hshows
    · intro p hp
      have hne : (looks.rdropWhile fun p => shows p key) ≠ [] := by
        intro hnil
        rw [hnil] at hp
        simp at hp
      have hlast := List.rdropWhile_last_not (fun p => shows p key) looks hne
      rw [List.getLast?_eq_some_getLast hne] at hp
      rw [Option.some.inj hp] at hlast
      simpa using hlast
  · rintro ⟨before, first, stretch, hlooks, hall, hbefore, htime⟩
    have hstretch : looks.rtakeWhile (fun p => shows p key) = first :: stretch := by
      rw [hlooks, List.rtakeWhile, List.reverse_append, List.takeWhile_append_of_pos]
      · rw [List.reverse_append, List.reverse_reverse]
        cases hlast : before.reverse with
        | nil => simp
        | cons p rest =>
            have hp : before.getLast? = some p := by
              rw [List.getLast?_eq_head?_reverse, hlast]
              rfl
            rw [List.takeWhile_cons_of_neg (by simp [hbefore p hp])]
            simp
      · intro p hp
        exact hall p (List.mem_reverse.mp hp)
    rw [since, hstretch, ← htime]
    rfl

end Since

/-! ## Events of a log -/

/-- The log has an event at the given time; whether an entry is one may depend on the entries
before it. -/
def EventAt (time : P → T) (event : List P → P → Prop) (log : List P) (d : T) : Prop :=
  ∃ before p after, log = before ++ p :: after ∧ event before p ∧ time p = d

/-- Events so far, and the newest entry if it is one. -/
theorem eventAt_concat {time : P → T} {event : List P → P → Prop} {log : List P} {p : P} {d : T} :
    EventAt time event (log ++ [p]) d ↔
      EventAt time event log d ∨ (event log p ∧ time p = d) := by
  constructor
  · rintro ⟨before, q, after, hlog, hevent, htime⟩
    rcases List.eq_nil_or_concat after with rfl | ⟨init, last, rfl⟩
    · rcases List.append_inj' hlog rfl with ⟨rfl, hlast⟩
      rw [← List.singleton_inj.mp hlast] at hevent htime
      exact Or.inr ⟨hevent, htime⟩
    · rw [List.concat_eq_append, ← List.cons_append, ← List.append_assoc] at hlog
      rcases List.append_inj' hlog rfl with ⟨hinit, -⟩
      exact Or.inl ⟨before, q, init, hinit, hevent, htime⟩
  · rintro (⟨before, q, after, rfl, hevent, htime⟩ | ⟨hevent, htime⟩)
    · exact ⟨before, q, after ++ [p], by rw [List.append_assoc, List.cons_append], hevent, htime⟩
    · exact ⟨log, p, [], rfl, hevent, htime⟩

/-- Events are entries. -/
theorem EventAt.mem {time : P → T} {event : List P → P → Prop} {log : List P} {d : T}
    (h : EventAt time event log d) : ∃ p ∈ log, time p = d := by
  rcases h with ⟨before, p, after, rfl, -, htime⟩
  exact ⟨p, List.mem_append_right _ List.mem_cons_self, htime⟩

/-- The last entry of a log that satisfies the predicate, with what is before and behind it. -/
structure LastAt (pick : P → Bool) (log before : List P) (p : P) (after : List P) : Prop where
  split : log = before ++ p :: after
  picked : pick p = true
  others : ∀ q ∈ after, pick q = false

/-- The last such entry so far, and the newest entry if it is one. -/
theorem lastAt_concat {pick : P → Bool} {log before after : List P} {p last : P} :
    LastAt pick (log ++ [last]) before p after ↔
      (pick last = true ∧ before = log ∧ p = last ∧ after = []) ∨
        (pick last = false ∧ ∃ init, after = init ++ [last] ∧ LastAt pick log before p init) := by
  constructor
  · intro h
    rcases List.eq_nil_or_concat after with rfl | ⟨init, q, rfl⟩
    · rcases List.append_inj' h.split rfl with ⟨rfl, hlast⟩
      left
      rw [List.singleton_inj.mp hlast]
      exact ⟨h.picked, rfl, rfl, rfl⟩
    · have hsplit := h.split
      rw [List.concat_eq_append, ← List.cons_append, ← List.append_assoc] at hsplit
      rcases List.append_inj' hsplit rfl with ⟨hinit, hlast⟩
      right
      rw [List.singleton_inj.mp hlast]
      refine ⟨h.others q (by simp), init, by rw [List.concat_eq_append], hinit, h.picked, ?_⟩
      intro r hr
      exact h.others r (by simp [hr])
  · rintro (⟨hpick, rfl, rfl, rfl⟩ | ⟨hpick, init, rfl, h⟩)
    · exact ⟨rfl, hpick, by simp⟩
    · refine ⟨by rw [h.split, List.append_assoc, List.cons_append], h.picked, fun q hq => ?_⟩
      rcases List.mem_append.mp hq with hold | hnew
      · exact h.others q hold
      · rw [List.mem_singleton.mp hnew]
        exact hpick

/-- An empty log has no last entry. -/
theorem not_lastAt_nil {pick : P → Bool} {before after : List P} {p : P} :
    ¬ LastAt pick [] before p after :=
  fun h => by simpa using h.split

/-! ## Alarms -/

/-- An alarm, and the end of the while for which it stays up. -/
structure Alarm (T : Type w) where
  up : Bool
  expiry : T
deriving Repr, DecidableEq

namespace Alarm

variable [AddCommGroup T] [LinearOrder T] [IsOrderedAddMonoid T]

/-- A look at the given time, with or without an event. -/
def look (hold now : T) (event : Bool) (alarm : Alarm T) : Alarm T :=
  if event then ⟨true, now + hold⟩
  else if alarm.expiry < now then { alarm with up := false }
  else alarm

/-- What an alarm says about the events up to the newest look. -/
structure Tracks (hold : T) (events : T → Prop) (now : T) (alarm : Alarm T) : Prop where
  of_up : alarm.up = true → ∃ d, events d ∧ alarm.expiry = d + hold ∧ now ≤ alarm.expiry
  le_expiry : ∀ d, events d → d + hold ≤ alarm.expiry
  up_of : ∀ d, events d → now ≤ d + hold → alarm.up = true

/-- A look keeps what the alarm says. -/
theorem Tracks.look {hold now next : T} {events events' : T → Prop} {alarm : Alarm T} {event : Bool}
    (h : Tracks hold events now alarm) (hhold : 0 ≤ hold) (hnext : now ≤ next)
    (hpast : ∀ d, events d → d ≤ now)
    (hevents : ∀ d, events' d ↔ events d ∨ (event = true ∧ next = d)) :
    Tracks hold events' next (alarm.look hold next event) := by
  cases event with
  | true =>
      refine ⟨fun _ => ?_, fun d hd => ?_, fun _ _ _ => rfl⟩
      · exact ⟨next, (hevents next).mpr (Or.inr ⟨rfl, rfl⟩), rfl, le_add_of_nonneg_right hhold⟩
      · rcases (hevents d).mp hd with hold' | ⟨-, rfl⟩
        · exact add_le_add_left ((hpast d hold').trans hnext) hold
        · exact le_refl _
  | false =>
      have hsame : ∀ d, events' d ↔ events d := by
        intro d
        rw [hevents d]
        simp
      unfold Alarm.look
      rw [if_neg (by simp)]
      split_ifs with hexpired
      · refine ⟨fun hup => ?_, fun d hd => h.le_expiry d ((hsame d).mp hd), fun d hd hrecent => ?_⟩
        · simp at hup
        · exact absurd hexpired (hrecent.trans (h.le_expiry d ((hsame d).mp hd))).not_gt
      · refine ⟨fun hup => ?_, fun d hd => h.le_expiry d ((hsame d).mp hd), fun d hd hrecent => ?_⟩
        · rcases h.of_up hup with ⟨d, hd, hexpiry, -⟩
          exact ⟨d, (hsame d).mpr hd, hexpiry, not_lt.mp hexpired⟩
        · exact h.up_of d ((hsame d).mp hd) (hnext.trans hrecent)

/-- An alarm that is looked after at every entry of a log is up while some event is recent. -/
theorem up_iff {time : P → T} {event : List P → P → Prop} {hold : T} (alarm : List P → Alarm T)
    (hhold : 0 ≤ hold) (hnil : (alarm []).up = false)
    (hstep : ∀ log p, ∃ b, (b = true ↔ event log p) ∧
      alarm (log ++ [p]) = (alarm log).look hold (time p) b)
    {log : List P} {last : P} (hclock : (log ++ [last]).Pairwise fun p q => time p ≤ time q) :
    (alarm (log ++ [last])).up = true ↔
      ∃ d, EventAt time event (log ++ [last]) d ∧ time last ≤ d + hold := by
  have htracks : Tracks hold (EventAt time event (log ++ [last])) (time last)
      (alarm (log ++ [last])) := by
    induction log using List.reverseRecOn generalizing last with
    | nil =>
        have hnone : Tracks hold (fun _ => False) (time last) (alarm []) :=
          ⟨fun hup => by simp [hnil] at hup, fun d hd => hd.elim, fun d hd => hd.elim⟩
        rcases hstep [] last with ⟨b, hb, hlook⟩
        rw [hlook]
        refine hnone.look hhold (le_refl _) (fun d hd => hd.elim) fun d => ?_
        rw [eventAt_concat, ← hb]
        refine or_congr_left (iff_of_false ?_ not_false)
        rintro ⟨before, p, after, hsplit, -⟩
        simp at hsplit
    | append_singleton log p ih =>
        have hlog := (List.pairwise_append.mp hclock).1
        have hlast : ∀ q ∈ log ++ [p], time q ≤ time last := fun q hq =>
          (List.pairwise_append.mp hclock).2.2 q hq last List.mem_cons_self
        rcases hstep (log ++ [p]) last with ⟨b, hb, hlook⟩
        rw [hlook]
        refine (ih hlog).look hhold (hlast p (by simp)) (fun d hd => ?_) fun d => ?_
        · rcases hd.mem with ⟨q, hq, rfl⟩
          rcases List.mem_append.mp hq with hold' | hnew
          · exact (List.pairwise_append.mp hlog).2.2 q hold' p List.mem_cons_self
          · rw [List.mem_singleton.mp hnew]
        · rw [eventAt_concat, hb]
  constructor
  · intro hup
    rcases htracks.of_up hup with ⟨d, hd, hexpiry, hnow⟩
    exact ⟨d, hd, hexpiry ▸ hnow⟩
  · rintro ⟨d, hd, hrecent⟩
    exact htracks.up_of d hd hrecent

end Alarm

end Karsa
