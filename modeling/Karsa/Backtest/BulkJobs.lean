import Karsa.Foundations.Runs
import Karsa.Foundations.Text
import Mathlib.Logic.Function.Basic

/-!
# Backtest - Bulk jobs and their status

`submit_bulk_job` stores a pending key for each symbol, queues the job and adds its id to a set;
the set gets its time to live behind the last one.  The worker saves the trades of a job and
publishes an event.  A listener that is subscribed at that moment writes the outcome under the
key of the job.  Keys live for an hour, the set for a day.

`get_job_status` reads the key, or else looks for saved trades; `get_bulk_job_status` counts the
answers for the set.  Times are seconds, ids are numbers, and an answer reads its job or its set
at one moment.

Main results:

- Theorem `settled_iff`: which jobs are reported as completed or failed.
- Theorem `Sane.step`: what holds of keys, rows and jobs in every run.
- Theorem `truthful_throughout_iff`: the runs in which the answers are steady and truthful.
-/

namespace Karsa
namespace BulkBacktest

/-! ## Jobs -/

/-- The words of `status`. -/
inductive Status where
  | pending
  | completed
  | failed
  | unknown
deriving Repr, DecidableEq

/-- Completed or failed. -/
def Status.settled : Status → Bool
  | .completed | .failed => true
  | .pending | .unknown => false

/-- How the worker's run of a job ends: with some trades taken, or in a failure. -/
inductive Outcome where
  | succeeded (tradesTaken : ℕ)
  | failed
deriving Repr, DecidableEq

namespace Outcome

/-- `success` of the event. -/
def success : Outcome → Bool
  | .succeeded _ => true
  | .failed => false

/-- The rows that `_save_results` inserts. -/
def rows : Outcome → ℕ
  | .succeeded tradesTaken => tradesTaken
  | .failed => 0

end Outcome

/-- How far a job has come. -/
inductive Stage where
  | unqueued
  | queued
  | worked (o : Outcome)
  | announced (o : Outcome) (moment : ℕ)
deriving Repr, DecidableEq

/-- A job: its telemetry key with the moment it lapses, its stage, and its rows in
`backtest_results`. -/
structure Job where
  key : Option (Status × ℕ)
  stage : Stage
  rows : ℕ
deriving Repr, DecidableEq

/-- `RESULTS_TTL_S`. -/
def resultsTtl : ℕ := 3600

namespace Job

/-- A job that nobody has submitted. -/
def blank : Job :=
  ⟨none, .unqueued, 0⟩

/-- `setex(telemetry_key, RESULTS_TTL_S, ...)`. -/
def setex (now : ℕ) (status : Status) (j : Job) : Job :=
  { j with key := some (status, now + resultsTtl) }

/-- `rpush(QUEUE_KEY, ...)`. -/
def push (j : Job) : Job :=
  { j with stage := if j.stage = .unqueued then .queued else j.stage }

/-- The worker runs the job and saves its trades. -/
def work (o : Outcome) (j : Job) : Job :=
  if j.stage = .queued then { j with stage := .worked o, rows := o.rows } else j

/-- `get_job_status`. -/
def status (now : ℕ) (j : Job) : Status :=
  let fallback : Status := if 0 < j.rows then .completed else .unknown
  match j.key with
  | some (status, lapse) => if now < lapse then status else fallback
  | none => fallback

/-- The worker is done with the job. -/
def finished (j : Job) : Bool :=
  match j.stage with
  | .unqueued | .queued => false
  | .worked _ | .announced _ _ => true

/-- The event of the job was published an hour ago. -/
def announcedBefore (now : ℕ) (j : Job) : Bool :=
  match j.stage with
  | .announced _ t => decide (t + resultsTtl ≤ now)
  | .unqueued | .queued | .worked _ => false

/-- The listener has written an outcome, and it has not lapsed. -/
def recorded (now : ℕ) (j : Job) : Bool :=
  match j.key with
  | some (status, lapse) => status.settled && decide (now < lapse)
  | none => false

/-- There is no key, or it has lapsed. -/
def keyless (now : ℕ) (j : Job) : Bool :=
  match j.key with
  | some (_, lapse) => decide (lapse ≤ now)
  | none => true

end Job

/-! ## The system -/

/-- Where `submit_bulk_job` stands. -/
inductive Submission where
  | ready
  | stored (id : ℕ)
  | pushed (id : ℕ)
  | done
deriving Repr, DecidableEq

/-- The listener is away, subscribed, or about to write the outcome it has received. -/
inductive Listener where
  | away
  | subscribed
  | holding (id : ℕ) (success : Bool)
deriving Repr, DecidableEq

/-- The status of a bulk job. -/
inductive BulkStatus where
  | unknown
  | running
  | completed
deriving Repr, DecidableEq

/-- What `get_bulk_job_status` returns. -/
structure BulkReport where
  status : BulkStatus
  total : ℕ
  completed : ℕ
  failed : ℕ
  pending : ℕ
deriving Repr, DecidableEq

/-- A report, with whether the whole job was submitted and finished, and whether that was
announced an hour ago. -/
structure Polled where
  report : BulkReport
  complete : Bool
  due : Bool

/-- The clock, the symbols that are not submitted, the jobs, the set, the listener, and what was
answered so far. -/
structure World where
  now : ℕ
  symbols : List Text
  submission : Submission
  next : ℕ
  jobs : ℕ → Job
  members : List ℕ
  lapse : Option ℕ
  listener : Listener
  answers : List (ℕ × Status)
  polls : List Polled

/-- A bulk job is about to be submitted. -/
def start (symbols : List Text) : World :=
  ⟨0, symbols, .ready, 0, fun _ => Job.blank, [], none, .away, [], []⟩

/-- A change of one job. -/
def World.update (w : World) (id : ℕ) (f : Job → Job) : World :=
  { w with jobs := Function.update w.jobs id (f (w.jobs id)) }

/-- `smembers(set_key)`. -/
def World.smembers (w : World) : List ℕ :=
  if w.lapse.all fun lapse => decide (w.now < lapse) then w.members else []

/-- `get_job_status`. -/
def World.jobStatus (w : World) (id : ℕ) : Status :=
  (w.jobs id).status w.now

/-- `get_bulk_job_status`. -/
def World.bulkStatus (w : World) : BulkReport :=
  let ids := w.smembers
  if ids = [] then ⟨.unknown, 0, 0, 0, 0⟩
  else
    let completed := (ids.filter fun id => decide (w.jobStatus id = .completed)).length
    let failed := (ids.filter fun id => decide (w.jobStatus id = .failed)).length
    let pending := ids.length - completed - failed
    ⟨if pending = 0 then .completed else .running, ids.length, completed, failed, pending⟩

/-- All symbols are submitted and their ids added. -/
def World.added (w : World) : Bool :=
  decide (w.symbols = [] ∧ (w.submission = .ready ∨ w.submission = .done))

/-- All symbols are submitted and finished. -/
def World.complete (w : World) : Bool :=
  w.added && w.members.all fun id => (w.jobs id).finished

/-- All symbols are submitted, the set is there, and all jobs were announced an hour ago. -/
def World.due (w : World) : Bool :=
  w.added && decide (w.smembers ≠ []) &&
    w.smembers.all fun id => (w.jobs id).announcedBefore w.now

/-- One await of `submit_bulk_job`. -/
def World.submit (w : World) : World :=
  match w.submission, w.symbols with
  | .ready, _ :: _ =>
      { w.update w.next (Job.setex w.now .pending) with
        submission := .stored w.next, next := w.next + 1 }
  | .ready, [] =>
      { w with
        submission := .done
        lapse := if w.members = [] then w.lapse else some (w.now + resultsTtl * 24) }
  | .stored id, _ => { w.update id Job.push with submission := .pushed id }
  | .pushed id, symbols =>
      { w with submission := .ready, symbols := symbols.tail, members := w.members ++ [id] }
  | .done, _ => w

/-- `_publish_result`: the event reaches a listener that is subscribed. -/
def World.publish (w : World) (id : ℕ) : World :=
  match (w.jobs id).stage with
  | .worked o =>
      { w.update id fun j => { j with stage := .announced o w.now } with
        listener := if w.listener = .subscribed then .holding id o.success else w.listener }
  | .unqueued | .queued | .announced _ _ => w

/-- `update_job_telemetry` for the event that was received. -/
def World.record (w : World) : World :=
  match w.listener with
  | .holding id success =>
      { w.update id (Job.setex w.now (if success then .completed else .failed)) with
        listener := .away }
  | .away | .subscribed => w

/-- What happens: time, an await of the submission, the worker's run and event of a job, the
listener's subscription, its end without an event of the bulk job, its writing, and the two
questions. -/
inductive Event where
  | elapse (d : ℕ)
  | submit
  | work (id : ℕ) (o : Outcome)
  | publish (id : ℕ)
  | subscribe
  | unsubscribe
  | record
  | ask (id : ℕ)
  | poll
deriving Repr, DecidableEq

/-- An event. -/
def step (w : World) : Event → World
  | .elapse d => { w with now := w.now + d }
  | .submit => w.submit
  | .work id o => w.update id (Job.work o)
  | .publish id => w.publish id
  | .subscribe => { w with listener := if w.listener = .away then .subscribed else w.listener }
  | .unsubscribe => { w with listener := if w.listener = .subscribed then .away else w.listener }
  | .record => w.record
  | .ask id => { w with answers := w.answers ++ [(id, w.jobStatus id)] }
  | .poll => { w with polls := w.polls ++ [⟨w.bulkStatus, w.complete, w.due⟩] }

/-- A job that was answered to be completed or failed stays so, a bulk job is reported completed
only when it is, and always from an hour behind the last announcement on while its set is
there. -/
structure Truthful (w : World) : Prop where
  steady : w.answers.Pairwise fun a b => a.1 = b.1 → a.2.settled = true → b.2.settled = true
  honest : ∀ p ∈ w.polls, p.report.status = .completed → p.complete = true
  reported : ∀ p ∈ w.polls, p.due = true → p.report.status = .completed

/-- When a job is asked for again, or the bulk job is due, every job in question has rows or an
outcome that was written within the hour; and a poll during the submission finds a job in the
set with neither an outcome within the hour nor rows behind a lapsed key. -/
def Kept (w : World) : Event → Prop
  | .ask id => (∃ a ∈ w.answers, a.1 = id ∧ a.2.settled = true) →
      0 < (w.jobs id).rows ∨ (w.jobs id).recorded w.now = true
  | .poll =>
      (w.due = true → ∀ id ∈ w.smembers,
        0 < (w.jobs id).rows ∨ (w.jobs id).recorded w.now = true) ∧
      (w.added = false → w.smembers ≠ [] → ∃ id ∈ w.smembers,
        (w.jobs id).recorded w.now = false ∧
          ((w.jobs id).keyless w.now = true → (w.jobs id).rows = 0))
  | .elapse _ | .submit | .work _ _ | .publish _ | .subscribe | .unsubscribe | .record => True

/-! ## One job -/

namespace Job

/-- Which jobs are reported as completed or failed. -/
theorem settled_iff (now : ℕ) (j : Job) :
    (j.status now).settled = true ↔
      j.recorded now = true ∨ (j.keyless now = true ∧ 0 < j.rows) := by
  have hfallback : (if 0 < j.rows then Status.completed else Status.unknown).settled = true ↔
      0 < j.rows := by
    split_ifs with h <;> simp [Status.settled, h]
  unfold status recorded keyless
  cases hkey : j.key with
  | none => simpa using hfallback
  | some key =>
      dsimp only
      by_cases halive : now < key.2
      · simp [halive, not_le.mpr halive]
      · have hlapsed : key.2 ≤ now := not_lt.mp halive
        simpa [halive, hlapsed] using hfallback

/-- What holds of every job: a pending key is no older than the announcement, other keys hold
outcomes of announced jobs, and rows are those of finished jobs. -/
structure Sane (now : ℕ) (j : Job) : Prop where
  pending : ∀ lapse, j.key = some (.pending, lapse) → lapse ≤ now + resultsTtl ∧
    ∀ o t, j.stage = .announced o t → lapse ≤ t + resultsTtl
  outcome : ∀ status lapse, j.key = some (status, lapse) → status ≠ .pending →
    status.settled = true ∧ ∃ o t, j.stage = .announced o t
  rows : 0 < j.rows → j.finished = true

/-- The job was once reported as completed or failed: it has a key with an outcome, or rows
without a key. -/
def Answered (now : ℕ) (j : Job) : Prop :=
  (∃ status lapse, j.key = some (status, lapse) ∧ status.settled = true) ∨
    (0 < j.rows ∧ j.keyless now = true)

variable {now : ℕ} {j : Job}

/-- An outcome within the hour is a key with an outcome that has not lapsed. -/
theorem recorded_iff : j.recorded now = true ↔
    ∃ status lapse, j.key = some (status, lapse) ∧ status.settled = true ∧ now < lapse := by
  unfold recorded
  cases hkey : j.key with
  | none => simp
  | some key =>
      rcases key with ⟨status, lapse⟩
      simp only [Bool.and_eq_true, decide_eq_true_eq, Option.some.injEq, Prod.mk.injEq]
      constructor
      · exact fun h => ⟨status, lapse, ⟨rfl, rfl⟩, h⟩
      · rintro ⟨_, _, ⟨rfl, rfl⟩, h⟩
        exact h

/-- Only finished jobs are reported as completed or failed. -/
theorem Sane.finished_of_settled (h : Sane now j) (hsettled : (j.status now).settled = true) :
    j.finished = true := by
  rcases (settled_iff now j).mp hsettled with hrecorded | ⟨-, hrows⟩
  · rcases recorded_iff.mp hrecorded with ⟨status, lapse, hkey, hstatus, -⟩
    have hne : status ≠ .pending := by
      rintro rfl
      cases hstatus
    rcases (h.outcome status lapse hkey hne).2 with ⟨o, t, hstage⟩
    rw [finished, hstage]
  · exact h.rows hrows

/-- A job that is reported as completed or failed was. -/
theorem answered_of_settled (hsettled : (j.status now).settled = true) : Answered now j := by
  rcases (settled_iff now j).mp hsettled with hrecorded | ⟨hkeyless, hrows⟩
  · rcases recorded_iff.mp hrecorded with ⟨status, lapse, hkey, hstatus, -⟩
    exact Or.inl ⟨status, lapse, hkey, hstatus⟩
  · exact Or.inr ⟨hrows, hkeyless⟩

/-- A job whose pending key cannot be alive any more is reported as completed or failed if it
has rows or an outcome that was written within the hour. -/
theorem settled_iff_of_no_pending
    (hpending : ∀ lapse, j.key = some (.pending, lapse) → lapse ≤ now)
    (houtcome : ∀ status lapse, j.key = some (status, lapse) → status ≠ .pending →
      status.settled = true) :
    (j.status now).settled = true ↔ 0 < j.rows ∨ j.recorded now = true := by
  have hdone : j.recorded now = true ∨ j.keyless now = true := by
    unfold recorded keyless
    cases hkey : j.key with
    | none => exact Or.inr rfl
    | some key =>
        dsimp only
        by_cases hlapsed : key.2 ≤ now
        · exact Or.inr (decide_eq_true hlapsed)
        · have hstatus : key.1 ≠ .pending := by
            intro h
            exact hlapsed (hpending key.2 (by rw [hkey, ← h]))
          exact Or.inl (by simp [houtcome key.1 key.2 hkey hstatus, not_le.mp hlapsed])
  rw [settled_iff]
  constructor
  · rintro (h | ⟨-, h⟩)
    · exact Or.inr h
    · exact Or.inl h
  · rintro (h | h)
    · exact hdone.imp_right fun hkeyless => ⟨hkeyless, h⟩
    · exact Or.inl h

/-- An hour behind its announcement. -/
theorem Sane.settled_iff_of_announcedBefore (h : Sane now j)
    (hbefore : j.announcedBefore now = true) :
    (j.status now).settled = true ↔ 0 < j.rows ∨ j.recorded now = true := by
  refine settled_iff_of_no_pending (fun lapse hkey => ?_)
    fun status lapse hkey hne => (h.outcome status lapse hkey hne).1
  cases hstage : j.stage with
  | announced o t =>
      have hle := (h.pending lapse hkey).2 o t hstage
      rw [announcedBefore, hstage, decide_eq_true_eq] at hbefore
      omega
  | unqueued | queued | worked o =>
      rw [announcedBefore, hstage] at hbefore
      cases hbefore

/-- Behind an answer. -/
theorem Answered.settled_iff (h : Answered now j) (hsane : Sane now j) :
    (j.status now).settled = true ↔ 0 < j.rows ∨ j.recorded now = true := by
  refine settled_iff_of_no_pending (fun lapse hkey => ?_)
    fun status lapse hkey hne => (hsane.outcome status lapse hkey hne).1
  rcases h with ⟨status, other, hother, hsettled⟩ | ⟨-, hkeyless⟩
  · rw [hkey] at hother
    have hstatus : Status.pending = status := congrArg Prod.fst (Option.some.inj hother)
    rw [← hstatus] at hsettled
    cases hsettled
  · rw [keyless, hkey] at hkeyless
    exact of_decide_eq_true hkeyless

/-! ### Changes of a job -/

/-- A change that keeps what is known of a job. -/
structure Follows (now : ℕ) (j j' : Job) : Prop where
  sane : Sane now j'
  announced : (∃ o t, j.stage = .announced o t) → ∃ o t, j'.stage = .announced o t
  answered : Answered now j → Answered now j'

theorem Follows.refl (h : Sane now j) : Follows now j j :=
  ⟨h, id, id⟩

theorem follows_setex_pending : Follows now blank (blank.setex now .pending) := by
  refine ⟨⟨fun lapse hkey => ⟨?_, ?_⟩, ?_, ?_⟩, ?_, ?_⟩
  · have hlapse : now + resultsTtl = lapse := congrArg Prod.snd (Option.some.inj hkey)
    omega
  · rintro o t ⟨⟩
  · intro status lapse hkey hne
    exact absurd (congrArg Prod.fst (Option.some.inj hkey)).symm hne
  · intro hrows
    exact absurd hrows (Nat.lt_irrefl 0)
  · rintro ⟨o, t, ⟨⟩⟩
  · rintro (⟨status, lapse, ⟨⟩, -⟩ | ⟨hrows, -⟩)
    exact absurd hrows (Nat.lt_irrefl 0)

/-- An unfinished job has no rows, no outcome and no announcement. -/
theorem Sane.of_unfinished (h : Sane now j) (hunfinished : j.finished = false) :
    ¬ 0 < j.rows ∧ (∀ status lapse, j.key = some (status, lapse) → status = .pending) ∧
      ¬ ∃ o t, j.stage = .announced o t := by
  have hstage : ¬ ∃ o t, j.stage = .announced o t := by
    rintro ⟨o, t, hstage⟩
    rw [finished, hstage] at hunfinished
    cases hunfinished
  refine ⟨fun hrows => ?_, fun status lapse hkey => ?_, hstage⟩
  · rw [h.rows hrows] at hunfinished
    cases hunfinished
  · by_contra hne
    exact hstage (h.outcome status lapse hkey hne).2

theorem Sane.follows_push (h : Sane now j) : Follows now j j.push := by
  by_cases hstage : j.stage = .unqueued
  · rcases h.of_unfinished (by rw [finished, hstage]) with ⟨hrows, hkey, hannounced⟩
    have hpush : j.push = { j with stage := .queued } := by
      rw [push, if_pos hstage]
    rw [hpush]
    refine ⟨⟨fun lapse hpending => ⟨(h.pending lapse hpending).1, ?_⟩, ?_, ?_⟩, ?_, id⟩
    · rintro o t ⟨⟩
    · exact fun status lapse hother hne => absurd (hkey status lapse hother) hne
    · exact fun hpos => absurd hpos hrows
    · exact fun h => absurd h hannounced
  · have hpush : j.push = j := by
      rw [push, if_neg hstage]
    rw [hpush]
    exact Follows.refl h

theorem Sane.follows_work (h : Sane now j) (o : Outcome) : Follows now j (j.work o) := by
  rw [work]
  split_ifs with hstage
  · rcases h.of_unfinished (by rw [finished, hstage]) with ⟨hrows, hkey, hannounced⟩
    refine ⟨⟨fun lapse hpending => ⟨(h.pending lapse hpending).1, ?_⟩, ?_, fun _ => rfl⟩, ?_, ?_⟩
    · rintro o t ⟨⟩
    · exact fun status lapse hother hne => absurd (hkey status lapse hother) hne
    · exact fun h => absurd h hannounced
    · exact Or.imp id fun hold => absurd hold.1 hrows
  · exact Follows.refl h

theorem Sane.follows_announce (h : Sane now j) (o : Outcome) :
    Follows now j { j with stage := .announced o now } := by
  refine ⟨⟨fun lapse hpending => ⟨(h.pending lapse hpending).1, ?_⟩, ?_, fun _ => rfl⟩, ?_, id⟩
  · rintro o' t ⟨⟩
    exact (h.pending lapse hpending).1
  · exact fun status lapse hkey hne =>
      ⟨(h.outcome status lapse hkey hne).1, o, now, rfl⟩
  · exact fun _ => ⟨o, now, rfl⟩

theorem Sane.follows_record (h : Sane now j) (hannounced : ∃ o t, j.stage = .announced o t)
    {status : Status} (hstatus : status.settled = true) :
    Follows now j (j.setex now status) := by
  have hkey : ∀ other lapse, (j.setex now status).key = some (other, lapse) → status = other :=
    fun other lapse hkey => congrArg Prod.fst (Option.some.inj hkey)
  refine ⟨⟨fun lapse hpending => ?_, fun other lapse hother _ => ?_, h.rows⟩, id, fun _ => ?_⟩
  · rw [hkey _ _ hpending] at hstatus
    cases hstatus
  · rw [hkey _ _ hother] at hstatus
    exact ⟨hstatus, hannounced⟩
  · exact Or.inl ⟨status, _, rfl, hstatus⟩

/-- What is known of a job stays known as time passes. -/
theorem Sane.elapse (h : Sane now j) (d : ℕ) :
    Sane (now + d) j ∧ (Answered now j → Answered (now + d) j) := by
  refine ⟨⟨fun lapse hkey => ⟨?_, (h.pending lapse hkey).2⟩, h.outcome, h.rows⟩, ?_⟩
  · have hle := (h.pending lapse hkey).1
    omega
  · refine Or.imp id fun hold => ⟨hold.1, ?_⟩
    have hkeyless := hold.2
    unfold keyless at hkeyless ⊢
    cases hkey : j.key with
    | none => rfl
    | some key =>
        rw [hkey, decide_eq_true_eq] at hkeyless
        exact decide_eq_true (le_trans hkeyless (Nat.le_add_right _ _))

end Job

/-! ## The system in every run -/

/-- What holds of keys, rows and jobs in every run. -/
structure Sane (w : World) : Prop where
  each : ∀ id, Job.Sane w.now (w.jobs id)
  fresh : ∀ id, w.next ≤ id → w.jobs id = Job.blank
  current : ∀ id, w.submission = .stored id → id < w.next
  holding : ∀ id success, w.listener = .holding id success →
    ∃ o t, (w.jobs id).stage = .announced o t
  answered : ∀ a ∈ w.answers, a.2.settled = true → Job.Answered w.now (w.jobs a.1)

variable {w : World}

/-- A change of one job that follows what is known of it. -/
theorem Sane.update (h : Sane w) {id : ℕ} {f : Job → Job}
    (hf : Job.Follows w.now (w.jobs id) (f (w.jobs id)))
    (hfresh : w.next ≤ id → f (w.jobs id) = Job.blank) : Sane (w.update id f) := by
  have hjobs : ∀ other, Job.Follows w.now (w.jobs other) ((w.update id f).jobs other) := by
    intro other
    by_cases hother : other = id
    · rw [hother]
      simpa [World.update] using hf
    · simpa [World.update, hother] using Job.Follows.refl (h.each other)
  refine ⟨fun other => (hjobs other).sane, fun other hother => ?_, h.current,
    fun other success hholding => ?_, fun a ha hsettled => ?_⟩
  · by_cases heq : other = id
    · rw [heq] at hother ⊢
      simpa [World.update] using hfresh hother
    · simpa [World.update, heq] using h.fresh other hother
  · exact (hjobs other).announced (h.holding other success hholding)
  · exact (hjobs a.1).answered (h.answered a ha hsettled)

/-- A job that holds an announcement was submitted. -/
theorem Sane.lt_next (h : Sane w) {id : ℕ} (hstage : (w.jobs id).stage ≠ .unqueued) :
    id < w.next := by
  by_contra hnot
  rw [h.fresh id (not_lt.mp hnot)] at hstage
  exact hstage rfl

theorem Sane.submit (h : Sane w) : Sane w.submit := by
  unfold World.submit
  split
  · -- The new id is fresh: it has not been answered for, and nobody holds its event.
    have hblank := h.fresh w.next le_rfl
    have hstored : ∀ id, id ≠ w.next →
        (w.update w.next (Job.setex w.now .pending)).jobs id = w.jobs id :=
      fun id hid => Function.update_of_ne hid _ _
    have hself : (w.update w.next (Job.setex w.now .pending)).jobs w.next =
        Job.blank.setex w.now .pending := by
      simp [World.update, hblank]
    refine ⟨fun id => ?_, fun id hid => ?_, fun id hid => ?_, fun id success hid => ?_,
      fun a ha hsettled => ?_⟩
    · by_cases hid : id = w.next
      · rw [hid]
        exact hself.symm ▸ Job.follows_setex_pending.sane
      · exact (hstored id hid).symm ▸ h.each id
    · have hne : id ≠ w.next := Nat.ne_of_gt hid
      exact (hstored id hne).trans (h.fresh id (Nat.le_of_lt hid))
    · rw [← Submission.stored.inj hid]
      exact Nat.lt_succ_self w.next
    · have hannounced := h.holding id success hid
      have hne : id ≠ w.next := by
        rintro rfl
        rw [hblank] at hannounced
        rcases hannounced with ⟨o, t, ⟨⟩⟩
      exact (hstored id hne).symm ▸ hannounced
    · have hanswered := h.answered a ha hsettled
      have hne : a.1 ≠ w.next := by
        intro heq
        rw [heq, hblank] at hanswered
        rcases hanswered with ⟨status, lapse, ⟨⟩, -⟩ | ⟨hrows, -⟩
        exact absurd hrows (Nat.lt_irrefl 0)
      exact (hstored a.1 hne).symm ▸ hanswered
  · exact ⟨h.each, h.fresh, fun id hid => (by cases hid), h.holding, h.answered⟩
  · rename_i id hstored
    have hpush := h.update (h.each id).follows_push fun hle =>
      absurd (h.current id hstored) (Nat.not_lt.mpr hle)
    exact ⟨hpush.each, hpush.fresh, fun id hid => (by cases hid), hpush.holding, hpush.answered⟩
  · exact ⟨h.each, h.fresh, fun id hid => (by cases hid), h.holding, h.answered⟩
  · exact h

theorem Sane.publish (h : Sane w) (id : ℕ) : Sane (w.publish id) := by
  unfold World.publish
  split
  · rename_i o hstage
    have hlt : id < w.next := h.lt_next (by rw [hstage]; rintro ⟨⟩)
    have hupdate := h.update (f := fun j => { j with stage := .announced o w.now })
      ((h.each id).follows_announce o) fun hle => absurd hlt (Nat.not_lt.mpr hle)
    refine ⟨hupdate.each, hupdate.fresh, hupdate.current, fun other success hholding => ?_,
      hupdate.answered⟩
    dsimp only at hholding
    split_ifs at hholding with hsubscribed
    · refine ⟨o, w.now, ?_⟩
      rw [← (Listener.holding.inj hholding).1]
      simp [World.update]
    · exact hupdate.holding other success hholding
  · exact h
  · exact h
  · exact h

theorem Sane.record (h : Sane w) : Sane w.record := by
  unfold World.record
  split
  · rename_i id success hlistener
    have hannounced := h.holding id success hlistener
    have hlt : id < w.next := h.lt_next (by
      rcases hannounced with ⟨o, t, hstage⟩
      rw [hstage]
      rintro ⟨⟩)
    have hstatus : (if success then Status.completed else Status.failed).settled = true := by
      cases success <;> rfl
    have hupdate := h.update ((h.each id).follows_record hannounced hstatus) fun hle =>
      absurd hlt (Nat.not_lt.mpr hle)
    exact ⟨hupdate.each, hupdate.fresh, hupdate.current, fun id success hid => (by cases hid),
      hupdate.answered⟩
  · exact h
  · exact h

/-- What holds of keys, rows and jobs is kept by every event. -/
theorem Sane.step (h : Sane w) (e : Event) : Sane (step w e) := by
  cases e with
  | elapse d =>
      exact ⟨fun id => ((h.each id).elapse d).1, h.fresh, h.current, h.holding,
        fun a ha hsettled => ((h.each a.1).elapse d).2 (h.answered a ha hsettled)⟩
  | submit => exact h.submit
  | work id o =>
      refine h.update ((h.each id).follows_work o) fun hle => ?_
      rw [h.fresh id hle]
      rfl
  | publish id => exact h.publish id
  | subscribe =>
      refine ⟨h.each, h.fresh, h.current, fun id success hid => ?_, h.answered⟩
      dsimp only [BulkBacktest.step] at hid
      split_ifs at hid
      exact h.holding id success hid
  | unsubscribe =>
      refine ⟨h.each, h.fresh, h.current, fun id success hid => ?_, h.answered⟩
      dsimp only [BulkBacktest.step] at hid
      split_ifs at hid
      exact h.holding id success hid
  | record => exact h.record
  | ask id =>
      refine ⟨h.each, h.fresh, h.current, h.holding, fun a ha hsettled => ?_⟩
      rcases List.mem_append.mp ha with hold | hnew
      · exact h.answered a hold hsettled
      · rw [List.mem_singleton.mp hnew] at hsettled ⊢
        exact Job.answered_of_settled hsettled
  | poll => exact ⟨h.each, h.fresh, h.current, h.holding, h.answered⟩

/-! ## Answers and reports -/

/-- A bulk job is reported completed if its set is there and every job in it is reported as
completed or failed. -/
theorem bulkStatus_completed_iff (w : World) :
    w.bulkStatus.status = .completed ↔
      w.smembers ≠ [] ∧ ∀ id ∈ w.smembers, (w.jobStatus id).settled = true := by
  have hcount : ∀ ids : List ℕ,
      (ids.filter fun id => decide (w.jobStatus id = .completed)).length +
        (ids.filter fun id => decide (w.jobStatus id = .failed)).length =
          (ids.filter fun id => (w.jobStatus id).settled).length := by
    intro ids
    induction ids with
    | nil => rfl
    | cons id rest ih =>
        have hone : (w.jobStatus id).settled =
            (decide (w.jobStatus id = .completed) || decide (w.jobStatus id = .failed)) := by
          cases w.jobStatus id <;> rfl
        by_cases hcompleted : w.jobStatus id = .completed
        · have hfailed : w.jobStatus id ≠ .failed := by
            rw [hcompleted]
            rintro ⟨⟩
          rw [List.filter_cons_of_pos (by simpa using hcompleted),
            List.filter_cons_of_neg (by simpa using hfailed),
            List.filter_cons_of_pos (by rw [hone]; simp [hcompleted]), List.length_cons,
            List.length_cons]
          omega
        · by_cases hfailed : w.jobStatus id = .failed
          · rw [List.filter_cons_of_neg (by simpa using hcompleted),
              List.filter_cons_of_pos (by simpa using hfailed),
              List.filter_cons_of_pos (by rw [hone]; simp [hfailed]), List.length_cons,
              List.length_cons]
            omega
          · rw [List.filter_cons_of_neg (by simpa using hcompleted),
              List.filter_cons_of_neg (by simpa using hfailed),
              List.filter_cons_of_neg (by rw [hone]; simp [hcompleted, hfailed])]
            exact ih
  unfold World.bulkStatus
  dsimp only
  by_cases hnil : w.smembers = []
  · simp [hnil]
  · rw [if_neg hnil]
    have hall : (∀ id ∈ w.smembers, (w.jobStatus id).settled = true) ↔
        (w.smembers.filter fun id => (w.jobStatus id).settled).length = w.smembers.length := by
      rw [List.length_filter_eq_length_iff]
    have hle := List.length_filter_le (fun id => (w.jobStatus id).settled) w.smembers
    rw [← hcount] at hall hle
    rw [hall]
    dsimp only
    split_ifs with hpending
    · refine iff_of_true rfl ⟨hnil, ?_⟩
      omega
    · refine iff_of_false (by rintro ⟨⟩) fun h => hpending ?_
      omega

/-- Only the two questions are answered. -/
theorem answers_step {e : Event} (hask : ∀ id, e ≠ .ask id) (hpoll : e ≠ .poll) :
    (step w e).answers = w.answers ∧ (step w e).polls = w.polls := by
  cases e with
  | ask id => exact absurd rfl (hask id)
  | poll => exact absurd rfl hpoll
  | submit =>
      dsimp only [step]
      unfold World.submit
      split <;> exact ⟨rfl, rfl⟩
  | publish id =>
      dsimp only [step]
      unfold World.publish
      split <;> exact ⟨rfl, rfl⟩
  | record =>
      dsimp only [step]
      unfold World.record
      split <;> exact ⟨rfl, rfl⟩
  | elapse _ | work _ _ | subscribe | unsubscribe => exact ⟨rfl, rfl⟩

/-- The set is there or it reads as empty. -/
theorem smembers_eq {w : World} (hne : w.smembers ≠ []) : w.smembers = w.members := by
  unfold World.smembers at hne ⊢
  split_ifs at hne ⊢ with halive
  · rfl
  · exact absurd rfl hne

/-- A due bulk job is reported completed if every job has rows or an outcome within the hour. -/
theorem Sane.completed_iff_of_due (h : Sane w) (hdue : w.due = true) :
    w.bulkStatus.status = .completed ↔
      ∀ id ∈ w.smembers, 0 < (w.jobs id).rows ∨ (w.jobs id).recorded w.now = true := by
  rw [World.due, Bool.and_eq_true, Bool.and_eq_true, decide_eq_true_eq, List.all_eq_true] at hdue
  rcases hdue with ⟨⟨-, hne⟩, hbefore⟩
  rw [bulkStatus_completed_iff, and_iff_right hne]
  exact forall₂_congr fun id hid => (h.each id).settled_iff_of_announcedBefore (hbefore id hid)

/-- A bulk job with all its ids in the set is complete when it is reported completed. -/
theorem Sane.complete_of_added (h : Sane w) (hadded : w.added = true)
    (hcompleted : w.bulkStatus.status = .completed) : w.complete = true := by
  rcases (bulkStatus_completed_iff w).mp hcompleted with ⟨hne, hsettled⟩
  rw [World.complete, hadded, Bool.true_and, List.all_eq_true, ← smembers_eq hne]
  exact fun id hid => (h.each id).finished_of_settled (hsettled id hid)

/-- After a settled answer a job is settled if it has rows or an outcome within the hour. -/
theorem Sane.settled_again_iff (h : Sane w) {a : ℕ × Status} (ha : a ∈ w.answers)
    (hsettled : a.2.settled = true) :
    (w.jobStatus a.1).settled = true ↔
      0 < (w.jobs a.1).rows ∨ (w.jobs a.1).recorded w.now = true :=
  (h.answered a ha hsettled).settled_iff (h.each a.1)

/-- A bulk job is reported completed only when it is complete, unless its ids were not added and
every one of them is settled. -/
theorem Sane.completed_honest_iff (h : Sane w) :
    (w.bulkStatus.status = .completed → w.complete = true) ↔
      (w.added = false → w.smembers ≠ [] → ∃ id ∈ w.smembers,
        (w.jobs id).recorded w.now = false ∧
          ((w.jobs id).keyless w.now = true → (w.jobs id).rows = 0)) := by
  have hopen : ∀ id, (w.jobStatus id).settled = false ↔ (w.jobs id).recorded w.now = false ∧
      ((w.jobs id).keyless w.now = true → (w.jobs id).rows = 0) := by
    intro id
    rw [← Bool.not_eq_true, World.jobStatus, Job.settled_iff, not_or, Bool.not_eq_true, not_and,
      Nat.pos_iff_ne_zero, not_not]
  cases hadded : w.added with
  | true => exact iff_of_true (h.complete_of_added hadded) (by rintro ⟨⟩)
  | false =>
      have hcomplete : w.complete = false := by
        rw [World.complete, hadded, Bool.false_and]
      rw [hcomplete, bulkStatus_completed_iff]
      constructor
      · intro hnot _ hne
        by_contra hall
        push Not at hall
        refine absurd (hnot ⟨hne, fun id hid => ?_⟩) (by decide)
        by_contra hunsettled
        rcases (hopen id).mp (Bool.not_eq_true _ ▸ hunsettled) with ⟨hrecorded, hrows⟩
        rcases hall id hid hrecorded with ⟨hkeyless, hpos⟩
        exact hpos (hrows hkeyless)
      · rintro hex ⟨hne, hall⟩
        rcases hex rfl hne with ⟨id, hid, hunsettled⟩
        rw [← hall id hid]
        exact ((hopen id).mpr hunsettled).symm

/-- An event keeps the answers steady and the reports truthful exactly under its condition. -/
theorem truthful_step_iff (e : Event) (h : Sane w) (hw : Truthful w) :
    Truthful (step w e) ↔ Kept w e := by
  have hsilent : (∀ id, e ≠ .ask id) → e ≠ .poll → Truthful (step w e) := by
    intro hask hpoll
    rcases answers_step (w := w) hask hpoll with ⟨hanswers, hpolls⟩
    exact ⟨hanswers ▸ hw.steady, hpolls ▸ hw.honest, hpolls ▸ hw.reported⟩
  cases e with
  | ask id =>
      have hpairwise : (step w (.ask id)).answers.Pairwise
          (fun a b => a.1 = b.1 → a.2.settled = true → b.2.settled = true) ↔
          ∀ a ∈ w.answers, a.1 = id → a.2.settled = true → (w.jobStatus id).settled = true := by
        dsimp only [step]
        rw [List.pairwise_append]
        simp [hw.steady]
      constructor
      · rintro hnext ⟨a, ha, rfl, hsettled⟩
        exact (h.settled_again_iff ha hsettled).mp
          (hpairwise.mp hnext.steady a ha rfl hsettled)
      · intro hcond
        refine ⟨hpairwise.mpr ?_, hw.honest, hw.reported⟩
        rintro a ha rfl hsettled
        exact (h.settled_again_iff ha hsettled).mpr (hcond ⟨a, ha, rfl, hsettled⟩)
  | poll =>
      have hreported : (w.due = true → w.bulkStatus.status = .completed) ↔
          (w.due = true → ∀ id ∈ w.smembers,
            0 < (w.jobs id).rows ∨ (w.jobs id).recorded w.now = true) :=
        forall_congr' fun hdue => h.completed_iff_of_due hdue
      constructor
      · intro hnext
        have hlast : (⟨w.bulkStatus, w.complete, w.due⟩ : Polled) ∈ (step w .poll).polls :=
          List.mem_append_right _ List.mem_cons_self
        exact ⟨hreported.mp (hnext.reported _ hlast),
          h.completed_honest_iff.mp (hnext.honest _ hlast)⟩
      · intro hcond
        refine ⟨hw.steady, fun p hp => ?_, fun p hp => ?_⟩
        · rcases List.mem_append.mp hp with hold | hnew
          · exact hw.honest p hold
          · rw [List.mem_singleton.mp hnew]
            exact h.completed_honest_iff.mpr hcond.2
        · rcases List.mem_append.mp hp with hold | hnew
          · exact hw.reported p hold
          · rw [List.mem_singleton.mp hnew]
            exact hreported.mpr hcond.1
  | elapse _ | submit | work _ _ | publish _ | subscribe | unsubscribe | record =>
      exact iff_of_true (hsilent (by rintro id ⟨⟩) (by rintro ⟨⟩)) trivial

/-- The answers are steady and the reports truthful exactly in the runs whose questions meet
their conditions. -/
theorem truthful_throughout_iff (symbols : List Text) (events : List Event) :
    (∀ n, Truthful (run step (start symbols) (events.take n))) ↔
      Admits step Kept (start symbols) events := by
  have hsane : Sane (start symbols) := by
    refine ⟨fun id => ⟨?_, ?_, ?_⟩, fun _ _ => rfl, ?_, ?_, by simp [start]⟩
    · rintro lapse ⟨⟩
    · rintro status lapse ⟨⟩
    · exact fun hrows => absurd hrows (Nat.lt_irrefl 0)
    · rintro id ⟨⟩
    · rintro id success ⟨⟩
  have htruthful : Truthful (start symbols) := ⟨List.Pairwise.nil, by simp [start], by simp [start]⟩
  exact invariant_iff_admits_beside Sane Truthful (fun _ e hw => hw.step e)
    (fun _ e hw ht => truthful_step_iff e hw ht) hsane htruthful

/-- A bulk job of one symbol whose backtest takes no trade; its event is received, and it is
asked for before and after the hour is over. -/
def noTrades : List Event :=
  [.submit, .submit, .submit, .submit, .subscribe, .work 0 (.succeeded 0), .publish 0, .record,
    .ask 0, .elapse 3600, .ask 0]

/-- It is completed first and unknown later. -/
theorem outcome_forgotten : ¬ Truthful (run step (start ["BTC/USDT".toList]) noTrades) := by
  intro h
  have hanswers : (run step (start ["BTC/USDT".toList]) noTrades).answers =
      [(0, .completed), (0, .unknown)] := by
    decide +kernel
  have hsteady := h.steady
  rw [hanswers] at hsteady
  have hpair := List.rel_of_pairwise_cons hsteady List.mem_cons_self rfl rfl
  cases hpair

end BulkBacktest
end Karsa
