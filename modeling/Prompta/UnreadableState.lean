import Prompta.JobDeliveries

/-!
A job whose state cannot be read is taken for a job that was never sent. A tick then
enqueues it although its saved state holds it back, unless something outside the state
does: its group, the time of a one-time job, or a delivery under the key of the empty
state.
-/
namespace Prompta.UnreadableState

open Runs Tables Texts DisplayBlocks Schema DeliveryQueue Service Jobs SchedulerPolicy Scheduler
  JobDeliveries

/-- The tick with the reads of one job's state as given. -/
def withRead (input : Tick) (name : String) (fails : Bool) : Tick :=
  { input with unread := fun other => if other = name then fails else input.unread other }

/-- The tick reads the state of the job and leaves the job alone. -/
def Refuses (lib : Stdlib) (cal : Calendar) (s : SchedulerState) (input : Tick)
    (name : String) : Prop :=
  ∀ e ∈ (tick lib cal s (withRead input name false)).2, e.job.name ≠ name

/-- A job that would be refused gets no delivery when its state cannot be read. -/
def FailsClosed (lib : Stdlib) (cal : Calendar) (s : SchedulerState) (input : Tick)
    (name : String) : Prop :=
  Refuses lib cal s input name →
    ∀ e ∈ (tick lib cal s (withRead input name true)).2, e.job.name = name → e.created = false

/-- What holds a job back without its state. -/
inductive Shielded (lib : Stdlib) (s : SchedulerState) (input : Tick) (job : PromptJob)
    (jobs : List PromptJob) : Prop
  | busy (h : mutexGroupBusy s input job jobs = true)
  | locked (h : externalMutexGroupBusy input job = true)
  | early (h : input.now < job.runAtEpoch.getD 0)
  | known (h : existingDelivery s.store.queue
      (scheduledRecord job (occurrenceKey lib job {})) ≠ none)

section Turns

variable (lib : Stdlib) (cal : Calendar) (s : SchedulerState) (input : Tick)

/-- Without its state a job is held back by its group or by its own time only. -/
theorem allowsEnqueue_unread {job : PromptJob} (jobs : List PromptJob)
    (hread : input.unread job.name = true) :
    allowsEnqueue cal s input job jobs = true ↔
      mutexGroupBusy s input job jobs = false ∧ externalMutexGroupBusy input job = false ∧
        job.runAtEpoch.getD 0 ≤ input.now := by
  have hstate : readState s input job.name = {} := by
    unfold readState
    rw [if_pos hread]
  have hdue : isDue cal job {} input.now = true ↔ job.runAtEpoch.getD 0 ≤ input.now := by
    cases hrun : job.runAtEpoch with
    | none => simp [isDue, dueIn, hrun, intervalFloor, lastAttemptAt]
    | some runAt => simp [isDue, dueIn, hrun, lastAttemptAt]
  unfold allowsEnqueue shouldEnqueueJob
  rw [hstate]
  dsimp only
  rw [Bool.and_eq_true, Bool.not_eq_true', Bool.or_eq_false_iff, and_assoc, ← hdue]
  simp [pendingReceipt]

/-- The job gets a delivery at its turn. -/
theorem created_iff {job : PromptJob} (jobs : List PromptJob)
    (hread : input.unread job.name = true) :
    (∃ e, (enqueueIfDue lib cal s input job jobs).2 = some e ∧ e.created = true) ↔
      ¬ Shielded lib s input job jobs := by
  have hstate : readState s input job.name = {} := by
    unfold readState
    rw [if_pos hread]
  have hallows := allowsEnqueue_unread cal s input jobs hread
  have houtcome := enqueue_outcome lib cal s input job jobs
  generalize enqueueIfDue lib cal s input job jobs = outcome at houtcome ⊢
  have hfree : allowsEnqueue cal s input job jobs = true →
      existingDelivery s.store.queue (scheduledRecord job (occurrenceKey lib job {})) = none →
        ¬ Shielded lib s input job jobs := by
    intro hallowed hnone hshielded
    obtain ⟨hbusy, hlocked, htime⟩ := hallows.mp hallowed
    cases hshielded with
    | busy h => rw [hbusy] at h; exact Bool.noConfusion h
    | locked h => rw [hlocked] at h; exact Bool.noConfusion h
    | early h => exact absurd htime (not_le.mpr h)
    | known h => exact h hnone
  cases houtcome with
  | refused h =>
    constructor
    · rintro ⟨e, he, _⟩
      exact nomatch he
    · intro hopen
      have hallowed : allowsEnqueue cal s input job jobs = true := by
        refine hallows.mpr ⟨?_, ?_, ?_⟩
        · by_contra hbusy
          exact hopen (Shielded.busy (by simpa using hbusy))
        · by_contra hlocked
          exact hopen (Shielded.locked (by simpa using hlocked))
        · by_contra htime
          exact hopen (Shielded.early (not_le.mp htime))
      rw [h] at hallowed
      exact Bool.noConfusion hallowed
  | existing key d c h hkey hd hstore =>
    constructor
    · rintro ⟨e, he, hcreated⟩
      cases he
      exact Bool.noConfusion hcreated
    · intro hopen
      rw [hstate] at hkey
      rw [hkey] at hd
      exact absurd (Shielded.known (by rw [hd]; exact Option.some_ne_none d)) hopen
  | created key d c h hkey hnone hd hstore =>
    constructor
    · intro _
      rw [hstate] at hkey
      rw [hkey] at hnone
      exact hfree h hnone
    · intro _
      exact ⟨_, rfl, rfl⟩

end Turns

/-- A failed read enqueues nothing for a job that would be refused exactly when the job
is held back without its state. -/
theorem unread_fails_closed (lib : Stdlib) (cal : Calendar) (s : SchedulerState) (input : Tick)
    (job : PromptJob) (hjob : job ∈ tickJobs s input) :
    FailsClosed lib cal s input job.name ↔
      (Refuses lib cal s input job.name →
        Shielded lib (turn lib cal s (withRead input job.name true) job.name)
          (withRead input job.name true) job (tickJobs s input)) := by
  have hread : (withRead input job.name true).unread job.name = true := if_pos rfl
  have hcreated := created_iff lib cal (turn lib cal s (withRead input job.name true) job.name)
    (withRead input job.name true) (tickJobs s input) hread
  have hentry := tick_entry lib cal s (withRead input job.name true) hjob
  apply forall_congr'
  intro _
  constructor
  · intro hclosed
    by_contra hopen
    obtain ⟨e, he, hnew⟩ := hcreated.mpr hopen
    obtain ⟨hmem, hname⟩ := (hentry e).mpr he
    rw [hclosed e hmem hname] at hnew
    exact Bool.noConfusion hnew
  · intro hshielded e hmem hname
    by_contra hnew
    exact hcreated.mp ⟨e, (hentry e).mp ⟨hmem, hname⟩, by simpa using hnew⟩ hshielded

def releaseJob : PromptJob where
  name := "release"
  prompt := ['s', 'h', 'i', 'p']
  intervalSeconds := 0
  runAtEpoch := some 3700
  name_present := by decide
  prompt_present := by decide +kernel
  interval_nonneg := le_refl 0
  run_positive := by decide +kernel
  images_valid := reviewJob.images_valid

def releaseCommand : AddJob where
  name := "release"
  prompt := ['s', 'h', 'i', 'p']
  schedule := .once
  delayMinutes := some 60
  name_valid := shipOnce.name_valid
  prompt_valid := shipOnce.prompt_valid
  interval_valid := shipOnce.interval_valid
  delay_valid := by decide +kernel
  cadence := shipOnce.cadence
  daily := shipOnce.daily

/-- A job that is sent in an hour, and an interval job that is paused. -/
def pausedScheduler : SchedulerState :=
  final (schedulerStep keyLib utcCalendar) SchedulerState.empty
    [.addJob releaseCommand (fun _ => true) 100, .addJob reviewCommand (fun _ => true) 100,
      .setJobPaused "review" true 110]

/-- The job that is sent in an hour waits for its time. -/
theorem unread_fails_closed_release :
    FailsClosed keyLib utcCalendar pausedScheduler { now := 200 } releaseJob.name := by
  have hjob : releaseJob ∈ tickJobs pausedScheduler { now := 200 } := by decide +kernel
  refine (unread_fails_closed keyLib utcCalendar pausedScheduler { now := 200 } releaseJob hjob).mpr
    fun _ => Shielded.early ?_
  decide +kernel

/-- The paused job is enqueued when the read of its state fails. -/
theorem paused_job_enqueued :
    ¬ FailsClosed keyLib utcCalendar pausedScheduler { now := 200 } "review" := by
  intro hclosed
  have hrefused : Refuses keyLib utcCalendar pausedScheduler { now := 200 } "review" := by
    unfold Refuses
    decide +kernel
  have hentries : (tick keyLib utcCalendar pausedScheduler
      (withRead { now := 200 } "review" true)).2.map (fun e => (e.job.name, e.created)) =
      [("review", true)] := by decide +kernel
  have hentry : ("review", true) ∈ (tick keyLib utcCalendar pausedScheduler
      (withRead { now := 200 } "review" true)).2.map (fun e => (e.job.name, e.created)) := by
    rw [hentries]
    exact List.mem_singleton_self _
  obtain ⟨e, he, hsame⟩ := List.mem_map.mp hentry
  obtain ⟨hname, hcreated⟩ := Prod.mk.inj hsame
  rw [hclosed hrefused e he hname] at hcreated
  exact Bool.noConfusion hcreated

end Prompta.UnreadableState
