import Mathlib.Data.List.Sort
import Mathlib.Data.Rat.Floor
import Prompta.DeliveryQueue

/-!
Job definitions. A job is sent once at a time, daily at a time of the local clock, or
at an interval. The local clock belongs to the host; a calendar says what it makes of
an epoch.
-/
namespace Prompta.Jobs

open Tables Texts DeliveryQueue

/-- The normalised `HH:MM` of a daily job. -/
structure DailyAt where
  hour : Fin 24
  minute : Fin 60
  deriving DecidableEq, Repr

/-- The local clock: the epoch of a time of day on the day of an epoch, and the epoch
that shows the same time one day later. -/
structure Calendar where
  atTime : DailyAt → Time → Time
  nextDay : Time → Time

def nextDailyEpoch (cal : Calendar) (dailyAt : DailyAt) (now : Time) (includeNow : Bool) : Time :=
  let candidate := cal.atTime dailyAt now
  if candidate < now ∨ (candidate = now ∧ includeNow = false) then cal.nextDay candidate
  else candidate

def utcCalendar : Calendar where
  atTime dailyAt t := (⌊t / 86400⌋ : ℤ) * 86400 + dailyAt.hour * 3600 + dailyAt.minute * 60
  nextDay t := t + 86400

/-- A normalised definition, as `normalise_job_definition` leaves it. -/
structure PromptJob where
  name : String
  prompt : Text
  intervalSeconds : Time
  dailyAt : Option DailyAt := none
  exactInterval : Bool := false
  runAtEpoch : Option Time := none
  mutexGroup : String := ""
  images : List String := []
  pinChat : Bool := false
  name_present : name ≠ ""
  prompt_present : strip prompt ≠ []
  interval_nonneg : 0 ≤ intervalSeconds
  run_positive : ∀ t ∈ runAtEpoch, 0 < t
  images_valid : imageRefs images = .ok images
  deriving DecidableEq

inductive JobError
  | emptyName
  | emptyPrompt
  | runAtEpoch
  | images (error : QueueError)
  deriving DecidableEq, Repr

def JobError.message : JobError → String
  | .emptyName => "prompta job name is empty"
  | .emptyPrompt => "prompta prompt is empty"
  | .runAtEpoch => "run_at_epoch must be a positive Unix timestamp"
  | .images error => error.message

def stripName (name : String) : String := String.ofList (strip name.toList)

/-- The pin is kept for a one-time job only. -/
def normaliseJobDefinition (name : String) (prompt : Text) (intervalSeconds : Time)
    (dailyAt : Option DailyAt) (exactInterval : Bool) (runAtEpoch : Option Time)
    (mutexGroup : String) (images : List String) (pinChat : Bool) : Except JobError PromptJob :=
  if hname : stripName name = "" then .error .emptyName
  else if hprompt : strip prompt = [] then .error .emptyPrompt
  else if hrun : ¬ ∀ t ∈ runAtEpoch, 0 < t then .error .runAtEpoch
  else
    match himages : imageRefs images with
    | .error e => .error (.images e)
    | .ok refs =>
      .ok
        { name := stripName name, prompt := prompt, intervalSeconds := max 0 intervalSeconds
          dailyAt := dailyAt, exactInterval := exactInterval, runAtEpoch := runAtEpoch
          mutexGroup := stripName mutexGroup, images := images
          pinChat := pinChat && runAtEpoch.isSome
          name_present := hname
          prompt_present := hprompt
          interval_nonneg := le_max_left 0 intervalSeconds
          run_positive := not_not.mp hrun
          images_valid := by rw [himages, imageRefs_ok himages] }

abbrev JobTable := Table PromptJob String PromptJob.name

/-- `load_jobs`, in the order of the names. -/
def loadJobs (jobs : JobTable) : List PromptJob :=
  jobs.rows.insertionSort fun a b => a.name ≤ b.name

def saveJob (jobs : JobTable) (job : PromptJob) : JobTable where
  rows := (jobs.insertNew job).rows.map fun row => if row.name = job.name then job else row
  nodup := by
    have hkeys : ((jobs.insertNew job).rows.map fun row =>
        if row.name = job.name then job else row).map PromptJob.name =
        (jobs.insertNew job).rows.map PromptJob.name := by
      rw [List.map_map]
      apply List.map_congr_left
      intro row _
      by_cases h : row.name = job.name <;> simp [h]
    rw [hkeys]
    exact (jobs.insertNew job).nodup

def removeJob (jobs : JobTable) (name : String) : JobTable where
  rows := jobs.rows.filter fun row => decide (row.name ≠ name)
  nodup := jobs.nodup.sublist (List.filter_sublist.map PromptJob.name)

end Prompta.Jobs
