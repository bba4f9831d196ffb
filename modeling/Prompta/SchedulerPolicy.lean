import Prompta.Jobs
import Prompta.Roundings

/-!
When a job is due, under which key its next occurrence is sent, and how its saved state
follows a receipt. The state of a job holds what was written for it; a missing field
reads as zero, as the empty text or as false. The sums of times are those of the host's
arithmetic; a difference is only compared with zero, and rounding keeps its sign.
-/
namespace Prompta.SchedulerPolicy

open Texts DisplayBlocks Schema Decimals Jobs Roundings

/-- The texts written to the `status` of a job. -/
inductive JobStatus
  | unset
  | pending
  | queued
  | healthy
  | failing
  deriving DecidableEq, Repr

structure JobState where
  paused : Bool := false
  lastSentAt : Time := 0
  lastUncertainSendAt : Time := 0
  lastEnqueuedAt : Time := 0
  initialDueAtEpoch : Time := 0
  nextDueAtEpoch : Time := 0
  lastManualFireAtEpoch : Time := 0
  lastDeliverySendId : String := ""
  lastDeliveryIdempotencyKey : String := ""
  lastCompletedDeliverySendId : String := ""
  pendingDeliveryPromptSha256 : String := ""
  pendingDeliveryIntervalSeconds : Time := 0
  pendingDeliveryDailyAt : Option DailyAt := none
  pendingDeliveryExactInterval : Bool := false
  pendingDeliveryOneTime : Bool := false
  promptSha256 : String := ""
  failureRetryUntilEpoch : Time := 0
  status : JobStatus := .unset
  statusMessage : String := ""
  statusAt : Time := 0
  deriving DecidableEq

def initialDelayCapSeconds : Time := 30 * 60

def recurringJitterFraction : Time := 1 / 5

def recurringJitterCapSeconds : Time := 5 * 60

def initialJitterWindow (job : PromptJob) : Time :=
  min (max 0 job.intervalSeconds) initialDelayCapSeconds

def hasMarker (state : JobState) : Bool :=
  decide (state.lastSentAt ≠ 0) || decide (state.lastUncertainSendAt ≠ 0) ||
    decide (state.lastEnqueuedAt ≠ 0) || decide (state.initialDueAtEpoch ≠ 0) ||
    decide (state.nextDueAtEpoch ≠ 0)

def initialDueAt [Rounding] (cal : Calendar) (job : PromptJob) (state : JobState)
    (now jitterSeconds : Time) : Option Time :=
  if hasMarker state then none
  else
    match job.runAtEpoch, job.dailyAt with
    | some runAt, _ => some runAt
    | none, some dailyAt => some (nextDailyEpoch cal dailyAt now true)
    | none, none => some (Rounding.round (now + max 0 jitterSeconds))

def recurringJitterCap (intervalSeconds : Time) (exactInterval : Bool) : Time :=
  if exactInterval then 0
  else min recurringJitterCapSeconds (max 0 intervalSeconds * recurringJitterFraction)

def recurringDelay [Rounding] (intervalSeconds : Time) (exactInterval : Bool)
    (jitterSeconds : Time) : Time :=
  if exactInterval then max 0 intervalSeconds
  else Rounding.round (max 0 intervalSeconds + max 0 jitterSeconds)

def nextDueAt [Rounding] (cal : Calendar) (completedAt : Time) (oneTime : Bool)
    (dailyAt : Option DailyAt) (intervalSeconds : Time) (exactInterval : Bool)
    (jitterSeconds : Time) : Time :=
  if oneTime then 0
  else
    match dailyAt with
    | some dailyAt => nextDailyEpoch cal dailyAt completedAt false
    | none =>
      Rounding.round (completedAt + recurringDelay intervalSeconds exactInterval jitterSeconds)

def lastAttemptAt (state : JobState) : Time := max state.lastSentAt state.lastUncertainSendAt

def intervalFloor [Rounding] (job : PromptJob) (state : JobState) : Time :=
  let latestDispatch :=
    max (max (lastAttemptAt state) state.lastEnqueuedAt) state.lastManualFireAtEpoch
  if 0 < latestDispatch ∧ job.runAtEpoch = none ∧ job.dailyAt = none then
    Rounding.round (latestDispatch + max 0 job.intervalSeconds)
  else 0

/-- The seconds until the job is due, nothing for a job that will not be due again. -/
def dueIn [Rounding] (cal : Calendar) (job : PromptJob) (state : JobState) (now : Time) :
    Option Time :=
  match job.runAtEpoch with
  | some runAt =>
    if 0 < lastAttemptAt state then none
    else
      some (max 0 ((if 0 < state.initialDueAtEpoch then state.initialDueAtEpoch else runAt) - now))
  | none =>
    let floorIn := intervalFloor job state - now
    if 0 < state.nextDueAtEpoch ∧ state.lastUncertainSendAt ≤ state.lastSentAt then
      some (max (max 0 (state.nextDueAtEpoch - now)) floorIn)
    else if 0 < lastAttemptAt state then
      match job.dailyAt with
      | some dailyAt =>
        some (max 0 (nextDailyEpoch cal dailyAt (lastAttemptAt state) false - now))
      | none => some (max 0 floorIn)
    else if 0 < state.initialDueAtEpoch then
      some (max (max 0 (state.initialDueAtEpoch - now)) floorIn)
    else some (max 0 floorIn)

def occurrenceMarker (job : PromptJob) (state : JobState) : Time :=
  match job.runAtEpoch with
  | some runAt => runAt
  | none =>
    if state.lastSentAt < state.lastUncertainSendAt then max 0 state.lastUncertainSendAt
    else if 0 < state.nextDueAtEpoch then state.nextDueAtEpoch
    else if 0 < state.initialDueAtEpoch then state.initialDueAtEpoch
    else max 0 state.lastSentAt

/-- The text that is hashed for an occurrence: name, prompt digest and marker. -/
def occurrenceText (name promptHash : String) (marker : Time) : Text :=
  name.toList ++ '\x00' :: (promptHash.toList ++ '\x00' :: fixedText (millionths marker))

def occurrenceKey (lib : Stdlib) (job : PromptJob) (state : JobState) : String :=
  lib.sha256 (occurrenceText job.name (lib.sha256 job.prompt) (occurrenceMarker job state))

/-- `due_in(..) <= 0` -/
def isDue [Rounding] (cal : Calendar) (job : PromptJob) (state : JobState) (now : Time) : Bool :=
  match dueIn cal job state now with
  | some seconds => decide (seconds ≤ 0)
  | none => false

def shouldEnqueueJob [Rounding] (cal : Calendar) (job : PromptJob) (state : JobState)
    (now : Time) (pendingDelivery : Bool) : Bool :=
  !state.paused && isDue cal job state now && !pendingDelivery

def pendingDeliveryUpdates (lib : Stdlib) (job : PromptJob) (sendId idempotencyKey : String)
    (queuedAt : Time) (state : JobState) : JobState :=
  { state with
    lastEnqueuedAt := queuedAt
    lastDeliverySendId := sendId
    lastDeliveryIdempotencyKey := idempotencyKey
    pendingDeliveryPromptSha256 := lib.sha256 job.prompt
    pendingDeliveryIntervalSeconds := job.intervalSeconds
    pendingDeliveryDailyAt := job.dailyAt
    pendingDeliveryExactInterval := job.exactInterval
    pendingDeliveryOneTime := job.runAtEpoch.isSome
    status := .queued
    statusMessage := ""
    statusAt := queuedAt }

/-- `finished_at or updated_at or created_at`, else the clock. -/
def completedAt (receipt : Delivery) (fallback : Time) : Time :=
  if receipt.finishedAt ≠ 0 then receipt.finishedAt
  else if receipt.updatedAt ≠ 0 then receipt.updatedAt
  else if receipt.createdAt ≠ 0 then receipt.createdAt
  else fallback

/-- `last_error or error or status` -/
def failureMessage (receipt : Delivery) : String :=
  if receipt.lastError ≠ "" then receipt.lastError
  else if receipt.error ≠ "" then receipt.error
  else receipt.status.value

/-- The next due time after a receipt. A later manual fire restarts the interval. -/
def scheduledDue [Rounding] (cal : Calendar) (state : JobState)
    (completed jitterSeconds : Time) : Time :=
  let due := nextDueAt cal completed state.pendingDeliveryOneTime state.pendingDeliveryDailyAt
    state.pendingDeliveryIntervalSeconds state.pendingDeliveryExactInterval jitterSeconds
  if state.pendingDeliveryOneTime = false ∧ state.pendingDeliveryDailyAt = none ∧
      0 < state.lastManualFireAtEpoch then
    max due
      (Rounding.round (state.lastManualFireAtEpoch + state.pendingDeliveryIntervalSeconds))
  else due

/-- `terminal_reconciliation_updates`. A receipt is taken into the state once. -/
def terminalReconciliationUpdates [Rounding] (cal : Calendar) (state : JobState)
    (receipt : Delivery) (fallback jitterSeconds : Time) : JobState :=
  if receipt.sendId = "" ∨ state.lastCompletedDeliverySendId = receipt.sendId then state
  else
    let completed := completedAt receipt fallback
    let advanced :=
      { state with
        initialDueAtEpoch := 0
        nextDueAtEpoch := scheduledDue cal state completed jitterSeconds
        lastCompletedDeliverySendId := receipt.sendId
        statusAt := completed }
    if receipt.status = .succeeded then
      { advanced with
        promptSha256 := state.pendingDeliveryPromptSha256
        lastSentAt := completed
        lastUncertainSendAt := 0
        failureRetryUntilEpoch := 0
        status := .healthy
        statusMessage := "" }
    else { advanced with status := .failing, statusMessage := failureMessage receipt }

end Prompta.SchedulerPolicy
