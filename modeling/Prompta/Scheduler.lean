import Prompta.ManualQueue
import Prompta.SchedulerPolicy
import Prompta.Service

/-!
The scheduler: job definitions, the saved state of each job and the delivery queue. A
tick takes the final receipts into the job states, gives new jobs their first due time
and enqueues every job that is due. The definitions change between ticks only, by the
commands of the job page.
-/
namespace Prompta.Scheduler

open Tables Texts DisplayBlocks Schema DeliveryQueue ManualQueue Service Jobs SchedulerPolicy
  Roundings

structure StateRow where
  name : String
  state : JobState
  deriving DecidableEq

abbrev StateTable := Table StateRow String StateRow.name

def jobState (states : StateTable) (name : String) : JobState :=
  ((states.lookup name).map StateRow.state).getD {}

def updateJobState (states : StateTable) (name : String) (f : JobState → JobState) : StateTable :=
  (states.insertNew ⟨name, {}⟩).updateAt name (fun _ => true)
    (fun row => { row with state := f row.state }) (fun _ => id rfl)

def clearJobState (states : StateTable) (name : String) : StateTable where
  rows := states.rows.filter fun row => decide (row.name ≠ name)
  nodup := states.nodup.sublist (List.filter_sublist.map StateRow.name)

structure SchedulerState where
  store : Store
  jobs : JobTable
  states : StateTable

def SchedulerState.empty : SchedulerState := ⟨Store.empty, Table.empty, Table.empty⟩

/-- What a tick reads of its surroundings: the clock, which reads of a job's state fail,
whether the states can be read together and the definitions at all, which groups another
process has locked, and the random numbers of the jitter. -/
structure Tick where
  now : Time
  unread : String → Bool := fun _ => false
  loads : Bool := true
  lists : Bool := true
  locked : String → Bool := fun _ => false
  initialNoise : String → ℚ := fun _ => 0
  recurringNoise : String → ℚ := fun _ => 0

/-- A read that fails gives the empty state. -/
def readState (s : SchedulerState) (input : Tick) (name : String) : JobState :=
  if input.unread name then {} else jobState s.states name

def pendingReceipt (s : SchedulerState) (state : JobState) : Option Delivery :=
  if state.lastDeliverySendId = "" then none
  else (s.store.queue.lookup state.lastDeliverySendId).filter fun d => d.status.isPending

/-- Another job of the group has a pending delivery. -/
def mutexGroupBusy (s : SchedulerState) (input : Tick) (job : PromptJob)
    (jobs : List PromptJob) : Bool :=
  decide (job.mutexGroup ≠ "") && jobs.any fun other =>
    decide (other.name ≠ job.name) && decide (other.mutexGroup = job.mutexGroup) &&
      (pendingReceipt s (readState s input other.name)).isSome

def externalMutexGroupBusy (input : Tick) (job : PromptJob) : Bool :=
  decide (job.mutexGroup ≠ "") && input.locked job.mutexGroup

/-- The checks of `enqueue_if_due` before it enqueues. -/
def allowsEnqueue [Rounding] (cal : Calendar) (s : SchedulerState) (input : Tick) (job : PromptJob)
    (jobs : List PromptJob) : Bool :=
  let state := readState s input job.name
  !(mutexGroupBusy s input job jobs || externalMutexGroupBusy input job) &&
    shouldEnqueueJob cal job state input.now (pendingReceipt s state).isSome

def scheduledSendId (key : String) : String := "scheduled-" ++ key

def scheduledRecord (job : PromptJob) (key : String) : DeliveryRecord :=
  { sendId := scheduledSendId key, message := job.prompt,
    clientId := "scheduled:" ++ key ++ ":" ++ job.name, images := job.images,
    oneTime := job.runAtEpoch.isSome, pinChat := job.pinChat }

def recordPendingMetadata (lib : Stdlib) (s : SchedulerState) (job : PromptJob) (receipt : Delivery)
    (key : String) (now : Time) : SchedulerState :=
  { s with
    states := updateJobState s.states job.name
      (pendingDeliveryUpdates lib job receipt.sendId key
        (if receipt.createdAt = 0 then now else receipt.createdAt)) }

/-- A one-time job is removed once it is enqueued. -/
def removeOneTime (s : SchedulerState) (job : PromptJob) : SchedulerState :=
  if job.runAtEpoch.isSome then { s with jobs := removeJob s.jobs job.name } else s

/-- A job that a tick has enqueued. A delivery of the same key may exist already. -/
structure Enqueued where
  job : PromptJob
  sendId : String
  created : Bool

/-- Enqueue the job if it is due. An enqueue that raises ends the tick; it cannot, since
a definition has a prompt and valid attachments. -/
def enqueueIfDue [Rounding] (lib : Stdlib) (cal : Calendar) (s : SchedulerState) (input : Tick)
    (job : PromptJob) (jobs : List PromptJob) : SchedulerState × Option Enqueued :=
  if !allowsEnqueue cal s input job jobs then (s, none)
  else
    let key := occurrenceKey lib job (readState s input job.name)
    match enqueueIdempotent s.store (scheduledRecord job key) true input.now with
    | (store, .error _) => ({ s with store := store }, none)
    | (store, .ok (receipt, created)) =>
      (removeOneTime (recordPendingMetadata lib { s with store := store } job receipt key input.now)
        job, some ⟨job, receipt.sendId, created⟩)

def advanceAfterTerminal [Rounding] (cal : Calendar) (input : Tick) (name : String)
    (state : JobState) (receipt : Delivery) : JobState :=
  let jitter :=
    if state.pendingDeliveryOneTime = false ∧ state.pendingDeliveryDailyAt = none then
      recurringJitterCap state.pendingDeliveryIntervalSeconds state.pendingDeliveryExactInterval *
        input.recurringNoise name
    else 0
  terminalReconciliationUpdates cal state receipt input.now jitter

def reconcileState [Rounding] (cal : Calendar) (queue : Deliveries) (input : Tick)
    (row : StateRow) : StateRow :=
  if row.state.lastDeliverySendId = "" then row
  else
    match (queue.lookup row.state.lastDeliverySendId).filter fun d => d.status.isTerminal with
    | none => row
    | some receipt =>
      { row with state := advanceAfterTerminal cal input row.name row.state receipt }

theorem reconcileState_name [Rounding] (cal : Calendar) (queue : Deliveries) (input : Tick)
    (row : StateRow) : (reconcileState cal queue input row).name = row.name := by
  unfold reconcileState
  split
  · rfl
  split <;> rfl

def reconcileTerminalReceipts [Rounding] (cal : Calendar) (s : SchedulerState) (input : Tick) :
    SchedulerState :=
  if !input.loads then s
  else
    { s with
      states := s.states.update (fun _ => true) (reconcileState cal s.store.queue input)
        (reconcileState_name cal s.store.queue input) }

/-- One-shot deliveries that an older release has queued without their priority. -/
def restorePendingOncePriorities (s : SchedulerState) (input : Tick) : SchedulerState :=
  if !input.loads then s
  else
    { s with
      store := s.states.rows.foldl (fun store row =>
        if row.state.pendingDeliveryOneTime &&
            decide (row.state.lastDeliverySendId ≠ row.state.lastCompletedDeliverySendId) &&
            decide (row.state.lastDeliverySendId ≠ "") then
          (promoteOneTime store row.state.lastDeliverySendId).1
        else store) s.store }

def ensureInitialSchedule [Rounding] (cal : Calendar) (input : Tick) (s : SchedulerState)
    (job : PromptJob) : SchedulerState :=
  match initialDueAt cal job (readState s input job.name) input.now
      (initialJitterWindow job * input.initialNoise job.name) with
  | none => s
  | some dueAt =>
    { s with states := updateJobState s.states job.name fun state =>
        { state with initialDueAtEpoch := dueAt } }

def ensureInitialSchedules [Rounding] (cal : Calendar) (s : SchedulerState) (input : Tick)
    (jobs : List PromptJob) :
    SchedulerState :=
  jobs.foldl (ensureInitialSchedule cal input) s

/-- Enqueue the jobs of a list that are due, in its order. -/
def enqueueDue [Rounding] (lib : Stdlib) (cal : Calendar) (input : Tick) (jobs : List PromptJob) :
    SchedulerState → List PromptJob → SchedulerState × List Enqueued
  | s, [] => (s, [])
  | s, job :: rest =>
    let first := enqueueIfDue lib cal s input job jobs
    let later := enqueueDue lib cal input jobs first.1 rest
    (later.1, first.2.toList ++ later.2)

def tickJobs (s : SchedulerState) (input : Tick) : List PromptJob :=
  if input.lists then loadJobs s.jobs else []

def prepareTick [Rounding] (cal : Calendar) (s : SchedulerState) (input : Tick) : SchedulerState :=
  let restored := restorePendingOncePriorities s input
  let reconciled := reconcileTerminalReceipts cal restored input
  ensureInitialSchedules cal reconciled input (tickJobs s input)

def tick [Rounding] (lib : Stdlib) (cal : Calendar) (s : SchedulerState) (input : Tick) :
    SchedulerState × List Enqueued :=
  enqueueDue lib cal input (tickJobs s input) (prepareTick cal s input) (tickJobs s input)

inductive Schedule
  | once
  | interval
  | daily
  deriving DecidableEq, Repr

/-- The command that adds a job or edits the one of its name. A field that the request
leaves out is `none`. -/
structure AddJob where
  name : String
  prompt : Text
  schedule : Schedule := .interval
  images : Option (List String) := none
  mutexGroup : Option String := none
  pinChat : Option Bool := none
  dailyAt : Option DailyAt := none
  intervalMinutes : Option ℚ := none
  delayMinutes : Option ℚ := none
  exactInterval : Bool := false
  name_valid : stripName name = name
  prompt_valid : strip prompt = prompt
  interval_valid : ∀ m ∈ intervalMinutes, 1 / 10 ≤ m
  delay_valid : ∀ m ∈ delayMinutes, 0 ≤ m
  cadence : schedule ≠ .once → dailyAt = none → intervalMinutes.isSome = true
  daily : schedule = .daily → dailyAt.isSome = true

/-- The cadence that a command asks for. -/
structure Cadence where
  intervalSeconds : Time
  dailyAt : Option DailyAt
  exactInterval : Bool
  runAtEpoch : Option Time
  deriving DecidableEq

def jobCadence (job : PromptJob) : Cadence :=
  ⟨job.intervalSeconds, job.dailyAt, job.exactInterval, job.runAtEpoch⟩

def commandCadence [Rounding] (command : AddJob) (existing : Option PromptJob) (now : Time) :
    Cadence :=
  if command.schedule = .once then
    let runAt :=
      match command.delayMinutes with
      | some delay => Rounding.round (now + Rounding.round (delay * 60))
      | none => (existing.bind PromptJob.runAtEpoch).getD now
    ⟨0, none, false, some runAt⟩
  else
    match command.dailyAt with
    | some dailyAt => ⟨0, some dailyAt, false, none⟩
    | none =>
      ⟨Rounding.round (command.intervalMinutes.getD 0 * 60), none, command.exactInterval, none⟩

def commandPin (command : AddJob) (existing : Option PromptJob) : Bool :=
  if command.schedule = .once then
    match command.pinChat with
    | some pin => pin
    | none => (existing.map PromptJob.pinChat).getD false
  else false

def commandJob [Rounding] (command : AddJob) (existing : Option PromptJob) (now : Time) :
    Except JobError PromptJob :=
  let cadence := commandCadence command existing now
  normaliseJobDefinition command.name command.prompt cadence.intervalSeconds cadence.dailyAt
    cadence.exactInterval cadence.runAtEpoch
    (match command.mutexGroup with
      | some group => stripName group
      | none => (existing.map PromptJob.mutexGroup).getD "")
    (command.images.getD ((existing.map PromptJob.images).getD []))
    (commandPin command existing)

/-- A cadence edit forgets the due times and keeps the history of the dispatches. -/
def resetDue (state : JobState) : JobState :=
  { state with nextDueAtEpoch := 0, initialDueAtEpoch := 0 }

/-- Add or edit a job. `available` says which attachments the host still has. -/
def addJob [Rounding] (s : SchedulerState) (command : AddJob) (available : String → Bool)
    (now : Time) : SchedulerState :=
  let existing := s.jobs.lookup command.name
  if !(command.images.getD ((existing.map PromptJob.images).getD [])).all available then s
  else
    match commandJob command existing now with
    | .error _ => s
    | .ok job =>
      { s with
        jobs := saveJob s.jobs job
        states :=
          match existing with
          | none => clearJobState s.states command.name
          | some old =>
            if jobCadence old ≠ commandCadence command existing now then
              updateJobState s.states command.name resetDue
            else s.states }

/-- A manual fire sends the prompt at once, restarts the interval of an interval job and
withdraws its scheduled delivery when that still waits. -/
def fireJobNow [Rounding] (lib : Stdlib) (s : SchedulerState) (job : PromptJob) (requestId : String)
    (now : Time) :
    SchedulerState :=
  match enqueueManual lib s.store ⟨requestId, job.prompt, job.images, job.pinChat,
    false⟩ true now with
  | (store, .error _) => { s with store := store }
  | (store, .ok _) =>
    if 0 < job.intervalSeconds ∧ job.dailyAt = none ∧ job.runAtEpoch = none then
      let state := jobState s.states job.name
      let sendId := state.lastDeliverySendId
      let cancelled :=
        if sendId = "" then (store, false)
        else cancelPending store sendId "superseded by manual fire" true now
      let fired := fun state : JobState =>
        { state with initialDueAtEpoch := 0,
                     nextDueAtEpoch := Rounding.round (now + job.intervalSeconds),
                     lastManualFireAtEpoch := now }
      let superseded := fun state : JobState =>
        if cancelled.2 then
          { fired state with lastCompletedDeliverySendId := sendId, status := .pending,
                             statusMessage := "" }
        else fired state
      { s with store := cancelled.1, states := updateJobState s.states job.name superseded }
    else { s with store := store }

/-- `fire_now`: a request that was answered before is not fired again. -/
def fireNow [Rounding] (lib : Stdlib) (s : SchedulerState) (name requestId : String) (now : Time) :
    SchedulerState :=
  match s.jobs.lookup name with
  | none => s
  | some job =>
    match s.store.queue.lookup (manualSendId requestId) with
    | some _ => s
    | none => fireJobNow lib s job requestId now

def setJobPaused (s : SchedulerState) (name : String) (paused : Bool) : SchedulerState :=
  if s.jobs.lookup name = none then s
  else { s with states := updateJobState s.states name fun state =>
    { state with paused := paused } }

def enqueues (call : Call) : Bool :=
  match call.action with
  | .queue (.enqueue _ _) => true
  | _ => false

/-- Everything that reaches the scheduler's tables. Deliveries are enqueued by ticks and
by hand only. -/
inductive SchedulerCall
  | tick (input : Tick)
  | service (call : Call) (hcall : enqueues call = false)
  | manual (request : ManualRequest) (answers : Bool) (now : Time)
  | addJob (command : AddJob) (available : String → Bool) (now : Time)
  | fireNow (name requestId : String) (now : Time)
  | setJobPaused (name : String) (paused : Bool) (now : Time)

def SchedulerCall.now : SchedulerCall → Time
  | .tick input => input.now
  | .service call _ => call.now
  | .manual _ _ now => now
  | .addJob _ _ now => now
  | .fireNow _ _ now => now
  | .setJobPaused _ _ now => now

def schedulerStep [Rounding] (lib : Stdlib) (cal : Calendar) (s : SchedulerState) :
    SchedulerCall → SchedulerState × List Enqueued
  | .tick input => tick lib cal s input
  | .service call _ => ({ s with store := (step lib s.store call).1 }, [])
  | .manual request answers now =>
    ({ s with store := (enqueueManual lib s.store request answers now).1 }, [])
  | .addJob command available now => (addJob s command available now, [])
  | .fireNow name requestId now => (fireNow lib s name requestId now, [])
  | .setJobPaused name paused _ => (setJobPaused s name paused, [])

end Prompta.Scheduler
