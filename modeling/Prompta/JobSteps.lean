import Mathlib.Logic.Relation
import Prompta.SchedulerSteps

/-!
The scheduler as one job sees it: the stores, its definition and its saved state. A call
is a sequence of steps of the job, each of one kind, with the guard that it has passed.
The results on single jobs split on these steps and never look into the tick again.
-/
namespace Prompta.JobSteps

open Relation Runs Tables Texts DisplayBlocks Schema ResponseStore DeliveryQueue ManualQueue Service
  Jobs SchedulerPolicy Scheduler FreshChats Roundings

/-- The last field is a record of the times at which its deliveries were created. -/
structure JobView where
  store : Store
  job : Option PromptJob
  state : JobState
  made : List Time

def view (s : SchedulerState) (made : List Time) (name : String) : JobView :=
  ⟨s.store, s.jobs.lookup name, jobState s.states name, made⟩

def createdFor (name : String) (now : Time) (entries : List Enqueued) : List Time :=
  (entries.filter fun e => e.created && decide (e.job.name = name)).map fun _ => now

/-- The scheduler together with the creation times of every job. -/
structure History where
  scheduler : SchedulerState
  made : String → List Time

def History.empty : History := ⟨SchedulerState.empty, fun _ => []⟩

def historyStep [Rounding] (lib : Stdlib) (cal : Calendar) (h : History) (call : SchedulerCall) :
    History × List Enqueued :=
  let outcome := schedulerStep lib cal h.scheduler call
  (⟨outcome.1, fun name => h.made name ++ createdFor name call.now outcome.2⟩, outcome.2)

def History.view (h : History) (name : String) : JobView :=
  JobSteps.view h.scheduler (h.made name) name

def seen (input : Tick) (name : String) (v : JobView) : JobState :=
  if input.unread name then {} else v.state

def pendingIn (queue : Deliveries) (state : JobState) : Option Delivery :=
  if state.lastDeliverySendId = "" then none
  else (queue.lookup state.lastDeliverySendId).filter fun d => d.status.isPending

/-- What a call does to the stores beside the enqueue of the job itself. -/
inductive StoreStep (lib : Stdlib) (name : String) (call : SchedulerCall) (s : Store) : Store → Prop
  | service (c : Call) (hc : enqueues c = false) (hcall : call = .service c hc) :
      StoreStep lib name call s (step lib s c).1
  | manual (request : ManualRequest) (answers : Bool)
      (hcall : call = .manual request answers call.now ∨
        ∃ fired, call = .fireNow fired request.requestId call.now) :
      StoreStep lib name call s (enqueueManual lib s request answers call.now).1
  | promoted (input : Tick) (sendId : String) (hcall : call = .tick input) :
      StoreStep lib name call s (promoteOneTime s sendId).1
  | withdrawn (fired requestId sendId : String) (now : Time)
      (hcall : call = .fireNow fired requestId now) :
      StoreStep lib name call s
        (cancelPending s sendId "superseded by manual fire" true now).1
  | scheduled (input : Tick) (job : PromptJob) (state : JobState) (hcall : call = .tick input)
      (hname : job.name ≠ name) :
      StoreStep lib name call s
        (enqueueIdempotent s (scheduledRecord job (occurrenceKey lib job state)) true input.now).1

/-- The checks that a job passes before it is enqueued. -/
structure DueNow [Rounding] (cal : Calendar) (input : Tick) (name : String) (v : JobView)
    (job : PromptJob) : Prop where
  defined : v.job = some job
  unpaused : (seen input name v).paused = false
  due : isDue cal job (seen input name v) input.now = true
  settled : pendingIn v.store.queue (seen input name v) = none

def afterEnqueue (job : PromptJob) : Option PromptJob :=
  if job.runAtEpoch.isSome then none else some job

def manualFire [Rounding] (job : PromptJob) (now : Time) (state : JobState) : JobState :=
  { state with initialDueAtEpoch := 0,
               nextDueAtEpoch := Rounding.round (now + job.intervalSeconds),
               lastManualFireAtEpoch := now }

/-- The scheduled delivery is withdrawn for the manual one. -/
def supersede (state : JobState) : JobState :=
  { state with lastCompletedDeliverySendId := state.lastDeliverySendId, status := .pending,
               statusMessage := "" }

/-- The steps of a call that starts in the given state. -/
inductive JobStep [Rounding] (lib : Stdlib) (cal : Calendar) (name : String)
    (start : SchedulerState) (call : SchedulerCall) (v : JobView) : JobView → Prop
  | stored (store : Store) (h : StoreStep lib name call v.store store)
      (hv : ∀ c hc, call = .service c hc → v = view start v.made name) :
      JobStep lib cal name start call v { v with store := store }
  | reconciled (input : Tick) (hcall : call = .tick input) (hloads : input.loads = true)
      (hv : v = view (restorePendingOncePriorities start input) v.made name) :
      JobStep lib cal name start call v
        { v with state := (reconcileState cal v.store.queue input ⟨name, v.state⟩).state }
  | initial (input : Tick) (job : PromptJob) (dueAt : Time) (hcall : call = .tick input)
      (hjob : v.job = some job)
      (hdue : initialDueAt cal job (seen input name v) input.now
        (initialJitterWindow job * input.initialNoise name) = some dueAt) :
      JobStep lib cal name start call v
        { v with state := { v.state with initialDueAtEpoch := dueAt } }
  | found (input : Tick) (job : PromptJob) (d : Delivery) (c : Chats) (hcall : call = .tick input)
      (hjob : job ∈ tickJobs start input)
      (hv : v = view (turn lib cal start input name) v.made name)
      (hallows : allowsEnqueue cal (turn lib cal start input name) input job
        (tickJobs start input) = true)
      (hdue : DueNow cal input name v job)
      (hd : existingDelivery v.store.queue
        (scheduledRecord job (occurrenceKey lib job (seen input name v))) = some d)
      (hstore : (enqueueIdempotent v.store (scheduledRecord job
        (occurrenceKey lib job (seen input name v))) true input.now).1 =
        { v.store with chats := c }) :
      JobStep lib cal name start call v
        ⟨{ v.store with chats := c }, afterEnqueue job,
          pendingDeliveryUpdates lib job d.sendId (occurrenceKey lib job (seen input name v))
            (if d.createdAt = 0 then input.now else d.createdAt) v.state, v.made⟩
  | created (input : Tick) (job : PromptJob) (d : Delivery) (c : Chats) (hcall : call = .tick input)
      (hjob : job ∈ tickJobs start input)
      (hv : v = view (turn lib cal start input name) v.made name)
      (hallows : allowsEnqueue cal (turn lib cal start input name) input job
        (tickJobs start input) = true)
      (hdue : DueNow cal input name v job)
      (hnone : existingDelivery v.store.queue
        (scheduledRecord job (occurrenceKey lib job (seen input name v))) = none)
      (hd : d = queuedDelivery v.store.queue
        (scheduledRecord job (occurrenceKey lib job (seen input name v))) input.now)
      (hstore : (enqueueIdempotent v.store (scheduledRecord job
        (occurrenceKey lib job (seen input name v))) true input.now).1 =
          ⟨v.store.queue.insertNew d, c⟩) :
      JobStep lib cal name start call v
        ⟨⟨v.store.queue.insertNew d, c⟩, afterEnqueue job,
          pendingDeliveryUpdates lib job d.sendId (occurrenceKey lib job (seen input name v))
            input.now v.state, v.made ++ [input.now]⟩
  | defined (command : AddJob) (available : String → Bool) (now : Time) (job : PromptJob)
      (hcall : call = .addJob command available now)
      (hv : v = view start v.made name) (hnone : v.job = none)
      (hcommand : commandJob command none now = .ok job) (hname : job.name = name) :
      JobStep lib cal name start call v ⟨v.store, some job, {}, v.made⟩
  | edited (command : AddJob) (available : String → Bool) (now : Time) (old job : PromptJob)
      (hcall : call = .addJob command available now)
      (hv : v = view start v.made name) (hold : v.job = some old)
      (hcommand : commandJob command (some old) now = .ok job) (hname : job.name = name) :
      JobStep lib cal name start call v
        ⟨v.store, some job,
          if jobCadence old ≠ commandCadence command (some old) now then resetDue v.state
          else v.state, v.made⟩
  | fired (requestId : String) (now : Time) (job : PromptJob)
      (hcall : call = .fireNow name requestId now)
      (hjob : v.job = some job)
      (hinterval : 0 < job.intervalSeconds ∧ job.dailyAt = none ∧ job.runAtEpoch = none) :
      JobStep lib cal name start call v { v with state := manualFire job now v.state }
  | superseded (requestId : String) (now : Time) (job : PromptJob) (d : Delivery)
      (hcall : call = .fireNow name requestId now) (hjob : v.job = some job)
      (hinterval : 0 < job.intervalSeconds ∧ job.dailyAt = none ∧ job.runAtEpoch = none)
      (hd : v.store.queue.lookup v.state.lastDeliverySendId = some d)
      (hcancelled : d.status = .cancelled) :
      JobStep lib cal name start call v { v with state := supersede (manualFire job now v.state) }
  | paused (flag : Bool) (now : Time) (hcall : call = .setJobPaused name flag now)
      (hjob : v.job ≠ none) :
      JobStep lib cal name start call v { v with state := { v.state with paused := flag } }

section Tables

variable (jobs : JobTable) (name : String)

theorem lookup_saveJob (job : PromptJob) :
    (saveJob jobs job).lookup name = if name = job.name then some job else jobs.lookup name := by
  by_cases hname : name = job.name
  · subst hname
    rw [if_pos rfl]
    refine Table.lookup_eq_some_iff.mpr ⟨?_, rfl⟩
    have hpresent : ∃ row ∈ (jobs.insertNew job).rows, row.name = job.name := by
      by_cases hnone : jobs.lookup job.name = none
      · exact ⟨job, Table.lookup_mem (Table.lookup_insertNew_self hnone), rfl⟩
      · rw [Table.insertNew_eq_self hnone]
        obtain ⟨row, hrow⟩ := Option.ne_none_iff_exists'.mp hnone
        exact ⟨row, Table.lookup_mem hrow, Table.lookup_key hrow⟩
    obtain ⟨row, hrow, hkey⟩ := hpresent
    exact List.mem_map.mpr ⟨row, hrow, if_pos hkey⟩
  · rw [if_neg hname, ← Table.lookup_insertNew_ne jobs job hname]
    cases hrow : (jobs.insertNew job).lookup name with
    | none =>
      rw [Table.lookup_eq_none_iff] at hrow ⊢
      intro row hmem
      obtain ⟨row', hmem', rfl⟩ := List.mem_map.mp hmem
      by_cases hkey : row'.name = job.name
      · rw [if_pos hkey]
        exact fun h => hname h.symm
      · rw [if_neg hkey]
        exact hrow row' hmem'
    | some row =>
      obtain ⟨hmem, hkey⟩ := Table.lookup_eq_some_iff.mp hrow
      refine Table.lookup_eq_some_iff.mpr ⟨List.mem_map.mpr ⟨row, hmem, if_neg ?_⟩, hkey⟩
      rw [hkey]
      exact hname

theorem lookup_removeJob (k : String) :
    (removeJob jobs k).lookup name = if name = k then none else jobs.lookup name := by
  by_cases hname : name = k
  · rw [if_pos hname, Table.lookup_eq_none_iff]
    intro row hmem
    rw [hname]
    exact of_decide_eq_true (List.mem_filter.mp hmem).2
  · rw [if_neg hname]
    cases hrow : jobs.lookup name with
    | none =>
      rw [Table.lookup_eq_none_iff] at hrow ⊢
      intro row hmem
      exact hrow row (List.mem_filter.mp hmem).1
    | some row =>
      obtain ⟨hmem, hkey⟩ := Table.lookup_eq_some_iff.mp hrow
      refine Table.lookup_eq_some_iff.mpr ⟨List.mem_filter.mpr ⟨hmem, ?_⟩, hkey⟩
      rw [decide_eq_true_eq, hkey]
      exact hname

end Tables

theorem createdFor_append (name : String) (now : Time) (first later : List Enqueued) :
    createdFor name now (first ++ later) = createdFor name now first ++
      createdFor name now later := by
  unfold createdFor
  rw [List.filter_append, List.map_append]

theorem createdFor_other {name : String} (now : Time) {entries : List Enqueued}
    (h : ∀ e ∈ entries, e.job.name ≠ name) : createdFor name now entries = [] := by
  unfold createdFor
  rw [List.map_eq_nil_iff, List.filter_eq_nil_iff]
  intro e he
  simp [h e he]

/-- The checks of the tick, as facts about the view of the job. -/
theorem dueNow_of_allows [Rounding] {cal : Calendar} {s : SchedulerState} {made : List Time}
    {input : Tick} {job : PromptJob} {jobs : List PromptJob}
    (hallows : allowsEnqueue cal s input job jobs = true)
    (hjob : s.jobs.lookup job.name = some job) :
    DueNow cal input job.name (view s made job.name) job := by
  unfold allowsEnqueue shouldEnqueueJob at hallows
  simp only [Bool.and_eq_true, Bool.not_eq_true'] at hallows
  obtain ⟨_, ⟨hpaused, htime⟩, hpending⟩ := hallows
  rw [Option.isSome_eq_false_iff, Option.isNone_iff_eq_none] at hpending
  exact ⟨hjob, hpaused, htime, hpending⟩

/-- The turn of the job itself. -/
theorem ownTurn_steps [Rounding] (lib : Stdlib) (cal : Calendar) (start s : SchedulerState)
    (made : List Time) (input : Tick) (job : PromptJob)
    (hturn : s = turn lib cal start input job.name)
    (hlisted : job ∈ tickJobs start input) (hjob : s.jobs.lookup job.name = some job) :
    ReflTransGen (JobStep lib cal job.name start (.tick input)) (view s made job.name)
      (view (enqueueIfDue lib cal s input job (tickJobs start input)).1
        (made ++ createdFor job.name input.now
          (enqueueIfDue lib cal s input job (tickJobs start input)).2.toList)
        job.name) := by
  have hdue : allowsEnqueue cal s input job (tickJobs start input) = true →
      DueNow cal input job.name (view s made job.name) job :=
        fun hallows => dueNow_of_allows hallows hjob
  have hv : view s made job.name =
      view (turn lib cal start input job.name) (view s made job.name).made job.name := by
    rw [← hturn]
    rfl
  have hafter : ∀ (store : Store) (d : Delivery) (key : String) (made' : List Time),
      view (removeOneTime (recordPendingMetadata lib { s with store := store } job d key input.now)
        job) made' job.name =
        ⟨store, afterEnqueue job, pendingDeliveryUpdates lib job d.sendId key
          (if d.createdAt = 0 then input.now else d.createdAt) (jobState s.states job.name),
          made'⟩ := by
    intro store d key made'
    unfold view removeOneTime recordPendingMetadata afterEnqueue
    cases job.runAtEpoch.isSome
    · simp only [Bool.false_eq_true, if_false, jobState_update, if_true, hjob]
    · simp only [if_true, jobState_update, lookup_removeJob]
  have houtcome := enqueue_outcome lib cal s input job (tickJobs start input)
  generalize enqueueIfDue lib cal s input job (tickJobs start input) = outcome at houtcome ⊢
  cases houtcome with
  | refused h =>
    rw [Option.toList_none, createdFor_other input.now (by simp), List.append_nil]
  | existing key d c h hkey hd hstore =>
    subst hkey
    have hmade : createdFor job.name input.now [⟨job, d.sendId, false⟩] = [] := rfl
    dsimp only
    rw [hafter, Option.toList_some, hmade, List.append_nil]
    exact ReflTransGen.single
      (JobStep.found input job d c rfl hlisted hv (hturn ▸ h) (hdue h) hd hstore)
  | created key d c h hkey hnone hd hstore =>
    subst hkey
    have hmade : createdFor job.name input.now [⟨job, d.sendId, true⟩] = [input.now] := by
      simp [createdFor]
    have htime : (if d.createdAt = 0 then input.now else d.createdAt) = input.now := by
      rw [hd]
      exact ite_self input.now
    dsimp only
    rw [hafter, htime, Option.toList_some, hmade]
    exact ReflTransGen.single
      (JobStep.created input job d c rfl hlisted hv (hturn ▸ h) (hdue h) hnone hd hstore)

section Ticks

variable [Rounding] (lib : Stdlib) (cal : Calendar) (name : String) (start : SchedulerState)
  (input : Tick) (made : List Time)

/-- The turn of another job. -/
theorem otherTurn_steps (s : SchedulerState) (job : PromptJob) (jobs : List PromptJob)
    (hname : job.name ≠ name) :
    ReflTransGen (JobStep lib cal name start (.tick input)) (view s made name)
      (view (enqueueIfDue lib cal s input job jobs).1 made name) := by
  have hafter : ∀ (store : Store) (d : Delivery) (key : String),
      view (removeOneTime (recordPendingMetadata lib { s with store := store } job d key input.now)
        job) made name = ⟨store, s.jobs.lookup name, jobState s.states name, made⟩ := by
    intro store d key
    unfold view removeOneTime recordPendingMetadata
    cases job.runAtEpoch.isSome
    · simp only [Bool.false_eq_true, if_false, jobState_update, if_neg hname.symm]
    · simp only [if_true, jobState_update, lookup_removeJob, if_neg hname.symm]
  have hstored : ∀ key store, key = occurrenceKey lib job (readState s input job.name) →
      (enqueueIdempotent s.store (scheduledRecord job key) true input.now).1 = store →
        JobStep lib cal name start (.tick input) (view s made name)
          ⟨store, s.jobs.lookup name, jobState s.states name, made⟩ := by
    intro key store hkey hstore
    subst hkey hstore
    exact JobStep.stored _ (StoreStep.scheduled input job (readState s input job.name) rfl hname)
      fun _ _ h => by cases h
  have houtcome := enqueue_outcome lib cal s input job jobs
  generalize enqueueIfDue lib cal s input job jobs = outcome at houtcome ⊢
  cases houtcome with
  | refused h => exact ReflTransGen.refl
  | existing key d c h hkey hd hstore =>
    dsimp only
    rw [hafter]
    exact ReflTransGen.single (hstored key _ hkey hstore)
  | created key d c h hkey hnone hd hstore =>
    dsimp only
    rw [hafter]
    exact ReflTransGen.single (hstored key _ hkey hstore)

/-- The turns of other jobs, as steps of this one. -/
theorem otherTurns_steps (jobs rest : List PromptJob) (hrest : ∀ job ∈ rest, job.name ≠ name)
    (s : SchedulerState) :
    ReflTransGen (JobStep lib cal name start (.tick input)) (view s made name)
      (view (enqueueDue lib cal input jobs s rest).1 made name) := by
  refine enqueueDue_keeps lib cal input jobs
    (P := fun s' => ReflTransGen (JobStep lib cal name start (.tick input)) (view s made name)
      (view s' made name))
    rest ?_ s ReflTransGen.refl
  intro s' job hjob hreached
  exact hreached.trans (otherTurn_steps lib cal name start input made s' job jobs (hrest job hjob))

omit [Rounding] in
theorem tickJobs_lookup (s : SchedulerState) {job : PromptJob} (hjob : job ∈ tickJobs s input) :
    s.jobs.lookup job.name = some job := by
  unfold tickJobs at hjob
  split at hjob
  · exact Table.lookup_of_mem ((List.mem_insertionSort _).mp hjob)
  · exact nomatch hjob

theorem restore_steps (s : SchedulerState) :
    ReflTransGen (JobStep lib cal name start (.tick input)) (view s made name)
      (view (restorePendingOncePriorities s input) made name) := by
  unfold restorePendingOncePriorities
  split
  · exact ReflTransGen.refl
  · have hfold : ∀ (rows : List StateRow) (store : Store),
        ReflTransGen (JobStep lib cal name start (.tick input))
          ⟨store, s.jobs.lookup name, jobState s.states name, made⟩
          ⟨rows.foldl (fun store row =>
            if row.state.pendingDeliveryOneTime &&
                decide (row.state.lastDeliverySendId ≠ row.state.lastCompletedDeliverySendId) &&
                decide (row.state.lastDeliverySendId ≠ "") then
              (promoteOneTime store row.state.lastDeliverySendId).1
            else store) store, s.jobs.lookup name, jobState s.states name, made⟩ := by
      intro rows
      induction rows with
      | nil => exact fun _ => ReflTransGen.refl
      | cons row rest ih =>
        intro store
        rw [List.foldl_cons]
        split
        · refine ReflTransGen.head ?_ (ih _)
          exact JobStep.stored _ (StoreStep.promoted input row.state.lastDeliverySendId rfl)
            fun _ _ h => by cases h
        · exact ih store
    exact hfold s.states.rows s.store

/-- Taking in the receipts, as steps of the job. -/
theorem reconcile_steps (s : SchedulerState) (hs : s = restorePendingOncePriorities start input) :
    ReflTransGen (JobStep lib cal name start (.tick input)) (view s made name)
      (view (reconcileTerminalReceipts cal s input) made name) := by
  by_cases hloads : input.loads = true
  · have hview : view (reconcileTerminalReceipts cal s input) made name =
        { view s made name with
          state := (reconcileState cal s.store.queue input
            ⟨name, jobState s.states name⟩).state } := by
      unfold view
      rw [jobState_reconcile, if_pos hloads]
      unfold reconcileTerminalReceipts
      rw [hloads, Bool.not_true, if_neg Bool.false_ne_true]
    have hstart : view s made name = view (restorePendingOncePriorities start input)
        (view s made name).made name := by
      rw [← hs]
      rfl
    rw [hview]
    exact ReflTransGen.single (JobStep.reconciled input rfl hloads hstart)
  · unfold reconcileTerminalReceipts
    rw [Bool.not_eq_true] at hloads
    rw [hloads, Bool.not_false, if_pos rfl]

/-- The first schedules, as steps of the job. -/
theorem initial_steps (s : SchedulerState) (jobs : List PromptJob)
    (hjobs : ∀ job ∈ jobs, s.jobs.lookup job.name = some job) :
    ReflTransGen (JobStep lib cal name start (.tick input)) (view s made name)
      (view (ensureInitialSchedules cal s input jobs) made name) := by
  unfold ensureInitialSchedules
  induction jobs generalizing s with
  | nil => exact ReflTransGen.refl
  | cons job rest ih =>
    have htable : (ensureInitialSchedule cal input s job).jobs = s.jobs := by
      unfold ensureInitialSchedule
      split <;> rfl
    have hfirst : ReflTransGen (JobStep lib cal name start (.tick input)) (view s made name)
        (view (ensureInitialSchedule cal input s job) made name) := by
      unfold ensureInitialSchedule
      split
      · exact ReflTransGen.refl
      · rename_i dueAt hdue
        by_cases hname : name = job.name
        · subst hname
          have hstep : JobStep lib cal job.name start (.tick input) (view s made job.name)
              ⟨s.store, s.jobs.lookup job.name,
                { jobState s.states job.name with initialDueAtEpoch := dueAt }, made⟩ :=
            JobStep.initial input job dueAt rfl (hjobs job List.mem_cons_self) hdue
          unfold view at hstep ⊢
          rw [jobState_update, if_pos rfl]
          exact ReflTransGen.single hstep
        · unfold view
          rw [jobState_update, if_neg hname]
    rw [List.foldl_cons]
    refine hfirst.trans (ih _ ?_)
    intro other hother
    rw [htable]
    exact hjobs other (List.mem_cons_of_mem job hother)

theorem reconciled_jobs (s : SchedulerState) :
    (reconcileTerminalReceipts cal (restorePendingOncePriorities s input) input).jobs = s.jobs := by
  unfold reconcileTerminalReceipts restorePendingOncePriorities
  split <;> rfl

theorem prepareTick_jobs (s : SchedulerState) : (prepareTick cal s input).jobs = s.jobs := by
  have hinitial : ∀ (jobs : List PromptJob) (s' : SchedulerState),
      (ensureInitialSchedules cal s' input jobs).jobs = s'.jobs := by
    intro jobs
    induction jobs with
    | nil => exact fun _ => rfl
    | cons job rest ih =>
      intro s'
      unfold ensureInitialSchedules at ih ⊢
      rw [List.foldl_cons, ih]
      unfold ensureInitialSchedule
      split <;> rfl
  unfold prepareTick
  dsimp only
  rw [hinitial, reconciled_jobs]

/-- A job state with the receipts taken in. -/
def reconciledView (cal : Calendar) (name : String) (start : SchedulerState) (input : Tick)
    (made : List Time) : JobView :=
  view (reconcileTerminalReceipts cal (restorePendingOncePriorities start input) input) made name

theorem reconciled_steps :
    ReflTransGen (JobStep lib cal name start (.tick input)) (view start made name)
      (reconciledView cal name start input made) :=
  (restore_steps lib cal name start input made start).trans
    (reconcile_steps lib cal name start input made _ rfl)

theorem prepareTick_rest :
    ReflTransGen (JobStep lib cal name start (.tick input))
      (reconciledView cal name start input made)
      (view (prepareTick cal start input) made name) := by
  apply initial_steps
  intro job hjob
  rw [reconciled_jobs]
  exact tickJobs_lookup input start hjob

theorem turn_rest :
    ReflTransGen (JobStep lib cal name start (.tick input))
      (reconciledView cal name start input made)
      (view (turn lib cal start input name) made name) := by
  refine (prepareTick_rest lib cal name start input made).trans
    (otherTurns_steps lib cal name start input made _ _ ?_ _)
  intro job hjob
  have hother := List.mem_takeWhile_imp hjob
  exact of_decide_eq_true hother

/-- The job up to its turn in the tick. -/
theorem turn_steps :
    ReflTransGen (JobStep lib cal name start (.tick input)) (view start made name)
      (view (turn lib cal start input name) made name) :=
  (reconciled_steps lib cal name start input made).trans (turn_rest lib cal name start input made)

theorem turn_lookup (s : SchedulerState) {job : PromptJob} (hjob : job ∈ tickJobs s input) :
    (turn lib cal s input job.name).jobs.lookup job.name = some job := by
  have hkept : ∀ (rest : List PromptJob) (s' : SchedulerState),
      (∀ other ∈ rest, other.name ≠ job.name) →
      (enqueueDue lib cal input (tickJobs s input) s' rest).1.jobs.lookup job.name =
        s'.jobs.lookup job.name := by
    intro rest s' hrest
    refine enqueueDue_keeps lib cal input (tickJobs s input)
      (P := fun s'' => s''.jobs.lookup job.name = s'.jobs.lookup job.name) rest ?_ s' rfl
    intro s'' other hother hsame
    rw [← hsame]
    have houtcome := enqueue_outcome lib cal s'' input other (tickJobs s input)
    generalize enqueueIfDue lib cal s'' input other (tickJobs s input) = outcome at houtcome ⊢
    have hne := (hrest other hother).symm
    cases houtcome with
    | refused h => rfl
    | existing key d c h hkey hd hstore =>
      unfold removeOneTime recordPendingMetadata
      dsimp only
      split
      · rw [lookup_removeJob, if_neg hne]
      · rfl
    | created key d c h hkey hnone hd hstore =>
      unfold removeOneTime recordPendingMetadata
      dsimp only
      split
      · rw [lookup_removeJob, if_neg hne]
      · rfl
  unfold turn
  rw [hkept, prepareTick_jobs]
  · exact tickJobs_lookup input s hjob
  · intro other hother
    have hne := List.mem_takeWhile_imp hother
    exact of_decide_eq_true hne

/-- The last dispatch of a job is the same when the tick comes to it. -/
theorem turn_enqueuedAt :
    (jobState (turn lib cal start input name).states name).lastEnqueuedAt =
      (jobState start.states name).lastEnqueuedAt := by
  have hreconciled : (jobState (reconcileTerminalReceipts cal (restorePendingOncePriorities start
      input) input).states name).lastEnqueuedAt = (jobState start.states name).lastEnqueuedAt := by
    have hrestored : (restorePendingOncePriorities start input).states = start.states := by
      unfold restorePendingOncePriorities
      split <;> rfl
    rw [jobState_reconcile, hrestored]
    split
    · unfold reconcileState
      split
      · rfl
      split
      · rfl
      · unfold advanceAfterTerminal terminalReconciliationUpdates
        dsimp only
        split
        · rfl
        split <;> rfl
    · rfl
  have hinitial : ∀ (jobs : List PromptJob) (s : SchedulerState),
      (jobState (ensureInitialSchedules cal s input jobs).states name).lastEnqueuedAt =
        (jobState s.states name).lastEnqueuedAt := by
    intro jobs
    induction jobs with
    | nil => exact fun _ => rfl
    | cons job rest ih =>
      intro s
      unfold ensureInitialSchedules at ih ⊢
      rw [List.foldl_cons, ih]
      unfold ensureInitialSchedule
      split
      · rfl
      · rw [jobState_update]
        split
        · rename_i hname
          rw [hname]
        · rfl
  unfold turn
  refine enqueueDue_keeps lib cal input (tickJobs start input)
    (P := fun s => (jobState s.states name).lastEnqueuedAt =
      (jobState start.states name).lastEnqueuedAt) _ ?_ _ ?_
  · intro s other hother hsame
    have hbefore := List.mem_takeWhile_imp hother
    have hne : other.name ≠ name := of_decide_eq_true hbefore
    have houtcome := enqueue_outcome lib cal s input other (tickJobs start input)
    generalize enqueueIfDue lib cal s input other (tickJobs start input) = outcome at houtcome ⊢
    have hkept : ∀ store d key, (jobState (removeOneTime (recordPendingMetadata lib
        { s with store := store } other d key input.now) other).states name).lastEnqueuedAt =
          (jobState start.states name).lastEnqueuedAt := by
      intro store d key
      unfold removeOneTime recordPendingMetadata
      dsimp only
      split
      · dsimp only
        rw [jobState_update, if_neg hne.symm, hsame]
      · dsimp only
        rw [jobState_update, if_neg hne.symm, hsame]
    cases houtcome with
    | refused h => exact hsame
    | existing key d c h hkey hd hstore => exact hkept _ _ _
    | created key d c h hkey hnone hd hstore => exact hkept _ _ _
  · unfold prepareTick
    dsimp only
    rw [hinitial, hreconciled]

/-- The turns of all jobs behind the receipts, as steps of the one. -/
theorem tick_rest :
    ReflTransGen (JobStep lib cal name start (.tick input))
      (reconciledView cal name start input made)
      (view (tick lib cal start input).1
        (made ++ createdFor name input.now (tick lib cal start input).2) name) := by
  by_cases hlisted : ∃ job ∈ tickJobs start input, job.name = name
  · obtain ⟨job, hjob, rfl⟩ := hlisted
    obtain ⟨before, after, hbefore, hafter, htick⟩ := tick_split lib cal start input hjob
    have hlater : createdFor job.name input.now (enqueueDue lib cal input (tickJobs start input)
        (enqueueIfDue lib cal (turn lib cal start input job.name) input job
          (tickJobs start input)).1
          after).2 = [] := by
      apply createdFor_other
      intro e he
      exact hafter _ (enqueueDue_mem lib cal input _ _ _ e he)
    rw [htick]
    dsimp only
    rw [createdFor_append, createdFor_append, createdFor_other input.now hbefore, hlater,
      List.nil_append, List.append_nil]
    refine (turn_rest lib cal job.name start input made).trans (ReflTransGen.trans ?_
      (otherTurns_steps lib cal job.name start input _ _ after hafter _))
    exact ownTurn_steps lib cal start _ made input job rfl hjob
      (turn_lookup lib cal input start hjob)
  · have hnone : createdFor name input.now (tick lib cal start input).2 = [] := by
      apply createdFor_other
      intro e he hname
      exact hlisted ⟨e.job, enqueueDue_mem lib cal input _ _ _ e he, hname⟩
    rw [hnone, List.append_nil]
    refine (prepareTick_rest lib cal name start input made).trans
      (otherTurns_steps lib cal name start input made _ _ ?_ _)
    intro job hjob hname
    exact hlisted ⟨job, hjob, hname⟩

theorem tick_steps :
    ReflTransGen (JobStep lib cal name start (.tick input)) (view start made name)
      (view (tick lib cal start input).1
        (made ++ createdFor name input.now (tick lib cal start input).2) name) :=
  (reconciled_steps lib cal name start input made).trans (tick_rest lib cal name start input made)

end Ticks

theorem normaliseJobDefinition_name {name : String} {prompt : Text} {interval : Time}
    {dailyAt : Option DailyAt} {exact : Bool} {runAt : Option Time} {group : String}
    {images : List String} {pin : Bool} {job : PromptJob}
    (h : normaliseJobDefinition name prompt interval dailyAt exact runAt group images pin =
      .ok job) :
    job.name = stripName name := by
  unfold normaliseJobDefinition at h
  split_ifs at h
  split at h
  · cases h
  · rw [← Except.ok.inj h]

theorem commandJob_name [Rounding] {command : AddJob} {existing : Option PromptJob} {now : Time}
    {job : PromptJob}
    (h : commandJob command existing now = .ok job) : job.name = command.name := by
  rw [normaliseJobDefinition_name h, command.name_valid]

/-- The cadence of a definition: an interval below zero counts as none. -/
theorem normaliseJobDefinition_cadence {name : String} {prompt : Text} {interval : Time}
    {dailyAt : Option DailyAt} {exact : Bool} {runAt : Option Time} {group : String}
    {images : List String} {pin : Bool} {job : PromptJob}
    (h : normaliseJobDefinition name prompt interval dailyAt exact runAt group images pin =
      .ok job) :
    jobCadence job = ⟨max 0 interval, dailyAt, exact, runAt⟩ := by
  unfold normaliseJobDefinition at h
  split_ifs at h
  split at h
  · cases h
  · rw [← Except.ok.inj h]
    rfl

/-- The cadence of an interval is at least six seconds. -/
theorem commandCadence_interval [Rounding] (command : AddJob) (existing : Option PromptJob)
    (now : Time) :
    let cadence := commandCadence command existing now
    (cadence.runAtEpoch = none ∧ cadence.dailyAt = none ∧ 6 ≤ cadence.intervalSeconds) ∨
      (cadence.intervalSeconds = 0 ∧
        (cadence.runAtEpoch.isSome = true ∨ cadence.dailyAt.isSome = true)) := by
  unfold commandCadence
  dsimp only
  by_cases honce : command.schedule = .once
  · rw [if_pos honce]
    exact Or.inr ⟨rfl, Or.inl rfl⟩
  · rw [if_neg honce]
    cases hdaily : command.dailyAt with
    | some dailyAt => exact Or.inr ⟨rfl, Or.inr rfl⟩
    | none =>
      obtain ⟨minutes, hminutes⟩ := Option.isSome_iff_exists.mp (command.cadence honce hdaily)
      have hleast := command.interval_valid minutes hminutes
      have hround : ((6 : ℕ) : ℚ) ≤ Rounding.round (minutes * 60) := by
        rw [← Rounding.round_natCast (n := 6) (by omega)]
        refine Rounding.round_mono (by positivity) ?_
        push_cast
        linarith
      refine Or.inl ⟨rfl, rfl, ?_⟩
      rw [hminutes, Option.getD_some]
      exact_mod_cast hround

/-- The cadence of an interval is representable. -/
theorem commandCadence_rounded [Rounding] (command : AddJob) (existing : Option PromptJob)
    (now : Time) :
    Rounding.round (commandCadence command existing now).intervalSeconds =
      (commandCadence command existing now).intervalSeconds := by
  have hzero : Rounding.round (0 : ℚ) = 0 := by
    have h := Rounding.round_natCast (n := 0) (by omega)
    exact_mod_cast h
  unfold commandCadence
  dsimp only
  split
  · exact hzero
  split
  · exact hzero
  · rename_i hdaily
    refine Rounding.round_round ?_
    cases hminutes : command.intervalMinutes with
    | none => simp
    | some minutes =>
      have hleast := command.interval_valid minutes hminutes
      rw [Option.getD_some]
      linarith

/-- A saved definition has the cadence that the command asks for. -/
theorem commandJob_cadence [Rounding] {command : AddJob} {existing : Option PromptJob} {now : Time}
    {job : PromptJob}
    (h : commandJob command existing now = .ok job) :
    jobCadence job = commandCadence command existing now := by
  have hnonneg : 0 ≤ (commandCadence command existing now).intervalSeconds := by
    rcases commandCadence_interval command existing now with ⟨_, _, hleast⟩ | ⟨hzero, _⟩
    · linarith
    · rw [hzero]
  rw [normaliseJobDefinition_cadence h, max_eq_right hnonneg]

/-- An edit is a step of the job that it names. -/
theorem addJob_steps [Rounding] (lib : Stdlib) (cal : Calendar) (name : String) (made : List Time)
    (s : SchedulerState)
    (command : AddJob) (available : String → Bool) (now : Time) :
    ReflTransGen (JobStep lib cal name s (.addJob command available now)) (view s made name)
      (view (addJob s command available now) made name) := by
  unfold addJob
  dsimp only
  split
  · exact ReflTransGen.refl
  split
  · exact ReflTransGen.refl
  · rename_i job hcommand
    have hjob : job.name = command.name := commandJob_name hcommand
    by_cases hname : name = command.name
    · subst hname
      cases hexisting : s.jobs.lookup command.name with
      | none =>
        rw [hexisting] at hcommand
        have hstep : JobStep lib cal command.name s (.addJob command available now)
            (view s made command.name) ⟨s.store, some job, {}, made⟩ :=
          JobStep.defined command available now job rfl rfl hexisting hcommand hjob
        unfold view at hstep ⊢
        dsimp only
        rw [lookup_saveJob, hjob, if_pos rfl, jobState_clear, if_pos rfl]
        exact ReflTransGen.single hstep
      | some old =>
        rw [hexisting] at hcommand
        have hstep : JobStep lib cal command.name s (.addJob command available now)
            (view s made command.name) ⟨s.store, some job,
              if jobCadence old ≠ commandCadence command (some old) now then
                resetDue (jobState s.states command.name)
                  else jobState s.states command.name, made⟩ :=
          JobStep.edited command available now old job rfl rfl hexisting hcommand hjob
        unfold view at hstep ⊢
        dsimp only
        rw [lookup_saveJob, hjob, if_pos rfl]
        split
        · rename_i hcadence
          rw [if_pos hcadence] at hstep
          rw [jobState_update, if_pos rfl]
          exact ReflTransGen.single hstep
        · rename_i hcadence
          rw [if_neg hcadence] at hstep
          exact ReflTransGen.single hstep
    · have hsame : ∀ states, jobState states name = jobState s.states name →
          view ⟨s.store, saveJob s.jobs job, states⟩ made name = view s made name := by
        intro states hstates
        unfold view
        dsimp only
        rw [lookup_saveJob, hjob, if_neg hname, hstates]
      rw [hsame]
      cases s.jobs.lookup command.name with
      | none =>
        dsimp only
        rw [jobState_clear, if_neg hname]
      | some old =>
        dsimp only
        split
        · rw [jobState_update, if_neg hname]
        · rfl

/-- A cancellation that succeeds leaves the delivery cancelled. -/
theorem cancelPending_cancelled {s : Store} {sendId error : String} {answers : Bool} {now : Time}
    (h : (cancelPending s sendId error answers now).2 = true) :
    ∃ d, (cancelPending s sendId error answers now).1.queue.lookup sendId = some d ∧
      d.status = .cancelled := by
  have hqueue : (cancelPending s sendId error answers now).1.queue =
      s.queue.updateAt sendId (fun d => d.status.isWaiting) (release .cancelled error now)
        (fun _ => id rfl) := by
    unfold cancelPending updateDelivery
    dsimp only
    split <;> rfl
  have hhits : s.queue.hits sendId (fun d => d.status.isWaiting) = true := by
    unfold cancelPending updateDelivery at h
    dsimp only at h
    split at h
    · rename_i hboth
      rw [Bool.and_eq_true] at hboth
      exact hboth.1
    · exact h
  obtain ⟨d, hd, hwaiting⟩ := Table.hits_iff.mp hhits
  refine ⟨release .cancelled error now d, ?_, rfl⟩
  rw [hqueue, Table.lookup_updateAt_self, hd, Option.map_some, if_pos hwaiting]

/-- A manual fire is a step of the job that it names. -/
theorem fireNow_steps [Rounding] (lib : Stdlib) (cal : Calendar) (name : String) (made : List Time)
    (s : SchedulerState)
    (fired requestId : String) (now : Time) :
    ReflTransGen (JobStep lib cal name s (.fireNow fired requestId now)) (view s made name)
      (view (fireNow lib s fired requestId now) made name) := by
  unfold fireNow
  split
  · exact ReflTransGen.refl
  rename_i job hjob
  split
  · exact ReflTransGen.refl
  unfold fireJobNow
  have hqueued : JobStep lib cal name s (.fireNow fired requestId now) (view s made name)
      ⟨(enqueueManual lib s.store ⟨requestId, job.prompt, job.images, job.pinChat, false⟩
        true now).1, s.jobs.lookup name, jobState s.states name, made⟩ :=
    JobStep.stored _ (StoreStep.manual _ true (Or.inr ⟨fired, rfl⟩)) fun _ _ h => nomatch h
  generalize enqueueManual lib s.store ⟨requestId, job.prompt, job.images, job.pinChat, false⟩ true
    now = outcome at hqueued
  obtain ⟨store, outcome⟩ := outcome
  cases outcome with
  | error e => exact ReflTransGen.single hqueued
  | ok receipt =>
    dsimp only
    split
    · rename_i hinterval
      have hcancelled : ∃ cancelled : Store × Bool,
          cancelled = (if (jobState s.states job.name).lastDeliverySendId = "" then (store, false)
            else cancelPending store (jobState s.states job.name).lastDeliverySendId
              "superseded by manual fire" true now) ∧
          ReflTransGen (JobStep lib cal name s (.fireNow fired requestId now)) (view s made name)
            ⟨cancelled.1, s.jobs.lookup name, jobState s.states name, made⟩ ∧
          (cancelled.2 = true → ∃ d, cancelled.1.queue.lookup
            (jobState s.states job.name).lastDeliverySendId = some d ∧ d.status = .cancelled) := by
        refine ⟨_, rfl, ?_, ?_⟩
        · split
          · exact ReflTransGen.single hqueued
          · refine ReflTransGen.tail (ReflTransGen.single hqueued) (JobStep.stored _ ?_ ?_)
            · exact StoreStep.withdrawn fired requestId _ now rfl
            · exact fun _ _ h => nomatch h
        · intro hdone
          split at hdone
          · exact Bool.noConfusion hdone
          · rename_i hid
            rw [if_neg hid]
            exact cancelPending_cancelled hdone
      obtain ⟨cancelled, hdef, hsteps, hrow⟩ := hcancelled
      rw [← hdef]
      have hkey : job.name = fired := Table.lookup_key hjob
      by_cases hname : name = fired
      · subst hname
        rw [hkey] at hrow ⊢
        refine hsteps.tail ?_
        unfold view
        dsimp only
        rw [jobState_update, if_pos rfl, hjob]
        by_cases hdone : cancelled.2 = true
        · obtain ⟨d, hd, hstatus⟩ := hrow hdone
          rw [if_pos hdone]
          exact JobStep.superseded requestId now job d rfl rfl hinterval hd hstatus
        · rw [if_neg hdone]
          exact JobStep.fired requestId now job rfl rfl hinterval
      · unfold view at hsteps ⊢
        dsimp only
        rw [jobState_update, hkey, if_neg hname]
        exact hsteps
    · exact ReflTransGen.single hqueued

/-- Every call is a sequence of steps of each job. -/
theorem history_steps [Rounding] (lib : Stdlib) (cal : Calendar) (name : String) (h : History)
    (call : SchedulerCall) :
    ReflTransGen (JobStep lib cal name h.scheduler call) (h.view name)
      ((historyStep lib cal h call).1.view name) := by
  obtain ⟨s, made⟩ := h
  have hquiet : createdFor name call.now ([] : List Enqueued) = [] := rfl
  cases call with
  | tick input => exact tick_steps lib cal name s input (made name)
  | service call hcall =>
    unfold historyStep History.view schedulerStep
    dsimp only
    rw [hquiet, List.append_nil]
    exact ReflTransGen.single (JobStep.stored _ (StoreStep.service call hcall rfl) fun _ _ _ => rfl)
  | manual request answers now =>
    unfold historyStep History.view schedulerStep
    dsimp only
    rw [hquiet, List.append_nil]
    exact ReflTransGen.single (JobStep.stored _ (StoreStep.manual request answers (Or.inl rfl))
      fun _ _ h => nomatch h)
  | addJob command available now =>
    unfold historyStep History.view schedulerStep
    dsimp only
    rw [hquiet, List.append_nil]
    exact addJob_steps lib cal name (made name) s command available now
  | fireNow fired requestId now =>
    unfold historyStep History.view schedulerStep
    dsimp only
    rw [hquiet, List.append_nil]
    exact fireNow_steps lib cal name (made name) s fired requestId now
  | setJobPaused paused flag now =>
    unfold historyStep History.view schedulerStep
    dsimp only
    rw [hquiet, List.append_nil]
    unfold setJobPaused
    split
    · exact ReflTransGen.refl
    · rename_i hjob
      unfold view
      dsimp only
      rw [jobState_update]
      split
      · rename_i hname
        subst hname
        exact ReflTransGen.single (JobStep.paused flag now rfl hjob)
      · exact ReflTransGen.refl

/-- A state has the receipt of its last delivery taken in already, or waits for it, or it
takes it in. -/
theorem reconciled_cases [Rounding] (cal : Calendar) (queue : Deliveries) (input : Tick)
    (name : String) (state : JobState) :
    ((reconcileState cal queue input ⟨name, state⟩).state = state ∧
      ∀ d, queue.lookup state.lastDeliverySendId = some d → d.status.isTerminal = true →
        state.lastDeliverySendId = "" ∨
          state.lastCompletedDeliverySendId = state.lastDeliverySendId) ∨
      ∃ d jitter, queue.lookup state.lastDeliverySendId = some d ∧ d.status.isTerminal = true ∧
        state.lastDeliverySendId ≠ "" ∧
        state.lastCompletedDeliverySendId ≠ state.lastDeliverySendId ∧
        (reconcileState cal queue input ⟨name, state⟩).state =
          terminalReconciliationUpdates cal state d input.now jitter := by
  unfold reconcileState
  by_cases hid : state.lastDeliverySendId = ""
  · rw [if_pos hid]
    exact Or.inl ⟨rfl, fun _ _ _ => Or.inl hid⟩
  rw [if_neg hid]
  cases hd : queue.lookup state.lastDeliverySendId with
  | none =>
    rw [Option.filter_none]
    refine Or.inl ⟨rfl, ?_⟩
    intro d hd'
    cases hd'
  | some d =>
    by_cases hterminal : d.status.isTerminal = true
    · rw [Option.filter_some, if_pos hterminal]
      by_cases htaken : state.lastCompletedDeliverySendId = state.lastDeliverySendId
      · refine Or.inl ⟨?_, fun _ _ _ => Or.inr htaken⟩
        have hsame : d.sendId = "" ∨ state.lastCompletedDeliverySendId = d.sendId := by
          rw [Table.lookup_key hd]
          exact Or.inr htaken
        change terminalReconciliationUpdates cal state d input.now _ = state
        unfold terminalReconciliationUpdates
        rw [if_pos hsame]
      · exact Or.inr ⟨d, _, rfl, hterminal, hid, htaken, rfl⟩
    · rw [Option.filter_some, if_neg hterminal]
      refine Or.inl ⟨rfl, ?_⟩
      intro d' hd' hterminal'
      obtain rfl := Option.some.inj hd'
      exact absurd hterminal' hterminal

/-- An invariant of the job along a run with a clock. -/
theorem history_invariant [Rounding] (lib : Stdlib) (cal : Calendar) (name : String)
    (C : History → SchedulerCall → Prop) (I : Time → JobView → Prop)
    (hclock : ∀ t t' v, t ≤ t' → I t v → I t' v)
    (hstep : ∀ h call v v', C h call → JobStep lib cal name h.scheduler call v v' →
      I call.now v → I call.now v')
    (t : Time) (h : History) (hs : I t (h.view name)) (run : List SchedulerCall)
    (htime : Nondecreasing SchedulerCall.now t run) (hrun : Meets (historyStep lib cal) C h run) :
    I (endTime SchedulerCall.now t run) ((final (historyStep lib cal) h run).view name) := by
  refine clocked_invariant (historyStep lib cal) (fun a b => a ≤ b) SchedulerCall.now C
    (fun t h => I t (h.view name)) ?_ t h hs run htime hrun
  intro t h call hC hle hI
  refine Tables.reflTransGen_keeps (P := I call.now) ?_ (history_steps lib cal name h call)
    (hclock t call.now _ hle hI)
  intro v v' hvv' hv
  exact hstep h call v v' hC hvv' hv

/-- An invariant of the job along a run of the scheduler. -/
theorem scheduler_invariant [Rounding] (lib : Stdlib) (cal : Calendar) (name : String)
    (C : SchedulerState → SchedulerCall → Prop) (I : JobView → Prop)
    (hstep : ∀ s call v v', C s call → JobStep lib cal name s call v v' → I v → I v')
    (s : SchedulerState) (hs : ∃ made, I (view s made name)) (run : List SchedulerCall)
    (hrun : Meets (schedulerStep lib cal) C s run) :
    ∃ made, I (view (final (schedulerStep lib cal) s run) made name) := by
  refine meets_invariant (schedulerStep lib cal) C (fun s => ∃ made, I (view s made name))
    ?_ s hs run
    hrun
  rintro s call hC ⟨made, hI⟩
  refine ⟨made ++ createdFor name call.now (schedulerStep lib cal s call).2, ?_⟩
  refine Tables.reflTransGen_keeps ?_ (history_steps lib cal name ⟨s, fun _ => made⟩ call) hI
  intro v v' hvv' hv
  exact hstep s call v v' hC hvv' hv

end Prompta.JobSteps
