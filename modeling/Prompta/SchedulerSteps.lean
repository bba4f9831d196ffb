import Prompta.FreshChats
import Prompta.Scheduler

/-!
What a call can do to the saved state of a job and to the queue. An attempt to enqueue a
job is refused, finds the delivery of its key, or adds one. All that a call does to the
deliveries is done by operations of the delivery service at the time of the call.
-/
namespace Prompta.Scheduler

open Runs Tables Texts DisplayBlocks Schema ResponseStore DeliveryQueue ManualQueue Service Jobs
  SchedulerPolicy FreshChats Roundings

section States

variable (states : StateTable) (name : String) (f : JobState → JobState)

theorem jobState_update (k : String) :
    jobState (updateJobState states name f) k =
      if k = name then f (jobState states name) else jobState states k := by
  have hinserted : jobState (states.insertNew ⟨name, {}⟩) k = jobState states k := by
    unfold jobState
    by_cases hk : k = name
    · subst hk
      by_cases hnone : states.lookup k = none
      · have hself := Table.lookup_insertNew_self (r := (⟨k, {}⟩ : StateRow)) hnone
        rw [hnone, show k = (⟨k, {}⟩ : StateRow).name from rfl, hself]
        rfl
      · rw [Table.insertNew_eq_self hnone]
    · rw [Table.lookup_insertNew_ne states _ hk]
  have hpresent : ((states.insertNew ⟨name, {}⟩).lookup name).isSome = true := by
    by_cases hnone : states.lookup name = none
    · have hself := Table.lookup_insertNew_self (r := (⟨name, {}⟩ : StateRow)) hnone
      rw [show name = (⟨name, {}⟩ : StateRow).name from rfl, hself]
      rfl
    · rw [Table.insertNew_eq_self hnone]
      exact Option.isSome_iff_ne_none.mpr hnone
  obtain ⟨row, hrow⟩ := Option.isSome_iff_exists.mp hpresent
  by_cases hk : k = name
  · subst hk
    rw [if_pos rfl, ← hinserted]
    unfold jobState updateJobState
    rw [Table.lookup_updateAt_self, hrow]
    rfl
  · rw [if_neg hk, ← hinserted]
    unfold jobState updateJobState
    rw [Table.lookup_updateAt_ne _ _ _ _ _ _ hk]

theorem jobState_clear (k : String) :
    jobState (clearJobState states name) k = if k = name then {} else jobState states k := by
  unfold jobState
  by_cases hk : k = name
  · subst hk
    have hnone : (clearJobState states k).lookup k = none := by
      rw [Table.lookup_eq_none_iff]
      intro row hrow
      exact of_decide_eq_true (List.mem_filter.mp hrow).2
    rw [if_pos rfl, hnone]
    rfl
  · rw [if_neg hk]
    congr 2
    cases hrow : states.lookup k with
    | none =>
      rw [Table.lookup_eq_none_iff] at hrow ⊢
      intro row hmem
      exact hrow row (List.mem_filter.mp hmem).1
    | some row =>
      obtain ⟨hmem, hname⟩ := Table.lookup_eq_some_iff.mp hrow
      refine Table.lookup_eq_some_iff.mpr ⟨List.mem_filter.mpr ⟨hmem, ?_⟩, hname⟩
      rw [decide_eq_true_eq, hname]
      exact hk

end States

/-- The state of a job once the receipts are taken in. -/
theorem jobState_reconcile [Rounding] (cal : Calendar) (s : SchedulerState) (input : Tick)
    (k : String) :
    jobState (reconcileTerminalReceipts cal s input).states k =
      if input.loads then
        (reconcileState cal s.store.queue input ⟨k, jobState s.states k⟩).state
      else jobState s.states k := by
  unfold reconcileTerminalReceipts
  by_cases hloads : input.loads
  · simp only [hloads, Bool.not_true, Bool.false_eq_true, if_false, if_true]
    unfold jobState
    rw [Table.lookup_update]
    cases hrow : s.states.lookup k with
    | none => rfl
    | some row =>
      obtain ⟨name, state⟩ := row
      obtain rfl : name = k := Table.lookup_key hrow
      rfl
  · simp only [hloads, Bool.not_false, if_true, Bool.false_eq_true, if_false]

/-- Jobs have a prompt and valid attachments, so an enqueue of a job is never refused. -/
theorem enqueue_job (store : Store) (job : PromptJob) (key : String) (now : Time) :
    (∃ d c, existingDelivery store.queue (scheduledRecord job key) = some d ∧
      enqueueIdempotent store (scheduledRecord job key) true now =
        ({ store with chats := c }, .ok (d, false))) ∨
      ∃ c, existingDelivery store.queue (scheduledRecord job key) = none ∧
        enqueueIdempotent store (scheduledRecord job key) true now =
          (⟨store.queue.insertNew (queuedDelivery store.queue (scheduledRecord job key) now), c⟩,
            .ok (queuedDelivery store.queue (scheduledRecord job key) now, true)) := by
  have hid : (scheduledRecord job key).sendId ≠ "" := by
    intro h
    have htext := congrArg String.toList h
    rw [scheduledRecord, scheduledSendId, String.toList_append] at htext
    exact nomatch htext
  have hmessage : (scheduledRecord job key).message ≠ [] := strip_ne_nil job.prompt_present
  have himages : imageRefs (scheduledRecord job key).images = .ok job.images := job.images_valid
  unfold enqueueIdempotent
  rw [if_neg hid, if_neg hmessage, himages]
  dsimp only
  cases existingDelivery store.queue (scheduledRecord job key) with
  | some d => exact Or.inl ⟨d, _, rfl, rfl⟩
  | none => exact Or.inr ⟨_, rfl, rfl⟩

/-- What an attempt to enqueue a job comes to. -/
inductive EnqueueOutcome [Rounding] (lib : Stdlib) (cal : Calendar) (s : SchedulerState)
    (input : Tick) (job : PromptJob) (jobs : List PromptJob) :
    SchedulerState × Option Enqueued → Prop
  | refused (h : allowsEnqueue cal s input job jobs = false) :
      EnqueueOutcome lib cal s input job jobs (s, none)
  | existing (key : String) (d : Delivery) (c : Chats)
      (h : allowsEnqueue cal s input job jobs = true)
      (hkey : key = occurrenceKey lib job (readState s input job.name))
      (hd : existingDelivery s.store.queue (scheduledRecord job key) = some d)
      (hstore : (enqueueIdempotent s.store (scheduledRecord job key) true input.now).1 =
        { s.store with chats := c }) :
      EnqueueOutcome lib cal s input job jobs
        (removeOneTime (recordPendingMetadata lib
          { s with store := { s.store with chats := c } } job
          d key input.now) job, some ⟨job, d.sendId, false⟩)
  | created (key : String) (d : Delivery) (c : Chats)
      (h : allowsEnqueue cal s input job jobs = true)
      (hkey : key = occurrenceKey lib job (readState s input job.name))
      (hnone : existingDelivery s.store.queue (scheduledRecord job key) = none)
      (hd : d = queuedDelivery s.store.queue (scheduledRecord job key) input.now)
      (hstore : (enqueueIdempotent s.store (scheduledRecord job key) true input.now).1 =
        ⟨s.store.queue.insertNew d, c⟩) :
      EnqueueOutcome lib cal s input job jobs
        (removeOneTime (recordPendingMetadata lib { s with store := ⟨s.store.queue.insertNew d, c⟩ }
          job d key input.now) job, some ⟨job, d.sendId, true⟩)

theorem enqueue_outcome [Rounding] (lib : Stdlib) (cal : Calendar) (s : SchedulerState)
    (input : Tick) (job : PromptJob) (jobs : List PromptJob) :
    EnqueueOutcome lib cal s input job jobs (enqueueIfDue lib cal s input job jobs) := by
  unfold enqueueIfDue
  split
  · rename_i hrefused
    exact EnqueueOutcome.refused (by simpa using hrefused)
  · rename_i hallowed
    have hallows : allowsEnqueue cal s input job jobs = true := by simpa using hallowed
    dsimp only
    rcases enqueue_job s.store job (occurrenceKey lib job (readState s input job.name))
        input.now with
      ⟨d, c, hd, hstore⟩ | ⟨c, hnone, hstore⟩
    · rw [hstore]
      exact EnqueueOutcome.existing _ d c hallows rfl hd (congrArg Prod.fst hstore)
    · rw [hstore]
      exact EnqueueOutcome.created _ _ c hallows rfl hnone rfl (congrArg Prod.fst hstore)

section EnqueueDue

variable [Rounding] (lib : Stdlib) (cal : Calendar) (input : Tick) (jobs : List PromptJob)

/-- The jobs of two lists, one behind the other. -/
theorem enqueueDue_append (s : SchedulerState) (left right : List PromptJob) :
    enqueueDue lib cal input jobs s (left ++ right) =
      ((enqueueDue lib cal input jobs (enqueueDue lib cal input jobs s left).1 right).1,
        (enqueueDue lib cal input jobs s left).2 ++
          (enqueueDue lib cal input jobs (enqueueDue lib cal input jobs s left).1 right).2) := by
  induction left generalizing s with
  | nil => rfl
  | cons job rest ih =>
    rw [List.cons_append, enqueueDue, enqueueDue, ih]
    dsimp only
    rw [List.append_assoc]

/-- The jobs that are enqueued are jobs of the list. -/
theorem enqueueDue_mem (s : SchedulerState) (rest : List PromptJob) (e : Enqueued)
    (he : e ∈ (enqueueDue lib cal input jobs s rest).2) : e.job ∈ rest := by
  induction rest generalizing s with
  | nil => exact nomatch he
  | cons job rest ih =>
    rw [enqueueDue] at he
    dsimp only at he
    rcases List.mem_append.mp he with hfirst | hlater
    · have houtcome := enqueue_outcome lib cal s input job jobs
      generalize enqueueIfDue lib cal s input job jobs = outcome at houtcome hfirst
      cases houtcome with
      | refused h => exact nomatch hfirst
      | existing key d c h hkey hd hstore =>
        rw [Option.toList_some, List.mem_singleton] at hfirst
        rw [hfirst]
        exact List.mem_cons_self
      | created key d c h hkey hnone hd hstore =>
        rw [Option.toList_some, List.mem_singleton] at hfirst
        rw [hfirst]
        exact List.mem_cons_self
    · exact List.mem_cons_of_mem _ (ih _ hlater)

/-- An invariant of the jobs' turns. -/
theorem enqueueDue_keeps {P : SchedulerState → Prop} (rest : List PromptJob)
    (hstep : ∀ s, ∀ job ∈ rest, P s → P (enqueueIfDue lib cal s input job jobs).1)
    (s : SchedulerState) (h : P s) : P (enqueueDue lib cal input jobs s rest).1 := by
  induction rest generalizing s with
  | nil => exact h
  | cons job rest ih =>
    exact ih (fun s' j hj => hstep s' j (List.mem_cons_of_mem job hj)) _
      (hstep s job List.mem_cons_self h)

end EnqueueDue

def turn [Rounding] (lib : Stdlib) (cal : Calendar) (s : SchedulerState) (input : Tick)
    (name : String) : SchedulerState :=
  (enqueueDue lib cal input (tickJobs s input) (prepareTick cal s input)
    ((tickJobs s input).takeWhile fun job => decide (job.name ≠ name))).1

section Turns

variable (lib : Stdlib) (cal : Calendar) (s : SchedulerState) (input : Tick)

theorem tickJobs_names : ((tickJobs s input).map PromptJob.name).Nodup := by
  unfold tickJobs
  split
  · have hperm : (loadJobs s.jobs).Perm s.jobs.rows := List.perm_insertionSort _ _
    exact (hperm.map PromptJob.name).nodup_iff.mpr s.jobs.nodup
  · exact List.nodup_nil

/-- A tick comes to each job once. -/
theorem tickJobs_split {job : PromptJob} (hjob : job ∈ tickJobs s input) :
    ∃ after, tickJobs s input =
        ((tickJobs s input).takeWhile fun other => decide (other.name ≠ job.name)) ++ job :: after ∧
      ∀ other ∈ after, other.name ≠ job.name := by
  have hnames := tickJobs_names s input
  generalize tickJobs s input = jobs at hjob hnames
  induction jobs with
  | nil => exact nomatch hjob
  | cons first rest ih =>
    rw [List.map_cons, List.nodup_cons] at hnames
    by_cases hfirst : first.name = job.name
    · have hsame : first = job := by
        rcases List.mem_cons.mp hjob with hhead | hrest
        · exact hhead.symm
        · rw [hfirst] at hnames
          exact absurd (List.mem_map_of_mem hrest) hnames.1
      refine ⟨rest, ?_, ?_⟩
      · rw [List.takeWhile_cons_of_neg (by simpa using hfirst), hsame]
        rfl
      · intro other hother hname
        apply hnames.1
        rw [hfirst, ← hname]
        exact List.mem_map_of_mem hother
    · have hrest : job ∈ rest := by
        rcases List.mem_cons.mp hjob with hhead | hrest
        · exact absurd (congrArg PromptJob.name hhead).symm hfirst
        · exact hrest
      obtain ⟨after, hsplit, hafter⟩ := ih hrest hnames.2
      refine ⟨after, ?_, hafter⟩
      rw [List.takeWhile_cons_of_pos (by simpa using hfirst), List.cons_append, ← hsplit]

/-- A tick is the turn of one job between the turns of the others. -/
theorem tick_split [Rounding] {job : PromptJob} (hjob : job ∈ tickJobs s input) :
    ∃ before after, (∀ e ∈ before, e.job.name ≠ job.name) ∧
      (∀ other ∈ after, other.name ≠ job.name) ∧
      tick lib cal s input =
        ((enqueueDue lib cal input (tickJobs s input)
          (enqueueIfDue lib cal (turn lib cal s input job.name) input job (tickJobs s input)).1
          after).1,
        before ++ ((enqueueIfDue lib cal (turn lib cal s input job.name) input job
          (tickJobs s input)).2.toList ++ (enqueueDue lib cal input (tickJobs s input)
            (enqueueIfDue lib cal (turn lib cal s input job.name) input job (tickJobs s input)).1
            after).2)) := by
  obtain ⟨after, hsplit, hafter⟩ := tickJobs_split s input hjob
  refine ⟨(enqueueDue lib cal input (tickJobs s input) (prepareTick cal s input)
    ((tickJobs s input).takeWhile fun other => decide (other.name ≠ job.name))).2, after, ?_,
    hafter, ?_⟩
  · intro e he
    have hbefore := List.mem_takeWhile_imp (enqueueDue_mem lib cal input _ _ _ e he)
    exact of_decide_eq_true hbefore
  · unfold tick
    conv_lhs => rw [show enqueueDue lib cal input (tickJobs s input) (prepareTick cal s input)
      (tickJobs s input) = enqueueDue lib cal input (tickJobs s input) (prepareTick cal s input)
        (_ ++ job :: after) from congrArg _ hsplit]
    rw [enqueueDue_append]
    rfl

/-- The entry of a job is what its turn gives. -/
theorem tick_entry [Rounding] {job : PromptJob} (hjob : job ∈ tickJobs s input) (e : Enqueued) :
    (e ∈ (tick lib cal s input).2 ∧ e.job.name = job.name) ↔
      (enqueueIfDue lib cal (turn lib cal s input job.name) input job (tickJobs s input)).2 =
        some e := by
  obtain ⟨before, after, hbefore, hafter, htick⟩ := tick_split lib cal s input hjob
  have houtcome := enqueue_outcome lib cal (turn lib cal s input job.name) input job
      (tickJobs s input)
  have hname : ∀ e' ∈ (enqueueIfDue lib cal (turn lib cal s input job.name) input job
      (tickJobs s input)).2, e'.job.name = job.name := by
    intro e' he'
    generalize enqueueIfDue lib cal (turn lib cal s input job.name) input job
      (tickJobs s input) = outcome at houtcome he'
    cases houtcome with
    | refused h => exact nomatch he'
    | existing key d c h hkey hd hstore =>
      rw [← Option.mem_some.mp he']
    | created key d c h hkey hnone hd hstore =>
      rw [← Option.mem_some.mp he']
  rw [htick, List.mem_append, List.mem_append, Option.mem_toList]
  constructor
  · rintro ⟨he | he | he, hsame⟩
    · exact absurd hsame (hbefore e he)
    · exact he
    · exact absurd hsame (hafter _ (enqueueDue_mem lib cal input _ _ _ e he))
  · intro he
    exact ⟨Or.inr (Or.inl he), hname e he⟩

end Turns

end Prompta.Scheduler
