import Prompta.JobDeliveries

/-!
Jobs of one group are to have one pending delivery between them. A tick looks for the
pending deliveries of a group through the jobs that are defined, while a delivery lives
on when its job is removed or edited; as long as the tick still finds the deliveries of
the group, there is one at most.
-/
namespace Prompta.MutexGroups

open Relation Runs Tables Texts DisplayBlocks Schema ResponseStore DeliveryQueue Service Jobs
  SchedulerPolicy Scheduler JobSteps JobDeliveries

/-- The scheduler with a record of the jobs, as they were when a delivery was created. -/
structure Journal where
  scheduler : SchedulerState
  made : List Enqueued

def Journal.empty : Journal := ⟨SchedulerState.empty, []⟩

def journalStep (lib : Stdlib) (cal : Calendar) (j : Journal) (call : SchedulerCall) :
    Journal × List Enqueued :=
  let outcome := schedulerStep lib cal j.scheduler call
  (⟨outcome.1, j.made ++ outcome.2.filter Enqueued.created⟩, outcome.2)

def IsPending (s : SchedulerState) (sendId : String) : Prop :=
  ∃ d, s.store.queue.lookup sendId = some d ∧ d.status.isPending = true

/-- Two deliveries created for one group are not pending at a time. -/
def Exclusive (j : Journal) : Prop :=
  ∀ e ∈ j.made, ∀ e' ∈ j.made, e.job.mutexGroup ≠ "" → e.job.mutexGroup = e'.job.mutexGroup →
    IsPending j.scheduler e.sendId → IsPending j.scheduler e'.sendId → e.sendId = e'.sendId

def journalTurn (lib : Stdlib) (cal : Calendar) (j : Journal) (input : Tick)
    (before : List PromptJob) : Journal :=
  let reached := enqueueDue lib cal input (tickJobs j.scheduler input)
    (prepareTick cal j.scheduler input) before
  ⟨reached.1, j.made ++ reached.2.filter Enqueued.created⟩

def Adds (lib : Stdlib) (cal : Calendar) (s : SchedulerState) (input : Tick) (job : PromptJob)
    (jobs : List PromptJob) : Prop :=
  allowsEnqueue cal s input job jobs = true ∧
    existingDelivery s.store.queue
      (scheduledRecord job (occurrenceKey lib job (readState s input job.name))) = none

/-- When a tick adds a delivery for a group, it finds the pending ones of the group: each
is the last delivery of a job that is defined with the group, or of the job itself. -/
def Watched (lib : Stdlib) (cal : Calendar) (j : Journal) (call : SchedulerCall) : Prop :=
  ∀ input, call = .tick input → ∀ before job after,
    tickJobs j.scheduler input = before ++ job :: after → job.mutexGroup ≠ "" →
      Adds lib cal (journalTurn lib cal j input before).scheduler input job
        (tickJobs j.scheduler input) →
      ∀ e ∈ (journalTurn lib cal j input before).made, e.job.mutexGroup = job.mutexGroup →
        IsPending (journalTurn lib cal j input before).scheduler e.sendId →
          ∃ other ∈ tickJobs j.scheduler input,
            (other = job ∨ other.mutexGroup = job.mutexGroup) ∧
            (readState (journalTurn lib cal j input before).scheduler input
              other.name).lastDeliverySendId = e.sendId

/-- Every delivery of the record has a row. -/
def Present (j : Journal) : Prop :=
  ∀ e ∈ j.made, e.sendId ≠ "" ∧ j.scheduler.store.queue.lookup e.sendId ≠ none

section Steps

variable {lib : Stdlib} {cal : Calendar}

theorem pending_or_terminal (status : DeliveryStatus) :
    status.isPending = true ∨ status.isTerminal = true := by
  cases status <;> simp [DeliveryStatus.isPending, DeliveryStatus.isWaiting,
    DeliveryStatus.isTerminal]

theorem pending_not_terminal {status : DeliveryStatus} (h : status.isPending = true) :
    status.isTerminal = false := by
  cases status <;> simp_all [DeliveryStatus.isPending, DeliveryStatus.isWaiting,
    DeliveryStatus.isTerminal]

/-- What was settled stays settled. -/
theorem steps_pending {name : String} {start : SchedulerState} {call : SchedulerCall}
    {v v' : JobView} (h : ReflTransGen (JobStep lib cal name start call) v v') {sendId : String}
    (hrow : v.store.queue.lookup sendId ≠ none)
    (hpending : ∃ d, v'.store.queue.lookup sendId = some d ∧ d.status.isPending = true) :
    ∃ d, v.store.queue.lookup sendId = some d ∧ d.status.isPending = true := by
  obtain ⟨d, hd⟩ := Option.ne_none_iff_exists'.mp hrow
  rcases pending_or_terminal d.status with hstill | hterminal
  · exact ⟨d, hd, hstill⟩
  · obtain ⟨d₁, hd₁, hterminal₁⟩ := reflTransGen_keeps
      (P := fun v => ∃ d, v.store.queue.lookup sendId = some d ∧ d.status.isTerminal = true)
      (fun _ _ hstep hv => terminal_later hstep hv) h ⟨d, hd, hterminal⟩
    obtain ⟨d₂, hd₂, hpending₂⟩ := hpending
    rw [hd₁] at hd₂
    obtain rfl := Option.some.inj hd₂
    rw [pending_not_terminal hpending₂] at hterminal₁
    exact Bool.noConfusion hterminal₁

/-- No step of a job takes a row out of the queue. -/
theorem steps_present {name : String} {start : SchedulerState} {call : SchedulerCall}
    {v v' : JobView} (h : ReflTransGen (JobStep lib cal name start call) v v') {sendId : String}
    (hrow : v.store.queue.lookup sendId ≠ none) : v'.store.queue.lookup sendId ≠ none := by
  refine reflTransGen_keeps (P := fun v => v.store.queue.lookup sendId ≠ none) ?_ h hrow
  intro a b hab ha
  obtain ⟨d, hd⟩ := Option.ne_none_iff_exists'.mp ha
  obtain ⟨d', hd', _⟩ := row_later hab hd
  rw [hd']
  exact Option.some_ne_none d'

/-- Steps that add nothing to the record keep the exclusion. -/
theorem quiet_exclusive {name : String} {start : SchedulerState} {call : SchedulerCall}
    {made : List Time} {made' : List Time} {s s' : SchedulerState} {entries : List Enqueued}
    (h : ReflTransGen (JobStep lib cal name start call) (view s made name) (view s' made' name))
    (hpresent : Present ⟨s, entries⟩) (hexclusive : Exclusive ⟨s, entries⟩) :
    Present ⟨s', entries⟩ ∧ Exclusive ⟨s', entries⟩ := by
  constructor
  · intro e he
    exact ⟨(hpresent e he).1, steps_present h (hpresent e he).2⟩
  · intro e he e' he' hgroup hsame hpending hpending'
    exact hexclusive e he e' he' hgroup hsame (steps_pending h (hpresent e he).2 hpending)
      (steps_pending h (hpresent e' he').2 hpending')

/-- A job that is allowed is not held back by a delivery that the tick finds. -/
theorem allowed_unwatched {s : SchedulerState} {input : Tick} {job other : PromptJob}
    {jobs : List PromptJob} {sendId : String} (hallows : allowsEnqueue cal s input job jobs = true)
    (hnames : (jobs.map PromptJob.name).Nodup) (hjob : job ∈ jobs) (hother : other ∈ jobs)
    (hgroup : job.mutexGroup ≠ "") (hwatch : other = job ∨ other.mutexGroup = job.mutexGroup)
    (hlast : (readState s input other.name).lastDeliverySendId = sendId) (hid : sendId ≠ "") :
    ¬ IsPending s sendId := by
  rintro ⟨d, hd, hpending⟩
  have hfound : (pendingReceipt s (readState s input other.name)).isSome = true := by
    unfold pendingReceipt
    rw [hlast, if_neg hid, hd, Option.filter_some, if_pos hpending]
    rfl
  unfold allowsEnqueue shouldEnqueueJob at hallows
  simp only [Bool.and_eq_true, Bool.not_eq_true', Bool.or_eq_false_iff] at hallows
  obtain ⟨⟨hbusy, _⟩, _, hnone⟩ := hallows
  by_cases hname : other.name = job.name
  · have hsame : other = job := List.inj_on_of_nodup_map hnames hother hjob hname
    rw [hsame, hnone] at hfound
    exact Bool.noConfusion hfound
  · have hmember : other.mutexGroup = job.mutexGroup := by
      rcases hwatch with rfl | hmember
      · exact absurd rfl hname
      · exact hmember
    unfold mutexGroupBusy at hbusy
    rw [Bool.and_eq_false_iff, decide_eq_false_iff_not, List.any_eq_false] at hbusy
    rcases hbusy with hempty | hnone'
    · exact hempty hgroup
    · refine hnone' other hother ?_
      simp only [Bool.and_eq_true, decide_eq_true_eq]
      exact ⟨⟨hname, hmember⟩, hfound⟩

theorem recorded_store (s : SchedulerState) (job : PromptJob) (store : Store)
    (receipt : Delivery) (key : String) (now : Time) :
    (removeOneTime (recordPendingMetadata lib { s with store := store } job receipt key now)
      job).store = store := by
  unfold removeOneTime recordPendingMetadata
  split <;> rfl

section Created

variable {s left : SchedulerState} {made : List Enqueued} {job : PromptJob} {d : Delivery}
  (hleft : left.store.queue = s.store.queue.insertNew d)
  (hrow : s.store.queue.lookup d.sendId = none) (hpresent : Present ⟨s, made⟩)

include hleft hrow hpresent

/-- The new row is none of those of the record. -/
theorem created_kept : ∀ e ∈ made,
    left.store.queue.lookup e.sendId = s.store.queue.lookup e.sendId := by
  intro e he
  rw [hleft]
  refine Table.lookup_insertNew_ne _ _ fun hsame => ?_
  rw [← hsame] at hrow
  exact (hpresent e he).2 hrow

theorem created_present (hid : d.sendId ≠ "") :
    Present ⟨left, made ++ [⟨job, d.sendId, true⟩]⟩ := by
  intro e he
  dsimp only at he ⊢
  rcases List.mem_append.mp he with hearlier | hnew
  · rw [created_kept hleft hrow hpresent e hearlier]
    exact hpresent e hearlier
  · rw [List.mem_singleton] at hnew
    rw [hnew, hleft]
    refine ⟨hid, ?_⟩
    dsimp only
    rw [Table.lookup_insertNew_self hrow]
    exact Option.some_ne_none d

theorem created_exclusive (hexclusive : Exclusive ⟨s, made⟩)
    (hfree : job.mutexGroup ≠ "" → ∀ e ∈ made, e.job.mutexGroup = job.mutexGroup →
      ¬ IsPending s e.sendId) :
    Exclusive ⟨left, made ++ [⟨job, d.sendId, true⟩]⟩ := by
  have hbefore : ∀ e ∈ made, IsPending left e.sendId → IsPending s e.sendId := by
    intro e he hpending
    unfold IsPending at hpending ⊢
    rw [created_kept hleft hrow hpresent e he] at hpending
    exact hpending
  intro e he e' he' hgroup hsame hpending hpending'
  dsimp only at he he' hpending hpending'
  rcases List.mem_append.mp he with hearlier | hnew
  · rcases List.mem_append.mp he' with hearlier' | hnew'
    · exact hexclusive e hearlier e' hearlier' hgroup hsame (hbefore e hearlier hpending)
        (hbefore e' hearlier' hpending')
    · rw [List.mem_singleton] at hnew'
      subst hnew'
      exact absurd (hbefore e hearlier hpending) (hfree (hsame ▸ hgroup) e hearlier hsame)
  · rw [List.mem_singleton] at hnew
    subst hnew
    rcases List.mem_append.mp he' with hearlier' | hnew'
    · exact absurd (hbefore e' hearlier' hpending') (hfree hgroup e' hearlier' hsame.symm)
    · rw [List.mem_singleton] at hnew'
      rw [hnew']

end Created

/-- The turn of a job keeps the exclusion, if it adds no delivery beside a pending one. -/
theorem turn_exclusive (s : SchedulerState) (made : List Enqueued) (input : Tick) (job : PromptJob)
    (jobs : List PromptJob) (hpresent : Present ⟨s, made⟩) (hexclusive : Exclusive ⟨s, made⟩)
    (hfree : job.mutexGroup ≠ "" → Adds lib cal s input job jobs → ∀ e ∈ made,
      e.job.mutexGroup = job.mutexGroup → ¬ IsPending s e.sendId) :
    Present ⟨(enqueueIfDue lib cal s input job jobs).1,
        made ++ (enqueueIfDue lib cal s input job jobs).2.toList.filter Enqueued.created⟩ ∧
      Exclusive ⟨(enqueueIfDue lib cal s input job jobs).1,
        made ++ (enqueueIfDue lib cal s input job jobs).2.toList.filter Enqueued.created⟩ := by
  have houtcome := enqueue_outcome lib cal s input job jobs
  generalize enqueueIfDue lib cal s input job jobs = outcome at houtcome ⊢
  cases houtcome with
  | refused h =>
    rw [Option.toList_none, List.filter_nil, List.append_nil]
    exact ⟨hpresent, hexclusive⟩
  | existing key d c h hkey hd _ =>
    have hnone : List.filter Enqueued.created
        (some (⟨job, d.sendId, false⟩ : Enqueued)).toList = [] :=
      rfl
    dsimp only
    rw [hnone, List.append_nil]
    constructor
    · unfold Present
      dsimp only
      rw [recorded_store]
      exact hpresent
    · unfold Exclusive IsPending
      dsimp only
      rw [recorded_store]
      exact hexclusive
  | created key d c h hkey hnone hd _ =>
    subst hkey
    have hentry : List.filter Enqueued.created (some (⟨job, d.sendId, true⟩ : Enqueued)).toList =
        [⟨job, d.sendId, true⟩] := rfl
    have hid : d.sendId = scheduledSendId (occurrenceKey lib job (readState s input job.name)) := by
      rw [hd]
      rfl
    have hrow : s.store.queue.lookup d.sendId = none := by
      rw [hid]
      exact (Option.or_eq_none_iff.mp hnone).1
    have hnamed : d.sendId ≠ "" := by
      rw [hid]
      intro hempty
      have htext := congrArg String.toList hempty
      rw [scheduledSendId, String.toList_append] at htext
      cases htext
    have hleft := congrArg Store.queue (@recorded_store lib s job
      ⟨s.store.queue.insertNew d, c⟩ d (occurrenceKey lib job (readState s input job.name))
        input.now)
    dsimp only
    rw [hentry]
    exact ⟨created_present hleft hrow hpresent hnamed,
      created_exclusive hleft hrow hpresent hexclusive fun hgroup => hfree hgroup ⟨h, hnone⟩⟩

/-- The exclusion holds between the turns of a tick. -/
theorem turns_exclusive {j : Journal} {input : Tick} (hC : Watched lib cal j (.tick input))
    (hpresent : Present j) (hexclusive : Exclusive j) (before after : List PromptJob)
    (hjobs : tickJobs j.scheduler input = before ++ after) :
    Present (journalTurn lib cal j input before) ∧
      Exclusive (journalTurn lib cal j input before) := by
  induction before using List.reverseRecOn generalizing after with
  | nil =>
    have hsteps := (reconciled_steps lib cal "" j.scheduler input []).trans
      (prepareTick_rest lib cal "" j.scheduler input [])
    have hprepared := quiet_exclusive hsteps hpresent hexclusive
    unfold journalTurn enqueueDue
    dsimp only
    rw [List.filter_nil, List.append_nil]
    exact hprepared
  | append_singleton before job ih =>
    have hsplit : tickJobs j.scheduler input = before ++ job :: after := by
      rw [hjobs, List.append_assoc]
      rfl
    obtain ⟨hpresent', hexclusive'⟩ := ih (job :: after) hsplit
    have hnames := tickJobs_names j.scheduler input
    have hjob : job ∈ tickJobs j.scheduler input := by
      rw [hsplit]
      exact List.mem_append_right before List.mem_cons_self
    have hfree : job.mutexGroup ≠ "" →
        Adds lib cal (journalTurn lib cal j input before).scheduler input job
          (tickJobs j.scheduler input) → ∀ e ∈ (journalTurn lib cal j input before).made,
            e.job.mutexGroup = job.mutexGroup →
              ¬ IsPending (journalTurn lib cal j input before).scheduler e.sendId := by
      intro hgroup hadds e he hsame hpending
      obtain ⟨other, hother, hwatch, hlast⟩ :=
        hC input rfl before job after hsplit hgroup hadds e he
        hsame hpending
      exact allowed_unwatched hadds.1 hnames hjob hother hgroup hwatch hlast (hpresent' e he).1
        hpending
    have hturn := turn_exclusive _ _ input job (tickJobs j.scheduler input) hpresent'
        hexclusive' hfree
    unfold journalTurn at hturn ⊢
    rw [enqueueDue_append]
    dsimp only at hturn ⊢
    rw [enqueueDue, enqueueDue]
    dsimp only
    rw [List.append_nil, List.filter_append, ← List.append_assoc]
    exact hturn

/-- A new delivery comes when no other one of its group is pending. -/
theorem journal_step {j : Journal} {call : SchedulerCall} (hC : Watched lib cal j call)
    (hpresent : Present j) (hexclusive : Exclusive j) :
    Present (journalStep lib cal j call).1 ∧ Exclusive (journalStep lib cal j call).1 := by
  have hquiet : (schedulerStep lib cal j.scheduler call).2 = [] →
      Present (journalStep lib cal j call).1 ∧ Exclusive (journalStep lib cal j call).1 := by
    intro hnone
    have hsteps := history_steps lib cal "" ⟨j.scheduler, fun _ => []⟩ call
    unfold journalStep
    dsimp only
    rw [hnone, List.filter_nil, List.append_nil]
    exact quiet_exclusive hsteps hpresent hexclusive
  cases call with
  | tick input =>
    exact turns_exclusive hC hpresent hexclusive (tickJobs j.scheduler input) []
      (List.append_nil _).symm
  | service call hcall => exact hquiet rfl
  | manual request answers now => exact hquiet rfl
  | addJob command available now => exact hquiet rfl
  | fireNow name requestId now => exact hquiet rfl
  | setJobPaused name paused now => exact hquiet rfl

end Steps

/-- In a run whose ticks find the pending deliveries of a group, one delivery of the group
is pending at most. -/
theorem groups_exclusive (lib : Stdlib) (cal : Calendar) (run : List SchedulerCall)
    (hrun : Meets (journalStep lib cal) (Watched lib cal) Journal.empty run) :
    Exclusive (final (journalStep lib cal) Journal.empty run) := by
  have hinvariant : Present (final (journalStep lib cal) Journal.empty run) ∧
      Exclusive (final (journalStep lib cal) Journal.empty run) := by
    refine meets_invariant (journalStep lib cal) (Watched lib cal)
      (fun j => Present j ∧ Exclusive j) ?_ Journal.empty ⟨nofun, nofun⟩ run hrun
    intro j call hC hj
    exact journal_step hC hj.1 hj.2
  exact hinvariant.2

/-- Turns that enqueue nothing or find an empty record. -/
theorem watched_of_turns {lib : Stdlib} {cal : Calendar} {j : Journal} {input : Tick}
    (h : ∀ i < (tickJobs j.scheduler input).length,
      (journalTurn lib cal j input ((tickJobs j.scheduler input).take i)).made.isEmpty = true ∨
        ∀ job ∈ (tickJobs j.scheduler input)[i]?, allowsEnqueue cal
          (journalTurn lib cal j input ((tickJobs j.scheduler input).take i)).scheduler input job
          (tickJobs j.scheduler input) = false) : Watched lib cal j (.tick input) := by
  intro input' hcall before job after hsplit _ hadds e he _ _
  cases hcall
  have hindex : before.length < (tickJobs j.scheduler input).length := by
    rw [hsplit, List.length_append, List.length_cons]
    omega
  have htake : (tickJobs j.scheduler input).take before.length = before := by
    rw [hsplit, List.take_left]
  have hget : (tickJobs j.scheduler input)[before.length]? = some job := by
    rw [hsplit, List.getElem?_append_right (le_refl _), Nat.sub_self]
    rfl
  rcases h before.length hindex with hempty | hrefused
  · rw [htake, List.isEmpty_iff] at hempty
    rw [hempty] at he
    exact nomatch he
  · have hrefuses := hrefused job hget
    rw [htake, hadds.1] at hrefuses
    exact Bool.noConfusion hrefuses

theorem watched_quiet {lib : Stdlib} {cal : Calendar} {j : Journal} {call : SchedulerCall}
    (h : ∀ input, call ≠ .tick input) : Watched lib cal j call := by
  intro input hcall
  exact absurd hcall (h input)

def groupCommand (name : String) (prompt : Text) (hname : stripName name = name)
    (hprompt : strip prompt = prompt) : AddJob where
  name := name
  prompt := prompt
  mutexGroup := some "repo"
  intervalMinutes := some 10
  name_valid := hname
  prompt_valid := hprompt
  interval_valid := reviewCommand.interval_valid
  delay_valid := reviewCommand.delay_valid
  cadence := reviewCommand.cadence
  daily := reviewCommand.daily

def reviewRepo : AddJob :=
  groupCommand "review" ['r', 'e', 'v', 'i', 'e', 'w'] reviewCommand.name_valid
    reviewCommand.prompt_valid

def shipRepo : AddJob :=
  groupCommand "release" ['s', 'h', 'i', 'p'] shipOnce.name_valid shipOnce.prompt_valid

def releaseOnce : AddJob where
  name := "release"
  prompt := ['s', 'h', 'i', 'p']
  schedule := .once
  mutexGroup := some "repo"
  name_valid := shipOnce.name_valid
  prompt_valid := shipOnce.prompt_valid
  interval_valid := shipOnce.interval_valid
  delay_valid := shipOnce.delay_valid
  cadence := shipOnce.cadence
  daily := shipOnce.daily

/-- The first job of the group is enqueued and the other one waits for it. -/
theorem group_waits :
    Exclusive (final (journalStep keyLib utcCalendar) Journal.empty
      [.addJob shipRepo (fun _ => true) 100, .addJob reviewRepo (fun _ => true) 100,
        .tick { now := 200 }, .tick { now := 210 }]) := by
  refine groups_exclusive keyLib utcCalendar _ ⟨watched_quiet nofun, watched_quiet nofun,
    watched_of_turns ?_, watched_of_turns ?_, trivial⟩
  all_goals decide +kernel

/-- The one-time job is gone when the second tick looks for its delivery. -/
def releasedScheduler : Journal :=
  final (journalStep keyLib utcCalendar) Journal.empty
    [.addJob releaseOnce (fun _ => true) 100, .addJob reviewRepo (fun _ => true) 100,
      .tick { now := 200 }, .tick { now := 210 }]

/-- Two deliveries of the group wait at a time. -/
theorem removed_job_unwatched : ¬ Exclusive releasedScheduler := by
  have hboth : ∃ e ∈ releasedScheduler.made, ∃ e' ∈ releasedScheduler.made,
      e.job.mutexGroup = "repo" ∧ e'.job.mutexGroup = "repo" ∧ e.sendId ≠ e'.sendId ∧
        (releasedScheduler.scheduler.store.queue.lookup e.sendId).any
          (fun d => d.status.isPending) = true ∧
        (releasedScheduler.scheduler.store.queue.lookup e'.sendId).any
          (fun d => d.status.isPending) = true := by decide +kernel
  obtain ⟨e, he, e', he', hgroup, hgroup', hdifferent, hpending, hpending'⟩ := hboth
  rw [Option.any_eq_true] at hpending hpending'
  intro hexclusive
  refine hdifferent (hexclusive e he e' he' ?_ (hgroup.trans hgroup'.symm) hpending hpending')
  rw [hgroup]
  decide

end Prompta.MutexGroups
