import Prompta.DueTimes

/-!
A daily job is sent for a new occurrence of its time of day. Its due times are such
occurrences as long as they were computed for the present time of day. An edit forgets
the due time and not the failed delivery, and a receipt brings the due time of the
definition that the delivery was enqueued with.
-/
namespace Prompta.DailyOccurrences

open Relation Runs Tables Texts DisplayBlocks Schema ResponseStore DeliveryQueue ManualQueue Service
  Jobs SchedulerPolicy Scheduler JobSteps JobDeliveries DueTimes

/-- Every day has the time of day of the day before, later than all of that day. -/
structure FixedDays (cal : Calendar) : Prop where
  occurs : ∀ dailyAt t, ∃ t', cal.atTime dailyAt t' = cal.nextDay (cal.atTime dailyAt t)
  later : ∀ dailyAt t, t < cal.nextDay (cal.atTime dailyAt t)

def IsOccurrence (cal : Calendar) (dailyAt : DailyAt) (x : Time) : Prop :=
  ∃ t, cal.atTime dailyAt t = x

/-- An occurrence up to now that is later than all the given times. -/
def HasNewOccurrence (cal : Calendar) (dailyAt : DailyAt) (made : List Time) (now : Time) : Prop :=
  ∃ x, IsOccurrence cal dailyAt x ∧ x ≤ now ∧ ∀ last ∈ made, last < x

/-- Whenever a tick creates a delivery of a daily job, there is an occurrence that is
later than all deliveries before. -/
def FiresOnOccurrences (lib : Stdlib) (cal : Calendar) (name : String)
    (run : List SchedulerCall) : Prop :=
  ∀ earlier input later, run = earlier ++ .tick input :: later →
    let h := final (historyStep lib cal) History.empty earlier
    ∀ e ∈ (tick lib cal h.scheduler input).2, e.created = true → e.job.name = name →
      e.job.runAtEpoch = none → ∀ dailyAt ∈ e.job.dailyAt,
        HasNewOccurrence cal dailyAt (h.made name) input.now

/-- The due time that the state gives belongs to the time of day: the next one after a
delivery for the same time of day, or the first one, or the one after a success. -/
def OwnDueTime (dailyAt : DailyAt) (state : JobState) : Prop :=
  (0 < state.nextDueAtEpoch ∧ state.pendingDeliveryDailyAt = some dailyAt ∧
      state.lastCompletedDeliverySendId = state.lastDeliverySendId) ∨
    (¬ 0 < state.nextDueAtEpoch ∧ 0 < state.initialDueAtEpoch ∧ state.lastEnqueuedAt = 0) ∨
    (¬ 0 < state.nextDueAtEpoch ∧ 0 < state.lastEnqueuedAt ∧
      state.lastEnqueuedAt ≤ state.lastSentAt)

instance (dailyAt : DailyAt) (state : JobState) : Decidable (OwnDueTime dailyAt state) :=
  inferInstanceAs (Decidable (_ ∨ _ ∨ _))

/-- What a call meets. A tick that comes to enqueue the job goes by a due time of its
present time of day, and it finds no older delivery under the key than the last one. A
removed job is not defined again at the very time of its deliveries. -/
structure Punctual (lib : Stdlib) (cal : Calendar) (name : String) (h : History)
    (call : SchedulerCall) :
    Prop where
  readable : Readable name call
  due : ∀ input, call = .tick input → ∀ job ∈ tickJobs h.scheduler input, job.name = name →
    job.runAtEpoch = none →
    allowsEnqueue cal (turn lib cal h.scheduler input name) input job
      (tickJobs h.scheduler input) = true →
      ∀ dailyAt ∈ job.dailyAt,
        OwnDueTime dailyAt (jobState (turn lib cal h.scheduler input name).states name)
  newest : ∀ input, call = .tick input → ∀ job ∈ tickJobs h.scheduler input, job.name = name →
    job.runAtEpoch = none →
    allowsEnqueue cal (turn lib cal h.scheduler input name) input job
      (tickJobs h.scheduler input) = true →
      ∀ d ∈ existingDelivery (turn lib cal h.scheduler input name).store.queue (scheduledRecord job
          (occurrenceKey lib job (jobState (turn lib cal h.scheduler input name).states name))),
        0 < (jobState (turn lib cal h.scheduler input name).states name).lastEnqueuedAt ∧
          (jobState (turn lib cal h.scheduler input name).states name).lastEnqueuedAt ≤ d.createdAt
  redefined : ∀ command available now, call = .addJob command available now → command.name = name →
    h.scheduler.jobs.lookup name = none → ∀ last ∈ h.made name, last < now

section Calendars

variable {cal : Calendar} {dailyAt : DailyAt}

theorem nextDaily_occurs (hdays : FixedDays cal) (t : Time) (include_now : Bool) :
    IsOccurrence cal dailyAt (nextDailyEpoch cal dailyAt t include_now) := by
  unfold nextDailyEpoch
  dsimp only
  split
  · exact hdays.occurs dailyAt t
  · exact ⟨t, rfl⟩

theorem nextDaily_later (hdays : FixedDays cal) (t : Time) :
    t < nextDailyEpoch cal dailyAt t false := by
  unfold nextDailyEpoch
  dsimp only
  split
  · exact hdays.later dailyAt t
  · rename_i hcandidate
    rw [not_or, not_lt] at hcandidate
    rcases lt_or_eq_of_le hcandidate.1 with hlt | heq
    · exact hlt
    · exact absurd ⟨heq.symm, rfl⟩ hcandidate.2

theorem nextDaily_from (hdays : FixedDays cal) (t : Time) :
    t ≤ nextDailyEpoch cal dailyAt t true := by
  unfold nextDailyEpoch
  dsimp only
  split
  · exact (hdays.later dailyAt t).le
  · rename_i hcandidate
    rw [not_or, not_lt] at hcandidate
    exact hcandidate.1

theorem utcCalendar_fixedDays : FixedDays utcCalendar := by
  constructor
  · intro dailyAt t
    refine ⟨t + 86400, ?_⟩
    unfold utcCalendar
    dsimp only
    have hfloor : ⌊(t + 86400) / 86400⌋ = ⌊t / 86400⌋ + 1 := by
      rw [← Int.floor_add_one]
      congr 1
      ring
    rw [hfloor]
    push_cast
    ring
  · intro dailyAt t
    unfold utcCalendar
    dsimp only
    have hfloor := Int.lt_floor_add_one (t / 86400)
    have hhour : (0 : Time) ≤ (dailyAt.hour : ℕ) := Nat.cast_nonneg _
    have hminute : (0 : Time) ≤ (dailyAt.minute : ℕ) := Nat.cast_nonneg _
    have hday : t < (⌊t / 86400⌋ : ℤ) * 86400 + 86400 := by linarith
    linarith

end Calendars

/-- What the state of the job says of the deliveries that were created for it. -/
structure Marked (cal : Calendar) (t : Time) (v : JobView) : Prop where
  clocked : Clocked t v
  made : ∀ last ∈ v.made, last ≤ t
  latest : v.job ≠ none → ∀ last ∈ v.made,
    last ≤ v.state.lastEnqueuedAt ∨ (v.state.lastEnqueuedAt = 0 ∧ last < t)
  last : v.job ≠ none → v.state.lastDeliverySendId ≠ "" →
    ∃ d, v.store.queue.lookup v.state.lastDeliverySendId = some d ∧
      d.createdAt = v.state.lastEnqueuedAt
  completed : v.state.lastCompletedDeliverySendId ≠ "" →
    ∃ d, v.store.queue.lookup v.state.lastCompletedDeliverySendId = some d
  next : ∀ job, v.job = some job → job.runAtEpoch = none → ∀ dailyAt ∈ job.dailyAt,
    0 < v.state.nextDueAtEpoch → v.state.pendingDeliveryDailyAt = some dailyAt →
      v.state.lastCompletedDeliverySendId = v.state.lastDeliverySendId →
        IsOccurrence cal dailyAt v.state.nextDueAtEpoch ∧
          ∀ last ∈ v.made, last < v.state.nextDueAtEpoch
  first : ∀ job, v.job = some job → job.runAtEpoch = none → ∀ dailyAt ∈ job.dailyAt,
    v.state.lastEnqueuedAt = 0 → 0 < v.state.initialDueAtEpoch →
      IsOccurrence cal dailyAt v.state.initialDueAtEpoch ∧
        ∀ last ∈ v.made, last < v.state.initialDueAtEpoch

theorem Marked.mono {cal : Calendar} {t t' : Time} {v : JobView} (htime : t ≤ t')
    (h : Marked cal t v) :
    Marked cal t' v where
  clocked := h.clocked.mono htime
  made last hlast := (h.made last hlast).trans htime
  latest hjob last hlast :=
    (h.latest hjob last hlast).imp_right fun hearly => ⟨hearly.1, lt_of_lt_of_le hearly.2 htime⟩
  last := h.last
  completed := h.completed
  next := h.next
  first := h.first

section Steps

variable {lib : Stdlib} {cal : Calendar} {name : String} {h : History} {call : SchedulerCall}
  {v v' : JobView}

/-- A receipt of a daily delivery brings the next occurrence after it. -/
theorem scheduledDue_daily {state : JobState} {completed jitter : Time} {dailyAt : DailyAt}
    (hdaily : state.pendingDeliveryDailyAt = some dailyAt)
    (hdue : 0 < scheduledDue cal state completed jitter) :
    scheduledDue cal state completed jitter = nextDailyEpoch cal dailyAt completed false := by
  have hother : ¬ (state.pendingDeliveryOneTime = false ∧ state.pendingDeliveryDailyAt = none ∧
      0 < state.lastManualFireAtEpoch) := by
    rintro ⟨_, hnone, _⟩
    rw [hdaily] at hnone
    cases hnone
  unfold scheduledDue nextDueAt at hdue ⊢
  dsimp only at hdue ⊢
  rw [if_neg hother] at hdue ⊢
  rw [hdaily] at hdue ⊢
  by_cases honce : state.pendingDeliveryOneTime = true
  · rw [if_pos honce] at hdue
    exact absurd hdue (lt_irrefl 0)
  · rw [if_neg honce]

theorem turn_name {start : SchedulerState} {input : Tick} {job : PromptJob}
    (hview : v = view (turn lib cal start input name) v.made name) (hjob : v.job = some job) :
    job.name = name := by
  rw [hview] at hjob
  exact Table.lookup_key hjob

theorem cadence_same {job other : PromptJob} (h : jobCadence job = jobCadence other) :
    job.runAtEpoch = other.runAtEpoch ∧ job.dailyAt = other.dailyAt :=
  ⟨congrArg Cadence.runAtEpoch h, congrArg Cadence.dailyAt h⟩

/-- A row keeps the time of its creation. -/
theorem row_created (hstep : JobStep lib cal name h.scheduler call v v') {sendId : String}
    {d : Delivery} (hd : v.store.queue.lookup sendId = some d) :
    ∃ d', v'.store.queue.lookup sendId = some d' ∧ d'.createdAt = d.createdAt := by
  obtain ⟨d', hd', hpath⟩ := row_later hstep hd
  exact ⟨d', hd', reflTransGen_keeps (P := fun r => r.createdAt = d.createdAt)
    (fun a b hab ha => hab.createdAt_eq.trans ha) hpath rfl⟩

theorem Marked.completed_later {t : Time} (hv : Marked cal t v)
    (hstep : JobStep lib cal name h.scheduler call v v')
    (hsame : v'.state.lastCompletedDeliverySendId = v.state.lastCompletedDeliverySendId) :
    v'.state.lastCompletedDeliverySendId ≠ "" →
      ∃ d, v'.store.queue.lookup v'.state.lastCompletedDeliverySendId = some d := by
  intro hid
  rw [hsame] at hid ⊢
  obtain ⟨d, hd⟩ := hv.completed hid
  obtain ⟨d', hd', _⟩ := row_created hstep hd
  exact ⟨d', hd'⟩

/-- The due time after a receipt is an occurrence behind the delivery. -/
theorem marked_reconciled {t : Time} (hdays : FixedDays cal) (hv : Marked cal t v) (input : Tick)
    (hclocked : Clocked t
      { v with state := (reconcileState cal v.store.queue input ⟨name, v.state⟩).state }) :
    Marked cal t
      { v with state := (reconcileState cal v.store.queue input ⟨name, v.state⟩).state } := by
  rcases reconciled_cases cal v.store.queue input name v.state with ⟨hsame, _⟩ |
    ⟨d, jitter, hd, hterminal, hid, hnew, hstate⟩
  · rw [hsame]
    exact hv
  have hkey : d.sendId = v.state.lastDeliverySendId := Table.lookup_key hd
  have hdated := hv.clocked.rows d (Table.lookup_mem hd)
  obtain ⟨hafter, hbefore⟩ := hdated.completed input.now
  rw [hstate, receipt_taken (by rwa [hkey]) (by rwa [hkey])] at hclocked ⊢
  refine ⟨hclocked, hv.made, hv.latest, hv.last, ?_, ?_, ?_⟩
  · intro _
    exact ⟨d, by rw [hkey]; exact hd⟩
  · intro job hjob hrun dailyAt hdaily hnext hpending htaken
    dsimp only at hnext hpending ⊢
    have hsome : v.job ≠ none := by
      rw [hjob]
      exact Option.some_ne_none job
    rw [scheduledDue_daily hpending hnext]
    refine ⟨nextDaily_occurs hdays _ _, ?_⟩
    intro last hlast
    obtain ⟨d', hd', hcreated⟩ := hv.last hsome hid
    obtain rfl : d = d' := Option.some.inj (hd.symm.trans hd')
    have hle : last ≤ d.createdAt := by
      rcases hv.latest hsome last hlast with hle | ⟨hzero, _⟩
      · rw [hcreated]
        exact hle
      · rw [hzero] at hcreated
        exact absurd hcreated hdated.positive.ne'
    exact lt_of_le_of_lt (hle.trans hafter) (nextDaily_later hdays _)
  · intro job hjob hrun dailyAt hdaily hzero hinitial
    exact absurd hinitial (lt_irrefl 0)

/-- The first due time of a daily job is an occurrence from now on. -/
theorem marked_initial {input : Tick} (hdays : FixedDays cal) (hnow : 0 < input.now)
    (hv : Marked cal input.now v) {job : PromptJob} {jitter dueAt : Time} (hjob : v.job = some job)
    (hdue : initialDueAt cal job v.state input.now jitter = some dueAt)
    (hclocked : Clocked input.now
      { v with state := { v.state with initialDueAtEpoch := dueAt } }) :
    Marked cal input.now { v with state := { v.state with initialDueAtEpoch := dueAt } } := by
  refine ⟨hclocked, hv.made, hv.latest, hv.last, hv.completed, hv.next, ?_⟩
  intro other hother hrun dailyAt hdaily hzero hinitial
  obtain rfl : job = other := Option.some.inj (hjob.symm.trans hother)
  have hdueAt : dueAt = nextDailyEpoch cal dailyAt input.now true := by
    unfold initialDueAt at hdue
    split at hdue
    · cases hdue
    · rw [hrun, Option.mem_def.mp hdaily] at hdue
      exact (Option.some.inj hdue).symm
  dsimp only at hzero ⊢
  rw [hdueAt]
  refine ⟨nextDaily_occurs hdays _ _, ?_⟩
  intro last hlast
  have hsome : v.job ≠ none := by
    rw [hjob]
    exact Option.some_ne_none job
  have hbefore : last < input.now := by
    rcases hv.latest hsome last hlast with hle | ⟨_, hlt⟩
    · rw [hzero] at hle
      exact lt_of_le_of_lt hle hnow
    · exact hlt
  exact lt_of_lt_of_le hbefore (nextDaily_from hdays _)

/-- A delivery that is met again is the newest one, so its job stays as it was marked. -/
theorem marked_found {t : Time} (hv : Marked cal t v) {job : PromptJob}
    (hdefined : v.job = some job) {d : Delivery} (hmem : d ∈ v.store.queue.rows) {c : Chats}
    {key : String}
    (hnewest : job.runAtEpoch = none →
      0 < v.state.lastEnqueuedAt ∧ v.state.lastEnqueuedAt ≤ d.createdAt)
    (hown : job.runAtEpoch = none → ∀ dailyAt ∈ job.dailyAt, OwnDueTime dailyAt v.state)
    (hclocked : Clocked t ⟨{ v.store with chats := c }, afterEnqueue job,
      pendingDeliveryUpdates lib job d.sendId key d.createdAt v.state, v.made⟩) :
    Marked cal t ⟨{ v.store with chats := c }, afterEnqueue job,
      pendingDeliveryUpdates lib job d.sendId key d.createdAt v.state, v.made⟩ := by
  by_cases honce : job.runAtEpoch.isSome = true
  · have hgone : afterEnqueue job = none := if_pos honce
    rw [hgone] at hclocked ⊢
    exact ⟨hclocked, hv.made, fun hsome => absurd rfl hsome, fun hsome => absurd rfl hsome,
      hv.completed, fun _ hsome => (nomatch hsome), fun _ hsome => (nomatch hsome)⟩
  have hkept : afterEnqueue job = some job := if_neg honce
  have hrun : job.runAtEpoch = none := by simpa using honce
  have hpositive := (hv.clocked.rows d hmem).positive
  obtain ⟨hsent, hlater⟩ := hnewest hrun
  have hsome : v.job ≠ none := by
    rw [hdefined]
    exact Option.some_ne_none job
  rw [hkept] at hclocked ⊢
  refine ⟨hclocked, hv.made, ?_, fun _ _ => ⟨d, Table.lookup_of_mem hmem, rfl⟩, hv.completed,
    ?_, ?_⟩
  · intro _ last hlast
    left
    rcases hv.latest hsome last hlast with hle | ⟨hzero, _⟩
    · exact hle.trans hlater
    · rw [hzero] at hsent
      exact absurd hsent (lt_irrefl 0)
  · intro other hother _ dailyAt hdaily hnext _ _
    obtain rfl : job = other := Option.some.inj hother
    rcases hown hrun dailyAt hdaily with ⟨_, hpending, htaken⟩ | ⟨hnone, _⟩ | ⟨hnone, _⟩
    · exact hv.next job hdefined hrun dailyAt hdaily hnext hpending htaken
    · exact absurd hnext hnone
    · exact absurd hnext hnone
  · intro other hother _ dailyAt hdaily hzero
    exact absurd hzero hpositive.ne'

/-- A new delivery is the last one, and no receipt of it was taken in. -/
theorem marked_created {now : Time} (hnow : 0 < now) (hv : Marked cal now v) {job : PromptJob}
    {d : Delivery} {c : Chats} {key : String} (hid : d.sendId ≠ "") (hcreated : d.createdAt = now)
    (hfree : v.store.queue.lookup d.sendId = none)
    (hcompleted : v.state.lastCompletedDeliverySendId ≠ "" →
      ∃ r, (v.store.queue.insertNew d).lookup v.state.lastCompletedDeliverySendId = some r)
    (hclocked : Clocked now ⟨⟨v.store.queue.insertNew d, c⟩, afterEnqueue job,
      pendingDeliveryUpdates lib job d.sendId key now v.state, v.made ++ [now]⟩) :
    Marked cal now ⟨⟨v.store.queue.insertNew d, c⟩, afterEnqueue job,
      pendingDeliveryUpdates lib job d.sendId key now v.state, v.made ++ [now]⟩ := by
  have hmade : ∀ last ∈ v.made ++ [now], last ≤ now := by
    intro last hlast
    rcases List.mem_append.mp hlast with hold | hnew
    · exact hv.made last hold
    · exact (List.mem_singleton.mp hnew).le
  refine ⟨hclocked, hmade, fun _ last hlast => Or.inl (hmade last hlast), ?_, hcompleted, ?_, ?_⟩
  · intro _ _
    exact ⟨d, Table.lookup_insertNew_self hfree, hcreated⟩
  · intro other _ _ dailyAt _ _ _ htaken
    change v.state.lastCompletedDeliverySendId = d.sendId at htaken
    obtain ⟨r, hr⟩ := hv.completed (htaken ▸ hid)
    rw [htaken, hfree] at hr
    cases hr
  · intro other _ _ dailyAt _ hzero
    exact absurd hzero hnow.ne'

/-- An edit of the same cadence keeps the due times, and one of another takes them away. -/
theorem marked_edited {t : Time} (hv : Marked cal t v) {command : AddJob} {now : Time}
    {old job : PromptJob} (hold : v.job = some old)
    (hcommand : commandJob command (some old) now = .ok job)
    (hclocked : Clocked t ⟨v.store, some job,
      if jobCadence old ≠ commandCadence command (some old) now then resetDue v.state
      else v.state, v.made⟩) :
    Marked cal t ⟨v.store, some job,
      if jobCadence old ≠ commandCadence command (some old) now then resetDue v.state
      else v.state, v.made⟩ := by
  have hsome : v.job ≠ none := by
    rw [hold]
    exact Option.some_ne_none old
  by_cases hchanged : jobCadence old ≠ commandCadence command (some old) now
  · rw [if_pos hchanged] at hclocked ⊢
    exact ⟨hclocked, hv.made, fun _ => hv.latest hsome, fun _ => hv.last hsome, hv.completed,
      fun _ _ _ _ _ hnext => absurd hnext (lt_irrefl 0),
      fun _ _ _ _ _ _ hinitial => absurd hinitial (lt_irrefl 0)⟩
  · rw [if_neg hchanged] at hclocked ⊢
    rw [← commandJob_cadence hcommand] at hchanged
    obtain ⟨hrunSame, hdailySame⟩ := cadence_same (not_not.mp hchanged)
    refine ⟨hclocked, hv.made, fun _ => hv.latest hsome, fun _ => hv.last hsome, hv.completed,
      ?_, ?_⟩
    · intro other hother hrun dailyAt hdaily
      obtain rfl : job = other := Option.some.inj hother
      rw [← hrunSame] at hrun
      rw [← hdailySame] at hdaily
      exact hv.next old hold hrun dailyAt hdaily
    · intro other hother hrun dailyAt hdaily
      obtain rfl : job = other := Option.some.inj hother
      rw [← hrunSame] at hrun
      rw [← hdailySame] at hdaily
      exact hv.first old hold hrun dailyAt hdaily

/-- A manual fire restarts an interval, which no daily job has. -/
theorem marked_fired {t now : Time} (hv : Marked cal t v) {job : PromptJob}
    (hjob : v.job = some job)
    (hinterval : 0 < job.intervalSeconds ∧ job.dailyAt = none ∧ job.runAtEpoch = none)
    (hclocked : Clocked t { v with state := manualFire job now v.state }) :
    Marked cal t { v with state := manualFire job now v.state } := by
  refine ⟨hclocked, hv.made, hv.latest, hv.last, hv.completed, ?_, ?_⟩
  · intro other hother hrun dailyAt hdaily
    obtain rfl : job = other := Option.some.inj (hjob.symm.trans hother)
    rw [hinterval.2.1] at hdaily
    cases hdaily
  · intro other hother hrun dailyAt hdaily hzero hinitial
    exact absurd hinitial (lt_irrefl 0)

/-- A manual fire withdraws the delivery of an interval job, which has no occurrences of a day. -/
theorem marked_superseded {t now : Time} (hv : Marked cal t v) {job : PromptJob}
    (hjob : v.job = some job)
    (hinterval : 0 < job.intervalSeconds ∧ job.dailyAt = none ∧ job.runAtEpoch = none)
    {d : Delivery} (hd : v.store.queue.lookup v.state.lastDeliverySendId = some d)
    (hclocked : Clocked t { v with state := supersede (manualFire job now v.state) }) :
    Marked cal t { v with state := supersede (manualFire job now v.state) } := by
  refine ⟨hclocked, hv.made, hv.latest, hv.last, fun _ => ⟨d, hd⟩, ?_, ?_⟩
  · intro other hother hrun dailyAt hdaily
    obtain rfl : job = other := Option.some.inj (hjob.symm.trans hother)
    rw [hinterval.2.1] at hdaily
    cases hdaily
  · intro other hother hrun dailyAt hdaily hzero hinitial
    exact absurd hinitial (lt_irrefl 0)

/-- One case for each way a call can touch the job. -/
theorem marked_step (hdays : FixedDays cal) (hnow : 0 < call.now)
    (hpunctual : Punctual lib cal name h call)
    (hmade : (∀ input, call ≠ .tick input) → v.made = h.made name)
    (hstep : JobStep lib cal name h.scheduler call v v') (hv : Marked cal call.now v) :
    Marked cal call.now v' := by
  have hclocked := clocked_step hnow hpunctual.readable hstep hv.clocked
  have hcompleted := hv.completed_later hstep
  have hrow : ∀ {sendId d}, v.store.queue.lookup sendId = some d →
      ∃ d', v'.store.queue.lookup sendId = some d' ∧ d'.createdAt = d.createdAt :=
    row_created hstep
  cases hstep with
  | stored store hstore hstart =>
    refine ⟨hclocked, hv.made, hv.latest, ?_, hcompleted rfl, hv.next, hv.first⟩
    intro hjob hid
    obtain ⟨d, hd, hcreated⟩ := hv.last hjob hid
    obtain ⟨d', hd', hsame⟩ := hrow hd
    exact ⟨d', hd', hsame.trans hcreated⟩
  | reconciled input hcall hloads hview => exact marked_reconciled hdays hv input hclocked
  | initial input job dueAt hcall hjob hdue =>
    subst hcall
    rw [seen_readable hpunctual.readable] at hdue
    exact marked_initial hdays hnow hv hjob hdue hclocked
  | found input job d c hcall hjob hview hallows hdue hd hstore =>
    subst hcall
    rw [seen_readable hpunctual.readable] at hd hclocked ⊢
    have hmem := existing_mem hd
    rw [if_neg (hv.clocked.rows d hmem).positive.ne'] at hclocked ⊢
    have hname : job.name = name := turn_name hview hdue.defined
    have hstate : (jobState (turn lib cal h.scheduler input name).states name) = v.state :=
      (congrArg JobView.state hview).symm
    have hqueue : (turn lib cal h.scheduler input name).store = v.store :=
      (congrArg JobView.store hview).symm
    refine marked_found hv hdue.defined hmem ?_ ?_ hclocked
    · intro hrun
      have hnewest := hpunctual.newest input rfl job hjob hname hrun hallows d
      rw [hstate, hqueue] at hnewest
      exact hnewest hd
    · intro hrun
      have hown := hpunctual.due input rfl job hjob hname hrun hallows
      rw [hstate] at hown
      exact hown
  | created input job d c hcall hjob hview hallows hdue hnone hd hstore =>
    subst hcall
    have hfree : v.store.queue.lookup d.sendId = none := by
      rw [hd]
      exact (Option.or_eq_none_iff.mp hnone).1
    have hid : d.sendId ≠ "" := by
      rw [hd]
      exact scheduledSendId_ne _
    have hcreated : d.createdAt = input.now := by
      rw [hd]
      rfl
    exact marked_created hnow hv hid hcreated hfree (hcompleted rfl) hclocked
  | defined command available now job hcall hview hnone hcommand hname =>
    have hlookup : h.scheduler.jobs.lookup name = none := by
      rw [hview] at hnone
      exact hnone
    have hearlier := hpunctual.redefined command available now hcall
      (by rw [← commandJob_name hcommand, hname]) hlookup
    rw [← hmade (by rw [hcall]; exact fun _ hcontra => nomatch hcontra)] at hearlier
    subst hcall
    exact ⟨hclocked, hv.made, fun _ last hlast => Or.inr ⟨rfl, hearlier last hlast⟩,
      fun _ hid => absurd rfl hid, fun hid => absurd rfl hid,
      fun _ _ _ _ _ hnext => absurd hnext (lt_irrefl 0),
      fun _ _ _ _ _ _ hinitial => absurd hinitial (lt_irrefl 0)⟩
  | edited command available now old job hcall hview hold hcommand hname =>
    exact marked_edited hv hold hcommand hclocked
  | fired requestId now job hcall hjob hinterval => exact marked_fired hv hjob hinterval hclocked
  | superseded requestId now job d hcall hjob hinterval hd hcancelled =>
    exact marked_superseded hv hjob hinterval hd hclocked
  | paused flag now hcall hjob =>
    exact ⟨hclocked, hv.made, hv.latest, hv.last, hcompleted rfl, hv.next, hv.first⟩

/-- A job that is due by a due time of its own is sent for a new occurrence. -/
theorem newOccurrence_of_due {t now : Time} {job : PromptJob} {dailyAt : DailyAt}
    (hdays : FixedDays cal)
    (hnow : 0 < now) (htime : t ≤ now) (hv : Marked cal t v) (hjob : v.job = some job)
    (hrun : job.runAtEpoch = none) (hdaily : dailyAt ∈ job.dailyAt)
    (hown : OwnDueTime dailyAt v.state)
    (hdue : isDue cal job v.state now = true) : HasNewOccurrence cal dailyAt v.made now := by
  have hmarker := due_marker hrun hv.clocked htime hnow.le hdue
  rcases hown with ⟨hnext, hpending, htaken⟩ | ⟨hnext, hinitial, hzero⟩ | ⟨hnext, hpositive, hsent⟩
  · obtain ⟨hoccurs, hlater⟩ := hv.next job hjob hrun dailyAt hdaily hnext hpending htaken
    rw [marker_next hrun hv.clocked.known hnext] at hmarker
    exact ⟨_, hoccurs, hmarker, hlater⟩
  · obtain ⟨hoccurs, hlater⟩ := hv.first job hjob hrun dailyAt hdaily hzero hinitial
    rw [marker_initial hrun hv.clocked.known hnext hinitial] at hmarker
    exact ⟨_, hoccurs, hmarker, hlater⟩
  · have hpassed := due_daily hrun hdaily hv.clocked hnext (lt_of_lt_of_le hpositive hsent) hdue
    refine ⟨_, nextDaily_occurs hdays _ _, hpassed, ?_⟩
    intro last hlast
    have hsome : v.job ≠ none := by
      rw [hjob]
      exact Option.some_ne_none job
    have hle : last ≤ v.state.lastEnqueuedAt := by
      rcases hv.latest hsome last hlast with hle | ⟨hzero, _⟩
      · exact hle
      · rw [hzero] at hpositive
        exact absurd hpositive (lt_irrefl 0)
    exact lt_of_le_of_lt (hle.trans hsent) (nextDaily_later hdays _)

end Steps

section Runs

variable {lib : Stdlib} {cal : Calendar} {name : String}

theorem made_kept {start : SchedulerState} {call : SchedulerCall} {v v' : JobView}
    (hcall : ∀ input, call ≠ .tick input) (h : JobStep lib cal name start call v v') :
    v'.made = v.made := by
  cases h with
  | created input job d c htick => exact absurd htick (hcall input)
  | _ => rfl

/-- By induction on the run, with the clock at its end. -/
theorem run_marked (hdays : FixedDays cal) {t : Time} (ht : 0 < t) {run : List SchedulerCall}
    (htime : Nondecreasing SchedulerCall.now t run)
    (hrun : Meets (historyStep lib cal) (Punctual lib cal name) History.empty run) :
    0 < endTime SchedulerCall.now t run ∧ Marked cal (endTime SchedulerCall.now t run)
      ((final (historyStep lib cal) History.empty run).view name) := by
  refine clocked_invariant (historyStep lib cal) (fun a b => a ≤ b) SchedulerCall.now
    (Punctual lib cal name) (fun t h => 0 < t ∧ Marked cal t (h.view name)) ?_ t History.empty
    ⟨ht, ?_⟩ run htime hrun
  · rintro t h call hpunctual hle ⟨hpositive, hmarked⟩
    have hnow : 0 < call.now := lt_of_lt_of_le hpositive hle
    refine ⟨hnow, ?_⟩
    have hkept := reflTransGen_keeps
      (P := fun v => Marked cal call.now v ∧ ((∀ input, call ≠ .tick input) → v.made = h.made name))
      ?_ (history_steps lib cal name h call) ⟨hmarked.mono hle, fun _ => rfl⟩
    · exact hkept.1
    · rintro v v' hstep ⟨hv, hmade⟩
      refine ⟨marked_step hdays hnow hpunctual hmade hstep hv, ?_⟩
      intro hcall
      rw [made_kept hcall hstep]
      exact hmade hcall
  · exact ⟨clocked_empty ht name, fun _ hlast => (nomatch hlast), fun hsome => absurd rfl hsome,
      fun hsome => absurd rfl hsome, fun hid => absurd rfl hid, fun _ hsome => (nomatch hsome),
      fun _ hsome => (nomatch hsome)⟩

/-- A daily job is sent for new occurrences only, as long as it goes by due times of its
present time of day. -/
theorem daily_fires_on_occurrences (lib : Stdlib) (cal : Calendar) (hdays : FixedDays cal)
    (name : String)
    (t : Time) (ht : 0 < t) (run : List SchedulerCall)
    (htime : Nondecreasing SchedulerCall.now t run)
    (hrun : Meets (historyStep lib cal) (Punctual lib cal name) History.empty run) :
    FiresOnOccurrences lib cal name run := by
  rintro earlier input later rfl h e he hcreated rfl honce dailyAt hdaily
  obtain ⟨hbefore, hclock, _⟩ := (timed_append _ _ _ _ _).mp htime
  obtain ⟨hfirst, hpunctual, _⟩ := (meets_append _ _ _ _ _).mp hrun
  obtain ⟨hpositive, hmarked⟩ := run_marked hdays ht hbefore hfirst
  have hnow : 0 < (SchedulerCall.tick input).now := lt_of_lt_of_le hpositive hclock
  have hturn := reflTransGen_keeps (P := Marked cal (SchedulerCall.tick input).now)
    (fun v v' hstep hv => marked_step hdays hnow hpunctual
      (fun hcall => absurd rfl (hcall input)) hstep hv)
    (turn_steps lib cal e.job.name h.scheduler input (h.made e.job.name)) (hmarked.mono hclock)
  have hjob : e.job ∈ tickJobs h.scheduler input := enqueueDue_mem lib cal input _ _ _ e he
  have hallows : allowsEnqueue cal (turn lib cal h.scheduler input e.job.name) input e.job
      (tickJobs h.scheduler input) = true := by
    have hentry := (tick_entry lib cal h.scheduler input hjob e).mp ⟨he, rfl⟩
    by_contra hrefused
    unfold enqueueIfDue at hentry
    rw [if_pos (by simpa using hrefused)] at hentry
    cases hentry
  have hlookup := turn_lookup lib cal input h.scheduler hjob
  have hdueNow : DueNow cal input e.job.name
      (view (turn lib cal h.scheduler input e.job.name) (h.made e.job.name) e.job.name) e.job :=
    dueNow_of_allows hallows hlookup
  have hdue := hdueNow.due
  rw [seen_readable hpunctual.readable] at hdue
  exact newOccurrence_of_due hdays hnow (le_refl _) hturn hlookup honce hdaily
    (hpunctual.due input rfl e.job hjob rfl honce hallows dailyAt hdaily) hdue

end Runs

/-- What a tick needs is known before its turn of the job. -/
theorem punctual_tick {lib : Stdlib} {cal : Calendar} {name : String} {h : History} {input : Tick}
    (hread : input.unread name = false)
    (hturn : ∀ job ∈ tickJobs h.scheduler input, job.name = name → job.runAtEpoch = none →
      allowsEnqueue cal (turn lib cal h.scheduler input name) input job
        (tickJobs h.scheduler input) = true →
        (∀ dailyAt ∈ job.dailyAt,
          OwnDueTime dailyAt (jobState (turn lib cal h.scheduler input name).states name)) ∧
        existingDelivery (turn lib cal h.scheduler input name).store.queue (scheduledRecord job
          (occurrenceKey lib job
            (jobState (turn lib cal h.scheduler input name).states name))) = none) :
    Punctual lib cal name h (.tick input) := by
  constructor
  · intro input' hcall
    cases hcall
    exact hread
  · intro input' hcall job hjob hname hrun hallows
    cases hcall
    exact (hturn job hjob hname hrun hallows).1
  · intro input' hcall job hjob hname hrun hallows d hd
    cases hcall
    rw [(hturn job hjob hname hrun hallows).2] at hd
    cases hd
  · intro command available now hcall
    cases hcall

/-- The other calls need nothing. -/
theorem punctual_quiet {lib : Stdlib} {cal : Calendar} {name : String} {h : History}
    {call : SchedulerCall}
    (htick : ∀ input, call ≠ .tick input)
    (hadd : h.made name = [] ∨ ∀ command available now, call ≠ .addJob command available now) :
    Punctual lib cal name h call := by
  refine ⟨fun input hcall => absurd hcall (htick input), fun input hcall =>
    absurd hcall (htick input), fun input hcall => absurd hcall (htick input), ?_⟩
  intro command available now hcall _ _ last hlast
  rcases hadd with hnone | hother
  · rw [hnone] at hlast
    cases hlast
  · exact absurd hcall (hother command available now)

def reportCommand (dailyAt : DailyAt) : AddJob where
  name := "report"
  prompt := ['r', 'e', 'p', 'o', 'r', 't']
  schedule := .daily
  dailyAt := some dailyAt
  name_valid := by decide +kernel
  prompt_valid := by decide +kernel
  interval_valid := shipOnce.interval_valid
  delay_valid := reviewCommand.delay_valid
  cadence := nofun
  daily := fun _ => rfl

def reportSendId : String :=
  "scheduled-cec8f9b0097ba346639bbb7a2518b15020e8fe2d78dce2c82b317cee3d6bcfc8"

def dailyRun : List SchedulerCall :=
  [.addJob (reportCommand ⟨0, 10⟩) (fun _ => true) 100, .tick { now := 200 }, .tick { now := 700 },
    .service ⟨.queue (.claimNext "worker" 60 false none fun _ => true), 710⟩ rfl,
    .service ⟨.queue (.completeClaim reportSendId "worker"), 720⟩ rfl, .tick { now := 87100 }]

theorem daily_fires_twice :
    (final (historyStep keyLib utcCalendar) History.empty dailyRun).made "report" = [700, 87100] ∧
      FiresOnOccurrences keyLib utcCalendar "report" dailyRun := by
  constructor
  · decide +kernel
  · refine daily_fires_on_occurrences keyLib utcCalendar utcCalendar_fixedDays "report" 1
      (by norm_num)
      dailyRun ?_ ⟨punctual_quiet (fun _ h => nomatch h) (Or.inl rfl), punctual_tick rfl ?_,
        punctual_tick rfl ?_, punctual_quiet (fun _ h => nomatch h)
          (Or.inr fun _ _ _ h => nomatch h),
        punctual_quiet (fun _ h => nomatch h) (Or.inr fun _ _ _ h => nomatch h),
          punctual_tick rfl ?_,
        True.intro⟩
    · simp only [Nondecreasing, dailyRun, Timed, SchedulerCall.now]
      norm_num
    all_goals decide +kernel

/-- The first delivery fails for good, and then the job is moved to eleven in the evening. -/
def movedRun : List SchedulerCall :=
  [.addJob (reportCommand ⟨0, 10⟩) (fun _ => true) 100, .tick { now := 200 }, .tick { now := 700 },
    .service ⟨.queue (.claimNext "worker" 60 false none fun _ => true), 710⟩ rfl,
    .service ⟨.queue (.failClaim reportSendId "worker" .deadLettered "broken" true), 720⟩ rfl,
    .tick { now := 730 }, .addJob (reportCommand ⟨23, 0⟩) (fun _ => true) 740]

/-- The moved job is sent at once, ten seconds after its edit. -/
theorem moved_job_sent_at_once :
    ¬ FiresOnOccurrences keyLib utcCalendar "report" (movedRun ++ [.tick { now := 750 }]) := by
  intro hfires
  have hmade : (final (historyStep keyLib utcCalendar) History.empty movedRun).made "report" =
      [700] := by
    decide +kernel
  have hentries : (tick keyLib utcCalendar
      (final (historyStep keyLib utcCalendar) History.empty movedRun).scheduler
      { now := 750 }).2.map
        (fun e => (e.job.name, e.created, e.job.runAtEpoch, e.job.dailyAt)) =
      [("report", true, none, some ⟨23, 0⟩)] := by decide +kernel
  have hentry : ("report", true, none, some ⟨23, 0⟩) ∈ (tick keyLib utcCalendar
      (final (historyStep keyLib utcCalendar) History.empty movedRun).scheduler
      { now := 750 }).2.map
        (fun e => (e.job.name, e.created, e.job.runAtEpoch, e.job.dailyAt)) := by
    rw [hentries]
    exact List.mem_singleton_self _
  obtain ⟨e, he, hrow⟩ := List.mem_map.mp hentry
  simp only [Prod.mk.injEq] at hrow
  obtain ⟨hname, hcreated, honce, hdaily⟩ := hrow
  obtain ⟨x, ⟨t, rfl⟩, hnow, hlast⟩ :=
    hfires movedRun { now := 750 } [] rfl e he hcreated hname honce ⟨23, 0⟩ hdaily
  rw [hmade] at hlast
  have hafter := hlast 700 (List.mem_singleton_self _)
  change (⌊t / 86400⌋ : Time) * 86400 + (23 : ℕ) * 3600 + (0 : ℕ) * 60 ≤ 750 at hnow
  change 700 < (⌊t / 86400⌋ : Time) * 86400 + (23 : ℕ) * 3600 + (0 : ℕ) * 60 at hafter
  push_cast at hnow hafter
  rcases le_or_gt 0 ⌊t / 86400⌋ with hday | hday
  · have hcast : (0 : Time) ≤ ⌊t / 86400⌋ := by exact_mod_cast hday
    linarith
  · have hcast : (⌊t / 86400⌋ : Time) ≤ -1 := by exact_mod_cast (by omega : ⌊t / 86400⌋ ≤ -1)
    linarith

end Prompta.DailyOccurrences
