import Prompta.DueTimes

/-!
The deliveries of an interval job lie an interval apart. The state remembers the last
dispatch of the job, and the key of the last delivery is the only one that a tick can
meet again. The interval is added to a dispatch in the arithmetic of the host, so it is
kept as long as these sums are not rounded down.
-/
namespace Prompta.IntervalSpacing

open Relation Runs Tables Texts DisplayBlocks Schema ResponseStore DeliveryQueue ManualQueue Service
  Decimals Jobs SchedulerPolicy Scheduler JobSteps JobDeliveries DueTimes Roundings

/-- Every definition that the call saves under the name is this one. -/
def Unchanged [Rounding] (job : PromptJob) (h : History) (call : SchedulerCall) : Prop :=
  ∀ command available now saved, call = .addJob command available now →
    command.name = job.name → commandJob command (h.scheduler.jobs.lookup job.name) now =
      .ok saved →
      saved = job

/-- The sum of the dispatch and the interval is not rounded down. -/
def Reached [Rounding] (job : PromptJob) (dispatch : Time) : Prop :=
  dispatch + job.intervalSeconds ≤ Rounding.round (dispatch + job.intervalSeconds)

/-- A call that leaves the definition of the job as it is, that reads its state without an
error, and whose due times are not rounded down: a tick counts from the last dispatch that
the state remembers, a manual fire from its own time. -/
structure Steady [Rounding] (job : PromptJob) (h : History) (call : SchedulerCall) : Prop where
  unchanged : Unchanged job h call
  readable : Readable job.name call
  enqueued : ∀ input, call = .tick input →
    Reached job (jobState h.scheduler.states job.name).lastEnqueuedAt
  fired : ∀ requestId now, call = .fireNow job.name requestId now → Reached job now

/-- The fire is neither refused nor the repetition of an earlier one. -/
def FireCompletes (lib : Stdlib) (s : SchedulerState) (name requestId : String)
    (now : Time) : Prop :=
  ∃ job, s.jobs.lookup name = some job ∧ s.store.queue.lookup (manualSendId requestId) = none ∧
    ∃ receipt, (enqueueManual lib s.store ⟨requestId, job.prompt, job.images, job.pinChat,
      false⟩ true
      now).2 = .ok receipt

/-- The deliveries that the scheduler creates for the job lie an interval apart, and an
interval behind every manual fire before them. -/
structure KeepsSpacing [Rounding] (lib : Stdlib) (cal : Calendar) (job : PromptJob)
    (run : List SchedulerCall) :
    Prop where
  deliveries : ((final (historyStep lib cal) History.empty run).made job.name).Pairwise
    fun a b => a + job.intervalSeconds ≤ b
  fires : ∀ earlier requestId fire later, run = earlier ++
    .fireNow job.name requestId fire :: later →
    FireCompletes lib (final (historyStep lib cal) History.empty earlier).scheduler
      job.name requestId
      fire →
    ∀ c ∈ ((final (historyStep lib cal) History.empty run).made job.name).drop
        ((final (historyStep lib cal) History.empty earlier).made job.name).length,
      fire + job.intervalSeconds ≤ c

/-- An occurrence of the job under its key, before or at the marker of the next one. -/
structure Placed (job : PromptJob) (state : JobState) (prompt : Text) (n : ℕ) (d : Delivery) :
    Prop where
  prompt_eq : prompt = job.prompt
  marker : n ≤ millionths (occurrenceMarker job state)
  last : n = millionths (occurrenceMarker job state) → d.sendId = state.lastDeliverySendId
  enqueued : n ≤ millionths state.lastEnqueuedAt
  created : d.createdAt ≤ state.lastEnqueuedAt
  latest : d.sendId = state.lastDeliverySendId → d.createdAt = state.lastEnqueuedAt

def AllPlaced (lib : Stdlib) (job : PromptJob) (state : JobState) (queue : Deliveries) : Prop :=
  ∀ d ∈ queue.rows, ∀ prompt n, d.sendId = keySendId lib job.name (lib.sha256 prompt) n →
    Placed job state prompt n d

/-- The job is not defined yet. -/
structure Unsent (lib : Stdlib) (job : PromptJob) (t : Time) (v : JobView) : Prop where
  recorded : AllRecorded lib v.store
  clocked : Clocked t v
  undefined : v.job = none
  rows : ∀ d ∈ v.store.queue.rows, ∀ prompt n, d.sendId ≠ keySendId lib job.name
    (lib.sha256 prompt) n
  made : v.made = []

/-- The job is defined, and its deliveries are spaced. -/
structure Spaced [Rounding] (lib : Stdlib) (job : PromptJob) (t : Time) (v : JobView) : Prop where
  recorded : AllRecorded lib v.store
  clocked : Clocked t v
  defined : v.job = some job
  interval : 6 ≤ job.intervalSeconds
  rounded : Rounding.round job.intervalSeconds = job.intervalSeconds
  placed : AllPlaced lib job v.state v.store.queue
  named : v.state.lastDeliverySendId ≠ "" →
    ∃ n, v.state.lastDeliverySendId = keySendId lib job.name (lib.sha256 job.prompt) n
  pending : v.state.lastDeliverySendId ≠ "" →
    v.state.pendingDeliveryIntervalSeconds = job.intervalSeconds ∧
      v.state.pendingDeliveryDailyAt = none ∧ v.state.pendingDeliveryOneTime = false
  made : v.made.Pairwise fun a b => a + job.intervalSeconds ≤ b
  dispatched : ∀ c ∈ v.made, 0 < c ∧ c ≤ v.state.lastEnqueuedAt

section Steps

variable {lib : Stdlib} {cal : Calendar} {job : PromptJob}

/-- What the rest of the service does to the queue leaves the occurrences of the job where they
were. -/
theorem AllPlaced.stored {now : Time} (hdigest : KeyDigest lib) {state : JobState}
    {queue queue' : Deliveries}
    (hrows : Evolves (RowChange now) (Foreign lib job.name now) queue queue')
    (h : AllPlaced lib job state queue) : AllPlaced lib job state queue' := by
  refine hrows.keeps ?_ ?_ h
  · intro a b hab ha prompt n hid
    rw [hab.sendId_eq] at hid
    have hplaced := ha prompt n hid
    refine ⟨hplaced.prompt_eq, hplaced.marker, ?_, hplaced.enqueued, ?_, ?_⟩
    · rw [hab.sendId_eq]
      exact hplaced.last
    · rw [hab.createdAt_eq]
      exact hplaced.created
    · rw [hab.sendId_eq, hab.createdAt_eq]
      exact hplaced.latest
  · intro a ha prompt n hid
    exact absurd hid (ha.sendId_ne hdigest prompt n)

/-- A marker behind the last dispatch is a new one. -/
theorem AllPlaced.advance {state state' : JobState} {queue : Deliveries}
    (h : AllPlaced lib job state queue) (hinterval : 6 ≤ job.intervalSeconds)
    (henqueued : 0 ≤ state.lastEnqueuedAt)
    (hlast : state'.lastDeliverySendId = state.lastDeliverySendId)
    (hsame : state'.lastEnqueuedAt = state.lastEnqueuedAt)
    (hmarker : state.lastEnqueuedAt + job.intervalSeconds ≤ occurrenceMarker job state') :
    AllPlaced lib job state' queue := by
  intro d hd prompt n hid
  have hplaced := h d hd prompt n hid
  have hlt : millionths state.lastEnqueuedAt < millionths (occurrenceMarker job state') := by
    apply millionths_lt henqueued
    linarith
  have hn : n < millionths (occurrenceMarker job state') := lt_of_le_of_lt hplaced.enqueued hlt
  refine ⟨hplaced.prompt_eq, hn.le, fun h => absurd h hn.ne, ?_, ?_, ?_⟩
  · rw [hsame]
    exact hplaced.enqueued
  · rw [hsame]
    exact hplaced.created
  · rw [hsame, hlast]
    exact hplaced.latest

/-- The times of the state and its named delivery are all that an occurrence depends on. -/
theorem AllPlaced.restate {state state' : JobState} {queue : Deliveries}
    (h : AllPlaced lib job state queue)
    (hmarker : occurrenceMarker job state' = occurrenceMarker job state)
    (hlast : state'.lastDeliverySendId = state.lastDeliverySendId)
    (hsame : state'.lastEnqueuedAt = state.lastEnqueuedAt) : AllPlaced lib job state' queue := by
  intro d hd prompt n hid
  have hplaced := h d hd prompt n hid
  refine ⟨hplaced.prompt_eq, ?_, ?_, ?_, ?_, ?_⟩
  · rw [hmarker]
    exact hplaced.marker
  · rw [hmarker, hlast]
    exact hplaced.last
  · rw [hsame]
    exact hplaced.enqueued
  · rw [hsame]
    exact hplaced.created
  · rw [hlast, hsame]
    exact hplaced.latest

variable [Rounding] {h : History} {call : SchedulerCall} {v v' : JobView}

/-- The job is defined with an empty state. -/
theorem unsent_defined {t : Time} (hrun : job.runAtEpoch = none) (hdaily : job.dailyAt = none)
    (hv : Unsent lib job t v) {command : AddJob} {now : Time}
    (hcommand : commandJob command none now = .ok job)
    (hclocked : Clocked t ⟨v.store, some job, {}, v.made⟩) :
    Spaced lib job t ⟨v.store, some job, {}, v.made⟩ := by
  have hcadence := commandJob_cadence hcommand
  have hleast : 6 ≤ job.intervalSeconds := by
    have hinterval := commandCadence_interval command none now
    rw [← hcadence] at hinterval
    rcases hinterval with ⟨_, _, hleast⟩ | ⟨_, honce | hday⟩
    · exact hleast
    · change job.runAtEpoch.isSome = true at honce
      rw [hrun] at honce
      exact Bool.noConfusion honce
    · change job.dailyAt.isSome = true at hday
      rw [hdaily] at hday
      exact Bool.noConfusion hday
  have hrounded := commandCadence_rounded command none now
  rw [← hcadence] at hrounded
  refine ⟨hv.recorded, hclocked, rfl, hleast, hrounded, ?_, fun h => absurd rfl h,
    fun h => absurd rfl h, ?_, ?_⟩
  · intro d hd prompt n hid
    exact absurd hid (hv.rows d hd prompt n)
  · change v.made.Pairwise _
    rw [hv.made]
    exact List.Pairwise.nil
  · change ∀ c ∈ v.made, _
    rw [hv.made]
    exact fun c hc => nomatch hc

/-- A definition that is saved under the name of the job is the job. -/
theorem saved_unchanged {command : AddJob} {available : String → Bool} {now : Time}
    {existing : Option PromptJob} {saved : PromptJob}
    (hunchanged : Unchanged job h (.addJob command available now))
    (hexisting : h.scheduler.jobs.lookup job.name = existing)
    (hcommand : commandJob command existing now = .ok saved) (hname : saved.name = job.name) :
    saved = job := by
  refine hunchanged command available now saved rfl ?_ ?_
  · rw [← commandJob_name hcommand, hname]
  · rw [hexisting]
    exact hcommand

/-- Before its first delivery the job waits for its first due time. -/
theorem unsent_step (hrun : job.runAtEpoch = none) (hdaily : job.dailyAt = none)
    (hdigest : KeyDigest lib) (hnow : 0 < call.now) (hsteady : Steady job h call)
    (hstep : JobStep lib cal job.name h.scheduler call v v') (hv : Unsent lib job call.now v) :
    Unsent lib job call.now v' ∨ Spaced lib job call.now v' := by
  have hrecorded := jobStep_recorded hstep hv.recorded
  have hclocked := clocked_step hnow hsteady.readable hstep hv.clocked
  have hcontra : ∀ {other}, v.job = some other → False := by
    intro other hother
    rw [hv.undefined] at hother
    cases hother
  cases hstep with
  | stored store hstore hstart =>
    refine Or.inl ⟨hrecorded, hclocked, hv.undefined, ?_, hv.made⟩
    refine (storeStep_evolves hstore).keeps ?_ ?_ hv.rows
    · intro a b hab ha prompt n
      rw [hab.sendId_eq]
      exact ha prompt n
    · intro a ha prompt n
      exact ha.sendId_ne hdigest prompt n
  | reconciled input hcall hloads hview =>
    exact Or.inl ⟨hrecorded, hclocked, hv.undefined, hv.rows, hv.made⟩
  | initial input other dueAt hcall hjob hdue => exact (hcontra hjob).elim
  | found input other d c hcall hjob hview hallows hdue hd hstore =>
    exact (hcontra hdue.defined).elim
  | created input other d c hcall hjob hview hallows hdue hnone hd hstore =>
    exact (hcontra hdue.defined).elim
  | defined command available now saved hcall hview hnone hcommand hname =>
    subst hcall
    have hlookup : h.scheduler.jobs.lookup job.name = none := by
      rw [hview] at hnone
      exact hnone
    obtain rfl := saved_unchanged hsteady.unchanged hlookup hcommand hname
    exact Or.inr (unsent_defined hrun hdaily hv hcommand hclocked)
  | edited command available now old saved hcall hview hold hcommand hname =>
    exact (hcontra hold).elim
  | fired requestId now other hcall hjob hinterval => exact (hcontra hjob).elim
  | superseded requestId now other d hcall hjob hinterval hd hcancelled => exact (hcontra hjob).elim
  | paused flag now hcall hjob => exact absurd hv.undefined hjob

/-- The last delivery was created at the last dispatch. -/
theorem Spaced.lastDelivery {t : Time} (hv : Spaced lib job t v) {d : Delivery}
    (hd : v.store.queue.lookup v.state.lastDeliverySendId = some d) :
    d.createdAt = v.state.lastEnqueuedAt := by
  have hmem := Table.lookup_mem hd
  have hkey : d.sendId = v.state.lastDeliverySendId := Table.lookup_key hd
  obtain ⟨n, hn⟩ := hv.named (hkey ▸ (hv.recorded d hmem).sendId_ne)
  exact (hv.placed d hmem job.prompt n (hkey.trans hn)).latest hkey

/-- The next due time lies an interval behind the last dispatch, and nothing else changes in
what the spacing depends on. -/
theorem Spaced.advance {t : Time} (hv : Spaced lib job t v) (hrun : job.runAtEpoch = none)
    {state : JobState} (hclocked : Clocked t { v with state := state })
    (hlast : state.lastDeliverySendId = v.state.lastDeliverySendId)
    (hsame : state.lastEnqueuedAt = v.state.lastEnqueuedAt)
    (hpending : state.pendingDeliveryIntervalSeconds = v.state.pendingDeliveryIntervalSeconds ∧
      state.pendingDeliveryDailyAt = v.state.pendingDeliveryDailyAt ∧
        state.pendingDeliveryOneTime = v.state.pendingDeliveryOneTime)
    (hdue : v.state.lastEnqueuedAt + job.intervalSeconds ≤ state.nextDueAtEpoch) :
    Spaced lib job t { v with state := state } := by
  have hleast := hv.interval
  have hpositive := hv.clocked.enqueued.1
  have hmarker : occurrenceMarker job state = state.nextDueAtEpoch :=
    marker_next hrun hclocked.known (by linarith)
  refine ⟨hv.recorded, hclocked, hv.defined, hv.interval, hv.rounded, ?_, ?_, ?_, hv.made, ?_⟩
  · refine hv.placed.advance hv.interval hpositive hlast hsame ?_
    rw [hmarker]
    exact hdue
  · change state.lastDeliverySendId ≠ "" → _
    dsimp only
    rw [hlast]
    exact hv.named
  · dsimp only
    rw [hlast, hpending.1, hpending.2.1, hpending.2.2]
    exact hv.pending
  · dsimp only
    rw [hsame]
    exact hv.dispatched

/-- The receipt of the last delivery is taken in. -/
theorem spaced_reconciled {t : Time} (hv : Spaced lib job t v) (hrun : job.runAtEpoch = none)
    (input : Tick) (hreached : Reached job v.state.lastEnqueuedAt)
    (hclocked : Clocked t
      { v with state := (reconcileState cal v.store.queue input ⟨job.name, v.state⟩).state }) :
    Spaced lib job t
      { v with state := (reconcileState cal v.store.queue input ⟨job.name, v.state⟩).state } := by
  rcases reconciled_cases cal v.store.queue input job.name v.state with ⟨hsame, _⟩ |
    ⟨d, jitter, hd, hterminal, hid, hnew, hstate⟩
  · rw [hsame]
    exact hv
  have hkey : d.sendId = v.state.lastDeliverySendId := Table.lookup_key hd
  obtain ⟨hinterval, hpendingDaily, hpendingOnce⟩ := hv.pending hid
  have hdated := hv.clocked.rows d (Table.lookup_mem hd)
  obtain ⟨hafter, _⟩ := hdated.completed input.now
  have hcompleted : 0 ≤ completedAt d input.now := hdated.positive.le.trans hafter
  have hleast := hv.interval
  have hpositive := hv.clocked.enqueued.1
  rw [hv.lastDelivery hd] at hafter
  have hdue : v.state.lastEnqueuedAt + job.intervalSeconds ≤
      scheduledDue cal v.state (completedAt d input.now) jitter := by
    calc v.state.lastEnqueuedAt + job.intervalSeconds
        ≤ Rounding.round (v.state.lastEnqueuedAt + job.intervalSeconds) := hreached
      _ ≤ Rounding.round (completedAt d input.now + job.intervalSeconds) :=
        Rounding.round_mono (by linarith) (by linarith)
      _ ≤ scheduledDue cal v.state (completedAt d input.now) jitter := by
        rw [← hinterval]
        refine scheduledDue_ge hpendingDaily hpendingOnce hcompleted ?_ ?_
        · rw [hinterval]
          linarith
        · rw [hinterval]
          exact hv.rounded
  rw [hstate, receipt_taken (by rwa [hkey]) (by rwa [hkey])] at hclocked ⊢
  exact hv.advance hrun hclocked rfl rfl ⟨rfl, rfl, rfl⟩ hdue

/-- A first due time is only given to a job that was not dispatched yet. -/
theorem spaced_initial {t : Time} (hv : Spaced lib job t v) {other : PromptJob}
    {now jitter dueAt : Time}
    (hdue : initialDueAt cal other v.state now jitter = some dueAt)
    (hclocked : Clocked t { v with state := { v.state with initialDueAtEpoch := dueAt } }) :
    Spaced lib job t { v with state := { v.state with initialDueAtEpoch := dueAt } } := by
  have hempty : v.state.lastEnqueuedAt = 0 := by
    unfold initialDueAt at hdue
    by_contra hmarked
    rw [if_pos] at hdue
    · cases hdue
    · unfold hasMarker
      simp [hmarked]
  refine ⟨hv.recorded, hclocked, hv.defined, hv.interval, hv.rounded, ?_, hv.named, hv.pending,
    hv.made, hv.dispatched⟩
  intro d hd prompt n hid
  have hcreated := (hv.placed d hd prompt n hid).created
  have hpositive := (hv.clocked.rows d hd).positive
  rw [hempty] at hcreated
  exact absurd hcreated (not_le.mpr hpositive)

omit [Rounding] in
theorem afterEnqueue_interval (hrun : job.runAtEpoch = none) : afterEnqueue job = some job := by
  unfold afterEnqueue
  rw [hrun]
  rfl

/-- The only delivery that a tick meets again is the last one. -/
theorem spaced_found {t : Time} (hv : Spaced lib job t v) (hrun : job.runAtEpoch = none)
    (hdaily : job.dailyAt = none) (hdigest : KeyDigest lib) {d : Delivery} {c : Chats} {now : Time}
    (hd : existingDelivery v.store.queue
      (scheduledRecord job (occurrenceKey lib job v.state)) = some d)
    (hclocked : Clocked t ⟨{ v.store with chats := c }, afterEnqueue job,
      pendingDeliveryUpdates lib job d.sendId (occurrenceKey lib job v.state)
        (if d.createdAt = 0 then now else d.createdAt) v.state, v.made⟩) :
    Spaced lib job t ⟨{ v.store with chats := c }, afterEnqueue job,
      pendingDeliveryUpdates lib job d.sendId (occurrenceKey lib job v.state)
        (if d.createdAt = 0 then now else d.createdAt) v.state, v.made⟩ := by
  have hrow := existing_sendId hdigest hv.recorded hd
  have hkey : d.sendId = keySendId lib job.name (lib.sha256 job.prompt)
      (millionths (occurrenceMarker job v.state)) := Table.lookup_key hrow
  have hplaced := hv.placed d (Table.lookup_mem hrow) job.prompt _ hkey
  have hlast := hplaced.last rfl
  have htime : (if d.createdAt = 0 then now else d.createdAt) = v.state.lastEnqueuedAt := by
    rw [if_neg (hv.clocked.rows d (Table.lookup_mem hrow)).positive.ne', hplaced.latest hlast]
  have honce : job.runAtEpoch.isSome = false := by
    rw [hrun]
    rfl
  rw [htime, hlast] at hclocked ⊢
  exact ⟨hv.recorded, hclocked, afterEnqueue_interval hrun, hv.interval, hv.rounded,
    hv.placed.restate rfl rfl rfl, fun _ => ⟨_, hlast.symm.trans hkey⟩,
    fun _ => ⟨rfl, hdaily, honce⟩, hv.made, hv.dispatched⟩

/-- The occurrence of a new delivery comes behind all earlier ones. -/
theorem AllPlaced.created {t now : Time} (hv : Spaced lib job t v) (hdigest : KeyDigest lib)
    {d : Delivery} {c : Chats} {key : String}
    (hid : d.sendId = keySendId lib job.name (lib.sha256 job.prompt)
      (millionths (occurrenceMarker job v.state)))
    (hcreated : d.createdAt = now) (hfree : ∀ r ∈ v.store.queue.rows, r.sendId ≠ d.sendId)
    (hmarker : occurrenceMarker job v.state ≤ now) (henqueued : v.state.lastEnqueuedAt ≤ now) :
    AllPlaced lib job (pendingDeliveryUpdates lib job d.sendId key now v.state)
      (Store.mk (v.store.queue.insertNew d) c).queue := by
  intro r hr prompt n hrid
  rcases Table.mem_insertNew hr with hold | ⟨rfl, _⟩
  · have hplaced := hv.placed r hold prompt n hrid
    refine ⟨hplaced.prompt_eq, hplaced.marker, ?_, ?_, ?_, ?_⟩
    · intro hn
      apply absurd _ (hfree r hold)
      rw [hrid, hid, hplaced.prompt_eq, hn]
      rfl
    · exact hplaced.enqueued.trans (millionths_mono henqueued)
    · exact hplaced.created.trans henqueued
    · exact fun hsame => absurd hsame (hfree r hold)
  · obtain ⟨_, hprompt, hn⟩ := keySendId_inj hdigest (hid.symm.trans hrid)
    refine ⟨hprompt.symm, hn.ge, fun _ => rfl, ?_, hcreated.le, fun _ => hcreated⟩
    rw [← hn]
    exact millionths_mono hmarker

/-- A new delivery comes an interval behind the last dispatch. -/
theorem spaced_created {now : Time} (hv : Spaced lib job now v) (hrun : job.runAtEpoch = none)
    (hdaily : job.dailyAt = none) (hdigest : KeyDigest lib) (hnow : 0 < now)
    (hreached : Reached job v.state.lastEnqueuedAt) (hdue : isDue cal job v.state now = true)
    {d : Delivery} {c : Chats}
    (hnone : existingDelivery v.store.queue
      (scheduledRecord job (occurrenceKey lib job v.state)) = none)
    (hd : d = queuedDelivery v.store.queue
      (scheduledRecord job (occurrenceKey lib job v.state)) now)
    (hrecorded : AllRecorded lib ⟨v.store.queue.insertNew d, c⟩)
    (hclocked : Clocked now ⟨⟨v.store.queue.insertNew d, c⟩, afterEnqueue job,
      pendingDeliveryUpdates lib job d.sendId (occurrenceKey lib job v.state) now v.state,
        v.made ++ [now]⟩) :
    Spaced lib job now ⟨⟨v.store.queue.insertNew d, c⟩, afterEnqueue job,
      pendingDeliveryUpdates lib job d.sendId (occurrenceKey lib job v.state) now v.state,
        v.made ++ [now]⟩ := by
  have hfloor := due_floor hrun hdaily hdue
  have hmarker := due_marker hrun hv.clocked (le_refl _) hnow.le hdue
  have hid : d.sendId = keySendId lib job.name (lib.sha256 job.prompt)
      (millionths (occurrenceMarker job v.state)) := by
    rw [hd]
    rfl
  have hcreated : d.createdAt = now := by
    rw [hd]
    rfl
  have hfree : ∀ r ∈ v.store.queue.rows, r.sendId ≠ d.sendId := by
    rw [hid]
    exact Table.lookup_eq_none_iff.mp (Option.or_eq_none_iff.mp hnone).1
  have honce : job.runAtEpoch.isSome = false := by
    rw [hrun]
    rfl
  refine ⟨hrecorded, hclocked, afterEnqueue_interval hrun, hv.interval, hv.rounded,
    AllPlaced.created hv hdigest hid hcreated hfree hmarker hv.clocked.enqueued.2,
    fun _ => ⟨_, hid⟩, fun _ => ⟨rfl, hdaily, honce⟩, ?_, ?_⟩
  · refine List.pairwise_append.mpr ⟨hv.made, List.pairwise_singleton _ _, ?_⟩
    intro a ha b hb
    obtain ⟨hpositive, hbefore⟩ := hv.dispatched a ha
    rw [List.mem_singleton.mp hb]
    calc a + job.intervalSeconds ≤ v.state.lastEnqueuedAt + job.intervalSeconds := by linarith
      _ ≤ Rounding.round (v.state.lastEnqueuedAt + job.intervalSeconds) := hreached
      _ ≤ intervalFloor job v.state :=
        intervalFloor_ge hrun hdaily (hpositive.trans_le hbefore) (Or.inr (Or.inl le_rfl))
      _ ≤ now := hfloor
  · intro c hc
    rcases List.mem_append.mp hc with hold | hnew
    · obtain ⟨hpositive, hbefore⟩ := hv.dispatched c hold
      exact ⟨hpositive, hbefore.trans hv.clocked.enqueued.2⟩
    · rw [List.mem_singleton.mp hnew]
      exact ⟨hnow, le_refl _⟩

/-- The interval starts anew with a manual fire. -/
theorem fire_due {t now : Time} (hv : Spaced lib job t v) (htime : t ≤ now)
    (hreached : Reached job now) :
    v.state.lastEnqueuedAt + job.intervalSeconds ≤
      Rounding.round (now + job.intervalSeconds) := by
  have hbefore := hv.clocked.enqueued.2.trans htime
  exact le_trans (by linarith) hreached

/-- One case for each way a call can touch the job. -/
theorem spaced_step (hrun : job.runAtEpoch = none) (hdaily : job.dailyAt = none)
    (hdigest : KeyDigest lib) (hnow : 0 < call.now) (hsteady : Steady job h call)
    (hstep : JobStep lib cal job.name h.scheduler call v v') (hv : Spaced lib job call.now v) :
    Spaced lib job call.now v' := by
  have hrecorded := jobStep_recorded hstep hv.recorded
  have hclocked := clocked_step hnow hsteady.readable hstep hv.clocked
  cases hstep with
  | stored store hstore hstart =>
    exact ⟨hrecorded, hclocked, hv.defined, hv.interval, hv.rounded,
      hv.placed.stored hdigest (storeStep_evolves hstore), hv.named, hv.pending, hv.made,
        hv.dispatched⟩
  | reconciled input hcall hloads hview =>
    have hsame : v.state = jobState h.scheduler.states job.name := by
      rw [hview]
      unfold restorePendingOncePriorities
      split <;> rfl
    refine spaced_reconciled hv hrun input ?_ hclocked
    rw [hsame]
    exact hsteady.enqueued input hcall
  | initial input other dueAt hcall hjob hdue =>
    subst hcall
    rw [seen_readable hsteady.readable] at hdue
    exact spaced_initial hv hdue hclocked
  | found input other d c hcall hjob hview hallows hdue hd hstore =>
    subst hcall
    obtain rfl : job = other := Option.some.inj (hv.defined.symm.trans hdue.defined)
    rw [seen_readable hsteady.readable] at hd hclocked ⊢
    exact spaced_found hv hrun hdaily hdigest hd hclocked
  | created input other d c hcall hjob hview hallows hdue hnone hd hstore =>
    subst hcall
    obtain rfl : job = other := Option.some.inj (hv.defined.symm.trans hdue.defined)
    have hreached := hsteady.enqueued input rfl
    rw [← turn_enqueuedAt lib cal job.name h.scheduler input] at hreached
    have hisDue := hdue.due
    rw [seen_readable hsteady.readable] at hd hclocked hnone hisDue ⊢
    refine spaced_created hv hrun hdaily hdigest hnow ?_ hisDue hnone hd hrecorded hclocked
    rw [hview]
    exact hreached
  | defined command available now saved hcall hview hnone hcommand hname =>
    rw [hv.defined] at hnone
    cases hnone
  | edited command available now old saved hcall hview hold hcommand hname =>
    subst hcall
    have hlookup : h.scheduler.jobs.lookup job.name = some old := by
      rw [hview] at hold
      exact hold
    have hsaved := saved_unchanged hsteady.unchanged hlookup hcommand hname
    obtain rfl : job = old := Option.some.inj (hv.defined.symm.trans hold)
    have hcadence := commandJob_cadence hcommand
    rw [hsaved] at hcadence
    rw [if_neg (not_not.mpr hcadence), hsaved] at hclocked ⊢
    exact ⟨hv.recorded, hclocked, rfl, hv.interval, hv.rounded, hv.placed, hv.named, hv.pending,
      hv.made, hv.dispatched⟩
  | fired requestId now other hcall hjob hinterval =>
    have hreached := hsteady.fired requestId now hcall
    subst hcall
    obtain rfl : job = other := Option.some.inj (hv.defined.symm.trans hjob)
    exact hv.advance hrun hclocked rfl rfl ⟨rfl, rfl, rfl⟩ (fire_due hv (le_refl now) hreached)
  | superseded requestId now other d hcall hjob hinterval hd hcancelled =>
    have hreached := hsteady.fired requestId now hcall
    subst hcall
    obtain rfl : job = other := Option.some.inj (hv.defined.symm.trans hjob)
    exact hv.advance hrun hclocked rfl rfl ⟨rfl, rfl, rfl⟩ (fire_due hv (le_refl now) hreached)
  | paused flag now hcall hjob =>
    exact ⟨hrecorded, hclocked, hv.defined, hv.interval, hv.rounded,
      hv.placed.restate rfl rfl rfl, hv.named, hv.pending, hv.made, hv.dispatched⟩

/-- The deliveries that were created since a manual fire keep the interval from it. -/
structure SpacedFrom [Rounding] (lib : Stdlib) (job : PromptJob) (fire : Time) (earlier : ℕ)
    (t : Time) (v : JobView) : Prop where
  spaced : Spaced lib job t v
  positive : 0 < fire
  reached : Reached job fire
  fired : fire ≤ v.state.lastManualFireAtEpoch
  counted : earlier ≤ v.made.length
  later : ∀ c ∈ v.made.drop earlier, fire + job.intervalSeconds ≤ c

/-- Behind a manual fire the next delivery keeps its distance from the fire. -/
theorem spacedFrom_step {fire : Time} {earlier : ℕ} (hrun : job.runAtEpoch = none)
    (hdaily : job.dailyAt = none) (hdigest : KeyDigest lib) (hnow : 0 < call.now)
    (hsteady : Steady job h call) (hstep : JobStep lib cal job.name h.scheduler call v v')
    (hv : SpacedFrom lib job fire earlier call.now v) :
    SpacedFrom lib job fire earlier call.now v' := by
  have hspaced := spaced_step hrun hdaily hdigest hnow hsteady hstep hv.spaced
  have hlate : fire ≤ call.now := hv.fired.trans hv.spaced.clocked.fired.2
  cases hstep with
  | stored store hstore hstart =>
    exact ⟨hspaced, hv.positive, hv.reached, hv.fired, hv.counted, hv.later⟩
  | reconciled input hcall hloads hview =>
    rcases reconciled_cases cal v.store.queue input job.name v.state with ⟨hsame, _⟩ |
      ⟨d, jitter, hd, hterminal, hid, hnew, hstate⟩
    · rw [hsame]
      exact hv
    · have hkey : d.sendId = v.state.lastDeliverySendId := Table.lookup_key hd
      rw [hstate, receipt_taken (by rwa [hkey]) (by rwa [hkey])] at hspaced ⊢
      exact ⟨hspaced, hv.positive, hv.reached, hv.fired, hv.counted, hv.later⟩
  | initial input other dueAt hcall hjob hdue =>
    exact ⟨hspaced, hv.positive, hv.reached, hv.fired, hv.counted, hv.later⟩
  | found input other d c hcall hjob hview hallows hdue hd hstore =>
    exact ⟨hspaced, hv.positive, hv.reached, hv.fired, hv.counted, hv.later⟩
  | created input other d c hcall hjob hview hallows hdue hnone hd hstore =>
    subst hcall
    obtain rfl : job = other := Option.some.inj (hv.spaced.defined.symm.trans hdue.defined)
    have hisDue := hdue.due
    rw [seen_readable hsteady.readable] at hisDue
    have hfloor := due_floor hrun hdaily hisDue
    have hbehind := intervalFloor_ge hrun hdaily hv.positive (Or.inr (Or.inr hv.fired))
    refine ⟨hspaced, hv.positive, hv.reached, hv.fired, ?_, ?_⟩
    · rw [List.length_append]
      exact hv.counted.trans (Nat.le_add_right _ _)
    · intro c hc
      rw [List.drop_append_of_le_length hv.counted] at hc
      rcases List.mem_append.mp hc with hold | hlast
      · exact hv.later c hold
      · rw [List.mem_singleton.mp hlast]
        exact hv.reached.trans (hbehind.trans hfloor)
  | defined command available now saved hcall hview hnone hcommand hname =>
    rw [hv.spaced.defined] at hnone
    cases hnone
  | edited command available now old saved hcall hview hold hcommand hname =>
    refine ⟨hspaced, hv.positive, hv.reached, ?_, hv.counted, hv.later⟩
    dsimp only
    split
    · exact hv.fired
    · exact hv.fired
  | fired requestId now other hcall hjob hinterval =>
    subst hcall
    exact ⟨hspaced, hv.positive, hv.reached, hlate, hv.counted, hv.later⟩
  | superseded requestId now other d hcall hjob hinterval hd hcancelled =>
    subst hcall
    exact ⟨hspaced, hv.positive, hv.reached, hlate, hv.counted, hv.later⟩
  | paused flag now hcall hjob =>
    exact ⟨hspaced, hv.positive, hv.reached, hv.fired, hv.counted, hv.later⟩

end Steps

section Runs

variable {lib : Stdlib} {cal : Calendar} {job : PromptJob}

theorem Unsent.mono {t t' : Time} {v : JobView} (htime : t ≤ t') (h : Unsent lib job t v) :
    Unsent lib job t' v := ⟨h.recorded, h.clocked.mono htime, h.undefined, h.rows, h.made⟩

theorem Spaced.mono [Rounding] {t t' : Time} {v : JobView} (htime : t ≤ t')
    (h : Spaced lib job t v) : Spaced lib job t' v :=
  ⟨h.recorded, h.clocked.mono htime, h.defined, h.interval, h.rounded, h.placed, h.named,
    h.pending, h.made, h.dispatched⟩

theorem SpacedFrom.mono [Rounding] {fire t t' : Time} {earlier : ℕ} {v : JobView} (htime : t ≤ t')
    (h : SpacedFrom lib job fire earlier t v) : SpacedFrom lib job fire earlier t' v :=
  ⟨h.spaced.mono htime, h.positive, h.reached, h.fired, h.counted, h.later⟩

/-- The job is spaced in every state that a run of steady calls reaches. -/
theorem run_spaced [Rounding] (hrun : job.runAtEpoch = none) (hdaily : job.dailyAt = none)
    (hdigest : KeyDigest lib) {t : Time} (ht : 0 < t) {run : List SchedulerCall}
    (htime : Nondecreasing SchedulerCall.now t run)
    (hsteady : Meets (historyStep lib cal) (Steady job) History.empty run) :
    0 < endTime SchedulerCall.now t run ∧
      (Unsent lib job (endTime SchedulerCall.now t run)
          ((final (historyStep lib cal) History.empty run).view job.name) ∨
        Spaced lib job (endTime SchedulerCall.now t run)
          ((final (historyStep lib cal) History.empty run).view job.name)) := by
  refine history_invariant lib cal job.name (Steady job)
    (fun t v => 0 < t ∧ (Unsent lib job t v ∨ Spaced lib job t v)) ?_ ?_ t History.empty
    ⟨ht, Or.inl ?_⟩
    run htime hsteady
  · rintro t t' v hle ⟨hpositive, hv⟩
    exact ⟨lt_of_lt_of_le hpositive hle, hv.imp (Unsent.mono hle) (Spaced.mono hle)⟩
  · rintro h call v v' hC hstep ⟨hpositive, hv⟩
    refine ⟨hpositive, ?_⟩
    rcases hv with hv | hv
    · exact unsent_step hrun hdaily hdigest hpositive hC hstep hv
    · exact Or.inr (spaced_step hrun hdaily hdigest hpositive hC hstep hv)
  · exact ⟨fun _ hd => (nomatch hd), clocked_empty ht job.name, rfl, fun _ hd => (nomatch hd), rfl⟩

/-- A completed fire is remembered. -/
theorem fire_recorded [Rounding] {s : SchedulerState} {requestId : String} {now : Time}
    (hrun : job.runAtEpoch = none) (hdaily : job.dailyAt = none)
    (hinterval : 0 < job.intervalSeconds)
    (hjob : s.jobs.lookup job.name = some job) (h : FireCompletes lib s job.name requestId now) :
    (jobState (fireNow lib s job.name requestId now).states job.name).lastManualFireAtEpoch
    = now := by
  obtain ⟨other, hother, hfresh, receipt, hreceipt⟩ := h
  obtain rfl : job = other := Option.some.inj (hjob.symm.trans hother)
  unfold fireNow
  rw [hjob]
  dsimp only
  rw [hfresh]
  dsimp only
  unfold fireJobNow
  generalize enqueueManual lib s.store ⟨requestId, job.prompt, job.images, job.pinChat, false⟩ true
    now = outcome at hreceipt
  obtain ⟨store, outcome⟩ := outcome
  dsimp only at hreceipt
  subst hreceipt
  dsimp only
  rw [if_pos ⟨hinterval, hdaily, hrun⟩, jobState_update, if_pos rfl]
  split_ifs <;> rfl

/-- An interval job whose definition does not change keeps its interval, as long as the
ticks can read its state. -/
theorem deliveries_spaced [Rounding] (hdigest : KeyDigest lib) (hrun : job.runAtEpoch = none)
    (hdaily : job.dailyAt = none) (t : Time) (ht : 0 < t) (run : List SchedulerCall)
    (htime : Nondecreasing SchedulerCall.now t run)
    (hsteady : Meets (historyStep lib cal) (Steady job) History.empty run) :
    KeepsSpacing lib cal job run := by
  constructor
  · obtain ⟨_, hunsent | hspaced⟩ := run_spaced hrun hdaily hdigest ht htime hsteady
    · have hmade : (final (historyStep lib cal) History.empty run).made job.name = [] :=
        hunsent.made
      rw [hmade]
      exact List.Pairwise.nil
    · exact hspaced.made
  · rintro earlier requestId fire later rfl hcompletes
    obtain ⟨hbefore, hclock, hafter⟩ := (timed_append _ _ _ _ _).mp htime
    obtain ⟨hfirst, hsteadyFire, hrest⟩ := (meets_append _ _ _ _ _).mp hsteady
    obtain ⟨hpositive, hstate⟩ := run_spaced hrun hdaily hdigest ht hbefore hfirst
    have hfire : 0 < fire := lt_of_lt_of_le hpositive hclock
    rw [final_append]
    generalize final (historyStep lib cal) History.empty earlier = h at *
    rcases hstate with hunsent | hspaced
    · obtain ⟨other, hother, _⟩ := hcompletes
      have hnone : h.scheduler.jobs.lookup job.name = none := hunsent.undefined
      rw [hnone] at hother
      cases hother
    · have hinterval := hspaced.interval
      have hrecorded := fire_recorded hrun hdaily (by linarith) hspaced.defined hcompletes
      have hpost : Spaced lib job fire
          ((historyStep lib cal h (.fireNow job.name requestId fire)).1.view job.name) := by
        refine reflTransGen_keeps (P := Spaced lib job fire) ?_
          (history_steps lib cal job.name h (.fireNow job.name requestId fire))
          (hspaced.mono hclock)
        intro v v' hstep hv
        have hnow : 0 < (SchedulerCall.fireNow job.name requestId fire).now := hfire
        exact spaced_step hrun hdaily hdigest hnow hsteadyFire hstep hv
      have hmade : (historyStep lib cal h (.fireNow job.name requestId fire)).1.made job.name =
          h.made job.name := List.append_nil _
      have hfrom : SpacedFrom lib job fire (h.made job.name).length fire
          ((historyStep lib cal h (.fireNow job.name requestId fire)).1.view job.name) := by
        refine ⟨hpost, hfire, hsteadyFire.fired requestId fire rfl, hrecorded.ge, ?_, ?_⟩
        · exact (congrArg List.length hmade).ge
        · change ∀ c ∈ ((historyStep lib cal h (.fireNow job.name requestId fire)).1.made
            job.name).drop (h.made job.name).length, _
          rw [hmade, List.drop_length]
          exact fun c hc => nomatch hc
      have hlater := history_invariant lib cal job.name (Steady job)
        (fun t v => 0 < t ∧ SpacedFrom lib job fire (h.made job.name).length t v) ?_ ?_ fire _
        ⟨hfire, hfrom⟩ later hafter hrest
      · exact hlater.2.later
      · rintro t t' v hle ⟨hpos, hv⟩
        exact ⟨lt_of_lt_of_le hpos hle, hv.mono hle⟩
      · rintro h' call v v' hC hstep ⟨hpos, hv⟩
        exact ⟨hpos, spacedFrom_step hrun hdaily hdigest hpos hC hstep hv⟩

end Runs

def firedRun : List SchedulerCall :=
  [.addJob reviewCommand (fun _ => true) 100, .tick { now := 200 },
    .fireNow "review" "0123456789abcdef0123456789abcdef" 250, .tick { now := 840 },
      .tick { now := 860 }]

section Samples

variable [Rounding]

theorem unchanged_defined {command : AddJob} {job : PromptJob} {h : History}
    {available : String → Bool} {now : Time}
    (hjob : commandJob command none now = .ok job)
    (hnone : h.scheduler.jobs.lookup job.name = none) :
    Unchanged job h (.addJob command available now) := by
  intro command' available' now' saved hcall _ hcommand
  cases hcall
  rw [hnone, hjob] at hcommand
  exact (Except.ok.inj hcommand).symm

theorem unchanged_quiet {job : PromptJob} {h : History} {call : SchedulerCall}
    (hcall : ∀ command available now, call ≠ .addJob command available now) :
    Unchanged job h call := by
  intro command available now saved hedit
  exact absurd hedit (hcall command available now)

theorem steady_tick {job : PromptJob} {h : History} {input : Tick}
    (hread : input.unread job.name = false)
    (hreached : Reached job (jobState h.scheduler.states job.name).lastEnqueuedAt) :
    Steady job h (.tick input) := by
  refine ⟨unchanged_quiet (fun _ _ _ h => nomatch h), ?_, fun _ _ => hreached,
    (fun _ _ h => nomatch h)⟩
  intro input' hcall
  cases hcall
  exact hread

/-- A first definition is steady: there is no other one to change. -/
theorem steady_defined {command : AddJob} {job : PromptJob} {h : History}
    {available : String → Bool} {now : Time}
    (hjob : commandJob command none now = .ok job)
    (hnone : h.scheduler.jobs.lookup job.name = none) :
    Steady job h (.addJob command available now) :=
  ⟨unchanged_defined hjob hnone, (fun _ h => nomatch h), (fun _ h => nomatch h),
    (fun _ _ h => nomatch h)⟩

theorem steady_fired {job : PromptJob} {h : History} {requestId : String} {now : Time}
    (hreached : Reached job now) : Steady job h (.fireNow job.name requestId now) := by
  refine ⟨unchanged_quiet (fun _ _ _ h => nomatch h), (fun _ h => nomatch h),
    (fun _ h => nomatch h), ?_⟩
  intro requestId' now' hcall
  cases hcall
  exact hreached

end Samples

/-- The scheduler with the arithmetic of the doubles. -/
abbrev doubleStep (h : History) (call : SchedulerCall) : History × List Enqueued :=
  @historyStep doubles keyLib utcCalendar h call

theorem firedRun_steady : Meets doubleStep (@Steady doubles reviewJob) History.empty firedRun := by
  refine ⟨?_, ?_, ?_, ?_, ?_, trivial⟩
  · exact @steady_defined doubles _ _ _ _ _ (@reviewCommand_job doubles _) rfl
  · exact @steady_tick doubles _ _ _ rfl (by unfold Reached; decide +kernel)
  · exact @steady_fired doubles _ _ _ _ (by unfold Reached; decide +kernel)
  · exact @steady_tick doubles _ _ _ rfl (by unfold Reached; decide +kernel)
  · exact @steady_tick doubles _ _ _ rfl (by unfold Reached; decide +kernel)

theorem deliveries_spaced_fired :
    (final doubleStep History.empty firedRun).made "review" = [200, 860] ∧
      @KeepsSpacing doubles keyLib utcCalendar reviewJob firedRun := by
  constructor
  · decide +kernel
  · have htime : Nondecreasing SchedulerCall.now 1 firedRun := by
      simp only [Nondecreasing, firedRun, Timed, SchedulerCall.now]
      norm_num
    exact @deliveries_spaced keyLib utcCalendar reviewJob doubles keyLib_digest rfl rfl 1
      (by norm_num) firedRun htime firedRun_steady

def unreadRun : List SchedulerCall :=
  [.addJob reviewCommand (fun _ => true) 100, .tick { now := 200 },
    .tick { now := 210, unread := fun _ => true }]

def quickCommand : AddJob where
  name := "review"
  prompt := ['r', 'e', 'v', 'i', 'e', 'w']
  intervalMinutes := some (7926335344172073 / 2 ^ 56)
  name_valid := reviewCommand.name_valid
  prompt_valid := reviewCommand.prompt_valid
  interval_valid := by decide +kernel
  delay_valid := reviewCommand.delay_valid
  cadence := reviewCommand.cadence
  daily := reviewCommand.daily

def quickJob : PromptJob where
  name := "review"
  prompt := ['r', 'e', 'v', 'i', 'e', 'w']
  intervalSeconds := 3715469692580659 / 2 ^ 49
  name_present := reviewJob.name_present
  prompt_present := reviewJob.prompt_present
  interval_nonneg := by decide +kernel
  run_positive := reviewJob.run_positive
  images_valid := reviewJob.images_valid

/-- A manual fire at 1700000000, and the tick at the double that is nearest to 1700000006.6. -/
def roundedRun : List SchedulerCall :=
  [.addJob quickCommand (fun _ => true) 1600000000,
    .fireNow "review" "0123456789abcdef0123456789abcdef" 1700000000,
      .tick { now := 3565158413841203 / 2 ^ 21 }]

theorem quickCommand_job (now : Time) :
    @commandJob doubles quickCommand none now = .ok quickJob := by
  have hsame : @commandJob doubles quickCommand none now =
      @commandJob doubles quickCommand none 0 := rfl
  rw [hsame]
  decide +kernel

theorem quiet_run {job : PromptJob} {h : History} {call : SchedulerCall}
    (hedit : ∀ command available now, call ≠ .addJob command available now)
    (hread : ∀ input, call = .tick input → input.unread job.name = false) :
    @Unchanged doubles job h call ∧ Readable job.name call :=
  ⟨@unchanged_quiet doubles _ _ _ hedit, hread⟩

/-- The failing read brings the next delivery ten seconds after the first one. -/
theorem unread_early :
    Nondecreasing SchedulerCall.now 1 unreadRun ∧
      Meets doubleStep (@Unchanged doubles reviewJob) History.empty unreadRun ∧
        ¬ @KeepsSpacing doubles keyLib utcCalendar reviewJob unreadRun := by
  have hquiet : ∀ h input, @Unchanged doubles reviewJob h (.tick input) := by
    intro h input
    exact @unchanged_quiet doubles _ _ _ fun _ _ _ h => nomatch h
  refine ⟨?_, ⟨@unchanged_defined doubles _ _ _ _ _ (@reviewCommand_job doubles _) rfl,
    hquiet _ _, hquiet _ _, trivial⟩, ?_⟩
  · simp only [Nondecreasing, unreadRun, Timed, SchedulerCall.now]
    norm_num
  · rintro ⟨hpair, _⟩
    have hmade : (final doubleStep History.empty unreadRun).made "review" = [200, 210] := by
      decide +kernel
    change ((final doubleStep History.empty unreadRun).made "review").Pairwise _ at hpair
    rw [hmade] at hpair
    have hgap : (200 : Time) + 600 ≤ 210 :=
      (List.pairwise_cons.mp hpair).1 210 (List.mem_singleton_self _)
    norm_num at hgap

/-- The scheduler of the quick job before its fire. -/
def quickDefined : History :=
  final doubleStep History.empty [.addJob quickCommand (fun _ => true) 1600000000]

theorem quickFire_completes :
    FireCompletes keyLib quickDefined.scheduler quickJob.name
      "0123456789abcdef0123456789abcdef" 1700000000 := by
  refine ⟨quickJob, by decide +kernel, by decide +kernel, ?_⟩
  have hdone : (enqueueManual keyLib quickDefined.scheduler.store
      ⟨"0123456789abcdef0123456789abcdef", quickJob.prompt, quickJob.images, quickJob.pinChat,
        false⟩ true 1700000000).2.toBool = true := by
    decide +kernel
  revert hdone
  generalize (enqueueManual keyLib quickDefined.scheduler.store _ true 1700000000).2 = answer
  intro hdone
  cases answer with
  | error e => cases hdone
  | ok receipt => exact ⟨receipt, rfl⟩

/-- The rounded due time comes less than the interval behind the fire. -/
theorem rounded_early :
    Nondecreasing SchedulerCall.now 1 roundedRun ∧
      Meets doubleStep (fun h call => @Unchanged doubles quickJob h call ∧
        Readable quickJob.name call) History.empty roundedRun ∧
        ¬ @KeepsSpacing doubles keyLib utcCalendar quickJob roundedRun := by
  refine ⟨?_, ⟨⟨@unchanged_defined doubles _ _ _ _ _ (quickCommand_job _) rfl,
    (fun _ h => nomatch h)⟩, quiet_run (fun _ _ _ h => nomatch h) (fun _ h => nomatch h),
      quiet_run (fun _ _ _ h => nomatch h) (fun input h => by cases h; rfl), trivial⟩, ?_⟩
  · simp only [Nondecreasing, roundedRun, Timed, SchedulerCall.now]
    norm_num
  · rintro ⟨_, hfires⟩
    have hmade : (final doubleStep History.empty roundedRun).made "review" =
        [3565158413841203 / 2 ^ 21] := by
      decide +kernel
    have hbefore : quickDefined.made "review" = [] := by decide +kernel
    have hmem : (3565158413841203 / 2 ^ 21 : Time) ∈
        ((final doubleStep History.empty roundedRun).made "review").drop
          (quickDefined.made "review").length := by
      rw [hmade, hbefore]
      exact List.mem_singleton_self _
    have hgap := hfires _ _ _ _ rfl quickFire_completes _ hmem
    norm_num [quickJob] at hgap

/-- A delivery comes ten seconds after the one before it when a read fails, and one comes less
than its interval after a manual fire when the due time was rounded down. -/
theorem delivered_early :
    (¬ ∀ (t : Time) (run : List SchedulerCall), 0 < t → Nondecreasing SchedulerCall.now t run →
      Meets doubleStep (@Unchanged doubles reviewJob) History.empty run →
        @KeepsSpacing doubles keyLib utcCalendar reviewJob run) ∧
      ¬ ∀ (t : Time) (run : List SchedulerCall), 0 < t → Nondecreasing SchedulerCall.now t run →
        Meets doubleStep (fun h call => @Unchanged doubles quickJob h call ∧
          Readable quickJob.name call) History.empty run →
          @KeepsSpacing doubles keyLib utcCalendar quickJob run := by
  constructor
  · intro hspaced
    obtain ⟨htime, hrun, hearly⟩ := unread_early
    exact hearly (hspaced 1 unreadRun one_pos htime hrun)
  · intro hspaced
    obtain ⟨htime, hrun, hearly⟩ := rounded_early
    exact hearly (hspaced 1 roundedRun one_pos htime hrun)

end Prompta.IntervalSpacing
