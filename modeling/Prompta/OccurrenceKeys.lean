import Prompta.DueTimes

/-!
The keys of the occurrences of a job. A receipt that is taken in brings a due time behind the
marker of its delivery, so the next key is another one. An edit of the cadence goes back to the
marker of the last success, under which a delivery may have failed already: the job then finds
that delivery at every tick, and waits for a receipt that it has taken in before.
-/
namespace Prompta.OccurrenceKeys

open Relation Runs Tables Texts DisplayBlocks Schema ResponseStore DeliveryQueue ManualQueue Service
  Decimals Jobs SchedulerPolicy Scheduler JobSteps JobDeliveries DueTimes

/-- Whenever a tick may enqueue the job, its key has no delivery yet, or one whose receipt the
state has not taken in. -/
def KeysFresh (lib : Stdlib) (cal : Calendar) (name : String) (run : List SchedulerCall) : Prop :=
  ∀ earlier input later, run = earlier ++ .tick input :: later →
    let h := final (historyStep lib cal) History.empty earlier
    let s := turn lib cal h.scheduler input name
    let state := readState s input name
    ∀ job ∈ tickJobs h.scheduler input, job.name = name →
      shouldEnqueueJob cal job state input.now (pendingReceipt s state).isSome = true →
        ∀ d ∈ existingDelivery s.store.queue (scheduledRecord job (occurrenceKey lib job state)),
          d.sendId ≠ state.lastCompletedDeliverySendId

def editedState (command : AddJob) (old : PromptJob) (now : Time) (state : JobState) : JobState :=
  if jobCadence old ≠ commandCadence command (some old) now then resetDue state else state

/-- What a call meets. The ticks read the state of the job. An edited job does not have the key of
the delivery that was completed last, and a job that becomes a one-time job not that of the last
one. A daily delivery is not completed within the microsecond of its next time of day. -/
structure KeepsKeys (lib : Stdlib) (cal : Calendar) (name : String) (h : History)
    (call : SchedulerCall) : Prop where
  readable : Readable name call
  edited : ∀ command available now old job, call = .addJob command available now →
    h.scheduler.jobs.lookup name = some old → commandJob command (some old) now = .ok job →
      job.name = name →
        let state := editedState command old now (jobState h.scheduler.states name)
        scheduledSendId (occurrenceKey lib job state) ≠ state.lastCompletedDeliverySendId ∧
          (job.runAtEpoch.isSome = true →
            scheduledSendId (occurrenceKey lib job state) ≠ state.lastDeliverySendId)
  daily : ∀ input, call = .tick input →
    let s := restorePendingOncePriorities h.scheduler input
    let state := jobState s.states name
    ∀ d, s.store.queue.lookup state.lastDeliverySendId = some d → d.status.isTerminal = true →
      ∀ dailyAt ∈ state.pendingDeliveryDailyAt, millionths (completedAt d input.now) <
        millionths (nextDailyEpoch cal dailyAt (completedAt d input.now) false)

/-- The identifier of an occurrence of the job up to the time. -/
def Occurred (lib : Stdlib) (name : String) (t : Time) (sendId : String) : Prop :=
  ∃ prompt n, sendId = keySendId lib name (lib.sha256 prompt) n ∧ n ≤ millionths t

structure KeysKept (lib : Stdlib) (name : String) (t : Time) (v : JobView) : Prop where
  recorded : AllRecorded lib v.store
  clocked : Clocked t v
  rows : ∀ d ∈ v.store.queue.rows, ∀ prompt n, d.sendId = keySendId lib name (lib.sha256 prompt) n →
    n ≤ millionths d.createdAt
  named : v.state.lastDeliverySendId ≠ "" → Occurred lib name t v.state.lastDeliverySendId
  completed : v.state.lastCompletedDeliverySendId ≠ "" →
    v.state.lastDeliverySendId ≠ "" ∧ Occurred lib name t v.state.lastCompletedDeliverySendId
  called : ∀ job, v.job = some job → job.name = name
  timed : ∀ job, v.job = some job → job.runAtEpoch = none → job.dailyAt = none →
    6 ≤ job.intervalSeconds
  once : ∀ job, v.job = some job → ∀ runAt ∈ job.runAtEpoch, 0 < v.state.initialDueAtEpoch →
    v.state.initialDueAtEpoch = runAt
  pending : v.job ≠ none → v.state.lastDeliverySendId ≠ "" →
    v.state.pendingDeliveryOneTime = false ∧
      (v.state.pendingDeliveryDailyAt = none → 6 ≤ v.state.pendingDeliveryIntervalSeconds)
  fresh : ∀ job, v.job = some job →
    scheduledSendId (occurrenceKey lib job v.state) ≠ v.state.lastCompletedDeliverySendId
  last : ∀ job, v.job = some job → job.runAtEpoch.isSome = true →
    scheduledSendId (occurrenceKey lib job v.state) ≠ v.state.lastDeliverySendId

section Markers

variable {lib : Stdlib} {cal : Calendar} {name : String} {t : Time} {v : JobView}

theorem Occurred.mono {t' : Time} {sendId : String} (htime : t ≤ t')
    (h : Occurred lib name t sendId) : Occurred lib name t' sendId := by
  obtain ⟨prompt, n, hid, hn⟩ := h
  exact ⟨prompt, n, hid, hn.trans (millionths_mono htime)⟩

theorem KeysKept.mono {t' : Time} (htime : t ≤ t') (h : KeysKept lib name t v) :
    KeysKept lib name t' v where
  recorded := h.recorded
  clocked := h.clocked.mono htime
  rows := h.rows
  named hid := (h.named hid).mono htime
  completed hid := ⟨(h.completed hid).1, (h.completed hid).2.mono htime⟩
  called := h.called
  timed := h.timed
  once := h.once
  pending := h.pending
  fresh := h.fresh
  last := h.last

theorem keysKept_empty (ht : 0 < t) : KeysKept lib name t (History.empty.view name) where
  recorded _ hd := nomatch hd
  clocked := clocked_empty ht name
  rows _ hd := nomatch hd
  named hid := absurd rfl hid
  completed hid := absurd rfl hid
  called _ hjob := nomatch hjob
  timed _ hjob := nomatch hjob
  once _ hjob := nomatch hjob
  pending hjob := absurd rfl hjob
  fresh _ hjob := nomatch hjob
  last _ hjob := nomatch hjob

/-- An occurrence behind a delivery has another key. -/
theorem key_ne (hdigest : KeyDigest lib) {job : PromptJob} {state : JobState} {sendId : String}
    (hid : Occurred lib name t sendId)
    (hlater : millionths t < millionths (occurrenceMarker job state)) :
    scheduledSendId (occurrenceKey lib job state) ≠ sendId := by
  obtain ⟨prompt, n, rfl, hn⟩ := hid
  intro hsame
  have hmarker := (keySendId_inj hdigest hsame).2.2
  omega

/-- The key of a one-time job goes by its definition. -/
theorem key_once {job : PromptJob} (honce : job.runAtEpoch.isSome = true)
    (state state' : JobState) :
    occurrenceKey lib job state' = occurrenceKey lib job state := by
  obtain ⟨runAt, hrun⟩ := Option.isSome_iff_exists.mp honce
  unfold occurrenceKey occurrenceMarker
  rw [hrun]

/-- A job is enqueued once the marker of its occurrence has passed. -/
theorem KeysKept.marker_passed (h : KeysKept lib name t v) {job : PromptJob}
    (hjob : v.job = some job)
    (ht : 0 ≤ t) (hdue : isDue cal job v.state t = true) : occurrenceMarker job v.state ≤ t := by
  cases hrun : job.runAtEpoch with
  | none => exact due_marker hrun h.clocked (le_refl t) ht hdue
  | some runAt =>
    have hmarker : occurrenceMarker job v.state = runAt := by
      unfold occurrenceMarker
      rw [hrun]
    have hfirst : (if 0 < v.state.initialDueAtEpoch then v.state.initialDueAtEpoch else runAt) =
        runAt := by
      split
      · rename_i hinitial
        exact h.once job hjob runAt hrun hinitial
      · rfl
    unfold isDue dueIn at hdue
    rw [hrun] at hdue
    dsimp only at hdue
    split at hdue
    · rename_i seconds hseconds
      split at hseconds
      · cases hseconds
      · rw [hfirst] at hseconds
        have hle := of_decide_eq_true hdue
        rw [← Option.some.inj hseconds] at hle
        have hpassed := (le_max_right 0 (runAt - t)).trans hle
        rw [hmarker]
        linarith
    · cases hdue

/-- The due time after a receipt lies behind its completion, also as it is written in a key. -/
theorem due_later {state : JobState} {completed jitter : Time} (hcompleted : 0 ≤ completed)
    (honce : state.pendingDeliveryOneTime = false)
    (hinterval : state.pendingDeliveryDailyAt = none → 6 ≤ state.pendingDeliveryIntervalSeconds)
    (hdaily : ∀ dailyAt ∈ state.pendingDeliveryDailyAt,
      millionths completed < millionths (nextDailyEpoch cal dailyAt completed false)) :
    millionths completed < millionths (scheduledDue cal state completed jitter) := by
  cases hpending : state.pendingDeliveryDailyAt with
  | none =>
    have hleast := hinterval hpending
    have hdue : completed + state.pendingDeliveryIntervalSeconds ≤
        scheduledDue cal state completed jitter :=
      scheduledDue_ge hpending honce hcompleted (by linarith) rfl
    apply millionths_lt hcompleted
    linarith
  | some dailyAt =>
    have hdue : scheduledDue cal state completed jitter =
        nextDailyEpoch cal dailyAt completed false := by
      unfold scheduledDue nextDueAt
      dsimp only
      rw [hpending, honce, if_neg Bool.false_ne_true, if_neg]
      rintro ⟨-, hnone, -⟩
      cases hnone
    rw [hdue]
    exact hdaily dailyAt hpending

end Markers

section Steps

variable {lib : Stdlib} {cal : Calendar} {name : String} {h : History} {call : SchedulerCall}
  {v v' : JobView}

/-- The key of a job that is due stands for an occurrence up to now. -/
theorem KeysKept.occurred (hv : KeysKept lib name call.now v) {job : PromptJob}
    (hjob : v.job = some job) (hnow : 0 ≤ call.now) (hdue : isDue cal job v.state call.now = true) :
    Occurred lib name call.now (scheduledSendId (occurrenceKey lib job v.state)) := by
  refine ⟨job.prompt, millionths (occurrenceMarker job v.state), ?_, ?_⟩
  · rw [← hv.called job hjob]
    rfl
  · exact millionths_mono (hv.marker_passed hjob hnow hdue)

/-- A receipt that is taken in leaves a key of a later occurrence. -/
theorem keysKept_receipt (hdigest : KeyDigest lib) (hv : KeysKept lib name call.now v)
    {d : Delivery} {fallback jitter : Time}
    (hd : v.store.queue.lookup v.state.lastDeliverySendId = some d)
    (hid : v.state.lastDeliverySendId ≠ "")
    (hnew : v.state.lastCompletedDeliverySendId ≠ v.state.lastDeliverySendId)
    (hclocked : Clocked call.now
      { v with state := terminalReconciliationUpdates cal v.state d fallback jitter })
    (hdaily : ∀ dailyAt ∈ v.state.pendingDeliveryDailyAt, millionths (completedAt d fallback) <
      millionths (nextDailyEpoch cal dailyAt (completedAt d fallback) false)) :
    KeysKept lib name call.now
      { v with state := terminalReconciliationUpdates cal v.state d fallback jitter } := by
  have hkey : d.sendId = v.state.lastDeliverySendId := Table.lookup_key hd
  obtain ⟨hafter, -⟩ := (hv.clocked.rows d (Table.lookup_mem hd)).completed fallback
  have hpositive := lt_of_lt_of_le (hv.clocked.rows d (Table.lookup_mem hd)).positive hafter
  rw [receipt_taken (by rwa [hkey]) (by rwa [hkey])] at hclocked ⊢
  refine ⟨hv.recorded, hclocked, hv.rows, hv.named, fun _ => ⟨hid, ?_⟩, hv.called, hv.timed,
    fun _ _ _ _ hinitial => absurd hinitial (lt_irrefl 0), hv.pending, ?_, ?_⟩
  · dsimp only
    rw [hkey]
    exact hv.named hid
  · intro job hjob
    dsimp only
    rw [hkey]
    cases hrun : job.runAtEpoch with
    | some runAt =>
      have honce : job.runAtEpoch.isSome = true := by
        rw [hrun]
        rfl
      rw [key_once honce v.state]
      exact hv.last job hjob honce
    | none =>
      have hjob' : v.job ≠ none := by
        intro hnone
        rw [hnone] at hjob
        cases hjob
      obtain ⟨honce, hinterval⟩ := hv.pending hjob' hid
      have hlater := @due_later cal v.state (completedAt d fallback) jitter hpositive.le honce
        hinterval hdaily
      have hdue : 0 < scheduledDue cal v.state (completedAt d fallback) jitter := by
        by_contra hnot
        have hle : scheduledDue cal v.state (completedAt d fallback) jitter ≤
            completedAt d fallback := (not_lt.mp hnot).trans hpositive.le
        exact absurd (millionths_mono hle) (not_le.mpr hlater)
      obtain ⟨prompt, n, hsame, -⟩ := hv.named hid
      have hn : n ≤ millionths (completedAt d fallback) :=
        (hv.rows d (Table.lookup_mem hd) prompt n (hkey.trans hsame)).trans (millionths_mono hafter)
      exact key_ne hdigest ⟨prompt, n, hsame, hn⟩
        (hlater.trans_eq (congrArg millionths (Eq.symm (marker_next hrun hclocked.known hdue))))
  · intro job hjob honce
    rw [key_once honce v.state]
    exact hv.last job hjob honce

/-- A manual fire leaves the key of an occurrence that is still to come. -/
theorem key_fired (hdigest : KeyDigest lib) (hv : KeysKept lib name call.now v) {job : PromptJob}
    (hjob : v.job = some job) (hnow : 0 < call.now)
    (hinterval : 0 < job.intervalSeconds ∧ job.dailyAt = none ∧ job.runAtEpoch = none)
    {sendId : String} (hid : sendId ≠ "" → Occurred lib name call.now sendId) :
    scheduledSendId (occurrenceKey lib job (manualFire job call.now v.state)) ≠ sendId := by
  by_cases hempty : sendId = ""
  · rw [hempty]
    exact scheduledSendId_ne _
  · have hleast := hv.timed job hjob hinterval.2.2 hinterval.2.1
    have hnext : 0 < (manualFire job call.now v.state).nextDueAtEpoch := by
      change 0 < call.now + job.intervalSeconds
      linarith
    have hlater : millionths call.now < millionths (call.now + job.intervalSeconds) := by
      apply millionths_lt hnow.le
      linarith
    exact key_ne hdigest (hid hempty)
      (hlater.trans_eq (congrArg millionths
        (Eq.symm (marker_next hinterval.2.2 hv.clocked.known hnext))))

theorem afterEnqueue_some {job kept : PromptJob} (h : afterEnqueue job = some kept) :
    kept = job ∧ job.runAtEpoch = none := by
  unfold afterEnqueue at h
  split at h
  · cases h
  · rename_i honce
    refine ⟨(Option.some.inj h).symm, ?_⟩
    simpa using honce

/-- A job that is enqueued waits for the delivery of its key. -/
theorem keysKept_enqueued (hv : KeysKept lib name call.now v) {job : PromptJob} {store : Store}
    {sendId : String} {queuedAt : Time} {made : List Time} (hjob : v.job = some job)
    (hnow : 0 ≤ call.now) (hdue : isDue cal job v.state call.now = true)
    (hid : sendId = scheduledSendId (occurrenceKey lib job v.state))
    (hrecorded : AllRecorded lib store)
    (hrows : ∀ d ∈ store.queue.rows, ∀ prompt n,
      d.sendId = keySendId lib name (lib.sha256 prompt) n → n ≤ millionths d.createdAt)
    (hclocked : Clocked call.now ⟨store, afterEnqueue job,
      pendingDeliveryUpdates lib job sendId (occurrenceKey lib job v.state) queuedAt
        v.state, made⟩) :
    KeysKept lib name call.now ⟨store, afterEnqueue job,
      pendingDeliveryUpdates lib job sendId (occurrenceKey lib job v.state) queuedAt v.state,
        made⟩ := by
  have hne : sendId ≠ "" := by
    rw [hid]
    exact scheduledSendId_ne _
  refine ⟨hrecorded, hclocked, hrows, fun _ => ?_,
    fun hcompleted => ⟨hne, (hv.completed hcompleted).2⟩, ?_, ?_, ?_, ?_, ?_, ?_⟩
  · change Occurred lib name call.now sendId
    rw [hid]
    exact hv.occurred hjob hnow hdue
  · intro kept hkept
    obtain ⟨rfl, -⟩ := afterEnqueue_some hkept
    exact hv.called _ hjob
  · intro kept hkept
    obtain ⟨rfl, -⟩ := afterEnqueue_some hkept
    exact hv.timed _ hjob
  · intro kept hkept
    obtain ⟨rfl, -⟩ := afterEnqueue_some hkept
    exact hv.once _ hjob
  · intro hsome _
    obtain ⟨kept, hkept⟩ := Option.ne_none_iff_exists'.mp hsome
    obtain ⟨rfl, hrun⟩ := afterEnqueue_some hkept
    refine ⟨?_, fun hdaily => hv.timed _ hjob hrun hdaily⟩
    change kept.runAtEpoch.isSome = false
    rw [hrun]
    rfl
  · intro kept hkept
    obtain ⟨rfl, -⟩ := afterEnqueue_some hkept
    exact hv.fresh _ hjob
  · intro kept hkept honce
    obtain ⟨rfl, hrun⟩ := afterEnqueue_some hkept
    rw [hrun] at honce
    cases honce

/-- A job that recurs by its interval recurs after six seconds at least. -/
theorem command_timed {command : AddJob} {existing : Option PromptJob} {now : Time}
    {job : PromptJob}
    (h : commandJob command existing now = .ok job) (honce : job.runAtEpoch = none)
    (hdaily : job.dailyAt = none) : 6 ≤ job.intervalSeconds := by
  have hcadence := commandJob_cadence h
  have hinterval := commandCadence_interval command existing now
  rw [← hcadence] at hinterval
  rcases hinterval with ⟨-, -, hleast⟩ | ⟨-, hother | hother⟩
  · exact hleast
  · change job.runAtEpoch.isSome = true at hother
    rw [honce] at hother
    cases hother
  · change job.dailyAt.isSome = true at hother
    rw [hdaily] at hother
    cases hother

/-- The rest of the service leaves the keys. -/
theorem keysKept_stored (hdigest : KeyDigest lib) (hv : KeysKept lib name call.now v)
    {store : Store} (hstore : StoreStep lib name call v.store store)
    (hrecorded : AllRecorded lib store) (hclocked : Clocked call.now { v with store := store }) :
    KeysKept lib name call.now { v with store := store } := by
  refine ⟨hrecorded, hclocked, ?_, hv.named, hv.completed, hv.called, hv.timed, hv.once,
    hv.pending, hv.fresh, hv.last⟩
  refine (storeStep_evolves hstore).keeps ?_ ?_ hv.rows
  · intro a b hab ha prompt n hid
    rw [hab.sendId_eq] at hid
    rw [hab.createdAt_eq]
    exact ha prompt n hid
  · intro a ha prompt n hid
    exact absurd hid (ha.sendId_ne hdigest prompt n)

/-- The receipt of the last delivery is taken in, if it is final. -/
theorem keysKept_reconciled (hdigest : KeyDigest lib) (hkeeps : KeepsKeys lib cal name h call)
    (hv : KeysKept lib name call.now v) {input : Tick} (hcall : call = .tick input)
    (hview : v = view (restorePendingOncePriorities h.scheduler input) v.made name)
    (hclocked : Clocked call.now
      { v with state := (reconcileState cal v.store.queue input ⟨name, v.state⟩).state }) :
    KeysKept lib name call.now
      { v with state := (reconcileState cal v.store.queue input ⟨name, v.state⟩).state } := by
  rcases reconciled_cases cal v.store.queue input name v.state with ⟨hsame, -⟩ |
    ⟨d, jitter, hd, hterminal, hid, hnew, hstate⟩
  · rw [hsame]
    exact hv
  · rw [hstate] at hclocked ⊢
    refine keysKept_receipt hdigest hv hd hid hnew hclocked ?_
    have hdaily := hkeeps.daily input hcall d
    have hstart : jobState (restorePendingOncePriorities h.scheduler input).states name =
        v.state :=
      (congrArg JobView.state hview).symm
    have hstore : (restorePendingOncePriorities h.scheduler input).store = v.store :=
      (congrArg JobView.store hview).symm
    rw [hstart, hstore] at hdaily
    exact hdaily hd hterminal

/-- A first due time is only given to a job without a delivery. -/
theorem keysKept_initial (hv : KeysKept lib name call.now v) {job : PromptJob}
    {now jitter dueAt : Time} (hjob : v.job = some job)
    (hdue : initialDueAt cal job v.state now jitter = some dueAt)
    (hclocked : Clocked call.now { v with state := { v.state with initialDueAtEpoch := dueAt } }) :
    KeysKept lib name call.now { v with state := { v.state with initialDueAtEpoch := dueAt } } := by
  have hunmarked : hasMarker v.state = false := by
    by_contra hmarked
    unfold initialDueAt at hdue
    rw [if_pos (by simpa using hmarked)] at hdue
    cases hdue
  have hempty : v.state.lastDeliverySendId = "" := by
    by_contra hid
    have henqueued := (hv.clocked.named hid).ne'
    unfold hasMarker at hunmarked
    simp [henqueued] at hunmarked
  have hnone : v.state.lastCompletedDeliverySendId = "" := by
    by_contra hid
    exact (hv.completed hid).1 hempty
  refine ⟨hv.recorded, hclocked, hv.rows, hv.named, hv.completed, hv.called, hv.timed, ?_,
    hv.pending, ?_, ?_⟩
  · intro other hother runAt hrun _
    obtain rfl : job = other := Option.some.inj (hjob.symm.trans hother)
    unfold initialDueAt at hdue
    rw [hunmarked, if_neg Bool.false_ne_true, hrun] at hdue
    exact (Option.some.inj hdue).symm
  · intro other _
    dsimp only
    rw [hnone]
    exact scheduledSendId_ne _
  · intro other _ _
    dsimp only
    rw [hempty]
    exact scheduledSendId_ne _

/-- The row of a new delivery carries the key of its occurrence. -/
theorem created_rows (hdigest : KeyDigest lib) (hv : KeysKept lib name call.now v)
    {job : PromptJob} (hjob : v.job = some job) (hnow : 0 ≤ call.now)
    (hdue : isDue cal job v.state call.now = true) {d : Delivery}
    (hid : d.sendId = scheduledSendId (occurrenceKey lib job v.state))
    (hcreated : d.createdAt = call.now) :
    ∀ r ∈ (v.store.queue.insertNew d).rows, ∀ prompt n,
      r.sendId = keySendId lib name (lib.sha256 prompt) n → n ≤ millionths r.createdAt := by
  intro r hr prompt n hrid
  rcases Table.mem_insertNew hr with hold | ⟨rfl, -⟩
  · exact hv.rows r hold prompt n hrid
  · have hn := (keySendId_inj hdigest (hid.symm.trans hrid)).2.2
    rw [← hn, hcreated]
    exact millionths_mono (hv.marker_passed hjob hnow hdue)

/-- A job is defined with an empty state. -/
theorem keysKept_defined (hv : KeysKept lib name call.now v) {command : AddJob} {now : Time}
    {job : PromptJob} (hcommand : commandJob command none now = .ok job) (hname : job.name = name)
    (hclocked : Clocked call.now ⟨v.store, some job, {}, v.made⟩) :
    KeysKept lib name call.now ⟨v.store, some job, {}, v.made⟩ := by
  refine ⟨hv.recorded, hclocked, hv.rows, fun hid => absurd rfl hid,
    fun hid => absurd rfl hid, ?_, ?_, fun _ _ _ _ hinitial => absurd hinitial (lt_irrefl 0),
    fun _ hid => absurd rfl hid, fun _ _ => scheduledSendId_ne _,
    fun _ _ _ => scheduledSendId_ne _⟩
  · intro saved hsaved
    rw [← Option.some.inj hsaved]
    exact hname
  · intro saved hsaved
    rw [← Option.some.inj hsaved]
    exact command_timed hcommand

/-- An edit keeps the deliveries and takes the due times of another cadence away. -/
theorem keysKept_edited (hkeeps : KeepsKeys lib cal name h call)
    (hv : KeysKept lib name call.now v) {command : AddJob} {available : String → Bool} {now : Time}
    {old job : PromptJob} (hcall : call = .addJob command available now)
    (hview : v = view h.scheduler v.made name) (hold : v.job = some old)
    (hcommand : commandJob command (some old) now = .ok job) (hname : job.name = name)
    (hclocked : Clocked call.now
      ⟨v.store, some job, editedState command old now v.state, v.made⟩) :
    KeysKept lib name call.now
      ⟨v.store, some job, editedState command old now v.state, v.made⟩ := by
  have hlookup : h.scheduler.jobs.lookup name = some old := by
    rw [hview] at hold
    exact hold
  have hstate : jobState h.scheduler.states name = v.state := (congrArg JobView.state hview).symm
  obtain ⟨hfresh, hlast⟩ := hkeeps.edited command available now old job hcall hlookup hcommand hname
  rw [hstate] at hfresh hlast
  have hsome : v.job ≠ none := by
    rw [hold]
    exact Option.some_ne_none old
  have hkept : (editedState command old now v.state).lastDeliverySendId =
        v.state.lastDeliverySendId ∧
      (editedState command old now v.state).lastCompletedDeliverySendId =
        v.state.lastCompletedDeliverySendId ∧
      (editedState command old now v.state).pendingDeliveryOneTime =
        v.state.pendingDeliveryOneTime ∧
      (editedState command old now v.state).pendingDeliveryDailyAt =
        v.state.pendingDeliveryDailyAt ∧
      (editedState command old now v.state).pendingDeliveryIntervalSeconds =
        v.state.pendingDeliveryIntervalSeconds := by
    unfold editedState
    split <;> exact ⟨rfl, rfl, rfl, rfl, rfl⟩
  obtain ⟨hsendId, hcompleted, honce, hdaily, hinterval⟩ := hkept
  refine ⟨hv.recorded, hclocked, hv.rows, ?_, ?_, ?_, ?_, ?_, fun _ => ?_, ?_, ?_⟩
  · dsimp only
    rw [hsendId]
    exact hv.named
  · dsimp only
    rw [hsendId, hcompleted]
    exact hv.completed
  · intro saved hsaved
    rw [← Option.some.inj hsaved]
    exact hname
  · intro saved hsaved
    rw [← Option.some.inj hsaved]
    exact command_timed hcommand
  · intro saved hsaved runAt hrun hinitial
    rw [← Option.some.inj hsaved] at hrun
    unfold editedState at hinitial ⊢
    split at hinitial
    · exact absurd hinitial (lt_irrefl 0)
    · -- the cadence is the old one, so the time of a one-time job is too
      rename_i hcadence
      have hsame : old.runAtEpoch = job.runAtEpoch :=
        congrArg Cadence.runAtEpoch
          ((not_not.mp hcadence).trans (commandJob_cadence hcommand).symm)
      rw [← hsame] at hrun
      rw [if_neg hcadence]
      exact hv.once old hold runAt hrun hinitial
  · dsimp only
    rw [hsendId, honce, hdaily, hinterval]
    exact hv.pending hsome
  · intro saved hsaved
    rw [← Option.some.inj hsaved]
    exact hfresh
  · intro saved hsaved
    rw [← Option.some.inj hsaved]
    exact hlast

/-- A manual fire moves the next occurrence behind all that were sent. -/
theorem keysKept_fired (hdigest : KeyDigest lib) (hv : KeysKept lib name call.now v)
    {job : PromptJob} (hjob : v.job = some job) (hnow : 0 < call.now)
    (hinterval : 0 < job.intervalSeconds ∧ job.dailyAt = none ∧ job.runAtEpoch = none)
    (hclocked : Clocked call.now { v with state := manualFire job call.now v.state }) :
    KeysKept lib name call.now { v with state := manualFire job call.now v.state } := by
  refine ⟨hv.recorded, hclocked, hv.rows, hv.named, hv.completed, hv.called, hv.timed,
    fun _ _ _ _ hinitial => absurd hinitial (lt_irrefl 0), hv.pending, ?_, ?_⟩
  · intro other hother
    obtain rfl : job = other := Option.some.inj (hjob.symm.trans hother)
    exact key_fired hdigest hv hjob hnow hinterval fun hid => (hv.completed hid).2
  · intro other hother
    obtain rfl : job = other := Option.some.inj (hjob.symm.trans hother)
    exact fun _ => key_fired hdigest hv hjob hnow hinterval hv.named

/-- The delivery that was withdrawn counts as completed. -/
theorem keysKept_superseded (hdigest : KeyDigest lib) (hv : KeysKept lib name call.now v)
    {job : PromptJob} (hjob : v.job = some job) (hnow : 0 < call.now)
    (hinterval : 0 < job.intervalSeconds ∧ job.dailyAt = none ∧ job.runAtEpoch = none)
    {d : Delivery} (hd : v.store.queue.lookup v.state.lastDeliverySendId = some d)
    (hclocked : Clocked call.now
      { v with state := supersede (manualFire job call.now v.state) }) :
    KeysKept lib name call.now
      { v with state := supersede (manualFire job call.now v.state) } := by
  have hid : v.state.lastDeliverySendId ≠ "" := by
    have hne := (hv.recorded d (Table.lookup_mem hd)).sendId_ne
    rwa [Table.lookup_key hd] at hne
  refine ⟨hv.recorded, hclocked, hv.rows, hv.named, fun _ => ⟨hid, hv.named hid⟩, hv.called,
    hv.timed, fun _ _ _ _ hinitial => absurd hinitial (lt_irrefl 0), hv.pending, ?_, ?_⟩
  · intro other hother
    obtain rfl : job = other := Option.some.inj (hjob.symm.trans hother)
    exact key_fired hdigest hv hjob hnow hinterval hv.named
  · intro other hother
    obtain rfl : job = other := Option.some.inj (hjob.symm.trans hother)
    exact fun _ => key_fired hdigest hv hjob hnow hinterval hv.named

/-- One case for each way a call can touch the job. -/
theorem keysKept_step (hdigest : KeyDigest lib) (hnow : 0 < call.now)
    (hkeeps : KeepsKeys lib cal name h call)
    (hstep : JobStep lib cal name h.scheduler call v v') (hv : KeysKept lib name call.now v) :
    KeysKept lib name call.now v' := by
  have hrecorded := jobStep_recorded hstep hv.recorded
  have hclocked := clocked_step hnow hkeeps.readable hstep hv.clocked
  cases hstep with
  | stored store hstore hstart => exact keysKept_stored hdigest hv hstore hrecorded hclocked
  | reconciled input hcall hloads hview =>
    exact keysKept_reconciled hdigest hkeeps hv hcall hview hclocked
  | initial input job dueAt hcall hjob hdue =>
    subst hcall
    rw [seen_readable hkeeps.readable] at hdue
    exact keysKept_initial hv hjob hdue hclocked
  | found input job d c hcall hjob hview hallows hdue hd hstore =>
    subst hcall
    have hisDue := hdue.due
    rw [seen_readable hkeeps.readable] at hd hisDue hclocked ⊢
    have hid := Table.lookup_key (existing_sendId hdigest hv.recorded hd)
    exact keysKept_enqueued hv hdue.defined hnow.le hisDue hid hrecorded hv.rows hclocked
  | created input job d c hcall hjob hview hallows hdue hnone hd hstore =>
    subst hcall
    have hisDue := hdue.due
    rw [seen_readable hkeeps.readable] at hd hisDue hclocked ⊢
    have hid : d.sendId = scheduledSendId (occurrenceKey lib job v.state) := by
      rw [hd]
      rfl
    have hcreated : d.createdAt = input.now := by
      rw [hd]
      rfl
    refine keysKept_enqueued hv hdue.defined hnow.le hisDue hid hrecorded ?_ hclocked
    exact created_rows hdigest hv hdue.defined hnow.le hisDue hid hcreated
  | defined command available now job hcall hview hnone hcommand hname =>
    exact keysKept_defined hv hcommand hname hclocked
  | edited command available now old job hcall hview hold hcommand hname =>
    exact keysKept_edited hkeeps hv hcall hview hold hcommand hname hclocked
  | fired requestId now job hcall hjob hinterval =>
    subst hcall
    exact keysKept_fired hdigest hv hjob hnow hinterval hclocked
  | superseded requestId now job d hcall hjob hinterval hd hcancelled =>
    subst hcall
    exact keysKept_superseded hdigest hv hjob hnow hinterval hd hclocked
  | paused flag now hcall hjob =>
    exact ⟨hrecorded, hclocked, hv.rows, hv.named, hv.completed, hv.called, hv.timed, hv.once,
      hv.pending, hv.fresh, hv.last⟩

end Steps

section Runs

variable {lib : Stdlib} {cal : Calendar} {name : String}

/-- By induction on the run, with the clock at its end. -/
theorem run_keysKept (hdigest : KeyDigest lib) {t : Time} (ht : 0 < t) {run : List SchedulerCall}
    (htime : Nondecreasing SchedulerCall.now t run)
    (hrun : Meets (historyStep lib cal) (KeepsKeys lib cal name) History.empty run) :
    0 < endTime SchedulerCall.now t run ∧ KeysKept lib name (endTime SchedulerCall.now t run)
      ((final (historyStep lib cal) History.empty run).view name) := by
  refine clocked_invariant (historyStep lib cal) (fun a b => a ≤ b) SchedulerCall.now
    (KeepsKeys lib cal name) (fun t h => 0 < t ∧ KeysKept lib name t (h.view name)) ?_ t
    History.empty ⟨ht, keysKept_empty ht⟩ run htime hrun
  rintro t h call hkeeps hle ⟨hpositive, hkept⟩
  have hnow : 0 < call.now := lt_of_lt_of_le hpositive hle
  refine ⟨hnow, ?_⟩
  exact reflTransGen_keeps (P := KeysKept lib name call.now)
    (fun v v' hstep hv => keysKept_step hdigest hnow hkeeps hstep hv)
    (history_steps lib cal name h call) (hkept.mono hle)

/-- The keys stay fresh as long as no edit goes back to the key of a completed delivery. -/
theorem keys_stay_fresh {lib : Stdlib} (cal : Calendar) (hdigest : KeyDigest lib) (name : String)
    (t : Time) (ht : 0 < t) (run : List SchedulerCall)
    (htime : Nondecreasing SchedulerCall.now t run)
    (hrun : Meets (historyStep lib cal) (KeepsKeys lib cal name) History.empty run) :
    KeysFresh lib cal name run := by
  rintro earlier input later rfl h s state job hjob rfl hallows d hd
  obtain ⟨hbefore, hclock, _⟩ := (timed_append _ _ _ _ _).mp htime
  obtain ⟨hfirst, hkeeps, _⟩ := (meets_append _ _ _ _ _).mp hrun
  obtain ⟨hpositive, hkept⟩ := run_keysKept hdigest ht hbefore hfirst
  have hnow : 0 < (SchedulerCall.tick input).now := lt_of_lt_of_le hpositive hclock
  have hturn := reflTransGen_keeps (P := KeysKept lib job.name (SchedulerCall.tick input).now)
    (fun v v' hstep hv => keysKept_step hdigest hnow hkeeps hstep hv)
    (turn_steps lib cal job.name h.scheduler input (h.made job.name)) (hkept.mono hclock)
  have hread : state = jobState s.states job.name := by
    change (if input.unread job.name = true then {} else jobState s.states job.name) = _
    rw [hkeeps.readable input rfl, if_neg Bool.false_ne_true]
  have hlookup := turn_lookup lib cal input h.scheduler hjob
  have hsendId := Table.lookup_key (existing_sendId hdigest hturn.recorded hd)
  have hfresh := hturn.fresh job hlookup
  rw [hsendId, hread]
  exact hfresh

end Runs

def slowCommand : AddJob where
  name := "review"
  prompt := ['r', 'e', 'v', 'i', 'e', 'w']
  intervalMinutes := some 20
  name_valid := reviewCommand.name_valid
  prompt_valid := reviewCommand.prompt_valid
  interval_valid := by decide +kernel
  delay_valid := reviewCommand.delay_valid
  cadence := fun _ _ => rfl
  daily := reviewCommand.daily

def slowJob : PromptJob where
  name := "review"
  prompt := ['r', 'e', 'v', 'i', 'e', 'w']
  intervalSeconds := 1200
  name_present := reviewJob.name_present
  prompt_present := reviewJob.prompt_present
  interval_nonneg := by decide +kernel
  run_positive := reviewJob.run_positive
  images_valid := reviewJob.images_valid

def firstSendId : String :=
  "scheduled-9ee6318b5d7638eea1895385c0dbeaf0dd66b7614e3522806402eedf7e3bdbac"

def secondSendId : String :=
  "scheduled-bd3b5a9833cf4428680d75092bf2bc054b61238e635939fa24d0ba1f27bd9f14"

def claimed (now : Time) : SchedulerCall :=
  .service ⟨.queue (.claimNext "worker" 60 false none fun _ => true), now⟩ rfl

section Samples

variable {lib : Stdlib} {cal : Calendar} {name : String} {h : History}

theorem keeps_service {c : Call} (hc : enqueues c = false) :
    KeepsKeys lib cal name h (.service c hc) := by
  constructor
  · intro input hcall
    cases hcall
  · intro command available now old job hcall
    cases hcall
  · intro input hcall
    cases hcall

/-- A tick that reads its state keeps the keys of an interval job. -/
theorem keeps_tick {input : Tick} (hread : input.unread name = false)
    (hinterval : (jobState (restorePendingOncePriorities h.scheduler input).states
      name).pendingDeliveryDailyAt = none) : KeepsKeys lib cal name h (.tick input) := by
  constructor
  · intro input' hcall
    cases hcall
    exact hread
  · intro command available now old job hcall
    cases hcall
  · intro input' hcall
    cases hcall
    intro s state d hd hterminal dailyAt hdaily
    change dailyAt ∈ (jobState (restorePendingOncePriorities h.scheduler input).states
      name).pendingDeliveryDailyAt at hdaily
    rw [hinterval] at hdaily
    cases hdaily

theorem keeps_defined {command : AddJob} {available : String → Bool} {now : Time}
    (hnone : h.scheduler.jobs.lookup name = none) :
    KeepsKeys lib cal name h (.addJob command available now) := by
  constructor
  · intro input hcall
    cases hcall
  · intro command' available' now' old job hcall hlookup
    rw [hnone] at hlookup
    cases hlookup
  · intro input hcall
    cases hcall

/-- An edit keeps the keys when the new one is not that of the last delivery. -/
theorem keeps_slow {now : Time} (hjob : h.scheduler.jobs.lookup "review" = some reviewJob)
    (hcommand : commandJob slowCommand (some reviewJob) now = .ok slowJob)
    (hkey : scheduledSendId (occurrenceKey keyLib slowJob
        (editedState slowCommand reviewJob now (jobState h.scheduler.states "review"))) ≠
      (editedState slowCommand reviewJob now
        (jobState h.scheduler.states "review")).lastCompletedDeliverySendId) :
    KeepsKeys keyLib utcCalendar "review" h (.addJob slowCommand (fun _ => true) now) := by
  constructor
  · intro input hcall
    cases hcall
  · intro command available now' old job hcall hlookup hsaved _
    cases hcall
    obtain rfl : reviewJob = old := Option.some.inj (hjob.symm.trans hlookup)
    obtain rfl : slowJob = job := Except.ok.inj (hcommand.symm.trans hsaved)
    exact ⟨hkey, fun honce => Bool.noConfusion honce⟩
  · intro input hcall
    cases hcall

end Samples

def slowedRun : List SchedulerCall :=
  [.addJob reviewCommand (fun _ => true) 100, .tick { now := 200 }, claimed 210,
    .service ⟨.queue (.completeClaim firstSendId "worker"), 220⟩ rfl, .tick { now := 230 },
    .addJob slowCommand (fun _ => true) 240, .tick { now := 2000 }]

theorem keys_stay_fresh_slowed :
    (final (historyStep keyLib utcCalendar) History.empty slowedRun).made "review" = [200, 2000] ∧
      KeysFresh keyLib utcCalendar "review" slowedRun := by
  constructor
  · decide +kernel
  · have htime : Nondecreasing SchedulerCall.now 1 slowedRun := by
      simp only [Nondecreasing, slowedRun, Timed, SchedulerCall.now, claimed]
      norm_num
    exact keys_stay_fresh utcCalendar keyLib_digest "review" 1 (by norm_num) slowedRun htime
      ⟨keeps_defined rfl, keeps_tick rfl (by decide +kernel), keeps_service rfl, keeps_service rfl,
        keeps_tick rfl (by decide +kernel),
        keeps_slow (by decide +kernel) (by decide +kernel) (by decide +kernel),
        keeps_tick rfl (by decide +kernel), trivial⟩

def failed (sendId : String) (now : Time) : List SchedulerCall :=
  [claimed now, .service ⟨.queue (.failClaim sendId "worker" .deadLettered "broken" true),
    now + 5⟩ rfl, .tick { now := now + 10 }]

/-- Two deliveries fail, and an edit before the second one has brought the key of a job that was
never sent. A second edit brings it again. -/
def editedRun : List SchedulerCall :=
  [.addJob reviewCommand (fun _ => true) 100, .tick { now := 200 }] ++ failed firstSendId 210 ++
    [.addJob slowCommand (fun _ => true) 240, .tick { now := 1500 }] ++ failed secondSendId 1505 ++
      [.addJob reviewCommand (fun _ => true) 1600]

/-- The job is due, and its key is that of the second delivery, whose receipt is taken in. -/
theorem second_key_again :
    Nondecreasing SchedulerCall.now 1 (editedRun ++ [.tick { now := 2800 }]) ∧
      ¬ KeysFresh keyLib utcCalendar "review" (editedRun ++ [.tick { now := 2800 }]) := by
  constructor
  · simp only [Nondecreasing, editedRun, failed, claimed, List.cons_append, List.nil_append, Timed,
      SchedulerCall.now]
    norm_num
  · intro hfresh
    have hjob : reviewJob ∈ tickJobs (final (historyStep keyLib utcCalendar) History.empty
        editedRun).scheduler { now := 2800 } := by decide +kernel
    have hkey := hfresh editedRun { now := 2800 } [] rfl reviewJob hjob rfl (by decide +kernel)
    revert hkey
    decide +kernel

end Prompta.OccurrenceKeys
