import Prompta.JobDeliveries

/-!
The times in the rows and in the state of a job. They never lie ahead of the clock, and a
job is due only once the marker of its next occurrence and the floor of its interval
have passed.
-/
namespace Prompta.DueTimes

open Relation Runs Tables Texts DisplayBlocks Schema ResponseStore DeliveryQueue Service Jobs
  SchedulerPolicy Scheduler JobSteps JobDeliveries Roundings

/-- The times of a row, in their order. -/
structure Dated (t : Time) (d : Delivery) : Prop where
  positive : 0 < d.createdAt
  created : d.createdAt ≤ t
  updated : d.createdAt ≤ d.updatedAt ∧ d.updatedAt ≤ t
  finished : d.finishedAt = 0 ∨ (d.createdAt ≤ d.finishedAt ∧ d.finishedAt ≤ t)

theorem Dated.mono {t t' : Time} {d : Delivery} (h : Dated t d) (htime : t ≤ t') : Dated t' d := by
  refine ⟨h.positive, h.created.trans htime, ⟨h.updated.1, h.updated.2.trans htime⟩, ?_⟩
  rcases h.finished with hzero | ⟨hafter, hbefore⟩
  · exact Or.inl hzero
  · exact Or.inr ⟨hafter, hbefore.trans htime⟩

theorem dated_change {t : Time} {d d' : Delivery} (h : RowChange t d d') (hd : Dated t d) :
    Dated t d' := by
  obtain ⟨s, call, rfl, hchange⟩ := h
  have hnow : d.createdAt ≤ call.now ∧ call.now ≤ call.now := ⟨hd.created, le_refl _⟩
  have hconfirmed : (if 0 < d.finishedAt then d.finishedAt else call.now) = 0 ∨
      (d.createdAt ≤ (if 0 < d.finishedAt then d.finishedAt else call.now) ∧
        (if 0 < d.finishedAt then d.finishedAt else call.now) ≤ call.now) := by
    split
    · exact hd.finished
    · exact Or.inr hnow
  cases hchange with
  | edited message oneTime priority updatedAt h hmessage htime =>
    refine ⟨hd.positive, hd.created, ?_, hd.finished⟩
    rcases htime with rfl | rfl
    · exact hd.updated
    · exact hnow
  | expired h => exact ⟨hd.positive, hd.created, hnow, Or.inr hnow⟩
  | confirmed h => exact ⟨hd.positive, hd.created, hnow, hconfirmed⟩
  | cancelled error h => exact ⟨hd.positive, hd.created, hnow, Or.inr hnow⟩
  | leased => exact ⟨hd.positive, hd.created, hnow, hd.finished⟩
  | renewed => exact ⟨hd.positive, hd.created, hnow, hd.finished⟩
  | retried => exact ⟨hd.positive, hd.created, hnow, hd.finished⟩
  | completed => exact ⟨hd.positive, hd.created, hnow, hconfirmed⟩
  | failed => exact ⟨hd.positive, hd.created, hnow, Or.inr hnow⟩

theorem dated_queued {queue : Deliveries} {record : DeliveryRecord} {t : Time} (ht : 0 < t) :
    Dated t (queuedDelivery queue record t) :=
  ⟨ht, le_refl t, ⟨le_refl t, le_refl t⟩, Or.inl rfl⟩

/-- A final receipt was completed after its creation. -/
theorem Dated.completed {t : Time} {d : Delivery} (h : Dated t d) (fallback : Time) :
    d.createdAt ≤ completedAt d fallback ∧ completedAt d fallback ≤ t := by
  have hupdated : d.updatedAt ≠ 0 := (lt_of_lt_of_le h.positive h.updated.1).ne'
  unfold completedAt
  by_cases hfinished : d.finishedAt = 0
  · rw [if_neg (not_not.mpr hfinished), if_pos hupdated]
    exact h.updated
  · rw [if_pos hfinished]
    exact h.finished.resolve_left hfinished

/-- What the state takes from a new receipt. A success also says when the job was sent. -/
theorem receipt_taken [Rounding] {cal : Calendar} {state : JobState} {d : Delivery}
    {fallback jitter : Time} (hid : d.sendId ≠ "")
    (hnew : state.lastCompletedDeliverySendId ≠ d.sendId) :
    terminalReconciliationUpdates cal state d fallback jitter =
      { state with
        initialDueAtEpoch := 0
        nextDueAtEpoch := scheduledDue cal state (completedAt d fallback) jitter
        lastCompletedDeliverySendId := d.sendId
        promptSha256 :=
          if d.status = .succeeded then state.pendingDeliveryPromptSha256 else state.promptSha256
        lastSentAt := if d.status = .succeeded then completedAt d fallback else state.lastSentAt
        lastUncertainSendAt := if d.status = .succeeded then 0 else state.lastUncertainSendAt
        failureRetryUntilEpoch := if d.status = .succeeded then 0 else state.failureRetryUntilEpoch
        status := if d.status = .succeeded then .healthy else .failing
        statusMessage := if d.status = .succeeded then "" else failureMessage d
        statusAt := completedAt d fallback } := by
  unfold terminalReconciliationUpdates
  rw [if_neg (not_or.mpr ⟨hid, hnew⟩)]
  by_cases hsucceeded : d.status = .succeeded
  · simp only [if_pos hsucceeded]
  · simp only [if_neg hsucceeded]

/-- The times of the rows and of the state, up to the clock. -/
structure Clocked (t : Time) (v : JobView) : Prop where
  rows : ∀ d ∈ v.store.queue.rows, Dated t d
  uncertain : v.state.lastUncertainSendAt = 0
  sent : 0 ≤ v.state.lastSentAt ∧ v.state.lastSentAt ≤ t
  initial : 0 < v.state.initialDueAtEpoch → v.state.lastSentAt = 0
  enqueued : 0 ≤ v.state.lastEnqueuedAt ∧ v.state.lastEnqueuedAt ≤ t
  named : v.state.lastDeliverySendId ≠ "" → 0 < v.state.lastEnqueuedAt
  fired : 0 ≤ v.state.lastManualFireAtEpoch ∧ v.state.lastManualFireAtEpoch ≤ t

theorem Clocked.mono {t t' : Time} {v : JobView} (htime : t ≤ t') (h : Clocked t v) :
    Clocked t' v where
  rows d hd := (h.rows d hd).mono htime
  uncertain := h.uncertain
  sent := ⟨h.sent.1, h.sent.2.trans htime⟩
  initial := h.initial
  enqueued := ⟨h.enqueued.1, h.enqueued.2.trans htime⟩
  named := h.named
  fired := ⟨h.fired.1, h.fired.2.trans htime⟩

theorem clocked_empty {t : Time} (ht : 0 < t) (name : String) :
    Clocked t (History.empty.view name) :=
  ⟨fun _ hd => (nomatch hd), rfl, ⟨le_refl 0, ht.le⟩, fun _ => rfl, ⟨le_refl 0, ht.le⟩,
    fun h => absurd rfl h, ⟨le_refl 0, ht.le⟩⟩

section Steps

variable {lib : Stdlib} {cal : Calendar} {name : String} {start : SchedulerState}
  {call : SchedulerCall} {v v' : JobView}

theorem step_dated [Rounding] (h : JobStep lib cal name start call v v') (hnow : 0 < call.now)
    (hv : ∀ d ∈ v.store.queue.rows, Dated call.now d) :
    ∀ d ∈ v'.store.queue.rows, Dated call.now d := by
  rcases jobStep_rows h with hrows | ⟨input, job, d, hcall, _, _, hd, hqueue⟩
  · refine hrows.keeps (fun _ _ hab => dated_change hab) ?_ hv
    rintro a ⟨queue, record, rfl, _⟩
    exact dated_queued hnow
  · intro r hr
    subst hcall
    rw [hqueue] at hr
    rcases Table.mem_insertNew hr with hold | ⟨rfl, _⟩
    · exact hv r hold
    · rw [hd]
      exact dated_queued hnow

/-- The states are read without an error. -/
def Readable (name : String) (call : SchedulerCall) : Prop :=
  ∀ input, call = .tick input → input.unread name = false

theorem seen_readable {input : Tick} (hread : Readable name (.tick input)) :
    seen input name v = v.state := by
  unfold seen
  rw [hread input rfl, if_neg Bool.false_ne_true]

theorem clocked_step [Rounding] (hnow : 0 < call.now) (hread : Readable name call)
    (h : JobStep lib cal name start call v v') (hv : Clocked call.now v) : Clocked call.now v' := by
  have hrows := step_dated h hnow hv.rows
  cases h with
  | stored store h hstart =>
    exact ⟨hrows, hv.uncertain, hv.sent, hv.initial, hv.enqueued, hv.named, hv.fired⟩
  | reconciled input hcall hloads hview =>
    rcases reconciled_cases cal v.store.queue input name v.state with ⟨hsame, _⟩ |
      ⟨d, jitter, hd, hterminal, hid, hnew, hstate⟩
    · rw [hsame]
      exact hv
    · have hdated := hv.rows d (Table.lookup_mem hd)
      obtain ⟨hafter, hbefore⟩ := hdated.completed input.now
      have hpositive := lt_of_lt_of_le hdated.positive hafter
      rw [hstate, receipt_taken (by rwa [Table.lookup_key hd]) (by rwa [Table.lookup_key hd])]
      refine ⟨hrows, ?_, ?_, fun h => absurd h (lt_irrefl 0), hv.enqueued, hv.named, hv.fired⟩
      · dsimp only
        split
        · rfl
        · exact hv.uncertain
      · dsimp only
        split
        · exact ⟨hpositive.le, hbefore⟩
        · exact hv.sent
  | initial input job dueAt hcall hjob hdue =>
    subst hcall
    rw [seen_readable hread] at hdue
    refine ⟨hrows, hv.uncertain, hv.sent, ?_, hv.enqueued, hv.named, hv.fired⟩
    intro _
    unfold initialDueAt at hdue
    split at hdue
    · cases hdue
    · rename_i hmarker
      by_contra hsent
      apply hmarker
      unfold hasMarker
      rw [decide_eq_true hsent]
      rfl
  | found input job d c hcall hjob hview hallows hdue hd hstore =>
    have hdated := hv.rows d (existing_mem hd)
    refine ⟨hrows, hv.uncertain, hv.sent, hv.initial, ?_, ?_, hv.fired⟩
    · unfold pendingDeliveryUpdates
      dsimp only
      rw [if_neg hdated.positive.ne']
      exact ⟨hdated.positive.le, hdated.created⟩
    · intro _
      unfold pendingDeliveryUpdates
      dsimp only
      rw [if_neg hdated.positive.ne']
      exact hdated.positive
  | created input job d c hcall hjob hview hallows hdue hnone hd hstore =>
    subst hcall
    exact ⟨hrows, hv.uncertain, hv.sent, hv.initial, ⟨hnow.le, le_refl _⟩, fun _ => hnow, hv.fired⟩
  | defined command available now job hcall hview hnone hcommand hname =>
    exact ⟨hrows, rfl, ⟨le_refl 0, hnow.le⟩, fun h => absurd h (lt_irrefl 0), ⟨le_refl 0, hnow.le⟩,
      fun h => absurd rfl h, ⟨le_refl 0, hnow.le⟩⟩
  | edited command available now old job hcall hview hold hcommand hname =>
    split
    · exact ⟨hrows, hv.uncertain, hv.sent, fun h => absurd h (lt_irrefl 0), hv.enqueued, hv.named,
        hv.fired⟩
    · exact ⟨hrows, hv.uncertain, hv.sent, hv.initial, hv.enqueued, hv.named, hv.fired⟩
  | fired requestId now job hcall hjob hinterval =>
    subst hcall
    exact ⟨hrows, hv.uncertain, hv.sent, fun h => absurd h (lt_irrefl 0), hv.enqueued, hv.named,
      ⟨hnow.le, le_refl _⟩⟩
  | superseded requestId now job d hcall hjob hinterval hd hcancelled =>
    subst hcall
    exact ⟨hrows, hv.uncertain, hv.sent, fun h => absurd h (lt_irrefl 0), hv.enqueued, hv.named,
      ⟨hnow.le, le_refl _⟩⟩
  | paused flag now hcall hjob =>
    exact ⟨hrows, hv.uncertain, hv.sent, hv.initial, hv.enqueued, hv.named, hv.fired⟩

end Steps

/-- The floor of an interval job lies an interval behind every dispatch, as the host adds
them up. -/
theorem intervalFloor_ge [Rounding] {job : PromptJob} {state : JobState} {dispatch : Time}
    (hrun : job.runAtEpoch = none) (hdaily : job.dailyAt = none) (hpositive : 0 < dispatch)
    (hdispatch : dispatch ≤ state.lastSentAt ∨ dispatch ≤ state.lastEnqueuedAt ∨
      dispatch ≤ state.lastManualFireAtEpoch) :
    Rounding.round (dispatch + job.intervalSeconds) ≤ intervalFloor job state := by
  have hlatest : dispatch ≤ max (max (lastAttemptAt state) state.lastEnqueuedAt)
      state.lastManualFireAtEpoch := by
    unfold lastAttemptAt
    rcases hdispatch with h | h | h
    · exact h.trans (le_max_of_le_left (le_max_of_le_left (le_max_left _ _)))
    · exact h.trans (le_max_of_le_left (le_max_right _ _))
    · exact h.trans (le_max_right _ _)
  unfold intervalFloor
  dsimp only
  rw [if_pos ⟨lt_of_lt_of_le hpositive hlatest, hrun, hdaily⟩, max_eq_right job.interval_nonneg]
  have hinterval := job.interval_nonneg
  exact Rounding.round_mono (by linarith) (by linarith)

/-- A recurring job is due only after its interval floor. -/
theorem due_floor [Rounding] {cal : Calendar} {job : PromptJob} {state : JobState} {now : Time}
    (hrun : job.runAtEpoch = none) (hdaily : job.dailyAt = none)
    (hdue : isDue cal job state now = true) : intervalFloor job state ≤ now := by
  have hfloor : ∀ x : Time, max x (intervalFloor job state - now) ≤ 0 →
      intervalFloor job state ≤ now := by
    intro x hx
    have h := (le_max_right x _).trans hx
    linarith
  unfold isDue dueIn at hdue
  rw [hrun] at hdue
  dsimp only at hdue
  split at hdue
  · rename_i seconds hseconds
    have hle := of_decide_eq_true hdue
    split at hseconds
    · rw [← Option.some.inj hseconds] at hle
      exact hfloor _ hle
    split at hseconds
    · rw [hdaily] at hseconds
      rw [← Option.some.inj hseconds] at hle
      exact hfloor _ hle
    split at hseconds
    · rw [← Option.some.inj hseconds] at hle
      exact hfloor _ hle
    · rw [← Option.some.inj hseconds] at hle
      exact hfloor _ hle
  · exact Bool.noConfusion hdue

/-- A job that was sent, and whose sends are known, is keyed by its next due time. -/
theorem marker_next {job : PromptJob} {state : JobState} (hrun : job.runAtEpoch = none)
    (hknown : state.lastUncertainSendAt ≤ state.lastSentAt) (hnext : 0 < state.nextDueAtEpoch) :
    occurrenceMarker job state = state.nextDueAtEpoch := by
  unfold occurrenceMarker
  rw [hrun]
  dsimp only
  rw [if_neg (not_lt.mpr hknown), if_pos hnext]

/-- A job that is yet to be sent is keyed by its first due time. -/
theorem marker_initial {job : PromptJob} {state : JobState} (hrun : job.runAtEpoch = none)
    (hknown : state.lastUncertainSendAt ≤ state.lastSentAt) (hnext : ¬ 0 < state.nextDueAtEpoch)
    (hinitial : 0 < state.initialDueAtEpoch) :
    occurrenceMarker job state = state.initialDueAtEpoch := by
  unfold occurrenceMarker
  rw [hrun]
  dsimp only
  rw [if_neg (not_lt.mpr hknown), if_neg hnext, if_pos hinitial]

/-- A recurring job is due only once the marker of its occurrence has passed. -/
theorem due_marker [Rounding] {cal : Calendar} {job : PromptJob} {t now : Time} {v : JobView}
    (hrun : job.runAtEpoch = none) (hv : Clocked t v) (htime : t ≤ now) (hnow : 0 ≤ now)
    (hdue : isDue cal job v.state now = true) : occurrenceMarker job v.state ≤ now := by
  have hknown : ¬ v.state.lastSentAt < v.state.lastUncertainSendAt := by
    rw [hv.uncertain]
    exact not_lt.mpr hv.sent.1
  have hattempt : lastAttemptAt v.state = v.state.lastSentAt := by
    unfold lastAttemptAt
    rw [hv.uncertain, max_eq_left hv.sent.1]
  have hsent : max 0 v.state.lastSentAt ≤ now := max_le hnow (hv.sent.2.trans htime)
  have hpassed : ∀ x y : Time, max (max 0 (x - now)) y ≤ 0 → x ≤ now := by
    intro x y h
    have hx := (le_max_right 0 (x - now)).trans ((le_max_left _ y).trans h)
    linarith
  unfold occurrenceMarker
  rw [hrun]
  dsimp only
  rw [if_neg hknown]
  unfold isDue dueIn at hdue
  rw [hrun] at hdue
  dsimp only at hdue
  by_cases hnext : 0 < v.state.nextDueAtEpoch
  · rw [if_pos hnext]
    rw [if_pos ⟨hnext, not_lt.mp hknown⟩] at hdue
    exact hpassed _ _ (of_decide_eq_true hdue)
  · rw [if_neg hnext]
    rw [if_neg fun h => hnext h.1, hattempt] at hdue
    by_cases hinitial : 0 < v.state.initialDueAtEpoch
    · have hunsent : ¬ 0 < v.state.lastSentAt := by
        rw [hv.initial hinitial]
        exact lt_irrefl 0
      rw [if_pos hinitial]
      rw [if_neg hunsent, if_pos hinitial] at hdue
      exact hpassed _ _ (of_decide_eq_true hdue)
    · rw [if_neg hinitial]
      exact hsent

theorem Clocked.known {t : Time} {v : JobView} (hv : Clocked t v) :
    v.state.lastUncertainSendAt ≤ v.state.lastSentAt := hv.uncertain.le.trans hv.sent.1

/-- A daily job without a due time waits for the time of day after its last success. -/
theorem due_daily [Rounding] {cal : Calendar} {job : PromptJob} {t now : Time} {v : JobView}
    {dailyAt : DailyAt}
    (hrun : job.runAtEpoch = none) (hdaily : job.dailyAt = some dailyAt) (hv : Clocked t v)
    (hnext : ¬ 0 < v.state.nextDueAtEpoch) (hsent : 0 < v.state.lastSentAt)
    (hdue : isDue cal job v.state now = true) :
    nextDailyEpoch cal dailyAt v.state.lastSentAt false ≤ now := by
  have hattempt : lastAttemptAt v.state = v.state.lastSentAt := by
    unfold lastAttemptAt
    rw [max_eq_left hv.known]
  unfold isDue dueIn at hdue
  rw [hrun] at hdue
  dsimp only at hdue
  rw [if_neg fun h => hnext h.1, hattempt, if_pos hsent, hdaily] at hdue
  have hle := (le_max_right 0 _).trans (of_decide_eq_true hdue)
  linarith

/-- The next due time lies an interval behind the completion, as the host adds them up. -/
theorem scheduledDue_ge [Rounding] {cal : Calendar} {state : JobState} {completed jitter : Time}
    (hdaily : state.pendingDeliveryDailyAt = none) (honce : state.pendingDeliveryOneTime = false)
    (hcompleted : 0 ≤ completed) (hinterval : 0 ≤ state.pendingDeliveryIntervalSeconds)
    (hround : Rounding.round state.pendingDeliveryIntervalSeconds =
      state.pendingDeliveryIntervalSeconds) :
    Rounding.round (completed + state.pendingDeliveryIntervalSeconds) ≤
      scheduledDue cal state completed jitter := by
  have hdelay : state.pendingDeliveryIntervalSeconds ≤ recurringDelay
      state.pendingDeliveryIntervalSeconds state.pendingDeliveryExactInterval jitter := by
    unfold recurringDelay
    rw [max_eq_right hinterval]
    split
    · exact le_rfl
    · exact le_round_add hinterval hround (le_max_left 0 jitter)
  have hdue : Rounding.round (completed + state.pendingDeliveryIntervalSeconds) ≤
      nextDueAt cal completed state.pendingDeliveryOneTime state.pendingDeliveryDailyAt
        state.pendingDeliveryIntervalSeconds state.pendingDeliveryExactInterval jitter := by
    unfold nextDueAt
    rw [hdaily, honce, if_neg Bool.false_ne_true]
    exact Rounding.round_mono (by linarith) (by linarith)
  unfold scheduledDue
  dsimp only
  split
  · exact hdue.trans (le_max_left _ _)
  · exact hdue

end Prompta.DueTimes
