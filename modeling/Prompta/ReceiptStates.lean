import Prompta.JobDeliveries

/-!
The state of a job follows the receipt of its last delivery. A tick takes a final receipt
in once, so the state goes wrong when the queue corrects a receipt that was taken in, or
when a tick comes back to a delivery that succeeded before. Nothing else breaks it.
-/
namespace Prompta.ReceiptStates

open Relation Runs Tables Texts DisplayBlocks Schema ResponseStore DeliveryQueue ManualQueue Service
  Jobs SchedulerPolicy Scheduler FreshChats JobSteps JobDeliveries

/-- When the last delivery of the job has succeeded, the job is healthy and was sent when
the delivery was finished. -/
def ShowsReceipt (s : SchedulerState) (name : String) : Prop :=
  ∀ d, s.store.queue.lookup (jobState s.states name).lastDeliverySendId = some d →
    d.status = .succeeded →
      (jobState s.states name).status = .healthy ∧ (jobState s.states name).lastSentAt =
      d.finishedAt

/-- The results database proves that the delivery was accepted. -/
def ProvenAccepted (c : Chats) (sendId : String) : Prop :=
  ∃ r, c.results.lookup sendId = some r ∧ 0 < r.acceptedAt ∧ provesAcceptance r.status = true

def confirms (call : SchedulerCall) : Bool :=
  match call with
  | .service c _ =>
    match c.action with
    | .queue (.reconcile readable) => readable
    | .queue (.expireLeases _ readable) => readable
    | _ => false
  | _ => false

/-- What a call must not meet: a quarantined last delivery that was taken in before and
is now confirmed, and a succeeded delivery under the key of the next occurrence. -/
structure Undisturbed (lib : Stdlib) (cal : Calendar) (name : String) (s : SchedulerState)
    (call : SchedulerCall) : Prop where
  clock : 0 < call.now
  settled : confirms call = true → ∀ d, s.store.queue.lookup
      (jobState s.states name).lastDeliverySendId = some d → d.status = .outcomeUnknown →
    (jobState s.states name).lastCompletedDeliverySendId =
      (jobState s.states name).lastDeliverySendId → ¬ ProvenAccepted s.store.chats d.sendId
  fresh : ∀ input, call = .tick input → ∀ job ∈ tickJobs s input, job.name = name →
    allowsEnqueue cal (turn lib cal s input name) input job (tickJobs s input) = true →
      ∀ d, existingDelivery (turn lib cal s input name).store.queue (scheduledRecord job
        (occurrenceKey lib job (readState (turn lib cal s input name) input name))) = some d →
          d.status ≠ .succeeded

section Rows

variable {lib : Stdlib}

theorem mem_confirmedIds {s : Store} {sendId : String} (h : sendId ∈ confirmedIds s) :
    ProvenAccepted s.chats sendId := by
  unfold confirmedIds at h
  obtain ⟨r, hr, rfl⟩ := List.mem_map.mp h
  obtain ⟨hmem, hproof⟩ := List.mem_filter.mp hr
  simp only [Bool.and_eq_true, decide_eq_true_eq] at hproof
  exact ⟨r, Table.lookup_of_mem hmem, hproof.1.2, hproof.2⟩

/-- Reconciliation leaves a row alone that it has no proof for. -/
theorem reconcile_kept {s : Store} {readable : Bool} {now : Time} {sendId : String} {d : Delivery}
    (hd : s.queue.lookup sendId = some d)
    (hproof : readable = true → d.status = .outcomeUnknown → ¬ ProvenAccepted s.chats d.sendId) :
    (reconcileAcceptedOutcomes s readable now).1.queue.lookup sendId = some d := by
  unfold reconcileAcceptedOutcomes
  by_cases hreadable : readable = true
  · rw [hreadable, Bool.not_true, if_neg Bool.false_ne_true]
    dsimp only
    rw [Table.lookup_update, hd, Option.map_some, if_neg]
    intro hconfirmed
    simp only [Bool.and_eq_true, decide_eq_true_eq] at hconfirmed
    exact hproof hreadable hconfirmed.2 (mem_confirmedIds hconfirmed.1)
  · rw [Bool.not_eq_true] at hreadable
    rw [hreadable, Bool.not_false, if_pos rfl]
    exact hd

/-- The rows of other deliveries are left. -/
theorem results_markUnavailable (c : Chats) (answers : String → Bool) (sendIds : List String)
    (now : Time) {k : String} (hk : k ∉ sendIds) :
    (markUnavailable c answers sendIds now).results.lookup k = c.results.lookup k := by
  induction sendIds generalizing c with
  | nil => rfl
  | cons sendId rest ih =>
    rw [List.mem_cons, not_or] at hk
    rw [markUnavailable_cons, ih _ hk.2]
    split
    · unfold unavailable updateResult
      dsimp only
      rw [Table.lookup_updateAt_ne _ _ _ _ _ _ hk.1]
    · rfl

/-- A terminal row stays as it is, unless it is quarantined and confirmed. -/
theorem step_settled (s : Store) (c : Call) (hc : enqueues c = false) {sendId : String}
    {d : Delivery}
    (hd : s.queue.lookup sendId = some d) (hterminal : d.status.isTerminal = true)
    (hproof : confirms (.service c hc) = true → d.status = .outcomeUnknown →
      ¬ ProvenAccepted s.chats d.sendId) :
    (step lib s c).1.queue.lookup sendId = some d := by
  by_cases hreconciles : reconciles c
  · rcases hreconciles with ⟨readable, haction⟩ | ⟨answers, readable, haction⟩
    · rw [step_queue haction]
      refine reconcile_kept hd fun hreadable => hproof ?_
      unfold confirms
      dsimp only
      rw [haction]
      exact hreadable
    · rw [step_queue haction]
      have hnotExpired : expiredLease c.now d = false := by
        unfold expiredLease
        rw [Bool.and_eq_false_iff, decide_eq_false_iff_not]
        left
        intro hrunning
        rw [hrunning] at hterminal
        exact Bool.noConfusion hterminal
      have hexpired : (expireRows s.queue c.now).1.lookup sendId = some d := by
        unfold expireRows
        dsimp only
        rw [Table.lookup_update, hd, Option.map_some, hnotExpired, if_neg Bool.false_ne_true]
      have hother : d.sendId ∉ (expireRows s.queue c.now).2 := by
        intro hmem
        obtain ⟨d', hd', hid⟩ := List.mem_map.mp hmem
        obtain ⟨hrow, hexp⟩ := List.mem_filter.mp hd'
        have hsame := Table.lookup_of_mem hrow
        rw [hid, Table.lookup_key hd, hd] at hsame
        obtain rfl := Option.some.inj hsame
        rw [hnotExpired] at hexp
        exact Bool.noConfusion hexp
      change (expireLeases s answers readable c.now).1.queue.lookup sendId = some d
      unfold expireLeases
      refine reconcile_kept hexpired ?_
      rintro hreadable hunknown ⟨r, hr, hproved⟩
      rw [results_markUnavailable _ _ _ _ hother] at hr
      refine hproof ?_ hunknown ⟨r, hr, hproved⟩
      unfold confirms
      dsimp only
      rw [haction]
      exact hreadable
  · obtain ⟨d', hd', hpath⟩ := (step_deliveries s c lib).lookup_some (fun _ _ h => h.sendId_eq) hd
    have hkept : d' = d := by
      refine reflTransGen_keeps (P := fun r => r = d) ?_ hpath rfl
      rintro a b hab rfl
      exact absurd (change_of_terminal hab hterminal).2.1 hreconciles
    rw [hd', hkept]

/-- An enqueue leaves the rows that are there. -/
theorem enqueue_kept (s : Store) (record : DeliveryRecord) (answers : Bool) (now : Time)
    {sendId : String} {d : Delivery} (hd : s.queue.lookup sendId = some d) :
    (enqueueIdempotent s record answers now).1.queue.lookup sendId = some d := by
  unfold enqueueIdempotent
  split
  · exact hd
  split
  · exact hd
  split
  · exact hd
  split
  · exact hd
  · rename_i hnone
    dsimp only
    rw [Table.lookup_insertNew_ne _ _ _, hd]
    rintro rfl
    have hfree : s.queue.lookup record.sendId = none := (Option.or_eq_none_iff.mp hnone).1
    change s.queue.lookup record.sendId = some d at hd
    rw [hfree] at hd
    cases hd

/-- An enqueue adds a queued row, if any. -/
theorem enqueue_lookup {s : Store} {record : DeliveryRecord} {answers : Bool} {now : Time}
    {sendId : String} {d : Delivery}
    (h : (enqueueIdempotent s record answers now).1.queue.lookup sendId = some d) :
    s.queue.lookup sendId = some d ∨ d = queuedDelivery s.queue record now := by
  unfold enqueueIdempotent at h
  split at h
  · exact Or.inl h
  split at h
  · exact Or.inl h
  split at h
  · exact Or.inl h
  split at h
  · exact Or.inl h
  · dsimp only at h
    rcases Table.mem_insertNew (Table.lookup_mem h) with hold | ⟨hnew, _⟩
    · rw [← Table.lookup_key h]
      exact Or.inl (Table.lookup_of_mem hold)
    · exact Or.inr hnew

/-- A terminal row stays, unless a reconciliation finds the acceptance of an unknown outcome. -/
theorem storeStep_settled {name : String} {call : SchedulerCall} {s s' : Store}
    (h : StoreStep lib name call s s') {sendId : String} {d : Delivery}
    (hd : s.queue.lookup sendId = some d) (hterminal : d.status.isTerminal = true)
    (hproof : confirms call = true → d.status = .outcomeUnknown →
      ¬ ProvenAccepted s.chats d.sendId) :
    s'.queue.lookup sendId = some d := by
  cases h with
  | service c hc hcall =>
    subst hcall
    exact step_settled s c hc hd hterminal hproof
  | manual request answers hcall =>
    rcases manual_sameRows lib s request answers call.now with hsame | hsame
    · rw [hsame.queue]
      exact hd
    · rw [hsame.queue]
      exact enqueue_kept s _ answers call.now hd
  | promoted input promotedId hcall =>
    have hkept : (step lib s ⟨.queue (.promoteOneTime promotedId),
        input.now⟩).1.queue.lookup sendId =
        some d := step_settled s _ rfl hd hterminal fun hconfirms => Bool.noConfusion hconfirms
    exact hkept
  | withdrawn fired requestId withdrawnId now hcall =>
    have hkept : (step lib s ⟨.queue (.cancelPending withdrawnId "superseded by manual fire" true),
        now⟩).1.queue.lookup sendId = some d :=
      step_settled s _ rfl hd hterminal fun hconfirms => Bool.noConfusion hconfirms
    exact hkept
  | scheduled input job state hcall hname => exact enqueue_kept s _ true input.now hd

/-- A succeeded row has a finish time. -/
def Stamped (d : Delivery) : Prop := d.status = .succeeded → 0 < d.finishedAt

theorem change_stamped {now : Time} (hnow : 0 < now) {d d' : Delivery} (h : RowChange now d d')
    (hd : Stamped d) : Stamped d' := by
  obtain ⟨s, call, rfl, hchange⟩ := h
  intro hsucceeded
  have hfinished : 0 < if 0 < d.finishedAt then d.finishedAt else call.now := by
    split
    · assumption
    · exact hnow
  cases hchange with
  | edited _ _ _ _ h => exact hd hsucceeded
  | expired h => exact nomatch hsucceeded
  | confirmed h => exact hfinished
  | cancelled _ h => exact nomatch hsucceeded
  | leased _ _ _ _ _ _ h => exact nomatch hsucceeded
  | renewed _ _ _ h => exact hd hsucceeded
  | retried _ _ _ _ status _ _ hstatus =>
    obtain rfl : status = .succeeded := hsucceeded
    exact Bool.noConfusion hstatus
  | completed _ _ h => exact hfinished
  | failed _ _ _ _ _ h => exact hnow

/-- What is kept of the rows and of the state. -/
structure Follows (lib : Stdlib) (v : JobView) : Prop where
  recorded : AllRecorded lib v.store
  stamped : ∀ d ∈ v.store.queue.rows, Stamped d
  settled : v.state.lastCompletedDeliverySendId ≠ "" → ∃ d, v.store.queue.lookup
    v.state.lastCompletedDeliverySendId = some d ∧ d.status.isTerminal = true
  shown : v.state.lastCompletedDeliverySendId = v.state.lastDeliverySendId → ∀ d,
    v.store.queue.lookup v.state.lastDeliverySendId = some d → d.status = .succeeded →
      v.state.status = .healthy ∧ v.state.lastSentAt = d.finishedAt

/-- A row gets its finish time with its success. -/
theorem step_stamped {cal : Calendar} {name : String} {start : SchedulerState}
    {call : SchedulerCall}
    {v v' : JobView} (h : JobStep lib cal name start call v v') (hnow : 0 < call.now)
    (hv : ∀ d ∈ v.store.queue.rows, Stamped d) : ∀ d ∈ v'.store.queue.rows, Stamped d := by
  rcases jobStep_rows h with hrows | ⟨input, job, d, _, _, hfree, hd, hqueue⟩
  · refine hrows.keeps (fun _ _ hab => change_stamped hnow hab) ?_ hv
    rintro a ⟨queue, record, rfl, _⟩ hsucceeded
    exact nomatch hsucceeded
  · intro r hr hsucceeded
    rw [hqueue] at hr
    rcases Table.mem_insertNew hr with hold | ⟨rfl, _⟩
    · exact hv r hold hsucceeded
    · rw [hd] at hsucceeded
      exact nomatch hsucceeded

/-- The fields that matter are as before. -/
theorem Follows.of_state {v v' : JobView} (hv : Follows lib v) (hstore : v'.store = v.store)
    (hcompleted : v'.state.lastCompletedDeliverySendId = v.state.lastCompletedDeliverySendId)
    (hlast : v'.state.lastDeliverySendId = v.state.lastDeliverySendId)
    (hstatus : v'.state.status = v.state.status)
    (hsent : v'.state.lastSentAt = v.state.lastSentAt) :
    Follows lib v' := by
  constructor
  · rw [hstore]
    exact hv.recorded
  · rw [hstore]
    exact hv.stamped
  · rw [hstore, hcompleted]
    exact hv.settled
  · rw [hstore, hcompleted, hlast, hstatus, hsent]
    exact hv.shown

/-- The rest of the service leaves the receipts that were taken in. -/
theorem follows_stored {cal : Calendar} {name : String} {start : SchedulerState}
    {call : SchedulerCall} {v : JobView} {store : Store} (hC : Undisturbed lib cal name start call)
    (h : StoreStep lib name call v.store store)
    (hstart : ∀ c hc, call = .service c hc → v = view start v.made name) (hv : Follows lib v) :
    Follows lib { v with store := store } := by
  have hstep : JobStep lib cal name start call v { v with store := store } :=
    JobStep.stored store h hstart
  refine ⟨jobStep_recorded hstep hv.recorded, step_stamped hstep hC.clock hv.stamped, ?_, ?_⟩
  · intro hid
    exact terminal_later hstep (hv.settled hid)
  · intro hsame d hd hsucceeded
    have hid : v.state.lastCompletedDeliverySendId ≠ "" := by
      rw [hsame, ← Table.lookup_key hd]
      exact (jobStep_recorded hstep hv.recorded d (Table.lookup_mem hd)).sendId_ne
    obtain ⟨d₀, hd₀, hterminal⟩ := hv.settled hid
    rw [hsame] at hd₀
    have hkept : store.queue.lookup v.state.lastDeliverySendId = some d₀ := by
      refine storeStep_settled h hd₀ hterminal ?_
      intro hconfirms hunknown
      have hview : v = view start v.made name := by
        unfold confirms at hconfirms
        split at hconfirms
        · exact hstart _ _ rfl
        · exact Bool.noConfusion hconfirms
      have hsettled := hC.settled hconfirms
      rw [hview] at hd₀ hsame ⊢
      exact hsettled d₀ hd₀ hunknown hsame
    change store.queue.lookup v.state.lastDeliverySendId = some d at hd
    rw [hkept] at hd
    obtain rfl := Option.some.inj hd
    exact hv.shown hsame d₀ hd₀ hsucceeded

/-- The state takes in the receipt of its last delivery. -/
theorem taken_ids {cal : Calendar} {state : JobState} {d : Delivery} {now jitter : Time}
    (hguard : ¬ (d.sendId = "" ∨ state.lastCompletedDeliverySendId = d.sendId)) :
    (terminalReconciliationUpdates cal state d now jitter).lastCompletedDeliverySendId = d.sendId ∧
      (terminalReconciliationUpdates cal state d now jitter).lastDeliverySendId =
        state.lastDeliverySendId := by
  unfold terminalReconciliationUpdates
  rw [if_neg hguard]
  split <;> exact ⟨rfl, rfl⟩

/-- The guard against taking a receipt in twice lets a new one pass. -/
theorem taken_guard {v : JobView} {d : Delivery}
    (hd : v.store.queue.lookup v.state.lastDeliverySendId = some d)
    (hid : v.state.lastDeliverySendId ≠ "")
    (hnew : v.state.lastCompletedDeliverySendId ≠ v.state.lastDeliverySendId) :
    ¬ (d.sendId = "" ∨ v.state.lastCompletedDeliverySendId = d.sendId) := by
  rw [Table.lookup_key hd]
  rintro (hempty | hsame)
  · exact hid hempty
  · exact hnew hsame

/-- The state shows the receipt that it has taken in. -/
theorem follows_taken {cal : Calendar} {v : JobView} {d : Delivery} {now jitter : Time}
    (hd : v.store.queue.lookup v.state.lastDeliverySendId = some d)
    (hterminal : d.status.isTerminal = true)
    (hid : v.state.lastDeliverySendId ≠ "")
    (hnew : v.state.lastCompletedDeliverySendId ≠ v.state.lastDeliverySendId)
    (hv : Follows lib v) :
    Follows lib { v with state := terminalReconciliationUpdates cal v.state d now jitter } := by
  have hguard := taken_guard hd hid hnew
  obtain ⟨hcompleted, hlast⟩ : (terminalReconciliationUpdates cal v.state d now
      jitter).lastCompletedDeliverySendId = d.sendId ∧
        (terminalReconciliationUpdates cal v.state d now
        jitter).lastDeliverySendId = v.state.lastDeliverySendId := taken_ids hguard
  refine ⟨hv.recorded, hv.stamped, ?_, ?_⟩
  · intro _
    rw [hcompleted, Table.lookup_key hd]
    exact ⟨d, hd, hterminal⟩
  · intro _ d' hd' hsucceeded
    rw [hlast] at hd'
    change v.store.queue.lookup v.state.lastDeliverySendId = some d' at hd'
    rw [hd] at hd'
    obtain rfl := Option.some.inj hd'
    have hfinished : d.finishedAt ≠ 0 := (hv.stamped d (Table.lookup_mem hd) hsucceeded).ne'
    have htime : completedAt d now = d.finishedAt := by
      unfold completedAt
      rw [if_pos hfinished]
    unfold terminalReconciliationUpdates
    rw [if_neg hguard, if_pos hsucceeded]
    exact ⟨rfl, htime⟩

/-- The delivery that a tick comes back to has not succeeded. -/
theorem found_unsucceeded {cal : Calendar} {name : String} {start : SchedulerState} {input : Tick}
    {v : JobView} {job : PromptJob} {d : Delivery}
    (hC : Undisturbed lib cal name start (.tick input)) (hjob : job ∈ tickJobs start input)
    (hview : v = view (turn lib cal start input name) v.made name)
    (hallows : allowsEnqueue cal (turn lib cal start input name) input job
      (tickJobs start input) = true)
    (hdue : DueNow cal input name v job)
    (hd : existingDelivery v.store.queue
      (scheduledRecord job (occurrenceKey lib job (seen input name v))) = some d) :
    ∀ d', v.store.queue.lookup d.sendId = some d' → d'.status ≠ .succeeded := by
  intro d' hd'
  have hname : job.name = name := by
    have hdefined := hdue.defined
    rw [hview] at hdefined
    exact Table.lookup_key hdefined
  have hfresh : d.status ≠ .succeeded := by
    rw [hview] at hd
    exact hC.fresh input rfl job hjob hname hallows d hd
  rw [Table.lookup_of_mem (existing_mem hd)] at hd'
  obtain rfl := Option.some.inj hd'
  exact hfresh

/-- A delivery has not succeeded when it is created. -/
theorem created_unsucceeded {queue : Deliveries} {record : DeliveryRecord} {now : Time}
    {d : Delivery}
    (hnone : existingDelivery queue record = none) (hd : d = queuedDelivery queue record now) :
    ∀ d', (queue.insertNew d).lookup d.sendId = some d' → d'.status ≠ .succeeded := by
  intro d' hd' hsucceeded
  have hfree : queue.lookup d.sendId = none := by
    rw [hd]
    exact (Option.or_eq_none_iff.mp hnone).1
  rw [Table.lookup_insertNew_self hfree] at hd'
  obtain rfl := Option.some.inj hd'
  rw [hd] at hsucceeded
  exact nomatch hsucceeded

/-- One case for each way a call can touch the job. -/
theorem follows_step {cal : Calendar} {name : String} {start : SchedulerState}
    {call : SchedulerCall}
    {v v' : JobView} (hC : Undisturbed lib cal name start call)
    (h : JobStep lib cal name start call v v') (hv : Follows lib v) : Follows lib v' := by
  have hstep := h
  cases h with
  | stored store h hstart => exact follows_stored hC h hstart hv
  | reconciled input hcall hloads hview =>
    rcases reconciled_cases cal v.store.queue input name v.state with ⟨hsame, _⟩ |
      ⟨d, jitter, hd, hterminal, hid, hnew, hstate⟩
    · rw [hsame]
      exact hv
    · rw [hstate]
      exact follows_taken hd hterminal hid hnew hv
  | initial input job dueAt hcall hjob hdue => exact hv.of_state rfl rfl rfl rfl rfl
  | found input job d c hcall hjob hview hallows hdue hd hstore =>
    refine ⟨hv.recorded, hv.stamped, hv.settled, ?_⟩
    intro _ d' hd' hsucceeded
    subst hcall
    exact absurd hsucceeded (found_unsucceeded hC hjob hview hallows hdue hd d' hd')
  | created input job d c hcall hjob hview hallows hdue hnone hd hstore =>
    refine ⟨jobStep_recorded hstep hv.recorded, step_stamped hstep hC.clock hv.stamped, ?_, ?_⟩
    · intro hid
      exact terminal_later hstep (hv.settled hid)
    · intro _ d' hd' hsucceeded
      exact absurd hsucceeded (created_unsucceeded hnone hd d' hd')
  | defined command available now job hcall hview hnone hcommand hname =>
    refine ⟨hv.recorded, hv.stamped, fun hid => absurd rfl hid, ?_⟩
    intro _ d hd _
    exact absurd (Table.lookup_key hd) (hv.recorded d (Table.lookup_mem hd)).sendId_ne
  | edited command available now old job hcall hview hold hcommand hname =>
    split
    · exact hv.of_state rfl rfl rfl rfl rfl
    · exact hv.of_state rfl rfl rfl rfl rfl
  | fired requestId now job hcall hjob hinterval => exact hv.of_state rfl rfl rfl rfl rfl
  | superseded requestId now job d hcall hjob hinterval hd hcancelled =>
    refine ⟨hv.recorded, hv.stamped, ?_, ?_⟩
    · intro _
      exact ⟨d, hd, by rw [hcancelled]; rfl⟩
    · intro _ d' hd' hsucceeded
      change v.store.queue.lookup v.state.lastDeliverySendId = some d' at hd'
      rw [hd] at hd'
      obtain rfl := Option.some.inj hd'
      rw [hcancelled] at hsucceeded
      exact nomatch hsucceeded
  | paused flag now hcall hjob => exact hv.of_state rfl rfl rfl rfl rfl

/-- A receipt that has succeeded is taken in. -/
def TakenIn (v : JobView) : Prop :=
  ∀ d, v.store.queue.lookup v.state.lastDeliverySendId = some d → d.status = .succeeded →
    v.state.lastCompletedDeliverySendId = v.state.lastDeliverySendId

/-- The stores of a tick settle no delivery. -/
theorem tick_status {name : String} {input : Tick} {s s' : Store}
    (h : StoreStep lib name (.tick input) s s') {sendId : String} {d : Delivery}
    (hd : s'.queue.lookup sendId = some d) (hsucceeded : d.status = .succeeded) :
    s.queue.lookup sendId = some d := by
  cases h with
  | service c hc hcall => exact nomatch hcall
  | manual request answers hcall =>
    rcases hcall with hcall | ⟨fired, hcall⟩
    · exact nomatch hcall
    · exact nomatch hcall
  | promoted input promotedId hcall =>
    unfold promoteOneTime updateDelivery at hd
    dsimp only at hd
    by_cases hsame : sendId = promotedId
    · subst hsame
      rw [Table.lookup_updateAt_self] at hd
      obtain ⟨d₀, hd₀, hd₁⟩ := Option.map_eq_some_iff.mp hd
      split at hd₁
      · rename_i hwaiting
        rw [Bool.and_eq_true] at hwaiting
        rw [← hd₁] at hsucceeded
        change d₀.status = .succeeded at hsucceeded
        rw [hsucceeded] at hwaiting
        exact nomatch hwaiting.2
      · rw [hd₀, hd₁]
    · rw [Table.lookup_updateAt_ne _ _ _ _ _ _ hsame] at hd
      exact hd
  | withdrawn fired requestId withdrawnId now hcall => exact nomatch hcall
  | scheduled input job state hcall hname =>
    rcases enqueue_lookup hd with hold | hnew
    · exact hold
    · rw [hnew] at hsucceeded
      exact nomatch hsucceeded

/-- A receipt that was taken in stays so through the rest of the tick. -/
theorem taken_step {cal : Calendar} {name : String} {start : SchedulerState} {input : Tick}
    {v v' : JobView} (hC : Undisturbed lib cal name start (.tick input))
    (h : JobStep lib cal name start (.tick input) v v') (htaken : TakenIn v) : TakenIn v' := by
  cases h with
  | stored store h hstart =>
    intro d hd hsucceeded
    exact htaken d (tick_status h hd hsucceeded) hsucceeded
  | reconciled input' hcall hloads hview =>
    rcases reconciled_cases cal v.store.queue input' name v.state with ⟨hsame, _⟩ |
      ⟨d, jitter, hd, hterminal, hid, hnew, hstate⟩
    · rw [hsame]
      exact htaken
    · obtain ⟨hcompleted, hlast⟩ : (terminalReconciliationUpdates cal v.state d input'.now
          jitter).lastCompletedDeliverySendId = d.sendId ∧
            (terminalReconciliationUpdates cal v.state d
            input'.now jitter).lastDeliverySendId = v.state.lastDeliverySendId :=
        taken_ids (taken_guard hd hid hnew)
      intro _ _ _
      rw [hstate, hcompleted, hlast]
      exact Table.lookup_key hd
  | initial input' job dueAt hcall hjob hdue => exact htaken
  | found input' job d c hcall hjob hview hallows hdue hd hstore =>
    cases hcall
    intro d' hd' hsucceeded
    exact absurd hsucceeded (found_unsucceeded hC hjob hview hallows hdue hd d' hd')
  | created input' job d c hcall hjob hview hallows hdue hnone hd hstore =>
    intro d' hd' hsucceeded
    exact absurd hsucceeded (created_unsucceeded hnone hd d' hd')
  | defined command available now job hcall hview hnone hcommand hname => exact nomatch hcall
  | edited command available now old job hcall hview hold hcommand hname => exact nomatch hcall
  | fired requestId now job hcall hjob hinterval => exact nomatch hcall
  | superseded requestId now job d hcall hjob hinterval hd hcancelled => exact nomatch hcall
  | paused flag now hcall hjob => exact nomatch hcall

/-- The tick takes the receipts in before it enqueues. -/
theorem reconciled_taken {cal : Calendar} {name : String} {s : SchedulerState} {input : Tick}
    {made : List Time} (hloads : input.loads = true)
    (hrecorded : AllRecorded lib (reconciledView cal name s input made).store) :
    TakenIn (reconciledView cal name s input made) := by
  intro d hd hsucceeded
  have hnamed : d.sendId ≠ "" := (hrecorded d (Table.lookup_mem hd)).sendId_ne
  have hstore : (reconciledView cal name s input made).store =
      (restorePendingOncePriorities s input).store := by
    unfold reconciledView view reconcileTerminalReceipts
    split <;> rfl
  have hstate : (reconciledView cal name s input made).state = (reconcileState cal
      (restorePendingOncePriorities s input).store.queue input ⟨name,
        jobState (restorePendingOncePriorities s input).states name⟩).state := by
    unfold reconciledView view
    dsimp only
    rw [jobState_reconcile, if_pos hloads]
  rw [hstore, hstate] at hd
  rw [hstate]
  generalize (restorePendingOncePriorities s input).store.queue = queue at hd ⊢
  generalize jobState (restorePendingOncePriorities s input).states name = state at hd ⊢
  rcases reconciled_cases cal queue input name state with ⟨hsame, hdone⟩ |
    ⟨d', jitter, hd', hterminal, hid, hnew, htaken⟩
  · rw [hsame] at hd ⊢
    rcases hdone d hd (by rw [hsucceeded]; rfl) with hempty | hsettled
    · exact absurd ((Table.lookup_key hd).trans hempty) hnamed
    · exact hsettled
  · have hguard : ¬ (d'.sendId = "" ∨ state.lastCompletedDeliverySendId = d'.sendId) := by
      rw [Table.lookup_key hd', not_or]
      exact ⟨hid, hnew⟩
    obtain ⟨hcompleted, hlast⟩ : (terminalReconciliationUpdates cal state d' input.now
        jitter).lastCompletedDeliverySendId = d'.sendId ∧
          (terminalReconciliationUpdates cal state d'
          input.now jitter).lastDeliverySendId = state.lastDeliverySendId := taken_ids hguard
    rw [htaken, hcompleted, hlast]
    exact Table.lookup_key hd'

end Rows

theorem empty_follows (lib : Stdlib) (name : String) :
    Follows lib (view SchedulerState.empty [] name) := by
  refine ⟨?_, ?_, fun hid => absurd rfl hid, ?_⟩
  · intro d hd
    exact nomatch hd
  · intro d hd
    exact nomatch hd
  · intro _ d hd
    exact nomatch hd

/-- After every tick that can read the states, the state shows the receipt of the last
delivery. -/
theorem state_follows_receipt (lib : Stdlib) (cal : Calendar) (name : String)
    (run : List SchedulerCall) (input : Tick) (hloads : input.loads = true)
    (hrun : Meets (schedulerStep lib cal) (Undisturbed lib cal name) SchedulerState.empty
      (run ++ [.tick input])) :
    ShowsReceipt (final (schedulerStep lib cal) SchedulerState.empty (run ++ [.tick input]))
      name := by
  obtain ⟨hearlier, hlast⟩ := (meets_append _ _ _ _ _).mp hrun
  obtain ⟨made, hfollows⟩ := scheduler_invariant lib cal name (Undisturbed lib cal name)
      (Follows lib)
    (fun s call v v' hC h hv => follows_step hC h hv) SchedulerState.empty
    ⟨[], empty_follows lib name⟩ run hearlier
  have hC := hlast.1
  rw [final_append]
  generalize final (schedulerStep lib cal) SchedulerState.empty run = s at hfollows hC
  have hreconciled : Follows lib (reconciledView cal name s input made) :=
    reflTransGen_keeps (P := Follows lib) (fun v v' h hv => follows_step hC h hv)
      (reconciled_steps lib cal name s input made) hfollows
  have htaken : TakenIn (reconciledView cal name s input made) :=
    reconciled_taken hloads hreconciled.recorded
  obtain ⟨hshown, hdone⟩ := reflTransGen_keeps (P := fun v => Follows lib v ∧ TakenIn v)
    (fun v v' h hv => ⟨follows_step hC h hv.1, taken_step hC h hv.2⟩)
    (tick_rest lib cal name s input made) ⟨hreconciled, htaken⟩
  intro d hd hsucceeded
  exact hshown.shown (hdone d hd hsucceeded) d hd hsucceeded

/-- A tick creates deliveries that have not succeeded. -/
theorem undisturbed_tick {lib : Stdlib} {cal : Calendar} {name : String} {s : SchedulerState}
    {input : Tick} (hnow : 0 < input.now)
    (hfresh : ∀ job ∈ tickJobs s input, job.name = name →
      allowsEnqueue cal (turn lib cal s input name) input job (tickJobs s input) = true →
        ∀ d ∈ existingDelivery (turn lib cal s input name).store.queue (scheduledRecord job
          (occurrenceKey lib job (readState (turn lib cal s input name) input name))),
            d.status ≠ .succeeded) : Undisturbed lib cal name s (.tick input) := by
  refine ⟨hnow, fun hconfirms => Bool.noConfusion hconfirms, ?_⟩
  intro input' hcall job hjob hname hallows d hd
  cases hcall
  exact hfresh job hjob hname hallows d hd

/-- The other calls only have to confirm no receipt. -/
theorem undisturbed_quiet {lib : Stdlib} {cal : Calendar} {name : String} {s : SchedulerState}
    {call : SchedulerCall} (hnow : 0 < call.now) (hconfirms : confirms call = false)
    (htick : ∀ input, call ≠ .tick input) : Undisturbed lib cal name s call := by
  refine ⟨hnow, ?_, ?_⟩
  · intro h
    rw [hconfirms] at h
    exact Bool.noConfusion h
  · intro input hcall
    exact absurd hcall (htick input)

def reviewSendId : String :=
  "scheduled-9ee6318b5d7638eea1895385c0dbeaf0dd66b7614e3522806402eedf7e3bdbac"

def sentRun : List SchedulerCall :=
  [.addJob reviewCommand (fun _ => true) 100, .tick { now := 200 },
    .service ⟨.queue (.claimNext "worker" 60 false none fun _ => true), 210⟩ rfl,
    .service ⟨.queue (.completeClaim reviewSendId "worker"), 220⟩ rfl]

/-- The worker loses the job once it was accepted, the scheduler takes that in, and then
the delivery is confirmed. -/
def correctedRun : List SchedulerCall :=
  [.addJob reviewCommand (fun _ => true) 100, .tick { now := 200 },
    .service ⟨.queue (.claimNext "worker" 60 false none fun _ => true), 210⟩ rfl,
    .service ⟨.result (.accept reviewSendId "worker" 900), 215⟩ rfl,
    .service ⟨.queue (.failClaim reviewSendId "worker" .outcomeUnknown "lost" true), 220⟩ rfl,
    .tick { now := 230 }, .service ⟨.queue (.reconcile true), 240⟩ rfl]

theorem sentRun_undisturbed : Meets (schedulerStep keyLib utcCalendar)
    (Undisturbed keyLib utcCalendar "review") SchedulerState.empty
      (sentRun ++ [.tick { now := 230 }]) := by
  refine ⟨undisturbed_quiet ?_ rfl nofun, undisturbed_tick ?_ ?_, undisturbed_quiet ?_ rfl nofun,
    undisturbed_quiet ?_ rfl nofun, undisturbed_tick ?_ ?_, trivial⟩
  all_goals decide +kernel

theorem sent_job_shown :
    let s := final (schedulerStep keyLib utcCalendar) SchedulerState.empty
      (sentRun ++ [.tick { now := 230 }])
    (jobState s.states "review").status = .healthy ∧
    (jobState s.states "review").lastSentAt = 220 := by
  intro s
  have hshown : ShowsReceipt s "review" :=
    state_follows_receipt keyLib utcCalendar "review" sentRun { now := 230 } rfl sentRun_undisturbed
  have hreceipt : (s.store.queue.lookup (jobState s.states "review").lastDeliverySendId).map
      (fun d => (d.status, d.finishedAt)) = some (.succeeded, 220) := by decide +kernel
  obtain ⟨d, hd, hrow⟩ := Option.map_eq_some_iff.mp hreceipt
  obtain ⟨hstatus, hfinished⟩ := Prod.mk.inj hrow
  obtain ⟨hhealthy, hsent⟩ := hshown d hd hstatus
  exact ⟨hhealthy, hsent.trans hfinished⟩

def correctedScheduler : SchedulerState :=
  final (schedulerStep keyLib utcCalendar) SchedulerState.empty
    (correctedRun ++ [.tick { now := 250 }])

/-- The state stays failing although the receipt has succeeded. -/
theorem corrected_receipt_missed : ¬ ShowsReceipt correctedScheduler "review" := by
  have hmissed : (correctedScheduler.store.queue.lookup (jobState correctedScheduler.states
      "review").lastDeliverySendId).map Delivery.status = some .succeeded ∧
        (jobState correctedScheduler.states "review").status = .failing := by decide +kernel
  obtain ⟨hreceipt, hfailing⟩ := hmissed
  obtain ⟨d, hd, hstatus⟩ := Option.map_eq_some_iff.mp hreceipt
  intro hshown
  have hhealthy := (hshown d hd hstatus).1
  rw [hfailing] at hhealthy
  exact nomatch hhealthy

end Prompta.ReceiptStates
