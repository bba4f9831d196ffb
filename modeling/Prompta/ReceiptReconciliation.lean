import Prompta.ResultChanges

/-!
Receipts in the results database against quarantined deliveries. Reconciliation
settles a quarantined delivery whose acceptance was saved, provided that the result
has one of the statuses it looks for. A saved acceptance rules out the statuses
before a send, so two statuses are left that it overlooks: the result of a send
without a capture, and the result of a stopped chat.
-/
namespace Prompta.ReceiptReconciliation

open Runs Tables Texts DisplayBlocks Schema ResponseStore DeliveryQueue Service

/-- No delivery is quarantined while its acceptance is saved. -/
def Reconciled (s : Store) : Prop :=
  ∀ d ∈ s.queue.rows, d.status = .outcomeUnknown →
    ∀ r ∈ s.chats.results.lookup d.sendId, ¬ 0 < r.acceptedAt

instance : DecidablePred Reconciled := fun s =>
  inferInstanceAs (Decidable (∀ d ∈ s.queue.rows, d.status = .outcomeUnknown →
    ∀ r ∈ s.chats.results.lookup d.sendId, ¬ 0 < r.acceptedAt))

/-- The statuses of a sent chat that reconciliation does not look for. -/
def isOverlooked : ResultStatus → Bool
  | .submitted => true
  | .stopped => true
  | _ => false

/-- A saved acceptance leaves the statuses before a send behind. -/
def Dated (r : ResultRow) : Prop :=
  0 < r.acceptedAt → r.status ≠ .queued ∧ r.status ≠ .outcomeUnknown

theorem dated_of_unaccepted {r : ResultRow} (h : r.acceptedAt = 0) : Dated r := by
  intro haccepted
  rw [h] at haccepted
  exact absurd haccepted (lt_irrefl 0)

/-- A status with an acceptance is proof for reconciliation, or it is overlooked. -/
theorem dated_overlooked {r : ResultRow} (h : Dated r) (haccepted : 0 < r.acceptedAt)
    (hproof : provesAcceptance r.status = false) : isOverlooked r.status = true := by
  obtain ⟨hqueued, hunknown⟩ := h haccepted
  cases hstatus : r.status with
  | queued => exact absurd hstatus hqueued
  | outcomeUnknown => exact absurd hstatus hunknown
  | submitted => rfl
  | stopped => rfl
  | accepted => simp [hstatus, provesAcceptance] at hproof
  | generating => simp [hstatus, provesAcceptance] at hproof
  | completed => simp [hstatus, provesAcceptance] at hproof
  | interrupted => simp [hstatus, provesAcceptance] at hproof
  | unavailable => simp [hstatus, provesAcceptance] at hproof

theorem overlooked_not_proof {status : ResultStatus} (h : isOverlooked status = true) :
    provesAcceptance status = false := by
  cases status <;> simp_all [isOverlooked, provesAcceptance]

theorem change_dated {lib : Stdlib} {call : Call} {r r' : ResultRow}
    (h : ResultChange lib call r r') (hr : Dated r) : Dated r' := by
  cases h with
  | named => exact hr
  | combined => exact hr
  | submitted => exact fun _ => ⟨nofun, nofun⟩
  | accepted => exact fun _ => ⟨nofun, nofun⟩
  | observed owner capture =>
    intro _
    by_cases hcomplete : capture.status = .complete <;> simp [observedRow, hcomplete]
  | generating => exact fun _ => ⟨nofun, nofun⟩
  | routed => exact hr
  | tools => exact hr
  | text owner capture =>
    intro _
    by_cases hcomplete : completes capture = true <;> simp [writeText, hcomplete]
  | extended => exact hr
  | ended status =>
    intro _
    cases status <;> simp [endedRow, FinishStatus.result]
  | unavailable => exact fun _ => ⟨nofun, nofun⟩
  | unknown hunproven =>
    simp only [unproven, Bool.and_eq_true, decide_eq_true_eq] at hunproven
    exact dated_of_unaccepted hunproven.1.2
  | detached => exact fun _ => ⟨nofun, nofun⟩
  | live => exact hr
  | recovered capture =>
    intro haccepted
    by_cases hcomplete : probeCompletes lib capture r = true
    · simp [recoverRow, hcomplete]
    · simpa [recoverRow, hcomplete] using hr haccepted
  | identified =>
    intro haccepted
    obtain ⟨hqueued, hunknown⟩ := hr haccepted
    simp [ReplyStore.identifiedRow, hqueued, hunknown]
  | stopped => exact fun _ => ⟨nofun, nofun⟩

/-- Every result that a run reaches is dated. -/
theorem run_dated (lib : Stdlib) (run : List Call) :
    ∀ r ∈ (final (step lib) Store.empty run).chats.results.rows, Dated r := by
  refine final_invariant (step lib) (fun _ => True)
    (fun s => ∀ r ∈ s.chats.results.rows, Dated r) ?_ Store.empty ?_ run fun _ _ => trivial
  · intro s call _ hs
    refine (step_results lib s call).keeps (fun _ _ => change_dated) ?_ hs
    rintro r ⟨_, sendId, jobName, userText, created, rfl⟩
    exact dated_of_unaccepted rfl
  · intro r hr
    exact absurd hr List.not_mem_nil

section Reconcile

variable (s : Store) (now : Time)

/-- The queue rows that one reconciliation settles. -/
def settles (d : Delivery) : Bool :=
  decide (d.sendId ∈ confirmedIds s) && decide (d.status = .outcomeUnknown)

theorem reconcile_queue {d : Delivery} :
    d ∈ (reconcileAcceptedOutcomes s true now).1.queue.rows ↔
      ∃ d₀ ∈ s.queue.rows, (if settles s d₀ then confirm now d₀ else d₀) = d := by
  change d ∈ (s.queue.update (settles s) (confirm now) fun _ => rfl).rows ↔ _
  exact Table.mem_update _

/-- The results keep their acceptance through a reconciliation. -/
theorem reconcile_acceptedAt (k : String) :
    ((reconcileAcceptedOutcomes s true now).1.chats.results.lookup k).map ResultRow.acceptedAt =
      (s.chats.results.lookup k).map ResultRow.acceptedAt := by
  have hlookup : (reconcileAcceptedOutcomes s true now).1.chats.results.lookup k =
      (s.chats.results.lookup k).map fun r =>
        if decide (r.sendId ∈ uncertainIds s.queue) && unproven r then markUnknown now r else r :=
    Table.lookup_update s.chats.results _ (markUnknown now) (fun _ => rfl) k
  rw [hlookup, Option.map_map]
  congr 1
  funext r
  simp only [Function.comp_apply]
  split <;> rfl

theorem mem_uncertainIds {d : Delivery} (hd : d ∈ s.queue.rows)
    (h : d.status = .outcomeUnknown) : d.sendId ∈ uncertainIds s.queue :=
  List.mem_map_of_mem (List.mem_filter.mpr ⟨hd, decide_eq_true h⟩)

/-- A quarantined delivery is confirmed exactly through the status of its receipt. -/
theorem mem_confirmedIds {d : Delivery} {r : ResultRow} (hd : d ∈ s.queue.rows)
    (h : d.status = .outcomeUnknown) (hr : s.chats.results.lookup d.sendId = some r) :
    d.sendId ∈ confirmedIds s ↔ 0 < r.acceptedAt ∧ provesAcceptance r.status = true := by
  have huncertain := mem_uncertainIds s hd h
  have hkey : r.sendId = d.sendId := Table.lookup_key hr
  constructor
  · intro hmem
    obtain ⟨r', hr', hid⟩ := List.mem_map.mp hmem
    obtain ⟨hrow, hproof⟩ := List.mem_filter.mp hr'
    have hsame : r' = r := by
      have hlookup := Table.lookup_of_mem hrow
      rw [hid, hr] at hlookup
      exact (Option.some.inj hlookup).symm
    subst hsame
    simp only [Bool.and_eq_true, decide_eq_true_eq] at hproof
    exact ⟨hproof.1.2, hproof.2⟩
  · rintro ⟨haccepted, hproof⟩
    rw [← hkey] at huncertain ⊢
    refine List.mem_map_of_mem (List.mem_filter.mpr ⟨Table.lookup_mem hr, ?_⟩)
    simp [huncertain, haccepted, hproof]

end Reconcile

/-- Over dated results, reconciliation leaves a delivery in quarantine against its
receipt exactly when it overlooks the status of the result. -/
theorem reconciled_iff_of_dated (s : Store) (now : Time)
    (hdated : ∀ r ∈ s.chats.results.rows, Dated r) :
    Reconciled (reconcileAcceptedOutcomes s true now).1 ↔
      ∀ d ∈ s.queue.rows, d.status = .outcomeUnknown →
        ∀ r ∈ s.chats.results.lookup d.sendId, 0 < r.acceptedAt →
          isOverlooked r.status = false := by
  constructor
  · intro h d hd hunknown r hr haccepted
    by_contra hoverlooked
    rw [Bool.not_eq_false] at hoverlooked
    have hproof := overlooked_not_proof hoverlooked
    have hleft : settles s d = false := by
      have hnot : d.sendId ∉ confirmedIds s := by
        rw [mem_confirmedIds s hd hunknown hr, hproof]
        exact fun hfalse => Bool.noConfusion hfalse.2
      simp [settles, hnot]
    have hstays : d ∈ (reconcileAcceptedOutcomes s true now).1.queue.rows := by
      rw [reconcile_queue]
      exact ⟨d, hd, by rw [hleft]; rfl⟩
    have hkept := reconcile_acceptedAt s now d.sendId
    rw [hr, Option.map_some, Option.map_eq_some_iff] at hkept
    obtain ⟨r', hr', hsame⟩ := hkept
    exact h d hstays hunknown r' hr' (hsame ▸ haccepted)
  · intro h d' hd' hunknown r' hr' haccepted
    obtain ⟨d, hd, rfl⟩ := (reconcile_queue s now).mp hd'
    have hkept := reconcile_acceptedAt s now d.sendId
    have hid : (if settles s d = true then confirm now d else d).sendId = d.sendId := by
      split <;> rfl
    rw [hid] at hr'
    rw [Option.mem_def.mp hr', Option.map_some] at hkept
    obtain ⟨r, hr, hsame⟩ := Option.map_eq_some_iff.mp hkept.symm
    rw [← hsame] at haccepted
    by_cases hsettles : settles s d = true
    · rw [if_pos hsettles] at hunknown
      exact DeliveryStatus.noConfusion hunknown
    · rw [if_neg hsettles] at hunknown
      have hnot : d.sendId ∉ confirmedIds s := by
        intro hmem
        exact hsettles (by simp [settles, hmem, hunknown])
      rw [mem_confirmedIds s hd hunknown hr, not_and, Bool.not_eq_true] at hnot
      have hoverlooked := dated_overlooked (hdated r (Table.lookup_mem hr)) haccepted
        (hnot haccepted)
      rw [h d hd hunknown r hr haccepted] at hoverlooked
      exact Bool.noConfusion hoverlooked

/-- In every state that a run reaches, reconciliation restores the agreement of the
two databases if and only if no quarantined delivery has an acceptance saved with a
submitted or a stopped result. -/
theorem reconciled_iff_none_overlooked (lib : Stdlib) (run : List Call) (now : Time) :
    Reconciled (reconcileAcceptedOutcomes (final (step lib) Store.empty run) true now).1 ↔
      ∀ d ∈ (final (step lib) Store.empty run).queue.rows, d.status = .outcomeUnknown →
        ∀ r ∈ (final (step lib) Store.empty run).chats.results.lookup d.sendId,
          0 < r.acceptedAt → isOverlooked r.status = false :=
  reconciled_iff_of_dated _ now (run_dated lib run)

/-- A prompt is sent without a capture, and the worker is gone before it completes
the delivery. -/
def submittedRun : List Call :=
  [⟨.queue (.enqueue ⟨"manual-1", ['h', 'i'], "", [], false, false⟩ true), 10⟩,
    ⟨.queue (.claimNext "worker-1" 30 true (some 1) fun _ => true), 11⟩,
    ⟨.result (.markSubmitted "manual-1"), 12⟩,
    ⟨.queue (.expireLeases (fun _ => true) true), 50⟩]

/-- An accepted chat is stopped, and the worker is gone before it completes the
delivery. -/
def stoppedRun : List Call :=
  [⟨.queue (.enqueue ⟨"manual-1", ['h', 'i'], "", [], false, false⟩ true), 10⟩,
    ⟨.queue (.claimNext "worker-1" 30 false (some 1) fun _ => true), 11⟩,
    ⟨.result (.accept "manual-1" "worker-1" 60), 12⟩, ⟨.stop "manual-1", 13⟩,
    ⟨.queue (.expireLeases (fun _ => true) true), 50⟩]

/-- Both receipts are overlooked. -/
theorem receipts_overlooked :
    ¬ Reconciled (reconcileAcceptedOutcomes
      (final (step plainLib) Store.empty submittedRun) true 60).1 ∧
    ¬ Reconciled (reconcileAcceptedOutcomes
      (final (step plainLib) Store.empty stoppedRun) true 60).1 := by
  decide +kernel

end Prompta.ReceiptReconciliation
