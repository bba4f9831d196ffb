import Prompta.Evolution
import Prompta.Service

/-!
What one call of the service can do to a row of the delivery queue. Every change
names the call that makes it where the call matters, with the guard the row has
passed. The results of later modules about the queue split on these changes and
never look into the operations again.
-/
namespace Prompta.Service

open Tables Texts DisplayBlocks Schema ResponseStore ReplyStore DeliveryQueue

def reconciles (call : Call) : Prop :=
  (∃ readable, call.action = .queue (.reconcile readable)) ∨
    ∃ answers readable, call.action = .queue (.expireLeases answers readable)

def hasReceipt (c : Chats) (sendId : String) : Prop :=
  ∃ r, c.results.lookup sendId = some r ∧ 0 < r.acceptedAt

def followsUp (call : Call) : Bool :=
  match call.action with
  | .reply (.queueFollowup _ _ _ _) => true
  | _ => false

inductive DeliveryChange (s : Store) (call : Call) : Delivery → Delivery → Prop
  | edited (d : Delivery) (message : Text) (oneTime : Bool) (priority : ℤ) (updatedAt : Time)
      (h : d.status.isWaiting = true)
      (hmessage : message = d.message ∨ (untouched d = true ∧ followsUp call = true))
      (htime : updatedAt = d.updatedAt ∨ updatedAt = call.now) :
      DeliveryChange s call d
        { d with message := message, oneTime := oneTime, queuePriority := priority,
                 updatedAt := updatedAt }
  | expired (d : Delivery) (h : expiredLease call.now d = true) :
      DeliveryChange s call d (release .outcomeUnknown expiredLeaseError call.now d)
  | confirmed (d : Delivery) (h : d.status = .outcomeUnknown) (hcall : reconciles call)
      (hreceipt : hasReceipt s.chats d.sendId) : DeliveryChange s call d (confirm call.now d)
  | cancelled (d : Delivery) (error : String) (h : d.status.isWaiting = true) :
      DeliveryChange s call d (release .cancelled error call.now d)
  | leased (d : Delivery) (owner : String) (leaseSeconds : Time) (fireAndForget : Bool)
      (maxActive : Option ℕ) (answers : String → Bool)
      (hcall : call.action = .queue (.claimNext owner leaseSeconds fireAndForget maxActive answers))
      (h : claimable call.now d = true) :
      DeliveryChange s call d (lease owner leaseSeconds call.now d)
  | renewed (d : Delivery) (owner : String) (leaseSeconds : Time)
      (hcall : call.action = .queue (.renewLease d.sendId owner leaseSeconds))
      (h : holds owner call.now d = true) :
      DeliveryChange s call d (renewed leaseSeconds call.now d)
  | retried (d : Delivery) (owner : String) (retryAt : Time) (retryAttempt : ℤ) (error : String)
      (status : DeliveryStatus)
      (hcall : call.action =
        .queue (.retryClaim d.sendId owner retryAt retryAttempt error status))
      (h : holds owner call.now d = true) (hstatus : status.isRetry = true) :
      DeliveryChange s call d (retried retryAt retryAttempt error status call.now d)
  | completed (d : Delivery) (owner : String)
      (hcall : call.action = .queue (.completeClaim d.sendId owner))
      (h : holds owner call.now d = true) : DeliveryChange s call d (completed call.now d)
  | failed (d : Delivery) (owner : String) (status : DeliveryStatus) (error : String)
      (answers : Bool)
      (hcall : call.action = .queue (.failClaim d.sendId owner status error answers))
      (h : holds owner call.now d = true) (hstatus : status.isTerminal = true) :
      DeliveryChange s call d (release status error call.now d)

/-- Every new row is a queued one, and only an enqueue adds one. -/
def NewDelivery (s : Store) (call : Call) (d : Delivery) : Prop :=
  ∃ record answers, call.action = .queue (.enqueue record answers) ∧
    d = queuedDelivery s.queue record call.now ∧ existingDelivery s.queue record = none

theorem DeliveryChange.sendId_eq {s : Store} {call : Call} {d d' : Delivery}
    (h : DeliveryChange s call d d') : d'.sendId = d.sendId := by
  cases h <;> rfl

/-- Projections into the results database leave the queue and the receipts alone. -/
theorem acceptedAt_unavailable (c : Chats) (sendId : String) (now : Time) (k : String) :
    ((unavailable c sendId now).results.lookup k).map ResultRow.acceptedAt =
      (c.results.lookup k).map ResultRow.acceptedAt := by
  by_cases hk : k = sendId
  · subst hk
    simp only [unavailable, updateResult, Table.lookup_updateAt_self, Option.map_map]
    congr 1
    funext r
    by_cases h : r.status = .queued <;> simp [h, unavailableRow]
  · simp only [unavailable, updateResult, Table.lookup_updateAt_ne _ _ _ _ _ _ hk]

theorem markUnavailable_cons (c : Chats) (answers : String → Bool) (sendId : String)
    (rest : List String) (now : Time) :
    markUnavailable c answers (sendId :: rest) now =
      markUnavailable (if answers sendId then unavailable c sendId now else c) answers rest now :=
  rfl

/-- Showing rows as unavailable leaves the times of acceptance. -/
theorem acceptedAt_markUnavailable (c : Chats) (answers : String → Bool) (sendIds : List String)
    (now : Time) (k : String) :
    ((markUnavailable c answers sendIds now).results.lookup k).map ResultRow.acceptedAt =
      (c.results.lookup k).map ResultRow.acceptedAt := by
  induction sendIds generalizing c with
  | nil => rfl
  | cons sendId rest ih =>
    rw [markUnavailable_cons, ih]
    by_cases h : answers sendId
    · rw [if_pos h]
      exact acceptedAt_unavailable c sendId now k
    · rw [if_neg h]

theorem hasReceipt_of_acceptedAt {c c' : Chats} {k : String}
    (h : (c'.results.lookup k).map ResultRow.acceptedAt =
      (c.results.lookup k).map ResultRow.acceptedAt) (hc : hasReceipt c' k) : hasReceipt c k := by
  obtain ⟨r', hr', haccepted⟩ := hc
  rw [hr', Option.map_some] at h
  obtain ⟨r, hr, heq⟩ := Option.map_eq_some_iff.mp h.symm
  exact ⟨r, hr, heq ▸ haccepted⟩

/-- A confirmed delivery has a receipt. -/
theorem hasReceipt_of_confirmed {s : Store} {sendId : String} (h : sendId ∈ confirmedIds s) :
    hasReceipt s.chats sendId := by
  obtain ⟨r, hr, rfl⟩ := List.mem_map.mp h
  obtain ⟨hmem, hproof⟩ := List.mem_filter.mp hr
  simp only [Bool.and_eq_true, decide_eq_true_eq] at hproof
  exact ⟨r, Table.lookup_of_mem hmem, hproof.1.2⟩

section Evolution

variable (s : Store) (call : Call)

theorem expireRows_evolves (queue : Deliveries) :
    Evolves (DeliveryChange s call) (NewDelivery s call) queue (expireRows queue call.now).1 := by
  refine Evolves.update _ _ ?_ fun _ => by rfl
  intro d _ hd
  exact DeliveryChange.expired d hd

/-- An update of one row, where the rewriting is one of the changes. -/
theorem updateDelivery_evolves (sendId : String) (p : Delivery → Bool) (f : Delivery → Delivery)
    (h : ∀ d, d.sendId = sendId → p d = true → DeliveryChange s call d (f d))
    {hf : ∀ d, (f d).sendId = d.sendId} :
    Evolves (DeliveryChange s call) (NewDelivery s call) s.queue
      (updateDelivery s sendId p f hf).1.queue := by
  refine Evolves.updateAt _ _ _ ?_ hf
  intro d hd hp
  exact h d (Table.lookup_key hd) hp

/-- Reconciliation on a state that has the receipts of `s`. -/
theorem reconcile_evolves (s' : Store) (readable : Bool) (hcall : reconciles call)
    (hreceipts : ∀ k, hasReceipt s'.chats k → hasReceipt s.chats k) :
    Evolves (DeliveryChange s call) (NewDelivery s call) s'.queue
      (reconcileAcceptedOutcomes s' readable call.now).1.queue := by
  unfold reconcileAcceptedOutcomes
  by_cases hreadable : readable
  · simp only [hreadable, Bool.not_true, Bool.false_eq_true, if_false]
    refine Evolves.update _ _ ?_ fun _ => by rfl
    intro d _ hd
    simp only [Bool.and_eq_true, decide_eq_true_eq] at hd
    exact DeliveryChange.confirmed d hd.2 hcall (hreceipts _ (hasReceipt_of_confirmed hd.1))
  · simp only [hreadable, Bool.not_false, if_true]
    exact Evolves.refl _

/-- An enqueue adds one queued row or none. -/
theorem enqueue_evolves (record : DeliveryRecord) (answers : Bool)
    (hcall : call.action = .queue (.enqueue record answers)) :
    Evolves (DeliveryChange s call) (NewDelivery s call) s.queue
      (enqueueIdempotent s record answers call.now).1.queue := by
  unfold enqueueIdempotent
  split
  · exact Evolves.refl _
  split
  · exact Evolves.refl _
  split
  · exact Evolves.refl _
  split
  · exact Evolves.refl _
  · rename_i hnone
    exact Evolves.insertNew _ fun _ => ⟨record, answers, hcall, rfl, hnone⟩

/-- A claim quarantines expired leases, and then leases one row. -/
theorem claimNext_evolves (owner : String) (leaseSeconds : Time) (fireAndForget : Bool)
    (maxActive : Option ℕ) (answers : String → Bool)
    (hcall : call.action = .queue (.claimNext owner leaseSeconds fireAndForget maxActive answers)) :
    Evolves (DeliveryChange s call) (NewDelivery s call) s.queue
      (claimNext s owner leaseSeconds fireAndForget maxActive answers call.now).1.queue := by
  have hexpired := expireRows_evolves s call s.queue
  unfold claimNext
  dsimp only
  split
  · exact hexpired
  split
  · exact hexpired
  · refine hexpired.trans (Evolves.updateAt _ _ _ ?_ fun _ => by rfl)
    intro d _ hd
    exact DeliveryChange.leased d owner leaseSeconds fireAndForget maxActive answers hcall hd

theorem queueStep_deliveries (q : QueueCall) (hcall : call.action = .queue q) :
    Evolves (DeliveryChange s call) (NewDelivery s call) s.queue
      (queueStep s call.now q).1.queue := by
  cases q with
  | enqueue record answers => exact enqueue_evolves s call record answers hcall
  | bumpToFront sendId =>
    refine updateDelivery_evolves s call _ _ _ ?_
    intro d _ hd
    exact DeliveryChange.edited d d.message d.oneTime _ d.updatedAt hd (Or.inl rfl) (Or.inl rfl)
  | promoteOneTime sendId =>
    refine updateDelivery_evolves s call _ _ _ ?_
    intro d _ hd
    rw [Bool.and_eq_true] at hd
    exact DeliveryChange.edited d d.message true d.queuePriority d.updatedAt hd.2 (Or.inl rfl)
      (Or.inl rfl)
  | cancelPending sendId error answers =>
    have h : Evolves (DeliveryChange s call) (NewDelivery s call) s.queue
        (updateDelivery s sendId (fun d => d.status.isWaiting)
          (release .cancelled error call.now) fun _ => rfl).1.queue :=
      updateDelivery_evolves s call sendId _ _ fun d _ hd => DeliveryChange.cancelled d error hd
    change Evolves _ _ _ (cancelPending s sendId error answers call.now).1.queue
    unfold cancelPending
    dsimp only
    split <;> exact h
  | claimNext owner leaseSeconds fireAndForget maxActive answers =>
    exact claimNext_evolves s call owner leaseSeconds fireAndForget maxActive answers hcall
  | renewLease sendId owner leaseSeconds =>
    refine updateDelivery_evolves s call _ _ _ ?_
    rintro d rfl hd
    exact DeliveryChange.renewed d owner leaseSeconds hcall hd
  | retryClaim sendId owner retryAt retryAttempt error status =>
    change Evolves _ _ _
      (retryClaim s sendId owner retryAt retryAttempt error status call.now).1.queue
    unfold retryClaim
    split
    · exact Evolves.refl _
    · rename_i hstatus
      refine updateDelivery_evolves s call _ _ _ ?_
      rintro d rfl hd
      exact DeliveryChange.retried d owner retryAt retryAttempt error status hcall hd
        (by simpa using hstatus)
  | completeClaim sendId owner =>
    have h : Evolves (DeliveryChange s call) (NewDelivery s call) s.queue
        (updateDelivery s sendId (holds owner call.now) (completed call.now) fun _ =>
          rfl).1.queue := by
      refine updateDelivery_evolves s call _ _ _ ?_
      rintro d rfl hd
      exact DeliveryChange.completed d owner hcall hd
    change Evolves _ _ _ (completeClaim s sendId owner call.now).1.queue
    unfold completeClaim
    split
    · exact Evolves.refl _
    split
    · exact Evolves.refl _
    · exact Evolves.refl _
    split
    · exact Evolves.refl _
    · exact h
  | failClaim sendId owner status error answers =>
    change Evolves _ _ _ (failClaim s sendId owner status error answers call.now).1.queue
    unfold failClaim
    split
    · exact Evolves.refl _
    rename_i hstatus
    simp only [Bool.or_eq_true, Bool.not_eq_true', decide_eq_true_eq, not_or] at hstatus
    have h : Evolves (DeliveryChange s call) (NewDelivery s call) s.queue
        (updateDelivery s sendId (holds owner call.now) (release status error call.now)
          fun _ => rfl).1.queue := by
      refine updateDelivery_evolves s call sendId _ _ ?_
      rintro d rfl hd
      exact DeliveryChange.failed d owner status error answers hcall hd
        (Bool.of_not_eq_false hstatus.1)
    dsimp only
    split <;> exact h
  | expireLeases answers readable =>
    have hreconciles : reconciles call := Or.inr ⟨answers, readable, hcall⟩
    have hreceipts : ∀ k, hasReceipt (markUnavailable s.chats answers
        (expireRows s.queue call.now).2 call.now) k → hasReceipt s.chats k := by
      intro k hk
      exact hasReceipt_of_acceptedAt (acceptedAt_markUnavailable s.chats answers _ call.now k) hk
    exact (expireRows_evolves s call s.queue).trans
      (reconcile_evolves s call ⟨_, _⟩ readable hreconciles hreceipts)
  | reconcile readable =>
    exact reconcile_evolves s call s readable (Or.inl ⟨readable, hcall⟩) fun _ hk => hk
  | claimReply replyId owner deadline fireAndForget maxActive =>
    change Evolves _ _ _
      (claimReply s replyId owner deadline fireAndForget maxActive call.now).1.queue
    unfold claimReply
    split <;> exact Evolves.refl _

/-- A follow-up rewrites at most the untouched delivery of its chat. -/
theorem queueFollowup_deliveries (lib : Stdlib) (sendId replyId : String) (text : Text)
    (withQueue : Bool) (hcall : followsUp call = true) :
    Evolves (DeliveryChange s call) (NewDelivery s call) s.queue
      (queueFollowup lib s sendId replyId text withQueue call.now).1.queue := by
  unfold queueFollowup
  split
  · exact Evolves.refl _
  split
  · exact Evolves.refl _
  split
  · split_ifs <;> exact Evolves.refl _
  split
  · exact Evolves.refl _
  split
  · exact Evolves.refl _
  split
  · rename_i combined _
    refine Evolves.updateAt _ _ _ ?_ fun _ => by rfl
    intro d _ hd
    have hwaiting : d.status.isWaiting = true := by
      simp only [untouched, Bool.and_eq_true, decide_eq_true_eq] at hd
      rw [hd.1.1]
      rfl
    exact DeliveryChange.edited d combined d.oneTime d.queuePriority call.now hwaiting
      (Or.inr ⟨hd, hcall⟩) (Or.inr rfl)
  · exact Evolves.refl _

/-- The rows of the queue take the listed changes only. -/
theorem step_deliveries (lib : Stdlib) :
    Evolves (DeliveryChange s call) (NewDelivery s call) s.queue
      (step lib s call).1.queue := by
  cases haction : call.action with
  | queue q =>
    rw [step_queue haction]
    exact queueStep_deliveries s call q haction
  | result r =>
    rw [step_result haction]
    cases r <;> exact Evolves.refl _
  | stop sendId =>
    rw [step_stop haction]
    exact Evolves.refl _
  | reply r =>
    rw [step_reply haction]
    cases r with
    | queueFollowup sendId replyId text withQueue =>
      exact queueFollowup_deliveries s call lib sendId replyId text withQueue
        (by rw [followsUp, haction])
    | _ => exact Evolves.refl _

end Evolution
end Prompta.Service
