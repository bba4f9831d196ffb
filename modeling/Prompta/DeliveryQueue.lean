import Prompta.ReplyStore

/-!
The delivery queue: one row for each fresh chat to be sent. A worker claims a
waiting row for the time of a lease, and the lease ends with a retry, a receipt
or its expiry, which quarantines the row. The projection of an outcome into the
results database is best effort: an argument says for which rows it succeeds.
-/
namespace Prompta.DeliveryQueue

open Tables Texts Schema ResponseStore ReplyStore

inductive QueueError
  | tooManyAttachments
  | invalidAttachment
  | duplicateAttachment
  | sendIdRequired
  | messageRequired
  | unsupportedRetryStatus (status : DeliveryStatus)
  | unsupportedTerminalStatus (status : DeliveryStatus)
  deriving DecidableEq, Repr

def QueueError.message : QueueError → String
  | .tooManyAttachments => "At most four attachments are supported"
  | .invalidAttachment => "Invalid attachment reference"
  | .duplicateAttachment => "Duplicate attachment reference"
  | .sendIdRequired => "delivery send_id is required"
  | .messageRequired => "delivery message is required"
  | .unsupportedRetryStatus status => "unsupported retry status: " ++ status.value
  | .unsupportedTerminalStatus status =>
    "unsupported terminal delivery status: " ++ status.value

def maxImages : ℕ := 4

def imageNameChar (ch : Char) : Bool :=
  isDigit ch || ('a' ≤ ch && ch ≤ 'z') || ('A' ≤ ch && ch ≤ 'Z') || ch = '.' || ch = '_' || ch = '-'

def validImageRef (ref : String) : Bool :=
  (ref.toList.take 64).length = 64 && (ref.toList.take 64).all isLowerHex &&
    match ref.toList.drop 64 with
    | '/' :: name => name.all imageNameChar && 1 ≤ name.length && name.length ≤ 100
    | _ => false

def imageRefs (value : List String) : Except QueueError (List String) :=
  if maxImages < value.length then .error .tooManyAttachments
  else if !value.all validImageRef then .error .invalidAttachment
  else if ¬ value.Nodup then .error .duplicateAttachment
  else .ok value

theorem imageRefs_ok {value refs : List String} (h : imageRefs value = .ok refs) :
    refs = value := by
  unfold imageRefs at h
  split at h
  · cases h
  split at h
  · cases h
  split at h
  · cases h
  · exact (Except.ok.inj h).symm

def expiredLeaseError : String :=
  "Worker lease expired before a durable send receipt; acceptance is unknown. " ++
    "Automatic resubmission is disabled."

def expiredLease (now : Time) (d : Delivery) : Bool :=
  decide (d.status = .running) && decide (d.leaseExpiresAt ≤ now)

/-- The row leaves its lease with a status and an error text. -/
def release (status : DeliveryStatus) (error : String) (now : Time) (d : Delivery) : Delivery :=
  { d with status := status, error := error, lastError := error, retryAt := 0, updatedAt := now,
           finishedAt := now, leaseOwner := "", leaseAcquiredAt := 0, leaseExpiresAt := 0 }

/-- Expiry of a lease is no permission to send again. -/
def expireRows (queue : Deliveries) (now : Time) : Deliveries × List String :=
  (queue.update (expiredLease now) (release .outcomeUnknown expiredLeaseError now)
    (fun _ => id rfl), (queue.rows.filter (expiredLease now)).map Delivery.sendId)

/-- The projection of the rows for which the results database answers. -/
def markUnavailable (c : Chats) (answers : String → Bool) (sendIds : List String) (now : Time) :
    Chats :=
  sendIds.foldl (fun c sendId => if answers sendId then unavailable c sendId now else c) c

def uncertainIds (queue : Deliveries) : List String :=
  (queue.rows.filter fun d => decide (d.status = .outcomeUnknown)).map Delivery.sendId

/-- The statuses that reconciliation accepts as proof, together with an acceptance time. -/
def provesAcceptance : ResultStatus → Bool
  | .accepted => true
  | .generating => true
  | .completed => true
  | .interrupted => true
  | .unavailable => true
  | _ => false

def confirmedIds (s : Store) : List String :=
  (s.chats.results.rows.filter fun r =>
    decide (r.sendId ∈ uncertainIds s.queue) && decide (0 < r.acceptedAt) &&
      provesAcceptance r.status).map ResultRow.sendId

/-- The row keeps the lease columns and the time it was finished. -/
def confirm (now : Time) (d : Delivery) : Delivery :=
  { d with status := .succeeded, error := "", lastError := "", retryAt := 0, updatedAt := now,
           finishedAt := if 0 < d.finishedAt then d.finishedAt else now }

/-- A receipt in the results database settles a quarantined row. Rows without any
proof are shown as unknown there. -/
def reconcileAcceptedOutcomes (s : Store) (readable : Bool) (now : Time) : Store × ℕ :=
  if !readable then (s, 0)
  else
    let confirmed := fun d : Delivery =>
      decide (d.sendId ∈ confirmedIds s) && decide (d.status = .outcomeUnknown)
    ({ queue := s.queue.update confirmed (confirm now) (fun _ => id rfl)
       chats :=
        { s.chats with
          results := s.chats.results.update
            (fun r => decide (r.sendId ∈ uncertainIds s.queue) && unproven r) (markUnknown now)
              (markUnknown_sendId now) } },
      s.queue.rows.countP confirmed)

def expireLeases (s : Store) (answers : String → Bool) (readable : Bool) (now : Time) :
    Store × ℕ :=
  let expired := expireRows s.queue now
  let projected : Store := ⟨expired.1, markUnavailable s.chats answers expired.2 now⟩
  ((reconcileAcceptedOutcomes projected readable now).1, expired.2.length)

/-- `select(coalesce(min(queue_priority), 0) - 1)` -/
def frontPriority (queue : Deliveries) : ℤ :=
  ((queue.rows.map Delivery.queuePriority).min?).getD 0 - 1

/-- An update of the row of one send identifier, with `rowcount == 1`. -/
def updateDelivery (s : Store) (sendId : String) (p : Delivery → Bool) (f : Delivery → Delivery)
    (hf : ∀ d, (f d).sendId = d.sendId) : Store × Bool :=
  ({ s with queue := s.queue.updateAt sendId p f hf }, s.queue.hits sendId p)

def bumpToFront (s : Store) (sendId : String) : Store × Bool :=
  updateDelivery s sendId (fun d => d.status.isWaiting) (fun d =>
    { d with queuePriority := frontPriority s.queue }) (fun _ => id rfl)

def runningIds (queue : Deliveries) : List String :=
  (queue.rows.filter fun d => decide (d.status = .running)).map Delivery.sendId

/-- The send identifiers that hold a slot, each once. -/
def activeDeliverySendIds (s : Store) (fireAndForget : Bool) (now : Time) : List String :=
  (runningIds s.queue ++ if fireAndForget then [] else activeCaptureSendIds s.chats now).dedup

/-- A slot is free. Without a limit every claim finds one. -/
def hasCapacity (s : Store) (fireAndForget : Bool) (maxActive : Option ℕ) (now : Time) : Bool :=
  match maxActive with
  | none => true
  | some limit => decide ((activeDeliverySendIds s fireAndForget now).length < limit)

def claimReply (s : Store) (replyId owner : String) (deadline : Time) (fireAndForget : Bool)
    (maxActive : Option ℕ) (now : Time) : Store × Bool :=
  if !hasCapacity s fireAndForget maxActive now then (s, false)
  else
    let claimed := claim s.chats replyId owner deadline now
    ({ s with chats := claimed.1 }, claimed.2)

/-- A claim of a reply changes nothing, or a slot was free and it is the claim of the
reply store. -/
theorem claimReply_chats (s : Store) (replyId owner : String) (deadline : Time)
    (fireAndForget : Bool) (maxActive : Option ℕ) (now : Time) :
    (claimReply s replyId owner deadline fireAndForget maxActive now).1 = s ∨
      (hasCapacity s fireAndForget maxActive now = true ∧
        (claimReply s replyId owner deadline fireAndForget maxActive now).1.chats =
          (updateReply s.chats replyId (fun r => decide (r.status = .prepared))
            (claimedRow owner deadline now) (fun _ => id rfl)).1) := by
  unfold claimReply claim
  dsimp only
  split
  · exact Or.inl rfl
  · rename_i hcapacity
    split
    · exact Or.inl rfl
    · exact Or.inr ⟨by simpa using hcapacity, rfl⟩

/-- What is asked of the queue for one delivery. -/
structure DeliveryRecord where
  sendId : String
  message : Text
  clientId : String := ""
  images : List String := []
  oneTime : Bool := false
  pinChat : Bool := false

def nextSequence (queue : Deliveries) : ℕ :=
  (queue.rows.map Delivery.sequence).foldr max 0 + 1

def queuedDelivery (queue : Deliveries) (record : DeliveryRecord) (now : Time) : Delivery :=
  { sequence := nextSequence queue, sendId := record.sendId, message := record.message,
    images := record.images, pinChat := record.pinChat, clientId := record.clientId,
    oneTime := record.oneTime, createdAt := now, updatedAt := now }

/-- The row of the same send identifier, else the row of the same client identifier. -/
def existingDelivery (queue : Deliveries) (record : DeliveryRecord) : Option Delivery :=
  (queue.lookup record.sendId).or
    (if record.clientId = "" then none
     else queue.rows.find? fun d => decide (d.clientId = record.clientId))

/-- The name in `scheduled:<time>:<name>`. The name may contain colons. -/
def clientJobName (clientId : String) : String :=
  if startsWith clientId "scheduled:" then
    match (clientId.toList.drop "scheduled:".toList.length).dropWhile (· ≠ ':') with
    | ':' :: name => String.ofList name
    | _ => ""
  else ""

/-- Insert a delivery once. `answers` says whether the results database takes the
queued row; a failure there leaves the delivery in the queue. -/
def enqueueIdempotent (s : Store) (record : DeliveryRecord) (answers : Bool) (now : Time) :
    Store × Except QueueError (Delivery × Bool) :=
  if record.sendId = "" then (s, .error .sendIdRequired)
  else if record.message = [] then (s, .error .messageRequired)
  else
    match imageRefs record.images with
    | .error e => (s, .error e)
    | .ok _ =>
      match existingDelivery s.queue record with
      | some d =>
        ({ s with
           chats :=
            if d.status.isPending && answers then
              ensureQueued s.chats d.sendId d.message (clientJobName d.clientId) d.createdAt
            else s.chats }, .ok (d, false))
      | none =>
        let d := queuedDelivery s.queue record now
        ({ queue := s.queue.insertNew d
           chats :=
            if answers then
              ensureQueued s.chats d.sendId d.message (clientJobName d.clientId) d.createdAt
            else s.chats }, .ok (d, true))

theorem existing_mem {queue : Deliveries} {record : DeliveryRecord} {d : Delivery}
    (h : existingDelivery queue record = some d) : d ∈ queue.rows := by
  unfold existingDelivery at h
  rcases Option.or_eq_some_iff.mp h with hsend | ⟨_, hclient⟩
  · exact Table.lookup_mem hsend
  · split at hclient
    · cases hclient
    · exact List.mem_of_find?_eq_some hclient

/-- The delivery that an enqueue returns has its row in the queue. -/
theorem enqueue_row {s : Store} {record : DeliveryRecord} {answers created : Bool} {now : Time}
    {d : Delivery} (h : (enqueueIdempotent s record answers now).2 = .ok (d, created)) :
    ((enqueueIdempotent s record answers now).1.queue.lookup d.sendId).isSome = true := by
  unfold enqueueIdempotent at h ⊢
  split at h
  · cases h
  rename_i hid
  rw [if_neg hid]
  split at h
  · cases h
  rename_i hmessage
  rw [if_neg hmessage]
  split at h
  · cases h
  split at h
  · rename_i existing hexisting
    cases h
    dsimp only
    rw [Table.lookup_of_mem (existing_mem hexisting)]
    rfl
  · rename_i hnone
    cases h
    have hfree : s.queue.lookup record.sendId = none := (Option.or_eq_none_iff.mp hnone).1
    dsimp only
    rw [Table.lookup_insertNew_self (r := queuedDelivery s.queue record now) hfree]
    rfl

/-- Restore the priority of a one-shot delivery that an older release queued. -/
def promoteOneTime (s : Store) (sendId : String) : Store × Bool :=
  updateDelivery s sendId (fun d => !d.oneTime && d.status.isWaiting) (fun d =>
    { d with oneTime := true }) (fun _ => id rfl)

def cancelPending (s : Store) (sendId error : String) (answers : Bool) (now : Time) :
    Store × Bool :=
  let cancelled := updateDelivery s sendId (fun d => d.status.isWaiting)
    (release .cancelled error now) (fun _ => id rfl)
  if cancelled.2 && answers then
    ({ cancelled.1 with chats := unavailable cancelled.1.chats sendId now }, true)
  else cancelled

/-- `_DISPATCH_PRIORITY`. `LIKE` ignores the case. -/
def dispatchPriority (d : Delivery) : ℕ :=
  if startsWith (lower d.clientId) "manual:" then 0 else if d.oneTime then 1 else 2

def claimable (now : Time) (d : Delivery) : Bool :=
  d.status.isWaiting && decide (d.retryAt ≤ now)

/-- Queue priority, then dispatch priority, then age. -/
def claimOrder (a b : Delivery) : Prop :=
  a.queuePriority < b.queuePriority ∨
    (a.queuePriority = b.queuePriority ∧
      (dispatchPriority a < dispatchPriority b ∨
        (dispatchPriority a = dispatchPriority b ∧ a.sequence ≤ b.sequence)))

instance : DecidableRel claimOrder := fun a b =>
  inferInstanceAs (Decidable (a.queuePriority < b.queuePriority ∨
    (a.queuePriority = b.queuePriority ∧
      (dispatchPriority a < dispatchPriority b ∨
        (dispatchPriority a = dispatchPriority b ∧ a.sequence ≤ b.sequence)))))

def nextClaimable (queue : Deliveries) (now : Time) : Option Delivery :=
  ((queue.rows.filter (claimable now)).insertionSort claimOrder).head?

def lease (owner : String) (leaseSeconds : Time) (now : Time) (d : Delivery) : Delivery :=
  { d with status := .running, updatedAt := now, leaseOwner := owner, leaseAcquiredAt := now,
           leaseExpiresAt := now + max 1 leaseSeconds }

/-- Claim one waiting row, after the expired leases are quarantined. The row is
selected by its sequence number, which identifies it. -/
def claimNext (s : Store) (owner : String) (leaseSeconds : Time) (fireAndForget : Bool)
    (maxActive : Option ℕ) (answers : String → Bool) (now : Time) : Store × Option Delivery :=
  let expired := expireRows s.queue now
  let chats := markUnavailable s.chats answers expired.2 now
  if !hasCapacity ⟨expired.1, s.chats⟩ fireAndForget maxActive now then (⟨expired.1, chats⟩, none)
  else
    match nextClaimable expired.1 now with
    | none => (⟨expired.1, chats⟩, none)
    | some d =>
      (⟨expired.1.updateAt d.sendId (claimable now) (lease owner leaseSeconds now)
        (fun _ => id rfl), chats⟩,
        some (lease owner leaseSeconds now d))

/-- A claim leaves the queue with its expired leases released, or it leases one row
of it and a slot was free. -/
theorem claimNext_queue (s : Store) (owner : String) (leaseSeconds : Time) (fireAndForget : Bool)
    (maxActive : Option ℕ) (answers : String → Bool) (now : Time) :
    (claimNext s owner leaseSeconds fireAndForget maxActive answers now).1.queue =
        (expireRows s.queue now).1 ∨
      (hasCapacity ⟨(expireRows s.queue now).1, s.chats⟩ fireAndForget maxActive now = true ∧
        ∃ d : Delivery, (claimNext s owner leaseSeconds fireAndForget maxActive answers
          now).1.queue =
          (expireRows s.queue now).1.updateAt d.sendId (claimable now)
            (lease owner leaseSeconds now) (fun _ => id rfl)) := by
  unfold claimNext
  dsimp only
  split
  · exact Or.inl rfl
  · rename_i hcapacity
    split
    · exact Or.inl rfl
    · rename_i d _
      exact Or.inr ⟨by simpa using hcapacity, d, rfl⟩

/-- The owner holds an unexpired lease on the row. -/
def holds (owner : String) (now : Time) (d : Delivery) : Bool :=
  decide (d.status = .running) && decide (d.leaseOwner = owner) && decide (now < d.leaseExpiresAt)

def renewed (leaseSeconds now : Time) (d : Delivery) : Delivery :=
  { d with updatedAt := now, leaseExpiresAt := now + max 1 leaseSeconds }

def renewLease (s : Store) (sendId owner : String) (leaseSeconds now : Time) : Store × Bool :=
  updateDelivery s sendId (holds owner now) (renewed leaseSeconds now) (fun _ => id rfl)

def retried (retryAt : Time) (retryAttempt : ℤ) (error : String) (status : DeliveryStatus)
    (now : Time) (d : Delivery) : Delivery :=
  { d with status := status, error := error, lastError := error, retryAt := retryAt,
           retryAttempt := (max 0 retryAttempt).toNat, updatedAt := now, leaseOwner := "",
           leaseAcquiredAt := 0, leaseExpiresAt := 0 }

def retryClaim (s : Store) (sendId owner : String) (retryAt : Time) (retryAttempt : ℤ)
    (error : String) (status : DeliveryStatus) (now : Time) : Store × Except QueueError Bool :=
  if !status.isRetry then (s, .error (.unsupportedRetryStatus status))
  else
    let outcome := updateDelivery s sendId (holds owner now)
      (retried retryAt retryAttempt error status now) (fun _ => id rfl)
    (outcome.1, .ok outcome.2)

inductive CompletionAction
  | complete
  | acknowledge
  | reject
  deriving DecidableEq, Repr

def completionAction (d : Delivery) (owner : String) : CompletionAction :=
  if d.status = .succeeded then .acknowledge
  else if d.status ≠ .running ∨ d.status.isTerminal = true then .reject
  else if d.leaseOwner ≠ owner then .reject
  else .complete

def completed (now : Time) (d : Delivery) : Delivery :=
  { d with status := .succeeded, error := "", lastError := "", retryAt := 0,
           finishedAt := if 0 < d.finishedAt then d.finishedAt else now, updatedAt := now,
           leaseOwner := "", leaseAcquiredAt := 0, leaseExpiresAt := 0 }

def completeClaim (s : Store) (sendId owner : String) (now : Time) : Store × Bool :=
  match s.queue.lookup sendId with
  | none => (s, false)
  | some d =>
    match completionAction d owner with
    | .acknowledge => (s, true)
    | .reject => (s, false)
    | .complete =>
      if d.leaseExpiresAt ≤ now then (s, false)
      else updateDelivery s sendId (holds owner now) (completed now) (fun _ => id rfl)

def failClaim (s : Store) (sendId owner : String) (status : DeliveryStatus) (error : String)
    (answers : Bool) (now : Time) : Store × Except QueueError Bool :=
  if !status.isTerminal || decide (status = .succeeded) then
    (s, .error (.unsupportedTerminalStatus status))
  else
    let failed := updateDelivery s sendId (holds owner now) (release status error now)
        (fun _ => id rfl)
    if failed.2 && answers then
      let chats := if status = .outcomeUnknown then uncertain failed.1.chats sendId now
        else unavailable failed.1.chats sendId now
      ({ failed.1 with chats := chats }, .ok true)
    else (failed.1, .ok failed.2)

end Prompta.DeliveryQueue
