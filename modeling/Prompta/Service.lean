import Prompta.DeliveryQueue
import Prompta.Runs

/-!
The delivery service as one machine over the two databases. A call is one
committed operation of a store at a time of the clock; whoever makes it, the
scheduler, a worker or the web interface, its effect depends on the stores only.
A run of calls is therefore any interleaving of all of them.
-/
namespace Prompta.Service

open Tables Texts DisplayBlocks Schema

inductive StopError
  | runNotFound
  | stillStarting
  deriving DecidableEq, Repr

def StopError.message : StopError → String
  | .runNotFound => "Run not found"
  | .stillStarting => "This job is still starting. Try Stop again once ChatGPT accepts it."

/-- The statuses of a response that a stop ends. -/
def stopsResult : ResultStatus → Bool
  | .queued => true
  | .accepted => true
  | .generating => true
  | .interrupted => true
  | .unavailable => true
  | _ => false

def isUnsent : ReplyStatus → Bool
  | .queued => true
  | .prepared => true
  | _ => false

/-- The statuses of a reply that a stop ends, once it was dispatched. -/
def stopsReply : ReplyStatus → Bool
  | .dispatching => true
  | .accepted => true
  | .generating => true
  | .interrupted => true
  | .outcomeUnknown => true
  | _ => false

def stopResult (now : Time) (r : ResultRow) : ResultRow :=
  { r with status := .stopped, liveObservedAt := 0, captureOwner := "", captureDeadline := 0,
           updatedAt := now, finishedAt := now }

def cancelReply (now : Time) (r : ReplyRow) : ReplyRow :=
  { r with status := .cancelled, leaseOwner := "", leaseDeadline := 0, updatedAt := now }

def stopReply (now : Time) (r : ReplyRow) : ReplyRow :=
  { r with status := .stopped, leaseOwner := "", leaseDeadline := 0, liveObservedAt := 0,
           updatedAt := now, finishedAt := now }

/-- The last transaction of a stop. -/
def stopChat (c : Chats) (sendId : String) (now : Time) : Chats :=
  let unsent := c.replies.update (fun r => decide (r.sendId = sendId) && isUnsent r.status)
    (cancelReply now) (fun _ => id rfl)
  { results := c.results.updateAt sendId (fun r => stopsResult r.status) (stopResult now)
      (fun _ => id rfl)
    replies := unsent.update (fun r => decide (r.sendId = sendId) && stopsReply r.status)
      (stopReply now) (fun _ => id rfl)
    localPins := c.localPins.filter fun pin => decide (pin.sendId ≠ sendId)
    recoveryRequests := c.recoveryRequests.filter fun request => decide (request.sendId ≠ sendId) }

/-- The page may still generate for the saved turn. -/
def hasStopTarget (c : Chats) (sendId : String) : Bool :=
  (c.results.lookup sendId).any (fun r => ResponseStore.isCapturing r.status ||
    (decide (r.conversationId ≠ "") &&
      (decide (r.status = .interrupted) || decide (r.status = .unavailable)))) ||
    c.replies.rows.any fun r => decide (r.sendId = sendId) && stopsReply r.status

/-- A stop cancels the waiting delivery first. A delivery that is being sent, with
nothing yet to stop on the page, is refused. -/
def stop (s : Store) (sendId : String) (answers : Bool) (now : Time) :
    Store × Except StopError Bool :=
  if s.chats.results.lookup sendId = none ∧ s.queue.lookup sendId = none then
    (s, .error .runNotFound)
  else
    let cancelled := DeliveryQueue.cancelPending s sendId "Stopped by user" answers now
    if (s.queue.lookup sendId).any (fun d => decide (d.status = .running)) &&
      !hasStopTarget s.chats sendId then
      (cancelled.1, .error .stillStarting)
    else ({ cancelled.1 with chats := stopChat cancelled.1.chats sendId now }, .ok cancelled.2)

/-- The operations on the delivery queue. -/
inductive QueueCall
  | enqueue (record : DeliveryQueue.DeliveryRecord) (answers : Bool)
  | bumpToFront (sendId : String)
  | promoteOneTime (sendId : String)
  | cancelPending (sendId error : String) (answers : Bool)
  | claimNext (owner : String) (leaseSeconds : Time) (fireAndForget : Bool)
      (maxActive : Option ℕ) (answers : String → Bool)
  | renewLease (sendId owner : String) (leaseSeconds : Time)
  | retryClaim (sendId owner : String) (retryAt : Time) (retryAttempt : ℤ) (error : String)
      (status : DeliveryStatus)
  | completeClaim (sendId owner : String)
  | failClaim (sendId owner : String) (status : DeliveryStatus) (error : String) (answers : Bool)
  | expireLeases (answers : String → Bool) (readable : Bool)
  | reconcile (readable : Bool)
  | claimReply (replyId owner : String) (deadline : Time) (fireAndForget : Bool)
      (maxActive : Option ℕ)

/-- The operations on the responses. -/
inductive ResultCall
  | markSubmitted (sendId : String)
  | accept (sendId owner : String) (deadline : Time)
  | acceptObserved (sendId owner : String) (capture : CaptureResult) (deadline : Time)
  | markGenerating (sendId owner : String)
  | bindConversationRoute (sendId owner path : String)
  | write (sendId owner : String) (capture : CaptureResult) (allowOwnedDomMessageUpdate : Bool)
  | renewCaptureDeadline (sendId owner : String) (deadline : Time)
  | finish (sendId owner : String) (status : ResponseStore.FinishStatus)
  | unavailable (sendId : String)
  | uncertain (sendId : String)
  | prepareDeploymentRecovery (sendIds replyIds : List String)
  | recoverOrphans (alive : String → Bool)
  | observeHistoryGenerating (sendId conversationId : String)
  | recoverHistorical (sendId : String) (capture : CaptureResult)

/-- The operations on the replies. -/
inductive ReplyCall
  | prepare (sendId : String) (intent : ReplyStore.ReplyIntent)
  | queueExplicitSend (sendId : String) (intent : ReplyStore.ReplyIntent)
  | authorizeSend (sendId : String) (intent : ReplyStore.ReplyIntent)
  | queueFollowup (sendId replyId : String) (text : Text) (withQueue : Bool)
  | nextQueuedIntent (exclude : List String)
  | markPreflightFailed (replyId : String)
  | retryPreflight (replyId : String)
  | recoverOriginalParent (sendId conversationId messageId : String) (originalAnswer : Text)
  | recoverReplyParent (sendId replyId conversationId previousParentId : String)
      (userText assistantText : Text) (messageId : String)
  | claim (replyId owner : String) (deadline : Time)
  | acknowledgeSubmission (replyId owner conversationId parentId : String)
  | accepted (replyId owner conversationId parentId messageId : String)
      (responseParentId : Option String)
  | observe (replyId owner : String) (capture : CaptureResult)
  | observeTools (replyId owner : String) (capture : CaptureResult)
  | renew (replyId owner : String) (deadline : Time)
  | finish (replyId owner : String) (uncertain : Bool)
  | recoverOrphans (alive : String → Bool)
  | observeHistoryLoaded (replyId conversationId : String) (parentId : Option String)
  | recoverHistorical (replyId : String) (capture : CaptureResult)

inductive Action
  | queue (call : QueueCall)
  | result (call : ResultCall)
  | reply (call : ReplyCall)
  | stop (sendId : String)

structure Call where
  action : Action
  now : Time

inductive Output
  | unit
  | changed (ok : Bool)
  | count (n : ℕ)
  | receipt (outcome : Except DeliveryQueue.QueueError (Delivery × Bool))
  | delivery (claimed : Option Delivery)
  | outcome (outcome : Except DeliveryQueue.QueueError Bool)
  | turn (outcome : Except ReplyStore.Refusal ReplyRow)
  | intent (bound : Option (String × ReplyStore.ReplyIntent))

/-- The outcome of an operation on the results database alone. -/
def onChats {β : Type} (s : Store) (output : β → Output) (outcome : Chats × β) : Store × Output :=
  ({ s with chats := outcome.1 }, output outcome.2)

def queueStep (s : Store) (now : Time) : QueueCall → Store × Output
  | .enqueue record answers =>
    Prod.map id .receipt (DeliveryQueue.enqueueIdempotent s record answers now)
  | .bumpToFront sendId => Prod.map id .changed (DeliveryQueue.bumpToFront s sendId)
  | .promoteOneTime sendId => Prod.map id .changed (DeliveryQueue.promoteOneTime s sendId)
  | .cancelPending sendId error answers =>
    Prod.map id .changed (DeliveryQueue.cancelPending s sendId error answers now)
  | .claimNext owner leaseSeconds fireAndForget maxActive answers =>
    Prod.map id .delivery
      (DeliveryQueue.claimNext s owner leaseSeconds fireAndForget maxActive answers now)
  | .renewLease sendId owner leaseSeconds =>
    Prod.map id .changed (DeliveryQueue.renewLease s sendId owner leaseSeconds now)
  | .retryClaim sendId owner retryAt retryAttempt error status =>
    Prod.map id .outcome
      (DeliveryQueue.retryClaim s sendId owner retryAt retryAttempt error status now)
  | .completeClaim sendId owner =>
    Prod.map id .changed (DeliveryQueue.completeClaim s sendId owner now)
  | .failClaim sendId owner status error answers =>
    Prod.map id .outcome (DeliveryQueue.failClaim s sendId owner status error answers now)
  | .expireLeases answers readable =>
    Prod.map id .count (DeliveryQueue.expireLeases s answers readable now)
  | .reconcile readable =>
    Prod.map id .count (DeliveryQueue.reconcileAcceptedOutcomes s readable now)
  | .claimReply replyId owner deadline fireAndForget maxActive =>
    Prod.map id .changed
      (DeliveryQueue.claimReply s replyId owner deadline fireAndForget maxActive now)

def resultStep (lib : Stdlib) (s : Store) (now : Time) : ResultCall → Store × Output
  | .markSubmitted sendId => onChats s .changed (ResponseStore.markSubmitted s.chats sendId now)
  | .accept sendId owner deadline =>
    onChats s .changed (ResponseStore.accept s.chats sendId owner deadline now)
  | .acceptObserved sendId owner capture deadline =>
    onChats s .changed
      (ResponseStore.acceptObserved lib s.chats sendId owner capture deadline now)
  | .markGenerating sendId owner =>
    onChats s .changed (ResponseStore.markGenerating s.chats sendId owner now)
  | .bindConversationRoute sendId owner path =>
    onChats s .changed (ResponseStore.bindConversationRoute s.chats sendId owner path now)
  | .write sendId owner capture allowOwnedDomMessageUpdate =>
    onChats s .changed
      (ResponseStore.write lib s.chats sendId owner capture allowOwnedDomMessageUpdate now)
  | .renewCaptureDeadline sendId owner deadline =>
    onChats s .changed (ResponseStore.renewCaptureDeadline s.chats sendId owner deadline now)
  | .finish sendId owner status =>
    onChats s .changed (ResponseStore.finish s.chats sendId owner status now)
  | .unavailable sendId =>
    ({ s with chats := ResponseStore.unavailable s.chats sendId now }, .unit)
  | .uncertain sendId => ({ s with chats := ResponseStore.uncertain s.chats sendId now }, .unit)
  | .prepareDeploymentRecovery sendIds replyIds =>
    ({ s with chats := ResponseStore.prepareDeploymentRecovery s.chats sendIds replyIds now },
      .unit)
  | .recoverOrphans alive =>
    onChats s .count (ResponseStore.recoverOrphans s.chats alive now)
  | .observeHistoryGenerating sendId conversationId =>
    onChats s .changed
      (ResponseStore.observeHistoryGenerating s.chats sendId conversationId now)
  | .recoverHistorical sendId capture =>
    onChats s .changed (ResponseStore.recoverHistoricalResponse lib s.chats sendId capture now)

def replyStep (lib : Stdlib) (s : Store) (now : Time) : ReplyCall → Store × Output
  | .prepare sendId intent => onChats s .turn (ReplyStore.prepare s.chats sendId intent now)
  | .queueExplicitSend sendId intent =>
    onChats s .turn (ReplyStore.queueExplicitSend s.chats sendId intent now)
  | .authorizeSend sendId intent =>
    ({ s with chats := ReplyStore.authorizeSend s.chats sendId intent }, .unit)
  | .queueFollowup sendId replyId text withQueue =>
    Prod.map id .turn (ReplyStore.queueFollowup lib s sendId replyId text withQueue now)
  | .nextQueuedIntent exclude =>
    onChats s .intent (ReplyStore.nextQueuedIntent s.chats exclude now)
  | .markPreflightFailed replyId =>
    onChats s .changed (ReplyStore.markPreflightFailed s.chats replyId now)
  | .retryPreflight replyId => onChats s .turn (ReplyStore.retryPreflight s.chats replyId now)
  | .recoverOriginalParent sendId conversationId messageId originalAnswer =>
    onChats s .changed
      (ReplyStore.recoverOriginalParent s.chats sendId conversationId messageId originalAnswer)
  | .recoverReplyParent sendId replyId conversationId previousParentId userText assistantText
      messageId =>
    onChats s .changed
      (ReplyStore.recoverReplyParent s.chats sendId replyId conversationId previousParentId
        userText assistantText messageId now)
  | .claim replyId owner deadline =>
    onChats s .changed (ReplyStore.claim s.chats replyId owner deadline now)
  | .acknowledgeSubmission replyId owner conversationId parentId =>
    onChats s .changed
      (ReplyStore.acknowledgeSubmission s.chats replyId owner conversationId parentId now)
  | .accepted replyId owner conversationId parentId messageId responseParentId =>
    onChats s .changed
      (ReplyStore.accepted s.chats replyId owner conversationId parentId messageId
        responseParentId now)
  | .observe replyId owner capture =>
    onChats s .changed (ReplyStore.observe lib s.chats replyId owner capture now)
  | .observeTools replyId owner capture =>
    onChats s .changed (ReplyStore.observeTools lib s.chats replyId owner capture now)
  | .renew replyId owner deadline =>
    onChats s .changed (ReplyStore.renew s.chats replyId owner deadline now)
  | .finish replyId owner uncertain =>
    onChats s .changed (ReplyStore.finish s.chats replyId owner uncertain now)
  | .recoverOrphans alive => onChats s .count (ReplyStore.recoverOrphans s.chats alive now)
  | .observeHistoryLoaded replyId conversationId parentId =>
    onChats s .changed
      (ReplyStore.observeHistoryLoaded s.chats replyId conversationId parentId now)
  | .recoverHistorical replyId capture =>
    onChats s .changed (ReplyStore.recoverHistoricalReply lib s.chats replyId capture now)

def step (lib : Stdlib) (s : Store) (call : Call) : Store × Output :=
  match call.action with
  | .queue q => queueStep s call.now q
  | .result r => resultStep lib s call.now r
  | .reply r => replyStep lib s call.now r
  | .stop sendId => ({ s with chats := stopChat s.chats sendId call.now }, .unit)

section Step

variable {lib : Stdlib} {s : Store} {call : Call}

theorem step_queue {q : QueueCall} (h : call.action = .queue q) :
    step lib s call = queueStep s call.now q := by
  unfold step
  rw [h]

theorem step_result {r : ResultCall} (h : call.action = .result r) :
    step lib s call = resultStep lib s call.now r := by
  unfold step
  rw [h]

theorem step_reply {r : ReplyCall} (h : call.action = .reply r) :
    step lib s call = replyStep lib s call.now r := by
  unfold step
  rw [h]

theorem step_stop {sendId : String} (h : call.action = .stop sendId) :
    step lib s call = ({ s with chats := stopChat s.chats sendId call.now }, .unit) := by
  unfold step
  rw [h]

end Step

abbrev ServiceEvent := Runs.Event Store Call Output

def eventOf (lib : Stdlib) (s : Store) (call : Call) : ServiceEvent :=
  ⟨s, call, (step lib s call).2, (step lib s call).1⟩

/-- Library functions for runs on short texts, which they never compare. -/
def plainLib : Stdlib where
  casefold := fun t => t.map Char.toLower
  sequenceRatio := fun a b => if a = b then 1 else 0
  sha256 := String.ofList

end Prompta.Service
