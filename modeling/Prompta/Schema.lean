import Prompta.Tables
import Prompta.ToolCalls

/-!
The rows of the stores. The delivery queue and the chat results are separate
databases; replies share the results database. The statuses of a table are the
texts its code writes. Capture results are what the observers of an owned tab
hand to the stores.
-/
namespace Prompta.Schema

open Tables Texts DisplayBlocks ToolCalls

inductive DeliveryStatus
  | queued
  | running
  | retrying
  | rateLimited
  | succeeded
  | deadLettered
  | outcomeUnknown
  | cancelled
  deriving DecidableEq, Repr

def DeliveryStatus.value : DeliveryStatus → String
  | .queued => "queued"
  | .running => "running"
  | .retrying => "retrying"
  | .rateLimited => "rate_limited"
  | .succeeded => "succeeded"
  | .deadLettered => "dead_lettered"
  | .outcomeUnknown => "outcome_unknown"
  | .cancelled => "cancelled"

/-- `RETRY_DELIVERY_STATUSES` -/
def DeliveryStatus.isRetry : DeliveryStatus → Bool
  | .retrying => true
  | .rateLimited => true
  | _ => false

/-- `TERMINAL_DELIVERY_STATUSES` -/
def DeliveryStatus.isTerminal : DeliveryStatus → Bool
  | .cancelled => true
  | .deadLettered => true
  | .outcomeUnknown => true
  | .succeeded => true
  | _ => false

/-- The statuses of a delivery that waits for a claim. -/
def DeliveryStatus.isWaiting : DeliveryStatus → Bool
  | .queued => true
  | .retrying => true
  | .rateLimited => true
  | _ => false

def DeliveryStatus.isPending : DeliveryStatus → Bool
  | .running => true
  | status => status.isWaiting

/-- A row of `job_deliveries`. -/
structure Delivery where
  sequence : ℕ
  sendId : String
  message : Text
  images : List String := []
  pinChat : Bool := false
  clientId : String := ""
  oneTime : Bool := false
  queuePriority : ℤ := 0
  status : DeliveryStatus := .queued
  error : String := ""
  lastError : String := ""
  createdAt : Time
  updatedAt : Time
  retryAt : Time := 0
  retryAttempt : ℕ := 0
  finishedAt : Time := 0
  leaseOwner : String := ""
  leaseAcquiredAt : Time := 0
  leaseExpiresAt : Time := 0
  deriving DecidableEq

abbrev Deliveries := Table Delivery String Delivery.sendId

inductive CaptureSource
  | unset
  | sse
  | dom
  | historyDom
  | fireAndForget
  deriving DecidableEq, Repr

/-- The statuses written to `job_responses`. Some filters also name `partial`, which
no code writes to this table. -/
inductive ResultStatus
  | queued
  | submitted
  | accepted
  | generating
  | completed
  | interrupted
  | unavailable
  | outcomeUnknown
  | stopped
  deriving DecidableEq, Repr

/-- A row of `job_responses`. -/
structure ResultRow where
  sendId : String
  jobName : String := ""
  userText : Text
  assistantText : Text := []
  toolCalls : List ToolCall := []
  displayBlocks : List Block := []
  status : ResultStatus := .queued
  source : CaptureSource := .unset
  conversationId : String := ""
  messageId : String := ""
  parentId : String := ""
  createdAt : Time
  acceptedAt : Time := 0
  updatedAt : Time
  finishedAt : Time := 0
  captureOwner : String := ""
  captureDeadline : Time := 0
  liveObservedAt : Time := 0
  deriving DecidableEq

abbrev Results := Table ResultRow String ResultRow.sendId

inductive ReplyStatus
  | queued
  | prepared
  | preflightFailed
  | dispatching
  | outcomeUnknown
  | accepted
  | generating
  | completed
  | interrupted
  | stopped
  | cancelled
  | merged
  deriving DecidableEq, Repr

/-- A row of `manual_reply_turns`. -/
structure ReplyRow where
  replyId : String
  sendId : String
  conversationId : String := ""
  parentId : String := ""
  userText : Text
  assistantText : Text := []
  toolCalls : List ToolCall := []
  displayBlocks : List Block := []
  messageId : String := ""
  responseParentId : String := ""
  status : ReplyStatus
  queuedByUser : Bool := false
  leaseOwner : String := ""
  leaseDeadline : Time := 0
  liveObservedAt : Time := 0
  createdAt : Time
  acceptedAt : Time := 0
  finishedAt : Time := 0
  updatedAt : Time
  deriving DecidableEq

abbrev Replies := Table ReplyRow String ReplyRow.replyId

structure LocalPin where
  sendId : String
  pinnedAt : Time
  deriving DecidableEq

structure RecoveryRequest where
  targetId : String
  sendId : String
  requestedAt : Time
  deriving DecidableEq

/-- The results database. -/
structure Chats where
  results : Results
  replies : Replies
  localPins : List LocalPin := []
  recoveryRequests : List RecoveryRequest := []

/-- The two databases of the delivery service. -/
structure Store where
  queue : Deliveries
  chats : Chats

def Store.empty : Store := ⟨Table.empty, ⟨Table.empty, Table.empty, [], []⟩⟩

inductive CaptureStatus
  | complete
  | partialText
  | timeout
  | approvalWait
  | rateLimited
  | interrupted
  | unknown
  deriving DecidableEq, Repr

structure CaptureResult where
  source : CaptureSource
  status : CaptureStatus
  text : Text
  conversationId : Option String := none
  messageId : Option String := none
  parentId : Option String := none
  observerId : Option String := none
  toolCalls : List ToolCall := []
  verifiedGenerating : Bool := false
  displayBlocks : List Block := []
  turnMessageIds : List String := []

def maxText : ℕ := 2 * 1024 * 1024

def maxOwnedTabAgeSeconds : Time := 15 * 60

theorem DeliveryStatus.waiting_not_terminal {status : DeliveryStatus}
    (h : status.isWaiting = true) : status.isTerminal = false := by
  cases status <;> simp_all [isWaiting, isTerminal]

end Prompta.Schema
