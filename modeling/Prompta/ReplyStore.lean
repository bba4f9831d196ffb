import Mathlib.Data.List.Sort
import Mathlib.Data.List.Dedup
import Prompta.ResponseStore

/-!
The reply store: the user's follow-ups of a chat. A follow-up is queued without
a parent, bound to the end of the verified branch, claimed once and observed
until it is settled. The walk along a branch reads the chat's rows in the order
of their creation time, rows of one time by their identifier.
-/
namespace Prompta.ReplyStore

open Tables Texts DisplayBlocks ToolCalls Schema ResponseStore

structure ReplyIntent where
  replyId : String
  conversationId : String
  parentId : String
  text : Text
  deriving DecidableEq

/-- Why an intent is refused. -/
inductive Refusal
  | differentReply
  | terminalRunRequired
  | branchIncomplete
  | unresolvedReply
  | lineageInconsistent
  | staleBranch
  | replyUnavailable
  | invalidFollowupId
  | invalidFollowupText
  | differentFollowup
  | savedChatRequired
  | tooManyFollowups
  deriving DecidableEq, Repr

def Refusal.message : Refusal → String
  | .differentReply => "Idempotency key already belongs to a different reply"
  | .terminalRunRequired => "A terminal, persisted Prompta run is required"
  | .branchIncomplete => "Original branch identity is incomplete"
  | .unresolvedReply => "An unresolved reply already occupies this branch"
  | .lineageInconsistent => "Persisted branch lineage is inconsistent"
  | .staleBranch => "The reply targets a stale or different ChatGPT branch"
  | .replyUnavailable => "The saved reply is unavailable"
  | .invalidFollowupId => "Invalid follow-up identifier"
  | .invalidFollowupText => "Invalid follow-up text"
  | .differentFollowup => "Idempotency key already belongs to a different follow-up"
  | .savedChatRequired => "A saved Prompta chat is required"
  | .tooManyFollowups => "This chat already has 20 unresolved follow-ups"

def updateReply (c : Chats) (replyId : String) (p : ReplyRow → Bool) (f : ReplyRow → ReplyRow)
    (hf : ∀ r, (f r).replyId = r.replyId) : Chats × Bool :=
  ({ c with replies := c.replies.updateAt replyId p f hf }, c.replies.hits replyId p)

/-- A row after an update was there before, or is the rewritten one. -/
theorem mem_updateReply {c : Chats} {replyId : String} {p : ReplyRow → Bool}
    {f : ReplyRow → ReplyRow} {hf : ∀ r, (f r).replyId = r.replyId} {r' : ReplyRow}
    (h : r' ∈ (updateReply c replyId p f hf).1.replies.rows) :
    r' ∈ c.replies.rows ∨ ∃ r, c.replies.lookup replyId = some r ∧ p r = true ∧ f r = r' :=
  Table.mem_updateAt hf h

def branchOrder (a b : ReplyRow) : Prop :=
  a.createdAt < b.createdAt ∨ (a.createdAt = b.createdAt ∧ a.replyId ≤ b.replyId)

instance : DecidableRel branchOrder := fun a b =>
  inferInstanceAs
    (Decidable (a.createdAt < b.createdAt ∨ (a.createdAt = b.createdAt ∧ a.replyId ≤ b.replyId)))

def branchRows (c : Chats) (sendId : String) : List ReplyRow :=
  (c.replies.rows.filter fun r => decide (r.sendId = sendId)).insertionSort branchOrder

/-- Rows that are no turn of the branch. -/
def isSkipped : ReplyStatus → Bool
  | .cancelled => true
  | .merged => true
  | _ => false

def isSettled : ReplyStatus → Bool
  | .completed => true
  | .interrupted => true
  | .stopped => true
  | _ => false

def isTerminalRun : ResultStatus → Bool
  | .completed => true
  | .interrupted => true
  | .unavailable => true
  | .stopped => true
  | _ => false

/-- The walk of `prepare`: the message that the next turn has to continue. -/
def branchTip (conversationId : String) : String → List ReplyRow → Except Refusal String
  | parentId, [] => .ok parentId
  | parentId, turn :: rest =>
    if isSkipped turn.status then branchTip conversationId parentId rest
    else if !isSettled turn.status || decide (turn.messageId = "") then .error .unresolvedReply
    else if turn.conversationId ≠ conversationId ∨ turn.parentId ≠ parentId then
      .error .lineageInconsistent
    else branchTip conversationId turn.messageId rest

def preparedRow (sendId : String) (intent : ReplyIntent) (now : Time) : ReplyRow :=
  { replyId := intent.replyId, sendId := sendId, conversationId := intent.conversationId,
    parentId := intent.parentId, userText := intent.text, status := .prepared, createdAt := now,
    updatedAt := now }

def prepare (c : Chats) (sendId : String) (intent : ReplyIntent) (now : Time) :
    Chats × Except Refusal ReplyRow :=
  match c.replies.lookup intent.replyId with
  | some existing =>
    if existing.sendId = sendId ∧ existing.conversationId = intent.conversationId ∧
        existing.parentId = intent.parentId ∧ existing.userText = intent.text then
      (c, .ok existing)
    else (c, .error .differentReply)
  | none =>
    match c.results.lookup sendId with
    | none => (c, .error .terminalRunRequired)
    | some original =>
      if !isTerminalRun original.status then (c, .error .terminalRunRequired)
      else if original.conversationId = "" ∨ original.messageId = "" then
        (c, .error .branchIncomplete)
      else
        match branchTip original.conversationId original.messageId (branchRows c sendId) with
        | .error refusal => (c, .error refusal)
        | .ok parentId =>
          if intent.conversationId = original.conversationId ∧ intent.parentId = parentId then
            ({ c with replies := c.replies.insertNew (preparedRow sendId intent now) },
              .ok (preparedRow sendId intent now))
          else (c, .error .staleBranch)

/-- A step of the status before the dispatch. -/
def preflightRow (status : ReplyStatus) (now : Time) (r : ReplyRow) : ReplyRow :=
  { r with status := status, updatedAt := now }

/-- Only a reply that was never claimed can fail before its dispatch. -/
def markPreflightFailed (c : Chats) (replyId : String) (now : Time) : Chats × Bool :=
  updateReply c replyId (fun r => decide (r.status = .prepared))
    (preflightRow .preflightFailed now) (fun _ => id rfl)

def retryPreflight (c : Chats) (replyId : String) (now : Time) : Chats × Except Refusal ReplyRow :=
  let rearmed := (updateReply c replyId (fun r => decide (r.status = .preflightFailed))
    (preflightRow .prepared now) (fun _ => id rfl)).1
  match rearmed.replies.lookup replyId with
  | some r => (rearmed, .ok r)
  | none => (rearmed, .error .replyUnavailable)

def authorizedRow (r : ReplyRow) : ReplyRow := { r with queuedByUser := true }

/-- The last transaction of an explicit send: the reply worker may see the intent. -/
def authorizeSend (c : Chats) (sendId : String) (intent : ReplyIntent) : Chats :=
  (updateReply c intent.replyId
    (fun r => decide (r.sendId = sendId) && decide (r.conversationId = intent.conversationId) &&
      decide (r.parentId = intent.parentId) && decide (r.userText = intent.text) &&
      decide (r.status = .prepared))
    authorizedRow (fun _ => id rfl)).1

def queueExplicitSend (c : Chats) (sendId : String) (intent : ReplyIntent) (now : Time) :
    Chats × Except Refusal ReplyRow :=
  match prepare c sendId intent now with
  | (prepared, .error refusal) => (prepared, .error refusal)
  | (prepared, .ok turn) =>
    let rearmed :=
      if turn.status = .preflightFailed then retryPreflight prepared intent.replyId now
      else (prepared, .ok turn)
    match rearmed with
    | (c', .error refusal) => (c', .error refusal)
    | (c', .ok turn) =>
      if turn.status = .prepared then
        let authorized := authorizeSend c' sendId intent
        match authorized.replies.lookup intent.replyId with
        | some saved => (authorized, .ok saved)
        | none => (authorized, .error .replyUnavailable)
      else (c', .ok turn)

def followupIdChar (ch : Char) : Bool :=
  isDigit ch || ('a' ≤ ch && ch ≤ 'z') || ('A' ≤ ch && ch ≤ 'Z') || ch = '_' || ch = '-'

def validFollowupId (replyId : String) : Bool :=
  replyId.toList.all followupIdChar && 16 ≤ replyId.toList.length &&
    replyId.toList.length ≤ 200

def isOutstanding : ReplyStatus → Bool
  | .queued => true
  | .prepared => true
  | .preflightFailed => true
  | .dispatching => true
  | .accepted => true
  | .generating => true
  | .outcomeUnknown => true
  | _ => false

/-- A queued first delivery that no worker has touched. -/
def untouched (d : Delivery) : Bool :=
  decide (d.status = .queued) && decide (d.leaseOwner = "") && decide (d.retryAttempt = 0)

def followupRow (sendId replyId : String) (text : Text) (status : ReplyStatus)
    (messageId : String) (now : Time) : ReplyRow :=
  { replyId := replyId, sendId := sendId, userText := text, messageId := messageId,
    status := status, queuedByUser := true, createdAt := now, updatedAt := now }

def mergedRows (c : Chats) (sendId : String) : List ReplyRow :=
  (branchRows c sendId).filter fun r => decide (r.status = .merged)

/-- The digest of the chat's first message, taken before the first merge. -/
def initialHash (lib : Stdlib) (c : Chats) (sendId : String) (message : Text) : String :=
  match (mergedRows c sendId).head? with
  | some r => if r.messageId = "" then lib.sha256 message else r.messageId
  | none => lib.sha256 message

/-- The pending first delivery that a follow-up is merged into, with its new text. -/
def mergeTarget (s : Store) (sendId : String) (withQueue : Bool) (original : ResultRow)
    (text : Text) : Option (Delivery × Text) :=
  if withQueue && decide (original.status = .queued) then
    match (s.queue.lookup sendId).filter untouched with
    | some d =>
      let combined := d.message ++ ['\n', '\n'] ++ text
      if (s.chats.replies.rows.countP fun r =>
          decide (r.sendId = sendId) && decide (r.status ≠ .merged)) = 0 ∧
        combined.length ≤ 32000 then some (d, combined)
      else none
    | none => none
  else none

/-- The first prompt with the follow-up appended, in the transcript. -/
def combinedRow (text : Text) (now : Time) (r : ResultRow) : ResultRow :=
  { r with userText := text, updatedAt := now }

theorem combinedRow_sendId (text : Text) (now : Time) (r : ResultRow) :
    (combinedRow text now r).sendId = r.sendId :=
  rfl

/-- The first prompt with the follow-up appended, in the queue. -/
def combinedDelivery (text : Text) (now : Time) (d : Delivery) : Delivery :=
  { d with message := text, updatedAt := now }

theorem combinedDelivery_sendId (text : Text) (now : Time) (d : Delivery) :
    (combinedDelivery text now d).sendId = d.sendId :=
  rfl

/-- The transaction that reads the untouched delivery also rewrites it, so the refusal
of a delivery claimed in between cannot occur. -/
def queueFollowup (lib : Stdlib) (s : Store) (sendId replyId : String) (text : Text)
    (withQueue : Bool) (now : Time) : Store × Except Refusal ReplyRow :=
  if !validFollowupId replyId then (s, .error .invalidFollowupId)
  else if strip text = [] ∨ 32000 < text.length then (s, .error .invalidFollowupText)
  else
    match s.chats.replies.lookup replyId with
    | some existing =>
      if existing.sendId = sendId ∧ existing.userText = text ∧ existing.queuedByUser = true then
        (s, .ok existing)
      else (s, .error .differentFollowup)
    | none =>
      match s.chats.results.lookup sendId with
      | none => (s, .error .savedChatRequired)
      | some original =>
        if 20 ≤ (s.chats.replies.rows.countP fun r =>
            decide (r.sendId = sendId) && isOutstanding r.status) then
          (s, .error .tooManyFollowups)
        else
          match mergeTarget s sendId withQueue original text with
          | some (d, combined) =>
            let row := followupRow sendId replyId text .merged
              (initialHash lib s.chats sendId d.message) now
            ({ queue := s.queue.updateAt sendId untouched (combinedDelivery combined now)
                (combinedDelivery_sendId combined now)
               chats :=
                { (updateResult s.chats sendId (fun r => decide (r.status = .queued))
                    (combinedRow combined now) (combinedRow_sendId combined now)).1 with
                  replies := s.chats.replies.insertNew row } }, .ok row)
          | none =>
            let row := followupRow sendId replyId text .queued "" now
            ({ s with chats := { s.chats with replies := s.chats.replies.insertNew row } }, .ok row)

/-- A follow-up that the user has authorized and no worker has claimed. -/
def isWaitingDraft (r : ReplyRow) : Bool :=
  r.queuedByUser && (decide (r.status = .queued) || decide (r.status = .prepared))

/-- A chat whose first turn is over and identified. -/
def continuable (original : ResultRow) : Bool :=
  isTerminalRun original.status && decide (original.conversationId ≠ "") &&
    decide (original.messageId ≠ "")

def readyCandidates (c : Chats) (exclude : List String) : List ReplyRow :=
  (c.replies.rows.filter fun r => isWaitingDraft r && (c.results.lookup r.sendId).any continuable &&
    decide (r.replyId ∉ exclude)).insertionSort branchOrder

/-- The walk up to the draft: the message it continues, if every turn before it is
settled, identified and continues the one before. -/
def readyParent (draft : ReplyRow) (conversationId : String) :
    String → List ReplyRow → Option String
  | _, [] => none
  | parentId, previous :: rest =>
    if isSkipped previous.status then readyParent draft conversationId parentId rest
    else if previous.replyId = draft.replyId then
      if draft.status = .queued ∨
        (draft.conversationId = conversationId ∧ draft.parentId = parentId) then some parentId
      else none
    else if isSettled previous.status && decide (previous.messageId ≠ "") &&
      decide (previous.conversationId = conversationId) && decide
        (previous.parentId = parentId) then
      readyParent draft conversationId previous.messageId rest
    else none

/-- The message a draft of the chat continues, once it is ready. -/
def readyDraft (c : Chats) (draft : ReplyRow) : Option ReplyIntent :=
  match (c.results.lookup draft.sendId).filter continuable with
  | none => none
  | some original =>
    (readyParent draft original.conversationId original.messageId
      ((branchRows c draft.sendId).filter fun r => decide (r.status ≠ .merged))).map fun parentId =>
        ⟨draft.replyId, original.conversationId, parentId, draft.userText⟩

def readyQueuedIntent (c : Chats) (exclude : List String) :
    Option (String × ReplyIntent × ReplyStatus) :=
  (readyCandidates c exclude).findSome? fun draft =>
    (readyDraft c draft).map fun intent => (draft.sendId, intent, draft.status)

def boundRow (conversationId parentId : String) (now : Time) (r : ReplyRow) : ReplyRow :=
  { r with status := .prepared, conversationId := conversationId, parentId := parentId,
           updatedAt := now }

def bindIntent (c : Chats) (intent : ReplyIntent) (now : Time) : Chats :=
  (updateReply c intent.replyId (fun r => decide (r.status = .queued))
    (boundRow intent.conversationId intent.parentId now) (fun _ => id rfl)).1

/-- Bind one explicit intent to the branch it is ready for. -/
def nextQueuedIntent (c : Chats) (exclude : List String) (now : Time) :
    Chats × Option (String × ReplyIntent) :=
  match readyQueuedIntent c exclude with
  | none => (c, none)
  | some (sendId, intent, status) =>
    (if status = .queued then bindIntent c intent now else c, some (sendId, intent))

/-- A detached capture is shown as live for a while after it was verified. -/
def visibleReplyStatus (status : ReplyStatus) (observedAt now : Time) : ReplyStatus :=
  match status with
  | .interrupted =>
    if 0 < observedAt ∧ observedAt ≤ now ∧ now < observedAt + 15 * 60 then .generating else status
  | .outcomeUnknown =>
    if 0 < observedAt ∧ observedAt ≤ now ∧ now < observedAt + 15 * 60 then .generating else status
  | _ => status

/-- The last turn of a branch, as the recovery of queued follow-ups sees it: whether its
status admits a recovery, its identities, and the identity of the turn before it. -/
structure BranchTip where
  settled : Bool
  conversationId : String
  messageId : String
  predecessor : Option String := none
  deriving DecidableEq

def originalTip (original : ResultRow) : BranchTip where
  settled := isTerminalRun original.status || decide (original.status = .outcomeUnknown)
  conversationId := original.conversationId
  messageId := original.messageId

def nextTip (now : Time) (tip : BranchTip) (r : ReplyRow) : BranchTip :=
  let visible := visibleReplyStatus r.status r.liveObservedAt now
  if visible = .queued then tip
  else
    { settled := isSettled visible || decide (visible = .outcomeUnknown)
      conversationId := r.conversationId, messageId := r.messageId
      predecessor := some tip.messageId }

def recoveryTip (c : Chats) (original : ResultRow) (now : Time) : BranchTip :=
  ((branchRows c original.sendId).filter fun r => decide (r.status ≠ .merged)).foldl (nextTip now)
    (originalTip original)

def needsRecovery (tip : BranchTip) : Bool :=
  tip.settled && decide (tip.conversationId ≠ "") && decide (tip.messageId = "") &&
    decide (tip.predecessor ≠ some "")

def queuedDrafts (c : Chats) (sendId : String) : List ReplyRow :=
  c.replies.rows.filter fun r =>
    decide (r.sendId = sendId) && r.queuedByUser && decide (r.status = .queued)

def latestDraft (c : Chats) (sendId : String) : Time :=
  (((queuedDrafts c sendId).map ReplyRow.createdAt).max?).getD 0

def isPinned (c : Chats) (sendId : String) : Bool :=
  c.localPins.any fun pin => decide (pin.sendId = sendId)

/-- Pinned chats first, then the latest draft, then the greatest identifier. -/
def candidateOrder (c : Chats) (a b : String) : Prop :=
  (isPinned c a = true ∧ isPinned c b = false) ∨
    (isPinned c a = isPinned c b ∧
      (latestDraft c b < latestDraft c a ∨ (latestDraft c b = latestDraft c a ∧ b ≤ a)))

instance (c : Chats) : DecidableRel (candidateOrder c) := fun a b =>
  inferInstanceAs (Decidable ((isPinned c a = true ∧ isPinned c b = false) ∨
    (isPinned c a = isPinned c b ∧
      (latestDraft c b < latestDraft c a ∨ (latestDraft c b = latestDraft c a ∧ b ≤ a)))))

def queuedChats (c : Chats) : List String :=
  ((c.replies.rows.filter fun r => r.queuedByUser && decide (r.status = .queued)).map
    ReplyRow.sendId).dedup.insertionSort (candidateOrder c)

def queuedRecoveryCandidates (c : Chats) (now : Time) : List String :=
  (queuedChats c).filter fun sendId =>
    (c.results.lookup sendId).any fun original => needsRecovery (recoveryTip c original now)

/-- A settled status, or a send whose outcome is unknown. -/
def recoverableParent : ReplyStatus → Bool
  | .outcomeUnknown => true
  | status => isSettled status

/-- A verified message for a turn that has none. Its outcome is no longer unknown. -/
def identifiedRow (messageId : String) (r : ResultRow) : ResultRow :=
  { r with messageId := lower messageId
           status := if r.status = .outcomeUnknown then .interrupted else r.status }

def identifiedReply (messageId : String) (now : Time) (r : ReplyRow) : ReplyRow :=
  { r with messageId := lower messageId
           status := if r.status = .outcomeUnknown then .interrupted else r.status
           updatedAt := now }

/-- An ended first turn of the conversation, with this answer and without a message. -/
def unidentifiedOriginal (conversationId : String) (answer : Text) (r : ResultRow) : Bool :=
  (isTerminalRun r.status || decide (r.status = .outcomeUnknown)) &&
    decide (r.conversationId = conversationId) && decide (r.messageId = "") &&
    decide (r.assistantText = answer)

def recoverOriginalParent (c : Chats) (sendId conversationId messageId : String)
    (originalAnswer : Text) : Chats × Bool :=
  if !isUuid conversationId || !isUuid messageId then (c, false)
  else if (c.replies.rows.any fun r => decide (r.sendId = sendId) && decide
    (r.status ≠ .queued)) then
    (c, false)
  else
    updateResult c sendId (unidentifiedOriginal conversationId originalAnswer)
      (identifiedRow messageId) (fun _ => id rfl)

/-- A reply without a message, settled and without an owner. -/
def unidentified (r : ReplyRow) : Bool :=
  recoverableParent r.status && decide (r.messageId = "") && decide (r.leaseOwner = "")

/-- The rows that the recovery of a reply's message reads, the last one first. -/
def sentRows (c : Chats) (sendId : String) : List ReplyRow :=
  ((branchRows c sendId).filter fun r => decide (r.status ≠ .queued)).reverse

def recoverReplyParent (c : Chats) (sendId replyId conversationId previousParentId : String)
    (userText assistantText : Text) (messageId : String) (now : Time) : Chats × Bool :=
  if !isUuid conversationId || !isUuid previousParentId || !isUuid messageId ||
    decide (lower messageId = lower previousParentId) then (c, false)
  else
    match (c.results.lookup sendId).filter fun r => isTerminalRun r.status with
    | none => (c, false)
    | some original =>
      if original.conversationId ≠ conversationId then (c, false)
      else
        match sentRows c sendId with
        | [] => (c, false)
        | r :: earlier =>
          if r.replyId ≠ replyId ∨ r.conversationId ≠ conversationId ∨
            r.parentId ≠ previousParentId ∨ r.userText ≠ userText ∨
            r.assistantText ≠ assistantText ∨ unidentified r = false then (c, false)
          else if (earlier.head?.map ReplyRow.messageId).getD original.messageId ≠ previousParentId
            then (c, false)
          else updateReply c replyId unidentified (identifiedReply messageId now) (fun _ => id rfl)

def claimedRow (owner : String) (deadline now : Time) (r : ReplyRow) : ReplyRow :=
  { r with status := .dispatching, leaseOwner := owner, leaseDeadline := deadline,
           updatedAt := now }

def claim (c : Chats) (replyId owner : String) (deadline now : Time) : Chats × Bool :=
  if owner = "" ∨ deadline ≤ now then (c, false)
  else
    updateReply c replyId (fun r => decide (r.status = .prepared)) (claimedRow owner deadline now)
      (fun _ => id rfl)

/-- The owner's lease on an unsettled dispatch has not run out. -/
def liveDispatch (owner : String) (now : Time) (r : ReplyRow) : Bool :=
  activeReply r.status && decide (r.leaseOwner = owner) && decide (now < r.leaseDeadline)

def submittedReply (now : Time) (r : ReplyRow) : ReplyRow :=
  { r with status := .accepted, updatedAt := now,
           acceptedAt := if 0 < r.acceptedAt then r.acceptedAt else now }

def acknowledgeSubmission (c : Chats) (replyId owner conversationId parentId : String)
    (now : Time) : Chats × Bool :=
  updateReply c replyId
    (fun r => liveDispatch owner now r && decide (r.status = .dispatching) &&
      decide (r.conversationId = conversationId) && decide (r.parentId = parentId))
    (submittedReply now) (fun _ => id rfl)

def acceptedReply (messageId responseParent : String) (now : Time) (r : ReplyRow) : ReplyRow :=
  { r with status := .accepted, messageId := messageId, responseParentId := responseParent,
           updatedAt := now, acceptedAt := if 0 < r.acceptedAt then r.acceptedAt else now }

def accepted (c : Chats) (replyId owner conversationId parentId messageId : String)
    (responseParentId : Option String) (now : Time) : Chats × Bool :=
  let responseParent := responseParentId.getD parentId
  if messageId = "" ∨ messageId = parentId ∨ responseParent = messageId then (c, false)
  else
    updateReply c replyId
      (fun r => liveDispatch owner now r && decide (r.status ≠ .generating) &&
        decide (r.messageId = "") && decide (r.conversationId = conversationId) &&
        decide (r.parentId = parentId))
      (acceptedReply messageId responseParent now) (fun _ => id rfl)

def replyTools (lib : Stdlib) (capture : CaptureResult) (r : ReplyRow) : List ToolCall :=
  mergeToolCalls lib r.toolCalls capture.toolCalls

def replyBlocks (lib : Stdlib) (capture : CaptureResult) (r : ReplyRow) : List Block :=
  mergeDisplayBlocks lib r.displayBlocks capture.displayBlocks

def visibleReplyText (lib : Stdlib) (r : ReplyRow) : Text :=
  visibleAssistantText lib r.assistantText r.displayBlocks

/-- A page snapshot prefers its blocks, a stream the longer of its text and its blocks. -/
def observedText (lib : Stdlib) (capture : CaptureResult) (r : ReplyRow) : Text :=
  let blocks := displayBlocksText lib (replyBlocks lib capture r)
  if capture.source = .dom then orText blocks capture.text
  else if capture.text.length < blocks.length then blocks else capture.text

def parentMatches (capture : CaptureResult) (r : ReplyRow) : Bool :=
  let expected := if r.responseParentId = "" then r.parentId else r.responseParentId
  decide (capture.parentId = some expected) ||
    (decide (capture.source ≠ .sse) && decide (capture.parentId = none))

def observeRow (lib : Stdlib) (owner : String) (capture : CaptureResult) (now : Time)
    (r : ReplyRow) : ReplyRow :=
  let complete := decide (capture.status = .complete)
  { r with
    status := if complete then .completed else .generating
    assistantText := (observedText lib capture r).take maxText
    toolCalls := replyTools lib capture r
    displayBlocks := replyBlocks lib capture r
    updatedAt := now
    finishedAt := if complete then now else r.finishedAt
    leaseOwner := if complete then "" else owner }

def observe (lib : Stdlib) (c : Chats) (replyId owner : String) (capture : CaptureResult)
    (now : Time) : Chats × Bool :=
  let owned := fun r : ReplyRow => liveDispatch owner now r && answeringReply r.status
  match (c.replies.lookup replyId).filter owned with
  | none => (c, false)
  | some r =>
    let text := observedText lib capture r
    if capture.conversationId ≠ some r.conversationId ∨ capture.messageId ≠ some r.messageId ∨
      parentMatches capture r = false ∨ text = [] ∨
      text.length < (visibleReplyText lib r).length then (c, false)
    else updateReply c replyId owned (observeRow lib owner capture now) (fun _ => id rfl)

def progressRow (lib : Stdlib) (capture : CaptureResult) (now : Time) (r : ReplyRow) : ReplyRow :=
  { r with toolCalls := replyTools lib capture r, displayBlocks := replyBlocks lib capture r,
           updatedAt := now }

/-- Visible progress, before the identity of the final answer is known. -/
def observeTools (lib : Stdlib) (c : Chats) (replyId owner : String) (capture : CaptureResult)
    (now : Time) : Chats × Bool :=
  if (capture.toolCalls = [] ∧ capture.displayBlocks = []) ∨ present capture.conversationId = false
    then (c, false)
  else
    let owned := fun r : ReplyRow =>
      liveDispatch owner now r && decide (capture.conversationId = some r.conversationId)
    match (c.replies.lookup replyId).filter owned with
    | none => (c, false)
    | some r =>
      if replyTools lib capture r = r.toolCalls ∧ replyBlocks lib capture r = r.displayBlocks then
        (c, true)
      else
        ((updateReply c replyId owned (progressRow lib capture now) (fun _ => id rfl)).1, true)

def renewedReply (deadline now : Time) (r : ReplyRow) : ReplyRow :=
  { r with leaseDeadline := deadline, updatedAt := now }

def renew (c : Chats) (replyId owner : String) (deadline now : Time) : Chats × Bool :=
  if deadline ≤ now then (c, false)
  else
    updateReply c replyId (liveDispatch owner now) (renewedReply deadline now) (fun _ => id rfl)

/-- The dispatch ends without an answer, its outcome unknown or interrupted. -/
def endedReply (uncertain : Bool) (now : Time) (r : ReplyRow) : ReplyRow :=
  { r with
    status := if uncertain && decide (r.status = .dispatching) then .outcomeUnknown
      else .interrupted
    leaseOwner := ""
    updatedAt := now }

def finish (c : Chats) (replyId owner : String) (uncertain : Bool) (now : Time) : Chats × Bool :=
  updateReply c replyId (fun r => activeReply r.status && decide (r.leaseOwner = owner))
    (endedReply uncertain now) (fun _ => id rfl)

/-- The owners of live dispatches whose process is gone. -/
def deadReplyOwners (c : Chats) (alive : String → Bool) (now : Time) : List String :=
  (c.replies.rows.filter fun r =>
    liveReply now r && decide (r.leaseOwner ≠ "") && !alive r.leaseOwner).map ReplyRow.leaseOwner

def staleReply (c : Chats) (alive : String → Bool) (now : Time) (r : ReplyRow) : Bool :=
  activeReply r.status &&
    (decide (r.leaseDeadline ≤ now) || decide (r.leaseOwner ∈ deadReplyOwners c alive now))

def recoverOrphans (c : Chats) (alive : String → Bool) (now : Time) : Chats × ℕ :=
  ({ c with
     replies := c.replies.update (staleReply c alive now) (endedReply true now) (fun _ => id rfl) },
    c.replies.rows.countP (staleReply c alive now))

def awaitsHistory : ReplyStatus → Bool
  | .outcomeUnknown => true
  | .interrupted => true
  | .accepted => true
  | .generating => true
  | _ => false

def detachedReply (r : ReplyRow) : Bool := awaitsHistory r.status && decide (r.leaseOwner = "")

def loadedReply (now : Time) (r : ReplyRow) : ReplyRow :=
  { r with liveObservedAt := if r.liveObservedAt = 0 then now else r.liveObservedAt }

def observeHistoryLoaded (c : Chats) (replyId conversationId : String) (parentId : Option String)
    (now : Time) : Chats × Bool :=
  if conversationId = "" ∨ present parentId = false then (c, false)
  else
    updateReply c replyId
      (fun r => detachedReply r && decide (r.conversationId = conversationId) &&
        decide (parentId = some r.parentId))
      (loadedReply now) (fun _ => id rfl)

def usableReplyProbe (capture : CaptureResult) : Bool :=
  present capture.conversationId && present capture.parentId &&
    (decide (capture.text ≠ []) || decide (capture.toolCalls ≠ []) || capture.verifiedGenerating) &&
    (decide (capture.text = []) || decide (capture.status = .partialText) ||
      decide (capture.status = .complete)) &&
    (present capture.messageId || present capture.observerId)

/-- Another settled reply of the chat whose message the reply continues. -/
def verifiedPredecessor (c : Chats) (r : ReplyRow) : Bool :=
  c.replies.rows.any fun prior =>
    decide (prior.sendId = r.sendId) && decide (prior.replyId ≠ r.replyId) &&
      decide (prior.conversationId = r.conversationId) && decide (prior.messageId = r.parentId) &&
      isSettled prior.status

/-- The parent of the reply is the chat's first turn or another settled reply. -/
def verifiedParent (c : Chats) (r : ReplyRow) : Bool :=
  (c.results.lookup r.sendId).any fun original =>
    decide (original.conversationId = r.conversationId) && isTerminalRun original.status &&
      (decide (original.messageId = r.parentId) || verifiedPredecessor c r)

def shorterReplyProbe (lib : Stdlib) (capture : CaptureResult) (r : ReplyRow) : Bool :=
  decide ((capture.text.take maxText).length < (visibleReplyText lib r).length)

def recoveredReplyText (lib : Stdlib) (capture : CaptureResult) (r : ReplyRow) : Text :=
  if shorterReplyProbe lib capture r then r.assistantText else capture.text.take maxText

def replyProbeCompletes (capture : CaptureResult) (r : ReplyRow) : Bool :=
  decide (capture.status = .complete) && decide (capture.text.take maxText ≠ []) &&
    decide (r.assistantText.length ≤ (capture.text.take maxText).length)

def replyProgressed (lib : Stdlib) (capture : CaptureResult) (r : ReplyRow) : Bool :=
  decide (recoveredReplyText lib capture r ≠ r.assistantText) ||
    decide (replyTools lib capture r ≠ r.toolCalls) ||
    decide (replyBlocks lib capture r ≠ r.displayBlocks)

def recoverReplyRow (lib : Stdlib) (capture : CaptureResult) (now : Time) (r : ReplyRow) :
    ReplyRow :=
  let complete := replyProbeCompletes capture r
  let moved := replyProgressed lib capture r
  { r with
    assistantText := recoveredReplyText lib capture r
    toolCalls := replyTools lib capture r
    displayBlocks := replyBlocks lib capture r
    messageId := orElse capture.messageId r.messageId
    status := if complete then .completed else r.status
    liveObservedAt := if complete then 0 else if moved then now else r.liveObservedAt
    updatedAt := if moved || complete then now else r.updatedAt
    finishedAt := if complete then now else r.finishedAt
    leaseDeadline :=
      if !complete && moved && answeringReply r.status then now + maxOwnedTabAgeSeconds
      else r.leaseDeadline }

/-- Recovery by reading the page. An uncertain dispatch is never tried again. -/
def recoverHistoricalReply (lib : Stdlib) (c : Chats) (replyId : String) (capture : CaptureResult)
    (now : Time) : Chats × Bool :=
  if !usableReplyProbe capture then (c, false)
  else
    match (c.replies.lookup replyId).filter detachedReply with
    | none => (c, false)
    | some r =>
      if capture.conversationId ≠ some r.conversationId ∨ capture.parentId ≠ some r.parentId ∨
        otherMessage r.messageId capture = true then (c, false)
      else if !verifiedParent c r then (c, false)
      else if shorterReplyProbe lib capture r && decide (capture.toolCalls = []) &&
        !capture.verifiedGenerating then (c, false)
      else updateReply c replyId detachedReply (recoverReplyRow lib capture now) (fun _ => id rfl)

/-- The probe passes every check of the recovery. -/
def acceptsReplyProbe (lib : Stdlib) (c : Chats) (capture : CaptureResult) (r : ReplyRow) :
    Bool :=
  usableReplyProbe capture && detachedReply r &&
    decide (capture.conversationId = some r.conversationId) &&
    decide (capture.parentId = some r.parentId) && !otherMessage r.messageId capture &&
    verifiedParent c r &&
    !(shorterReplyProbe lib capture r && decide (capture.toolCalls = []) &&
      !capture.verifiedGenerating)

/-- A recovery rewrites the row of an accepted probe, or it changes nothing. -/
theorem recoverHistoricalReply_cases (lib : Stdlib) (c : Chats) (replyId : String)
    (capture : CaptureResult) (now : Time) :
    (recoverHistoricalReply lib c replyId capture now).1 = c ∨
      ∃ r, c.replies.lookup replyId = some r ∧ acceptsReplyProbe lib c capture r = true ∧
        recoverHistoricalReply lib c replyId capture now =
          updateReply c replyId detachedReply (recoverReplyRow lib capture now)
            (fun _ => id rfl) := by
  unfold recoverHistoricalReply
  split
  · exact Or.inl rfl
  rename_i husable
  split
  · exact Or.inl rfl
  rename_i r hr
  split
  · exact Or.inl rfl
  rename_i hguard
  split
  · exact Or.inl rfl
  rename_i hparent
  split
  · exact Or.inl rfl
  rename_i hlonger
  obtain ⟨hlookup, hdetached⟩ := Option.filter_eq_some_iff.mp hr
  refine Or.inr ⟨r, hlookup, ?_, rfl⟩
  simp only [not_or, not_not, Bool.not_eq_true, Bool.not_eq_true', Bool.not_eq_false]
    at husable hguard hparent
  rw [Bool.not_eq_true] at hlonger
  rw [acceptsReplyProbe, hlonger, husable, hdetached, hguard.2.2, hparent]
  simp [hguard.1, hguard.2.1]

end Prompta.ReplyStore
