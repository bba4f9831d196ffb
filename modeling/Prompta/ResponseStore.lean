import Prompta.Schema

/-!
The response store: one row for each delivery's answer. Every operation is one
statement on the row of its send identifier, or a read of that row followed by
such a statement in the same transaction; it returns whether a row changed. Only
`recover_orphans` and `prepare_deployment_recovery` reach more than one row.
-/
namespace Prompta.ResponseStore

open Tables Texts DisplayBlocks ToolCalls Schema

def updateResult (c : Chats) (sendId : String) (p : ResultRow → Bool) (f : ResultRow → ResultRow)
    (hf : ∀ r, (f r).sendId = r.sendId) : Chats × Bool :=
  ({ c with results := c.results.updateAt sendId p f hf }, c.results.hits sendId p)

/-- A row after an update was there before, or is the rewritten one. -/
theorem mem_updateResult {c : Chats} {sendId : String} {p : ResultRow → Bool}
    {f : ResultRow → ResultRow} {hf : ∀ r, (f r).sendId = r.sendId} {r' : ResultRow}
    (h : r' ∈ (updateResult c sendId p f hf).1.results.rows) :
    r' ∈ c.results.rows ∨ ∃ r, c.results.lookup sendId = some r ∧ p r = true ∧ f r = r' :=
  Table.mem_updateAt hf h

def ensureQueued (c : Chats) (sendId : String) (userText : Text) (jobName : String) (now : Time) :
    Chats :=
  let row : ResultRow :=
    { sendId := sendId, jobName := jobName, userText := userText.take maxText,
      createdAt := now, updatedAt := now }
  let inserted := { c with results := c.results.insertNew row }
  if jobName = "" then inserted
  else
    (updateResult inserted sendId (fun r => decide (r.jobName = ""))
      (fun r => { r with jobName := jobName }) (fun _ => id rfl)).1

def submittedRow (now : Time) (r : ResultRow) : ResultRow :=
  { r with status := .submitted, source := .fireAndForget, acceptedAt := now, updatedAt := now,
           finishedAt := now, captureOwner := "", captureDeadline := 0 }

/-- A send-only receipt, without any claim about the answer. -/
def markSubmitted (c : Chats) (sendId : String) (now : Time) : Chats × Bool :=
  updateResult c sendId (fun r => decide (r.status = .queued)) (submittedRow now) (fun _ => id rfl)

/-- The statuses a late acceptance may still replace. -/
def awaitsAcceptance : ResultStatus → Bool
  | .queued => true
  | .unavailable => true
  | .outcomeUnknown => true
  | _ => false

def acceptedRow (owner : String) (deadline now : Time) (r : ResultRow) : ResultRow :=
  { r with status := .accepted, acceptedAt := now, updatedAt := now, captureOwner := owner,
           captureDeadline := deadline }

def accept (c : Chats) (sendId owner : String) (deadline now : Time) : Chats × Bool :=
  if deadline ≤ now then (c, false)
  else updateResult c sendId (fun r => awaitsAcceptance r.status) (acceptedRow owner deadline now)
      (fun _ => id rfl)

def exactEvidence (capture : CaptureResult) : Bool :=
  decide (capture.source = .dom) &&
    (decide (capture.status = .partialText) || decide (capture.status = .complete)) &&
    decide (capture.text ≠ []) && present capture.observerId &&
    capture.conversationId.any isCanonicalUuid && capture.messageId.any isCanonicalUuid

/-- Nothing was saved for the row yet. -/
def unidentifiedResult (r : ResultRow) : Bool :=
  awaitsAcceptance r.status && decide (r.acceptedAt = 0) && decide (r.conversationId = "") &&
    decide (r.messageId = "")

def observedRow (lib : Stdlib) (owner : String) (capture : CaptureResult) (deadline now : Time)
    (r : ResultRow) : ResultRow :=
  let complete := decide (capture.status = .complete)
  { r with
    status := if complete then .completed else .generating
    source := .dom
    assistantText := capture.text.take maxText
    toolCalls := mergeToolCalls lib [] capture.toolCalls
    displayBlocks := mergeDisplayBlocks lib [] capture.displayBlocks
    conversationId := orElse capture.conversationId ""
    messageId := orElse capture.messageId ""
    parentId := orElse capture.parentId ""
    acceptedAt := now
    updatedAt := now
    finishedAt := if complete then now else 0
    captureOwner := if complete then "" else owner
    captureDeadline := deadline }

def acceptObserved (lib : Stdlib) (c : Chats) (sendId owner : String) (capture : CaptureResult)
    (deadline now : Time) : Chats × Bool :=
  if deadline ≤ now || !exactEvidence capture then (c, false)
  else updateResult c sendId unidentifiedResult (observedRow lib owner capture deadline now)
      (fun _ => id rfl)

def isCapturing : ResultStatus → Bool
  | .accepted => true
  | .generating => true
  | _ => false

/-- The owner's capture lease on the row has not run out. -/
def liveCapture (owner : String) (now : Time) (r : ResultRow) : Bool :=
  decide (r.captureOwner = owner) && isCapturing r.status && decide (now < r.captureDeadline)

def generatingRow (now : Time) (r : ResultRow) : ResultRow :=
  { r with status := .generating, updatedAt := now }

def markGenerating (c : Chats) (sendId owner : String) (now : Time) : Chats × Bool :=
  updateResult c sendId (fun r => liveCapture owner now r && decide (r.status = .accepted))
    (generatingRow now) (fun _ => id rfl)

/-- The identifier in a conversation route `/c/<id>` or `/g/<label>/c/<id>`. -/
def conversationIdFromPath (path : String) : Option String :=
  let identity (tail : Text) : Option String :=
    if isUuid (String.ofList tail) then some (lower (String.ofList tail)) else none
  match path.toList with
  | '/' :: 'c' :: '/' :: tail => identity tail
  | '/' :: 'g' :: '/' :: rest =>
    match rest.takeWhile (· ≠ '/'), rest.dropWhile (· ≠ '/') with
    | _ :: _, '/' :: 'c' :: '/' :: tail => identity tail
    | _, _ => none
  | _ => none

def routedRow (conversationId : String) (now : Time) (r : ResultRow) : ResultRow :=
  { r with conversationId := conversationId, updatedAt := now }

def bindConversationRoute (c : Chats) (sendId owner path : String) (now : Time) : Chats × Bool :=
  match conversationIdFromPath path with
  | none => (c, false)
  | some conversationId =>
    updateResult c sendId
      (fun r => liveCapture owner now r &&
        (decide (r.conversationId = "") || decide (r.conversationId = conversationId)))
      (routedRow conversationId now) (fun _ => id rfl)

def conflicts (saved : String) (candidate : Option String) : Bool :=
  decide (saved ≠ "") && present candidate && decide (candidate ≠ some saved)

/-- Without a conflict a saved identity stays. -/
theorem orElse_unconflicted {saved : String} {candidate : Option String} (hsaved : saved ≠ "")
    (h : conflicts saved candidate = false) : orElse candidate saved = saved := by
  simp only [conflicts, hsaved, ne_eq, not_false_eq_true, decide_true, Bool.true_and,
    Bool.and_eq_false_iff, decide_eq_false_iff_not, not_not] at h
  rcases h with habsent | rfl
  · exact orElse_of_not_present habsent
  · simp [orElse]

def identityConflict (capture : CaptureResult) (allowOwnedDomMessageUpdate : Bool)
    (r : ResultRow) : Bool :=
  let ownedUpdate := allowOwnedDomMessageUpdate && decide (capture.source = .dom) &&
    present capture.observerId && decide (capture.conversationId = some r.conversationId)
  (conflicts r.messageId capture.messageId && !ownedUpdate) ||
    conflicts r.conversationId capture.conversationId || conflicts r.parentId capture.parentId

/-- The candidate is absent or already saved. -/
def unchangedIdentity (saved : String) (candidate : Option String) : Bool :=
  !present candidate || decide (candidate = some saved)

def unchangedIdentities (capture : CaptureResult) (r : ResultRow) : Bool :=
  unchangedIdentity r.conversationId capture.conversationId &&
    unchangedIdentity r.messageId capture.messageId &&
    unchangedIdentity r.parentId capture.parentId

def mergedTools (lib : Stdlib) (capture : CaptureResult) (r : ResultRow) : List ToolCall :=
  mergeToolCalls lib r.toolCalls capture.toolCalls

def mergedBlocks (lib : Stdlib) (capture : CaptureResult) (r : ResultRow) : List Block :=
  mergeDisplayBlocks lib r.displayBlocks capture.displayBlocks

def visibleText (lib : Stdlib) (r : ResultRow) : Text :=
  visibleAssistantText lib r.assistantText r.displayBlocks

/-- The text a snapshot brings: an observer's blocks take precedence over its text. -/
def writtenText (lib : Stdlib) (capture : CaptureResult) (r : ResultRow) : Text :=
  if capture.source = .dom then
    (orText (displayBlocksText lib (mergedBlocks lib capture r)) (capture.text.take maxText)).take
      maxText
  else capture.text.take maxText

/-- A shorter snapshot does not replace the saved text. -/
def keptText (lib : Stdlib) (capture : CaptureResult) (r : ResultRow) : Text :=
  let text := writtenText lib capture r
  if text.length < (visibleText lib r).length then visibleText lib r else text

def completes (capture : CaptureResult) : Bool :=
  decide (capture.status = .complete) && decide (capture.text.take maxText ≠ []) &&
    (present capture.messageId || present capture.observerId)

/-- A snapshot without text: tools, blocks and the first verified identities. -/
def writeTools (lib : Stdlib) (capture : CaptureResult) (now : Time) (r : ResultRow) : ResultRow :=
  { r with
    toolCalls := mergedTools lib capture r
    displayBlocks := mergedBlocks lib capture r
    conversationId := orElse capture.conversationId r.conversationId
    messageId := orElse capture.messageId r.messageId
    parentId := orElse capture.parentId r.parentId
    updatedAt := now }

def writeText (lib : Stdlib) (owner : String) (capture : CaptureResult) (now : Time)
    (r : ResultRow) : ResultRow :=
  { r with
    assistantText := keptText lib capture r
    toolCalls := mergedTools lib capture r
    displayBlocks := mergedBlocks lib capture r
    status := if completes capture then .completed else .generating
    source :=
      if completes capture || decide ((visibleText lib r).length ≤ (keptText lib capture r).length)
      then capture.source else r.source
    conversationId := orElse capture.conversationId r.conversationId
    messageId := orElse capture.messageId r.messageId
    parentId := orElse capture.parentId r.parentId
    updatedAt := now
    finishedAt := if completes capture then now else 0
    captureOwner := if completes capture then "" else owner }

/-- A repeated snapshot, which is acknowledged without a write. -/
def repeatedSnapshot (lib : Stdlib) (capture : CaptureResult) (r : ResultRow) : Bool :=
  !completes capture && decide (r.status = .generating) &&
    decide (keptText lib capture r = visibleText lib r) &&
    decide (mergedTools lib capture r = r.toolCalls) &&
    decide (mergedBlocks lib capture r = r.displayBlocks) &&
    decide (r.source = capture.source) && unchangedIdentities capture r

def write (lib : Stdlib) (c : Chats) (sendId owner : String) (capture : CaptureResult)
    (allowOwnedDomMessageUpdate : Bool) (now : Time) : Chats × Bool :=
  match c.results.lookup sendId with
  | none => (c, false)
  | some r =>
    if !liveCapture owner now r then (c, false)
    else if identityConflict capture allowOwnedDomMessageUpdate r then (c, false)
    else if writtenText lib capture r = [] then
      if mergedTools lib capture r = r.toolCalls && mergedBlocks lib capture r = r.displayBlocks &&
        unchangedIdentities capture r then (c, true)
      else updateResult c sendId (liveCapture owner now) (writeTools lib capture now)
        (fun _ => id rfl)
    else if repeatedSnapshot lib capture r then (c, true)
    else updateResult c sendId (liveCapture owner now) (writeText lib owner capture now)
        (fun _ => id rfl)

/-- The snapshot passes the checks of a write. -/
def acceptsSnapshot (owner : String) (capture : CaptureResult) (allow : Bool) (now : Time)
    (r : ResultRow) : Bool :=
  liveCapture owner now r && !identityConflict capture allow r

/-- A write changes the row of an accepted snapshot, in one of two ways, or nothing. -/
theorem write_cases (lib : Stdlib) (c : Chats) (sendId owner : String) (capture : CaptureResult)
    (allow : Bool) (now : Time) :
    (write lib c sendId owner capture allow now).1 = c ∨
      ∃ r, c.results.lookup sendId = some r ∧ acceptsSnapshot owner capture allow now r = true ∧
        ((writtenText lib capture r = [] ∧ write lib c sendId owner capture allow now =
          updateResult c sendId (liveCapture owner now) (writeTools lib capture now)
            (fun _ => id rfl)) ∨
        (writtenText lib capture r ≠ [] ∧ write lib c sendId owner capture allow now =
          updateResult c sendId (liveCapture owner now) (writeText lib owner capture now)
            (fun _ => id rfl))) := by
  unfold write
  split
  · exact Or.inl rfl
  rename_i r hr
  split
  · exact Or.inl rfl
  rename_i hlive
  split
  · exact Or.inl rfl
  rename_i hconflict
  have haccepts : acceptsSnapshot owner capture allow now r = true := by
    rw [acceptsSnapshot]
    simpa using And.intro hlive hconflict
  split
  · rename_i hempty
    split
    · exact Or.inl rfl
    · exact Or.inr ⟨r, hr, haccepts, Or.inl ⟨hempty, rfl⟩⟩
  · rename_i htext
    split
    · exact Or.inl rfl
    · exact Or.inr ⟨r, hr, haccepts, Or.inr ⟨htext, rfl⟩⟩

def extendedRow (deadline : Time) (r : ResultRow) : ResultRow :=
  { r with captureDeadline := deadline }

def renewCaptureDeadline (c : Chats) (sendId owner : String) (deadline now : Time) :
    Chats × Bool :=
  if deadline ≤ now then (c, false)
  else
    updateResult c sendId
      (fun r => liveCapture owner now r && decide (r.captureDeadline < deadline))
      (extendedRow deadline) (fun _ => id rfl)

/-- The status with which a capture is given up. -/
inductive FinishStatus
  | interrupted
  | unavailable
  deriving DecidableEq, Repr

def FinishStatus.result : FinishStatus → ResultStatus
  | .interrupted => .interrupted
  | .unavailable => .unavailable

/-- The capture ends without an answer. -/
def endedRow (status : ResultStatus) (now : Time) (r : ResultRow) : ResultRow :=
  { r with status := status, updatedAt := now, finishedAt := now, captureOwner := "" }

def finish (c : Chats) (sendId owner : String) (status : FinishStatus) (now : Time) :
    Chats × Bool :=
  updateResult c sendId (fun r => decide (r.captureOwner = owner) && isCapturing r.status)
    (endedRow status.result now) (fun _ => id rfl)

def unavailableRow (now : Time) (r : ResultRow) : ResultRow :=
  { r with status := .unavailable, updatedAt := now, finishedAt := now }

def unavailable (c : Chats) (sendId : String) (now : Time) : Chats :=
  (updateResult c sendId (fun r => decide (r.status = .queued)) (unavailableRow now)
    (fun _ => id rfl)).1

/-- No acceptance and no conversation was saved for the row. -/
def unproven (r : ResultRow) : Bool :=
  (decide (r.status = .queued) || decide (r.status = .unavailable)) &&
    decide (r.acceptedAt = 0) && decide (r.conversationId = "")

def markUnknown (now : Time) (r : ResultRow) : ResultRow :=
  { r with status := .outcomeUnknown, updatedAt := now, finishedAt := now }

theorem markUnknown_sendId (now : Time) (r : ResultRow) : (markUnknown now r).sendId = r.sendId :=
  rfl

def uncertain (c : Chats) (sendId : String) (now : Time) : Chats :=
  (updateResult c sendId unproven (markUnknown now) (markUnknown_sendId now)).1

def ownedCapture (now : Time) (r : ResultRow) : Bool :=
  isCapturing r.status && decide (r.captureOwner ≠ "") && decide (now < r.captureDeadline)

def activeReply : ReplyStatus → Bool
  | .dispatching => true
  | .accepted => true
  | .generating => true
  | _ => false

def answeringReply : ReplyStatus → Bool
  | .accepted => true
  | .generating => true
  | _ => false

def ownedReply (now : Time) (r : ReplyRow) : Bool :=
  answeringReply r.status && decide (r.leaseOwner ≠ "") && decide (now < r.leaseDeadline)

def detachedRow (now : Time) (r : ResultRow) : ResultRow :=
  { r with status := .generating, captureOwner := "",
           captureDeadline := min r.captureDeadline (now + maxOwnedTabAgeSeconds), finishedAt := 0 }

def detachedReplyRow (now : Time) (r : ReplyRow) : ReplyRow :=
  { r with status := .generating, leaseOwner := "",
           leaseDeadline := min r.leaseDeadline (now + maxOwnedTabAgeSeconds), finishedAt := 0 }

/-- Detach the live owners of the named captures and replies. -/
def prepareDeploymentRecovery (c : Chats) (sendIds replyIds : List String) (now : Time) : Chats :=
  { c with
    results := c.results.update (fun r => decide (r.sendId ∈ sendIds) && ownedCapture now r)
      (detachedRow now) (fun _ => id rfl)
    replies := c.replies.update (fun r => decide (r.replyId ∈ replyIds) && ownedReply now r)
      (detachedReplyRow now) (fun _ => id rfl) }

/-- The owners of live captures whose process is gone. -/
def deadCaptureOwners (c : Chats) (alive : String → Bool) (now : Time) : List String :=
  (c.results.rows.filter fun r =>
    isCapturing r.status && decide (now < r.captureDeadline) && decide (r.captureOwner ≠ "") &&
      !alive r.captureOwner).map ResultRow.captureOwner

def staleCapture (c : Chats) (alive : String → Bool) (now : Time) (r : ResultRow) : Bool :=
  isCapturing r.status &&
    (decide (r.captureDeadline ≤ now) || decide (r.captureOwner ∈ deadCaptureOwners c alive now))

def recoverOrphans (c : Chats) (alive : String → Bool) (now : Time) : Chats × ℕ :=
  ({ c with
     results := c.results.update (staleCapture c alive now) (endedRow .interrupted now)
         (fun _ => id rfl) },
    c.results.rows.countP (staleCapture c alive now))

/-- A fresh chat's capture that still holds its slot. `LIKE` ignores the case. -/
def activeCapture (now : Time) (r : ResultRow) : Bool :=
  isCapturing r.status && decide (now < r.captureDeadline) &&
    (startsWith (lower r.sendId) "scheduled-" || startsWith (lower r.sendId) "manual-")

def liveReply (now : Time) (r : ReplyRow) : Bool :=
  activeReply r.status && decide (now < r.leaseDeadline)

def activeCaptureSendIds (c : Chats) (now : Time) : List String :=
  (c.results.rows.filter (activeCapture now)).map ResultRow.sendId ++
    (c.replies.rows.filter (liveReply now)).map ReplyRow.sendId

/-- The statuses in which a read-only probe may still add to the answer. -/
def isRecoverable : ResultStatus → Bool
  | .interrupted => true
  | .unavailable => true
  | .accepted => true
  | .generating => true
  | _ => false

/-- An ownerless, unfinished row of the conversation. -/
def recoverableRow (conversationId : String) (r : ResultRow) : Bool :=
  isRecoverable r.status && decide (r.conversationId = conversationId) &&
    decide (r.captureOwner = "")

def liveRow (now : Time) (r : ResultRow) : ResultRow :=
  { r with liveObservedAt := if r.liveObservedAt = 0 then now else r.liveObservedAt }

def observeHistoryGenerating (c : Chats) (sendId conversationId : String) (now : Time) :
    Chats × Bool :=
  if conversationId = "" then (c, false)
  else
    updateResult c sendId (recoverableRow conversationId) (liveRow now) (fun _ => id rfl)

/-- A probe result that names its turn and, with text, reads it to a known extent. -/
def usableProbe (capture : CaptureResult) : Bool :=
  (decide (capture.text ≠ []) || decide (capture.toolCalls ≠ [])) &&
  present capture.conversationId &&
    (decide (capture.text = []) || decide (capture.status = .partialText) ||
      decide (capture.status = .complete)) &&
    (present capture.messageId || present capture.observerId)

/-- A probe of another message, unless the saved one belongs to the same turn. -/
def otherMessage (saved : String) (capture : CaptureResult) : Bool :=
  conflicts saved capture.messageId && decide (saved ∉ capture.turnMessageIds)

def probedText (lib : Stdlib) (capture : CaptureResult) (r : ResultRow) : Text :=
  (orText (displayBlocksText lib (mergedBlocks lib capture r)) capture.text).take maxText

def shorterProbe (lib : Stdlib) (capture : CaptureResult) (r : ResultRow) : Bool :=
  decide ((probedText lib capture r).length < (visibleText lib r).length)

def recoveredText (lib : Stdlib) (capture : CaptureResult) (r : ResultRow) : Text :=
  if shorterProbe lib capture r then visibleText lib r else probedText lib capture r

def probeCompletes (lib : Stdlib) (capture : CaptureResult) (r : ResultRow) : Bool :=
  decide (capture.status = .complete) && decide (probedText lib capture r ≠ []) &&
    !shorterProbe lib capture r

def progressed (lib : Stdlib) (capture : CaptureResult) (r : ResultRow) : Bool :=
  decide (recoveredText lib capture r ≠ visibleText lib r) ||
    decide (mergedTools lib capture r ≠ r.toolCalls) ||
    decide (mergedBlocks lib capture r ≠ r.displayBlocks)

def recoverRow (lib : Stdlib) (capture : CaptureResult) (now : Time) (r : ResultRow) : ResultRow :=
  let complete := probeCompletes lib capture r
  let moved := progressed lib capture r
  { r with
    assistantText := recoveredText lib capture r
    source := .historyDom
    toolCalls := mergedTools lib capture r
    displayBlocks := mergedBlocks lib capture r
    messageId := orElse capture.messageId r.messageId
    parentId := orElse capture.parentId r.parentId
    status := if complete then .completed else r.status
    liveObservedAt := if complete then 0 else if moved then now else r.liveObservedAt
    updatedAt := if moved || complete then now else r.updatedAt
    captureDeadline :=
      if !complete && moved && isCapturing r.status then now + maxOwnedTabAgeSeconds
      else r.captureDeadline
    finishedAt := if complete then now else r.finishedAt }

def recoverHistoricalResponse (lib : Stdlib) (c : Chats) (sendId : String)
    (capture : CaptureResult) (now : Time) : Chats × Bool :=
  let conversationId := orElse capture.conversationId ""
  if !usableProbe capture then (c, false)
  else
    match c.results.lookup sendId with
    | none => (c, false)
    | some r =>
      if !recoverableRow conversationId r || otherMessage r.messageId capture then (c, false)
      else if shorterProbe lib capture r && decide (capture.toolCalls = []) &&
        !capture.verifiedGenerating then (c, false)
      else updateResult c sendId (recoverableRow conversationId) (recoverRow lib capture now)
          (fun _ => id rfl)

/-- The probe passes every check of the recovery. -/
def acceptsProbe (lib : Stdlib) (capture : CaptureResult) (r : ResultRow) : Bool :=
  usableProbe capture && recoverableRow (orElse capture.conversationId "") r &&
    !otherMessage r.messageId capture &&
    !(shorterProbe lib capture r && decide (capture.toolCalls = []) &&
      !capture.verifiedGenerating)

/-- A recovery rewrites the row of an accepted probe, or it changes nothing. -/
theorem recoverHistoricalResponse_cases (lib : Stdlib) (c : Chats) (sendId : String)
    (capture : CaptureResult) (now : Time) :
    (recoverHistoricalResponse lib c sendId capture now).1 = c ∨
      ∃ r, c.results.lookup sendId = some r ∧ acceptsProbe lib capture r = true ∧
        recoverHistoricalResponse lib c sendId capture now =
          updateResult c sendId (recoverableRow (orElse capture.conversationId ""))
            (recoverRow lib capture now) (fun _ => id rfl) := by
  unfold recoverHistoricalResponse
  dsimp only
  split
  · exact Or.inl rfl
  rename_i husable
  split
  · exact Or.inl rfl
  rename_i r hr
  split
  · exact Or.inl rfl
  rename_i hguard
  split
  · exact Or.inl rfl
  rename_i hlonger
  refine Or.inr ⟨r, hr, ?_, rfl⟩
  simp only [Bool.or_eq_true, Bool.not_eq_true', not_or, Bool.not_eq_true,
    Bool.not_eq_false] at husable hguard
  rw [Bool.not_eq_true] at hlonger
  rw [acceptsProbe, hlonger, husable, hguard.1, hguard.2]
  rfl

end Prompta.ResponseStore
