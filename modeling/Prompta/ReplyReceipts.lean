import Prompta.BranchTurns
import Prompta.FollowupMerges
import Prompta.JsonValues

/-!
The receipts of replies. The server publishes the row of a reply, and the browser checks
the published turn against the request it has saved before it gives the request up. The
browser has its own lists of statuses; a stop writes two that are in none of them.
-/
namespace Prompta.ReplyReceipts

open Tables Texts DisplayBlocks ToolCalls Schema ResponseStore ReplyStore Runs Service
  BranchLineage FollowupMerges JsonValues

def replyStatusText : ReplyStatus → String
  | .queued => "queued"
  | .prepared => "prepared"
  | .preflightFailed => "preflight_failed"
  | .dispatching => "dispatching"
  | .outcomeUnknown => "outcome_unknown"
  | .accepted => "accepted"
  | .generating => "generating"
  | .completed => "completed"
  | .interrupted => "interrupted"
  | .stopped => "stopped"
  | .cancelled => "cancelled"
  | .merged => "merged"

section Publish

variable (lib : Stdlib) (written : Time → Text) (now : Time)

def textValue (t : String) : Json := .str t.toList

def toolCallValue (call : ToolCall) : Json :=
  .obj ((call.observedAt.map fun stamp => ("observed_at".toList, Json.float stamp.digits)).toList ++
    [("id".toList, .str call.id), ("connector".toList, .str call.connector),
      ("action".toList, .str call.action), ("status".toList, .str call.status),
      ("arguments".toList, .str call.arguments), ("result".toList, .str call.result),
      ("error".toList, .str call.error)])

def blockValue (b : Block) : Json :=
  match b.kind with
  | .tool =>
    .obj ([("kind".toList, textValue "tool"), ("id".toList, textValue b.id)] ++
      (b.toolId.map fun id => ("tool_id".toList, textValue id)).toList)
  | .text =>
    .obj ([("kind".toList, textValue "text"), ("id".toList, textValue b.id),
        ("text".toList, .str b.text)] ++
      (b.seenAt.map fun seenAt => ("seen_at".toList, textValue seenAt)).toList)

/-- `_public`: the turn of a reply, as a response carries it. -/
def publicReply (r : ReplyRow) : Json :=
  .obj [("reply_id".toList, textValue r.replyId),
    ("send_id".toList, textValue r.sendId),
    ("conversation_id".toList, textValue r.conversationId),
    ("parent_id".toList, textValue r.parentId),
    ("message_id".toList, textValue r.messageId),
    ("user_text".toList, .str r.userText),
    ("assistant_text".toList, .str (visibleAssistantText lib r.assistantText r.displayBlocks)),
    ("status".toList,
      textValue (replyStatusText (visibleReplyStatus r.status r.liveObservedAt now))),
    ("queued_by_user".toList, .bool r.queuedByUser),
    ("created_at".toList, .float (written r.createdAt)),
    ("accepted_at".toList, .float (written r.acceptedAt)),
    ("finished_at".toList, .float (written r.finishedAt)),
    ("updated_at".toList, .float (written r.updatedAt)),
    ("tool_calls".toList, .arr ((deserializeToolCalls r.toolCalls).map toolCallValue)),
    ("display_blocks".toList,
      .arr ((deserializeDisplayBlocks lib r.displayBlocks).map blockValue))]

end Publish

/-- A field of a decoded turn: `none` where the turn has no such field. -/
def turnField (turn : Json) (name : String) : Option Json :=
  match turn with
  | .obj fields => lookup fields name.toList
  | _ => none

/-- `turn[name] === expected`, for a text. -/
def holdsText (turn : Json) (name : String) (expected : Text) : Bool :=
  match turnField turn name with
  | some (.str t) => decide (t = expected)
  | _ => false

def queuedByUser (turn : Json) : Bool :=
  match turnField turn "queued_by_user" with
  | some (.bool value) => value
  | _ => false

def turnStatus (turn : Json) : Option Text :=
  match turnField turn "status" with
  | some (.str t) => some t
  | _ => none

def oneOf (status : Text) (known : List String) : Bool := decide (status ∈ known.map String.toList)

inductive ReceiptState
  | accepted
  | uncertain
  | notSent
  | invalid
  deriving DecidableEq, Repr

def queuedFollowupStatuses : List String :=
  ["queued", "merged", "prepared", "preflight_failed", "dispatching", "accepted", "generating",
    "completed", "interrupted", "unavailable"]

def followupStatusState (status : Text) : ReceiptState :=
  if status = "outcome_unknown".toList then .uncertain
  else if oneOf status queuedFollowupStatuses then .accepted
  else .invalid

def queuedFollowupReceiptState (turn : Json) (sendId replyId : String) (text : Text) :
    ReceiptState :=
  if holdsText turn "reply_id" replyId.toList && holdsText turn "send_id" sendId.toList &&
      holdsText turn "user_text" text && queuedByUser turn then
    (turnStatus turn).elim .invalid followupStatusState
  else .invalid

def exactReplyStatuses : List String :=
  ["dispatching", "accepted", "generating", "completed", "interrupted", "unavailable"]

def exactStatusState (queued : Bool) (status : Text) : ReceiptState :=
  if status = "outcome_unknown".toList then .uncertain
  else if status = "preflight_failed".toList then .notSent
  else if status = "prepared".toList then if queued then .accepted else .notSent
  else if oneOf status exactReplyStatuses then .accepted
  else .invalid

/-- The expected payload has the fields of the intent that the server reads from it. -/
def exactReplyReceiptState (turn : Json) (expected : ReplyIntent) (sendId : String) :
    ReceiptState :=
  if holdsText turn "reply_id" expected.replyId.toList && holdsText turn "send_id" sendId.toList &&
      holdsText turn "conversation_id" expected.conversationId.toList &&
      holdsText turn "parent_id" expected.parentId.toList &&
      holdsText turn "user_text" expected.text then
    (turnStatus turn).elim .invalid (exactStatusState (queuedByUser turn))
  else .invalid

/-- The statuses that a stop or a cancellation writes. -/
def wasStopped : ReplyStatus → Bool
  | .stopped => true
  | .cancelled => true
  | _ => false

/-- The statuses of a follow-up that no branch has been found for. -/
def isUnbound : ReplyStatus → Bool
  | .queued => true
  | .merged => true
  | _ => false

section Fields

variable {lib : Stdlib} {written : Time → Text} {now : Time} {r : ReplyRow}

theorem public_replyId (t : Text) :
    holdsText (publicReply lib written now r) "reply_id" t = decide (r.replyId.toList = t) :=
  rfl

theorem public_sendId (t : Text) :
    holdsText (publicReply lib written now r) "send_id" t = decide (r.sendId.toList = t) :=
  rfl

theorem public_conversationId (t : Text) :
    holdsText (publicReply lib written now r) "conversation_id" t =
      decide (r.conversationId.toList = t) :=
  rfl

theorem public_parentId (t : Text) :
    holdsText (publicReply lib written now r) "parent_id" t = decide (r.parentId.toList = t) :=
  rfl

theorem public_userText (t : Text) :
    holdsText (publicReply lib written now r) "user_text" t = decide (r.userText = t) :=
  rfl

theorem public_queuedByUser : queuedByUser (publicReply lib written now r) = r.queuedByUser :=
  rfl

theorem public_status :
    turnStatus (publicReply lib written now r) =
      some (replyStatusText (visibleReplyStatus r.status r.liveObservedAt now)).toList :=
  rfl

end Fields

/-- What a row shows is its own status, or that it is generating. -/
theorem visible_shown (status : ReplyStatus) (observedAt now : Time) :
    visibleReplyStatus status observedAt now = status ∨
      (visibleReplyStatus status observedAt now = .generating ∧ wasStopped status = false ∧
        isUnbound status = false) := by
  cases status with
  | interrupted =>
    by_cases hlive : 0 < observedAt ∧ observedAt ≤ now ∧ now < observedAt + 15 * 60
    · exact Or.inr ⟨if_pos hlive, rfl, rfl⟩
    · exact Or.inl (if_neg hlive)
  | outcomeUnknown =>
    by_cases hlive : 0 < observedAt ∧ observedAt ≤ now ∧ now < observedAt + 15 * 60
    · exact Or.inr ⟨if_pos hlive, rfl, rfl⟩
    · exact Or.inl (if_neg hlive)
  | _ => exact Or.inl rfl

theorem followup_status (status : ReplyStatus) (observedAt now : Time) :
    followupStatusState (replyStatusText (visibleReplyStatus status observedAt now)).toList ≠
      .invalid ↔ wasStopped status = false := by
  have hstored : ∀ shown, followupStatusState (replyStatusText shown).toList ≠ .invalid ↔
      wasStopped shown = false := by
    intro shown
    cases shown <;> decide
  rcases visible_shown status observedAt now with hsame | ⟨hlive, hstopped, _⟩
  · rw [hsame]
    exact hstored status
  · rw [hlive, hstored, hstopped]
    exact iff_of_true rfl rfl

/-- The statuses that make a response of an exact reply invalid. -/
theorem exact_status (queued : Bool) (status : ReplyStatus) (observedAt now : Time) :
    exactStatusState queued (replyStatusText (visibleReplyStatus status observedAt now)).toList ≠
      .invalid ↔ wasStopped status = false ∧ isUnbound status = false := by
  have hstored : ∀ shown, exactStatusState queued (replyStatusText shown).toList ≠ .invalid ↔
      wasStopped shown = false ∧ isUnbound shown = false := by
    intro shown
    cases shown <;> cases queued <;> decide
  rcases visible_shown status observedAt now with hsame | ⟨hlive, hstopped, hbound⟩
  · rw [hsame]
    exact hstored status
  · rw [hlive, hstored, hstopped, hbound]
    exact iff_of_true ⟨rfl, rfl⟩ ⟨rfl, rfl⟩

/-- The follow-up that a request asks for: its identities and its text. -/
structure FollowupRequest where
  sendId : String
  replyId : String
  text : Text
  deriving DecidableEq

def FollowupRequest.names (request : FollowupRequest) (r : ReplyRow) : Prop :=
  r.replyId = request.replyId ∧ r.sendId = request.sendId ∧ r.userText = request.text

/-- The comparison of `prepare` with a row that has the identity already. -/
def IntentNames (sendId : String) (expected : ReplyIntent) (r : ReplyRow) : Prop :=
  r.replyId = expected.replyId ∧ r.sendId = sendId ∧
    r.conversationId = expected.conversationId ∧ r.parentId = expected.parentId ∧
    r.userText = expected.text

section Receipt

variable (lib : Stdlib) (written : Time → Text) (now : Time) {r : ReplyRow}

/-- The response to a follow-up is a receipt unless the reply was stopped. -/
theorem followup_receipt {request : FollowupRequest} (h : request.names r) :
    queuedFollowupReceiptState (publicReply lib written now r) request.sendId request.replyId
      request.text ≠ .invalid ↔ r.queuedByUser = true ∧ wasStopped r.status = false := by
  obtain ⟨hreply, hsend, htext⟩ := h
  unfold queuedFollowupReceiptState
  simp only [public_replyId, public_sendId, public_userText, public_queuedByUser, public_status,
    hreply, hsend, htext, decide_true, Bool.true_and, Option.elim_some]
  by_cases hqueued : r.queuedByUser = true
  · rw [if_pos hqueued, followup_status]
    exact ⟨fun hstopped => ⟨hqueued, hstopped⟩, And.right⟩
  · rw [if_neg hqueued]
    exact iff_of_false (fun hvalid => hvalid rfl) fun hboth => hqueued hboth.1

/-- The response to an exact reply is a receipt unless it was stopped or has no branch. -/
theorem exact_receipt {sendId : String} {expected : ReplyIntent}
    (h : IntentNames sendId expected r) :
    exactReplyReceiptState (publicReply lib written now r) expected sendId ≠ .invalid ↔
      wasStopped r.status = false ∧ isUnbound r.status = false := by
  obtain ⟨hreply, hsend, hconversation, hparent, htext⟩ := h
  unfold exactReplyReceiptState
  simp only [public_replyId, public_sendId, public_conversationId, public_parentId,
    public_userText, public_queuedByUser, public_status, hreply, hsend, hconversation, hparent,
    htext, decide_true, Bool.true_and, Option.elim_some, if_true]
  exact exact_status r.queuedByUser r.status r.liveObservedAt now

end Receipt

/-- A row without a branch has no conversation either. -/
def Unplaced (r : ReplyRow) : Prop := isUnbound r.status = true → r.conversationId = ""

/-- No change ends in a status of an unbound follow-up. -/
theorem change_bound {lib : Stdlib} {s : Store} {call : Call} {a b : ReplyRow}
    (h : ReplyChange lib s call a b) : isUnbound b.status = false := by
  have hmerged : b.status ≠ .merged := (change_unmerged h).2.1
  have hqueued : b.status ≠ .queued := by
    by_cases ha : a.status = .queued
    · rcases change_queued h ha with hskipped | ⟨_, _, hne, _⟩
      · intro hstatus
        rw [hstatus] at hskipped
        exact absurd hskipped (by decide)
      · exact hne
    · exact change_not_queued h ha
  cases hstatus : b.status <;> simp_all [isUnbound]

theorem new_unplaced {s : Store} {call : Call} {r : ReplyRow} (h : NewReply s call r) :
    Unplaced r := by
  cases h with
  | prepared => exact fun hunbound => absurd hunbound Bool.false_ne_true
  | followup => exact fun _ => rfl

theorem run_unplaced (lib : Stdlib) (run : List Call) :
    ∀ r ∈ (final (step lib) Store.empty run).chats.replies.rows, Unplaced r := by
  have hempty : ∀ r ∈ Store.empty.chats.replies.rows, Unplaced r :=
    fun _ hr => absurd hr List.not_mem_nil
  refine final_invariant (step lib) (fun _ => True)
    (fun s => ∀ r ∈ s.chats.replies.rows, Unplaced r) ?_ Store.empty hempty run fun _ _ => trivial
  intro s call _ hs
  refine (step_replies lib s call).keeps ?_ (fun _ h => new_unplaced h) hs
  intro a b hab _ hunbound
  rw [change_bound hab] at hunbound
  exact absurd hunbound Bool.false_ne_true

/-- Whatever happened to a reply on the server, the browser understands its receipt unless the
reply was stopped or cancelled. An exact request also needs a reply that has a branch, which a
reply of a known conversation has. -/
theorem receipts_understood (lib : Stdlib) (written : Time → Text) (run : List Call) (now : Time)
    (r : ReplyRow) (hr : r ∈ (final (step lib) Store.empty run).chats.replies.rows) :
    (∀ request : FollowupRequest, request.names r →
      (queuedFollowupReceiptState (publicReply lib written now r) request.sendId request.replyId
        request.text ≠ .invalid ↔ r.queuedByUser = true ∧ wasStopped r.status = false)) ∧
    (∀ (sendId : String) (expected : ReplyIntent), IntentNames sendId expected r →
      (exactReplyReceiptState (publicReply lib written now r) expected sendId ≠ .invalid ↔
        wasStopped r.status = false ∧ isUnbound r.status = false)) ∧
    (r.conversationId ≠ "" → isUnbound r.status = false) := by
  refine ⟨fun request hnames => followup_receipt lib written now hnames,
    fun sendId expected hnames => exact_receipt lib written now hnames, ?_⟩
  intro hconversation
  have hunplaced : Unplaced r := run_unplaced lib run r hr
  by_contra hunbound
  exact hconversation (hunplaced (Bool.not_eq_false _ ▸ hunbound))

def waitingFollowup : List Call :=
  [⟨.queue (.enqueue ⟨"manual-1", ['h', 'i'], "", [], false, false⟩ true), 10⟩,
    ⟨.reply (.queueFollowup "manual-1" "followup-00000001" ['y', 'o'] false), 11⟩]

def waitingRow : ReplyRow :=
  followupRow "manual-1" "followup-00000001" ['y', 'o'] .queued "" (11 : ℤ)

/-- It is queued, and the browser understands its receipt. -/
theorem waiting_understood :
    ∃ written : Time → Text,
      queuedFollowupReceiptState (publicReply plainLib written (12 : ℤ) waitingRow) "manual-1"
        "followup-00000001" ['y', 'o'] ≠ .invalid :=
  ⟨fun _ => "11.0".toList,
    ((receipts_understood plainLib (fun _ => "11.0".toList) waitingFollowup 12 waitingRow
      (by decide +kernel)).1 ⟨"manual-1", "followup-00000001", ['y', 'o']⟩
        ⟨rfl, rfl, rfl⟩).mpr ⟨rfl, rfl⟩⟩

def cancelledRow : ReplyRow := cancelReply (12 : ℤ) waitingRow

/-- The chat is stopped: the follow-up is cancelled, and the browser refuses its receipt. -/
theorem stopped_receipt_invalid :
    ∃ r ∈ (final (step plainLib) Store.empty
        (waitingFollowup ++ [⟨.stop "manual-1", 12⟩])).chats.replies.rows,
      r.queuedByUser = true ∧
        FollowupRequest.names ⟨"manual-1", "followup-00000001", ['y', 'o']⟩ r ∧
        ∃ written : Time → Text,
          queuedFollowupReceiptState (publicReply plainLib written (13 : ℤ) r) "manual-1"
            "followup-00000001" ['y', 'o'] = .invalid := by
  have hmem : cancelledRow ∈ (final (step plainLib) Store.empty
      (waitingFollowup ++ [⟨.stop "manual-1", 12⟩])).chats.replies.rows := by decide +kernel
  have hnames : FollowupRequest.names ⟨"manual-1", "followup-00000001", ['y', 'o']⟩
      cancelledRow := ⟨rfl, rfl, rfl⟩
  refine ⟨cancelledRow, hmem, rfl, hnames, fun _ => "11.0".toList, ?_⟩
  by_contra hvalid
  have hstate := ((followup_receipt plainLib _ (13 : ℤ) hnames).mp hvalid).2
  exact absurd hstate (by decide)

end Prompta.ReplyReceipts
