import Prompta.Service

/-!
The two paths that recover an answer from the page's history. One rule is written twice: for
the first answer of a chat, whose text is taken from the merged blocks, and for the answer of a
reply, whose text is the capture's own. Each path has its own evidence, its own list of open
statuses and its own text to keep when the capture shows less.
-/
namespace Prompta.RecoveryPaths

open Tables Texts DisplayBlocks ToolCalls Schema ResponseStore ReplyStore

/-- The column `status` of `job_responses`. -/
def resultValue : ResultStatus → String
  | .queued => "queued"
  | .submitted => "submitted"
  | .accepted => "accepted"
  | .generating => "generating"
  | .completed => "completed"
  | .interrupted => "interrupted"
  | .unavailable => "unavailable"
  | .outcomeUnknown => "outcome_unknown"
  | .stopped => "stopped"

/-- The column `status` of `manual_reply_turns`. -/
def replyValue : ReplyStatus → String
  | .queued => "queued"
  | .prepared => "prepared"
  | .preflightFailed => "preflight_failed"
  | .dispatching => "dispatching"
  | .outcomeUnknown => "outcome_unknown"
  | .accepted => "accepted"
  | .generating => "generating"
  | .completed => "completed"
  | .interrupted => "interrupted"
  | .stopped => "stopped"
  | .cancelled => "cancelled"
  | .merged => "merged"

/-- An original row and a reply row that hold the same answer. -/
structure SameAnswer (r : ResultRow) (t : ReplyRow) : Prop where
  assistantText : r.assistantText = t.assistantText
  displayBlocks : r.displayBlocks = t.displayBlocks
  toolCalls : r.toolCalls = t.toolCalls
  messageId : r.messageId = t.messageId
  status : resultValue r.status = replyValue t.status
  deadline : r.captureDeadline = t.leaseDeadline

def namesParent (capture : CaptureResult) (t : ReplyRow) : Bool :=
  present capture.parentId && decide (capture.parentId = some t.parentId)

/-- Both paths take the capture and leave the same answer, or both refuse it. -/
def PathsAgree (lib : Stdlib) (c : Chats) (sendId replyId : String) (capture : CaptureResult)
    (now : Time) : Prop :=
  let original := recoverHistoricalResponse lib c sendId capture now
  let reply := recoverHistoricalReply lib c replyId capture now
  original.2 = reply.2 ∧ (original.2 = true → ∃ r t,
    original.1.results.lookup sendId = some r ∧ reply.1.replies.lookup replyId = some t ∧
      visibleText lib r = visibleReplyText lib t ∧ resultValue r.status = replyValue t.status)

section Runs

variable {lib : Stdlib} {c : Chats} {sendId replyId : String} {capture : CaptureResult}
  {now : Time} {r : ResultRow} {t : ReplyRow}

/-- Of an original turn that is there, the checks decide alone. -/
theorem original_run (hr : c.results.lookup sendId = some r) :
    recoverHistoricalResponse lib c sendId capture now =
      if acceptsProbe lib capture r = true then
        updateResult c sendId (recoverableRow (orElse capture.conversationId ""))
          (recoverRow lib capture now) (fun _ => id rfl)
      else (c, false) := by
  unfold recoverHistoricalResponse acceptsProbe
  rw [hr]
  dsimp only
  cases usableProbe capture
  · rfl
  cases recoverableRow (orElse capture.conversationId "") r
  · rfl
  cases otherMessage r.messageId capture
  · cases shorterProbe lib capture r && decide (capture.toolCalls = []) &&
      !capture.verifiedGenerating
    · rfl
    · rfl
  · rfl

/-- Of a reply that is there, the checks decide alone. -/
theorem reply_run (ht : c.replies.lookup replyId = some t) :
    recoverHistoricalReply lib c replyId capture now =
      if acceptsReplyProbe lib c capture t = true then
        updateReply c replyId detachedReply (recoverReplyRow lib capture now) (fun _ => id rfl)
      else (c, false) := by
  unfold recoverHistoricalReply acceptsReplyProbe
  rw [ht]
  cases usableReplyProbe capture
  · rfl
  cases hopen : detachedReply t
  · rw [Option.filter_some, hopen]
    rfl
  rw [Option.filter_some, hopen]
  show (if capture.conversationId ≠ some t.conversationId ∨ capture.parentId ≠ some t.parentId ∨
    otherMessage t.messageId capture = true then (c, false) else _) = _
  by_cases hconversation : capture.conversationId = some t.conversationId
  · by_cases hparent : capture.parentId = some t.parentId
    · cases hother : otherMessage t.messageId capture
      · rw [decide_eq_true hconversation, decide_eq_true hparent]
        cases verifiedParent c t
        · rw [if_neg (by simp [hconversation, hparent])]
          rfl
        · rw [if_neg (by simp [hconversation, hparent])]
          cases shorterReplyProbe lib capture t && decide (capture.toolCalls = []) &&
            !capture.verifiedGenerating
          · rfl
          · rfl
      · rw [if_pos (Or.inr (Or.inr rfl))]
        simp
    · rw [if_pos (Or.inr (Or.inl hparent))]
      simp [hparent]
  · rw [if_pos (Or.inl hconversation)]
    simp [hconversation]

theorem original_open (htaken : acceptsProbe lib capture r = true) :
    recoverableRow (orElse capture.conversationId "") r = true := by
  simp only [acceptsProbe, Bool.and_eq_true] at htaken
  exact htaken.1.1.2

theorem reply_open (htaken : acceptsReplyProbe lib c capture t = true) :
    detachedReply t = true := by
  simp only [acceptsReplyProbe, Bool.and_eq_true] at htaken
  exact htaken.1.1.1.1.1.2

theorem original_taken (hr : c.results.lookup sendId = some r) :
    (recoverHistoricalResponse lib c sendId capture now).2 = acceptsProbe lib capture r := by
  rw [original_run hr]
  cases htaken : acceptsProbe lib capture r
  · rfl
  · exact Table.hits_iff.mpr ⟨r, hr, original_open htaken⟩

theorem reply_taken (ht : c.replies.lookup replyId = some t) :
    (recoverHistoricalReply lib c replyId capture now).2 = acceptsReplyProbe lib c capture t := by
  rw [reply_run ht]
  cases htaken : acceptsReplyProbe lib c capture t
  · rfl
  · exact Table.hits_iff.mpr ⟨t, ht, reply_open htaken⟩

/-- The row behind a capture that was taken. -/
theorem original_left (hr : c.results.lookup sendId = some r)
    (htaken : acceptsProbe lib capture r = true) :
    (recoverHistoricalResponse lib c sendId capture now).1.results.lookup sendId =
      some (recoverRow lib capture now r) := by
  rw [original_run hr, if_pos htaken]
  dsimp only [updateResult]
  rw [Table.lookup_updateAt_self, hr, Option.map_some, original_open htaken, if_pos rfl]

/-- The same of a reply. -/
theorem reply_left (ht : c.replies.lookup replyId = some t)
    (htaken : acceptsReplyProbe lib c capture t = true) :
    (recoverHistoricalReply lib c replyId capture now).1.replies.lookup replyId =
      some (recoverReplyRow lib capture now t) := by
  rw [reply_run ht, if_pos htaken]
  dsimp only [updateReply]
  rw [Table.lookup_updateAt_self, ht, Option.map_some, reply_open htaken, if_pos rfl]

/-- The agreement is one of the checks and of the rewritten rows. -/
theorem pathsAgree_iff (hr : c.results.lookup sendId = some r)
    (ht : c.replies.lookup replyId = some t) :
    PathsAgree lib c sendId replyId capture now ↔
      (acceptsProbe lib capture r = true ↔ acceptsReplyProbe lib c capture t = true) ∧
      (acceptsProbe lib capture r = true →
        visibleText lib (recoverRow lib capture now r) =
            visibleReplyText lib (recoverReplyRow lib capture now t) ∧
          resultValue (recoverRow lib capture now r).status =
            replyValue (recoverReplyRow lib capture now t).status) := by
  unfold PathsAgree
  dsimp only
  rw [original_taken hr, reply_taken ht, Bool.eq_iff_iff]
  apply and_congr_right
  intro hsame
  apply imp_congr_right
  intro htaken
  rw [original_left hr htaken, reply_left ht (hsame.mp htaken)]
  constructor
  · rintro ⟨r', t', hr', ht', h⟩
    obtain rfl := Option.some.inj hr'
    obtain rfl := Option.some.inj ht'
    exact h
  · intro h
    exact ⟨_, _, rfl, rfl, h⟩

end Runs

/-- The checks of a capture that the paths share. -/
def readable (capture : CaptureResult) (messageId : String) : Bool :=
  present capture.conversationId &&
    (decide (capture.text = []) || decide (capture.status = .partialText) ||
      decide (capture.status = .complete)) &&
    (present capture.messageId || present capture.observerId) && !otherMessage messageId capture

def replyOpen (capture : CaptureResult) (t : ReplyRow) : Bool :=
  detachedReply t && decide (capture.conversationId = some t.conversationId)

def pageText (capture : CaptureResult) : Text := capture.text.take maxText

def blocksText (lib : Stdlib) (capture : CaptureResult) (t : ReplyRow) : Text :=
  displayBlocksText lib (replyBlocks lib capture t)

/-- The text is as long as the one a reader of the row sees. -/
def Reaches (lib : Stdlib) (t : ReplyRow) (text : Text) : Prop :=
  (visibleReplyText lib t).length ≤ text.length

/-- What a reader sees of a text beside the merged blocks. -/
def reading (lib : Stdlib) (capture : CaptureResult) (t : ReplyRow) (text : Text) : Text :=
  visibleAssistantText lib text (replyBlocks lib capture t)

/-- The capture brings tool calls, proof of progress or a text that is long enough. -/
def Worth (lib : Stdlib) (capture : CaptureResult) (t : ReplyRow) (text : Text) : Prop :=
  capture.toolCalls ≠ [] ∨ capture.verifiedGenerating = true ∨
    (capture.text ≠ [] ∧ Reaches lib t text)

/-- A taken capture leaves the same text and the same status on both paths: the blocks' text
and the page's are read alike, and so are the texts that are kept when they are too short. -/
structure SameReading (lib : Stdlib) (capture : CaptureResult) (t : ReplyRow) : Prop where
  closing : capture.status = .complete →
    (orText (blocksText lib capture t) (pageText capture) ≠ [] ∧
        Reaches lib t (orText (blocksText lib capture t) (pageText capture)) ↔
      pageText capture ≠ [] ∧ t.assistantText.length ≤ (pageText capture).length)
  page_read : blocksText lib capture t ≠ [] → Reaches lib t (blocksText lib capture t) →
    Reaches lib t (pageText capture) → reading lib capture t (pageText capture) =
      blocksText lib capture t
  saved_read : blocksText lib capture t ≠ [] → Reaches lib t (blocksText lib capture t) →
    ¬Reaches lib t (pageText capture) → reading lib capture t t.assistantText =
      blocksText lib capture t
  longer_page : blocksText lib capture t ≠ [] → ¬Reaches lib t (blocksText lib capture t) →
    Reaches lib t (pageText capture) →
      reading lib capture t (pageText capture) = reading lib capture t (visibleReplyText lib t)
  saved_kept : ¬Reaches lib t (orText (blocksText lib capture t) (pageText capture)) →
    ¬Reaches lib t (pageText capture) →
      reading lib capture t t.assistantText = reading lib capture t (visibleReplyText lib t)

/-- When only one of the rows is open the capture brings its path nothing. When both are open
a capture that proves progress brings a text or tool calls, and the blocks' text and the page's
are long enough together. -/
structure PathsMeet (lib : Stdlib) (capture : CaptureResult) (r : ResultRow) (t : ReplyRow) :
    Prop where
  original_alone : recoverableRow (orElse capture.conversationId "") r = true →
    replyOpen capture t = false →
      capture.toolCalls = [] ∧ (capture.text ≠ [] → capture.verifiedGenerating = false ∧
        ¬Reaches lib t (orText (blocksText lib capture t) (pageText capture)))
  reply_alone : recoverableRow (orElse capture.conversationId "") r = false →
    replyOpen capture t = true → ¬Worth lib capture t (pageText capture)
  evidence : recoverableRow (orElse capture.conversationId "") r = true →
    replyOpen capture t = true → capture.verifiedGenerating = true →
      capture.text ≠ [] ∨ capture.toolCalls ≠ []
  together : recoverableRow (orElse capture.conversationId "") r = true →
    replyOpen capture t = true → capture.text ≠ [] → capture.toolCalls = [] →
      capture.verifiedGenerating = false →
        (Reaches lib t (orText (blocksText lib capture t) (pageText capture)) ↔
          Reaches lib t (pageText capture))
  same_reading : recoverableRow (orElse capture.conversationId "") r = true →
    replyOpen capture t = true → Worth lib capture t (pageText capture) → SameReading lib capture t

section Agreement

variable {lib : Stdlib} {c : Chats} {capture : CaptureResult} {now : Time} {r : ResultRow}
  {t : ReplyRow}

theorem displayBlocksText_length (stored : List Block) :
    (displayBlocksText lib stored).length ≤ maxText := by
  show ((joinParagraphs _).take maxChars).length ≤ maxChars
  rw [List.length_take]
  omega

/-- The text of the blocks is not replaced by itself. -/
theorem visible_blocks (stored : List Block) :
    visibleAssistantText lib (displayBlocksText lib stored) stored =
      displayBlocksText lib stored := by
  unfold visibleAssistantText
  dsimp only
  split
  · rfl
  · rfl

theorem merged_same (hsame : SameAnswer r t) :
    ResponseStore.mergedBlocks lib capture r = replyBlocks lib capture t := by
  unfold ResponseStore.mergedBlocks replyBlocks
  rw [hsame.displayBlocks]

theorem visible_same (hsame : SameAnswer r t) : visibleText lib r = visibleReplyText lib t := by
  unfold visibleText visibleReplyText
  rw [hsame.assistantText, hsame.displayBlocks]

theorem probed_same (hsame : SameAnswer r t) :
    probedText lib capture r = orText (blocksText lib capture t) (pageText capture) := by
  unfold probedText
  rw [merged_same hsame]
  unfold orText blocksText pageText
  split
  · rfl
  · exact List.take_of_length_le (displayBlocksText_length _)

theorem shorterProbe_iff (hsame : SameAnswer r t) : shorterProbe lib capture r = true ↔
    ¬Reaches lib t (orText (blocksText lib capture t) (pageText capture)) := by
  unfold shorterProbe Reaches
  rw [decide_eq_true_eq, probed_same hsame, visible_same hsame, not_le]

theorem shorterReplyProbe_iff : shorterReplyProbe lib capture t = true ↔
    ¬Reaches lib t (pageText capture) := by
  unfold shorterReplyProbe Reaches pageText
  rw [decide_eq_true_eq, not_le]

/-- The original takes tools, progress, or a text of the blocks, else of the page, that is long
enough. -/
theorem original_accepts (hsame : SameAnswer r t) : acceptsProbe lib capture r = true ↔
    readable capture t.messageId = true ∧
      recoverableRow (orElse capture.conversationId "") r = true ∧
      (capture.toolCalls ≠ [] ∨ (capture.text ≠ [] ∧ (capture.verifiedGenerating = true ∨
        Reaches lib t (orText (blocksText lib capture t) (pageText capture))))) := by
  have hshort := (@shorterProbe_iff lib capture r t hsame).not
  rw [not_not] at hshort
  unfold acceptsProbe usableProbe readable
  rw [hsame.messageId]
  simp only [Bool.and_eq_true, Bool.or_eq_true, Bool.not_eq_true', decide_eq_true_eq,
    ← Bool.not_eq_true]
  grind

/-- The reply compares the text of the page alone. -/
theorem reply_accepts (hnames : namesParent capture t = true)
    (hparent : verifiedParent c t = true) :
    acceptsReplyProbe lib c capture t = true ↔
      readable capture t.messageId = true ∧ replyOpen capture t = true ∧
        Worth lib capture t (pageText capture) := by
  have hshort := (@shorterReplyProbe_iff lib capture t).not
  rw [not_not] at hshort
  obtain ⟨hpresent, hnamed⟩ := Bool.and_eq_true_iff.mp hnames
  unfold acceptsReplyProbe usableReplyProbe readable replyOpen Worth
  simp only [Bool.and_eq_true, Bool.or_eq_true, Bool.not_eq_true', decide_eq_true_eq,
    ← Bool.not_eq_true, hparent, of_decide_eq_true hnamed, and_true]
  grind

theorem original_reading (hsame : SameAnswer r t) :
    visibleText lib (recoverRow lib capture now r) = reading lib capture t
      (recoveredText lib capture r) := by
  unfold visibleText reading recoverRow
  rw [merged_same hsame]

theorem reply_reading : visibleReplyText lib (recoverReplyRow lib capture now t) =
    reading lib capture t (recoveredReplyText lib capture t) := rfl

theorem original_kept (hsame : SameAnswer r t)
    (hshort : ¬Reaches lib t (orText (blocksText lib capture t) (pageText capture))) :
    recoveredText lib capture r = visibleReplyText lib t := by
  unfold recoveredText
  rw [if_pos ((shorterProbe_iff hsame).mpr hshort), visible_same hsame]

theorem original_replaced (hsame : SameAnswer r t)
    (hlong : Reaches lib t (orText (blocksText lib capture t) (pageText capture))) :
    recoveredText lib capture r = orText (blocksText lib capture t) (pageText capture) := by
  unfold recoveredText
  rw [if_neg (fun h => (shorterProbe_iff hsame).mp h hlong), probed_same hsame]

theorem reply_kept (hshort : ¬Reaches lib t (pageText capture)) :
    recoveredReplyText lib capture t = t.assistantText :=
  if_pos (shorterReplyProbe_iff.mpr hshort)

theorem reply_replaced (hlong : Reaches lib t (pageText capture)) :
    recoveredReplyText lib capture t = pageText capture :=
  if_neg (fun h => shorterReplyProbe_iff.mp h hlong)

/-- The rows that are left are read alike exactly when the texts of the paths are. -/
theorem same_text_iff (hsame : SameAnswer r t) :
    visibleText lib (recoverRow lib capture now r) =
        visibleReplyText lib (recoverReplyRow lib capture now t) ↔
      (blocksText lib capture t ≠ [] → Reaches lib t (blocksText lib capture t) →
        Reaches lib t (pageText capture) →
          reading lib capture t (pageText capture) = blocksText lib capture t) ∧
      (blocksText lib capture t ≠ [] → Reaches lib t (blocksText lib capture t) →
        ¬Reaches lib t (pageText capture) →
          reading lib capture t t.assistantText = blocksText lib capture t) ∧
      (blocksText lib capture t ≠ [] → ¬Reaches lib t (blocksText lib capture t) →
        Reaches lib t (pageText capture) →
          reading lib capture t (pageText capture) = reading lib capture t
            (visibleReplyText lib t)) ∧
      (¬Reaches lib t (orText (blocksText lib capture t) (pageText capture)) →
        ¬Reaches lib t (pageText capture) →
          reading lib capture t t.assistantText = reading lib capture t
            (visibleReplyText lib t)) := by
  rw [original_reading hsame, reply_reading]
  have hblocks : reading lib capture t (blocksText lib capture t) = blocksText lib capture t :=
    visible_blocks _
  by_cases hempty : blocksText lib capture t = []
  · have hfirst : orText (blocksText lib capture t) (pageText capture) = pageText capture :=
      if_pos hempty
    by_cases hpage : Reaches lib t (pageText capture)
    · rw [original_replaced hsame (by rw [hfirst]; exact hpage), reply_replaced hpage, hfirst]
      simp [hempty, hpage]
    · rw [original_kept hsame (by rw [hfirst]; exact hpage), reply_kept hpage, hfirst]
      rw [eq_comm]
      simp [hempty, hpage]
  · have hfirst : orText (blocksText lib capture t) (pageText capture) = blocksText lib capture t :=
      if_neg hempty
    by_cases hlong : Reaches lib t (blocksText lib capture t)
    · rw [original_replaced hsame (by rw [hfirst]; exact hlong), hfirst, hblocks]
      by_cases hpage : Reaches lib t (pageText capture)
      · rw [reply_replaced hpage]
        rw [eq_comm]
        simp [hempty, hlong, hpage]
      · rw [reply_kept hpage]
        rw [eq_comm]
        simp [hempty, hlong, hpage]
    · rw [original_kept hsame (by rw [hfirst]; exact hlong), hfirst]
      by_cases hpage : Reaches lib t (pageText capture)
      · rw [reply_replaced hpage]
        rw [eq_comm]
        simp [hempty, hlong, hpage]
      · rw [reply_kept hpage]
        rw [eq_comm]
        simp [hempty, hlong, hpage]

/-- The statuses that are left agree exactly when the capture closes both rows or neither. -/
theorem same_status_iff (hsame : SameAnswer r t)
    (hopen : recoverableRow (orElse capture.conversationId "") r = true) :
    resultValue (recoverRow lib capture now r).status =
        replyValue (recoverReplyRow lib capture now t).status ↔
      (capture.status = .complete →
        (orText (blocksText lib capture t) (pageText capture) ≠ [] ∧
            Reaches lib t (orText (blocksText lib capture t) (pageText capture)) ↔
          pageText capture ≠ [] ∧ t.assistantText.length ≤ (pageText capture).length)) := by
  have hunfinished : resultValue r.status ≠ "completed" := by
    intro h
    cases hstatus : r.status <;> rw [hstatus] at h <;> simp [resultValue] at h
    simp [recoverableRow, isRecoverable, hstatus] at hopen
  have horiginal : probeCompletes lib capture r = true ↔ capture.status = .complete ∧
      orText (blocksText lib capture t) (pageText capture) ≠ [] ∧
        Reaches lib t (orText (blocksText lib capture t) (pageText capture)) := by
    have hshort := (@shorterProbe_iff lib capture r t hsame).not
    rw [not_not] at hshort
    unfold probeCompletes
    simp only [Bool.and_eq_true, decide_eq_true_eq, Bool.not_eq_true', ← Bool.not_eq_true, hshort,
      probed_same hsame, and_assoc]
  have hreply : replyProbeCompletes capture t = true ↔ capture.status = .complete ∧
      pageText capture ≠ [] ∧ t.assistantText.length ≤ (pageText capture).length := by
    unfold replyProbeCompletes pageText
    simp only [Bool.and_eq_true, decide_eq_true_eq, and_assoc]
  have hleft : (recoverRow lib capture now r).status =
      if probeCompletes lib capture r = true then .completed else r.status := rfl
  have hright : (recoverReplyRow lib capture now t).status =
      if replyProbeCompletes capture t = true then .completed else t.status := rfl
  have hdone : replyValue .completed = "completed" := rfl
  have hdone' : resultValue .completed = "completed" := rfl
  rw [hleft, hright]
  by_cases h : probeCompletes lib capture r = true <;>
    by_cases h' : replyProbeCompletes capture t = true
  · rw [if_pos h, if_pos h', hdone, hdone']
    exact ⟨fun _ hcomplete => ⟨fun _ => (hreply.mp h').2, fun _ => (horiginal.mp h).2⟩,
      fun _ => rfl⟩
  · rw [if_pos h, if_neg h', ← hsame.status, hdone']
    refine ⟨fun heq => absurd heq.symm hunfinished, fun hiff => ?_⟩
    obtain ⟨hcomplete, hfull⟩ := horiginal.mp h
    exact absurd (hreply.mpr ⟨hcomplete, (hiff hcomplete).mp hfull⟩) h'
  · rw [if_neg h, if_pos h', hdone]
    refine ⟨fun heq => absurd heq hunfinished, fun hiff => ?_⟩
    obtain ⟨hcomplete, hfull⟩ := hreply.mp h'
    exact absurd (horiginal.mpr ⟨hcomplete, (hiff hcomplete).mpr hfull⟩) h
  · rw [if_neg h, if_neg h']
    refine ⟨fun _ hcomplete => ⟨fun hfull => absurd (horiginal.mpr ⟨hcomplete, hfull⟩) h,
      fun hfull => absurd (hreply.mpr ⟨hcomplete, hfull⟩) h'⟩, fun _ => hsame.status⟩

/-- The two columns and the two statuses, as the two readers see them. -/
theorem sameReading_iff (hsame : SameAnswer r t)
    (hopen : recoverableRow (orElse capture.conversationId "") r = true) :
    SameReading lib capture t ↔
      visibleText lib (recoverRow lib capture now r) =
          visibleReplyText lib (recoverReplyRow lib capture now t) ∧
        resultValue (recoverRow lib capture now r).status =
          replyValue (recoverReplyRow lib capture now t).status := by
  rw [same_text_iff hsame, same_status_iff hsame hopen]
  constructor
  · intro h
    exact ⟨⟨h.page_read, h.saved_read, h.longer_page, h.saved_kept⟩, h.closing⟩
  · rintro ⟨⟨hpage, hsaved, hlonger, hkept⟩, hclosing⟩
    exact ⟨hclosing, hpage, hsaved, hlonger, hkept⟩

/-- On rows that are both open the entry checks of the paths differ in the evidence only. -/
theorem worth_iff (text : Text) :
    ((capture.toolCalls ≠ [] ∨ (capture.text ≠ [] ∧ (capture.verifiedGenerating = true ∨
        Reaches lib t text))) ↔ Worth lib capture t (pageText capture)) ↔
      (capture.verifiedGenerating = true → capture.text ≠ [] ∨ capture.toolCalls ≠ []) ∧
      (capture.text ≠ [] → capture.toolCalls = [] → capture.verifiedGenerating = false →
        (Reaches lib t text ↔ Reaches lib t (pageText capture))) := by
  unfold Worth
  by_cases htools : capture.toolCalls = []
  · by_cases htext : capture.text = []
    · simp [htools, htext]
    · cases capture.verifiedGenerating
      · simp [htools, htext]
      · simp [htools, htext]
  · simp [htools]

/-- The two paths agree on a capture exactly when a check that they share refuses it or the
paths meet. -/
theorem recoveries_agree_iff {sendId replyId : String} (hr : c.results.lookup sendId = some r)
    (ht : c.replies.lookup replyId = some t) (hsame : SameAnswer r t)
    (hparent : verifiedParent c t = true) (hnames : namesParent capture t = true) :
    PathsAgree lib c sendId replyId capture now ↔
      (readable capture t.messageId = true → PathsMeet lib capture r t) := by
  rw [pathsAgree_iff hr ht, original_accepts hsame, reply_accepts hnames hparent]
  by_cases hreadable : readable capture t.messageId = true
  · simp only [hreadable, true_and, true_implies]
    constructor
    · rintro ⟨htaken, hleft⟩
      constructor
      · intro hopen hclosed
        have hrefused : ¬(capture.toolCalls ≠ [] ∨ (capture.text ≠ [] ∧
            (capture.verifiedGenerating = true ∨
              Reaches lib t (orText (blocksText lib capture t) (pageText capture))))) :=
          fun hworth => Bool.false_ne_true (hclosed ▸ (htaken.mp ⟨hopen, hworth⟩).1)
        rw [not_or, not_and, not_or, not_not, Bool.not_eq_true] at hrefused
        exact hrefused
      · intro hclosed hreply hworth
        exact Bool.false_ne_true (hclosed ▸ (htaken.mpr ⟨hreply, hworth⟩).1)
      · intro hopen hreply
        rw [and_iff_right hopen, and_iff_right hreply, worth_iff] at htaken
        exact htaken.1
      · intro hopen hreply
        rw [and_iff_right hopen, and_iff_right hreply, worth_iff] at htaken
        exact htaken.2
      · intro hopen hreply hworth
        exact (sameReading_iff hsame hopen).mpr (hleft (htaken.mpr ⟨hreply, hworth⟩))
    · intro hmeet
      have htaken : (recoverableRow (orElse capture.conversationId "") r = true ∧
          (capture.toolCalls ≠ [] ∨ (capture.text ≠ [] ∧ (capture.verifiedGenerating = true ∨
            Reaches lib t (orText (blocksText lib capture t) (pageText capture)))))) ↔
          replyOpen capture t = true ∧ Worth lib capture t (pageText capture) := by
        cases hopen : recoverableRow (orElse capture.conversationId "") r <;>
          cases hreply : replyOpen capture t
        · simp only [Bool.false_eq_true, false_and]
        · have hnothing := hmeet.reply_alone hopen hreply
          simp only [Bool.false_eq_true, false_and, true_and, hnothing]
        · obtain ⟨htools, htext⟩ := hmeet.original_alone hopen hreply
          simp only [Bool.false_eq_true, false_and, iff_false]
          rintro ⟨-, hworth | ⟨hsome, hgenerating | hlong⟩⟩
          · exact hworth htools
          · exact Bool.false_ne_true ((htext hsome).1 ▸ hgenerating)
          · exact (htext hsome).2 hlong
        · rw [and_iff_right rfl, and_iff_right rfl, worth_iff]
          exact ⟨hmeet.evidence hopen hreply, hmeet.together hopen hreply⟩
      refine ⟨htaken, ?_⟩
      rintro ⟨hopen, hworth⟩
      obtain ⟨hreply, hbrings⟩ := htaken.mp ⟨hopen, hworth⟩
      exact (sameReading_iff hsame hopen).mp (hmeet.same_reading hopen hreply hbrings)
  · simp only [hreadable, false_and, false_implies, iff_self, and_self, Bool.false_eq_true]

end Agreement

section Examples

def savedOriginal : ResultRow :=
  { sendId := "manual-2", userText := "go".toList, status := .interrupted, conversationId := "c-1",
    createdAt := 1, updatedAt := 5, finishedAt := 5 }

def savedReply : ReplyRow :=
  { replyId := "reply-1", sendId := "manual-1", conversationId := "c-1", parentId := "m-1",
    userText := "go".toList, status := .interrupted, createdAt := 1, updatedAt :=
      5, finishedAt := 5 }

def answeredOriginal : ResultRow :=
  { sendId := "manual-1", userText := "hi".toList, assistantText := "hello".toList,
    status := .completed, conversationId := "c-1", messageId := "m-1", createdAt :=
      0, updatedAt := 1 }

theorem saved_nodup : ([answeredOriginal, savedOriginal].map ResultRow.sendId).Nodup := by decide

def savedChats : Chats where
  results := ⟨[answeredOriginal, savedOriginal], saved_nodup⟩
  replies := ⟨[savedReply], List.nodup_singleton _⟩

/-- A page with a comment in front of its final answer. -/
def commentedCapture : CaptureResult :=
  { source := .dom, status := .complete, text := "Done.".toList, conversationId := some "c-1",
    messageId := some "m-2", parentId := some "m-1", observerId := some "probe",
    displayBlocks := [{ kind := .text, id := "text-0", text := "Looking.".toList },
      { kind := .text, id := "text-1", text := "Done.".toList }] }

def finalCapture : CaptureResult := { commentedCapture with displayBlocks := [] }

theorem saved_same : SameAnswer savedOriginal savedReply := ⟨rfl, rfl, rfl, rfl, rfl, rfl⟩

/-- The original keeps the comment, the reply only the final answer. -/
theorem comment_dropped : ¬∀ (lib : Stdlib) (c : Chats) (sendId replyId : String)
    (capture : CaptureResult) (now : Time) (r : ResultRow) (t : ReplyRow),
    c.results.lookup sendId = some r → c.replies.lookup replyId = some t → SameAnswer r t →
      verifiedParent c t = true → namesParent capture t = true →
        PathsAgree lib c sendId replyId capture now := by
  intro h
  have hagree := h Service.plainLib savedChats "manual-2" "reply-1" commentedCapture 20
      savedOriginal
    savedReply (by decide) (by decide) saved_same (by decide) (by decide)
  rw [pathsAgree_iff (r := savedOriginal) (t := savedReply) (by decide) (by decide)] at hagree
  exact absurd (hagree.2 (by decide +kernel)).1 (by decide +kernel)

theorem recoveries_agree_final :
    (savedChats.results.lookup "manual-2" = some savedOriginal ∧
      savedChats.replies.lookup "reply-1" = some savedReply ∧ SameAnswer savedOriginal savedReply ∧
      verifiedParent savedChats savedReply = true ∧ namesParent finalCapture savedReply = true) ∧
    (PathsAgree Service.plainLib savedChats "manual-2" "reply-1" finalCapture 20 ↔
      (readable finalCapture savedReply.messageId = true →
        PathsMeet Service.plainLib finalCapture savedOriginal savedReply)) :=
  ⟨⟨by decide, by decide, saved_same, by decide, by decide⟩,
    recoveries_agree_iff (by decide) (by decide) saved_same (by decide) (by decide)⟩

end Examples

end Prompta.RecoveryPaths
