import Prompta.BranchTurns

/-!
A follow-up may wait for a turn that is over but was saved without a message. The
walk to the follow-up, the list of chats to recover and the two recoveries each read
the rows before it in their own way. The recovery helps exactly where they agree on
the turn: cancelled and merged replies, which the walk passes over, stop the others.
-/
namespace Prompta.FollowupRecovery

open Runs Relation Tables Texts DisplayBlocks Schema ResponseStore ReplyStore Service BranchLineage

/-- The chat's oldest queued follow-up, the rows of the branch before it, and the
chat's first turn, which is over. -/
structure Oldest (c : Chats) (original : ResultRow) (draft : ReplyRow) (before : List ReplyRow) :
    Prop where
  found : c.results.lookup draft.sendId = some original
  ended : isTerminalRun original.status = true
  conversation : original.conversationId ≠ ""
  rows : ∃ later, branchRows c draft.sendId = before ++ draft :: later
  queued : draft.status = .queued
  oldest : ∀ r ∈ before, r.status ≠ .queued

/-- The follow-up waits only because the turn it would continue, its chat's first turn
or a reply, has no message. Every turn before that one can be continued. -/
inductive HeldBack (c : Chats) (original : ResultRow) (draft : ReplyRow) : Option ReplyRow → Prop
  | byOriginal (before : List ReplyRow) (h : Oldest c original draft before)
      (hmessage : original.messageId = "") (hfirst : ∀ r ∈ before, isSkipped r.status = true) :
      HeldBack c original draft none
  | byReply (earlier : List ReplyRow) (turn : ReplyRow) (skipped : List ReplyRow)
      (h : Oldest c original draft (earlier ++ turn :: skipped))
      (hidentified : original.messageId ≠ "")
      (hwalk : branchTip original.conversationId original.messageId earlier = .ok turn.parentId)
      (hsettled : isSettled turn.status = true)
      (hconversation : turn.conversationId = original.conversationId)
      (hmessage : turn.messageId = "") (hskipped : ∀ r ∈ skipped, isSkipped r.status = true) :
      HeldBack c original draft (some turn)

def recoverTurn (c : Chats) (original : ResultRow) (draft : ReplyRow) (messageId : String)
    (now : Time) : Option ReplyRow → Chats × Bool
  | none =>
    recoverOriginalParent c draft.sendId original.conversationId messageId original.assistantText
  | some turn =>
    recoverReplyParent c draft.sendId turn.replyId original.conversationId turn.parentId
      turn.userText turn.assistantText messageId now

/-- A message identifier that no turn of the chat has. -/
structure Fresh (c : Chats) (sendId messageId : String) : Prop where
  uuid : isUuid messageId = true
  original : ∀ r ∈ c.results.lookup sendId, lower messageId ≠ lower r.messageId
  replies : ∀ r ∈ c.replies.rows, r.sendId = sendId → lower messageId ≠ lower r.messageId

/-- The chat is listed, the recovery succeeds, and the follow-up is ready after it. -/
def Recovered (c : Chats) (original : ResultRow) (draft : ReplyRow) (messageId : String)
    (now : Time) (turn : Option ReplyRow) : Prop :=
  draft.sendId ∈ queuedRecoveryCandidates c now ∧
    (recoverTurn c original draft messageId now turn).2 = true ∧
    (readyDraft (recoverTurn c original draft messageId now turn).1 draft).isSome = true

/-- The list and the recovery read the same turn as the walk. Before the first turn's
recovery every reply of the chat is still queued. A reply is the last one that is not
queued, not shown as live, and the row before it carries the message it continues. -/
def SeesTurn (c : Chats) (original : ResultRow) (draft : ReplyRow) (now : Time) :
    Option ReplyRow → Prop
  | none => ∀ r ∈ c.replies.rows, r.sendId = draft.sendId → r.status = .queued
  | some turn =>
    isUuid turn.parentId = true ∧
      visibleReplyStatus turn.status turn.liveObservedAt now = turn.status ∧
      ∃ earlier, sentRows c draft.sendId = turn :: earlier ∧
        (earlier.head?.map ReplyRow.messageId).getD original.messageId = turn.parentId ∧
        (earlier.filter fun r => decide (r.status ≠ .merged)).head?.map ReplyRow.messageId ≠ some ""

section Rows

variable {c : Chats} {sendId : String}

theorem mem_branchRows {r : ReplyRow} :
    r ∈ branchRows c sendId ↔ r ∈ c.replies.rows ∧ r.sendId = sendId := by
  rw [branchRows, List.mem_insertionSort, List.mem_filter, decide_eq_true_eq]

theorem mem_sentRows {r : ReplyRow} :
    r ∈ sentRows c sendId ↔ (r ∈ c.replies.rows ∧ r.sendId = sendId) ∧ r.status ≠ .queued := by
  rw [sentRows, List.mem_reverse, List.mem_filter, mem_branchRows, decide_eq_true_eq]

theorem branchRows_nodup (c : Chats) (sendId : String) :
    ((branchRows c sendId).map ReplyRow.replyId).Nodup := by
  have hperm := (List.perm_insertionSort branchOrder
    (c.replies.rows.filter fun r => decide (r.sendId = sendId))).map ReplyRow.replyId
  refine hperm.nodup_iff.mpr ?_
  exact c.replies.nodup.sublist (List.filter_sublist.map _)

/-- An update of one reply changes its row where it stands in the branch. -/
theorem branchRows_updateReply (replyId : String) (p : ReplyRow → Bool)
    (f : ReplyRow → ReplyRow) (hf : ∀ r, (f r).replyId = r.replyId)
    (hsend : ∀ r, (f r).sendId = r.sendId) (hcreated : ∀ r, (f r).createdAt = r.createdAt) :
    branchRows (updateReply c replyId p f hf).1 sendId =
      (branchRows c sendId).map fun r => if decide (r.replyId = replyId) && p r then f r
      else r := by
  have hfields : ∀ r : ReplyRow,
      (if decide (r.replyId = replyId) && p r then f r else r).replyId = r.replyId ∧
      (if decide (r.replyId = replyId) && p r then f r else r).sendId = r.sendId ∧
      (if decide (r.replyId = replyId) && p r then f r else r).createdAt = r.createdAt := by
    intro r
    split
    · exact ⟨hf r, hsend r, hcreated r⟩
    · exact ⟨rfl, rfl, rfl⟩
  rw [branchRows, branchRows, List.map_insertionSort branchOrder branchOrder]
  · congr 1
    change ((c.replies.rows.map _).filter _) = _
    rw [List.filter_map]
    congr 2
    funext r
    simp only [Function.comp_apply, (hfields r).2.1]
  · intro a _ b _
    simp only [branchOrder, (hfields a).1, (hfields a).2.2, (hfields b).1, (hfields b).2.2]

end Rows

section Walk

variable {draft : ReplyRow} {conversationId : String}

/-- The walk passes the turns that a new reply could follow. -/
theorem readyParent_walk {earlier rest : List ReplyRow} {messageId parentId : String}
    (h : branchTip conversationId messageId earlier = .ok parentId)
    (hother : ∀ r ∈ earlier, r.replyId ≠ draft.replyId) :
    readyParent draft conversationId messageId (unmerged (earlier ++ rest)) =
      readyParent draft conversationId parentId (unmerged rest) := by
  induction earlier generalizing messageId with
  | nil =>
    rw [branchTip, Except.ok.injEq] at h
    rw [h]
    rfl
  | cons turn earlier ih =>
    have hrest : ∀ r ∈ earlier, r.replyId ≠ draft.replyId :=
      fun r hr => hother r (List.mem_cons_of_mem _ hr)
    rw [branchTip] at h
    by_cases hskipped : isSkipped turn.status = true
    · rw [if_pos hskipped] at h
      rw [List.cons_append, readyParent_skipped hskipped]
      exact ih h hrest
    · rw [if_neg hskipped] at h
      split at h
      · cases h
      rename_i hsettled
      split at h
      · cases h
      rename_i hplace
      simp only [Bool.or_eq_true, Bool.not_eq_true', decide_eq_true_eq, not_or,
        Bool.not_eq_false] at hsettled
      simp only [ne_eq, not_or, not_not] at hplace
      rw [List.cons_append, unmerged_cons (by simpa using hskipped), readyParent,
        if_neg hskipped, if_neg (hother turn List.mem_cons_self), if_pos (by
          simp [hsettled.1, hsettled.2, hplace.1, hplace.2])]
      exact ih h hrest

/-- Behind skipped rows the walk reaches the draft. -/
theorem readyParent_draft {skipped later : List ReplyRow} {messageId : String}
    (hqueued : draft.status = .queued) (hskipped : ∀ r ∈ skipped, isSkipped r.status = true) :
    readyParent draft conversationId messageId (unmerged (skipped ++ draft :: later)) =
      some messageId := by
  induction skipped with
  | nil =>
    have hturn : isSkipped draft.status = false := by
      rw [hqueued]
      rfl
    rw [List.nil_append, unmerged_cons hturn, readyParent, if_neg (by simp [hturn]), if_pos rfl,
      if_pos (Or.inl hqueued)]
  | cons turn skipped ih =>
    rw [List.cons_append, readyParent_skipped (hskipped turn List.mem_cons_self)]
    exact ih fun r hr => hskipped r (List.mem_cons_of_mem _ hr)

/-- The tip of a branch is its first message or that of one of its turns. -/
theorem branchTip_source {rows : List ReplyRow} {messageId parentId : String}
    (h : branchTip conversationId messageId rows = .ok parentId) :
    parentId = messageId ∨ ∃ r ∈ rows, r.messageId = parentId := by
  induction rows generalizing messageId with
  | nil =>
    rw [branchTip, Except.ok.injEq] at h
    exact Or.inl h.symm
  | cons turn rest ih =>
    have hlater : ∀ {m : String}, branchTip conversationId m rest = .ok parentId →
        parentId = m ∨ ∃ r ∈ turn :: rest, r.messageId = parentId := by
      intro m hm
      rcases ih hm with heq | ⟨r, hr, heq⟩
      · exact Or.inl heq
      · exact Or.inr ⟨r, List.mem_cons_of_mem _ hr, heq⟩
    rw [branchTip] at h
    split_ifs at h
    · exact hlater h
    · rcases hlater h with heq | hrow
      · exact Or.inr ⟨turn, List.mem_cons_self, heq.symm⟩
      · exact Or.inr hrow

end Walk

section Tip

variable {c : Chats} {original : ResultRow} {now : Time}

theorem visible_queued_iff {status : ReplyStatus} {observedAt : Time} :
    visibleReplyStatus status observedAt now = .queued ↔ status = .queued := by
  unfold visibleReplyStatus
  split
  · split <;> simp
  · split <;> simp
  · rfl

/-- A status is shown as it is, or as generating. -/
theorem visible_cases (status : ReplyStatus) (observedAt now : Time) :
    visibleReplyStatus status observedAt now = status ∨
      visibleReplyStatus status observedAt now = .generating := by
  unfold visibleReplyStatus
  split
  · split
    · exact Or.inr rfl
    · exact Or.inl rfl
  · split
    · exact Or.inr rfl
    · exact Or.inl rfl
  · exact Or.inl rfl

/-- Queued rows do not move the tip. -/
theorem nextTip_sent (rows : List ReplyRow) (tip : BranchTip) :
    rows.foldl (nextTip now) tip =
      (rows.filter fun r => decide (r.status ≠ .queued)).foldl (nextTip now) tip := by
  induction rows generalizing tip with
  | nil => rfl
  | cons r rest ih =>
    by_cases hqueued : r.status = .queued
    · have hsame : nextTip now tip r = tip := by
        rw [nextTip, if_pos (visible_queued_iff.mpr hqueued)]
      rw [List.foldl_cons, hsame, List.filter_cons_of_neg (by simp [hqueued])]
      exact ih tip
    · rw [List.foldl_cons, List.filter_cons_of_pos (by simp [hqueued]), List.foldl_cons]
      exact ih _

/-- The tip reads the unmerged sent rows, the first one last. -/
theorem recoveryTip_eq (c : Chats) (original : ResultRow) (now : Time) :
    recoveryTip c original now =
      ((sentRows c original.sendId).filter fun r => decide (r.status ≠ .merged)).foldr
        (fun r tip => nextTip now tip r) (originalTip original) := by
  have hrows : ((sentRows c original.sendId).filter fun r => decide (r.status ≠ .merged)) =
      (((branchRows c original.sendId).filter fun r => decide (r.status ≠ .merged)).filter
        fun r => decide (r.status ≠ .queued)).reverse := by
    rw [sentRows, List.filter_reverse, List.filter_filter, List.filter_filter]
    congr 2
    funext r
    exact Bool.and_comm _ _
  rw [recoveryTip, nextTip_sent, hrows, List.foldr_reverse]

/-- Behind sent rows the tip carries the message of the last one. -/
theorem tip_message {rows : List ReplyRow} (hrows : ∀ r ∈ rows, r.status ≠ .queued) :
    (rows.foldr (fun r tip => nextTip now tip r) (originalTip original)).messageId =
      (rows.head?.map ReplyRow.messageId).getD original.messageId := by
  cases rows with
  | nil => rfl
  | cons r rest =>
    have hvisible : ¬ visibleReplyStatus r.status r.liveObservedAt now = .queued := by
      rw [visible_queued_iff]
      exact hrows r List.mem_cons_self
    rw [List.foldr_cons, nextTip, if_neg hvisible]
    rfl

/-- A chat with a queued follow-up is listed when its tip needs a recovery. -/
theorem listed_iff {draft : ReplyRow} (now : Time) (hdraft : draft ∈ c.replies.rows)
    (huser : draft.queuedByUser = true) (hqueued : draft.status = .queued)
    (horiginal : c.results.lookup draft.sendId = some original) :
    draft.sendId ∈ queuedRecoveryCandidates c now ↔
      needsRecovery (recoveryTip c original now) = true := by
  have hchat : draft.sendId ∈ queuedChats c := by
    rw [queuedChats, List.mem_insertionSort, List.mem_dedup, List.mem_map]
    refine ⟨draft, ?_, rfl⟩
    rw [List.mem_filter]
    exact ⟨hdraft, by simp [huser, hqueued]⟩
  rw [queuedRecoveryCandidates, List.mem_filter, horiginal]
  simp [hchat]

/-- A chat without a sent reply needs a recovery of its first turn. -/
theorem needsRecovery_original (hsent : sentRows c original.sendId = [])
    (hended : isTerminalRun original.status = true) (hconversation : original.conversationId ≠ "")
    (hmessage : original.messageId = "") : needsRecovery (recoveryTip c original now) = true := by
  rw [recoveryTip_eq, hsent]
  simp [needsRecovery, originalTip, hended, hconversation, hmessage]

/-- A chat whose last sent reply has no message needs a recovery where that reply is not
shown as live and the one before it has a message. -/
theorem needsRecovery_reply {turn : ReplyRow} {earlier : List ReplyRow}
    (hsent : sentRows c original.sendId = turn :: earlier) (hsettled : isSettled turn.status = true)
    (hconversation : turn.conversationId ≠ "") (hmessage : turn.messageId = "")
    (hidentified : original.messageId ≠ "") :
    needsRecovery (recoveryTip c original now) = true ↔
      visibleReplyStatus turn.status turn.liveObservedAt now = turn.status ∧
        (earlier.filter fun r => decide (r.status ≠ .merged)).head?.map ReplyRow.messageId ≠
          some "" := by
  obtain ⟨hskipped, hqueued⟩ := skipped_not_settled hsettled
  have hmerged : turn.status ≠ .merged := by
    intro hmerged
    rw [hmerged] at hskipped
    exact Bool.noConfusion hskipped
  have hvisible : ¬ visibleReplyStatus turn.status turn.liveObservedAt now = .queued := by
    rw [visible_queued_iff]
    exact hqueued
  have hearlier : ∀ r ∈ earlier.filter fun r => decide (r.status ≠ .merged), r.status ≠
      .queued := by
    intro r hr
    have hmem : r ∈ sentRows c original.sendId := by
      rw [hsent]
      exact List.mem_cons_of_mem _ (List.mem_filter.mp hr).1
    exact (mem_sentRows.mp hmem).2
  rw [recoveryTip_eq, hsent, List.filter_cons_of_pos (by simp [hmerged]), List.foldr_cons, nextTip,
    if_neg hvisible]
  simp only [needsRecovery, Bool.and_eq_true, Bool.or_eq_true, decide_eq_true_eq, ne_eq,
    Option.some.injEq, tip_message hearlier, hmessage, hconversation, not_false_eq_true, and_true]
  refine and_congr ?_ ?_
  · constructor
    · intro hstatus
      rcases visible_cases turn.status turn.liveObservedAt now with hsame | hlive
      · exact hsame
      · rw [hlive] at hstatus
        simp [isSettled] at hstatus
    · intro hsame
      rw [hsame]
      exact Or.inl hsettled
  · cases hhead : (earlier.filter fun r => decide (r.status ≠ .merged)).head? with
    | none => simp [hidentified]
    | some r => simp

end Tip

section Recovery

variable {c : Chats} {original : ResultRow} {draft : ReplyRow} {messageId : String} {now : Time}

theorem lower_uuid_ne_empty (h : isUuid messageId = true) : lower messageId ≠ "" := by
  intro hempty
  have hlength : (lower messageId).toList = [] := by rw [hempty, String.toList_empty]
  rw [lower, String.toList_ofList, List.map_eq_nil_iff] at hlength
  rw [isUuid, hlength] at h
  exact Bool.noConfusion h

/-- The follow-up is a row of its chat. -/
theorem Oldest.mem {before : List ReplyRow} (h : Oldest c original draft before) :
    draft ∈ branchRows c draft.sendId := by
  obtain ⟨later, hrows⟩ := h.rows
  rw [hrows]
  exact List.mem_append_right _ List.mem_cons_self

/-- The first turn's recovery succeeds when it sees no sent reply. -/
theorem recoverOriginal_iff (hended : isTerminalRun original.status = true)
    (hfound : c.results.lookup draft.sendId = some original) (hmessage : original.messageId = "")
    (huuid : isUuid messageId = true) :
    (recoverOriginalParent c draft.sendId original.conversationId messageId
        original.assistantText).2 = true ↔
      isUuid original.conversationId = true ∧
        ∀ r ∈ c.replies.rows, r.sendId = draft.sendId → r.status = .queued := by
  have hhits : c.results.hits draft.sendId
      (unidentifiedOriginal original.conversationId original.assistantText) = true := by
    rw [Table.hits_iff]
    exact ⟨original, hfound, by simp [unidentifiedOriginal, hended, hmessage]⟩
  by_cases hconversation : isUuid original.conversationId = true
  · by_cases hsent : (c.replies.rows.any fun r =>
        decide (r.sendId = draft.sendId) && decide (r.status ≠ .queued)) = true
    · have hnot : ¬ ∀ r ∈ c.replies.rows, r.sendId = draft.sendId → r.status = .queued := by
        obtain ⟨r, hr, hguard⟩ := List.any_eq_true.mp hsent
        simp only [Bool.and_eq_true, decide_eq_true_eq] at hguard
        intro hall
        exact hguard.2 (hall r hr hguard.1)
      rw [recoverOriginalParent, if_neg (by simp [hconversation, huuid]), if_pos hsent]
      simp only [Bool.false_eq_true, false_iff, not_and]
      exact fun _ => hnot
    · rw [recoverOriginalParent, if_neg (by simp [hconversation, huuid]), if_neg hsent]
      simp only [updateResult, hhits, hconversation, true_and, true_iff]
      intro r hr hid
      by_contra hqueued
      exact hsent (List.any_eq_true.mpr ⟨r, hr, by simp [hid, hqueued]⟩)
  · rw [recoverOriginalParent, if_pos (by simp [hconversation])]
    simp [hconversation]

/-- With its message the first turn is continued by the follow-up. -/
theorem recoverOriginal_ready {before : List ReplyRow} (h : Oldest c original draft before)
    (hmessage : original.messageId = "") (hfirst : ∀ r ∈ before, isSkipped r.status = true)
    (huuid : isUuid messageId = true) (hconversation : isUuid original.conversationId = true)
    (hunsent : ∀ r ∈ c.replies.rows, r.sendId = draft.sendId → r.status = .queued) :
    (readyDraft (recoverOriginalParent c draft.sendId original.conversationId messageId
      original.assistantText).1 draft).isSome = true := by
  obtain ⟨later, hrows⟩ := h.rows
  have hsent : ¬ (c.replies.rows.any fun r =>
      decide (r.sendId = draft.sendId) && decide (r.status ≠ .queued)) = true := by
    intro hany
    obtain ⟨r, hr, hguard⟩ := List.any_eq_true.mp hany
    simp only [Bool.and_eq_true, decide_eq_true_eq] at hguard
    exact hguard.2 (hunsent r hr hguard.1)
  have hselected : unidentifiedOriginal original.conversationId original.assistantText original =
      true := by
    simp [unidentifiedOriginal, h.ended, hmessage]
  have hcontinuable : continuable (identifiedRow messageId original) = true := by
    have hstatus : original.status ≠ .outcomeUnknown := by
      intro hunknown
      have hended := h.ended
      rw [hunknown] at hended
      exact Bool.noConfusion hended
    simp [continuable, identifiedRow, hstatus, h.ended, h.conversation, lower_uuid_ne_empty huuid]
  rw [recoverOriginalParent, if_neg (by simp [hconversation, huuid]), if_neg hsent]
  rw [readyDraft, updateResult, Table.lookup_updateAt_self, h.found, Option.map_some,
    if_pos hselected, Option.filter_some, if_pos hcontinuable]
  have hwalk : readyParent draft original.conversationId (lower messageId)
      (unmerged (before ++ draft :: later)) = some (lower messageId) :=
    readyParent_draft h.queued hfirst
  change (Option.map _ (readyParent draft original.conversationId (lower messageId)
    (unmerged (branchRows c draft.sendId)))).isSome = true
  rw [hrows, hwalk]
  rfl

/-- The recovery of a reply succeeds when the reply is the last sent one and the row
before it carries the message it continues. -/
theorem recoverReply_iff {turn : ReplyRow} (now : Time)
    (hended : isTerminalRun original.status = true)
    (hfound : c.results.lookup draft.sendId = some original)
    (hturn : turn ∈ branchRows c draft.sendId) (hsettled : isSettled turn.status = true)
    (hconversation : turn.conversationId = original.conversationId)
    (hmessage : turn.messageId = "") (howner : turn.leaseOwner = "")
    (huuid : isUuid messageId = true) (hfresh : lower messageId ≠ lower turn.parentId) :
    (recoverReplyParent c draft.sendId turn.replyId original.conversationId turn.parentId
        turn.userText turn.assistantText messageId now).2 = true ↔
      isUuid original.conversationId = true ∧ isUuid turn.parentId = true ∧
        ∃ earlier, sentRows c draft.sendId = turn :: earlier ∧
          (earlier.head?.map ReplyRow.messageId).getD original.messageId = turn.parentId := by
  have hmem := (mem_branchRows.mp hturn).1
  have hunidentified : unidentified turn = true := by
    have hrecoverable : recoverableParent turn.status = true := by
      cases hstatus : turn.status <;> simp_all [isSettled, recoverableParent]
    simp [unidentified, hrecoverable, hmessage, howner]
  have hhits : c.replies.hits turn.replyId unidentified = true := by
    rw [Table.hits_iff]
    exact ⟨turn, Table.lookup_of_mem hmem, hunidentified⟩
  unfold recoverReplyParent
  by_cases hids : isUuid original.conversationId = true ∧ isUuid turn.parentId = true
  · obtain ⟨hconversationId, hparentId⟩ := hids
    rw [if_neg (by simp [hconversationId, hparentId, huuid, hfresh])]
    simp only [hfound, Option.filter_some, hended, if_true, ne_eq, not_true_eq_false, if_false,
      hconversationId, hparentId, true_and]
    cases hsent : sentRows c draft.sendId with
    | nil => simp
    | cons r earlier =>
      have hrow : r ∈ c.replies.rows := by
        have hr : r ∈ sentRows c draft.sendId := by
          rw [hsent]
          exact List.mem_cons_self
        exact (mem_sentRows.mp hr).1.1
      by_cases hsame : r = turn
      · subst hsame
        by_cases hparent : (earlier.head?.map ReplyRow.messageId).getD original.messageId =
            r.parentId
        · simp [hconversation, hunidentified, hparent, updateReply, hhits]
        · simp [hconversation, hunidentified, hparent]
      · have hid : r.replyId ≠ turn.replyId := by
          intro hid
          have hlookup := Table.lookup_of_mem hrow
          rw [hid, Table.lookup_of_mem hmem, Option.some.injEq] at hlookup
          exact hsame hlookup.symm
        simp [hid, hsame]
  · rw [if_pos (by
      by_cases hconversationId : isUuid original.conversationId = true
      · have hparentId : ¬ isUuid turn.parentId = true := fun h => hids ⟨hconversationId, h⟩
        simp [hparentId]
      · simp [hconversationId])]
    simp only [Bool.false_eq_true, false_iff, not_and]
    intro hconversationId hparentId
    exact absurd ⟨hconversationId, hparentId⟩ hids

/-- A recovery that succeeds is the update of the reply's row. -/
theorem recoverReply_update {replyId conversationId previousParentId : String}
    {userText assistantText : Text}
    (h : (recoverReplyParent c draft.sendId replyId conversationId previousParentId userText
      assistantText messageId now).2 = true) :
    recoverReplyParent c draft.sendId replyId conversationId previousParentId userText
        assistantText messageId now =
      updateReply c replyId unidentified (identifiedReply messageId now) fun _ => id rfl := by
  unfold recoverReplyParent at h ⊢
  split at h
  · exact Bool.noConfusion h
  rename_i hids
  rw [if_neg hids]
  split at h
  · exact Bool.noConfusion h
  split at h
  · exact Bool.noConfusion h
  rename_i hconversation
  rw [if_neg hconversation]
  split at h
  · exact Bool.noConfusion h
  split at h
  · exact Bool.noConfusion h
  rename_i hrow
  rw [if_neg hrow]
  split at h
  · exact Bool.noConfusion h
  rename_i hparent
  rw [if_neg hparent]

/-- With its message the reply is continued by the follow-up. -/
theorem recoverReply_ready {earlier skipped : List ReplyRow} {turn : ReplyRow}
    (h : Oldest c original draft (earlier ++ turn :: skipped))
    (hidentified : original.messageId ≠ "")
    (hwalk : branchTip original.conversationId original.messageId earlier = .ok turn.parentId)
    (hsettled : isSettled turn.status = true)
    (hconversation : turn.conversationId = original.conversationId)
    (hskipped : ∀ r ∈ skipped, isSkipped r.status = true) (hunidentified : unidentified turn = true)
    (huuid : isUuid messageId = true) :
    (readyDraft (updateReply c turn.replyId unidentified (identifiedReply messageId now)
      fun _ => id rfl).1 draft).isSome = true := by
  obtain ⟨later, hrows⟩ := h.rows
  have hnodup := branchRows_nodup c draft.sendId
  rw [hrows] at hnodup
  simp only [List.append_assoc, List.cons_append, List.map_append, List.map_cons,
    List.nodup_append, List.mem_map, List.mem_cons, List.mem_append, List.nodup_cons] at hnodup
  obtain ⟨_, ⟨hturn, _⟩, hbefore⟩ := hnodup
  have hdraft : turn.replyId ≠ draft.replyId := fun heq => hturn (Or.inr (Or.inl heq))
  -- only the row of the turn changes
  have hchanged : branchRows
      (updateReply c turn.replyId unidentified (identifiedReply messageId now)
      fun _ => id rfl).1 draft.sendId =
        earlier ++ identifiedReply messageId now turn :: (skipped ++ draft :: later) := by
    have hother : ∀ rows : List ReplyRow, (∀ r ∈ rows, r.replyId ≠ turn.replyId) →
        rows.map (fun r => if decide (r.replyId = turn.replyId) && unidentified r then
          identifiedReply messageId now r else r) = rows := by
      intro rows hne
      have hsame : rows.map (fun r => if decide (r.replyId = turn.replyId) && unidentified r then
          identifiedReply messageId now r else r) = rows.map id := by
        refine List.map_congr_left ?_
        intro r hr
        simp [hne r hr]
      rw [hsame, List.map_id]
    rw [branchRows_updateReply turn.replyId unidentified (identifiedReply messageId now)
      (fun _ => id rfl) (fun _ => id rfl) (fun _ => id rfl), hrows, List.append_assoc,
      List.cons_append, List.map_append, List.map_cons, hother earlier,
      hother (skipped ++ draft :: later)]
    · simp [hunidentified]
    · intro r hr heq
      rcases List.mem_append.mp hr with hr | hr
      · exact hturn (Or.inl ⟨r, hr, heq⟩)
      · rcases List.mem_cons.mp hr with rfl | hr
        · exact hdraft heq.symm
        · exact hturn (Or.inr (Or.inr ⟨r, hr, heq⟩))
    · intro r hr heq
      exact hbefore _ ⟨r, hr, rfl⟩ _ (Or.inl rfl) heq
  have hcontinuable : continuable original = true := by
    simp [continuable, h.ended, h.conversation, hidentified]
  have hearlier : ∀ r ∈ earlier, r.replyId ≠ draft.replyId := by
    intro r hr
    exact hbefore _ ⟨r, hr, rfl⟩ _ (Or.inr (Or.inr (Or.inl rfl)))
  have hstatus : (identifiedReply messageId now turn).status = turn.status := by
    have hknown : turn.status ≠ .outcomeUnknown := by
      intro hunknown
      rw [hunknown] at hsettled
      exact Bool.noConfusion hsettled
    simp [identifiedReply, hknown]
  have hready : readyParent draft original.conversationId original.messageId
      (unmerged (earlier ++ identifiedReply messageId now turn :: (skipped ++ draft :: later))) =
        some (lower messageId) := by
    rw [readyParent_walk hwalk hearlier]
    have hpassed : isSkipped (identifiedReply messageId now turn).status = false := by
      rw [hstatus]
      exact (skipped_not_settled hsettled).1
    have hother : (identifiedReply messageId now turn).replyId ≠ draft.replyId := hdraft
    rw [unmerged_cons hpassed, readyParent, if_neg (by simp [hpassed]), if_neg hother, if_pos]
    · exact readyParent_draft h.queued hskipped
    · rw [hstatus, hsettled]
      simp [identifiedReply, lower_uuid_ne_empty huuid, hconversation]
  have hlookup : (updateReply c turn.replyId unidentified (identifiedReply messageId now)
      fun _ => id rfl).1.results.lookup draft.sendId = some original := h.found
  rw [readyDraft, hlookup, Option.filter_some, if_pos hcontinuable]
  dsimp only
  rw [hchanged]
  rw [unmerged] at hready
  rw [hready]
  rfl

end Recovery

section Reachable

/-- A queued follow-up was queued by the user, and a settled reply has no owner. -/
structure Tidy (r : ReplyRow) : Prop where
  user : r.status = .queued → r.queuedByUser = true
  unowned : isSettled r.status = true → r.leaseOwner = ""

theorem change_tidy {lib : Stdlib} {s : Store} {call : Call} {a b : ReplyRow}
    (h : ReplyChange lib s call a b) (ha : Tidy a) : Tidy b := by
  cases h with
  | failed => exact ⟨(fun hended => by cases hended), (fun hended => by cases hended)⟩
  | rearmed => exact ⟨(fun hended => by cases hended), (fun hended => by cases hended)⟩
  | authorized => exact ⟨fun _ => rfl, ha.unowned⟩
  | bound => exact ⟨(fun hended => by cases hended), (fun hended => by cases hended)⟩
  | identified messageId h =>
    simp only [unidentified, Bool.and_eq_true, decide_eq_true_eq] at h
    refine ⟨?_, fun _ => h.2⟩
    unfold identifiedReply
    dsimp only
    split
    · simp
    · exact ha.user
  | claimed => exact ⟨(fun hended => by cases hended), (fun hended => by cases hended)⟩
  | submitted => exact ⟨(fun hended => by cases hended), (fun hended => by cases hended)⟩
  | accepted => exact ⟨(fun hended => by cases hended), (fun hended => by cases hended)⟩
  | observed owner capture =>
    by_cases hcomplete : capture.status = .complete
    · exact ⟨by simp [observeRow, hcomplete], by simp [observeRow, hcomplete]⟩
    · exact ⟨by simp [observeRow, hcomplete], by simp [observeRow, hcomplete, isSettled]⟩
  | progress => exact ⟨ha.user, ha.unowned⟩
  | renewed => exact ⟨ha.user, ha.unowned⟩
  | ended _ uncertain =>
    refine ⟨?_, fun _ => rfl⟩
    unfold endedReply
    dsimp only
    split <;> simp
  | orphaned =>
    refine ⟨?_, fun _ => rfl⟩
    unfold endedReply
    dsimp only
    split <;> simp
  | detached => exact ⟨(fun hended => by cases hended), (fun hended => by cases hended)⟩
  | loaded => exact ⟨ha.user, ha.unowned⟩
  | recovered capture _ h =>
    simp only [detachedReply, Bool.and_eq_true, decide_eq_true_eq] at h
    refine ⟨?_, fun _ => h.2⟩
    unfold recoverReplyRow
    dsimp only
    split
    · simp
    · exact ha.user
  | cancelled => exact ⟨(fun hended => by cases hended), (fun hended => by cases hended)⟩
  | stopped => exact ⟨(fun hended => by cases hended), fun _ => rfl⟩

theorem new_tidy {s : Store} {call : Call} {r : ReplyRow} (h : NewReply s call r) : Tidy r := by
  cases h with
  | prepared => exact ⟨nofun, nofun⟩
  | followup => exact ⟨fun _ => rfl, fun _ => rfl⟩

theorem reachable_tidy (lib : Stdlib) (run : List Call) :
    ∀ r ∈ (final (step lib) Store.empty run).chats.replies.rows, Tidy r := by
  refine final_invariant (step lib) (fun _ => True)
    (fun s => ∀ r ∈ s.chats.replies.rows, Tidy r) ?_ Store.empty ?_ run fun _ _ => trivial
  · intro s call _ hs
    exact (step_replies lib s call).keeps (fun _ _ h => change_tidy h) (fun _ h => new_tidy h) hs
  · exact fun r hr => absurd hr List.not_mem_nil

/-- In every state that is reached, a follow-up held back by a missing message is
recovered if and only if the conversation has a UUID and the recovery sees the turn. -/
theorem followup_recovered_iff (lib : Stdlib) (run : List Call) (original : ResultRow)
    (draft : ReplyRow) (turn : Option ReplyRow) (messageId : String) (now : Time)
    (hheld : HeldBack (final (step lib) Store.empty run).chats original draft turn)
    (hfresh : Fresh (final (step lib) Store.empty run).chats draft.sendId messageId) :
    Recovered (final (step lib) Store.empty run).chats original draft messageId now turn ↔
      isUuid original.conversationId = true ∧
        SeesTurn (final (step lib) Store.empty run).chats original draft now turn := by
  have htidy := reachable_tidy lib run
  generalize (final (step lib) Store.empty run).chats = c at hheld hfresh htidy ⊢
  cases hheld with
  | byOriginal before h hmessage hfirst =>
    have hid : original.sendId = draft.sendId := Table.lookup_key h.found
    have hdraft := (mem_branchRows.mp h.mem).1
    have hsucceeds := recoverOriginal_iff h.ended h.found hmessage hfresh.uuid
    constructor
    · rintro ⟨_, hrecovered, _⟩
      exact hsucceeds.mp hrecovered
    · rintro ⟨hconversation, hunsent⟩
      refine ⟨?_, hsucceeds.mpr ⟨hconversation, hunsent⟩, ?_⟩
      · rw [listed_iff now hdraft ((htidy draft hdraft).user h.queued) h.queued h.found]
        refine needsRecovery_original ?_ h.ended h.conversation hmessage
        rw [List.eq_nil_iff_forall_not_mem]
        intro r hr
        obtain ⟨⟨hrow, hchat⟩, hsent⟩ := mem_sentRows.mp hr
        exact hsent (hunsent r hrow (hchat.trans hid))
      · exact recoverOriginal_ready h hmessage hfirst hfresh.uuid hconversation hunsent
  | byReply earlier turn skipped h hidentified hwalk hsettled hconversation hmessage hskipped =>
    have hid : original.sendId = draft.sendId := Table.lookup_key h.found
    have hdraft := (mem_branchRows.mp h.mem).1
    obtain ⟨later, hrows⟩ := h.rows
    have hbranch : ∀ r ∈ earlier ++ turn :: skipped, r ∈ branchRows c draft.sendId := by
      intro r hr
      rw [hrows]
      exact List.mem_append_left _ hr
    have hturn : turn ∈ branchRows c draft.sendId :=
      hbranch turn (List.mem_append_right _ List.mem_cons_self)
    have howner := (htidy turn (mem_branchRows.mp hturn).1).unowned hsettled
    have hdistinct : lower messageId ≠ lower turn.parentId := by
      rcases branchTip_source hwalk with hparent | ⟨r, hr, hparent⟩
      · rw [hparent]
        exact hfresh.original original h.found
      · rw [← hparent]
        obtain ⟨hrow, hchat⟩ := mem_branchRows.mp (hbranch r (List.mem_append_left _ hr))
        exact hfresh.replies r hrow hchat
    have hlisted := listed_iff now hdraft ((htidy draft hdraft).user h.queued) h.queued h.found
    have hsucceeds := recoverReply_iff now h.ended h.found hturn hsettled hconversation
      hmessage howner hfresh.uuid hdistinct
    have hturnConversation : turn.conversationId ≠ "" := by
      rw [hconversation]
      exact h.conversation
    constructor
    · rintro ⟨hin, hrecovered, _⟩
      obtain ⟨huuid, hparent, sent, hsent, hbefore⟩ := hsucceeds.mp hrecovered
      rw [hlisted, needsRecovery_reply (hid ▸ hsent) hsettled hturnConversation hmessage
        hidentified]
        at hin
      exact ⟨huuid, hparent, hin.1, sent, hsent, hbefore, hin.2⟩
    · rintro ⟨huuid, hparent, hshown, sent, hsent, hbefore, hunmerged⟩
      have hrecovered := hsucceeds.mpr ⟨huuid, hparent, sent, hsent, hbefore⟩
      refine ⟨?_, hrecovered, ?_⟩
      · rw [hlisted, needsRecovery_reply (hid ▸ hsent) hsettled hturnConversation hmessage
          hidentified]
        exact ⟨hshown, hunmerged⟩
      · have hunidentified : unidentified turn = true := by
          have hrecoverable : recoverableParent turn.status = true := by
            cases hstatus : turn.status <;> simp_all [isSettled, recoverableParent]
          simp [unidentified, hrecoverable, hmessage, howner]
        rw [recoverTurn, recoverReply_update hrecovered]
        exact recoverReply_ready h hidentified hwalk hsettled hconversation hskipped hunidentified
          hfresh.uuid

end Reachable

/-- The user's follow-up waits for the first turn, which ended without a message. -/
def waitingRun : List Call :=
  [⟨.queue (.claimNext "worker-1" 30 false none fun _ => true), 12⟩,
    ⟨.result (.accept "manual-1" "worker-1" 200), 13⟩,
    ⟨.result (.bindConversationRoute "manual-1" "worker-1"
      "/c/11111111-1111-4111-8111-111111111111"), 14⟩,
    ⟨.result (.finish "manual-1" "worker-1" .interrupted), 15⟩,
    ⟨.reply (.queueFollowup "manual-1" "followup-2-000000" ['g', 'o'] true), 16⟩]

def firstMessage : Call :=
  ⟨.queue (.enqueue ⟨"manual-1", ['h', 'i'], "", [], false, false⟩ true), 10⟩

/-- An earlier follow-up, which is merged into the first message. -/
def earlyFollowup : Call :=
  ⟨.reply (.queueFollowup "manual-1" "followup-1-000000" ['s', 'o'] true), 11⟩

def endedTurn (userText : Text) : ResultRow :=
  { sendId := "manual-1", userText := userText, status := .interrupted,
    conversationId := "11111111-1111-4111-8111-111111111111", createdAt := 10, acceptedAt := 13,
    updatedAt := 15, finishedAt := 15, captureDeadline := 200 }

def waitingDraft : ReplyRow :=
  followupRow "manual-1" "followup-2-000000" ['g', 'o'] .queued "" 16

def recoveredId : String := "22222222-2222-4222-8222-222222222222"

theorem followup_recovered_alone :
    Recovered (final (step plainLib) Store.empty (firstMessage :: waitingRun)).chats
      (endedTurn ['h', 'i']) waitingDraft recoveredId 17 none := by
  refine (followup_recovered_iff plainLib (firstMessage :: waitingRun) _ _ none recoveredId 17
    ?_ ?_).mpr ?_
  · refine HeldBack.byOriginal [] ⟨?_, rfl, ?_, ⟨[], ?_⟩, rfl, ?_⟩ rfl ?_ <;> decide +kernel
  · refine ⟨?_, ?_, ?_⟩ <;> decide +kernel
  · refine ⟨?_, ?_⟩
    · decide +kernel
    · change ∀ r ∈ _, _
      decide +kernel

/-- After a merged follow-up the chat is listed, and its recovery is refused. -/
theorem merged_unrecovered :
    let c := (final (step plainLib) Store.empty (firstMessage :: earlyFollowup :: waitingRun)).chats
    let original := endedTurn ['h', 'i', '\n', '\n', 's', 'o']
    HeldBack c original waitingDraft none ∧ Fresh c "manual-1" recoveredId ∧
      "manual-1" ∈ queuedRecoveryCandidates c 17 ∧
      ¬ Recovered c original waitingDraft recoveredId 17 none := by
  intro c original
  refine ⟨?_, ?_, ?_, ?_⟩
  · refine HeldBack.byOriginal [followupRow "manual-1" "followup-1-000000" ['s', 'o'] .merged
      (plainLib.sha256 ['h', 'i']) 11] ⟨?_, rfl, ?_, ⟨[], ?_⟩, rfl, ?_⟩ rfl ?_ <;> decide +kernel
  · refine ⟨?_, ?_, ?_⟩ <;> decide +kernel
  · decide +kernel
  · rintro ⟨_, hrecovered, _⟩
    revert hrecovered
    decide +kernel

end Prompta.FollowupRecovery
