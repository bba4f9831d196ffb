import Prompta.AtMostOnce
import Prompta.BranchLineage

/-!
Follow-ups of a chat that is not sent yet. A follow-up is appended to the first prompt
as long as no worker has touched the delivery and the chat has no other reply, and it
is a reply of its own from then on. The delivery, the transcript and the merge receipts
of a chat tell the same list of follow-ups in every state of a run.
-/
namespace Prompta.FollowupMerges

open Runs Relation Tables Texts DisplayBlocks Schema ResponseStore ReplyStore DeliveryQueue
  Service BranchLineage AtMostOnce

/-- The first prompt with each follow-up behind a blank line. -/
def withFollowups (prompt : Text) (texts : List Text) : Text :=
  texts.foldl (fun message text => message ++ ['\n', '\n'] ++ text) prompt

theorem withFollowups_append (prompt : Text) (texts : List Text) (text : Text) :
    withFollowups prompt (texts ++ [text]) =
      withFollowups prompt texts ++ ['\n', '\n'] ++ text := by
  unfold withFollowups
  rw [List.foldl_append]
  rfl

theorem prefix_withFollowups (prompt : Text) (texts : List Text) :
    prompt <+: withFollowups prompt texts := by
  induction texts using List.reverseRecOn with
  | nil => exact List.prefix_rfl
  | append_singleton texts text ih =>
    rw [withFollowups_append, List.append_assoc]
    exact ih.trans (List.prefix_append _ _)

def mergedTexts (c : Chats) (sendId : String) : List Text :=
  ((chatRows c sendId).filter fun r => decide (r.status = .merged)).map ReplyRow.userText

/-- The event answers a follow-up of the chat with a row. -/
def Answers (e : ServiceEvent) (sendId replyId : String) (text : Text) (row : ReplyRow) : Prop :=
  (∃ withQueue, e.input.action = .reply (.queueFollowup sendId replyId text withQueue)) ∧
    e.output = .turn (.ok row)

/-- The text that the event merges into the first prompt of the chat. -/
def mergedBy (sendId : String) (e : ServiceEvent) : Option Text :=
  match e.input.action, e.output with
  | .reply (.queueFollowup chat replyId text _), .turn (.ok row) =>
    if chat = sendId ∧ row.status = .merged ∧ e.pre.chats.replies.lookup replyId = none then
      some text
    else none
  | _, _ => none

def Claims (e : ServiceEvent) (d : Delivery) : Prop :=
  (∃ owner leaseSeconds fireAndForget maxActive answers,
    e.input.action = .queue (.claimNext owner leaseSeconds fireAndForget maxActive answers)) ∧
    e.output = .delivery (some d)

/-- What the stores and the events say of the follow-ups of a chat with this prompt. -/
structure FollowupsKept (sendId : String) (prompt : Text) (history : List ServiceEvent)
    (s : Store) : Prop where
  message : ∃ d, s.queue.lookup sendId = some d ∧
    d.message = withFollowups prompt (history.filterMap (mergedBy sendId)) ∧
    ∀ r, s.chats.results.lookup sendId = some r → r.userText = d.message.take maxText
  receipts : mergedTexts s.chats sendId = history.filterMap (mergedBy sendId)
  once : ∀ e ∈ history, ∀ replyId text row, Answers e sendId replyId text row →
    ∃ r ∈ s.chats.replies.rows, (∀ r' ∈ s.chats.replies.rows, r'.replyId = replyId → r' = r) ∧
      r.replyId = replyId ∧ r.sendId = sendId ∧ r.userText = text ∧
      (r.status = .merged ↔ row.status = .merged)
  first : ∀ e ∈ history, ∀ text, mergedBy sendId e = some text →
    ∀ r ∈ chatRows e.pre.chats sendId, r.status = .merged
  sealed : ∀ earlier e later, history = earlier ++ e :: later → ∀ d, Claims e d →
    d.sendId = sendId → ∀ b ∈ later, ∃ d', b.post.queue.lookup sendId = some d' ∧
      d'.message = d.message

/-- What stays of a reply for good. -/
structure Receipt where
  replyId : String
  sendId : String
  text : Text
  merged : Bool

def receipt (r : ReplyRow) : Receipt :=
  ⟨r.replyId, r.sendId, r.userText, decide (r.status = .merged)⟩

theorem active_not_merged {status : ReplyStatus} (h : activeReply status = true) :
    status ≠ .merged := by
  rintro rfl
  exact nomatch h

/-- No change leaves or reaches a merge receipt, and none rewrites a text. -/
theorem change_unmerged {lib : Stdlib} {s : Store} {call : Call} {a b : ReplyRow}
    (h : ReplyChange lib s call a b) :
    a.status ≠ .merged ∧ b.status ≠ .merged ∧ b.userText = a.userText := by
  have hlive : ∀ {owner : String}, liveDispatch owner call.now a = true → a.status ≠ .merged := by
    intro owner hlive
    simp only [liveDispatch, Bool.and_eq_true] at hlive
    exact active_not_merged hlive.1.1
  have hended : ∀ uncertain, (endedReply uncertain call.now a).status ≠ .merged := by
    intro uncertain
    simp only [endedReply]
    split <;> simp
  cases h with
  | failed h => exact ⟨by simp [h], (fun hended => by cases hended), rfl⟩
  | rearmed h => exact ⟨by simp [h], (fun hended => by cases hended), rfl⟩
  | bound intent exclude hcall h => exact ⟨by simp [h], (fun hended => by cases hended), rfl⟩
  | claimed owner deadline hcall howner hdeadline h =>
    exact ⟨by simp [h], (fun hended => by cases hended), rfl⟩
  | authorized h =>
    have ha : a.status ≠ .merged := by
      rw [h]
      simp
    exact ⟨ha, ha, rfl⟩
  | identified messageId h =>
    have ha : a.status ≠ .merged := by
      intro hmerged
      simp only [unidentified, hmerged, Bool.and_eq_true] at h
      exact absurd h.1.1 (by decide)
    refine ⟨ha, ?_, rfl⟩
    simp only [identifiedReply]
    split
    · simp
    · exact ha
  | submitted owner hcall h => exact ⟨hlive h, (fun hended => by cases hended), rfl⟩
  | accepted owner messageId responseParent hcall h =>
    exact ⟨hlive h, (fun hended => by cases hended), rfl⟩
  | observed owner capture hcall h =>
    refine ⟨hlive h, ?_, rfl⟩
    simp only [observeRow]
    split <;> simp
  | progress owner capture hcall h => exact ⟨hlive h, hlive h, rfl⟩
  | renewed owner deadline hcall h => exact ⟨hlive h, hlive h, rfl⟩
  | ended owner uncertain hcall h => exact ⟨active_not_merged h, hended uncertain, rfl⟩
  | orphaned h => exact ⟨active_not_merged h, hended true, rfl⟩
  | detached sendIds replyIds hcall h =>
    refine ⟨?_, (fun hended => by cases hended), rfl⟩
    intro hmerged
    simp only [ownedReply, hmerged, Bool.and_eq_true] at h
    exact absurd h.1.1 (by decide)
  | loaded h =>
    have ha : a.status ≠ .merged := by
      intro hmerged
      simp only [detachedReply, hmerged, Bool.and_eq_true] at h
      exact absurd h.1 (by decide)
    exact ⟨ha, ha, rfl⟩
  | recovered capture hcall h =>
    have ha : a.status ≠ .merged := by
      intro hmerged
      simp only [detachedReply, hmerged, Bool.and_eq_true] at h
      exact absurd h.1 (by decide)
    refine ⟨ha, ?_, rfl⟩
    simp only [recoverReplyRow]
    split
    · simp
    · exact ha
  | cancelled h =>
    refine ⟨?_, (fun hended => by cases hended), rfl⟩
    intro hmerged
    rw [hmerged] at h
    cases h
  | stopped h =>
    refine ⟨?_, (fun hended => by cases hended), rfl⟩
    intro hmerged
    rw [hmerged] at h
    cases h

theorem change_receipt {lib : Stdlib} {s : Store} {call : Call} {a b : ReplyRow}
    (h : ReplyChange lib s call a b) : receipt b = receipt a := by
  obtain ⟨ha, hb, htext⟩ := change_unmerged h
  simp only [receipt, h.replyId_eq, h.sendId_eq, htext, ha, hb]

/-- A merge receipt is what it was when it was written. -/
theorem merged_unchanged {lib : Stdlib} {s : Store} {call : Call} {a b : ReplyRow}
    (h : ReflTransGen (ReplyChange lib s call) a b) (hb : b.status = .merged) : b = a := by
  cases h with
  | refl => rfl
  | tail _ hlast => exact absurd hb (change_unmerged hlast).2.1

/-- The receipts of all replies, in the order of the table. -/
def receipts (c : Chats) : List Receipt := c.replies.rows.map receipt

theorem mergedTexts_eq (c : Chats) (sendId : String) :
    mergedTexts c sendId = ((receipts c).filter fun x =>
      decide (x.sendId = sendId) && x.merged).map Receipt.text := by
  unfold mergedTexts chatRows receipts
  rw [List.filter_filter, List.filter_map, List.map_map]
  simp only [Function.comp_def, receipt, Bool.and_comm]
  rfl

/-- A step appends receipts, those of the rows it adds. -/
theorem step_receipts (lib : Stdlib) (s : Store) (call : Call) :
    ∃ new, receipts (step lib s call).1.chats = receipts s.chats ++ new ∧
      ∀ x ∈ new, ∃ r, NewReply s call r ∧ receipt r = x := by
  obtain ⟨old, new, hrows, hold, hnew⟩ := (step_replies lib s call).rows
  refine ⟨new.map receipt, ?_, ?_⟩
  · rw [receipts, receipts, hrows, List.map_append,
      forall₂_map_eq (fun _ _ h => change_receipt h) hold]
  · intro x hx
    obtain ⟨r, hr, rfl⟩ := List.mem_map.mp hx
    obtain ⟨a, ha, har⟩ := hnew r hr
    exact ⟨a, ha, (reflTransGen_field (fun _ _ h => change_receipt h) har).symm⟩

/-- Only a follow-up adds a merge receipt. -/
theorem step_mergedTexts (lib : Stdlib) (s : Store) (call : Call) (hcall : followsUp call = false)
    (sendId : String) :
    mergedTexts (step lib s call).1.chats sendId = mergedTexts s.chats sendId := by
  obtain ⟨new, hreceipts, hnew⟩ := step_receipts lib s call
  have hnone : (new.filter fun x => decide (x.sendId = sendId) && x.merged) = [] := by
    rw [List.filter_eq_nil_iff]
    intro x hx
    obtain ⟨r, hr, rfl⟩ := hnew x hx
    cases hr with
    | prepared => simp [receipt, preparedRow]
    | followup _ _ _ _ _ _ _ _ _ hfollows =>
      rw [hcall] at hfollows
      exact Bool.noConfusion hfollows
  rw [mergedTexts_eq, mergedTexts_eq, hreceipts, List.filter_append, hnone, List.append_nil]

/-- Only a follow-up rewrites the message of a delivery. -/
theorem step_message (lib : Stdlib) (s : Store) (call : Call) (hcall : followsUp call = false)
    {sendId : String} {d : Delivery} (hd : s.queue.lookup sendId = some d) :
    ∃ d', (step lib s call).1.queue.lookup sendId = some d' ∧ d'.message = d.message := by
  obtain ⟨d', hd', hchange⟩ :=
    (step_deliveries s call lib).lookup_some (fun _ _ h => h.sendId_eq) hd
  refine ⟨d', hd', reflTransGen_field (f := Delivery.message) ?_ hchange⟩
  intro a b hab
  cases hab with
  | edited message oneTime priority updatedAt h hmessage =>
    rcases hmessage with hsame | ⟨_, hfollows⟩
    · exact hsame
    · rw [hcall] at hfollows
      exact Bool.noConfusion hfollows
  | _ => rfl

section Outcome

variable (lib : Stdlib) (s : Store) (sendId replyId : String) (text : Text) (now : Time)

/-- The stores with a follow-up as a reply of its own. -/
def queuedStore (row : ReplyRow) : Store :=
  { s with chats := { s.chats with replies := s.chats.replies.insertNew row } }

/-- The stores with a follow-up in the first prompt. -/
def mergedStore (combined : Text) (row : ReplyRow) : Store :=
  { queue := s.queue.updateAt sendId untouched (combinedDelivery combined now)
      (combinedDelivery_sendId combined now)
    chats :=
      { (updateResult s.chats sendId (fun r => decide (r.status = .queued))
          (combinedRow combined now) (combinedRow_sendId combined now)).1 with
        replies := s.chats.replies.insertNew row } }

variable {s sendId now} in
/-- The queue after a merge: the untouched delivery has the combined text. -/
theorem mergedStore_delivery {combined : Text} {row : ReplyRow} (k : String) :
    (mergedStore s sendId now combined row).queue.lookup k =
      if k = sendId then (s.queue.lookup k).map fun d =>
        if untouched d then combinedDelivery combined now d else d
      else s.queue.lookup k := by
  by_cases hk : k = sendId
  · rw [if_pos hk, hk]
    exact Table.lookup_updateAt_self s.queue sendId untouched (combinedDelivery combined now)
      fun _ => id rfl
  · rw [if_neg hk]
    exact Table.lookup_updateAt_ne s.queue sendId k untouched (combinedDelivery combined now)
      (fun _ => id rfl) hk

variable {s sendId now} in
/-- The transcript after a merge: a queued row has the combined text. -/
theorem mergedStore_result {combined : Text} {row : ReplyRow} (k : String) :
    (mergedStore s sendId now combined row).chats.results.lookup k =
      if k = sendId then (s.chats.results.lookup k).map fun r =>
        if decide (r.status = .queued) then combinedRow combined now r else r
      else s.chats.results.lookup k := by
  by_cases hk : k = sendId
  · rw [if_pos hk, hk]
    exact Table.lookup_updateAt_self s.chats.results sendId _ (combinedRow combined now)
      fun _ => id rfl
  · rw [if_neg hk]
    exact Table.lookup_updateAt_ne s.chats.results sendId k _ (combinedRow combined now)
      (fun _ => id rfl) hk

/-- What becomes of a follow-up. -/
inductive FollowupOutcome : Store × Except Refusal ReplyRow → Prop
  | refused (refusal : Refusal) : FollowupOutcome (s, .error refusal)
  | repeated (row : ReplyRow) (hrow : s.chats.replies.lookup replyId = some row)
      (hchat : row.sendId = sendId) (htext : row.userText = text) : FollowupOutcome (s, .ok row)
  | queued (row : ReplyRow) (hrow : row = followupRow sendId replyId text .queued "" now)
      (hfree : s.chats.replies.lookup replyId = none) :
      FollowupOutcome (queuedStore s row, .ok row)
  | merged (row : ReplyRow) (d : Delivery) (original : ResultRow) (combined : Text)
      (hrow : row = followupRow sendId replyId text .merged
        (initialHash lib s.chats sendId d.message) now)
      (hfree : s.chats.replies.lookup replyId = none)
      (hd : s.queue.lookup sendId = some d) (huntouched : untouched d = true)
      (horiginal : s.chats.results.lookup sendId = some original)
      (hstatus : original.status = .queued)
      (hfirst : ∀ r ∈ chatRows s.chats sendId, r.status = .merged)
      (hcombined : combined = d.message ++ ['\n', '\n'] ++ text)
      (hlength : combined.length ≤ 32000) :
      FollowupOutcome (mergedStore s sendId now combined row, .ok row)

/-- A merge has a queued delivery that no worker has touched, and no other reply. -/
theorem mergeTarget_some {withQueue : Bool} {original : ResultRow} {d : Delivery} {combined : Text}
    (h : mergeTarget s sendId withQueue original text = some (d, combined)) :
    s.queue.lookup sendId = some d ∧ untouched d = true ∧ original.status = .queued ∧
      (∀ r ∈ chatRows s.chats sendId, r.status = .merged) ∧
      combined = d.message ++ ['\n', '\n'] ++ text ∧ combined.length ≤ 32000 := by
  unfold mergeTarget at h
  split at h
  · rename_i hqueued
    simp only [Bool.and_eq_true, decide_eq_true_eq] at hqueued
    split at h
    · rename_i d' hfound
      obtain ⟨hd, huntouched⟩ := Option.filter_eq_some_iff.mp hfound
      dsimp only at h
      split at h
      · rename_i hguard
        obtain ⟨hnone, hlength⟩ := hguard
        simp only [Option.some.injEq, Prod.mk.injEq] at h
        obtain ⟨rfl, rfl⟩ := h
        refine ⟨hd, huntouched, hqueued.2, ?_, rfl, hlength⟩
        intro r hr
        obtain ⟨hmem, hchat⟩ := mem_chatRows.mp hr
        rw [List.countP_eq_zero] at hnone
        have hrow := hnone r hmem
        simpa [hchat] using hrow
      · cases h
    · cases h
  · cases h

theorem followup_outcome (withQueue : Bool) :
    FollowupOutcome lib s sendId replyId text now
      (queueFollowup lib s sendId replyId text withQueue now) := by
  unfold queueFollowup
  split
  · exact FollowupOutcome.refused _
  split
  · exact FollowupOutcome.refused _
  split
  · rename_i existing hexisting
    split
    · rename_i hsame
      exact FollowupOutcome.repeated existing hexisting hsame.1 hsame.2.1
    · exact FollowupOutcome.refused _
  rename_i hfree
  split
  · exact FollowupOutcome.refused _
  rename_i original horiginal
  split
  · exact FollowupOutcome.refused _
  split
  · rename_i d combined htarget
    obtain ⟨hd, huntouched, hstatus, hfirst, hcombined, hlength⟩ :=
      mergeTarget_some s sendId text htarget
    exact FollowupOutcome.merged _ d original combined rfl hfree hd huntouched horiginal hstatus
      hfirst hcombined hlength
  · exact FollowupOutcome.queued _ rfl hfree

end Outcome

/-- The texts that the delivery and the transcript show are those of the receipts. -/
def Told (sendId : String) (prompt : Text) (s : Store) : Prop :=
  ∃ d, s.queue.lookup sendId = some d ∧
    d.message = withFollowups prompt (mergedTexts s.chats sendId) ∧
    ∀ r, s.chats.results.lookup sendId = some r → r.userText = d.message.take maxText

/-- A row of the results shows the text of its delivery. -/
theorem ensureQueued_userText (c : Chats) (sendId : String) (userText : Text) (jobName : String)
    (now : Time) {k : String} {r' : ResultRow}
    (h : (ensureQueued c sendId userText jobName now).results.lookup k = some r') :
    (∃ r, c.results.lookup k = some r ∧ r'.userText = r.userText) ∨
      (k = sendId ∧ r'.userText = userText.take maxText) := by
  have hinserted : ∀ {row r : ResultRow}, row.sendId = sendId →
      row.userText = userText.take maxText → (c.results.insertNew row).lookup k = some r →
      (∃ old, c.results.lookup k = some old ∧ r.userText = old.userText) ∨
        (k = sendId ∧ r.userText = userText.take maxText) := by
    intro row r hid htext hr
    rcases Table.mem_insertNew (Table.lookup_mem hr) with hold | ⟨rfl, _⟩
    · exact Or.inl ⟨r, Table.lookup_eq_some_iff.mpr ⟨hold, Table.lookup_key hr⟩, rfl⟩
    · exact Or.inr ⟨(Table.lookup_key hr).symm.trans hid, htext⟩
  unfold ensureQueued at h
  dsimp only at h
  split at h
  · exact hinserted rfl rfl h
  · by_cases hk : k = sendId
    · subst hk
      simp only [updateResult, Table.lookup_updateAt_self, Option.map_eq_some_iff] at h
      obtain ⟨r, hr, hrow⟩ := h
      have htext : r'.userText = r.userText := by
        rw [← hrow]
        split <;> rfl
      rw [htext]
      exact hinserted rfl rfl hr
    · simp only [updateResult, Table.lookup_updateAt_ne _ _ _ _ _ _ hk] at h
      exact hinserted rfl rfl h

/-- After an enqueue every row of the results is an old one, or it shows the message of
its delivery. -/
theorem enqueue_userText (s : Store) (record : DeliveryRecord) (answers : Bool) (now : Time)
    {k : String} {r' : ResultRow}
    (h : (enqueueIdempotent s record answers now).1.chats.results.lookup k = some r') :
    (∃ r, s.chats.results.lookup k = some r ∧ r'.userText = r.userText) ∨
      ∃ d, (enqueueIdempotent s record answers now).1.queue.lookup k = some d ∧
        r'.userText = d.message.take maxText := by
  have hensured : ∀ {queue : Deliveries} {d : Delivery} {pending : Bool},
      queue.lookup d.sendId = some d →
      (if pending then ensureQueued s.chats d.sendId d.message (clientJobName d.clientId)
        d.createdAt else s.chats).results.lookup k = some r' →
      (∃ r, s.chats.results.lookup k = some r ∧ r'.userText = r.userText) ∨
        ∃ d', queue.lookup k = some d' ∧ r'.userText = d'.message.take maxText := by
    intro queue d pending hd hr
    cases pending with
    | false => exact Or.inl ⟨r', hr, rfl⟩
    | true =>
      rcases ensureQueued_userText _ _ _ _ _ hr with hold | ⟨rfl, htext⟩
      · exact Or.inl hold
      · exact Or.inr ⟨d, hd, htext⟩
  revert h
  unfold enqueueIdempotent
  split
  · intro h
    exact Or.inl ⟨r', h, rfl⟩
  split
  · intro h
    exact Or.inl ⟨r', h, rfl⟩
  split
  · intro h
    exact Or.inl ⟨r', h, rfl⟩
  split
  · rename_i d hexisting
    intro h
    refine hensured ?_ h
    rcases Option.or_eq_some_iff.mp hexisting with hfound | ⟨_, hclient⟩
    · exact Table.lookup_of_mem (Table.lookup_mem hfound)
    · split at hclient
      · cases hclient
      · exact Table.lookup_of_mem (List.mem_of_find?_eq_some hclient)
  · rename_i hnone
    intro h
    refine hensured ?_ h
    exact Table.lookup_insertNew_self (Option.or_eq_none_iff.mp hnone).1

/-- A new merge receipt puts its text behind those of the chat. -/
theorem mergedTexts_insert (c c' : Chats) {row : ReplyRow} (sendId : String)
    (hreplies : c'.replies = c.replies.insertNew row)
    (hfree : c.replies.lookup row.replyId = none) :
    mergedTexts c' sendId = mergedTexts c sendId ++
      if row.sendId = sendId ∧ row.status = .merged then [row.userText] else [] := by
  unfold mergedTexts chatRows
  rw [hreplies, Table.rows_insertNew hfree, List.filter_append, List.filter_append, List.map_append]
  congr 1
  by_cases hchat : row.sendId = sendId
  · by_cases hmerged : row.status = .merged <;> simp [hchat, hmerged]
  · simp [hchat]

section Step

variable (lib : Stdlib) (s : Store) (call : Call)

theorem followsUp_cases {call : Call} (h : followsUp call = true) :
    ∃ sendId replyId text withQueue,
      call.action = .reply (.queueFollowup sendId replyId text withQueue) := by
  unfold followsUp at h
  split at h
  · rename_i sendId replyId text withQueue haction
    exact ⟨sendId, replyId, text, withQueue, haction⟩
  · exact Bool.noConfusion h

/-- A step with a follow-up leaves the stores in one of the listed ways. -/
theorem step_followup {sendId replyId : String} {text : Text} {withQueue : Bool}
    (haction : call.action = .reply (.queueFollowup sendId replyId text withQueue)) :
    ∃ outcome, FollowupOutcome lib s sendId replyId text call.now outcome ∧
      step lib s call = (outcome.1, .turn outcome.2) := by
  refine ⟨_, followup_outcome lib s sendId replyId text call.now withQueue, ?_⟩
  rw [step_reply haction]
  rfl

/-- The rows of the results keep their text, or show the message of their delivery. -/
theorem step_userText (hcall : followsUp call = false) {k : String} {r' : ResultRow}
    (h : (step lib s call).1.chats.results.lookup k = some r') :
    (∃ r, s.chats.results.lookup k = some r ∧ r'.userText = r.userText) ∨
      ∃ d, (step lib s call).1.queue.lookup k = some d ∧
        r'.userText = d.message.take maxText := by
  have hkept : ∀ a b, ResultChange lib call a b → b.userText = a.userText := by
    intro a b hab
    cases hab with
    | combined text h hfollows =>
      rw [hcall] at hfollows
      exact Bool.noConfusion hfollows
    | _ => rfl
  by_cases henqueue : ∃ record answers, call.action = .queue (.enqueue record answers)
  · obtain ⟨record, answers, haction⟩ := henqueue
    rw [step_queue haction] at h ⊢
    exact enqueue_userText s record answers call.now h
  · rcases (step_results lib s call).lookup_old (fun _ _ h => h.sendId_eq) h with
      ⟨r, hr, hchange⟩ | ⟨_, a, hnew, _⟩
    · exact Or.inl ⟨r, hr, reflTransGen_field hkept hchange⟩
    · exact absurd hnew.1 henqueue

theorem told_other (hcall : followsUp call = false) {sendId : String} {prompt : Text}
    (h : Told sendId prompt s) : Told sendId prompt (step lib s call).1 := by
  obtain ⟨d, hd, hmessage, htext⟩ := h
  obtain ⟨d', hd', hsame⟩ := step_message lib s call hcall hd
  refine ⟨d', hd', ?_, ?_⟩
  · rw [hsame, hmessage, step_mergedTexts lib s call hcall]
  · intro r' hr'
    rcases step_userText lib s call hcall hr' with ⟨r, hr, heq⟩ | ⟨d₂, hd₂, heq⟩
    · rw [heq, htext r hr, hsame]
    · rw [hd'] at hd₂
      rw [heq, Option.some.inj hd₂]

/-- A follow-up that waits as a reply changes neither prompt. -/
theorem told_queued {sendId : String} {prompt : Text} {row : ReplyRow}
    (hstatus : row.status ≠ .merged) (hfree : s.chats.replies.lookup row.replyId = none)
    (h : Told sendId prompt s) : Told sendId prompt (queuedStore s row) := by
  obtain ⟨d, hd, hmessage, htext⟩ := h
  refine ⟨d, hd, ?_, htext⟩
  have htexts : mergedTexts (queuedStore s row).chats sendId = mergedTexts s.chats sendId := by
    rw [mergedTexts_insert s.chats _ sendId rfl hfree, if_neg fun hmerged => hstatus hmerged.2,
      List.append_nil]
  rw [hmessage, htexts]

/-- A merge of another chat. -/
theorem told_merged_ne {sendId chat : String} {prompt combined : Text} {row : ReplyRow} {now : Time}
    (hchat : row.sendId = chat) (hne : sendId ≠ chat)
    (hfree : s.chats.replies.lookup row.replyId = none)
    (h : Told sendId prompt s) : Told sendId prompt (mergedStore s chat now combined row) := by
  obtain ⟨d, hd, hmessage, htext⟩ := h
  have htexts : mergedTexts (mergedStore s chat now combined row).chats sendId =
      mergedTexts s.chats sendId := by
    rw [mergedTexts_insert s.chats _ sendId rfl hfree,
      if_neg fun hmerged => hne (hmerged.1.symm.trans hchat), List.append_nil]
  refine ⟨d, ?_, ?_, ?_⟩
  · rw [mergedStore_delivery, if_neg hne, hd]
  · rw [hmessage, htexts]
  · intro r hr
    rw [mergedStore_result, if_neg hne] at hr
    exact htext r hr

/-- A merge appends the text to the message, and the transcript has room for both. -/
theorem told_merged {sendId : String} {prompt combined : Text} {row : ReplyRow} {now : Time}
    {d : Delivery} {original : ResultRow} (hchat : row.sendId = sendId)
    (hstatus : row.status = .merged) (hfree : s.chats.replies.lookup row.replyId = none)
    (hd : s.queue.lookup sendId = some d) (huntouched : untouched d = true)
    (horiginal : s.chats.results.lookup sendId = some original)
    (hqueued : original.status = .queued)
    (hcombined : combined = d.message ++ ['\n', '\n'] ++ row.userText)
    (hlength : combined.length ≤ 32000) (h : Told sendId prompt s) :
    Told sendId prompt (mergedStore s sendId now combined row) := by
  obtain ⟨d₀, hd₀, hmessage, _⟩ := h
  rw [hd] at hd₀
  obtain rfl := Option.some.inj hd₀
  have htexts : mergedTexts (mergedStore s sendId now combined row).chats sendId =
      mergedTexts s.chats sendId ++ [row.userText] := by
    rw [mergedTexts_insert s.chats _ sendId rfl hfree, if_pos ⟨hchat, hstatus⟩]
  refine ⟨combinedDelivery combined now d, ?_, ?_, ?_⟩
  · rw [mergedStore_delivery, if_pos rfl, hd, Option.map_some, if_pos huntouched]
  · rw [htexts, withFollowups_append, ← hmessage]
    exact hcombined
  · intro r hr
    rw [mergedStore_result, if_pos rfl, horiginal, Option.map_some,
      if_pos (decide_eq_true hqueued), Option.some.injEq] at hr
    have hroom : combined.length ≤ maxText := le_trans hlength (by unfold maxText; omega)
    rw [← hr]
    change combined = combined.take maxText
    rw [List.take_of_length_le hroom]

theorem step_told {sendId : String} {prompt : Text} (h : Told sendId prompt s) :
    Told sendId prompt (step lib s call).1 := by
  by_cases hcall : followsUp call = true
  · obtain ⟨chat, replyId, text, withQueue, haction⟩ := followsUp_cases hcall
    obtain ⟨outcome, houtcome, hstep⟩ := step_followup lib s call haction
    rw [hstep]
    cases houtcome with
    | refused refusal => exact h
    | repeated row hrow => exact h
    | queued row hrow hfree =>
      refine told_queued s ?_ ?_ h
      · rw [hrow]
        exact nofun
      · rw [hrow]
        exact hfree
    | merged row d original combined hrow hfree hd huntouched horiginal hstatus _ hcombined
      hlength =>
      have hfree' : s.chats.replies.lookup row.replyId = none := by
        rw [hrow]
        exact hfree
      by_cases hchat : sendId = chat
      · subst hchat
        refine told_merged s ?_ ?_ hfree' hd huntouched horiginal hstatus ?_ hlength h
        · rw [hrow, followupRow]
        · rw [hrow, followupRow]
        · rw [hrow, hcombined, followupRow]
      · exact told_merged_ne s (by rw [hrow, followupRow]) hchat hfree' h
  · exact told_other lib s call (Bool.not_eq_true _ ▸ hcall) h

/-- A step adds the text that its event merges to the receipts of the chat. -/
theorem step_merged (sendId : String) :
    mergedTexts (step lib s call).1.chats sendId =
      mergedTexts s.chats sendId ++ (mergedBy sendId (eventOf lib s call)).toList := by
  by_cases hcall : followsUp call = true
  · obtain ⟨chat, replyId, text, withQueue, haction⟩ := followsUp_cases hcall
    obtain ⟨outcome, houtcome, hstep⟩ := step_followup lib s call haction
    simp only [mergedBy, eventOf, hstep, haction]
    cases houtcome with
    | refused refusal => simp
    | repeated row hrow => simp [hrow]
    | queued row hrow hfree =>
      rw [mergedTexts_insert s.chats (queuedStore s row).chats sendId rfl
        (by rw [hrow]; exact hfree)]
      simp [hrow, followupRow]
    | merged row d original combined hrow hfree =>
      rw [mergedTexts_insert s.chats (mergedStore s chat call.now combined row).chats sendId rfl
        (by rw [hrow]; exact hfree)]
      by_cases hchat : chat = sendId <;> simp [hrow, followupRow, hfree, hchat]
  · rw [Bool.not_eq_true] at hcall
    rw [step_mergedTexts lib s call hcall]
    have hnone : mergedBy sendId (eventOf lib s call) = none := by
      unfold mergedBy
      split
      · rename_i haction _
        rw [followsUp] at hcall
        rw [show call.action = _ from haction] at hcall
        exact Bool.noConfusion hcall
      · rfl
    rw [hnone, Option.toList_none, List.append_nil]

end Step

/-- Every reply has a chat, and every chat a delivery. -/
structure Placed (s : Store) : Prop where
  chats : ∀ r ∈ s.chats.replies.rows, (s.chats.results.lookup r.sendId).isSome = true
  deliveries : ∀ r ∈ s.chats.results.rows, (s.queue.lookup r.sendId).isSome = true

theorem step_placed (lib : Stdlib) (s : Store) (call : Call) (h : Placed s) :
    Placed (step lib s call).1 := by
  have hkept : ∀ sendId, (s.queue.lookup sendId).isSome = true →
      ((step lib s call).1.queue.lookup sendId).isSome = true := by
    intro sendId hsome
    obtain ⟨d, hd⟩ := Option.isSome_iff_exists.mp hsome
    obtain ⟨d', hd', _⟩ := (step_deliveries s call lib).lookup_some (fun _ _ h => h.sendId_eq) hd
    rw [hd']
    rfl
  refine ⟨step_known h.chats, ?_⟩
  intro r' hr'
  have hlookup := Table.lookup_of_mem hr'
  by_cases hcall : followsUp call = true
  · rcases (step_results lib s call).lookup_old (fun _ _ h => h.sendId_eq) hlookup with
      ⟨r, hr, _⟩ | ⟨_, a, hnew, _⟩
    · have hdelivery := h.deliveries r (Table.lookup_mem hr)
      rw [Table.lookup_key hr] at hdelivery
      exact hkept _ hdelivery
    · obtain ⟨record, answers, haction⟩ := hnew.1
      rw [followsUp, haction] at hcall
      exact Bool.noConfusion hcall
  · rw [Bool.not_eq_true] at hcall
    rcases step_userText lib s call hcall hlookup with ⟨r, hr, _⟩ | ⟨d, hd, _⟩
    · have hdelivery := h.deliveries r (Table.lookup_mem hr)
      rw [Table.lookup_key hr] at hdelivery
      exact hkept _ hdelivery
    · rw [hd]
      rfl

theorem reachable_placed (lib : Stdlib) (run : List Call) :
    Placed (final (step lib) Store.empty run) := by
  refine final_invariant (step lib) (fun _ => True) Placed ?_ Store.empty ?_ run ?_
  · intro s call _ h
    exact step_placed lib s call h
  · constructor
    · intro r hr
      exact nomatch hr
    · intro r hr
      exact nomatch hr
  · intro call _
    trivial

/-- A chat without a delivery has no replies. -/
theorem Placed.chatRows_nil {s : Store} (h : Placed s) {sendId : String}
    (hfree : s.queue.lookup sendId = none) : chatRows s.chats sendId = [] := by
  rw [List.eq_nil_iff_forall_not_mem]
  intro r hr
  obtain ⟨hmem, hchat⟩ := mem_chatRows.mp hr
  obtain ⟨original, horiginal⟩ := Option.isSome_iff_exists.mp (h.chats r hmem)
  have hdelivery := h.deliveries original (Table.lookup_mem horiginal)
  rw [Table.lookup_key horiginal, hchat, hfree] at hdelivery
  exact Bool.noConfusion hdelivery

theorem Placed.mergedTexts_nil {s : Store} (h : Placed s) {sendId : String}
    (hfree : s.queue.lookup sendId = none) : mergedTexts s.chats sendId = [] := by
  rw [mergedTexts, h.chatRows_nil hfree]
  rfl

/-- A row that an enqueue adds is the queued one, with valid attachments. -/
theorem enqueue_new {s : Store} {record : DeliveryRecord} {answers : Bool} {now : Time}
    {d : Delivery} (hfree : s.queue.lookup record.sendId = none)
    (hd : (enqueueIdempotent s record answers now).1.queue.lookup record.sendId = some d) :
    d = queuedDelivery s.queue record now ∧ ∃ refs, imageRefs record.images = .ok refs := by
  have hno : s.queue.lookup record.sendId ≠ some d := by
    rw [hfree]
    exact nofun
  unfold enqueueIdempotent at hd
  split at hd
  · exact absurd hd hno
  split at hd
  · exact absurd hd hno
  split at hd
  · exact absurd hd hno
  rename_i refs hrefs
  split at hd
  · exact absurd hd hno
  · have hself := Table.lookup_insertNew_self (r := queuedDelivery s.queue record now) hfree
    exact ⟨Option.some.inj (hd.symm.trans hself), refs, hrefs⟩

/-- A chat starts with its first prompt alone. -/
theorem enqueue_told {lib : Stdlib} {s : Store} {record : DeliveryRecord} {answers : Bool}
    {now : Time} {d : Delivery} (h : Placed s) (hfree : s.queue.lookup record.sendId = none)
    (hd : (step lib s ⟨.queue (.enqueue record answers), now⟩).1.queue.lookup record.sendId =
      some d) :
    Told record.sendId record.message (step lib s ⟨.queue (.enqueue record answers), now⟩).1 := by
  have hmessage : d.message = record.message := by
    rw [(enqueue_new hfree hd).1]
    rfl
  refine ⟨d, hd, ?_, ?_⟩
  · rw [step_mergedTexts lib s _ rfl, h.mergedTexts_nil hfree, hmessage]
    rfl
  · intro r' hr'
    rcases step_userText lib s _ rfl hr' with ⟨r, hr, _⟩ | ⟨d₂, hd₂, htext⟩
    · have hdelivery := h.deliveries r (Table.lookup_mem hr)
      rw [Table.lookup_key hr, hfree] at hdelivery
      exact Bool.noConfusion hdelivery
    · rw [hd] at hd₂
      rw [htext, Option.some.inj hd₂]

/-- A delivery that was claimed is never open to a merge again. -/
theorem change_sealed {s : Store} {call : Call} {a b : Delivery} (h : DeliveryChange s call a b)
    (ha : a.status ≠ .queued) : b.status ≠ .queued ∧ b.message = a.message := by
  cases h with
  | edited message oneTime priority updatedAt h hmessage =>
    refine ⟨ha, ?_⟩
    rcases hmessage with hsame | ⟨huntouched, _⟩
    · exact hsame
    · simp only [untouched, Bool.and_eq_true, decide_eq_true_eq] at huntouched
      exact absurd huntouched.1.1 ha
  | retried owner retryAt retryAttempt error status hcall h hstatus =>
    refine ⟨?_, rfl⟩
    change status ≠ .queued
    rintro rfl
    cases hstatus
  | failed owner status error answers hcall h hstatus =>
    refine ⟨?_, rfl⟩
    change status ≠ .queued
    rintro rfl
    cases hstatus
  | renewed owner leaseSeconds => exact ⟨ha, rfl⟩
  | _ => exact ⟨(fun hended => by cases hended), rfl⟩

def Sealed (sendId : String) (message : Text) (s : Store) : Prop :=
  ∃ d, s.queue.lookup sendId = some d ∧ d.status ≠ .queued ∧ d.message = message

theorem step_sealed (lib : Stdlib) (s : Store) (call : Call) {sendId : String} {message : Text}
    (h : Sealed sendId message s) : Sealed sendId message (step lib s call).1 := by
  obtain ⟨d, hd, hstatus, rfl⟩ := h
  obtain ⟨d', hd', hchange⟩ :=
    (step_deliveries s call lib).lookup_some (fun _ _ h => h.sendId_eq) hd
  have hkept := reflTransGen_keeps (P := fun r => r.status ≠ .queued ∧ r.message = d.message) ?_
    hchange ⟨hstatus, rfl⟩
  · exact ⟨d', hd', hkept.1, hkept.2⟩
  · rintro a b hab ⟨ha, hmessage⟩
    obtain ⟨hb, hsame⟩ := change_sealed hab ha
    exact ⟨hb, hsame.trans hmessage⟩

/-- The reply has a row with this receipt. -/
def Recorded (x : Receipt) (s : Store) : Prop :=
  ∃ r, s.chats.replies.lookup x.replyId = some r ∧ receipt r = x

theorem step_recorded (lib : Stdlib) (s : Store) (call : Call) {x : Receipt} (h : Recorded x s) :
    Recorded x (step lib s call).1 := by
  obtain ⟨r, hr, rfl⟩ := h
  obtain ⟨r', hr', hchange⟩ := (step_replies lib s call).lookup_some (fun _ _ h => h.replyId_eq) hr
  exact ⟨r', hr', reflTransGen_field (fun _ _ h => change_receipt h) hchange⟩

section Events

variable (lib : Stdlib) {e : ServiceEvent} {sendId replyId : String} {text : Text}

/-- The row that answers a follow-up is saved, and it is the follow-up. -/
theorem answers_recorded {row : ReplyRow} (hstep : step lib e.pre e.input = (e.post, e.output))
    (h : Answers e sendId replyId text row) :
    Recorded ⟨replyId, sendId, text, decide (row.status = .merged)⟩ e.post := by
  obtain ⟨⟨withQueue, haction⟩, houtput⟩ := h
  obtain ⟨outcome, houtcome, hanswer⟩ := step_followup lib e.pre e.input haction
  rw [hstep, Prod.mk.injEq, houtput, Output.turn.injEq] at hanswer
  obtain ⟨hpost, hrow⟩ := hanswer
  cases houtcome with
  | refused refusal => cases hrow
  | repeated row' hrow' hchat htext =>
    obtain rfl := Except.ok.inj hrow
    refine ⟨row, ?_, ?_⟩
    · rw [hpost]
      exact hrow'
    · rw [receipt, hchat, htext, Table.lookup_key hrow']
  | queued row' hrow' hfree =>
    obtain rfl := Except.ok.inj hrow
    refine ⟨row, ?_, ?_⟩
    · rw [hpost, hrow']
      exact Table.lookup_insertNew_self hfree
    · rw [hrow']
      rfl
  | merged row' d original combined hrow' hfree =>
    obtain rfl := Except.ok.inj hrow
    refine ⟨row, ?_, ?_⟩
    · rw [hpost, hrow']
      exact Table.lookup_insertNew_self hfree
    · rw [hrow']
      rfl

/-- A merge finds merge receipts only. -/
theorem mergedBy_first (hstep : step lib e.pre e.input = (e.post, e.output))
    (h : mergedBy sendId e = some text) :
    ∀ r ∈ chatRows e.pre.chats sendId, r.status = .merged := by
  unfold mergedBy at h
  split at h
  · rename_i chat replyId' text' withQueue row haction houtput
    split at h
    · rename_i hmerged
      obtain ⟨rfl, hstatus, hfree⟩ := hmerged
      obtain ⟨outcome, houtcome, hanswer⟩ := step_followup lib e.pre e.input haction
      rw [hstep, Prod.mk.injEq, houtput, Output.turn.injEq] at hanswer
      obtain ⟨_, hrow⟩ := hanswer
      cases houtcome with
      | refused refusal => cases hrow
      | repeated row' hrow' =>
        rw [hfree] at hrow'
        cases hrow'
      | queued row' hrow' =>
        obtain rfl := Except.ok.inj hrow
        rw [hrow'] at hstatus
        cases hstatus
      | merged row' d original combined hrow' _ hd huntouched horiginal hqueued hfirst =>
        exact hfirst
    · cases h
  · cases h

theorem claims_sealed {d : Delivery} (hstep : step lib e.pre e.input = (e.post, e.output))
    (h : Claims e d) : Sealed d.sendId d.message e.post := by
  obtain ⟨⟨owner, leaseSeconds, fireAndForget, maxActive, answers, haction⟩, houtput⟩ := h
  rw [step_queue haction] at hstep
  have hpost : (claimNext e.pre owner leaseSeconds fireAndForget maxActive answers
    e.input.now).1 = e.post := congrArg Prod.fst hstep
  have hout : Output.delivery (claimNext e.pre owner leaseSeconds fireAndForget maxActive answers
    e.input.now).2 = e.output := congrArg Prod.snd hstep
  rw [houtput, Output.delivery.injEq] at hout
  obtain ⟨d₀, _, _, hd, hlookup⟩ := claimNext_some hout
  refine ⟨d, by rw [← hpost, hlookup], ?_, rfl⟩
  rw [hd]
  exact nofun

end Events

/-- Along a run the merge receipts grow by what the events merge. -/
theorem run_merged (lib : Stdlib) (s : Store) (run : List Call) (sendId : String) :
    mergedTexts (final (step lib) s run).chats sendId =
      mergedTexts s.chats sendId ++ (events (step lib) s run).filterMap (mergedBy sendId) := by
  induction run generalizing s with
  | nil => exact (List.append_nil _).symm
  | cons call rest ih =>
    have hstep := step_merged lib s call sendId
    change mergedTexts (final (step lib) (step lib s call).1 rest).chats sendId =
      _ ++ List.filterMap _ (eventOf lib s call :: events (step lib) (step lib s call).1 rest)
    rw [ih, hstep, List.append_assoc]
    congr 1
    cases hmerged : mergedBy sendId (eventOf lib s call) with
    | none => rw [List.filterMap_cons_none hmerged]; rfl
    | some text => rw [List.filterMap_cons_some hmerged]; rfl

/-- From the first prompt of a chat on, its follow-ups are neither lost nor doubled. -/
theorem followups_kept (lib : Stdlib) (earlier later : List Call) (record : DeliveryRecord)
    (answers : Bool) (now : Time)
    (hfree : (final (step lib) Store.empty earlier).queue.lookup record.sendId = none)
    (hqueued : ((step lib (final (step lib) Store.empty earlier)
      ⟨.queue (.enqueue record answers), now⟩).1.queue.lookup record.sendId).isSome = true) :
    let first := (step lib (final (step lib) Store.empty earlier)
      ⟨.queue (.enqueue record answers), now⟩).1
    FollowupsKept record.sendId record.message (events (step lib) first later)
      (final (step lib) first later) := by
  intro first
  obtain ⟨d, hd⟩ := Option.isSome_iff_exists.mp hqueued
  have hplaced := reachable_placed lib earlier
  have htold : Told record.sendId record.message first := enqueue_told hplaced hfree hd
  have hreceipts : mergedTexts (final (step lib) first later).chats record.sendId =
      (events (step lib) first later).filterMap (mergedBy record.sendId) := by
    rw [run_merged, step_mergedTexts lib _ _ rfl, hplaced.mergedTexts_nil hfree, List.nil_append]
  have hevent : ∀ e ∈ events (step lib) first later, step lib e.pre e.input = (e.post, e.output) :=
    event_step (step lib) first later
  refine ⟨?_, hreceipts, ?_, ?_, ?_⟩
  · rw [← hreceipts]
    exact final_invariant (step lib) (fun _ => True) (Told record.sendId record.message)
      (fun s call _ h => step_told lib s call h) first htold later fun _ _ => trivial
  · intro e he replyId text row hanswers
    obtain ⟨before, after, hsplit⟩ := List.append_of_mem he
    obtain ⟨left, right, hrun, hpre, _, _⟩ := event_pre (step lib) first later before after e hsplit
    have hfinal : final (step lib) first later = final (step lib) e.post right := by
      rw [hrun, final_append, ← hpre, final, hevent e he]
    obtain ⟨r, hr, hreceipt⟩ := final_invariant (step lib) (fun _ => True) (Recorded _)
      (fun s call _ h => step_recorded lib s call h) e.post
      (answers_recorded lib (hevent e he) hanswers)
      right fun _ _ => trivial
    rw [← hfinal] at hr
    simp only [receipt, Receipt.mk.injEq, decide_eq_decide] at hreceipt
    refine ⟨r, Table.lookup_mem hr, ?_, hreceipt.1, hreceipt.2.1, hreceipt.2.2.1, hreceipt.2.2.2⟩
    intro r' hr' hid
    have hsame := Table.lookup_of_mem hr'
    rw [hid] at hsame
    exact Option.some.inj (hsame.symm.trans hr)
  · intro e he text hmerged
    exact mergedBy_first lib (hevent e he) hmerged
  · intro before e after hsplit d' hclaims hchat b hb
    have hmem : e ∈ events (step lib) first later := by
      rw [hsplit]
      exact List.mem_append_right _ List.mem_cons_self
    have hsealed : Sealed record.sendId d'.message e.post := by
      rw [← hchat]
      exact claims_sealed lib (hevent e hmem) hclaims
    have hkeep : ∀ c ∈ after, Sealed record.sendId d'.message c.pre →
        Sealed record.sendId d'.message c.post := by
      intro c hc hpre
      have hstep := hevent c
          (by rw [hsplit]; exact List.mem_append_right _ (List.mem_cons_of_mem _ hc))
      have hpost := step_sealed lib c.pre c.input hpre
      rw [hstep] at hpost
      exact hpost
    obtain ⟨_, d'', hd'', _, hmessage⟩ := carried_after (step lib) (Sealed record.sendId d'.message)
      first later before after e hsplit hsealed hkeep b hb
    exact ⟨d'', hd'', hmessage⟩

def firstPrompt (message : Text) : DeliveryRecord := ⟨"manual-1", message, "", [], false, false⟩

/-- A follow-up is merged and asked for again, the delivery is claimed, and another
follow-up comes too late for it. -/
def followedUp : List Call :=
  [⟨.reply (.queueFollowup "manual-1" "followup-00000001" ['y', 'o'] true), 11⟩,
    ⟨.reply (.queueFollowup "manual-1" "followup-00000001" ['y', 'o'] true), 12⟩,
    ⟨.queue (.claimNext "worker-1" 30 false none fun _ => true), 13⟩,
    ⟨.reply (.queueFollowup "manual-1" "followup-00000002" ['n', 'o'] true), 14⟩]

theorem followups_kept_claimed :
    let first := (step plainLib Store.empty
      ⟨.queue (.enqueue (firstPrompt ['h', 'i']) true), 10⟩).1
    mergedTexts (final (step plainLib) first followedUp).chats "manual-1" = [['y', 'o']] ∧
      FollowupsKept "manual-1" ['h', 'i'] (events (step plainLib) first followedUp)
        (final (step plainLib) first followedUp) :=
  ⟨by decide +kernel,
    followups_kept plainLib [] followedUp (firstPrompt ['h', 'i']) true 10 rfl (by decide +kernel)⟩

/-- The transcript of a first prompt, whatever its length. -/
theorem firstPrompt_rows (c : Char) (rest : Text) :
    let first := (step plainLib Store.empty
      ⟨.queue (.enqueue (firstPrompt (c :: rest)) true), 10⟩).1
    (∃ d, first.queue.lookup "manual-1" = some d ∧ d.status = .queued ∧ d.message = c :: rest) ∧
      ∃ r, first.chats.results.lookup "manual-1" = some r ∧ r.userText = (c :: rest).take maxText :=
  ⟨⟨_, rfl, rfl, rfl⟩, _, rfl, rfl⟩

/-- The transcript keeps two mebibytes of the prompt that the delivery sends. -/
theorem transcript_capped :
    let first := (step plainLib Store.empty
      ⟨.queue (.enqueue (firstPrompt (List.replicate (maxText + 1) 'x')) true), 10⟩).1
    ∃ d r, first.queue.lookup "manual-1" = some d ∧ d.status = .queued ∧
      first.chats.results.lookup "manual-1" = some r ∧ r.userText ≠ d.message := by
  intro first
  obtain ⟨⟨d, hd, hstatus, hmessage⟩, r, hr, htext⟩ :=
    firstPrompt_rows 'x' (List.replicate maxText 'x')
  refine ⟨d, r, hd, hstatus, hr, ?_⟩
  intro heq
  rw [htext, hmessage, ← List.replicate_succ] at heq
  have hlength := congrArg List.length heq
  rw [List.length_take, List.length_replicate] at hlength
  omega

end Prompta.FollowupMerges
