import Prompta.ResultChanges

/-!
What one call of the service can do to a row of the replies, with the guard the
row has passed and the owner that makes the call. Before its claim a reply is
bound, prepared or withdrawn; afterwards it is with its owner, and once it has
none it may still be read from the page.
-/
namespace Prompta.Service

open Tables Texts DisplayBlocks Schema ResponseStore ReplyStore DeliveryQueue

/-- The call claims the reply for the owner, directly or under the queue's lock. -/
def claims (call : Call) (replyId owner : String) : Prop :=
  (∃ deadline, call.action = .reply (.claim replyId owner deadline)) ∨
    ∃ deadline fireAndForget maxActive,
      call.action = .queue (.claimReply replyId owner deadline fireAndForget maxActive)

def replyOwner (call : Call) : Option (String × String) :=
  match call.action with
  | .reply (.acknowledgeSubmission replyId owner _ _) => some (replyId, owner)
  | .reply (.accepted replyId owner _ _ _ _) => some (replyId, owner)
  | .reply (.observe replyId owner _) => some (replyId, owner)
  | .reply (.observeTools replyId owner _) => some (replyId, owner)
  | .reply (.renew replyId owner _) => some (replyId, owner)
  | .reply (.finish replyId owner _) => some (replyId, owner)
  | _ => none

def newReplyId (call : Call) : Option String :=
  match call.action with
  | .reply (.prepare _ intent) => some intent.replyId
  | .reply (.queueExplicitSend _ intent) => some intent.replyId
  | .reply (.queueFollowup _ replyId _ _) => some replyId
  | _ => none

/-- The user sends a reply again that failed before its dispatch. -/
def rearms (call : Call) : Bool :=
  match call.action with
  | .reply (.queueExplicitSend _ _) => true
  | .reply (.retryPreflight _) => true
  | _ => false

inductive ReplyChange (lib : Stdlib) (s : Store) (call : Call) : ReplyRow → ReplyRow → Prop
  | failed (r : ReplyRow) (h : r.status = .prepared) :
      ReplyChange lib s call r (preflightRow .preflightFailed call.now r)
  | rearmed (r : ReplyRow) (h : r.status = .preflightFailed) (hcall : rearms call = true) :
      ReplyChange lib s call r (preflightRow .prepared call.now r)
  | authorized (r : ReplyRow) (h : r.status = .prepared) :
      ReplyChange lib s call r (authorizedRow r)
  | bound (r : ReplyRow) (intent : ReplyIntent) (exclude : List String)
      (hcall : call.action = .reply (.nextQueuedIntent exclude)) (h : r.status = .queued)
      (hready : readyDraft s.chats r = some intent) :
      ReplyChange lib s call r (boundRow intent.conversationId intent.parentId call.now r)
  | identified (r : ReplyRow) (messageId : String) (h : unidentified r = true)
      (huuid : isUuid messageId = true) :
      ReplyChange lib s call r (identifiedReply messageId call.now r)
  | claimed (r : ReplyRow) (owner : String) (deadline : Time)
      (hcall : claims call r.replyId owner) (howner : owner ≠ "") (hdeadline : call.now < deadline)
      (h : r.status = .prepared) :
      ReplyChange lib s call r (claimedRow owner deadline call.now r)
  | submitted (r : ReplyRow) (owner : String) (hcall : replyOwner call = some (r.replyId, owner))
      (hlive : liveDispatch owner call.now r = true) (h : r.status = .dispatching) :
      ReplyChange lib s call r (submittedReply call.now r)
  | accepted (r : ReplyRow) (owner messageId responseParent : String)
      (hcall : replyOwner call = some (r.replyId, owner))
      (hlive : liveDispatch owner call.now r = true) (hgenerating : r.status ≠ .generating)
      (h : r.messageId = "") (hmessage : messageId ≠ "") :
      ReplyChange lib s call r (acceptedReply messageId responseParent call.now r)
  | observed (r : ReplyRow) (owner : String) (capture : CaptureResult)
      (hcall : replyOwner call = some (r.replyId, owner))
      (hlive : liveDispatch owner call.now r = true) (h : answeringReply r.status = true) :
      ReplyChange lib s call r (observeRow lib owner capture call.now r)
  | progress (r : ReplyRow) (owner : String) (capture : CaptureResult)
      (hcall : replyOwner call = some (r.replyId, owner))
      (hlive : liveDispatch owner call.now r = true) :
      ReplyChange lib s call r (progressRow lib capture call.now r)
  | renewed (r : ReplyRow) (owner : String) (deadline : Time)
      (hcall : replyOwner call = some (r.replyId, owner))
      (hlive : liveDispatch owner call.now r = true) :
      ReplyChange lib s call r (renewedReply deadline call.now r)
  | ended (r : ReplyRow) (owner : String) (uncertain : Bool)
      (hcall : replyOwner call = some (r.replyId, owner)) (h : activeReply r.status = true)
      (howner : r.leaseOwner = owner) :
      ReplyChange lib s call r (endedReply uncertain call.now r)
  | orphaned (r : ReplyRow) (h : activeReply r.status = true) :
      ReplyChange lib s call r (endedReply true call.now r)
  | detached (r : ReplyRow) (sendIds replyIds : List String)
      (hcall : call.action = .result (.prepareDeploymentRecovery sendIds replyIds))
      (h : ownedReply call.now r = true) :
      ReplyChange lib s call r (detachedReplyRow call.now r)
  | loaded (r : ReplyRow) (h : detachedReply r = true) :
      ReplyChange lib s call r (loadedReply call.now r)
  | recovered (r : ReplyRow) (capture : CaptureResult)
      (hcall : call.action = .reply (.recoverHistorical r.replyId capture))
      (h : detachedReply r = true) (hmessage : otherMessage r.messageId capture = false) :
      ReplyChange lib s call r (recoverReplyRow lib capture call.now r)
  | cancelled (r : ReplyRow) (h : isUnsent r.status = true) :
      ReplyChange lib s call r (cancelReply call.now r)
  | stopped (r : ReplyRow) (h : stopsReply r.status = true) :
      ReplyChange lib s call r (stopReply call.now r)

/-- A new row continues the verified branch, or it is a follow-up without a parent. -/
inductive NewReply (s : Store) (call : Call) : ReplyRow → Prop
  | prepared (original : ResultRow) (sendId : String) (intent : ReplyIntent) (parentId : String)
      (hcall : newReplyId call = some intent.replyId)
      (horiginal : s.chats.results.lookup sendId = some original)
      (hcontinuable : continuable original = true)
      (hfree : s.chats.replies.lookup intent.replyId = none)
      (htip : branchTip original.conversationId original.messageId (branchRows s.chats sendId) =
        .ok parentId)
      (hintent : intent.conversationId = original.conversationId ∧ intent.parentId = parentId) :
      NewReply s call (preparedRow sendId intent call.now)
  | followup (sendId replyId : String) (text : Text) (status : ReplyStatus) (messageId : String)
      (hcall : newReplyId call = some replyId)
      (hfree : s.chats.replies.lookup replyId = none)
      (hresult : (s.chats.results.lookup sendId).isSome = true)
      (hstatus : (status = .queued ∧ messageId = "") ∨ status = .merged)
      (hfollows : followsUp call = true) :
      NewReply s call (followupRow sendId replyId text status messageId call.now)

theorem ReplyChange.replyId_eq {lib : Stdlib} {s : Store} {call : Call} {r r' : ReplyRow}
    (h : ReplyChange lib s call r r') : r'.replyId = r.replyId := by
  cases h <;> rfl

theorem ReplyChange.sendId_eq {lib : Stdlib} {s : Store} {call : Call} {r r' : ReplyRow}
    (h : ReplyChange lib s call r r') : r'.sendId = r.sendId := by
  cases h <;> rfl

theorem ReplyChange.createdAt_eq {lib : Stdlib} {s : Store} {call : Call} {r r' : ReplyRow}
    (h : ReplyChange lib s call r r') : r'.createdAt = r.createdAt := by
  cases h <;> rfl

section Evolution

variable (lib : Stdlib) (s : Store) (call : Call)

/-- An update of one row, where the rewriting is one of the changes. -/
theorem updateReply_evolves (c : Chats) (replyId : String) (p : ReplyRow → Bool)
    (f : ReplyRow → ReplyRow)
    (h : ∀ r, r.replyId = replyId → p r = true → ReplyChange lib s call r (f r))
    {hf : ∀ r, (f r).replyId = r.replyId} :
    Evolves (ReplyChange lib s call) (NewReply s call) c.replies
      (updateReply c replyId p f hf).1.replies := by
  refine Evolves.updateAt _ _ _ ?_ hf
  intro r hr hp
  exact h r (Table.lookup_key hr) hp

/-- `prepare` adds the reply that it names. -/
theorem prepare_replies (sendId : String) (intent : ReplyIntent)
    (hcall : newReplyId call = some intent.replyId) :
    Evolves (ReplyChange lib s call) (NewReply s call) s.chats.replies
      (prepare s.chats sendId intent call.now).1.replies := by
  unfold prepare
  split
  · split <;> exact Evolves.refl _
  rename_i hfree
  split
  · exact Evolves.refl _
  rename_i original horiginal
  split
  · exact Evolves.refl _
  rename_i hterminal
  split
  · exact Evolves.refl _
  rename_i hids
  split
  · exact Evolves.refl _
  rename_i parentId htip
  split
  · rename_i hintent
    refine Evolves.insertNew _ fun _ => ?_
    refine NewReply.prepared original sendId intent parentId hcall horiginal ?_ hfree htip hintent
    simp only [not_or] at hids
    simp only [Bool.not_eq_true', Bool.not_eq_false] at hterminal
    simp [continuable, hterminal, hids.1, hids.2]
  · exact Evolves.refl _

theorem retryPreflight_replies (c : Chats) (replyId : String) (hcall : rearms call = true) :
    Evolves (ReplyChange lib s call) (NewReply s call) c.replies
      (retryPreflight c replyId call.now).1.replies := by
  have h : Evolves (ReplyChange lib s call) (NewReply s call) c.replies
      (updateReply c replyId (fun r => decide (r.status = .preflightFailed))
        (preflightRow .prepared call.now) fun _ => rfl).1.replies :=
    updateReply_evolves lib s call c replyId _ _
      fun r _ hr => ReplyChange.rearmed r (by simpa using hr) hcall
  unfold retryPreflight
  dsimp only
  split
  · exact h
  · exact h

theorem authorizeSend_replies (c : Chats) (sendId : String) (intent : ReplyIntent) :
    Evolves (ReplyChange lib s call) (NewReply s call) c.replies
      (authorizeSend c sendId intent).replies := by
  refine updateReply_evolves lib s call c intent.replyId _ _ ?_
  intro r _ hr
  simp only [Bool.and_eq_true, decide_eq_true_eq] at hr
  exact ReplyChange.authorized r hr.2

/-- The user's send adds a reply or rearms a failed one. -/
theorem queueExplicitSend_replies (sendId : String) (intent : ReplyIntent)
    (hcall : newReplyId call = some intent.replyId) (hrearms : rearms call = true) :
    Evolves (ReplyChange lib s call) (NewReply s call) s.chats.replies
      (queueExplicitSend s.chats sendId intent call.now).1.replies := by
  have hprepare := prepare_replies lib s call sendId intent hcall
  unfold queueExplicitSend
  cases hp : prepare s.chats sendId intent call.now with
  | mk prepared outcome =>
    rw [hp] at hprepare
    have hauthorize : ∀ c', Evolves (ReplyChange lib s call) (NewReply s call) s.chats.replies
        c'.replies → Evolves (ReplyChange lib s call) (NewReply s call) s.chats.replies
          (authorizeSend c' sendId intent).replies :=
      fun c' hc => hc.trans (authorizeSend_replies lib s call c' sendId intent)
    cases outcome with
    | error refusal => exact hprepare
    | ok turn =>
      have hretry := hprepare.trans
          (retryPreflight_replies lib s call prepared intent.replyId hrearms)
      by_cases hfailed : turn.status = .preflightFailed
      · simp only [hfailed, if_true]
        cases hr : retryPreflight prepared intent.replyId call.now with
        | mk rearmed outcome' =>
          rw [hr] at hretry
          cases outcome' with
          | error refusal => exact hretry
          | ok turn' =>
            dsimp only
            split
            · split <;> exact hauthorize rearmed hretry
            · exact hretry
      · simp only [hfailed, if_false]
        split
        · split <;> exact hauthorize prepared hprepare
        · exact hprepare

/-- A follow-up adds one row, a draft or a receipt. -/
theorem queueFollowup_replies (sendId replyId : String) (text : Text) (withQueue : Bool)
    (hcall : newReplyId call = some replyId) (hfollows : followsUp call = true) :
    Evolves (ReplyChange lib s call) (NewReply s call) s.chats.replies
      (queueFollowup lib s sendId replyId text withQueue call.now).1.chats.replies := by
  have hrefl : Evolves (ReplyChange lib s call) (NewReply s call) s.chats.replies
      s.chats.replies := Evolves.refl _
  unfold queueFollowup
  split
  · exact hrefl
  split
  · exact hrefl
  split
  · split_ifs <;> exact hrefl
  rename_i hfree
  split
  · exact hrefl
  rename_i original horiginal
  have hresult : (s.chats.results.lookup sendId).isSome = true := by
    rw [horiginal]
    rfl
  split
  · exact hrefl
  split
  · refine Evolves.insertNew _ fun _ => ?_
    exact NewReply.followup sendId replyId text .merged _ hcall hfree hresult (Or.inr rfl) hfollows
  · refine Evolves.insertNew _ fun _ => ?_
    exact NewReply.followup sendId replyId text .queued "" hcall hfree hresult (Or.inl ⟨rfl, rfl⟩)
      hfollows

/-- The intent that is bound next names a draft that is ready. -/
theorem readyQueuedIntent_some {c : Chats} {exclude : List String} {sendId : String}
    {intent : ReplyIntent} {status : ReplyStatus}
    (h : readyQueuedIntent c exclude = some (sendId, intent, status)) :
    ∃ draft ∈ c.replies.rows, isWaitingDraft draft = true ∧ readyDraft c draft = some intent ∧
      draft.sendId = sendId ∧ draft.status = status := by
  obtain ⟨draft, hmem, hsome⟩ := List.exists_of_findSome?_eq_some h
  unfold readyCandidates at hmem
  rw [List.mem_insertionSort] at hmem
  obtain ⟨hrow, hguard⟩ := List.mem_filter.mp hmem
  simp only [Bool.and_eq_true] at hguard
  obtain ⟨ready, hready, heq⟩ := Option.map_eq_some_iff.mp hsome
  cases heq
  exact ⟨draft, hrow, hguard.1.1, hready, rfl, rfl⟩

theorem readyDraft_replyId {c : Chats} {draft : ReplyRow} {intent : ReplyIntent}
    (h : readyDraft c draft = some intent) : intent.replyId = draft.replyId := by
  unfold readyDraft at h
  split at h
  · cases h
  · obtain ⟨parentId, _, rfl⟩ := Option.map_eq_some_iff.mp h
    rfl

/-- Binding a draft rewrites the row of the draft. -/
theorem nextQueuedIntent_replies (exclude : List String)
    (hcall : call.action = .reply (.nextQueuedIntent exclude)) :
    Evolves (ReplyChange lib s call) (NewReply s call) s.chats.replies
      (nextQueuedIntent s.chats exclude call.now).1.replies := by
  unfold nextQueuedIntent
  split
  · exact Evolves.refl _
  rename_i sendId intent status hready
  dsimp only
  split
  · obtain ⟨draft, hrow, _, hdraft, _, _⟩ := readyQueuedIntent_some hready
    have hid := readyDraft_replyId hdraft
    refine Evolves.updateAt _ _ _ ?_ fun _ => by rfl
    intro r hr hqueued
    have hsame : r = draft := by
      rw [hid, Table.lookup_of_mem hrow] at hr
      exact (Option.some.inj hr).symm
    subst hsame
    exact ReplyChange.bound r intent exclude hcall (by simpa using hqueued) hdraft
  · exact Evolves.refl _

/-- A verified message is written to the row that has none. -/
theorem recoverReplyParent_replies (c : Chats) (sendId replyId conversationId : String)
    (previousParentId : String) (userText assistantText : Text) (messageId : String) :
    Evolves (ReplyChange lib s call) (NewReply s call) c.replies
      (recoverReplyParent c sendId replyId conversationId previousParentId userText assistantText
        messageId call.now).1.replies := by
  unfold recoverReplyParent
  split
  · exact Evolves.refl _
  rename_i huuid
  simp only [Bool.or_eq_true, Bool.not_eq_true', not_or, Bool.not_eq_false] at huuid
  split
  · exact Evolves.refl _
  split
  · exact Evolves.refl _
  split
  · exact Evolves.refl _
  split
  · exact Evolves.refl _
  split
  · exact Evolves.refl _
  · refine updateReply_evolves lib s call c replyId _ _ ?_
    intro r _ hr
    exact ReplyChange.identified r messageId hr huuid.1.2

/-- A claim rewrites the prepared row that it names. -/
theorem claim_replies (c : Chats) (replyId owner : String) (deadline : Time)
    (hcall : claims call replyId owner) :
    Evolves (ReplyChange lib s call) (NewReply s call) c.replies
      (claim c replyId owner deadline call.now).1.replies := by
  unfold claim
  split
  · exact Evolves.refl _
  · rename_i hguard
    simp only [not_or, not_le] at hguard
    refine updateReply_evolves lib s call c replyId _ _ ?_
    rintro r rfl hr
    exact ReplyChange.claimed r owner deadline hcall hguard.1 hguard.2 (by simpa using hr)

/-- The owner's acceptance. -/
theorem accepted_replies (c : Chats) (replyId owner conversationId parentId messageId : String)
    (responseParentId : Option String) (hcall : replyOwner call = some (replyId, owner)) :
    Evolves (ReplyChange lib s call) (NewReply s call) c.replies
      (accepted c replyId owner conversationId parentId messageId responseParentId
        call.now).1.replies := by
  unfold accepted
  dsimp only
  split
  · exact Evolves.refl _
  · rename_i hguard
    simp only [not_or] at hguard
    refine updateReply_evolves lib s call c replyId _ _ ?_
    rintro r rfl hr
    simp only [Bool.and_eq_true, decide_eq_true_eq] at hr
    exact ReplyChange.accepted r owner messageId _ hcall hr.1.1.1.1 hr.1.1.1.2 hr.1.1.2 hguard.1

/-- The owner's snapshot. -/
theorem observe_replies (c : Chats) (replyId owner : String) (capture : CaptureResult)
    (hcall : replyOwner call = some (replyId, owner)) :
    Evolves (ReplyChange lib s call) (NewReply s call) c.replies
      (observe lib c replyId owner capture call.now).1.replies := by
  unfold observe
  dsimp only
  split
  · exact Evolves.refl _
  split
  · exact Evolves.refl _
  · refine updateReply_evolves lib s call c replyId _ _ ?_
    rintro r rfl hr
    rw [Bool.and_eq_true] at hr
    exact ReplyChange.observed r owner capture hcall hr.1 hr.2

/-- The owner's snapshot of the tools. -/
theorem observeTools_replies (c : Chats) (replyId owner : String) (capture : CaptureResult)
    (hcall : replyOwner call = some (replyId, owner)) :
    Evolves (ReplyChange lib s call) (NewReply s call) c.replies
      (observeTools lib c replyId owner capture call.now).1.replies := by
  unfold observeTools
  dsimp only
  split
  · exact Evolves.refl _
  split
  · exact Evolves.refl _
  split
  · exact Evolves.refl _
  · refine updateReply_evolves lib s call c replyId _ _ ?_
    rintro r rfl hr
    rw [Bool.and_eq_true] at hr
    exact ReplyChange.progress r owner capture hcall hr.1

/-- A loaded page renews no lease. -/
theorem observeHistoryLoaded_replies (c : Chats) (replyId conversationId : String)
    (parentId : Option String) :
    Evolves (ReplyChange lib s call) (NewReply s call) c.replies
      (observeHistoryLoaded c replyId conversationId parentId call.now).1.replies := by
  unfold observeHistoryLoaded
  split
  · exact Evolves.refl _
  · refine updateReply_evolves lib s call c replyId _ _ ?_
    intro r _ hr
    simp only [Bool.and_eq_true] at hr
    exact ReplyChange.loaded r hr.1.1

/-- A reading of the page, for the reply that it names. -/
theorem recoverHistoricalReply_replies (c : Chats) (replyId : String) (capture : CaptureResult)
    (hcall : call.action = .reply (.recoverHistorical replyId capture)) :
    Evolves (ReplyChange lib s call) (NewReply s call) c.replies
      (recoverHistoricalReply lib c replyId capture call.now).1.replies := by
  rcases recoverHistoricalReply_cases lib c replyId capture call.now with
    hrefused | ⟨r, hr, haccepts, hwrites⟩
  · exact Evolves.of_eq (by rw [hrefused])
  simp only [acceptsReplyProbe, Bool.and_eq_true, Bool.not_eq_true'] at haccepts
  have hid : r.replyId = replyId := Table.lookup_key hr
  rw [hwrites]
  refine Evolves.updateAt _ _ _ ?_ fun _ => by rfl
  intro r' hr' hdetached
  have hsame : r' = r := by
    rw [hr] at hr'
    exact (Option.some.inj hr').symm
  subst hsame
  exact ReplyChange.recovered r' capture (hid ▸ hcall) hdetached haccepts.1.1.2

theorem replyStep_replies (r : ReplyCall) (hcall : call.action = .reply r) :
    Evolves (ReplyChange lib s call) (NewReply s call) s.chats.replies
      (replyStep lib s call.now r).1.chats.replies := by
  have howner : ∀ replyId owner, (replyOwner call = some (replyId, owner)) =
      (replyOwner ⟨.reply r, call.now⟩ = some (replyId, owner)) := by
    intro replyId owner
    unfold replyOwner
    rw [hcall]
  cases r with
  | prepare sendId intent =>
    exact prepare_replies lib s call sendId intent (by rw [newReplyId, hcall])
  | queueExplicitSend sendId intent =>
    exact queueExplicitSend_replies lib s call sendId intent (by rw [newReplyId, hcall])
      (by rw [rearms, hcall])
  | authorizeSend sendId intent => exact authorizeSend_replies lib s call s.chats sendId intent
  | queueFollowup sendId replyId text withQueue =>
    exact queueFollowup_replies lib s call sendId replyId text withQueue
      (by rw [newReplyId, hcall]) (by rw [followsUp, hcall])
  | nextQueuedIntent exclude => exact nextQueuedIntent_replies lib s call exclude hcall
  | markPreflightFailed replyId =>
    refine updateReply_evolves lib s call s.chats replyId _ _ ?_
    intro r _ hr
    exact ReplyChange.failed r (by simpa using hr)
  | retryPreflight replyId =>
    exact retryPreflight_replies lib s call s.chats replyId (by rw [rearms, hcall])
  | recoverOriginalParent sendId conversationId messageId originalAnswer =>
    change Evolves _ _ _ (recoverOriginalParent s.chats sendId conversationId messageId
      originalAnswer).1.replies
    unfold recoverOriginalParent
    split
    · exact Evolves.refl _
    split
    · exact Evolves.refl _
    · exact Evolves.refl _
  | recoverReplyParent sendId replyId conversationId previousParentId userText assistantText
      messageId =>
    exact recoverReplyParent_replies lib s call s.chats sendId replyId conversationId
      previousParentId userText assistantText messageId
  | claim replyId owner deadline =>
    exact claim_replies lib s call s.chats replyId owner deadline (Or.inl ⟨deadline, hcall⟩)
  | acknowledgeSubmission replyId owner conversationId parentId =>
    refine updateReply_evolves lib s call s.chats replyId _ _ ?_
    rintro r rfl hr
    simp only [Bool.and_eq_true, decide_eq_true_eq] at hr
    exact ReplyChange.submitted r owner ((howner _ _).mpr rfl) hr.1.1.1 hr.1.1.2
  | accepted replyId owner conversationId parentId messageId responseParentId =>
    exact accepted_replies lib s call s.chats replyId owner conversationId parentId messageId
      responseParentId ((howner _ _).mpr rfl)
  | observe replyId owner capture =>
    exact observe_replies lib s call s.chats replyId owner capture ((howner _ _).mpr rfl)
  | observeTools replyId owner capture =>
    exact observeTools_replies lib s call s.chats replyId owner capture ((howner _ _).mpr rfl)
  | renew replyId owner deadline =>
    change Evolves _ _ _ (renew s.chats replyId owner deadline call.now).1.replies
    unfold renew
    split
    · exact Evolves.refl _
    · refine updateReply_evolves lib s call s.chats replyId _ _ ?_
      rintro r rfl hr
      exact ReplyChange.renewed r owner deadline ((howner _ _).mpr rfl) hr
  | finish replyId owner uncertain =>
    refine updateReply_evolves lib s call s.chats replyId _ _ ?_
    rintro r rfl hr
    simp only [Bool.and_eq_true, decide_eq_true_eq] at hr
    exact ReplyChange.ended r owner uncertain ((howner _ _).mpr rfl) hr.1 hr.2
  | recoverOrphans alive =>
    refine Evolves.update _ _ ?_ fun _ => by rfl
    intro r _ hr
    simp only [staleReply, Bool.and_eq_true] at hr
    exact ReplyChange.orphaned r hr.1
  | observeHistoryLoaded replyId conversationId parentId =>
    exact observeHistoryLoaded_replies lib s call s.chats replyId conversationId parentId
  | recoverHistorical replyId capture =>
    exact recoverHistoricalReply_replies lib s call s.chats replyId capture hcall

end Evolution

section Frame

variable (lib : Stdlib) (c : Chats) (now : Time)

theorem ensureQueued_replies (sendId : String) (userText : Text) (jobName : String) :
    (ensureQueued c sendId userText jobName now).replies = c.replies := by
  unfold ensureQueued
  dsimp only
  split <;> rfl

theorem markUnavailable_replies (answers : String → Bool) (sendIds : List String) :
    (markUnavailable c answers sendIds now).replies = c.replies := by
  induction sendIds generalizing c with
  | nil => rfl
  | cons sendId rest ih =>
    rw [markUnavailable_cons, ih]
    split <;> rfl

theorem reconcile_replies (s : Store) (readable : Bool) :
    (reconcileAcceptedOutcomes s readable now).1.chats.replies = s.chats.replies := by
  unfold reconcileAcceptedOutcomes
  split <;> rfl

theorem enqueueIdempotent_replies (s : Store) (record : DeliveryRecord) (answers : Bool) :
    (enqueueIdempotent s record answers now).1.chats.replies = s.chats.replies := by
  unfold enqueueIdempotent
  repeat' split
  all_goals first | rfl | exact ensureQueued_replies _ _ _ _ _

theorem cancelPending_replies (s : Store) (sendId error : String) (answers : Bool) :
    (cancelPending s sendId error answers now).1.chats.replies = s.chats.replies := by
  unfold cancelPending
  dsimp only
  split <;> rfl

theorem claimNext_replies (s : Store) (owner : String) (leaseSeconds : Time)
    (fireAndForget : Bool) (maxActive : Option ℕ) (answers : String → Bool) :
    (claimNext s owner leaseSeconds fireAndForget maxActive answers now).1.chats.replies =
      s.chats.replies := by
  have h := markUnavailable_replies s.chats now answers (expireRows s.queue now).2
  unfold claimNext
  dsimp only
  repeat' split
  all_goals exact h

theorem retryClaim_replies (s : Store) (sendId owner : String) (retryAt : Time)
    (retryAttempt : ℤ) (error : String) (status : DeliveryStatus) :
    (retryClaim s sendId owner retryAt retryAttempt error status now).1.chats.replies =
      s.chats.replies := by
  unfold retryClaim
  split <;> rfl

theorem completeClaim_replies (s : Store) (sendId owner : String) :
    (completeClaim s sendId owner now).1.chats.replies = s.chats.replies := by
  unfold completeClaim
  repeat' split
  all_goals rfl

theorem failClaim_replies (s : Store) (sendId owner : String) (status : DeliveryStatus)
    (error : String) (answers : Bool) :
    (failClaim s sendId owner status error answers now).1.chats.replies = s.chats.replies := by
  unfold failClaim
  split
  · rfl
  dsimp only
  repeat' split
  all_goals rfl

/-- Among the operations on the queue only the claim of a reply reaches the replies. -/
theorem queueStep_frame (s : Store) (q : QueueCall)
    (hq : ∀ replyId owner deadline fireAndForget maxActive,
      q ≠ .claimReply replyId owner deadline fireAndForget maxActive) :
    (queueStep s now q).1.chats.replies = s.chats.replies := by
  cases q with
  | enqueue record answers => exact enqueueIdempotent_replies now s record answers
  | cancelPending sendId error answers => exact cancelPending_replies now s sendId error answers
  | claimNext owner leaseSeconds fireAndForget maxActive answers =>
    exact claimNext_replies now s owner leaseSeconds fireAndForget maxActive answers
  | retryClaim sendId owner retryAt retryAttempt error status =>
    exact retryClaim_replies now s sendId owner retryAt retryAttempt error status
  | completeClaim sendId owner => exact completeClaim_replies now s sendId owner
  | failClaim sendId owner status error answers =>
    exact failClaim_replies now s sendId owner status error answers
  | expireLeases answers readable =>
    exact (reconcile_replies now _ readable).trans (markUnavailable_replies _ _ _ _)
  | reconcile readable => exact reconcile_replies now s readable
  | claimReply replyId owner deadline fireAndForget maxActive => exact absurd rfl (hq _ _ _ _ _)
  | bumpToFront sendId => rfl
  | promoteOneTime sendId => rfl
  | renewLease sendId owner leaseSeconds => rfl

theorem accept_replies (sendId owner : String) (deadline : Time) :
    (accept c sendId owner deadline now).1.replies = c.replies := by
  unfold accept
  split <;> rfl

theorem acceptObserved_replies (sendId owner : String) (capture : CaptureResult)
    (deadline : Time) :
    (acceptObserved lib c sendId owner capture deadline now).1.replies = c.replies := by
  unfold acceptObserved
  split <;> rfl

theorem bindConversationRoute_replies (sendId owner path : String) :
    (bindConversationRoute c sendId owner path now).1.replies = c.replies := by
  unfold bindConversationRoute
  split <;> rfl

theorem write_replies (sendId owner : String) (capture : CaptureResult) (allow : Bool) :
    (write lib c sendId owner capture allow now).1.replies = c.replies := by
  unfold write
  repeat' split
  all_goals rfl

theorem renewCaptureDeadline_replies (sendId owner : String) (deadline : Time) :
    (renewCaptureDeadline c sendId owner deadline now).1.replies = c.replies := by
  unfold renewCaptureDeadline
  split <;> rfl

theorem observeHistoryGenerating_replies (sendId conversationId : String) :
    (observeHistoryGenerating c sendId conversationId now).1.replies = c.replies := by
  unfold observeHistoryGenerating
  split <;> rfl

theorem recoverHistoricalResponse_replies (sendId : String) (capture : CaptureResult) :
    (recoverHistoricalResponse lib c sendId capture now).1.replies = c.replies := by
  unfold recoverHistoricalResponse
  dsimp only
  repeat' split
  all_goals rfl

/-- Among the operations on the responses only a deployment reaches the replies. -/
theorem resultStep_frame (s : Store) (r : ResultCall)
    (hr : ∀ sendIds replyIds, r ≠ .prepareDeploymentRecovery sendIds replyIds) :
    (resultStep lib s now r).1.chats.replies = s.chats.replies := by
  cases r with
  | prepareDeploymentRecovery sendIds replyIds => exact absurd rfl (hr _ _)
  | markSubmitted sendId => rfl
  | accept sendId owner deadline => exact accept_replies s.chats now sendId owner deadline
  | acceptObserved sendId owner capture deadline =>
    exact acceptObserved_replies lib s.chats now sendId owner capture deadline
  | markGenerating sendId owner => rfl
  | bindConversationRoute sendId owner path =>
    exact bindConversationRoute_replies s.chats now sendId owner path
  | write sendId owner capture allow =>
    exact write_replies lib s.chats now sendId owner capture allow
  | renewCaptureDeadline sendId owner deadline =>
    exact renewCaptureDeadline_replies s.chats now sendId owner deadline
  | finish sendId owner status => rfl
  | unavailable sendId => rfl
  | uncertain sendId => rfl
  | recoverOrphans alive => rfl
  | observeHistoryGenerating sendId conversationId =>
    exact observeHistoryGenerating_replies s.chats now sendId conversationId
  | recoverHistorical sendId capture =>
    exact recoverHistoricalResponse_replies lib s.chats now sendId capture

end Frame

/-- The rows of the replies take the listed changes only. -/
theorem step_replies (lib : Stdlib) (s : Store) (call : Call) :
    Evolves (ReplyChange lib s call) (NewReply s call) s.chats.replies
      (step lib s call).1.chats.replies := by
  cases haction : call.action with
  | queue q =>
    rw [step_queue haction]
    cases q with
    | claimReply replyId owner deadline fireAndForget maxActive =>
      change Evolves _ _ _
        (claimReply s replyId owner deadline fireAndForget maxActive call.now).1.chats.replies
      unfold claimReply
      split
      · exact Evolves.refl _
      · exact claim_replies lib s call s.chats replyId owner deadline
          (Or.inr ⟨deadline, fireAndForget, maxActive, haction⟩)
    | _ =>
      refine Evolves.of_eq (queueStep_frame _ _ _ ?_)
      intros
      exact QueueCall.noConfusion
  | result r =>
    rw [step_result haction]
    cases r with
    | prepareDeploymentRecovery sendIds replyIds =>
      refine Evolves.update _ _ ?_ fun _ => by rfl
      intro r _ hr
      rw [Bool.and_eq_true] at hr
      exact ReplyChange.detached r sendIds replyIds haction hr.2
    | _ =>
      refine Evolves.of_eq (resultStep_frame _ _ _ _ ?_)
      intros
      exact ResultCall.noConfusion
  | reply r =>
    rw [step_reply haction]
    exact replyStep_replies lib s call r haction
  | stop sendId =>
    rw [step_stop haction]
    refine (Evolves.update _ _ ?_ fun _ => by rfl).trans
      (Evolves.update _ _ ?_ fun _ => by rfl)
    · intro r _ hr
      rw [Bool.and_eq_true] at hr
      exact ReplyChange.cancelled r hr.2
    · intro r _ hr
      rw [Bool.and_eq_true] at hr
      exact ReplyChange.stopped r hr.2

end Prompta.Service
