import Prompta.DeliveryChanges

/-!
What one call of the service can do to a row of the results, with the guard the
row has passed. The calls that decide a later result are named in the change.
-/
namespace Prompta.Service

open Tables Texts DisplayBlocks Schema ResponseStore ReplyStore DeliveryQueue

inductive ResultChange (lib : Stdlib) (call : Call) : ResultRow → ResultRow → Prop
  | named (r : ResultRow) (jobName : String) (h : r.jobName = "") :
      ResultChange lib call r { r with jobName := jobName }
  | combined (r : ResultRow) (text : Text) (h : r.status = .queued)
      (hcall : followsUp call = true) :
      ResultChange lib call r (combinedRow text call.now r)
  | submitted (r : ResultRow) (h : r.status = .queued) :
      ResultChange lib call r (submittedRow call.now r)
  | accepted (r : ResultRow) (owner : String) (deadline : Time)
      (hcall : call.action = .result (.accept r.sendId owner deadline))
      (hdeadline : call.now < deadline) (h : awaitsAcceptance r.status = true) :
      ResultChange lib call r (acceptedRow owner deadline call.now r)
  | observed (r : ResultRow) (owner : String) (capture : CaptureResult) (deadline : Time)
      (hcall : call.action = .result (.acceptObserved r.sendId owner capture deadline))
      (hdeadline : call.now < deadline) (hexact : exactEvidence capture = true)
      (h : unidentifiedResult r = true) :
      ResultChange lib call r (observedRow lib owner capture deadline call.now r)
  | generating (r : ResultRow) (owner : String) (hlive : liveCapture owner call.now r = true)
      (h : r.status = .accepted) : ResultChange lib call r (generatingRow call.now r)
  | routed (r : ResultRow) (owner conversationId : String)
      (hlive : liveCapture owner call.now r = true)
      (h : r.conversationId = "" ∨ r.conversationId = conversationId) :
      ResultChange lib call r (routedRow conversationId call.now r)
  | tools (r : ResultRow) (owner : String) (capture : CaptureResult) (allow : Bool)
      (hcall : call.action = .result (.write r.sendId owner capture allow))
      (hlive : liveCapture owner call.now r = true)
      (h : identityConflict capture allow r = false) :
      ResultChange lib call r (writeTools lib capture call.now r)
  | text (r : ResultRow) (owner : String) (capture : CaptureResult) (allow : Bool)
      (hcall : call.action = .result (.write r.sendId owner capture allow))
      (hlive : liveCapture owner call.now r = true)
      (h : identityConflict capture allow r = false) :
      ResultChange lib call r (writeText lib owner capture call.now r)
  | extended (r : ResultRow) (owner : String) (deadline : Time)
      (hlive : liveCapture owner call.now r = true) (h : r.captureDeadline < deadline) :
      ResultChange lib call r (extendedRow deadline r)
  | ended (r : ResultRow) (status : FinishStatus) (h : isCapturing r.status = true) :
      ResultChange lib call r (endedRow status.result call.now r)
  | unavailable (r : ResultRow) (h : r.status = .queued) :
      ResultChange lib call r (unavailableRow call.now r)
  | unknown (r : ResultRow) (h : unproven r = true) :
      ResultChange lib call r (markUnknown call.now r)
  | detached (r : ResultRow) (h : ownedCapture call.now r = true) :
      ResultChange lib call r (detachedRow call.now r)
  | live (r : ResultRow) (conversationId : String) (h : recoverableRow conversationId r = true) :
      ResultChange lib call r (liveRow call.now r)
  | recovered (r : ResultRow) (capture : CaptureResult)
      (hcall : call.action = .result (.recoverHistorical r.sendId capture))
      (husable : usableProbe capture = true)
      (h : recoverableRow (orElse capture.conversationId "") r = true)
      (hmessage : otherMessage r.messageId capture = false) :
      ResultChange lib call r (recoverRow lib capture call.now r)
  | identified (r : ResultRow) (conversationId messageId : String) (answer : Text)
      (h : unidentifiedOriginal conversationId answer r = true)
      (hmessage : isUuid messageId = true) :
      ResultChange lib call r (identifiedRow messageId r)
  | stopped (r : ResultRow) (h : stopsResult r.status = true) :
      ResultChange lib call r (stopResult call.now r)

/-- A new row comes with its delivery and holds no answer. -/
def NewResult (call : Call) (r : ResultRow) : Prop :=
  (∃ record answers, call.action = .queue (.enqueue record answers)) ∧
    ∃ sendId jobName userText at_, r =
      { sendId := sendId, jobName := jobName, userText := userText, createdAt := at_,
        updatedAt := at_ }

theorem ResultChange.sendId_eq {lib : Stdlib} {call : Call} {r r' : ResultRow}
    (h : ResultChange lib call r r') : r'.sendId = r.sendId := by
  cases h <;> rfl

section Evolution

variable (lib : Stdlib) (call : Call)

/-- An update of one row, where the rewriting is one of the changes. -/
theorem updateResult_evolves (c : Chats) (sendId : String) (p : ResultRow → Bool)
    (f : ResultRow → ResultRow)
    (h : ∀ r, r.sendId = sendId → p r = true → ResultChange lib call r (f r))
    {hf : ∀ r, (f r).sendId = r.sendId} :
    Evolves (ResultChange lib call) (NewResult call) c.results
      (updateResult c sendId p f hf).1.results := by
  refine Evolves.updateAt _ _ _ ?_ hf
  intro r hr hp
  exact h r (Table.lookup_key hr) hp

/-- The row of a new delivery holds no answer. -/
theorem ensureQueued_evolves (c : Chats) (sendId : String) (userText : Text) (jobName : String)
    (now : Time) (hcall : ∃ record answers, call.action = .queue (.enqueue record answers)) :
    Evolves (ResultChange lib call) (NewResult call) c.results
      (ensureQueued c sendId userText jobName now).results := by
  have hinsert : Evolves (ResultChange lib call) (NewResult call) c.results
      (c.results.insertNew
        { sendId := sendId, jobName := jobName, userText := userText.take maxText,
          createdAt := now, updatedAt := now }) :=
    Evolves.insertNew _ fun _ => ⟨hcall, _, _, _, _, rfl⟩
  unfold ensureQueued
  dsimp only
  split
  · exact hinsert
  · refine hinsert.trans (Evolves.updateAt _ _ _ ?_ fun _ => by rfl)
    intro r _ hr
    exact ResultChange.named r jobName (by simpa using hr)

theorem unavailable_evolves (c : Chats) (sendId : String) :
    Evolves (ResultChange lib call) (NewResult call) c.results
      (unavailable c sendId call.now).results := by
  refine updateResult_evolves lib call c sendId _ _ ?_
  intro r _ hr
  exact ResultChange.unavailable r (by simpa using hr)

theorem markUnavailable_evolves (c : Chats) (answers : String → Bool) (sendIds : List String) :
    Evolves (ResultChange lib call) (NewResult call) c.results
      (markUnavailable c answers sendIds call.now).results := by
  induction sendIds generalizing c with
  | nil => exact Evolves.refl _
  | cons sendId rest ih =>
    rw [markUnavailable_cons]
    refine Evolves.trans ?_ (ih _)
    split
    · exact unavailable_evolves lib call c sendId
    · exact Evolves.refl _

theorem uncertain_evolves (c : Chats) (sendId : String) :
    Evolves (ResultChange lib call) (NewResult call) c.results
      (uncertain c sendId call.now).results := by
  refine updateResult_evolves lib call c sendId _ _ ?_
  intro r _ hr
  exact ResultChange.unknown r hr

theorem reconcile_results (s : Store) (readable : Bool) :
    Evolves (ResultChange lib call) (NewResult call) s.chats.results
      (reconcileAcceptedOutcomes s readable call.now).1.chats.results := by
  unfold reconcileAcceptedOutcomes
  split
  · exact Evolves.refl _
  · refine Evolves.update _ _ ?_ fun _ => by rfl
    intro r _ hr
    rw [Bool.and_eq_true] at hr
    exact ResultChange.unknown r hr.2

theorem queueStep_results (s : Store) (q : QueueCall) (hcall : call.action = .queue q) :
    Evolves (ResultChange lib call) (NewResult call) s.chats.results
      (queueStep s call.now q).1.chats.results := by
  cases q with
  | enqueue record answers =>
    change Evolves _ _ _ (enqueueIdempotent s record answers call.now).1.chats.results
    unfold enqueueIdempotent
    split
    · exact Evolves.refl _
    split
    · exact Evolves.refl _
    split
    · exact Evolves.refl _
    split
    · dsimp only
      split
      · exact ensureQueued_evolves lib call _ _ _ _ _ ⟨record, answers, hcall⟩
      · exact Evolves.refl _
    · dsimp only
      split
      · exact ensureQueued_evolves lib call _ _ _ _ _ ⟨record, answers, hcall⟩
      · exact Evolves.refl _
  | bumpToFront sendId => exact Evolves.refl _
  | promoteOneTime sendId => exact Evolves.refl _
  | cancelPending sendId error answers =>
    change Evolves _ _ _ (cancelPending s sendId error answers call.now).1.chats.results
    unfold cancelPending
    dsimp only
    split
    · exact unavailable_evolves lib call s.chats sendId
    · exact Evolves.refl _
  | claimNext owner leaseSeconds fireAndForget maxActive answers =>
    have h := markUnavailable_evolves lib call s.chats answers (expireRows s.queue call.now).2
    change Evolves _ _ _ (claimNext s owner leaseSeconds fireAndForget maxActive answers
      call.now).1.chats.results
    unfold claimNext
    dsimp only
    split
    · exact h
    split
    · exact h
    · exact h
  | renewLease sendId owner leaseSeconds => exact Evolves.refl _
  | retryClaim sendId owner retryAt retryAttempt error status =>
    change Evolves _ _ _ (retryClaim s sendId owner retryAt retryAttempt error status
      call.now).1.chats.results
    unfold retryClaim
    split
    · exact Evolves.refl _
    · exact Evolves.refl _
  | completeClaim sendId owner =>
    change Evolves _ _ _ (completeClaim s sendId owner call.now).1.chats.results
    unfold completeClaim
    split
    · exact Evolves.refl _
    split
    · exact Evolves.refl _
    · exact Evolves.refl _
    split
    · exact Evolves.refl _
    · exact Evolves.refl _
  | failClaim sendId owner status error answers =>
    change Evolves _ _ _ (failClaim s sendId owner status error answers call.now).1.chats.results
    unfold failClaim
    split
    · exact Evolves.refl _
    dsimp only
    split
    · dsimp only
      split
      · exact uncertain_evolves lib call s.chats sendId
      · exact unavailable_evolves lib call s.chats sendId
    · exact Evolves.refl _
  | expireLeases answers readable =>
    exact (markUnavailable_evolves lib call s.chats answers (expireRows s.queue call.now).2).trans
      (reconcile_results lib call ⟨(expireRows s.queue call.now).1, _⟩ readable)
  | reconcile readable => exact reconcile_results lib call s readable
  | claimReply replyId owner deadline fireAndForget maxActive =>
    change Evolves _ _ _ (claimReply s replyId owner deadline fireAndForget maxActive
      call.now).1.chats.results
    unfold claimReply claim
    split
    · exact Evolves.refl _
    split
    · exact Evolves.refl _
    · exact Evolves.refl _

/-- The owner's snapshot. -/
theorem write_evolves (c : Chats) (sendId owner : String) (capture : CaptureResult)
    (allow : Bool) (hcall : call.action = .result (.write sendId owner capture allow)) :
    Evolves (ResultChange lib call) (NewResult call) c.results
      (write lib c sendId owner capture allow call.now).1.results := by
  rcases write_cases lib c sendId owner capture allow call.now with
    hrefused | ⟨r, hr, haccepts, ⟨_, hwrites⟩ | ⟨_, hwrites⟩⟩
  · exact Evolves.of_eq (by rw [hrefused])
  all_goals
    simp only [acceptsSnapshot, Bool.and_eq_true, Bool.not_eq_true'] at haccepts
    have hid : r.sendId = sendId := Table.lookup_key hr
    rw [hwrites]
    refine Evolves.updateAt _ _ _ ?_ fun _ => by rfl
    intro r' hr' hlive
    have hsame : r' = r := by
      rw [hr] at hr'
      exact (Option.some.inj hr').symm
    subst hsame
  · exact ResultChange.tools r' owner capture allow (hid ▸ hcall) hlive haccepts.2
  · exact ResultChange.text r' owner capture allow (hid ▸ hcall) hlive haccepts.2

/-- A reading of the page, for the row that it names. -/
theorem recoverHistorical_evolves (c : Chats) (sendId : String) (capture : CaptureResult)
    (hcall : call.action = .result (.recoverHistorical sendId capture)) :
    Evolves (ResultChange lib call) (NewResult call) c.results
      (recoverHistoricalResponse lib c sendId capture call.now).1.results := by
  rcases recoverHistoricalResponse_cases lib c sendId capture call.now with
    hrefused | ⟨r, hr, haccepts, hwrites⟩
  · exact Evolves.of_eq (by rw [hrefused])
  simp only [acceptsProbe, Bool.and_eq_true, Bool.not_eq_true'] at haccepts
  have hid : r.sendId = sendId := Table.lookup_key hr
  rw [hwrites]
  refine Evolves.updateAt _ _ _ ?_ fun _ => by rfl
  intro r' hr' hrow
  have hsame : r' = r := by
    rw [hr] at hr'
    exact (Option.some.inj hr').symm
  subst hsame
  exact ResultChange.recovered r' capture (hid ▸ hcall) haccepts.1.1.1 hrow haccepts.1.2

theorem resultStep_results (s : Store) (r : ResultCall) (hcall : call.action = .result r) :
    Evolves (ResultChange lib call) (NewResult call) s.chats.results
      (resultStep lib s call.now r).1.chats.results := by
  cases r with
  | markSubmitted sendId =>
    refine updateResult_evolves lib call s.chats sendId _ _ ?_
    intro r _ hr
    exact ResultChange.submitted r (by simpa using hr)
  | accept sendId owner deadline =>
    change Evolves _ _ _ (accept s.chats sendId owner deadline call.now).1.results
    unfold accept
    split
    · exact Evolves.refl _
    · rename_i hdeadline
      refine updateResult_evolves lib call s.chats sendId _ _ ?_
      rintro r rfl hr
      exact ResultChange.accepted r owner deadline hcall (not_le.mp hdeadline) hr
  | acceptObserved sendId owner capture deadline =>
    change Evolves _ _ _
        (acceptObserved lib s.chats sendId owner capture deadline call.now).1.results
    unfold acceptObserved
    split
    · exact Evolves.refl _
    · rename_i hguard
      simp only [Bool.or_eq_true, decide_eq_true_eq, Bool.not_eq_true', not_or, not_le,
        Bool.not_eq_false] at hguard
      refine updateResult_evolves lib call s.chats sendId _ _ ?_
      rintro r rfl hr
      exact ResultChange.observed r owner capture deadline hcall hguard.1 hguard.2 hr
  | markGenerating sendId owner =>
    refine updateResult_evolves lib call s.chats sendId _ _ ?_
    intro r _ hr
    simp only [Bool.and_eq_true, decide_eq_true_eq] at hr
    exact ResultChange.generating r owner hr.1 hr.2
  | bindConversationRoute sendId owner path =>
    change Evolves _ _ _ (bindConversationRoute s.chats sendId owner path call.now).1.results
    unfold bindConversationRoute
    split
    · exact Evolves.refl _
    · refine updateResult_evolves lib call s.chats sendId _ _ ?_
      intro r _ hr
      simp only [Bool.and_eq_true, Bool.or_eq_true, decide_eq_true_eq] at hr
      exact ResultChange.routed r owner _ hr.1 hr.2
  | write sendId owner capture allow =>
    exact write_evolves lib call s.chats sendId owner capture allow hcall
  | renewCaptureDeadline sendId owner deadline =>
    change Evolves _ _ _ (renewCaptureDeadline s.chats sendId owner deadline call.now).1.results
    unfold renewCaptureDeadline
    split
    · exact Evolves.refl _
    · refine updateResult_evolves lib call s.chats sendId _ _ ?_
      intro r _ hr
      simp only [Bool.and_eq_true, decide_eq_true_eq] at hr
      exact ResultChange.extended r owner deadline hr.1 hr.2
  | finish sendId owner status =>
    refine updateResult_evolves lib call s.chats sendId _ _ ?_
    intro r _ hr
    rw [Bool.and_eq_true] at hr
    exact ResultChange.ended r status hr.2
  | unavailable sendId => exact unavailable_evolves lib call s.chats sendId
  | uncertain sendId => exact uncertain_evolves lib call s.chats sendId
  | prepareDeploymentRecovery sendIds replyIds =>
    refine Evolves.update _ _ ?_ fun _ => by rfl
    intro r _ hr
    rw [Bool.and_eq_true] at hr
    exact ResultChange.detached r hr.2
  | recoverOrphans alive =>
    refine Evolves.update _ _ ?_ fun _ => by rfl
    intro r _ hr
    simp only [staleCapture, Bool.and_eq_true] at hr
    exact ResultChange.ended r .interrupted hr.1
  | observeHistoryGenerating sendId conversationId =>
    change Evolves _ _ _ (observeHistoryGenerating s.chats sendId conversationId call.now).1.results
    unfold observeHistoryGenerating
    split
    · exact Evolves.refl _
    · refine updateResult_evolves lib call s.chats sendId _ _ ?_
      intro r _ hr
      exact ResultChange.live r conversationId hr
  | recoverHistorical sendId capture =>
    exact recoverHistorical_evolves lib call s.chats sendId capture hcall

/-- A merged follow-up rewrites the prompt of a queued row. -/
theorem followup_results (s : Store) (sendId replyId : String) (text : Text)
    (withQueue : Bool) (hcall : followsUp call = true) :
    Evolves (ResultChange lib call) (NewResult call) s.chats.results
      (queueFollowup lib s sendId replyId text withQueue call.now).1.chats.results := by
  have hrefl : Evolves (ResultChange lib call) (NewResult call) s.chats.results s.chats.results :=
    Evolves.refl _
  unfold queueFollowup
  split
  · exact hrefl
  split
  · exact hrefl
  split
  · split_ifs <;> exact hrefl
  split
  · exact hrefl
  split
  · exact hrefl
  split
  · dsimp only
    refine updateResult_evolves lib call s.chats sendId _ _ ?_
    intro r _ hr
    exact ResultChange.combined r _ (by simpa using hr) hcall
  · exact hrefl

/-- A verified message is written to the row that has none. -/
theorem recoverOriginalParent_results (c : Chats) (sendId conversationId messageId : String)
    (originalAnswer : Text) :
    Evolves (ResultChange lib call) (NewResult call) c.results
      (recoverOriginalParent c sendId conversationId messageId originalAnswer).1.results := by
  unfold recoverOriginalParent
  split
  · exact Evolves.refl _
  rename_i huuid
  simp only [Bool.or_eq_true, Bool.not_eq_true', not_or, Bool.not_eq_false] at huuid
  split
  · exact Evolves.refl _
  · refine updateResult_evolves lib call c sendId _ _ ?_
    intro r _ hr
    exact ResultChange.identified r conversationId messageId originalAnswer hr huuid.2

end Evolution

section Frame

variable (lib : Stdlib) (c : Chats) (now : Time)

theorem prepare_results (sendId : String) (intent : ReplyIntent) :
    (prepare c sendId intent now).1.results = c.results := by
  unfold prepare
  repeat' split
  all_goals rfl

theorem retryPreflight_results (replyId : String) :
    (retryPreflight c replyId now).1.results = c.results := by
  unfold retryPreflight
  dsimp only
  split <;> rfl

theorem queueExplicitSend_results (sendId : String) (intent : ReplyIntent) :
    (queueExplicitSend c sendId intent now).1.results = c.results := by
  have hprepare := prepare_results c now sendId intent
  unfold queueExplicitSend
  cases hp : prepare c sendId intent now with
  | mk prepared outcome =>
    rw [hp] at hprepare
    cases outcome with
    | error refusal => exact hprepare
    | ok turn =>
      have hretry := retryPreflight_results prepared now intent.replyId
      by_cases hfailed : turn.status = .preflightFailed
      · simp only [hfailed, if_true]
        cases hr : retryPreflight prepared intent.replyId now with
        | mk rearmed outcome' =>
          rw [hr] at hretry
          cases outcome' with
          | error refusal => exact hretry.trans hprepare
          | ok turn' =>
            dsimp only
            split
            · split <;> exact hretry.trans hprepare
            · exact hretry.trans hprepare
      · simp only [hfailed, if_false]
        split
        · split <;> exact hprepare
        · exact hprepare

theorem nextQueuedIntent_results (exclude : List String) :
    (nextQueuedIntent c exclude now).1.results = c.results := by
  unfold nextQueuedIntent
  split
  · rfl
  · dsimp only
    split <;> rfl

theorem recoverReplyParent_results (sendId replyId conversationId previousParentId : String)
    (userText assistantText : Text) (messageId : String) :
    (recoverReplyParent c sendId replyId conversationId previousParentId userText assistantText
      messageId now).1.results = c.results := by
  unfold recoverReplyParent
  repeat' split
  all_goals rfl

theorem claim_results (replyId owner : String) (deadline : Time) :
    (claim c replyId owner deadline now).1.results = c.results := by
  unfold claim
  split <;> rfl

theorem accepted_results (replyId owner conversationId parentId messageId : String)
    (responseParentId : Option String) :
    (accepted c replyId owner conversationId parentId messageId responseParentId now).1.results =
      c.results := by
  unfold accepted
  dsimp only
  split <;> rfl

theorem observe_results (replyId owner : String) (capture : CaptureResult) :
    (observe lib c replyId owner capture now).1.results = c.results := by
  unfold observe
  dsimp only
  repeat' split
  all_goals rfl

theorem observeTools_results (replyId owner : String) (capture : CaptureResult) :
    (observeTools lib c replyId owner capture now).1.results = c.results := by
  unfold observeTools
  dsimp only
  repeat' split
  all_goals rfl

theorem renew_results (replyId owner : String) (deadline : Time) :
    (renew c replyId owner deadline now).1.results = c.results := by
  unfold renew
  split <;> rfl

theorem observeHistoryLoaded_results (replyId conversationId : String)
    (parentId : Option String) :
    (observeHistoryLoaded c replyId conversationId parentId now).1.results = c.results := by
  unfold observeHistoryLoaded
  split <;> rfl

theorem recoverHistoricalReply_results (replyId : String) (capture : CaptureResult) :
    (recoverHistoricalReply lib c replyId capture now).1.results = c.results := by
  unfold recoverHistoricalReply
  repeat' split
  all_goals rfl

end Frame

/-- Of the operations on replies only two reach the results. -/
theorem replyStep_results (lib : Stdlib) (s : Store) (call : Call) (r : ReplyCall)
    (hcall : call.action = .reply r) :
    Evolves (ResultChange lib call) (NewResult call) s.chats.results
      (replyStep lib s call.now r).1.chats.results := by
  cases r with
  | prepare sendId intent => exact Evolves.of_eq (prepare_results _ _ _ _)
  | queueExplicitSend sendId intent => exact Evolves.of_eq (queueExplicitSend_results _ _ _ _)
  | authorizeSend sendId intent => exact Evolves.refl _
  | queueFollowup sendId replyId text withQueue =>
    exact followup_results lib call s sendId replyId text withQueue (by rw [followsUp, hcall])
  | nextQueuedIntent exclude => exact Evolves.of_eq (nextQueuedIntent_results _ _ _)
  | markPreflightFailed replyId => exact Evolves.refl _
  | retryPreflight replyId => exact Evolves.of_eq (retryPreflight_results _ _ _)
  | recoverOriginalParent sendId conversationId messageId originalAnswer =>
    exact recoverOriginalParent_results lib call s.chats sendId conversationId messageId
      originalAnswer
  | recoverReplyParent sendId replyId conversationId previousParentId userText assistantText
      messageId => exact Evolves.of_eq (recoverReplyParent_results _ _ _ _ _ _ _ _ _)
  | claim replyId owner deadline => exact Evolves.of_eq (claim_results _ _ _ _ _)
  | acknowledgeSubmission replyId owner conversationId parentId => exact Evolves.refl _
  | accepted replyId owner conversationId parentId messageId responseParentId =>
    exact Evolves.of_eq (accepted_results _ _ _ _ _ _ _ _)
  | observe replyId owner capture => exact Evolves.of_eq (observe_results _ _ _ _ _ _)
  | observeTools replyId owner capture => exact Evolves.of_eq (observeTools_results _ _ _ _ _ _)
  | renew replyId owner deadline => exact Evolves.of_eq (renew_results _ _ _ _ _)
  | finish replyId owner uncertain => exact Evolves.refl _
  | recoverOrphans alive => exact Evolves.refl _
  | observeHistoryLoaded replyId conversationId parentId =>
    exact Evolves.of_eq (observeHistoryLoaded_results _ _ _ _ _)
  | recoverHistorical replyId capture =>
    exact Evolves.of_eq (recoverHistoricalReply_results _ _ _ _ _)

/-- The rows of the results take the listed changes only. -/
theorem step_results (lib : Stdlib) (s : Store) (call : Call) :
    Evolves (ResultChange lib call) (NewResult call) s.chats.results
      (step lib s call).1.chats.results := by
  cases haction : call.action with
  | queue q =>
    rw [step_queue haction]
    exact queueStep_results lib call s q haction
  | result r =>
    rw [step_result haction]
    exact resultStep_results lib call s r haction
  | reply r =>
    rw [step_reply haction]
    exact replyStep_results lib s call r haction
  | stop sendId =>
    rw [step_stop haction]
    refine Evolves.updateAt _ _ _ ?_ fun _ => by rfl
    intro r _ hr
    exact ResultChange.stopped r hr

end Prompta.Service
