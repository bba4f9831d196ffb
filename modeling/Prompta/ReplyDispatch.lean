import Prompta.ReplyChanges

/-!
A reply is dispatched at most once. From its claim on a reply never returns to a
status in which it could be claimed, and while it is unsettled it stays with the
owner that claimed it. Only a deployment takes the owner away, and leaves none.
Both hold for every order of the calls of the service, from any stores.
-/
namespace Prompta.ReplyDispatch

open Runs Tables Texts DisplayBlocks Schema ResponseStore ReplyStore Service

def isDispatched : ReplyStatus → Bool
  | .dispatching => true
  | .outcomeUnknown => true
  | .accepted => true
  | .generating => true
  | .completed => true
  | .interrupted => true
  | .stopped => true
  | _ => false

def Deploys (call : Call) : Prop :=
  ∃ sendIds replyIds, call.action = .result (.prepareDeploymentRecovery sendIds replyIds)

/-- The reply was dispatched, and while it is unsettled it is with the owner, or with
none after a deployment. -/
structure DispatchedBy (owner : String) (deployed : Prop) (r : ReplyRow) : Prop where
  dispatched : isDispatched r.status = true
  owned : activeReply r.status = true → r.leaseOwner = owner ∨ (deployed ∧ r.leaseOwner = "")

theorem liveDispatch_iff {owner : String} {now : Time} {r : ReplyRow} :
    liveDispatch owner now r = true ↔
      activeReply r.status = true ∧ r.leaseOwner = owner ∧ now < r.leaseDeadline := by
  simp only [liveDispatch, Bool.and_eq_true, decide_eq_true_eq, and_assoc]

theorem not_dispatched {owner : String} {deployed : Prop} {r : ReplyRow} {status : ReplyStatus}
    (h : r.status = status) (hnot : isDispatched status = false)
    (hr : DispatchedBy owner deployed r) : False := by
  have hyes := hr.dispatched
  rw [h, hnot] at hyes
  exact Bool.noConfusion hyes

theorem isDispatched_of_settled {status : ReplyStatus} (h : recoverableParent status = true) :
    isDispatched status = true ∧ activeReply status = false := by
  cases status <;> simp_all [recoverableParent, isSettled, isDispatched, activeReply]

theorem endedReply_not_active (uncertain : Bool) (now : Time) (r : ReplyRow) :
    isDispatched (endedReply uncertain now r).status = true ∧
      activeReply (endedReply uncertain now r).status = false := by
  unfold endedReply
  dsimp only
  split <;> exact ⟨rfl, rfl⟩

/-- A dispatched reply stays dispatched by its owner, until its chat is detached for a deployment.
-/
theorem change_dispatched {lib : Stdlib} {s : Store} {call : Call} {owner : String}
    {deployed : Prop} (hdeploy : Deploys call → deployed) {r r' : ReplyRow}
    (h : ReplyChange lib s call r r') (hr : DispatchedBy owner deployed r) :
    DispatchedBy owner deployed r' := by
  cases h with
  | failed h => exact (not_dispatched h rfl hr).elim
  | rearmed h => exact (not_dispatched h rfl hr).elim
  | authorized h => exact (not_dispatched h rfl hr).elim
  | bound _ _ _ h => exact (not_dispatched h rfl hr).elim
  | identified messageId h =>
    simp only [unidentified, Bool.and_eq_true] at h
    obtain ⟨hdispatched, hactive⟩ := isDispatched_of_settled h.1.1
    have hstatus : isDispatched (identifiedReply messageId call.now r).status = true ∧
        activeReply (identifiedReply messageId call.now r).status = false := by
      unfold identifiedReply
      dsimp only
      split
      · exact ⟨rfl, rfl⟩
      · exact ⟨hdispatched, hactive⟩
    refine ⟨hstatus.1, fun hyes => ?_⟩
    rw [hstatus.2] at hyes
    exact Bool.noConfusion hyes
  | claimed _ _ _ _ _ h => exact (not_dispatched h rfl hr).elim
  | submitted _ _ hlive h => exact ⟨rfl, fun _ => hr.owned (liveDispatch_iff.mp hlive).1⟩
  | accepted _ _ _ _ hlive => exact ⟨rfl, fun _ => hr.owned (liveDispatch_iff.mp hlive).1⟩
  | observed presented capture _ hlive =>
    obtain ⟨hactive, howner, _⟩ := liveDispatch_iff.mp hlive
    have howned := hr.owned hactive
    by_cases hcomplete : capture.status = .complete
    · refine ⟨by simp [observeRow, hcomplete, isDispatched], ?_⟩
      simp [observeRow, hcomplete, activeReply]
    · refine ⟨by simp [observeRow, hcomplete, isDispatched], fun _ => ?_⟩
      simpa [observeRow, hcomplete, ← howner] using howned
  | progress => exact ⟨hr.dispatched, hr.owned⟩
  | renewed => exact ⟨hr.dispatched, hr.owned⟩
  | ended _ uncertain =>
    obtain ⟨hdispatched, hactive⟩ := endedReply_not_active uncertain call.now r
    refine ⟨hdispatched, fun hyes => ?_⟩
    rw [hactive] at hyes
    exact Bool.noConfusion hyes
  | orphaned =>
    obtain ⟨hdispatched, hactive⟩ := endedReply_not_active true call.now r
    refine ⟨hdispatched, fun hyes => ?_⟩
    rw [hactive] at hyes
    exact Bool.noConfusion hyes
  | detached sendIds replyIds hcall =>
    exact ⟨rfl, fun _ => Or.inr ⟨hdeploy ⟨sendIds, replyIds, hcall⟩, rfl⟩⟩
  | loaded => exact ⟨hr.dispatched, hr.owned⟩
  | recovered capture _ h =>
    unfold recoverReplyRow
    dsimp only
    refine ⟨?_, ?_⟩
    · dsimp only
      split
      · rfl
      · exact hr.dispatched
    · dsimp only
      split
      · intro hyes
        exact Bool.noConfusion hyes
      · exact hr.owned
  | cancelled h =>
    have hnot : isDispatched r.status = false := by
      cases hstatus : r.status <;> simp_all [isUnsent, isDispatched]
    exact (not_dispatched rfl hnot hr).elim
  | stopped => exact ⟨rfl, fun hyes => Bool.noConfusion hyes⟩

def DispatchedIn (replyId owner : String) (deployed : Prop) (s : Store) : Prop :=
  ∃ r, s.chats.replies.lookup replyId = some r ∧ DispatchedBy owner deployed r

/-- The same of its row through a call. -/
theorem step_dispatched (lib : Stdlib) (s : Store) (call : Call) (replyId owner : String)
    (deployed : Prop) (hdeploy : Deploys call → deployed)
    (hs : DispatchedIn replyId owner deployed s) :
    DispatchedIn replyId owner deployed (step lib s call).1 := by
  obtain ⟨r, hr, hdispatched⟩ := hs
  obtain ⟨r', hr', hpath⟩ := (step_replies lib s call).lookup_some
    (fun _ _ h => h.replyId_eq) hr
  refine ⟨r', hr', ?_⟩
  refine reflTransGen_keeps (P := DispatchedBy owner deployed) ?_ hpath hdispatched
  intro a b hab ha
  exact change_dispatched hdeploy hab ha

def Claims (e : ServiceEvent) (replyId owner : String) : Prop :=
  claims e.input replyId owner ∧ e.output = .changed true

/-- A claim that succeeds has found the reply prepared. -/
theorem claim_true {c : Chats} {replyId owner : String} {deadline now : Time}
    (h : (claim c replyId owner deadline now).2 = true) :
    ∃ r, c.replies.lookup replyId = some r ∧ r.status = .prepared ∧
      (claim c replyId owner deadline now).1.replies.lookup replyId =
        some (claimedRow owner deadline now r) := by
  unfold claim at h ⊢
  split at h
  · exact Bool.noConfusion h
  · rename_i hguard
    rw [if_neg hguard]
    obtain ⟨r, hr, hprepared⟩ := Table.hits_iff.mp h
    refine ⟨r, hr, by simpa using hprepared, ?_⟩
    dsimp only [updateReply]
    rw [Table.lookup_updateAt_self, hr, Option.map_some, if_pos hprepared]

/-- A claim that succeeds finds the reply prepared and leaves it dispatching. -/
theorem claims_effect (lib : Stdlib) (e : ServiceEvent) (replyId owner : String)
    (hstep : step lib e.pre e.input = (e.post, e.output)) (h : Claims e replyId owner) :
    (∃ r, e.pre.chats.replies.lookup replyId = some r ∧ r.status = .prepared) ∧
      ∃ r, e.post.chats.replies.lookup replyId = some r ∧ r.status = .dispatching ∧
        r.leaseOwner = owner := by
  obtain ⟨hcall, houtput⟩ := h
  rcases hcall with ⟨deadline, haction⟩ | ⟨deadline, fireAndForget, maxActive, haction⟩
  · rw [step_reply haction] at hstep
    have hpost : { e.pre with chats := (claim e.pre.chats replyId owner deadline e.input.now).1 } =
      e.post := congrArg Prod.fst hstep
    have hout : Output.changed (claim e.pre.chats replyId owner deadline e.input.now).2 =
      e.output := congrArg Prod.snd hstep
    rw [houtput, Output.changed.injEq] at hout
    obtain ⟨r, hr, hprepared, hlookup⟩ := claim_true hout
    refine ⟨⟨r, hr, hprepared⟩, claimedRow owner deadline e.input.now r, ?_, rfl, rfl⟩
    rw [← hpost]
    exact hlookup
  · rw [step_queue haction] at hstep
    have hpost : (DeliveryQueue.claimReply e.pre replyId owner deadline fireAndForget maxActive
      e.input.now).1 = e.post := congrArg Prod.fst hstep
    have hout : Output.changed (DeliveryQueue.claimReply e.pre replyId owner deadline fireAndForget
      maxActive e.input.now).2 = e.output := congrArg Prod.snd hstep
    rw [houtput, Output.changed.injEq] at hout
    unfold DeliveryQueue.claimReply at hpost hout
    split at hout
    · exact Bool.noConfusion hout
    · rename_i hcapacity
      rw [if_neg hcapacity] at hpost
      obtain ⟨r, hr, hprepared, hlookup⟩ := claim_true hout
      refine ⟨⟨r, hr, hprepared⟩, claimedRow owner deadline e.input.now r, ?_, rfl, rfl⟩
      rw [← hpost]
      exact hlookup

/-- An update that finds no row to rewrite leaves the tables. -/
theorem updateReply_refused (c : Chats) (replyId : String) (p : ReplyRow → Bool)
    (f : ReplyRow → ReplyRow) (hf : ∀ r, (f r).replyId = r.replyId)
    (h : c.replies.hits replyId p = false) : updateReply c replyId p f hf = (c, false) := by
  unfold updateReply
  rw [h, Table.updateAt_eq_self _ _ _ _ _ h]

/-- A condition that implies the owner's lease selects no row of another owner. -/
theorem hits_other {replies : Replies} {replyId owner : String} {p : ReplyRow → Bool}
    (hother : ∀ r, replies.lookup replyId = some r → activeReply r.status = true →
      r.leaseOwner ≠ owner)
    (hp : ∀ r, p r = true → activeReply r.status = true ∧ r.leaseOwner = owner) :
    replies.hits replyId p = false := by
  rw [Table.hits_eq_false_iff]
  intro r hr
  by_contra hyes
  rw [Bool.not_eq_false] at hyes
  obtain ⟨hactive, howner⟩ := hp r hyes
  exact hother r hr hactive howner

theorem filter_of_not_hits {replies : Replies} {replyId : String} {p : ReplyRow → Bool}
    (h : replies.hits replyId p = false) : (replies.lookup replyId).filter p = none := by
  rw [Option.filter_eq_none_iff]
  intro r hr
  rw [Table.hits_eq_false_iff] at h
  simp [h r hr]

section Refused

variable {c : Chats} {replyId owner : String}
  (hother : ∀ r, c.replies.lookup replyId = some r → activeReply r.status = true →
    r.leaseOwner ≠ owner)
include hother

theorem live_refused (now : Time) (p : ReplyRow → Bool)
    (hp : ∀ r, p r = true → liveDispatch owner now r = true) :
    c.replies.hits replyId p = false := by
  refine hits_other hother ?_
  intro r hr
  obtain ⟨hactive, howner, _⟩ := liveDispatch_iff.mp (hp r hr)
  exact ⟨hactive, howner⟩

theorem acknowledgeSubmission_refused (now : Time) (conversationId parentId : String) :
    acknowledgeSubmission c replyId owner conversationId parentId now = (c, false) := by
  refine updateReply_refused _ _ _ _ _ (live_refused hother now _ ?_)
  intro r hr
  simp only [Bool.and_eq_true] at hr
  exact hr.1.1.1

theorem accepted_refused (now : Time) (conversationId parentId messageId : String)
    (responseParentId : Option String) :
    accepted c replyId owner conversationId parentId messageId responseParentId now =
      (c, false) := by
  unfold accepted
  dsimp only
  split
  · rfl
  · refine updateReply_refused _ _ _ _ _ (live_refused hother now _ ?_)
    intro r hr
    simp only [Bool.and_eq_true] at hr
    exact hr.1.1.1.1

theorem observe_refused (now : Time) (lib : Stdlib) (capture : CaptureResult) :
    observe lib c replyId owner capture now = (c, false) := by
  have h := filter_of_not_hits (live_refused hother now
    (fun r => liveDispatch owner now r && answeringReply r.status) (by
      intro r hr
      exact (Bool.and_eq_true _ _ ▸ hr).1))
  unfold observe
  dsimp only
  rw [h]

theorem observeTools_refused (now : Time) (lib : Stdlib) (capture : CaptureResult) :
    observeTools lib c replyId owner capture now = (c, false) := by
  have h := filter_of_not_hits (live_refused hother now
    (fun r => liveDispatch owner now r &&
      decide (capture.conversationId = some r.conversationId)) (by
      intro r hr
      exact (Bool.and_eq_true _ _ ▸ hr).1))
  unfold observeTools
  dsimp only
  rw [h]
  split <;> rfl

theorem renew_refused (now : Time) (deadline : Time) :
    renew c replyId owner deadline now = (c, false) := by
  unfold renew
  split
  · rfl
  · exact updateReply_refused _ _ _ _ _ (live_refused hother now _ fun _ hr => hr)

theorem finish_refused (now : Time) (uncertain : Bool) :
    ReplyStore.finish c replyId owner uncertain now = (c, false) := by
  refine updateReply_refused _ _ _ _ _ (hits_other hother ?_)
  intro r hr
  simpa only [Bool.and_eq_true, decide_eq_true_eq] using hr

end Refused

/-- A call on a claimed reply does nothing, unless it presents the reply's owner. -/
theorem replyOwner_refused (lib : Stdlib) (s : Store) (call : Call) (replyId owner : String)
    (hcall : replyOwner call = some (replyId, owner))
    (hother : ∀ r, s.chats.replies.lookup replyId = some r → activeReply r.status = true →
      r.leaseOwner ≠ owner) : step lib s call = (s, .changed false) := by
  have hdone : ∀ outcome : Chats × Bool, outcome = (s.chats, false) →
      onChats s .changed outcome = (s, .changed false) := by
    rintro outcome rfl
    rfl
  unfold replyOwner at hcall
  split at hcall
  · rename_i conversationId parentId haction
    cases hcall
    rw [step_reply haction]
    exact hdone _ (acknowledgeSubmission_refused hother call.now conversationId parentId)
  · rename_i conversationId parentId messageId responseParentId haction
    cases hcall
    rw [step_reply haction]
    exact hdone _ (accepted_refused hother call.now conversationId parentId messageId
      responseParentId)
  · rename_i capture haction
    cases hcall
    rw [step_reply haction]
    exact hdone _ (observe_refused hother call.now lib capture)
  · rename_i capture haction
    cases hcall
    rw [step_reply haction]
    exact hdone _ (observeTools_refused hother call.now lib capture)
  · rename_i deadline haction
    cases hcall
    rw [step_reply haction]
    exact hdone _ (renew_refused hother call.now deadline)
  · rename_i uncertain haction
    cases hcall
    rw [step_reply haction]
    exact hdone _ (finish_refused hother call.now uncertain)
  · cases hcall

/-- Over every run, from any stores: a reply is claimed at most once; after its claim it
is never queued, prepared or failed before its dispatch again; and a call that presents
another owner changes nothing. (A deployment leaves the reply without an owner: then
only the empty name could be presented.) -/
theorem reply_dispatched_at_most_once (lib : Stdlib) (s : Store) (run : List Call)
    (before after : List (ServiceEvent)) (e : ServiceEvent)
    (replyId owner : String) (hevents : events (step lib) s run = before ++ e :: after)
    (hclaims : Claims e replyId owner) :
    (∀ b ∈ after, ∀ owner', ¬ Claims b replyId owner') ∧
    (∀ b ∈ after, ∃ r, b.post.chats.replies.lookup replyId = some r ∧
      r.status ≠ .queued ∧ r.status ≠ .prepared ∧ r.status ≠ .preflightFailed) ∧
    (∀ b ∈ after, ∀ owner', replyOwner b.input = some (replyId, owner') → owner' ≠ owner →
      (owner' ≠ "" ∨ ∀ call ∈ run, ¬ Deploys call) →
        b.post = b.pre ∧ b.output = .changed false) := by
  have hsteps : ∀ b, b = e ∨ b ∈ after → b ∈ events (step lib) s run := by
    rintro b (rfl | hb) <;> rw [hevents] <;> simp [*]
  have hcarried : ∀ b ∈ after,
      DispatchedIn replyId owner (∃ call ∈ run, Deploys call) b.pre ∧
        DispatchedIn replyId owner (∃ call ∈ run, Deploys call) b.post := by
    refine carried_after (step lib) _ s run before after e hevents ?_ ?_
    · have hstep := event_step (step lib) s run e (hsteps e (Or.inl rfl))
      obtain ⟨_, r, hr, hstatus, howner⟩ := claims_effect lib e replyId owner hstep hclaims
      refine ⟨r, hr, by rw [hstatus]; rfl, fun _ => Or.inl howner⟩
    · intro b hb hpre
      have hmem := hsteps b (Or.inr hb)
      have hkeep := step_dispatched lib b.pre b.input replyId owner (∃ call ∈ run, Deploys call)
        (fun h => ⟨b.input, event_input (step lib) s run b hmem, h⟩) hpre
      rw [event_step (step lib) s run b hmem] at hkeep
      exact hkeep
  refine ⟨?_, ?_, ?_⟩
  · intro b hb owner' hagain
    obtain ⟨r, hr, hdispatched⟩ := (hcarried b hb).1
    have hstep := event_step (step lib) s run b (hsteps b (Or.inr hb))
    obtain ⟨⟨r', hr', hprepared⟩, _⟩ := claims_effect lib b replyId owner' hstep hagain
    rw [hr, Option.some.injEq] at hr'
    subst hr'
    exact not_dispatched hprepared rfl hdispatched
  · intro b hb
    obtain ⟨r, hr, hdispatched⟩ := (hcarried b hb).2
    refine ⟨r, hr, ?_, ?_, ?_⟩
    · intro h
      exact not_dispatched h rfl hdispatched
    · intro h
      exact not_dispatched h rfl hdispatched
    · intro h
      exact not_dispatched h rfl hdispatched
  · intro b hb owner' hcall hne hpresented
    obtain ⟨r, hr, hdispatched⟩ := (hcarried b hb).1
    have hrefused := replyOwner_refused lib b.pre b.input replyId owner' hcall (by
      intro r' hr' hactive howner'
      rw [hr, Option.some.injEq] at hr'
      subst hr'
      rcases hdispatched.owned hactive with howner | ⟨⟨call, hmem, hdeploys⟩, hnone⟩
      · exact hne (howner' ▸ howner)
      · rcases hpresented with hpresented | hpresented
        · exact hpresented (howner' ▸ hnone)
        · exact hpresented call hmem hdeploys)
    rw [event_step (step lib) s run b (hsteps b (Or.inr hb)), Prod.mk.injEq] at hrefused
    exact hrefused

def preparedStore : Store :=
  { Store.empty with
    chats :=
      { Store.empty.chats with
        replies := Table.empty.insertNew
          { replyId := "reply-1", sendId := "manual-1", userText := ['m', 'o', 'r', 'e'],
            status := .prepared, createdAt := 5, updatedAt := 5 } } }

def firstClaim : ServiceEvent :=
  eventOf plainLib preparedStore ⟨.reply (.claim "reply-1" "worker-1" 90), 10⟩

def secondClaim : ServiceEvent :=
  eventOf plainLib firstClaim.post ⟨.reply (.claim "reply-1" "worker-2" 90), 11⟩

theorem reply_dispatched_at_most_once_twice :
    firstClaim.output = .changed true ∧ ¬ Claims secondClaim "reply-1" "worker-2" := by
  have houtput : firstClaim.output = .changed true := rfl
  have hclaims : Claims firstClaim "reply-1" "worker-1" := ⟨Or.inl ⟨90, rfl⟩, houtput⟩
  refine ⟨houtput, ?_⟩
  exact (reply_dispatched_at_most_once plainLib preparedStore [firstClaim.input, secondClaim.input]
    [] [secondClaim] firstClaim "reply-1" "worker-1" rfl hclaims).1 secondClaim
      List.mem_cons_self "worker-2"

end Prompta.ReplyDispatch
