import Mathlib.Data.List.Perm.Subperm
import Prompta.ReplyChanges

/-!
The limit on active sends. A slot is held by a leased delivery, by the running
capture of a fresh chat, or by the live dispatch of a reply. Claims ask for a free
slot; an acceptance or a page reading that gives a capture a new deadline does not.
Such a call keeps the limit when its chat holds a slot already or a slot is free,
and no other call takes a slot.
-/
namespace Prompta.ConcurrencyCap

open Runs Tables Texts DisplayBlocks Schema ResponseStore ReplyStore DeliveryQueue Service

def hasSlotName (sendId : String) : Bool :=
  startsWith (lower sendId) "scheduled-" || startsWith (lower sendId) "manual-"

def occupied (s : Store) (now : Time) : List String := activeDeliverySendIds s false now

/-- Claims are made under the limit `m`, for captured chats. A reply is claimed under
the lock of the queue. -/
def Capped (m : ℕ) (call : Call) : Prop :=
  match call.action with
  | .queue (.claimNext _ _ fireAndForget maxActive _) =>
    fireAndForget = false ∧ maxActive = some m
  | .queue (.claimReply _ _ _ fireAndForget maxActive) =>
    fireAndForget = false ∧ maxActive = some m
  | .reply (.claim _ _ _) => False
  | _ => True

/-- A page reading that gives the detached capture of a chat a new deadline. -/
def revivesResult (lib : Stdlib) (capture : CaptureResult) (r : ResultRow) : Bool :=
  acceptsProbe lib capture r && !probeCompletes lib capture r && progressed lib capture r &&
    isCapturing r.status && hasSlotName r.sendId

/-- A page reading that gives the detached dispatch of a reply a new deadline. -/
def revivesReply (lib : Stdlib) (c : Chats) (capture : CaptureResult) (r : ReplyRow) : Bool :=
  acceptsReplyProbe lib c capture r && !replyProbeCompletes capture r &&
    replyProgressed lib capture r && answeringReply r.status

def opensSlot (lib : Stdlib) (s : Store) (call : Call) : Option String :=
  match call.action with
  | .result (.accept sendId _ deadline) =>
    if decide (call.now < deadline) && hasSlotName sendId &&
      (s.chats.results.lookup sendId).any (fun r => awaitsAcceptance r.status) then some sendId
    else none
  | .result (.acceptObserved sendId _ capture deadline) =>
    if decide (call.now < deadline) && hasSlotName sendId && exactEvidence capture &&
      decide (capture.status ≠ .complete) &&
      (s.chats.results.lookup sendId).any unidentifiedResult then some sendId
    else none
  | .result (.recoverHistorical sendId capture) =>
    if (s.chats.results.lookup sendId).any (revivesResult lib capture) then some sendId else none
  | .reply (.recoverHistorical replyId capture) =>
    ((s.chats.replies.lookup replyId).filter (revivesReply lib s.chats capture)).map
      ReplyRow.sendId
  | _ => none

/-- The slot that the call opens is in use, or one of the `m` slots is free. -/
def Admits (lib : Stdlib) (m : ℕ) (s : Store) (call : Call) : Prop :=
  ∀ sendId ∈ opensSlot lib s call,
    sendId ∈ occupied s call.now ∨ (occupied s call.now).length < m

instance (lib : Stdlib) (m : ℕ) (s : Store) (call : Call) : Decidable (Admits lib m s call) :=
  inferInstanceAs (Decidable (∀ sendId ∈ opensSlot lib s call, _ ∨ _))

/-- A slot is in use by a leased delivery, a live capture or a live dispatch. -/
theorem mem_occupied {s : Store} {now : Time} {k : String} :
    k ∈ occupied s now ↔ (∃ d ∈ s.queue.rows, d.status = .running ∧ d.sendId = k) ∨
      (∃ r ∈ s.chats.results.rows, activeCapture now r = true ∧ r.sendId = k) ∨
      ∃ r ∈ s.chats.replies.rows, liveReply now r = true ∧ r.sendId = k := by
  simp only [occupied, activeDeliverySendIds, runningIds, activeCaptureSendIds, List.mem_dedup,
    List.mem_append, List.mem_map, List.mem_filter, decide_eq_true_eq, Bool.false_eq_true,
    if_false, and_assoc]

theorem occupied_nodup (s : Store) (now : Time) : (occupied s now).Nodup := List.nodup_dedup _

section Length

variable {s s' : Store} {now now' : Time}

theorem occupied_length_le (h : ∀ k ∈ occupied s' now', k ∈ occupied s now) :
    (occupied s' now').length ≤ (occupied s now).length :=
  (List.subperm_of_subset (occupied_nodup s' now') h).length_le

theorem occupied_length_succ (sendId : String)
    (h : ∀ k ∈ occupied s' now', k = sendId ∨ k ∈ occupied s now) :
    (occupied s' now').length ≤ (occupied s now).length + 1 := by
  have hsubset : occupied s' now' ⊆ sendId :: occupied s now := by
    intro k hk
    exact List.mem_cons.mpr (h k hk)
  exact (List.subperm_of_subset (occupied_nodup s' now') hsubset).length_le

end Length

/-- Slots run out with time. -/
theorem occupied_later {s : Store} {now now' : Time} (h : now ≤ now') {k : String}
    (hk : k ∈ occupied s now') : k ∈ occupied s now := by
  rw [mem_occupied] at hk ⊢
  rcases hk with hrunning | ⟨r, hr, hactive, hid⟩ | ⟨r, hr, hlive, hid⟩
  · exact Or.inl hrunning
  · refine Or.inr (Or.inl ⟨r, hr, ?_, hid⟩)
    simp only [activeCapture, Bool.and_eq_true, decide_eq_true_eq] at hactive ⊢
    exact ⟨⟨hactive.1.1, lt_of_le_of_lt h hactive.1.2⟩, hactive.2⟩
  · refine Or.inr (Or.inr ⟨r, hr, ?_, hid⟩)
    simp only [liveReply, Bool.and_eq_true, decide_eq_true_eq] at hlive ⊢
    exact ⟨hlive.1, lt_of_le_of_lt h hlive.2⟩

section Unopened

variable {lib : Stdlib} {s : Store} {call : Call}

/-- Only a claim of the queue leases a delivery. -/
def leases (call : Call) : Bool :=
  match call.action with
  | .queue (.claimNext _ _ _ _ _) => true
  | _ => false

/-- The calls that may give the capture of a result a later deadline. -/
def extendsResult (call : Call) : Bool :=
  match call.action with
  | .result (.accept _ _ _) => true
  | .result (.acceptObserved _ _ _ _) => true
  | .result (.recoverHistorical _ _) => true
  | _ => false

/-- The calls that may give the dispatch of a reply a first or a later deadline. -/
def extendsReply (call : Call) : Bool :=
  match call.action with
  | .reply (.claim _ _ _) => true
  | .queue (.claimReply _ _ _ _ _) => true
  | .reply (.recoverHistorical _ _) => true
  | _ => false

theorem change_running (hcall : leases call = false) {d d' : Delivery}
    (h : DeliveryChange s call d d') (hd' : d'.status = .running) : d.status = .running := by
  cases h with
  | edited => exact hd'
  | expired => exact DeliveryStatus.noConfusion hd'
  | confirmed => exact DeliveryStatus.noConfusion hd'
  | cancelled => exact DeliveryStatus.noConfusion hd'
  | leased owner leaseSeconds fireAndForget maxActive answers haction =>
    rw [leases, haction] at hcall
    exact Bool.noConfusion hcall
  | renewed => exact hd'
  | retried owner retryAt retryAttempt error status _ _ hstatus =>
    have hrunning : status = .running := hd'
    rw [hrunning] at hstatus
    exact Bool.noConfusion hstatus
  | completed => exact DeliveryStatus.noConfusion hd'
  | failed owner status error answers _ _ hstatus =>
    have hrunning : status = .running := hd'
    rw [hrunning] at hstatus
    exact Bool.noConfusion hstatus

/-- A live capture of a fresh chat is active whoever owns it. -/
theorem active_of_live {owner : String} {now : Time} {r : ResultRow}
    (hlive : liveCapture owner now r = true) (hname : hasSlotName r.sendId = true) :
    activeCapture now r = true := by
  simp only [liveCapture, Bool.and_eq_true, decide_eq_true_eq] at hlive
  rw [activeCapture, Bool.and_eq_true, Bool.and_eq_true, decide_eq_true_eq]
  exact ⟨⟨hlive.1.2, hlive.2⟩, hname⟩

theorem activeCapture_iff {now : Time} {r : ResultRow} :
    activeCapture now r = true ↔
      isCapturing r.status = true ∧ now < r.captureDeadline ∧ hasSlotName r.sendId = true := by
  rw [activeCapture, Bool.and_eq_true, Bool.and_eq_true, decide_eq_true_eq, and_assoc]
  rfl

theorem change_active (hcall : extendsResult call = false) {r r' : ResultRow}
    (h : ResultChange lib call r r') (hr' : activeCapture call.now r' = true) :
    activeCapture call.now r = true := by
  have hactive := activeCapture_iff.mp hr'
  cases h with
  | named => exact hr'
  | combined => exact hr'
  | submitted => exact Bool.noConfusion hactive.1
  | accepted owner deadline haction =>
    rw [extendsResult, haction] at hcall
    exact Bool.noConfusion hcall
  | observed owner capture deadline haction =>
    rw [extendsResult, haction] at hcall
    exact Bool.noConfusion hcall
  | generating owner hlive => exact active_of_live hlive hactive.2.2
  | routed owner conversationId hlive => exact active_of_live hlive hactive.2.2
  | tools owner capture allow _ hlive => exact active_of_live hlive hactive.2.2
  | text owner capture allow _ hlive => exact active_of_live hlive hactive.2.2
  | extended owner deadline hlive => exact active_of_live hlive hactive.2.2
  | ended status =>
    cases status <;> exact Bool.noConfusion hactive.1
  | unavailable => exact Bool.noConfusion hactive.1
  | unknown => exact Bool.noConfusion hactive.1
  | detached howned =>
    simp only [ownedCapture, Bool.and_eq_true, decide_eq_true_eq] at howned
    exact activeCapture_iff.mpr ⟨howned.1.1, howned.2, hactive.2.2⟩
  | live => exact hr'
  | recovered capture haction =>
    rw [extendsResult, haction] at hcall
    exact Bool.noConfusion hcall
  | identified conversationId messageId answer h =>
    rw [activeCapture_iff]
    refine ⟨?_, hactive.2⟩
    have hstatus := hactive.1
    simp only [identifiedRow] at hstatus
    split at hstatus
    · exact Bool.noConfusion hstatus
    · exact hstatus
  | stopped => exact Bool.noConfusion hactive.1

theorem liveReply_iff {now : Time} {r : ReplyRow} :
    liveReply now r = true ↔ activeReply r.status = true ∧ now < r.leaseDeadline := by
  rw [liveReply, Bool.and_eq_true, decide_eq_true_eq]

/-- A dispatch that its owner still holds is live. -/
theorem live_of_dispatch {owner : String} {now : Time} {r : ReplyRow}
    (h : liveDispatch owner now r = true) : liveReply now r = true := by
  simp only [liveDispatch, Bool.and_eq_true, decide_eq_true_eq] at h
  exact liveReply_iff.mpr ⟨h.1.1, h.2⟩

theorem change_live (hcall : extendsReply call = false) {r r' : ReplyRow}
    (h : ReplyChange lib s call r r') (hr' : liveReply call.now r' = true) :
    liveReply call.now r = true := by
  have hlive' := liveReply_iff.mp hr'
  cases h with
  | failed => exact Bool.noConfusion hlive'.1
  | rearmed => exact Bool.noConfusion hlive'.1
  | authorized => exact hr'
  | bound => exact Bool.noConfusion hlive'.1
  | identified =>
    rw [liveReply_iff]
    refine ⟨?_, hlive'.2⟩
    have hstatus := hlive'.1
    simp only [identifiedReply] at hstatus
    split at hstatus
    · exact Bool.noConfusion hstatus
    · exact hstatus
  | claimed owner deadline haction =>
    rcases haction with ⟨deadline, haction⟩ | ⟨deadline, fireAndForget, maxActive, haction⟩ <;>
    · rw [extendsReply, haction] at hcall
      exact Bool.noConfusion hcall
  | submitted owner _ hdispatch => exact live_of_dispatch hdispatch
  | accepted owner messageId responseParent _ hdispatch => exact live_of_dispatch hdispatch
  | observed owner capture _ hdispatch => exact live_of_dispatch hdispatch
  | progress owner capture _ hdispatch => exact live_of_dispatch hdispatch
  | renewed owner deadline _ hdispatch => exact live_of_dispatch hdispatch
  | ended owner uncertain =>
    have hstatus := hlive'.1
    simp only [endedReply] at hstatus
    split at hstatus <;> exact Bool.noConfusion hstatus
  | orphaned =>
    have hstatus := hlive'.1
    simp only [endedReply] at hstatus
    split at hstatus <;> exact Bool.noConfusion hstatus
  | detached sendIds replyIds _ howned =>
    simp only [ownedReply, Bool.and_eq_true, decide_eq_true_eq] at howned
    refine liveReply_iff.mpr ⟨?_, howned.2⟩
    have hanswering := howned.1.1
    cases hstatus : r.status <;> simp_all [answeringReply, activeReply]
  | loaded => exact hr'
  | recovered capture haction =>
    rw [extendsReply, haction] at hcall
    exact Bool.noConfusion hcall
  | cancelled => exact Bool.noConfusion hlive'.1
  | stopped => exact Bool.noConfusion hlive'.1

theorem newReply_not_live {r : ReplyRow} (h : NewReply s call r) :
    ¬ liveReply call.now r = true := by
  intro hlive
  have hstatus := (liveReply_iff.mp hlive).1
  cases h with
  | prepared => exact Bool.noConfusion hstatus
  | followup sendId replyId text status messageId _ _ _ hkind =>
    rcases hkind with ⟨rfl, _⟩ | rfl <;> exact Bool.noConfusion hstatus

variable (lib s call)

/-- The three kinds of slots, before and after a call that opens none of a kind. -/
theorem running_before (hcall : leases call = false) {d' : Delivery}
    (hd' : d' ∈ (step lib s call).1.queue.rows) (h : d'.status = .running) :
    ∃ d ∈ s.queue.rows, d.status = .running ∧ d.sendId = d'.sendId := by
  refine (step_deliveries s call lib).reflects (P := fun d => d.status = .running)
    (fun _ _ hchange => hchange.sendId_eq) (fun _ _ => change_running hcall) ?_ hd' h
  rintro d ⟨record, _, _, rfl, _⟩
  exact nofun

/-- Most calls leave no capture of a result that was not there before. -/
theorem active_before (hcall : extendsResult call = false) {r' : ResultRow}
    (hr' : r' ∈ (step lib s call).1.chats.results.rows)
    (h : activeCapture call.now r' = true) :
    ∃ r ∈ s.chats.results.rows, activeCapture call.now r = true ∧ r.sendId = r'.sendId := by
  refine (step_results lib s call).reflects (P := fun r => activeCapture call.now r = true)
    (fun _ _ hchange => hchange.sendId_eq) (fun _ _ => change_active hcall) ?_ hr' h
  rintro r ⟨_, sendId, jobName, userText, created, rfl⟩ hactive
  exact Bool.noConfusion (activeCapture_iff.mp hactive).1

/-- Most calls leave no live dispatch that was not there before. -/
theorem live_before (hcall : extendsReply call = false) {r' : ReplyRow}
    (hr' : r' ∈ (step lib s call).1.chats.replies.rows) (h : liveReply call.now r' = true) :
    ∃ r ∈ s.chats.replies.rows, liveReply call.now r = true ∧ r.sendId = r'.sendId := by
  have hkept := (step_replies lib s call).reflects
    (P := fun r => liveReply call.now r = true ∧ r.sendId = r'.sendId)
    (fun _ _ h => h.replyId_eq) ?_ ?_ hr' ⟨h, rfl⟩
  · obtain ⟨r, hr, hlive, _⟩ := hkept
    exact ⟨r, hr, hlive⟩
  · intro a b hab hb
    exact ⟨change_live hcall hab hb.1, hab.sendId_eq ▸ hb.2⟩
  · intro r hnew hr
    exact newReply_not_live hnew hr.1

end Unopened

section Opened

variable (lib : Stdlib) (s : Store) (call : Call)

section Captures

variable {r' : ResultRow} (hr' : r' ∈ (step lib s call).1.chats.results.rows)
  (h : activeCapture call.now r' = true)

include hr' h

theorem accept_opened {sendId owner : String} {deadline : Time}
    (haction : call.action = .result (.accept sendId owner deadline)) :
    r'.sendId ∈ opensSlot lib s call ∨
      ∃ r ∈ s.chats.results.rows, activeCapture call.now r = true ∧ r.sendId = r'.sendId := by
  have hactive := activeCapture_iff.mp h
  rw [step_result haction] at hr'
  change r' ∈ (accept s.chats sendId owner deadline call.now).1.results.rows at hr'
  unfold accept at hr'
  split at hr'
  · exact Or.inr ⟨r', hr', h, rfl⟩
  · rename_i hdeadline
    rcases mem_updateResult hr' with hold | ⟨r, hr, hawaits, rfl⟩
    · exact Or.inr ⟨r', hold, h, rfl⟩
    · left
      have hid : r.sendId = sendId := Table.lookup_key hr
      have hname : hasSlotName sendId = true := hid ▸ hactive.2.2
      rw [opensSlot, haction]
      simp [not_le.mp hdeadline, hname, hr, hawaits, acceptedRow, hid]

theorem acceptObserved_opened {sendId owner : String} {capture : CaptureResult} {deadline : Time}
    (haction : call.action = .result (.acceptObserved sendId owner capture deadline)) :
    r'.sendId ∈ opensSlot lib s call ∨
      ∃ r ∈ s.chats.results.rows, activeCapture call.now r = true ∧ r.sendId = r'.sendId := by
  have hactive := activeCapture_iff.mp h
  rw [step_result haction] at hr'
  change r' ∈ (acceptObserved lib s.chats sendId owner capture deadline
    call.now).1.results.rows at hr'
  unfold acceptObserved at hr'
  split at hr'
  · exact Or.inr ⟨r', hr', h, rfl⟩
  · rename_i hguard
    simp only [Bool.or_eq_true, decide_eq_true_eq, Bool.not_eq_true', not_or, not_le,
      Bool.not_eq_false] at hguard
    rcases mem_updateResult hr' with hold | ⟨r, hr, hawaits, rfl⟩
    · exact Or.inr ⟨r', hold, h, rfl⟩
    · left
      have hid : r.sendId = sendId := Table.lookup_key hr
      have hname : hasSlotName sendId = true := hid ▸ hactive.2.2
      have hpartial : capture.status ≠ .complete := by
        intro hcomplete
        have hstatus := hactive.1
        simp [observedRow, hcomplete, isCapturing] at hstatus
      rw [opensSlot, haction]
      simp [hguard.1, hguard.2, hname, hr, hawaits, hpartial, observedRow, hid]

/-- A reading of the page gives a detached capture a new deadline, or leaves the old one. -/
theorem recoverHistorical_opened {sendId : String} {capture : CaptureResult}
    (haction : call.action = .result (.recoverHistorical sendId capture)) :
    r'.sendId ∈ opensSlot lib s call ∨
      ∃ r ∈ s.chats.results.rows, activeCapture call.now r = true ∧ r.sendId = r'.sendId := by
  have hactive := activeCapture_iff.mp h
  rw [step_result haction] at hr'
  change r' ∈ (recoverHistoricalResponse lib s.chats sendId capture
    call.now).1.results.rows at hr'
  rcases recoverHistoricalResponse_cases lib s.chats sendId capture call.now with
    hrefused | ⟨r, hr, haccepts, hwrites⟩
  · rw [hrefused] at hr'
    exact Or.inr ⟨r', hr', h, rfl⟩
  rw [hwrites] at hr'
  rcases mem_updateResult hr' with hold | ⟨r₀, hr₀, _, rfl⟩
  · exact Or.inr ⟨r', hold, h, rfl⟩
  have hsame : r₀ = r := by
    rw [hr] at hr₀
    exact (Option.some.inj hr₀).symm
  subst hsame
  have hid : r₀.sendId = sendId := Table.lookup_key hr
  by_cases hextends : (!probeCompletes lib capture r₀ && progressed lib capture r₀ &&
      isCapturing r₀.status) = true
  · left
    have hrevives : revivesResult lib capture r₀ = true := by
      simp only [Bool.and_eq_true, Bool.not_eq_true'] at hextends
      have hname : hasSlotName r₀.sendId = true := hactive.2.2
      rw [revivesResult, haccepts, hextends.1.1, hextends.1.2, hextends.2, hname]
      rfl
    rw [opensSlot, haction]
    simp [hr, hrevives, recoverRow, hid]
  · refine Or.inr ⟨r₀, Table.lookup_mem hr, ?_, rfl⟩
    have hdeadline : (recoverRow lib capture call.now r₀).captureDeadline =
        r₀.captureDeadline := by
      rw [Bool.not_eq_true] at hextends
      simp [recoverRow, hextends]
    have hstatus : isCapturing r₀.status = true := by
      have hcapturing := hactive.1
      simp only [recoverRow] at hcapturing
      split at hcapturing
      · exact Bool.noConfusion hcapturing
      · exact hcapturing
    exact activeCapture_iff.mpr ⟨hstatus, hdeadline ▸ hactive.2.1, hactive.2.2⟩

/-- An active capture after a call was active before, or the call opens its slot. -/
theorem active_opened :
    r'.sendId ∈ opensSlot lib s call ∨
      ∃ r ∈ s.chats.results.rows, activeCapture call.now r = true ∧ r.sendId = r'.sendId := by
  cases haction : call.action with
  | queue q => exact Or.inr (active_before lib s call (by rw [extendsResult, haction]) hr' h)
  | reply r => exact Or.inr (active_before lib s call (by rw [extendsResult, haction]) hr' h)
  | stop sendId => exact Or.inr (active_before lib s call (by rw [extendsResult, haction]) hr' h)
  | result r =>
    cases r with
    | accept sendId owner deadline => exact accept_opened lib s call hr' h haction
    | acceptObserved sendId owner capture deadline =>
      exact acceptObserved_opened lib s call hr' h haction
    | recoverHistorical sendId capture => exact recoverHistorical_opened lib s call hr' h haction
    | _ => exact Or.inr (active_before lib s call (by rw [extendsResult, haction]) hr' h)

end Captures

/-- A live dispatch after a call was live before, or the call opens its slot, unless
it is a claim. -/
theorem live_opened (hclaim : ∀ replyId owner, ¬ claims call replyId owner) {r' : ReplyRow}
    (hr' : r' ∈ (step lib s call).1.chats.replies.rows) (h : liveReply call.now r' = true) :
    r'.sendId ∈ opensSlot lib s call ∨
      ∃ r ∈ s.chats.replies.rows, liveReply call.now r = true ∧ r.sendId = r'.sendId := by
  have hlive := liveReply_iff.mp h
  by_cases hextends : extendsReply call = false
  · exact Or.inr (live_before lib s call hextends hr' h)
  have haction : ∃ replyId capture, call.action = .reply (.recoverHistorical replyId capture) := by
    unfold extendsReply at hextends
    split at hextends
    · rename_i replyId owner deadline haction
      exact absurd (Or.inl ⟨deadline, haction⟩) (hclaim replyId owner)
    · rename_i replyId owner deadline fireAndForget maxActive haction
      exact absurd (Or.inr ⟨deadline, fireAndForget, maxActive, haction⟩) (hclaim replyId owner)
    · rename_i replyId capture haction
      exact ⟨replyId, capture, haction⟩
    · exact absurd rfl hextends
  obtain ⟨replyId, capture, haction⟩ := haction
  have hkept : r' ∈ s.chats.replies.rows → r'.sendId ∈ opensSlot lib s call ∨
      ∃ r ∈ s.chats.replies.rows, liveReply call.now r = true ∧ r.sendId = r'.sendId :=
    fun hold => Or.inr ⟨r', hold, h, rfl⟩
  rw [step_reply haction] at hr'
  change r' ∈ (recoverHistoricalReply lib s.chats replyId capture call.now).1.replies.rows at hr'
  rcases recoverHistoricalReply_cases lib s.chats replyId capture call.now with
    hrefused | ⟨r, hr, haccepts, hwrites⟩
  · rw [hrefused] at hr'
    exact hkept hr'
  rw [hwrites] at hr'
  rcases mem_updateReply hr' with hold | ⟨r₀, hr₀, _, rfl⟩
  · exact hkept hold
  have hsame : r₀ = r := by
    rw [hr] at hr₀
    exact (Option.some.inj hr₀).symm
  subst hsame
  by_cases hextended : (!replyProbeCompletes capture r₀ && replyProgressed lib capture r₀ &&
      answeringReply r₀.status) = true
  · left
    have hrevives : revivesReply lib s.chats capture r₀ = true := by
      simp only [Bool.and_eq_true, Bool.not_eq_true'] at hextended
      rw [revivesReply, haccepts, hextended.1.1, hextended.1.2, hextended.2]
      rfl
    rw [opensSlot, haction]
    simp [hr₀, hrevives, recoverReplyRow]
  · refine Or.inr ⟨r₀, Table.lookup_mem hr₀, ?_, rfl⟩
    have hdeadline : (recoverReplyRow lib capture call.now r₀).leaseDeadline =
        r₀.leaseDeadline := by
      rw [Bool.not_eq_true] at hextended
      simp [recoverReplyRow, hextended]
    have hstatus : activeReply r₀.status = true := by
      have hactive := hlive.1
      simp only [recoverReplyRow] at hactive
      split at hactive
      · exact Bool.noConfusion hactive
      · exact hactive
    exact liveReply_iff.mpr ⟨hstatus, hdeadline ▸ hlive.2⟩

end Opened

section Step

variable {lib : Stdlib} {m : ℕ} {s : Store} {call : Call}

/-- Every slot of a state is of one of the three kinds. -/
theorem occupied_of_kinds {s' : Store} {now : Time} {P : String → Prop}
    (hdelivery : ∀ d ∈ s'.queue.rows, d.status = .running → P d.sendId)
    (hresult : ∀ r ∈ s'.chats.results.rows, activeCapture now r = true → P r.sendId)
    (hreply : ∀ r ∈ s'.chats.replies.rows, liveReply now r = true → P r.sendId) {k : String}
    (hk : k ∈ occupied s' now) : P k := by
  rcases mem_occupied.mp hk with ⟨d, hd, hrunning, rfl⟩ | ⟨r, hr, hactive, rfl⟩ | ⟨r, hr,
      hlive, rfl⟩
  · exact hdelivery d hd hrunning
  · exact hresult r hr hactive
  · exact hreply r hr hlive

/-- A call that is no claim occupies the slots in use and the slot it opens. -/
theorem occupied_opened (hlease : leases call = false)
    (hclaim : ∀ replyId owner, ¬ claims call replyId owner) {k : String}
    (hk : k ∈ occupied (step lib s call).1 call.now) :
    k ∈ opensSlot lib s call ∨ k ∈ occupied s call.now := by
  refine occupied_of_kinds (P := fun k => k ∈ opensSlot lib s call ∨ k ∈ occupied s call.now)
    ?_ ?_ ?_ hk
  · intro d' hd' hrunning
    obtain ⟨d, hd, hrunning', hid⟩ := running_before lib s call hlease hd' hrunning
    exact Or.inr (mem_occupied.mpr (Or.inl ⟨d, hd, hrunning', hid⟩))
  · intro r' hr' hactive
    rcases active_opened lib s call hr' hactive with hopened | ⟨r, hr, hactive', hid⟩
    · exact Or.inl hopened
    · exact Or.inr (mem_occupied.mpr (Or.inr (Or.inl ⟨r, hr, hactive', hid⟩)))
  · intro r' hr' hlive
    rcases live_opened lib s call hclaim hr' hlive with hopened | ⟨r, hr, hlive', hid⟩
    · exact Or.inl hopened
    · exact Or.inr (mem_occupied.mpr (Or.inr (Or.inr ⟨r, hr, hlive', hid⟩)))

/-- The calls that ask for no slot open at most the one that is admitted. -/
theorem opened_within (hadmits : Admits lib m s call) (hlease : leases call = false)
    (hclaim : ∀ replyId owner, ¬ claims call replyId owner)
    (hs : (occupied s call.now).length ≤ m) :
    (occupied (step lib s call).1 call.now).length ≤ m := by
  have hopened : ∀ k ∈ occupied (step lib s call).1 call.now,
      k ∈ opensSlot lib s call ∨ k ∈ occupied s call.now :=
    fun k hk => occupied_opened hlease hclaim hk
  cases hslot : opensSlot lib s call with
  | none =>
    rw [hslot] at hopened
    refine le_trans (occupied_length_le ?_) hs
    intro k hk
    exact (hopened k hk).resolve_left (Option.not_mem_none k)
  | some sendId =>
    rw [hslot] at hopened
    rcases hadmits sendId hslot with hused | hfree
    · refine le_trans (occupied_length_le ?_) hs
      intro k hk
      rcases hopened k hk with hk | hk
      · exact (Option.mem_some_iff.mp hk) ▸ hused
      · exact hk
    · have hlength : (occupied (step lib s call).1 call.now).length ≤
          (occupied s call.now).length + 1 := by
        refine occupied_length_succ sendId ?_
        intro k hk
        exact (hopened k hk).imp_left fun h => (Option.mem_some_iff.mp h).symm
      omega

/-- Releasing the expired leases takes no slot. -/
theorem expired_occupied {now : Time} {k : String}
    (hk : k ∈ occupied ⟨(expireRows s.queue now).1, s.chats⟩ now) : k ∈ occupied s now := by
  refine occupied_of_kinds (P := fun k => k ∈ occupied s now) ?_ ?_ ?_ hk
  · intro d' hd' hrunning
    dsimp only [expireRows] at hd'
    obtain ⟨d, hd, hrow⟩ := (Table.mem_update _).mp hd'
    split at hrow
    · rw [← hrow] at hrunning
      exact DeliveryStatus.noConfusion hrunning
    · exact mem_occupied.mpr (Or.inl ⟨d, hd, hrow ▸ hrunning, by rw [hrow]⟩)
  · intro r hr hactive
    exact mem_occupied.mpr (Or.inr (Or.inl ⟨r, hr, hactive, rfl⟩))
  · intro r hr hlive
    exact mem_occupied.mpr (Or.inr (Or.inr ⟨r, hr, hlive, rfl⟩))

theorem hasCapacity_iff {now : Time} :
    hasCapacity s false (some m) now = true ↔ (occupied s now).length < m := by
  rw [hasCapacity, decide_eq_true_eq]
  rfl

/-- A claim of the queue counts the slots in use first. -/
theorem claimNext_within {owner : String} {leaseSeconds : Time} {answers : String → Bool}
    (haction : call.action = .queue (.claimNext owner leaseSeconds false (some m) answers))
    (hs : (occupied s call.now).length ≤ m) :
    (occupied (step lib s call).1 call.now).length ≤ m := by
  have hresult : extendsResult call = false := by rw [extendsResult, haction]
  have hreply : extendsReply call = false := by rw [extendsReply, haction]
  have hqueue : (step lib s call).1.queue =
      (claimNext s owner leaseSeconds false (some m) answers call.now).1.queue := by
    rw [step_queue haction]
    rfl
  -- only the queue can take a slot
  have hkinds : ∀ (Q : String → Prop),
      (∀ k ∈ occupied ⟨(expireRows s.queue call.now).1, s.chats⟩ call.now, Q k) →
      (∀ d ∈ (step lib s call).1.queue.rows, d.status = .running → Q d.sendId) →
      ∀ k ∈ occupied (step lib s call).1 call.now, Q k := by
    intro Q hQ hdelivery k hk
    refine occupied_of_kinds (P := Q) hdelivery ?_ ?_ hk
    · intro r' hr' hactive
      obtain ⟨r, hr, hactive', hid⟩ := active_before lib s call hresult hr' hactive
      exact hQ _ (mem_occupied.mpr (Or.inr (Or.inl ⟨r, hr, hactive', hid⟩)))
    · intro r' hr' hlive
      obtain ⟨r, hr, hlive', hid⟩ := live_before lib s call hreply hr' hlive
      exact hQ _ (mem_occupied.mpr (Or.inr (Or.inr ⟨r, hr, hlive', hid⟩)))
  have hrunning : ∀ d ∈ (expireRows s.queue call.now).1.rows, d.status = .running →
      d.sendId ∈ occupied ⟨(expireRows s.queue call.now).1, s.chats⟩ call.now :=
    fun d hd h => mem_occupied.mpr (Or.inl ⟨d, hd, h, rfl⟩)
  rcases claimNext_queue s owner leaseSeconds false (some m) answers call.now with
    hexpired | ⟨hcapacity, d, hleased⟩
  · rw [hqueue, hexpired] at hkinds
    refine le_trans (occupied_length_le ?_) hs
    exact hkinds _ (fun _ hk => expired_occupied hk) fun d hd h =>
      expired_occupied (hrunning d hd h)
  · rw [hqueue, hleased] at hkinds
    have hfree := hasCapacity_iff.mp hcapacity
    refine le_trans (occupied_length_succ d.sendId (hkinds _ (fun _ hk => Or.inr hk) ?_)) hfree
    intro d' hd' h
    rcases Table.mem_updateAt _ hd' with hold | ⟨d₀, hd₀, _, rfl⟩
    · exact Or.inr (hrunning d' hold h)
    · have hid : d₀.sendId = d.sendId := Table.lookup_key hd₀
      exact Or.inl hid

/-- The claim of a reply counts them under the lock of the queue. -/
theorem claimReply_within {replyId owner : String} {deadline : Time}
    (haction : call.action = .queue (.claimReply replyId owner deadline false (some m)))
    (hs : (occupied s call.now).length ≤ m) :
    (occupied (step lib s call).1 call.now).length ≤ m := by
  have hlease : leases call = false := by rw [leases, haction]
  have hresult : extendsResult call = false := by rw [extendsResult, haction]
  have hstep : (step lib s call).1 =
      (claimReply s replyId owner deadline false (some m) call.now).1 := by
    rw [step_queue haction]
    rfl
  -- only the replies can take a slot
  have hkinds : ∀ (Q : String → Prop), (∀ k ∈ occupied s call.now, Q k) →
      (∀ r ∈ (step lib s call).1.chats.replies.rows, liveReply call.now r = true →
        Q r.sendId) → ∀ k ∈ occupied (step lib s call).1 call.now, Q k := by
    intro Q hQ hlive k hk
    refine occupied_of_kinds (P := Q) ?_ ?_ hlive hk
    · intro d' hd' hrunning
      obtain ⟨d, hd, hrunning', hid⟩ := running_before lib s call hlease hd' hrunning
      exact hQ _ (mem_occupied.mpr (Or.inl ⟨d, hd, hrunning', hid⟩))
    · intro r' hr' hactive
      obtain ⟨r, hr, hactive', hid⟩ := active_before lib s call hresult hr' hactive
      exact hQ _ (mem_occupied.mpr (Or.inr (Or.inl ⟨r, hr, hactive', hid⟩)))
  have hsame : ∀ r ∈ s.chats.replies.rows, liveReply call.now r = true →
      r.sendId ∈ occupied s call.now :=
    fun r hr hlive => mem_occupied.mpr (Or.inr (Or.inr ⟨r, hr, hlive, rfl⟩))
  rcases claimReply_chats s replyId owner deadline false (some m) call.now with
    hunchanged | ⟨hcapacity, hclaimed⟩
  · rw [hstep, hunchanged]
    exact hs
  · rw [hstep, hclaimed] at hkinds
    rw [hstep]
    have hfree := hasCapacity_iff.mp hcapacity
    -- all rows of one reply identifier belong to one chat
    let sendId := ((s.chats.replies.lookup replyId).map ReplyRow.sendId).getD ""
    refine le_trans (occupied_length_succ sendId (hkinds _ (fun _ hk => Or.inr hk) ?_)) hfree
    intro r' hr' hlive
    rcases mem_updateReply hr' with hold | ⟨r, hr, _, rfl⟩
    · exact Or.inr (hsame r' hold hlive)
    · left
      change r.sendId = ((s.chats.replies.lookup replyId).map ReplyRow.sendId).getD ""
      rw [hr]
      rfl

/-- Every admitted call keeps the limit at its own time. -/
theorem step_within (hcapped : Capped m call) (hadmits : Admits lib m s call)
    (hs : (occupied s call.now).length ≤ m) :
    (occupied (step lib s call).1 call.now).length ≤ m := by
  by_cases hlease : leases call = false
  · by_cases hclaim : ∀ replyId owner, ¬ claims call replyId owner
    · exact opened_within hadmits hlease hclaim hs
    · push Not at hclaim
      obtain ⟨replyId, owner, ⟨deadline, haction⟩ | ⟨deadline, fireAndForget, maxActive,
          haction⟩⟩ :=
        hclaim
      · rw [Capped, haction] at hcapped
        exact hcapped.elim
      · rw [Capped, haction] at hcapped
        obtain ⟨rfl, rfl⟩ := hcapped
        exact claimReply_within haction hs
  · unfold leases at hlease
    split at hlease
    · rename_i owner leaseSeconds fireAndForget maxActive answers haction
      rw [Capped, haction] at hcapped
      obtain ⟨rfl, rfl⟩ := hcapped
      exact claimNext_within haction hs
    · exact absurd rfl hlease

end Step

/-- A run whose calls open no slot beyond the limit stays within it at every later
time. -/
theorem slots_within_limit (lib : Stdlib) (m : ℕ) (t : Time) (run : List Call)
    (htime : Nondecreasing Call.now t run)
    (hrun : Meets (step lib) (fun s call => Capped m call ∧ Admits lib m s call) Store.empty run)
    (now : Time) (hnow : endTime Call.now t run ≤ now) :
    (occupied (final (step lib) Store.empty run) now).length ≤ m := by
  have hend := clocked_invariant (step lib) (fun a b => a ≤ b) Call.now
    (fun s call => Capped m call ∧ Admits lib m s call)
    (fun t s => (occupied s t).length ≤ m) ?_ t Store.empty (Nat.zero_le m) run htime hrun
  · exact le_trans (occupied_length_le fun k hk => occupied_later hnow hk) hend
  · intro t s call hcall ht hs
    exact step_within hcall.1 hcall.2
      (le_trans (occupied_length_le fun k hk => occupied_later ht hk) hs)

def handedOverRun : List Call :=
  [⟨.queue (.enqueue ⟨"manual-1", ['h', 'i'], "", [], false, false⟩ true), 10⟩,
    ⟨.queue (.enqueue ⟨"manual-2", ['h', 'i'], "", [], false, false⟩ true), 10⟩,
    ⟨.queue (.claimNext "worker-1" 30 false (some 1) fun _ => true), 11⟩,
    ⟨.queue (.expireLeases (fun _ => true) true), 50⟩,
    ⟨.queue (.claimNext "worker-2" 30 false (some 1) fun _ => true), 51⟩]

def lateAccept : Call := ⟨.result (.accept "manual-1" "worker-1" 200), 52⟩

theorem slots_within_limit_handed_over :
    (occupied (final (step plainLib) Store.empty handedOverRun) 52).length ≤ 1 := by
  refine slots_within_limit plainLib 1 10 handedOverRun ?_ ?_ 52 ?_
  · refine ⟨?_, ?_, ?_, ?_, ?_, trivial⟩ <;> decide +kernel
  · refine ⟨⟨trivial, ?_⟩, ⟨trivial, ?_⟩, ⟨⟨rfl, rfl⟩, ?_⟩, ⟨trivial, ?_⟩, ⟨⟨rfl, rfl⟩, ?_⟩,
      trivial⟩ <;>
      decide +kernel
  · decide +kernel

/-- A late acceptance takes a second slot under a limit of one. -/
theorem limit_exceeded :
    ¬ ∀ (run : List Call), Nondecreasing Call.now 10 run → (∀ call ∈ run, Capped 1 call) →
      (occupied (final (step plainLib) Store.empty run) 52).length ≤ 1 := by
  intro h
  have hlimit := h (handedOverRun ++ [lateAccept]) ?_ ?_
  · revert hlimit
    decide +kernel
  · refine ⟨?_, ?_, ?_, ?_, ?_, ?_, trivial⟩ <;> decide +kernel
  · simp [handedOverRun, lateAccept, Capped]

end Prompta.ConcurrencyCap
