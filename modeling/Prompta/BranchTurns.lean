import Prompta.ReplyChanges

/-!
The turns of a chat's branch. A lineage is a list of replies in which every bound
one continues the message of the bound one before it, and in which only the last
bound one may be unsettled or without a message. Follow-ups that wait for their
parent stand behind it. The lemmas say what one call can do to a lineage: it may
bind the first waiting follow-up, append a turn at the tip of the branch, and
settle or withdraw the last turn, but an identified turn keeps its place.
-/
namespace Prompta.BranchLineage

open Relation Tables Texts DisplayBlocks Schema ResponseStore ReplyStore Service

/-- The reply has a parent and is part of the branch. -/
def isBound (r : ReplyRow) : Bool := !isSkipped r.status && decide (r.parentId ≠ "")

/-- The reply is no turn, or it waits for its parent. -/
def isUnbound (r : ReplyRow) : Bool :=
  isSkipped r.status || (decide (r.status = .queued) && decide (r.parentId = ""))

def isIdentified (r : ReplyRow) : Bool := isSettled r.status && decide (r.messageId ≠ "")

inductive Lineage (conversationId : String) : String → List ReplyRow → Prop
  | nil (messageId : String) : Lineage conversationId messageId []
  | skipped {messageId : String} {turn : ReplyRow} {rest : List ReplyRow}
      (h : isSkipped turn.status = true) (hrest : Lineage conversationId messageId rest) :
      Lineage conversationId messageId (turn :: rest)
  | waiting {messageId : String} {turn : ReplyRow} {rest : List ReplyRow}
      (h : turn.status = .queued) (hparent : turn.parentId = "")
      (hrest : ∀ r ∈ rest, isUnbound r = true) : Lineage conversationId messageId (turn :: rest)
  | bound {messageId : String} {turn : ReplyRow} {rest : List ReplyRow}
      (hskipped : isSkipped turn.status = false) (hqueued : turn.status ≠ .queued)
      (hconversation : turn.conversationId = conversationId) (hparent : turn.parentId = messageId)
      (hlast : isIdentified turn = true ∨ ∀ r ∈ rest, isUnbound r = true)
      (hrest : Lineage conversationId turn.messageId rest) :
      Lineage conversationId messageId (turn :: rest)

theorem isUnbound_not_bound {r : ReplyRow} (h : isUnbound r = true) : isBound r = false := by
  simp only [isUnbound, Bool.or_eq_true, Bool.and_eq_true, decide_eq_true_eq] at h
  rcases h with hskipped | ⟨_, hparent⟩
  · simp [isBound, hskipped]
  · simp [isBound, hparent]

theorem skipped_not_settled {status : ReplyStatus} (h : isSettled status = true) :
    isSkipped status = false ∧ status ≠ .queued := by
  cases status <;> simp_all [isSettled, isSkipped]

namespace Lineage

variable {conversationId messageId : String} {rows : List ReplyRow}

/-- Rows that are all unbound are a lineage of any message. -/
theorem of_unbound (h : ∀ r ∈ rows, isUnbound r = true) :
    Lineage conversationId messageId rows := by
  induction rows with
  | nil => exact Lineage.nil messageId
  | cons turn rest ih =>
    have hrest : ∀ r ∈ rest, isUnbound r = true := fun r hr => h r (List.mem_cons_of_mem _ hr)
    have hturn := h turn List.mem_cons_self
    simp only [isUnbound, Bool.or_eq_true, Bool.and_eq_true, decide_eq_true_eq] at hturn
    rcases hturn with hskipped | ⟨hqueued, hparent⟩
    · exact Lineage.skipped hskipped (ih hrest)
    · exact Lineage.waiting hqueued hparent hrest

/-- Under a message, the rows without a parent are the unbound ones. -/
theorem unbound_of_not_bound (h : Lineage conversationId messageId rows) (hmessage : messageId ≠ "")
    {r : ReplyRow} (hr : r ∈ rows) (hbound : isBound r = false) : isUnbound r = true := by
  induction h with
  | nil => exact absurd hr List.not_mem_nil
  | skipped hskipped _ ih =>
    rcases List.mem_cons.mp hr with rfl | hr
    · simp [isUnbound, hskipped]
    · exact ih hmessage hr
  | waiting hqueued hparent hrest =>
    rcases List.mem_cons.mp hr with rfl | hr
    · simp [isUnbound, hqueued, hparent]
    · exact hrest r hr
  | bound hskipped _ _ hparent hlast _ ih =>
    rcases List.mem_cons.mp hr with rfl | hr
    · simp [isBound, hskipped, hparent, hmessage] at hbound
    · rcases hlast with hidentified | hrest
      · simp only [isIdentified, Bool.and_eq_true, decide_eq_true_eq] at hidentified
        exact ih hidentified.2 hr
      · exact hrest r hr

theorem append_unbound (h : Lineage conversationId messageId rows) {r : ReplyRow}
    (hr : isUnbound r = true) : Lineage conversationId messageId (rows ++ [r]) := by
  have hsnoc : ∀ {rest : List ReplyRow}, (∀ a ∈ rest, isUnbound a = true) →
      ∀ a ∈ rest ++ [r], isUnbound a = true := by
    intro rest hrest a ha
    rcases List.mem_append.mp ha with ha | ha
    · exact hrest a ha
    · rw [List.mem_singleton.mp ha]
      exact hr
  induction h with
  | nil messageId => exact of_unbound (hsnoc fun _ ha => absurd ha List.not_mem_nil)
  | skipped hskipped _ ih => exact Lineage.skipped hskipped ih
  | waiting hqueued hparent hrest => exact Lineage.waiting hqueued hparent (hsnoc hrest)
  | bound hskipped hqueued hconversation hparent hlast _ ih =>
    exact Lineage.bound hskipped hqueued hconversation hparent (hlast.imp_right hsnoc) ih

/-- `prepare` walks a lineage without finding it inconsistent. -/
theorem tip_consistent (h : Lineage conversationId messageId rows) :
    branchTip conversationId messageId rows ≠ .error .lineageInconsistent := by
  induction h with
  | nil => exact nofun
  | skipped hskipped _ ih => simpa only [branchTip, hskipped, if_true] using ih
  | waiting hqueued =>
    simp [branchTip, hqueued, isSkipped, isSettled]
  | @bound _ turn _ hskipped _ hconversation hparent _ _ ih =>
    by_cases hidentified : (!isSettled turn.status || decide (turn.messageId = "")) = true
    · simp [branchTip, hskipped, hidentified]
    · simp only [branchTip, hskipped, hidentified, hconversation, hparent, Bool.false_eq_true,
        if_false, ne_eq, not_true_eq_false, or_self]
      exact ih

end Lineage

section Change

variable {lib : Stdlib} {s : Store} {call : Call}

/-- The call does not replace the message of the turn. -/
def KeepsMessage (call : Call) (r : ReplyRow) : Prop :=
  ∀ capture, call.action = .reply (.recoverHistorical r.replyId capture) →
    conflicts r.messageId capture.messageId = false

/-- The call may bind the waiting follow-up by the intent. -/
def Binds (s : Store) (call : Call) (r : ReplyRow) (intent : ReplyIntent) : Prop :=
  (∃ exclude, call.action = .reply (.nextQueuedIntent exclude)) ∧
    readyDraft s.chats r = some intent

theorem change_skipped {a b : ReplyRow} (h : ReplyChange lib s call a b)
    (ha : isSkipped a.status = true) : isSkipped b.status = true := by
  have hactive : activeReply a.status = false := by
    cases hstatus : a.status <;> simp_all [isSkipped, activeReply]
  have hdispatch : ∀ {owner}, liveDispatch owner call.now a = true → False := by
    intro owner hlive
    simp only [liveDispatch, Bool.and_eq_true] at hlive
    rw [hactive] at hlive
    exact Bool.noConfusion hlive.1.1
  cases h with
  | failed h => rw [h] at ha; exact Bool.noConfusion ha
  | rearmed h => rw [h] at ha; exact Bool.noConfusion ha
  | authorized => exact ha
  | bound _ _ _ h => rw [h] at ha; exact Bool.noConfusion ha
  | identified messageId h =>
    simp only [unidentified, Bool.and_eq_true] at h
    have hrecoverable := h.1.1
    cases hstatus : a.status <;> simp_all [isSkipped, recoverableParent, isSettled]
  | claimed _ _ _ _ _ h => rw [h] at ha; exact Bool.noConfusion ha
  | submitted _ _ hlive => exact (hdispatch hlive).elim
  | accepted _ _ _ _ hlive => exact (hdispatch hlive).elim
  | observed _ _ _ hlive => exact (hdispatch hlive).elim
  | progress => exact ha
  | renewed => exact ha
  | ended _ _ _ h => rw [hactive] at h; exact Bool.noConfusion h
  | orphaned h => rw [hactive] at h; exact Bool.noConfusion h
  | detached _ _ _ h =>
    simp only [ownedReply, Bool.and_eq_true] at h
    have hanswering := h.1.1
    cases hstatus : a.status <;> simp_all [isSkipped, answeringReply]
  | loaded => exact ha
  | recovered _ _ h =>
    simp only [detachedReply, Bool.and_eq_true] at h
    have hawaits := h.1
    cases hstatus : a.status <;> simp_all [isSkipped, awaitsHistory]
  | cancelled => rfl
  | stopped h => cases hstatus : a.status <;> simp_all [isSkipped, stopsReply]

theorem change_not_queued {a b : ReplyRow} (h : ReplyChange lib s call a b)
    (ha : a.status ≠ .queued) : b.status ≠ .queued := by
  cases h with
  | authorized => exact ha
  | progress => exact ha
  | renewed => exact ha
  | loaded => exact ha
  | identified =>
    simp only [identifiedReply]
    split
    · exact nofun
    · exact ha
  | observed =>
    simp only [observeRow]
    split <;> exact nofun
  | ended =>
    simp only [endedReply]
    split <;> exact nofun
  | orphaned =>
    simp only [endedReply]
    split <;> exact nofun
  | recovered =>
    simp only [recoverReplyRow]
    split
    · exact nofun
    · exact ha
  | _ => exact nofun

/-- Once it is no longer queued, a reply keeps its parent. -/
theorem change_parent {a b : ReplyRow} (h : ReplyChange lib s call a b) (ha : a.status ≠ .queued) :
    b.parentId = a.parentId ∧ b.conversationId = a.conversationId := by
  cases h with
  | bound _ _ _ h => exact absurd h ha
  | _ => exact ⟨rfl, rfl⟩

theorem change_identified {a b : ReplyRow} (h : ReplyChange lib s call a b)
    (ha : isIdentified a = true) (hkeep : KeepsMessage call a) :
    isIdentified b = true ∧ b.messageId = a.messageId := by
  have hsplit := ha
  simp only [isIdentified, Bool.and_eq_true, decide_eq_true_eq] at hsplit
  obtain ⟨hsettled, hmessage⟩ := hsplit
  have hactive : activeReply a.status = false := by
    cases hstatus : a.status <;> simp_all [isSettled, activeReply]
  have hdispatch : ∀ {owner}, liveDispatch owner call.now a = true → False := by
    intro owner hlive
    simp only [liveDispatch, Bool.and_eq_true] at hlive
    rw [hactive] at hlive
    exact Bool.noConfusion hlive.1.1
  cases h with
  | failed h => rw [h] at hsettled; exact Bool.noConfusion hsettled
  | rearmed h => rw [h] at hsettled; exact Bool.noConfusion hsettled
  | authorized => exact ⟨ha, rfl⟩
  | bound _ _ _ h => rw [h] at hsettled; exact Bool.noConfusion hsettled
  | identified messageId h =>
    simp only [unidentified, Bool.and_eq_true, decide_eq_true_eq] at h
    exact absurd h.1.2 hmessage
  | claimed _ _ _ _ _ h => rw [h] at hsettled; exact Bool.noConfusion hsettled
  | submitted _ _ hlive => exact (hdispatch hlive).elim
  | accepted _ _ _ _ hlive => exact (hdispatch hlive).elim
  | observed _ _ _ hlive => exact (hdispatch hlive).elim
  | progress => exact ⟨ha, rfl⟩
  | renewed => exact ⟨ha, rfl⟩
  | ended _ _ _ h => rw [hactive] at h; exact Bool.noConfusion h
  | orphaned h => rw [hactive] at h; exact Bool.noConfusion h
  | detached _ _ _ h =>
    simp only [ownedReply, Bool.and_eq_true] at h
    have hanswering := h.1.1
    cases hstatus : a.status <;> simp_all [isSettled, answeringReply]
  | loaded => exact ⟨ha, rfl⟩
  | recovered capture hcall =>
    have hsame : (recoverReplyRow lib capture call.now a).messageId = a.messageId :=
      orElse_unconflicted hmessage (hkeep capture hcall)
    refine ⟨?_, hsame⟩
    rw [isIdentified, hsame, Bool.and_eq_true, decide_eq_true_eq]
    refine ⟨?_, hmessage⟩
    simp only [recoverReplyRow]
    split
    · rfl
    · exact hsettled
  | cancelled h => cases hstatus : a.status <;> simp_all [isSettled, isUnsent]
  | stopped =>
    refine ⟨?_, rfl⟩
    rw [isIdentified, Bool.and_eq_true, decide_eq_true_eq]
    exact ⟨rfl, hmessage⟩

/-- A queued follow-up is withdrawn, or bound by an intent it is ready for. -/
theorem change_queued {a b : ReplyRow} (h : ReplyChange lib s call a b) (ha : a.status = .queued) :
    isSkipped b.status = true ∨ ∃ intent, Binds s call a intent ∧ b.status ≠ .queued ∧
      b.conversationId = intent.conversationId ∧ b.parentId = intent.parentId := by
  cases h with
  | bound intent exclude hcall _ hready =>
    exact Or.inr ⟨intent, ⟨⟨exclude, hcall⟩, hready⟩, nofun, rfl, rfl⟩
  | cancelled => exact Or.inl rfl
  | failed h => rw [h] at ha; exact ReplyStatus.noConfusion ha
  | rearmed h => rw [h] at ha; exact ReplyStatus.noConfusion ha
  | authorized h => rw [h] at ha; exact ReplyStatus.noConfusion ha
  | claimed _ _ _ _ _ h => rw [h] at ha; exact ReplyStatus.noConfusion ha
  | identified _ h => simp [unidentified, ha, recoverableParent, isSettled] at h
  | submitted _ _ hlive => simp [liveDispatch, ha, activeReply] at hlive
  | accepted _ _ _ _ hlive => simp [liveDispatch, ha, activeReply] at hlive
  | observed _ _ _ hlive => simp [liveDispatch, ha, activeReply] at hlive
  | progress _ _ _ hlive => simp [liveDispatch, ha, activeReply] at hlive
  | renewed _ _ _ hlive => simp [liveDispatch, ha, activeReply] at hlive
  | ended _ _ _ h => simp [ha, activeReply] at h
  | orphaned h => simp [ha, activeReply] at h
  | detached _ _ _ h => simp [ownedReply, ha, answeringReply] at h
  | loaded h => simp [detachedReply, ha, awaitsHistory] at h
  | recovered _ _ h => simp [detachedReply, ha, awaitsHistory] at h
  | stopped h => simp [ha, stopsReply] at h

section Row

variable {r r' : ReplyRow} (h : ReflTransGen (ReplyChange lib s call) r r')
include h

theorem row_skipped (hr : isSkipped r.status = true) : isSkipped r'.status = true :=
  reflTransGen_keeps (P := fun a => isSkipped a.status = true)
    (fun _ _ hab ha => change_skipped hab ha) h hr

theorem row_parent (hr : r.status ≠ .queued) :
    r'.status ≠ .queued ∧ r'.parentId = r.parentId ∧ r'.conversationId = r.conversationId := by
  refine reflTransGen_keeps (P := fun a => a.status ≠ .queued ∧ a.parentId = r.parentId ∧
    a.conversationId = r.conversationId) ?_ h ⟨hr, rfl, rfl⟩
  rintro a b hab ⟨hqueued, hparent, hconversation⟩
  obtain ⟨hparent', hconversation'⟩ := change_parent hab hqueued
  exact ⟨change_not_queued hab hqueued, hparent'.trans hparent,
    hconversation'.trans hconversation⟩

theorem row_identified (hr : isIdentified r = true) (hkeep : KeepsMessage call r) :
    isIdentified r' = true ∧ r'.messageId = r.messageId := by
  have hkept := reflTransGen_keeps (P := fun a => a.replyId = r.replyId ∧
    isIdentified a = true ∧ a.messageId = r.messageId) ?_ h ⟨rfl, hr, rfl⟩
  · exact hkept.2
  · rintro a b hab ⟨hid, hidentified, hmessage⟩
    have hkeep' : KeepsMessage call a := by
      intro capture hcall
      rw [hid] at hcall
      rw [hmessage]
      exact hkeep capture hcall
    obtain ⟨hidentified', hmessage'⟩ := change_identified hab hidentified hkeep'
    exact ⟨hab.replyId_eq.trans hid, hidentified', hmessage'.trans hmessage⟩

theorem row_queued (hr : r.status = .queued) :
    r' = r ∨ isSkipped r'.status = true ∨ ∃ intent, Binds s call r intent ∧
      r'.status ≠ .queued ∧ r'.conversationId = intent.conversationId ∧
      r'.parentId = intent.parentId := by
  refine reflTransGen_keeps (P := fun a => a = r ∨ isSkipped a.status = true ∨
    ∃ intent, Binds s call r intent ∧ a.status ≠ .queued ∧
      a.conversationId = intent.conversationId ∧ a.parentId = intent.parentId) ?_ h (Or.inl rfl)
  rintro a b hab (rfl | hskipped | ⟨intent, hbinds, hqueued, hconversation, hparent⟩)
  · exact Or.inr (change_queued hab hr)
  · exact Or.inr (Or.inl (change_skipped hab hskipped))
  · obtain ⟨hparent', hconversation'⟩ := change_parent hab hqueued
    exact Or.inr (Or.inr ⟨intent, hbinds, change_not_queued hab hqueued,
      hconversation'.trans hconversation, hparent'.trans hparent⟩)

/-- A row without a parent gets one by an intent only. -/
theorem row_unbound (hr : isUnbound r = true) (hfree : ∀ intent, ¬ Binds s call r intent) :
    isUnbound r' = true := by
  have hsplit := hr
  simp only [isUnbound, Bool.or_eq_true, Bool.and_eq_true, decide_eq_true_eq] at hsplit
  rcases hsplit with hskipped | ⟨hqueued, _⟩
  · simp [isUnbound, row_skipped h hskipped]
  · rcases row_queued h hqueued with rfl | hskipped | ⟨intent, hbinds, _⟩
    · exact hr
    · simp [isUnbound, hskipped]
    · exact absurd hbinds (hfree intent)

end Row

/-- The rows that the walk of a draft reads. -/
def unmerged (rows : List ReplyRow) : List ReplyRow :=
  rows.filter fun r => decide (r.status ≠ .merged)

section Walk

variable {draft turn : ReplyRow} {rest : List ReplyRow} {conversationId messageId : String}

theorem readyParent_skipped (h : isSkipped turn.status = true) :
    readyParent draft conversationId messageId (unmerged (turn :: rest)) =
      readyParent draft conversationId messageId (unmerged rest) := by
  by_cases hmerged : turn.status = .merged
  · simp [unmerged, hmerged]
  · simp [unmerged, hmerged, readyParent, h]

theorem unmerged_cons (h : isSkipped turn.status = false) :
    unmerged (turn :: rest) = turn :: unmerged rest := by
  have hmerged : turn.status ≠ .merged := by
    intro hmerged
    rw [hmerged] at h
    exact Bool.noConfusion h
  simp [unmerged, hmerged]

/-- The walk passes a turn that is settled, identified and in place. -/
theorem readyParent_passed (hskipped : isSkipped turn.status = false)
    (hother : turn.replyId ≠ draft.replyId) {parentId : String}
    (h : readyParent draft conversationId messageId (unmerged (turn :: rest)) = some parentId) :
    isIdentified turn = true ∧
      readyParent draft conversationId turn.messageId (unmerged rest) = some parentId := by
  rw [unmerged_cons hskipped, readyParent, if_neg (by simp [hskipped]), if_neg hother] at h
  split at h
  · rename_i hpassed
    simp only [Bool.and_eq_true, decide_eq_true_eq] at hpassed
    refine ⟨?_, h⟩
    rw [isIdentified, Bool.and_eq_true, decide_eq_true_eq]
    exact hpassed.1.1
  · cases h

theorem readyParent_reached (hqueued : draft.status = .queued) {parentId : String}
    (h : readyParent draft conversationId messageId (unmerged (draft :: rest)) = some parentId) :
    parentId = messageId := by
  have hskipped : isSkipped draft.status = false := by
    rw [hqueued]
    rfl
  rw [unmerged_cons hskipped, readyParent, if_neg (by simp [hskipped]), if_pos rfl,
    if_pos (Or.inl hqueued)] at h
  exact (Option.some.inj h).symm

end Walk

/-- Unbound rows stay unbound behind a turn that blocks them. -/
theorem rest_unbound {rest rest' : List ReplyRow}
    (hrest : List.Forall₂ (ReflTransGen (ReplyChange lib s call)) rest rest')
    (hunbound : ∀ r ∈ rest, isUnbound r = true)
    (hfree : ∀ r ∈ rest, ∀ intent, ¬ Binds s call r intent) : ∀ r ∈ rest', isUnbound r = true := by
  intro r' hr'
  obtain ⟨r, hr, hrr'⟩ := forall₂_exists_left hrest hr'
  exact row_unbound hrr' (hunbound r hr) (hfree r hr)

/-- The drafts that the call may bind are ready behind the message. -/
def ReadyBehind (s : Store) (call : Call) (conversationId messageId : String)
    (rows : List ReplyRow) : Prop :=
  ∀ draft ∈ rows, ∀ intent, Binds s call draft intent →
    intent.conversationId = conversationId ∧
      readyParent draft conversationId messageId (unmerged rows) = some intent.parentId

/-- A turn keeps its message, or nothing stands behind it that continues it. -/
def KeepsTurn (s : Store) (call : Call) (turn : ReplyRow) (rest : List ReplyRow) : Prop :=
  KeepsMessage call turn ∨
    ((∀ r ∈ rest, isUnbound r = true) ∧ ∀ r ∈ rest, ∀ intent, ¬ Binds s call r intent)

/-- Every turn of the rows keeps its message while something continues it. -/
def KeepsRows (s : Store) (call : Call) : List ReplyRow → Prop
  | [] => True
  | turn :: rest => KeepsTurn s call turn rest ∧ KeepsRows s call rest

/-- What is ready behind a turn's parent is ready behind the turn itself. -/
theorem ReadyBehind.rest {conversationId messageId : String} {turn : ReplyRow}
    {rest : List ReplyRow} (h : ReadyBehind s call conversationId messageId (turn :: rest))
    (hskipped : isSkipped turn.status = false) (hnodup : ∀ r ∈ rest, turn.replyId ≠ r.replyId) :
    ReadyBehind s call conversationId turn.messageId rest := by
  intro draft hdraft intent hbinds
  obtain ⟨hconversation, hready⟩ := h draft (List.mem_cons_of_mem _ hdraft) intent hbinds
  exact ⟨hconversation, (readyParent_passed hskipped (hnodup draft hdraft) hready).2⟩

/-- A turn that is not identified blocks the drafts behind it. -/
theorem ReadyBehind.blocked {conversationId messageId : String} {turn : ReplyRow}
    {rest : List ReplyRow} (h : ReadyBehind s call conversationId messageId (turn :: rest))
    (hskipped : isSkipped turn.status = false) (hnodup : ∀ r ∈ rest, turn.replyId ≠ r.replyId)
    (hidentified : isIdentified turn = false) :
    ∀ draft ∈ rest, ∀ intent, ¬ Binds s call draft intent := by
  intro draft hdraft intent hbinds
  obtain ⟨_, hready⟩ := h draft (List.mem_cons_of_mem _ hdraft) intent hbinds
  have hpassed := (readyParent_passed hskipped (hnodup draft hdraft) hready).1
  rw [hidentified] at hpassed
  exact Bool.noConfusion hpassed

/-- One call takes a lineage to a lineage of the same message. -/
theorem Lineage.evolves {conversationId messageId : String} {rows rows' : List ReplyRow}
    (h : Lineage conversationId messageId rows)
    (hrows : List.Forall₂ (ReflTransGen (ReplyChange lib s call)) rows rows')
    (hnodup : (rows.map ReplyRow.replyId).Nodup)
    (hready : ReadyBehind s call conversationId messageId rows) (hkeep : KeepsRows s call rows) :
    Lineage conversationId messageId rows' := by
  induction h generalizing rows' with
  | nil messageId =>
    cases hrows
    exact Lineage.nil messageId
  | @skipped messageId turn rest hskipped _ ih =>
    cases hrows with
    | @cons _ turn' _ rest' hturn hrest =>
      refine Lineage.skipped (row_skipped hturn hskipped) (ih hrest (List.nodup_cons.mp hnodup).2
        ?_ hkeep.2)
      intro draft hdraft intent hbinds
      obtain ⟨hconversation, hparent⟩ :=
        hready draft (List.mem_cons_of_mem _ hdraft) intent hbinds
      exact ⟨hconversation, readyParent_skipped hskipped ▸ hparent⟩
  | @waiting messageId turn rest hqueued hparent hrest' =>
    cases hrows with
    | @cons _ turn' _ rest' hturn hrest =>
      have hskipped : isSkipped turn.status = false := by
        rw [hqueued]
        rfl
      have hother : ∀ r ∈ rest, turn.replyId ≠ r.replyId := by
        intro r hr heq
        exact (List.nodup_cons.mp hnodup).1 (heq ▸ List.mem_map_of_mem hr)
      have hblocked := hready.blocked hskipped hother (by simp [isIdentified, hqueued, isSettled])
      have hunbound := rest_unbound hrest hrest' hblocked
      rcases row_queued hturn hqueued with
        rfl | hskipped' | ⟨intent, hbinds, hqueued', hconversation', hparent'⟩
      · exact Lineage.waiting hqueued hparent hunbound
      · exact Lineage.skipped hskipped' (Lineage.of_unbound hunbound)
      · obtain ⟨hconversation, hwalk⟩ := hready turn List.mem_cons_self intent hbinds
        have hreached := readyParent_reached hqueued hwalk
        by_cases hskipped' : isSkipped turn'.status = true
        · exact Lineage.skipped hskipped' (Lineage.of_unbound hunbound)
        · exact Lineage.bound (by simpa using hskipped') hqueued'
            (hconversation'.trans hconversation) (hparent'.trans hreached) (Or.inr hunbound)
            (Lineage.of_unbound hunbound)
  | @bound messageId turn rest hskipped hqueued hconversation hparent hlast _ ih =>
    cases hrows with
    | @cons _ turn' _ rest' hturn hrest =>
      have hother : ∀ r ∈ rest, turn.replyId ≠ r.replyId := by
        intro r hr heq
        exact (List.nodup_cons.mp hnodup).1 (heq ▸ List.mem_map_of_mem hr)
      obtain ⟨hqueued', hparent', hconversation'⟩ := row_parent hturn hqueued
      -- behind a turn whose message may change nothing is bound, before and after
      have hopen : (∀ r ∈ rest', isUnbound r = true) → Lineage conversationId messageId
          (turn' :: rest') := by
        intro hunbound
        by_cases hskipped' : isSkipped turn'.status = true
        · exact Lineage.skipped hskipped' (Lineage.of_unbound hunbound)
        · exact Lineage.bound (by simpa using hskipped') hqueued'
            (hconversation'.trans hconversation) (hparent'.trans hparent) (Or.inr hunbound)
            (Lineage.of_unbound hunbound)
      by_cases hidentified : isIdentified turn = true
      · rcases hkeep.1 with hmessage | ⟨hunbound, hfree⟩
        · obtain ⟨hidentified', hsame⟩ := row_identified hturn hidentified hmessage
          have hsettled := hidentified'
          simp only [isIdentified, Bool.and_eq_true] at hsettled
          refine Lineage.bound (skipped_not_settled hsettled.1).1 hqueued'
            (hconversation'.trans hconversation) (hparent'.trans hparent) (Or.inl hidentified') ?_
          rw [hsame]
          exact ih hrest (List.nodup_cons.mp hnodup).2 (hready.rest hskipped hother) hkeep.2
        · exact hopen (rest_unbound hrest hunbound hfree)
      · rw [Bool.not_eq_true] at hidentified
        have hunbound := hlast.resolve_left (by simp [hidentified])
        exact hopen (rest_unbound hrest hunbound
          (hready.blocked hskipped hother hidentified))

/-- A turn appended at the tip of the branch continues the lineage. -/
theorem lineage_append {conversationId messageId tip : String} {rows rows' : List ReplyRow}
    {turn : ReplyRow}
    (hrows : List.Forall₂ (ReflTransGen (ReplyChange lib s call)) rows rows')
    (htip : branchTip conversationId messageId rows = .ok tip)
    (hkeep : ∀ r ∈ rows, KeepsMessage call r) (hqueued : turn.status ≠ .queued)
    (hconversation : turn.conversationId = conversationId) (hparent : turn.parentId = tip) :
    Lineage conversationId messageId (rows' ++ [turn]) := by
  induction hrows generalizing messageId with
  | nil =>
    rw [branchTip, Except.ok.injEq] at htip
    by_cases hskipped : isSkipped turn.status = true
    · exact Lineage.skipped hskipped (Lineage.nil messageId)
    · exact Lineage.bound (by simpa using hskipped) hqueued hconversation
        (hparent.trans htip.symm) (Or.inr fun _ hr => absurd hr List.not_mem_nil) (Lineage.nil _)
  | @cons r r' rest rest' hturn _ ih =>
    have hkeep' : ∀ a ∈ rest, KeepsMessage call a := fun a ha =>
      hkeep a (List.mem_cons_of_mem _ ha)
    by_cases hskipped : isSkipped r.status = true
    · rw [branchTip, if_pos hskipped] at htip
      exact Lineage.skipped (row_skipped hturn hskipped) (ih htip hkeep')
    · rw [branchTip, if_neg hskipped] at htip
      split at htip
      · cases htip
      rename_i hsettled
      split at htip
      · cases htip
      rename_i hplace
      have hidentified : isIdentified r = true := by
        simpa [isIdentified] using hsettled
      simp only [not_or, not_not] at hplace
      have hnot := skipped_not_settled (Bool.and_eq_true _ _ ▸ hidentified).1
      obtain ⟨hqueued', hparent', hconversation'⟩ := row_parent hturn hnot.2
      obtain ⟨hidentified', hsame⟩ := row_identified hturn hidentified (hkeep r List.mem_cons_self)
      have hnot' := skipped_not_settled (Bool.and_eq_true _ _ ▸ hidentified').1
      refine Lineage.bound hnot'.1 hqueued' (hconversation'.trans hplace.1)
        (hparent'.trans hplace.2) (Or.inl hidentified') ?_
      rw [hsame]
      exact ih htip hkeep'

end Change

end Prompta.BranchLineage
