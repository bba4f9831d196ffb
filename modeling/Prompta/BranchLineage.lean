import Mathlib.Data.List.Pairwise
import Prompta.BranchTurns

/-!
The branch of a chat is a chain of messages. A reply's parent is fixed when it is
bound, while the message of the turn before it may still be replaced by a reading of
the page that counts both messages to one turn. Where no message is replaced under a
reply that continues it, every reply with a parent continues the one before it in
every state that is reached, the first one the chat's first answer.
-/
namespace Prompta.BranchLineage

open Runs Relation Tables Texts DisplayBlocks Schema ResponseStore ReplyStore Service

/-- Each turn continues the message of the turn before it. -/
def Continues : String → List ReplyRow → Prop
  | _, [] => True
  | messageId, turn :: rest => turn.parentId = messageId ∧ Continues turn.messageId rest

instance decidableContinues : ∀ messageId rows, Decidable (Continues messageId rows)
  | _, [] => .isTrue trivial
  | messageId, turn :: rest =>
    have := decidableContinues turn.messageId rest
    inferInstanceAs (Decidable (turn.parentId = messageId ∧ Continues turn.messageId rest))

/-- The bound replies of every chat continue each other, from its first answer. -/
def Chained (c : Chats) : Prop :=
  ∀ sendId, (branchRows c sendId).filter isBound ≠ [] →
    ∃ original, c.results.lookup sendId = some original ∧
      Continues original.messageId ((branchRows c sendId).filter isBound)

/-- A reply of the chat has a parent. -/
def HasTurn (c : Chats) (sendId : String) : Prop :=
  ∃ r ∈ c.replies.rows, r.sendId = sendId ∧ isBound r = true

instance (c : Chats) (sendId : String) : Decidable (HasTurn c sendId) :=
  inferInstanceAs (Decidable (∃ r ∈ c.replies.rows, r.sendId = sendId ∧ isBound r = true))

def Continued (c : Chats) (r : ReplyRow) : Prop :=
  ∃ r' ∈ c.replies.rows, r'.sendId = r.sendId ∧ r.createdAt < r'.createdAt ∧ isBound r' = true

/-- The call replaces no message that a reply continues: where it is accepted and a
reply with a parent follows, it names the saved message or none. -/
def KeepsTurns (lib : Stdlib) (s : Store) (call : Call) : Prop :=
  match call.action with
  | .result (.write sendId owner capture allow) =>
    ∀ r ∈ s.chats.results.lookup sendId, acceptsSnapshot owner capture allow call.now r = true →
      HasTurn s.chats sendId → conflicts r.messageId capture.messageId = false
  | .result (.recoverHistorical sendId capture) =>
    ∀ r ∈ s.chats.results.lookup sendId, acceptsProbe lib capture r = true →
      HasTurn s.chats sendId → conflicts r.messageId capture.messageId = false
  | .reply (.recoverHistorical replyId capture) =>
    ∀ r ∈ s.chats.replies.lookup replyId, acceptsReplyProbe lib s.chats capture r = true →
      Continued s.chats r → conflicts r.messageId capture.messageId = false
  | _ => True

def chatRows (c : Chats) (sendId : String) : List ReplyRow :=
  c.replies.rows.filter fun r => decide (r.sendId = sendId)

theorem mem_chatRows {c : Chats} {sendId : String} {r : ReplyRow} :
    r ∈ chatRows c sendId ↔ r ∈ c.replies.rows ∧ r.sendId = sendId := by
  rw [chatRows, List.mem_filter, decide_eq_true_eq]

/-- What holds of the branches up to the time `t`. -/
structure Branches (t : Time) (c : Chats) : Prop where
  ordered : c.replies.rows.Pairwise fun a b => a.createdAt < b.createdAt
  past : ∀ r ∈ c.replies.rows, r.createdAt ≤ t
  known : ∀ r ∈ c.replies.rows, (c.results.lookup r.sendId).isSome = true
  lineage : ∀ sendId original, c.results.lookup sendId = some original →
    Lineage original.conversationId original.messageId (chatRows c sendId)
  identified : ∀ sendId original, c.results.lookup sendId = some original →
    (∀ r ∈ chatRows c sendId, isUnbound r = true) ∨
      (original.conversationId ≠ "" ∧ original.messageId ≠ "")

namespace Branches

variable {t : Time} {c : Chats}

/-- The rows of a chat are read in the order of the table. -/
theorem branchRows_eq (h : Branches t c) (sendId : String) :
    branchRows c sendId = chatRows c sendId := by
  rw [branchRows]
  refine List.Pairwise.insertionSort_eq ?_
  exact (h.ordered.filter _).imp fun hab => Or.inl hab

/-- A chat without a reply that has a parent has unbound rows only. -/
theorem unbound_of_no_turn (h : Branches t c) {sendId : String} {original : ResultRow}
    (horiginal : c.results.lookup sendId = some original) (hnone : ¬ HasTurn c sendId) :
    ∀ r ∈ chatRows c sendId, isUnbound r = true := by
  rcases h.identified sendId original horiginal with hunbound | ⟨_, hmessage⟩
  · exact hunbound
  · intro r hr
    refine (h.lineage sendId original horiginal).unbound_of_not_bound hmessage hr ?_
    by_contra hbound
    rw [Bool.not_eq_false] at hbound
    obtain ⟨hmem, hid⟩ := mem_chatRows.mp hr
    exact hnone ⟨r, hmem, hid, hbound⟩

end Branches

/-- Along a lineage the bound rows continue each other. -/
theorem lineage_continues {conversationId messageId : String} {rows : List ReplyRow}
    (h : Lineage conversationId messageId rows) (hmessage : messageId ≠ "") :
    Continues messageId (rows.filter isBound) := by
  have hnone : ∀ {rest : List ReplyRow}, (∀ r ∈ rest, isUnbound r = true) →
      rest.filter isBound = [] := by
    intro rest hrest
    rw [List.filter_eq_nil_iff]
    intro r hr
    rw [isUnbound_not_bound (hrest r hr)]
    exact Bool.false_ne_true
  induction h with
  | nil => trivial
  | @skipped messageId turn rest hskipped _ ih =>
    have hturn : ¬ isBound turn = true := by simp [isBound, hskipped]
    rw [List.filter_cons_of_neg hturn]
    exact ih hmessage
  | @waiting messageId turn rest hqueued hparent hrest =>
    have hturn : ¬ isBound turn = true := by simp [isBound, hparent]
    rw [List.filter_cons_of_neg hturn, hnone hrest]
    trivial
  | @bound messageId turn rest hskipped _ _ hparent hlast _ ih =>
    have hturn : isBound turn = true := by simp [isBound, hskipped, hparent, hmessage]
    rw [List.filter_cons_of_pos hturn]
    refine ⟨hparent, ?_⟩
    rcases hlast with hidentified | hrest
    · simp only [isIdentified, Bool.and_eq_true, decide_eq_true_eq] at hidentified
      exact ih hidentified.2
    · rw [hnone hrest]
      trivial

theorem branches_chained {t : Time} {c : Chats} (h : Branches t c) : Chained c := by
  intro sendId hturns
  rw [h.branchRows_eq] at hturns ⊢
  obtain ⟨r, hr⟩ := List.exists_mem_of_ne_nil _ hturns
  obtain ⟨hchat, hbound⟩ := List.mem_filter.mp hr
  obtain ⟨hmem, hid⟩ := mem_chatRows.mp hchat
  obtain ⟨original, horiginal⟩ := Option.isSome_iff_exists.mp (h.known r hmem)
  rw [hid] at horiginal
  refine ⟨original, horiginal, lineage_continues (h.lineage sendId original horiginal) ?_⟩
  rcases h.identified sendId original horiginal with hunbound | ⟨_, hmessage⟩
  · rw [isUnbound_not_bound (hunbound r hchat)] at hbound
    exact Bool.noConfusion hbound
  · exact hmessage

/-- A new reply is refused for other reasons than an inconsistent branch. -/
theorem branches_prepare {t : Time} {c : Chats} (h : Branches t c) (sendId : String)
    (intent : ReplyIntent) (now : Time) :
    (prepare c sendId intent now).2 ≠ .error .lineageInconsistent := by
  unfold prepare
  split
  · split <;> exact nofun
  split
  · exact nofun
  rename_i original horiginal
  split
  · exact nofun
  split
  · exact nofun
  have htip := (h.lineage sendId original horiginal).tip_consistent
  rw [← h.branchRows_eq] at htip
  split
  · rename_i refusal hrefused
    rw [hrefused] at htip
    intro heq
    rw [Except.error.injEq] at heq
    exact htip (by rw [heq])
  · split <;> exact nofun

section Original

variable {lib : Stdlib} {call : Call}

/-- The call does not replace the message of the chat's first answer. -/
def KeepsOriginal (call : Call) (r : ResultRow) : Prop :=
  (∀ owner capture allow, call.action = .result (.write r.sendId owner capture allow) →
    conflicts r.messageId capture.messageId = false) ∧
  ∀ capture, call.action = .result (.recoverHistorical r.sendId capture) →
    conflicts r.messageId capture.messageId = false

/-- A saved conversation is final. -/
theorem change_conversation {a b : ResultRow} (h : ResultChange lib call a b)
    (ha : a.conversationId ≠ "") : b.conversationId = a.conversationId := by
  have hsame : ∀ {capture : CaptureResult} {allow : Bool},
      identityConflict capture allow a = false →
      orElse capture.conversationId a.conversationId = a.conversationId := by
    intro capture allow hconflict
    simp only [identityConflict, Bool.or_eq_false_iff] at hconflict
    exact orElse_unconflicted ha hconflict.1.2
  cases h with
  | observed _ _ _ _ _ _ h =>
    simp only [unidentifiedResult, Bool.and_eq_true, decide_eq_true_eq] at h
    exact absurd h.1.2 ha
  | routed _ conversationId _ h =>
    rcases h with hempty | hequal
    · exact absurd hempty ha
    · exact hequal.symm
  | tools _ _ _ _ _ h => exact hsame h
  | text _ _ _ _ _ h => exact hsame h
  | _ => rfl

theorem change_message {a b : ResultRow} (h : ResultChange lib call a b)
    (ha : a.messageId ≠ "") (hkeep : KeepsOriginal call a) : b.messageId = a.messageId := by
  cases h with
  | observed _ _ _ _ _ _ h =>
    simp only [unidentifiedResult, Bool.and_eq_true, decide_eq_true_eq] at h
    exact absurd h.2 ha
  | tools owner capture allow hcall =>
    exact orElse_unconflicted ha (hkeep.1 owner capture allow hcall)
  | text owner capture allow hcall =>
    exact orElse_unconflicted ha (hkeep.1 owner capture allow hcall)
  | recovered capture hcall => exact orElse_unconflicted ha (hkeep.2 capture hcall)
  | identified _ _ _ h =>
    simp only [unidentifiedOriginal, Bool.and_eq_true, decide_eq_true_eq] at h
    exact absurd h.1.2 ha
  | _ => rfl

/-- A saved answer keeps its chat and its message through a call that does not replace it. -/
theorem original_kept {a b : ResultRow} (h : ReflTransGen (ResultChange lib call) a b)
    (hconversation : a.conversationId ≠ "") (hmessage : a.messageId ≠ "")
    (hkeep : KeepsOriginal call a) :
    b.conversationId = a.conversationId ∧ b.messageId = a.messageId := by
  have hkept := reflTransGen_keeps (P := fun r => r.sendId = a.sendId ∧
    r.conversationId = a.conversationId ∧ r.messageId = a.messageId) ?_ h ⟨rfl, rfl, rfl⟩
  · exact hkept.2
  · rintro r r' hchange ⟨hid, hconversation', hmessage'⟩
    have hkeep' : KeepsOriginal call r := by
      unfold KeepsOriginal
      rw [hid, hmessage']
      exact hkeep
    refine ⟨hchange.sendId_eq.trans hid, ?_, ?_⟩
    · exact (change_conversation hchange (hconversation' ▸ hconversation)).trans hconversation'
    · exact (change_message hchange (hmessage' ▸ hmessage) hkeep').trans hmessage'

end Original

section Step

variable {lib : Stdlib} {t : Time} {s : Store} {call : Call}

/-- All rows that one call adds to the replies carry the identifier it names. -/
theorem new_length {old new : List ReplyRow} {replies : Replies} (hrows : replies.rows = old ++ new)
    (hnew : ∀ r ∈ new, ∃ a, NewReply s call a ∧ ReflTransGen (ReplyChange lib s call) a r) :
    new.length ≤ 1 := by
  have hid : ∀ r ∈ new, newReplyId call = some r.replyId := by
    intro r hr
    obtain ⟨a, ha, har⟩ := hnew r hr
    have hsame : r.replyId = a.replyId := reflTransGen_field (fun _ _ hab => hab.replyId_eq) har
    rw [hsame]
    cases ha with
    | prepared _ _ _ _ hcall => exact hcall
    | followup _ _ _ _ _ hcall => exact hcall
  have hnodup := replies.nodup
  rw [hrows, List.map_append, List.nodup_append] at hnodup
  match new, hid, hnodup.2.1 with
  | [], _, _ => exact Nat.zero_le 1
  | [_], _, _ => exact le_refl 1
  | a :: b :: _, hid, hnew' =>
    have hab : a.replyId = b.replyId := by
      have ha := hid a List.mem_cons_self
      have hb := hid b (List.mem_cons_of_mem _ List.mem_cons_self)
      rw [ha, Option.some.injEq] at hb
      exact hb
    simp only [List.map_cons, List.nodup_cons, List.mem_cons] at hnew'
    exact absurd (Or.inl hab) hnew'.1

/-- The rows of a chat are those that stood there, changed, and at most one new row. -/
theorem chatRows_step (lib : Stdlib) (s : Store) (call : Call) (sendId : String) :
    ∃ old new, chatRows (step lib s call).1.chats sendId = old ++ new ∧
      List.Forall₂ (ReflTransGen (ReplyChange lib s call)) (chatRows s.chats sendId) old ∧
      new.length ≤ 1 ∧ ∀ r ∈ new, r.sendId = sendId ∧
        ∃ a, NewReply s call a ∧ ReflTransGen (ReplyChange lib s call) a r := by
  obtain ⟨old, new, hrows, hold, hnew⟩ := (step_replies lib s call).rows
  refine ⟨old.filter fun r => decide (r.sendId = sendId),
    new.filter fun r => decide (r.sendId = sendId), ?_, ?_, ?_, ?_⟩
  · rw [chatRows, hrows, List.filter_append]
  · refine forall₂_filter ?_ hold
    intro a b hab
    have hsame : b.sendId = a.sendId := reflTransGen_field (fun _ _ h => h.sendId_eq) hab
    rw [hsame]
  · exact le_trans (List.length_filter_le _ _) (new_length hrows hnew)
  · intro r hr
    obtain ⟨hmem, hid⟩ := List.mem_filter.mp hr
    exact ⟨of_decide_eq_true hid, hnew r hmem⟩

/-- Creation times stay in the order of the table. -/
theorem step_ordered (h : Branches t s.chats) (ht : t < call.now) :
    (step lib s call).1.chats.replies.rows.Pairwise (fun a b => a.createdAt < b.createdAt) ∧
      ∀ r ∈ (step lib s call).1.chats.replies.rows, r.createdAt ≤ call.now := by
  obtain ⟨old, new, hrows, hold, hnew⟩ := (step_replies lib s call).rows
  have hcreated : old.map ReplyRow.createdAt = s.chats.replies.rows.map ReplyRow.createdAt :=
    forall₂_map_eq (fun _ _ h => h.createdAt_eq) hold
  have hpast : ∀ r ∈ old, r.createdAt ≤ t := by
    intro r hr
    have hmem : r.createdAt ∈ s.chats.replies.rows.map ReplyRow.createdAt :=
      hcreated ▸ List.mem_map_of_mem hr
    obtain ⟨a, ha, hsame⟩ := List.mem_map.mp hmem
    exact hsame ▸ h.past a ha
  have hpresent : ∀ r ∈ new, r.createdAt = call.now := by
    intro r hr
    obtain ⟨a, ha, har⟩ := hnew r hr
    rw [reflTransGen_field (f := ReplyRow.createdAt) (fun _ _ h => h.createdAt_eq) har]
    cases ha <;> rfl
  rw [hrows]
  constructor
  · rw [List.pairwise_append]
    refine ⟨?_, ?_, ?_⟩
    · have hmap := List.pairwise_map.mpr h.ordered
      rw [← hcreated] at hmap
      exact List.pairwise_map.mp hmap
    · have hlength := new_length hrows hnew
      match new, hlength with
      | [], _ => exact List.Pairwise.nil
      | [r], _ => exact List.pairwise_singleton _ r
      | _ :: _ :: _, hlength => simp at hlength
    · intro a ha b hb
      rw [hpresent b hb]
      exact lt_of_le_of_lt (hpast a ha) ht
  · intro r hr
    rcases List.mem_append.mp hr with hr | hr
    · exact le_of_lt (lt_of_le_of_lt (hpast r hr) ht)
    · exact le_of_eq (hpresent r hr)

/-- The chat of every reply is known. -/
theorem step_known (h : ∀ r ∈ s.chats.replies.rows,
      (s.chats.results.lookup r.sendId).isSome = true) :
    ∀ r ∈ (step lib s call).1.chats.replies.rows,
      ((step lib s call).1.chats.results.lookup r.sendId).isSome = true := by
  have hkept : ∀ sendId, (s.chats.results.lookup sendId).isSome = true →
      ((step lib s call).1.chats.results.lookup sendId).isSome = true := by
    intro sendId hsome
    obtain ⟨r, hr⟩ := Option.isSome_iff_exists.mp hsome
    obtain ⟨r', hr', _⟩ := (step_results lib s call).lookup_some (fun _ _ h => h.sendId_eq) hr
    rw [hr']
    rfl
  obtain ⟨old, new, hrows, hold, hnew⟩ := (step_replies lib s call).rows
  intro r hr
  rw [hrows] at hr
  rcases List.mem_append.mp hr with hr | hr
  · obtain ⟨a, ha, har⟩ := forall₂_exists_left hold hr
    have hsame : r.sendId = a.sendId := reflTransGen_field (fun _ _ h => h.sendId_eq) har
    rw [hsame]
    exact hkept _ (h a ha)
  · obtain ⟨a, ha, har⟩ := hnew r hr
    have hsame : r.sendId = a.sendId := reflTransGen_field (fun _ _ h => h.sendId_eq) har
    rw [hsame]
    refine hkept _ ?_
    cases ha with
    | prepared original sendId intent parentId _ horiginal =>
      change (s.chats.results.lookup sendId).isSome = true
      rw [horiginal]
      rfl
    | followup sendId replyId text status messageId _ _ hresult => exact hresult

/-- A chat of which nothing is bound, and which the call neither binds nor extends,
stays unbound. -/
theorem chat_unbound {sendId : String}
    (hunbound : ∀ r ∈ chatRows s.chats sendId, isUnbound r = true)
    (hfree : ∀ r ∈ chatRows s.chats sendId, ∀ intent, ¬ Binds s call r intent)
    (hextended : ∀ original, s.chats.results.lookup sendId = some original →
      continuable original = false ∨ newReplyId call = none) :
    ∀ r ∈ chatRows (step lib s call).1.chats sendId, isUnbound r = true := by
  obtain ⟨old, new, hrows, hold, _, hnew⟩ := chatRows_step lib s call sendId
  intro r hr
  rw [hrows] at hr
  rcases List.mem_append.mp hr with hr | hr
  · exact rest_unbound hold hunbound hfree r hr
  · obtain ⟨hid, a, ha, har⟩ := hnew r hr
    have hsame : r.sendId = a.sendId := reflTransGen_field (fun _ _ h => h.sendId_eq) har
    cases ha with
    | prepared original sendId' intent parentId hcall horiginal hcontinuable =>
      have hchat : sendId' = sendId := hsame.symm.trans hid
      rcases hextended original (hchat ▸ horiginal) with hnot | hnone
      · rw [hnot] at hcontinuable
        exact Bool.noConfusion hcontinuable
      · rw [hnone] at hcall
        cases hcall
    | followup sendId' replyId text status messageId hcall _ _ hkind =>
      refine row_unbound har ?_ ?_
      · rcases hkind with ⟨rfl, _⟩ | rfl <;> rfl
      · rintro intent ⟨⟨exclude, haction⟩, _⟩
        rw [newReplyId, haction] at hcall
        cases hcall

/-- A draft that the call binds is ready behind the first answer of its chat. -/
theorem ready_behind (h : Branches t s.chats) {sendId : String} {original : ResultRow}
    (horiginal : s.chats.results.lookup sendId = some original) :
    ReadyBehind s call original.conversationId original.messageId (chatRows s.chats sendId) := by
  rintro draft hdraft intent ⟨_, hready⟩
  obtain ⟨_, hid⟩ := mem_chatRows.mp hdraft
  unfold readyDraft at hready
  rw [hid, horiginal, h.branchRows_eq] at hready
  split at hready
  · cases hready
  · rename_i original' hfound
    obtain ⟨hsame, _⟩ := Option.filter_eq_some_iff.mp hfound
    obtain rfl := Option.some.inj hsame
    obtain ⟨parentId, hwalk, rfl⟩ := Option.map_eq_some_iff.mp hready
    exact ⟨rfl, hwalk⟩

/-- A follow-up is bound only in a chat whose first turn is over and identified. -/
theorem binds_continuable {sendId : String} {draft : ReplyRow} {intent : ReplyIntent}
    (hdraft : draft ∈ chatRows s.chats sendId) (hbinds : Binds s call draft intent) :
    ∃ original, s.chats.results.lookup sendId = some original ∧ continuable original = true := by
  obtain ⟨_, hready⟩ := hbinds
  obtain ⟨_, hid⟩ := mem_chatRows.mp hdraft
  unfold readyDraft at hready
  rw [hid] at hready
  split at hready
  · cases hready
  · rename_i original hfound
    exact ⟨original, Option.filter_eq_some_iff.mp hfound⟩

/-- Behind a turn whose message the call may replace, nothing is bound. -/
theorem keeps_rows (h : Branches t s.chats) (hkeep : KeepsTurns lib s call)
    (haccepted : ∀ replyId capture, call.action = .reply (.recoverHistorical replyId capture) →
      ∃ r, s.chats.replies.lookup replyId = some r ∧
        acceptsReplyProbe lib s.chats capture r = true)
    {sendId : String} {original : ResultRow}
    (horiginal : s.chats.results.lookup sendId = some original) :
    KeepsRows s call (chatRows s.chats sendId) := by
  have hsuffix : ∀ rows, rows.Sublist (chatRows s.chats sendId) → KeepsRows s call rows := by
    intro rows hrows
    induction rows with
    | nil => trivial
    | cons turn rest ih =>
      refine ⟨?_, ih ((List.sublist_cons_self _ _).trans hrows)⟩
      by_cases hmessage : KeepsMessage call turn
      · exact Or.inl hmessage
      · right
        unfold KeepsMessage at hmessage
        push Not at hmessage
        obtain ⟨capture, haction, hconflict⟩ := hmessage
        obtain ⟨r, hr, hprobe⟩ := haccepted turn.replyId capture haction
        have hturn := mem_chatRows.mp (hrows.subset List.mem_cons_self)
        have hsame : r = turn := by
          rw [Table.lookup_of_mem hturn.1] at hr
          exact (Option.some.inj hr).symm
        subst hsame
        have hnot : ¬ Continued s.chats r := by
          intro hcontinued
          rw [KeepsTurns, haction] at hkeep
          exact hconflict (hkeep r hr hprobe hcontinued)
        refine ⟨?_, ?_⟩
        · intro a ha
          have hrow := hrows.subset (List.mem_cons_of_mem _ ha)
          obtain ⟨hmem, hid⟩ := mem_chatRows.mp hrow
          have hlater : r.createdAt < a.createdAt := by
            have hsorted := (h.ordered.filter fun r => decide (r.sendId = sendId)).sublist hrows
            exact (List.pairwise_cons.mp hsorted).1 a ha
          have hbound : isBound a = false := by
            by_contra hbound
            rw [Bool.not_eq_false] at hbound
            exact hnot ⟨a, hmem, hid.trans hturn.2.symm, hlater, hbound⟩
          rcases h.identified sendId original horiginal with hunbound | ⟨_, hmessage⟩
          · exact hunbound a hrow
          · exact (h.lineage sendId original horiginal).unbound_of_not_bound hmessage hrow hbound
        · rintro a _ intent ⟨⟨exclude, hother⟩, _⟩
          rw [haction] at hother
          cases hother
  exact hsuffix _ (List.Sublist.refl _)

/-- A refused call changes nothing. An accepted one keeps the messages that replies
continue. -/
theorem refused_or_kept (hkeep : KeepsTurns lib s call) :
    (step lib s call).1.chats = s.chats ∨
      ((∀ replyId capture, call.action = .reply (.recoverHistorical replyId capture) →
        ∃ r, s.chats.replies.lookup replyId = some r ∧
          acceptsReplyProbe lib s.chats capture r = true) ∧
      ∀ sendId original, s.chats.results.lookup sendId = some original →
        HasTurn s.chats sendId → KeepsOriginal call original) := by
  by_cases hwrite : ∃ sendId owner capture allow,
      call.action = .result (.write sendId owner capture allow)
  · obtain ⟨sendId, owner, capture, allow, haction⟩ := hwrite
    rw [step_result haction]
    rcases write_cases lib s.chats sendId owner capture allow call.now with
      hrefused | ⟨r, hr, haccepts, _⟩
    · exact Or.inl hrefused
    · rw [KeepsTurns, haction] at hkeep
      refine Or.inr ⟨by simp [haction], ?_⟩
      intro sendId' original horiginal hturn
      have hid : original.sendId = sendId' := Table.lookup_key horiginal
      refine ⟨?_, by simp [haction]⟩
      intro owner' capture' allow' hcall
      rw [haction] at hcall
      cases hcall
      rw [hid, horiginal, Option.some.injEq] at hr
      subst hr
      exact hkeep original (hid ▸ horiginal) haccepts (hid ▸ hturn)
  by_cases hresult : ∃ sendId capture, call.action = .result (.recoverHistorical sendId capture)
  · obtain ⟨sendId, capture, haction⟩ := hresult
    rw [step_result haction]
    rcases recoverHistoricalResponse_cases lib s.chats sendId capture call.now with
      hrefused | ⟨r, hr, haccepts, _⟩
    · exact Or.inl hrefused
    · rw [KeepsTurns, haction] at hkeep
      refine Or.inr ⟨by simp [haction], ?_⟩
      intro sendId' original horiginal hturn
      have hid : original.sendId = sendId' := Table.lookup_key horiginal
      refine ⟨by simp [haction], ?_⟩
      intro capture' hcall
      rw [haction] at hcall
      cases hcall
      rw [hid, horiginal, Option.some.injEq] at hr
      subst hr
      exact hkeep original (hid ▸ horiginal) haccepts (hid ▸ hturn)
  have hothers : ∀ original, KeepsOriginal call original := by
    intro original
    constructor
    · intro owner capture allow hcall
      exact absurd ⟨_, _, _, _, hcall⟩ hwrite
    · intro capture hcall
      exact absurd ⟨_, _, hcall⟩ hresult
  by_cases hreply : ∃ replyId capture, call.action = .reply (.recoverHistorical replyId capture)
  · obtain ⟨replyId, capture, haction⟩ := hreply
    rw [step_reply haction]
    rcases recoverHistoricalReply_cases lib s.chats replyId capture call.now with
      hrefused | ⟨r, hr, haccepts, _⟩
    · exact Or.inl hrefused
    · refine Or.inr ⟨?_, fun _ original _ _ => hothers original⟩
      intro replyId' capture' hcall
      rw [haction] at hcall
      cases hcall
      exact ⟨r, hr, haccepts⟩
  · refine Or.inr ⟨?_, fun _ original _ _ => hothers original⟩
    intro replyId capture hcall
    exact absurd ⟨_, _, hcall⟩ hreply

theorem Branches.later {t t' : Time} {c : Chats} (h : Branches t c) (ht : t ≤ t') :
    Branches t' c :=
  ⟨h.ordered, fun r hr => le_trans (h.past r hr) ht, h.known, h.lineage, h.identified⟩

theorem new_keeps_messages {replyId : String} (h : newReplyId call = some replyId) (r : ReplyRow) :
    KeepsMessage call r := by
  intro capture hcall
  rw [newReplyId, hcall] at h
  cases h

/-- The lineage of a chat whose first answer stays in place. -/
theorem lineage_step (h : Branches t s.chats) {sendId : String} {original : ResultRow}
    (horiginal : s.chats.results.lookup sendId = some original)
    (hkeep : KeepsRows s call (chatRows s.chats sendId)) :
    Lineage original.conversationId original.messageId
      (chatRows (step lib s call).1.chats sendId) := by
  obtain ⟨old, new, hrows, hold, hlength, hnew⟩ := chatRows_step lib s call sendId
  have hnodup : ((chatRows s.chats sendId).map ReplyRow.replyId).Nodup :=
    s.chats.replies.nodup.sublist (List.filter_sublist.map _)
  have hlineage := (h.lineage sendId original horiginal).evolves hold hnodup
    (ready_behind h horiginal) hkeep
  rw [hrows]
  match new, hlength, hnew with
  | [], _, _ => simpa using hlineage
  | [r], _, hnew =>
    obtain ⟨hid, a, ha, har⟩ := hnew r List.mem_cons_self
    have hsame : r.sendId = a.sendId := reflTransGen_field (fun _ _ h => h.sendId_eq) har
    cases ha with
    | prepared original' sendId' intent parentId hcall horiginal' _ _ htip hintent =>
      have hchat : sendId' = sendId := hsame.symm.trans hid
      subst hchat
      rw [horiginal, Option.some.injEq] at horiginal'
      subst horiginal'
      rw [h.branchRows_eq] at htip
      obtain ⟨hqueued, hparent, hconversation⟩ := row_parent har nofun
      exact lineage_append hold htip (fun r _ => new_keeps_messages hcall r) hqueued
        (hconversation.trans hintent.1) (hparent.trans hintent.2)
    | followup sendId' replyId text status messageId hcall _ _ hkind =>
      refine hlineage.append_unbound (row_unbound har ?_ ?_)
      · rcases hkind with ⟨rfl, _⟩ | rfl <;> rfl
      · rintro intent ⟨⟨exclude, haction⟩, _⟩
        rw [newReplyId, haction] at hcall
        cases hcall
  | _ :: _ :: _, hlength, _ => simp at hlength

theorem step_branches (h : Branches t s.chats) (ht : t < call.now)
    (hkeep : KeepsTurns lib s call) : Branches call.now (step lib s call).1.chats := by
  rcases refused_or_kept hkeep with hsame | ⟨haccepted, horiginals⟩
  · rw [hsame]
    exact h.later (le_of_lt ht)
  obtain ⟨hordered, hpast⟩ := @step_ordered lib _ _ _ h ht
  -- the lineage of each chat, with the identity of its first answer
  have hchats : ∀ sendId original', (step lib s call).1.chats.results.lookup sendId =
      some original' → Lineage original'.conversationId original'.messageId
        (chatRows (step lib s call).1.chats sendId) ∧
      ((∀ r ∈ chatRows (step lib s call).1.chats sendId, isUnbound r = true) ∨
        (original'.conversationId ≠ "" ∧ original'.messageId ≠ "")) := by
    intro sendId original' horiginal'
    rcases (step_results lib s call).lookup_old (fun _ _ h => h.sendId_eq) horiginal' with
      ⟨original, horiginal, hevolves⟩ | ⟨hnone, _⟩
    · by_cases hids : (original.conversationId ≠ "" ∧ original.messageId ≠ "") ∧
          KeepsOriginal call original
      · obtain ⟨⟨hconversation, hmessage⟩, hkept⟩ := hids
        obtain ⟨hconversation', hmessage'⟩ := original_kept hevolves hconversation hmessage hkept
        rw [hconversation', hmessage']
        exact ⟨lineage_step h horiginal (keeps_rows h hkeep haccepted horiginal),
          Or.inr ⟨hconversation, hmessage⟩⟩
      · have hopen : ∀ r ∈ chatRows s.chats sendId, isUnbound r = true := by
          rcases h.identified sendId original horiginal with hunbound | hpresent
          · exact hunbound
          · refine h.unbound_of_no_turn horiginal ?_
            intro hturn
            exact hids ⟨hpresent, horiginals sendId original horiginal hturn⟩
        have hreply : continuable original = true → ∀ r, call.action ≠ .reply r := by
          intro hcontinuable r haction
          simp only [continuable, Bool.and_eq_true, decide_eq_true_eq] at hcontinuable
          refine hids ⟨⟨hcontinuable.1.2, hcontinuable.2⟩, ?_, ?_⟩
          · intro owner capture allow hcall
            rw [haction] at hcall
            cases hcall
          · intro capture hcall
            rw [haction] at hcall
            cases hcall
        have hunbound : ∀ r ∈ chatRows (step lib s call).1.chats sendId, isUnbound r = true := by
          refine chat_unbound hopen ?_ ?_
          · intro r hr intent hbinds
            obtain ⟨a, ha, hcontinuable⟩ := binds_continuable hr hbinds
            rw [horiginal, Option.some.injEq] at ha
            subst ha
            obtain ⟨⟨exclude, haction⟩, _⟩ := hbinds
            exact hreply hcontinuable _ haction
          · intro a ha
            rw [horiginal, Option.some.injEq] at ha
            subst ha
            by_cases hcontinuable : continuable original = true
            · right
              have hnot := hreply hcontinuable
              unfold newReplyId
              split
              · rename_i haction
                exact absurd haction (hnot _)
              · rename_i haction
                exact absurd haction (hnot _)
              · rename_i haction
                exact absurd haction (hnot _)
              · rfl
            · exact Or.inl (by simpa using hcontinuable)
        exact ⟨Lineage.of_unbound hunbound, Or.inl hunbound⟩
    · -- a chat whose first row is new has no replies
      have hunbound : ∀ r ∈ chatRows (step lib s call).1.chats sendId, isUnbound r = true := by
        refine chat_unbound ?_ ?_ ?_
        · intro r hr
          obtain ⟨hmem, hid⟩ := mem_chatRows.mp hr
          have hknown := h.known r hmem
          rw [hid, hnone] at hknown
          cases hknown
        · intro r hr
          obtain ⟨hmem, hid⟩ := mem_chatRows.mp hr
          have hknown := h.known r hmem
          rw [hid, hnone] at hknown
          cases hknown
        · intro original horiginal
          rw [hnone] at horiginal
          cases horiginal
      exact ⟨Lineage.of_unbound hunbound, Or.inl hunbound⟩
  exact ⟨hordered, hpast, step_known h.known, fun k r hr => (hchats k r hr).1,
    fun k r hr => (hchats k r hr).2⟩

end Step

theorem empty_branches (t : Time) : Branches t Store.empty.chats := by
  have hnone : ∀ r, r ∉ Store.empty.chats.replies.rows := fun _ => List.not_mem_nil
  refine ⟨List.Pairwise.nil, fun r hr => absurd hr (hnone r), fun r hr => absurd hr (hnone r),
    ?_, ?_⟩
  · intro sendId original horiginal
    cases horiginal
  · intro sendId original horiginal
    cases horiginal

/-- In a run at increasing times that replaces no message under a reply continuing
it, the bound replies of every chat form a chain, and no new reply is refused for an
inconsistent branch. -/
theorem branch_lineage (lib : Stdlib) (t : Time) (run : List Call)
    (htime : Increasing Call.now t run)
    (hrun : Meets (step lib) (KeepsTurns lib) Store.empty run) :
    Chained (final (step lib) Store.empty run).chats ∧
      ∀ sendId intent now,
        (prepare (final (step lib) Store.empty run).chats sendId intent now).2 ≠
          .error .lineageInconsistent := by
  have hbranches := clocked_invariant (step lib) (fun a b => a < b) Call.now (KeepsTurns lib)
    (fun t s => Branches t s.chats) ?_ t Store.empty (empty_branches t) run htime hrun
  · exact ⟨branches_chained hbranches, branches_prepare hbranches⟩
  · intro t s call hkeep ht h
    exact step_branches h ht hkeep

def chatId : String := "11111111-1111-4111-8111-111111111111"
def statusId : String := "22222222-2222-4222-8222-222222222222"
def answerId : String := "33333333-3333-4333-8333-333333333333"
def replyMessageId : String := "44444444-4444-4444-8444-444444444444"

def pageReading (status : CaptureStatus) (text : Text) (messageId : String)
    (turnMessageIds : List String) : CaptureResult :=
  { source := .dom, status := status, text := text, conversationId := some chatId,
    messageId := some messageId, observerId := some "tab-1", turnMessageIds := turnMessageIds }

/-- The first answer is interrupted behind a status message, and the user replies. -/
def repliedRun : List Call :=
  [⟨.queue (.enqueue ⟨"manual-1", ['h', 'i'], "", [], false, false⟩ true), 10⟩,
    ⟨.queue (.claimNext "worker-1" 30 false none fun _ => true), 11⟩,
    ⟨.result (.accept "manual-1" "worker-1" 200), 12⟩,
    ⟨.result (.write "manual-1" "worker-1" (pageReading .partialText ['o', 'k'] statusId [])
      false), 13⟩,
    ⟨.result (.finish "manual-1" "worker-1" .interrupted), 14⟩,
    ⟨.reply (.prepare "manual-1" ⟨"reply-1", chatId, statusId, ['s', 'o']⟩), 15⟩,
    ⟨.reply (.claim "reply-1" "worker-2" 200), 16⟩,
    ⟨.reply (.accepted "reply-1" "worker-2" chatId statusId replyMessageId none), 17⟩,
    ⟨.reply (.observe "reply-1" "worker-2"
      (pageReading .complete ['y', 'e', 's'] replyMessageId [])), 18⟩]

/-- The history shows the whole first turn, under the given message. -/
def lateReading (messageId : String) : Call :=
  ⟨.result (.recoverHistorical "manual-1"
    (pageReading .complete ['o', 'k', 'a', 'y'] messageId [statusId])), 19⟩

def nextIntent : ReplyIntent := ⟨"reply-2", chatId, replyMessageId, ['g', 'o']⟩

theorem branch_lineage_same_message :
    let c := (final (step plainLib) Store.empty (repliedRun ++ [lateReading statusId])).chats
    Chained c ∧ ∀ sendId intent now, (prepare c sendId intent now).2 ≠
      .error .lineageInconsistent := by
  refine branch_lineage plainLib 9 (repliedRun ++ [lateReading statusId]) ?_ ?_
  · refine ⟨?_, ?_, ?_, ?_, ?_, ?_, ?_, ?_, ?_, ?_, trivial⟩ <;> decide +kernel
  · refine ⟨trivial, trivial, trivial, ?_, trivial, trivial, trivial, trivial, trivial, ?_, trivial⟩
    · show ∀ r ∈ Table.lookup _ _, _
      decide +kernel
    · show ∀ r ∈ Table.lookup _ _, _
      decide +kernel

/-- The first turn takes another message under the reply that continues it: the chain
is broken, and the chat refuses every later reply. -/
theorem lineage_broken :
    let c := (final (step plainLib) Store.empty (repliedRun ++ [lateReading answerId])).chats
    Increasing Call.now 9 (repliedRun ++ [lateReading answerId]) ∧ ¬ Chained c ∧
      (prepare c "manual-1" nextIntent 20).2 = .error .lineageInconsistent := by
  intro c
  refine ⟨?_, ?_, ?_⟩
  · refine ⟨?_, ?_, ?_, ?_, ?_, ?_, ?_, ?_, ?_, ?_, trivial⟩ <;> decide +kernel
  · intro hchained
    have hturns : ∃ original ∈ c.results.lookup "manual-1",
        Continues original.messageId ((branchRows c "manual-1").filter isBound) :=
      hchained "manual-1" (by decide +kernel)
    revert hturns
    decide +kernel
  · decide +kernel
end Prompta.BranchLineage
