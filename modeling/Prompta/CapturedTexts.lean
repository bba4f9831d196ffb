import Prompta.ReplyChanges
import Prompta.Runs

/-!
The visible text of a row over the captures of its answer. A capture stores a text and the
merged display blocks; a reader sees the stored text, unless it is the concatenation of blocks
that are read back as fewer. Where the blocks of every capture are read back as they were
stored, the visible texts only grow; completed rows stay as they are in any case.
-/
namespace Prompta.CapturedTexts

open Tables Texts DisplayBlocks ToolCalls Schema ResponseStore ReplyStore Service Runs Relation

section Reading

variable {lib : Stdlib}

/-- Stored blocks that are read back without losing text. -/
def StableBlocks (lib : Stdlib) (stored : List Block) : Prop :=
  (unmergedText stored).length ≤ (displayBlocksText lib stored).length

instance (lib : Stdlib) (stored : List Block) : Decidable (StableBlocks lib stored) :=
  inferInstanceAs (Decidable (_ ≤ _))

theorem visible_stable {stored : List Block} (h : StableBlocks lib stored) (saved : Text) :
    visibleAssistantText lib saved stored = saved := by
  unfold StableBlocks at h
  unfold visibleAssistantText
  rw [if_neg]
  intro hshort
  have hlt := of_decide_eq_true (Bool.and_eq_true_iff.mp hshort).1
  omega

/-- What a reader sees is never longer than what is stored. -/
theorem visible_length (saved : Text) (stored : List Block) :
    (visibleAssistantText lib saved stored).length ≤ saved.length := by
  unfold visibleAssistantText
  dsimp only
  split
  · rename_i hshort
    obtain ⟨hlt, hsame⟩ := Bool.and_eq_true_iff.mp hshort
    have hlt' := of_decide_eq_true hlt
    have hstrip := strip_length_le saved
    rw [of_decide_eq_true hsame] at hstrip
    omega
  · exact le_refl _

end Reading

/-- What a capture may do to a row: its visible text does not get shorter, a completed row
stays as it is and a known conversation is kept. -/
structure Kept {α : Type} (visible : α → Text) (completed : α → Prop) (conversation : α → String)
    (a b : α) : Prop where
  visible : (visible a).length ≤ (visible b).length
  completed : completed a → b = a
  conversation : conversation a ≠ "" → conversation b = conversation a

def KeptResult (lib : Stdlib) : ResultRow → ResultRow → Prop :=
  Kept (visibleText lib) (fun r => r.status = .completed) ResultRow.conversationId

def KeptReply (lib : Stdlib) : ReplyRow → ReplyRow → Prop :=
  Kept (visibleReplyText lib) (fun t => t.status = .completed) ReplyRow.conversationId

/-- Every row is found again under its key, related to what it was. -/
def Found {α : Type} {key : α → String} (R : α → α → Prop) (t t' : Table α String key) : Prop :=
  ∀ k a, t.lookup k = some a → ∃ b, t'.lookup k = some b ∧ R a b

def RowsKept (lib : Stdlib) (c c' : Chats) : Prop :=
  Found (KeptResult lib) c.results c'.results ∧ Found (KeptReply lib) c.replies c'.replies

/-- The operations that capture an answer or end its capture. -/
def captures : Action → Bool
  | .result (.accept _ _ _) => true
  | .result (.acceptObserved _ _ _ _) => true
  | .result (.markGenerating _ _) => true
  | .result (.write _ _ _ _) => true
  | .result (.finish _ _ _) => true
  | .result (.recoverOrphans _) => true
  | .result (.recoverHistorical _ _) => true
  | .reply (.observe _ _ _) => true
  | .reply (.observeTools _ _ _) => true
  | .reply (.finish _ _ _) => true
  | .reply (.recoverOrphans _) => true
  | .reply (.recoverHistorical _ _) => true
  | _ => false

/-- The blocks that the call merges are read back as they are stored. -/
def Rereads (lib : Stdlib) (s : Store) (call : Call) : Prop :=
  match call.action with
  | .result (.write sendId _ capture _) => ∀ r, s.chats.results.lookup sendId = some r →
      StableBlocks lib (ResponseStore.mergedBlocks lib capture r)
  | .result (.recoverHistorical sendId capture) => ∀ r, s.chats.results.lookup sendId = some r →
      StableBlocks lib (ResponseStore.mergedBlocks lib capture r)
  | .reply (.observe replyId _ capture) => ∀ t, s.chats.replies.lookup replyId = some t →
      StableBlocks lib (replyBlocks lib capture t)
  | .reply (.observeTools replyId _ capture) => ∀ t, s.chats.replies.lookup replyId = some t →
      StableBlocks lib (replyBlocks lib capture t)
  | .reply (.recoverHistorical replyId capture) => ∀ t, s.chats.replies.lookup replyId = some t →
      StableBlocks lib (replyBlocks lib capture t)
  | _ => True

section Rows

variable {α : Type} {visible : α → Text} {completed : α → Prop} {conversation : α → String}
  {key : α → String} {R : α → α → Prop}

theorem Kept.refl (a : α) : Kept visible completed conversation a a :=
  ⟨le_refl _, fun _ => rfl, fun _ => rfl⟩

theorem Kept.trans {a b d : α} (h : Kept visible completed conversation a b)
    (h' : Kept visible completed conversation b d) : Kept visible completed conversation a d where
  visible := le_trans h.visible h'.visible
  completed hdone := by
    have hsame := h.completed hdone
    rw [hsame] at h'
    exact h'.completed hdone
  conversation hne := by
    have hfirst := h.conversation hne
    rw [h'.conversation (by rw [hfirst]; exact hne), hfirst]

/-- A change that leaves the visible text and the conversation of an open row. -/
theorem Kept.of_same {a b : α} (hvisible : visible b = visible a)
    (hconversation : conversation b = conversation a) (hopen : ¬completed a) :
    Kept visible completed conversation a b where
  visible := by rw [hvisible]
  completed hdone := absurd hdone hopen
  conversation _ := hconversation

theorem Found.refl (hR : ∀ a, R a a) (t : Table α String key) : Found R t t :=
  fun _ a ha => ⟨a, ha, hR a⟩

theorem Found.trans (hR : ∀ a b d, R a b → R b d → R a d) {t₁ t₂ t₃ : Table α String key}
    (h : Found R t₁ t₂) (h' : Found R t₂ t₃) : Found R t₁ t₃ := by
  intro k a ha
  obtain ⟨b, hb, hab⟩ := h k a ha
  obtain ⟨d, hd, hbd⟩ := h' k b hb
  exact ⟨d, hd, hR a b d hab hbd⟩

theorem Found.update (hR : ∀ a, R a a) (t : Table α String key) {p : α → Bool} {f : α → α}
    (hf : ∀ a, key (f a) = key a) (h : ∀ a, p a = true → R a (f a)) :
    Found R t (t.update p f hf) := by
  intro k a ha
  refine ⟨if p a then f a else a, by rw [Table.lookup_update, ha, Option.map_some], ?_⟩
  cases hp : p a
  · exact hR a
  · exact h a hp

/-- An update of one row, where the rewritten row is related to the old one. -/
theorem Found.updateAt (hR : ∀ a, R a a) (t : Table α String key) (k : String) {p : α → Bool}
    {f : α → α} (hf : ∀ a, key (f a) = key a)
    (h : ∀ a, t.lookup k = some a → p a = true → R a (f a)) : Found R t (t.updateAt k p f hf) := by
  intro j a ha
  by_cases hj : j = k
  · subst hj
    refine ⟨if p a then f a else a, by rw [Table.lookup_updateAt_self, ha, Option.map_some], ?_⟩
    cases hp : p a
    · exact hR a
    · exact h a ha hp
  · exact ⟨a, by rw [Table.lookup_updateAt_ne _ _ _ _ _ _ hj, ha], hR a⟩

end Rows

section Chats

variable {lib : Stdlib}

theorem rowsKept_refl (c : Chats) : RowsKept lib c c :=
  ⟨Found.refl Kept.refl _, Found.refl Kept.refl _⟩

theorem rowsKept_trans {c₁ c₂ c₃ : Chats} (h : RowsKept lib c₁ c₂) (h' : RowsKept lib c₂ c₃) :
    RowsKept lib c₁ c₃ :=
  ⟨Found.trans (fun _ _ _ => Kept.trans) h.1 h'.1, Found.trans (fun _ _ _ => Kept.trans) h.2 h'.2⟩

/-- An update of one result keeps the rows if it keeps that one. -/
theorem updateResult_kept {c : Chats} {sendId : String} {p : ResultRow → Bool}
    {f : ResultRow → ResultRow} (hf : ∀ r, (f r).sendId = r.sendId)
    (h : ∀ r, c.results.lookup sendId = some r → p r = true → KeptResult lib r (f r)) :
    RowsKept lib c (updateResult c sendId p f hf).1 :=
  ⟨Found.updateAt Kept.refl _ sendId hf h, Found.refl Kept.refl _⟩

/-- An update of one reply keeps the rows if it keeps that one. -/
theorem updateReply_kept {c : Chats} {replyId : String} {p : ReplyRow → Bool}
    {f : ReplyRow → ReplyRow} (hf : ∀ t, (f t).replyId = t.replyId)
    (h : ∀ t, c.replies.lookup replyId = some t → p t = true → KeptReply lib t (f t)) :
    RowsKept lib c (updateReply c replyId p f hf).1 :=
  ⟨Found.refl Kept.refl _, Found.updateAt Kept.refl _ replyId hf h⟩

end Chats

section Invariant

/-- A row without an acceptance holds no answer. -/
def BlankResult (r : ResultRow) : Prop :=
  r.acceptedAt = 0 → isCapturing r.status = false ∧ r.conversationId = "" ∧ r.assistantText = [] ∧
    r.displayBlocks = []

structure Sound (c : Chats) : Prop where
  results : ∀ r ∈ c.results.rows, BlankResult r
  replies : ∀ t ∈ c.replies.rows, t.assistantText.length ≤ maxText

variable {lib : Stdlib} {s : Store} {call : Call}

theorem blank_open {r : ResultRow} (hblank : BlankResult r) (h : isCapturing r.status = true) :
    r.acceptedAt ≠ 0 := by
  intro hzero
  rw [(hblank hzero).1] at h
  exact Bool.false_ne_true h

theorem live_open {owner : String} {now : Time} {r : ResultRow}
    (h : liveCapture owner now r = true) :
    isCapturing r.status = true := by
  simp only [liveCapture, Bool.and_eq_true] at h
  exact h.1.2

/-- A change of a row that is being captured. -/
theorem blank_of_open {r r' : ResultRow} (hblank : BlankResult r)
    (hopen : isCapturing r.status = true)
    (hsame : r'.acceptedAt = r.acceptedAt) : BlankResult r' :=
  fun hzero => absurd (hsame.symm.trans hzero) (blank_open hblank hopen)

theorem resultChange_blank (hnow : 0 < call.now) {r r' : ResultRow} (h : ResultChange lib call r r')
    (hblank : BlankResult r) : BlankResult r' := by
  cases h with
  | named _ _ => exact hblank
  | combined _ _ _ => exact hblank
  | submitted _ => exact fun hzero => absurd hzero (ne_of_gt hnow)
  | accepted _ _ _ _ _ => exact fun hzero => absurd hzero (ne_of_gt hnow)
  | observed _ _ _ _ _ _ _ => exact fun hzero => absurd hzero (ne_of_gt hnow)
  | generating _ hlive _ => exact blank_of_open hblank (live_open hlive) rfl
  | routed _ _ hlive _ => exact blank_of_open hblank (live_open hlive) rfl
  | tools _ _ _ _ hlive _ => exact blank_of_open hblank (live_open hlive) rfl
  | text _ _ _ _ hlive _ => exact blank_of_open hblank (live_open hlive) rfl
  | extended _ _ _ _ => exact hblank
  | ended _ hopen => exact blank_of_open hblank hopen rfl
  | unavailable _ => exact fun hzero => ⟨rfl, (hblank hzero).2⟩
  | unknown _ => exact fun hzero => ⟨rfl, (hblank hzero).2⟩
  | detached hopen =>
    simp only [ownedCapture, Bool.and_eq_true] at hopen
    exact blank_of_open hblank hopen.1.1 rfl
  | live _ _ => exact hblank
  | recovered capture _ husable hopen _ =>
    intro hzero
    have hconversation := (hblank hzero).2.1
    simp only [usableProbe, Bool.and_eq_true] at husable
    simp only [recoverableRow, Bool.and_eq_true, decide_eq_true_eq] at hopen
    have hpresent := husable.1.1.2
    rw [orElse_of_present hpresent, ← hopen.1.2, hconversation] at hpresent
    exact absurd hpresent (by decide)
  | identified _ _ _ hstatus _ =>
    intro hzero
    obtain ⟨hopen, hrest⟩ := hblank hzero
    refine ⟨?_, hrest⟩
    show isCapturing (if r.status = .outcomeUnknown then .interrupted else r.status) = false
    split
    · rfl
    · exact hopen
  | stopped _ => exact fun hzero => ⟨rfl, (hblank hzero).2⟩

theorem replyChange_bounded {t t' : ReplyRow} (h : ReplyChange lib s call t t')
    (hbound : t.assistantText.length ≤ maxText) : t'.assistantText.length ≤ maxText := by
  have htake : ∀ text : Text, (text.take maxText).length ≤ maxText := by
    intro text
    rw [List.length_take]
    omega
  cases h with
  | observed _ _ _ _ _ => exact htake _
  | recovered capture _ _ _ =>
    show (recoveredReplyText lib capture t).length ≤ maxText
    unfold recoveredReplyText
    split
    · exact hbound
    · exact htake _
  | _ => exact hbound

theorem step_sound (hnow : 0 < call.now) (h : Sound s.chats) : Sound (step lib s call).1.chats where
  results := (step_results lib s call).keeps (fun _ _ => resultChange_blank hnow)
    (by
      rintro r ⟨-, sendId, jobName, userText, now, rfl⟩
      exact fun _ => ⟨rfl, rfl, rfl, rfl⟩) h.results
  replies := (step_replies lib s call).keeps (fun _ _ => replyChange_bounded)
    (by
      intro t ht
      cases ht with
      | prepared _ _ _ _ _ _ _ _ _ _ => exact Nat.zero_le _
      | followup _ _ _ _ _ _ _ _ _ _ => exact Nat.zero_le _) h.replies

end Invariant

section Operations

variable {lib : Stdlib} {c : Chats}

/-- A capture without a conflict does not change the saved conversation. -/
theorem kept_conversation {capture : CaptureResult} {allow : Bool} {r : ResultRow}
    (h : identityConflict capture allow r = false) (hne : r.conversationId ≠ "") :
    orElse capture.conversationId r.conversationId = r.conversationId := by
  simp only [identityConflict, Bool.or_eq_false_iff] at h
  exact orElse_unconflicted hne h.1.2

theorem capturing_open {r : ResultRow} (h : isCapturing r.status = true) :
    r.status ≠ .completed := by
  intro hdone
  rw [hdone] at h
  exact Bool.false_ne_true h

theorem awaiting_open {r : ResultRow} (h : awaitsAcceptance r.status = true) :
    r.status ≠ .completed := by
  intro hdone
  rw [hdone] at h
  exact Bool.false_ne_true h

theorem accept_kept (sendId owner : String) (deadline now : Time) :
    RowsKept lib c (accept c sendId owner deadline now).1 := by
  unfold accept
  split
  · exact rowsKept_refl c
  · exact updateResult_kept _ fun r _ hawaits => Kept.of_same rfl rfl (awaiting_open hawaits)

theorem acceptObserved_kept (hsound : Sound c) (sendId owner : String) (capture : CaptureResult)
    (deadline now : Time) :
    RowsKept lib c (acceptObserved lib c sendId owner capture deadline now).1 := by
  unfold acceptObserved
  split
  · exact rowsKept_refl c
  · refine updateResult_kept _ fun r hr hfresh => ?_
    simp only [unidentifiedResult, Bool.and_eq_true, decide_eq_true_eq] at hfresh
    obtain ⟨⟨⟨hawaits, hzero⟩, hconversation⟩, -⟩ := hfresh
    obtain ⟨-, -, htext, hblocks⟩ := hsound.results r (Table.lookup_mem hr) hzero
    refine ⟨?_, fun hdone => absurd hdone (awaiting_open hawaits), fun hne =>
      absurd hconversation hne⟩
    have hnothing : visibleText lib r = [] := by
      unfold visibleText
      rw [htext, hblocks]
      exact visibleAssistantText_nil lib []
    rw [hnothing]
    exact Nat.zero_le _

theorem markGenerating_kept (sendId owner : String) (now : Time) :
    RowsKept lib c (markGenerating c sendId owner now).1 := by
  refine updateResult_kept _ fun r _ hlive => Kept.of_same rfl rfl ?_
  exact capturing_open (live_open (Bool.and_eq_true_iff.mp hlive).1)

/-- A stored text is seen whole beside blocks that are read back as they are stored. -/
theorem visible_stored {r r' : ResultRow} (hstable : StableBlocks lib r'.displayBlocks)
    (h : (visibleText lib r).length ≤ r'.assistantText.length) :
    (visibleText lib r).length ≤ (visibleText lib r').length := by
  have hseen : visibleText lib r' = r'.assistantText := visible_stable hstable _
  rw [hseen]
  exact h

theorem keptText_length (capture : CaptureResult) (r : ResultRow) :
    (visibleText lib r).length ≤ (keptText lib capture r).length := by
  unfold keptText
  dsimp only
  split
  · exact le_refl _
  · omega

/-- A snapshot of the answer, where its blocks are read back as they are stored. -/
theorem write_kept (sendId owner : String) (capture : CaptureResult) (allow : Bool) (now : Time)
    (hstable : ∀ r, c.results.lookup sendId = some r →
      StableBlocks lib (ResponseStore.mergedBlocks lib capture r)) :
    RowsKept lib c (ResponseStore.write lib c sendId owner capture allow now).1 := by
  rcases write_cases lib c sendId owner capture allow now with hsame | ⟨r, hr, haccepts, hwrite⟩
  · rw [hsame]
    exact rowsKept_refl c
  obtain ⟨hlive, hconflict⟩ := Bool.and_eq_true_iff.mp haccepts
  rw [Bool.not_eq_true'] at hconflict
  have hopen := capturing_open (live_open hlive)
  rcases hwrite with ⟨-, hrun⟩ | ⟨-, hrun⟩
  · rw [hrun]
    refine updateResult_kept _ fun a ha _ => ?_
    obtain rfl := Option.some.inj (hr.symm.trans ha)
    refine ⟨visible_stored (hstable r hr) ?_, fun hdone => absurd hdone hopen,
      kept_conversation hconflict⟩
    exact visible_length _ _
  · rw [hrun]
    refine updateResult_kept _ fun a ha _ => ?_
    obtain rfl := Option.some.inj (hr.symm.trans ha)
    refine ⟨visible_stored (hstable r hr) ?_, fun hdone => absurd hdone hopen,
      kept_conversation hconflict⟩
    exact keptText_length capture r

theorem finish_kept (sendId owner : String) (status : FinishStatus) (now : Time) :
    RowsKept lib c (ResponseStore.finish c sendId owner status now).1 :=
  updateResult_kept _ fun _ _ howned => Kept.of_same rfl rfl
    (capturing_open (Bool.and_eq_true_iff.mp howned).2)

theorem recoverOrphans_kept (alive : String → Bool) (now : Time) :
    RowsKept lib c (ResponseStore.recoverOrphans c alive now).1 := by
  refine ⟨?_, Found.refl Kept.refl _⟩
  show Found _ c.results
    (c.results.update (staleCapture c alive now) (endedRow .interrupted now) fun _ => rfl)
  refine Found.update Kept.refl _ _ fun r hstale => ?_
  exact Kept.of_same rfl rfl (capturing_open (Bool.and_eq_true_iff.mp hstale).1)

theorem recoveredText_length (capture : CaptureResult) (r : ResultRow) :
    (visibleText lib r).length ≤ (recoveredText lib capture r).length := by
  unfold recoveredText shorterProbe
  split
  · exact le_refl _
  · rename_i hlong
    rw [decide_eq_true_eq] at hlong
    omega

theorem recoverable_open {conversationId : String} {r : ResultRow}
    (h : recoverableRow conversationId r = true) : r.status ≠ .completed := by
  intro hdone
  simp [recoverableRow, hdone, isRecoverable] at h

/-- A reading of the page, under the same condition. -/
theorem recoverHistoricalResponse_kept (sendId : String) (capture : CaptureResult) (now : Time)
    (hstable : ∀ r, c.results.lookup sendId = some r →
      StableBlocks lib (ResponseStore.mergedBlocks lib capture r)) :
    RowsKept lib c (recoverHistoricalResponse lib c sendId capture now).1 := by
  rcases recoverHistoricalResponse_cases lib c sendId capture now with hsame | ⟨r, hr, -, hrun⟩
  · rw [hsame]
    exact rowsKept_refl c
  rw [hrun]
  refine updateResult_kept _ fun a ha hopen => ?_
  obtain rfl := Option.some.inj (hr.symm.trans ha)
  exact ⟨visible_stored (hstable r hr) (recoveredText_length capture r),
    fun hdone => absurd hdone (recoverable_open hopen), fun _ => rfl⟩

/-- A stored text as long as what was shown shows as much. -/
theorem visible_stored_reply {t t' : ReplyRow} (hstable : StableBlocks lib t'.displayBlocks)
    (h : (visibleReplyText lib t).length ≤ t'.assistantText.length) :
    (visibleReplyText lib t).length ≤ (visibleReplyText lib t').length := by
  have hseen : visibleReplyText lib t' = t'.assistantText := visible_stable hstable _
  rw [hseen]
  exact h

theorem active_open {t : ReplyRow} (h : activeReply t.status = true) : t.status ≠ .completed := by
  intro hdone
  rw [hdone] at h
  exact Bool.false_ne_true h

theorem dispatch_open {owner : String} {now : Time} {t : ReplyRow}
    (h : liveDispatch owner now t = true) :
    t.status ≠ .completed := by
  simp only [liveDispatch, Bool.and_eq_true] at h
  exact active_open h.1.1

theorem detached_open {t : ReplyRow} (h : detachedReply t = true) : t.status ≠ .completed := by
  intro hdone
  have hawaits := (Bool.and_eq_true_iff.mp h).1
  rw [hdone] at hawaits
  exact Bool.false_ne_true hawaits

theorem observe_kept (hsound : Sound c) (replyId owner : String) (capture : CaptureResult)
    (now : Time)
    (hstable : ∀ t, c.replies.lookup replyId = some t →
      StableBlocks lib (replyBlocks lib capture t)) :
    RowsKept lib c (observe lib c replyId owner capture now).1 := by
  unfold observe
  dsimp only
  split
  · exact rowsKept_refl c
  rename_i t hfound
  obtain ⟨ht, -⟩ := Option.filter_eq_some_iff.mp hfound
  split
  · exact rowsKept_refl c
  rename_i hguard
  simp only [not_or, not_lt] at hguard
  refine updateReply_kept _ fun a ha howned => ?_
  obtain rfl := Option.some.inj (ht.symm.trans ha)
  refine ⟨visible_stored_reply (hstable t ht) ?_, fun hdone => absurd hdone ?_, fun _ => rfl⟩
  · have hseen : (visibleReplyText lib t).length ≤ t.assistantText.length := visible_length _ _
    have hbound := hsound.replies t (Table.lookup_mem ht)
    show _ ≤ ((observedText lib capture t).take maxText).length
    rw [List.length_take]
    omega
  · exact dispatch_open (Bool.and_eq_true_iff.mp howned).1

theorem observeTools_kept (replyId owner : String) (capture : CaptureResult) (now : Time)
    (hstable : ∀ t, c.replies.lookup replyId = some t →
      StableBlocks lib (replyBlocks lib capture t)) :
    RowsKept lib c (observeTools lib c replyId owner capture now).1 := by
  unfold observeTools
  dsimp only
  split
  · exact rowsKept_refl c
  split
  · exact rowsKept_refl c
  split
  · exact rowsKept_refl c
  refine updateReply_kept _ fun t ht howned => ?_
  refine ⟨visible_stored_reply (hstable t ht) (visible_length _ _), fun hdone => absurd hdone ?_,
    fun _ => rfl⟩
  exact dispatch_open (Bool.and_eq_true_iff.mp howned).1

theorem finishReply_kept (replyId owner : String) (uncertain : Bool) (now : Time) :
    RowsKept lib c (ReplyStore.finish c replyId owner uncertain now).1 :=
  updateReply_kept _ fun _ _ howned => Kept.of_same rfl rfl
    (active_open (Bool.and_eq_true_iff.mp howned).1)

theorem recoverReplyOrphans_kept (alive : String → Bool) (now : Time) :
    RowsKept lib c (ReplyStore.recoverOrphans c alive now).1 := by
  refine ⟨Found.refl Kept.refl _, ?_⟩
  show Found _ c.replies
    (c.replies.update (staleReply c alive now) (endedReply true now) fun _ => rfl)
  refine Found.update Kept.refl _ _ fun t hstale => ?_
  exact Kept.of_same rfl rfl (active_open (Bool.and_eq_true_iff.mp hstale).1)

theorem recoveredReplyText_length (capture : CaptureResult) (t : ReplyRow) :
    (visibleReplyText lib t).length ≤ (recoveredReplyText lib capture t).length := by
  unfold recoveredReplyText shorterReplyProbe
  split
  · exact visible_length _ _
  · rename_i hlong
    rw [decide_eq_true_eq] at hlong
    omega

theorem recoverHistoricalReply_kept (replyId : String) (capture : CaptureResult) (now : Time)
    (hstable : ∀ t, c.replies.lookup replyId = some t →
      StableBlocks lib (replyBlocks lib capture t)) :
    RowsKept lib c (recoverHistoricalReply lib c replyId capture now).1 := by
  rcases recoverHistoricalReply_cases lib c replyId capture now with hsame | ⟨t, ht, -, hrun⟩
  · rw [hsame]
    exact rowsKept_refl c
  rw [hrun]
  refine updateReply_kept _ fun a ha hdetached => ?_
  exact ⟨visible_stored_reply (hstable a ha) (recoveredReplyText_length capture a),
    fun hdone => absurd hdone (detached_open hdetached), fun _ => rfl⟩

end Operations

section Run

variable {lib : Stdlib} {s : Store} {call : Call}

/-- One capture keeps every row. -/
theorem step_kept (hsound : Sound s.chats) (hcaptures : captures call.action = true)
    (hrereads : Rereads lib s call) : RowsKept lib s.chats (step lib s call).1.chats := by
  obtain ⟨action, now⟩ := call
  unfold Rereads at hrereads
  cases action with
  | queue q => exact absurd hcaptures Bool.false_ne_true
  | stop sendId => exact absurd hcaptures Bool.false_ne_true
  | result r =>
    cases r with
    | accept sendId owner deadline => exact accept_kept sendId owner deadline now
    | acceptObserved sendId owner capture deadline =>
      exact acceptObserved_kept hsound sendId owner capture deadline now
    | markGenerating sendId owner => exact markGenerating_kept sendId owner now
    | write sendId owner capture allow =>
      exact write_kept sendId owner capture allow now hrereads
    | finish sendId owner status => exact finish_kept sendId owner status now
    | recoverOrphans alive => exact recoverOrphans_kept alive now
    | recoverHistorical sendId capture =>
      exact recoverHistoricalResponse_kept sendId capture now hrereads
    | _ => exact absurd hcaptures Bool.false_ne_true
  | reply r =>
    cases r with
    | observe replyId owner capture => exact observe_kept hsound replyId owner capture now hrereads
    | observeTools replyId owner capture =>
      exact observeTools_kept replyId owner capture now hrereads
    | finish replyId owner uncertain => exact finishReply_kept replyId owner uncertain now
    | recoverOrphans alive => exact recoverReplyOrphans_kept alive now
    | recoverHistorical replyId capture =>
      exact recoverHistoricalReply_kept replyId capture now hrereads
    | _ => exact absurd hcaptures Bool.false_ne_true

theorem sound_empty : Sound Store.empty.chats where
  results _ hr := absurd hr List.not_mem_nil
  replies _ ht := absurd ht List.not_mem_nil

theorem final_sound (history : List Call) (hnow : ∀ call ∈ history, 0 < call.now) :
    Sound (final (step lib) Store.empty history).chats :=
  final_invariant (step lib) (fun call => 0 < call.now) (fun s => Sound s.chats)
    (fun _ _ hcall hs => step_sound hcall hs) Store.empty sound_empty history hnow

/-- A run of captures whose blocks are read back as they are stored keeps every row. -/
theorem run_kept (run : List Call) (hsound : Sound s.chats)
    (hrun : Meets (step lib) (fun s call => 0 < call.now ∧ captures call.action = true ∧
      Rereads lib s call) s run) : RowsKept lib s.chats (final (step lib) s run).chats := by
  induction run generalizing s with
  | nil => exact rowsKept_refl s.chats
  | cons call rest ih =>
    obtain ⟨⟨hnow, hcaptures, hrereads⟩, hrest⟩ := hrun
    exact rowsKept_trans (step_kept hsound hcaptures hrereads) (ih (step_sound hnow hsound) hrest)

/-- A run of captures whose merged blocks are read back as they are stored keeps every row of a
reachable store. -/
theorem captures_monotone (lib : Stdlib) (history run : List Call)
    (hnow : ∀ call ∈ history ++ run, 0 < call.now)
    (hcaptures : ∀ call ∈ run, captures call.action = true)
    (hrereads : Meets (step lib) (Rereads lib) (final (step lib) Store.empty history) run) :
    RowsKept lib (final (step lib) Store.empty history).chats
      (final (step lib) Store.empty (history ++ run)).chats := by
  rw [final_append]
  apply run_kept run (final_sound history fun call hcall =>
    hnow call (List.mem_append_left _ hcall))
  rw [meets_iff_events] at hrereads ⊢
  intro e he
  have hinput := event_input _ _ _ _ he
  exact ⟨hnow _ (List.mem_append_right _ hinput), hcaptures _ hinput, hrereads e he⟩

def visibleLength (lib : Stdlib) (c : Chats) (sendId : String) : Option ℕ :=
  (c.results.lookup sendId).map fun r => (visibleText lib r).length

/-- What is shown of the first answer does not get shorter. -/
theorem visibleLength_mono {c c' : Chats} {sendId : String} {before after : ℕ}
    (h : RowsKept lib c c')
    (hbefore : visibleLength lib c sendId = some before)
    (hafter : visibleLength lib c' sendId = some after) : before ≤ after := by
  obtain ⟨a, ha, rfl⟩ := Option.map_eq_some_iff.mp hbefore
  obtain ⟨b, hb, hkept⟩ := h.1 sendId a ha
  obtain ⟨b', hb', rfl⟩ := Option.map_eq_some_iff.mp hafter
  obtain rfl := Option.some.inj (hb.symm.trans hb')
  exact hkept.visible

end Run

section Examples

def sseCapture (text : Text) (blocks : List Block) : CaptureResult where
  source := .sse
  status := .partialText
  text := text
  conversationId := some "conversation-1"
  messageId := some "message-1"
  displayBlocks := blocks

def written (text : Text) (blocks : List Block) (now : Time) : Call :=
  ⟨.result (.write "manual-1" "owner-1" (sseCapture text blocks) false), now⟩

def acceptedChat : List Call :=
  [⟨.queue (.enqueue ⟨"manual-1", ['h', 'i'], "", [], false, false⟩ true), 10⟩,
    ⟨.result (.accept "manual-1" "owner-1" 1000), 20⟩]

/-- The condition on the blocks as a test, for runs. -/
theorem stable_of_all {lib : Stdlib} {capture : CaptureResult} {found : Option ResultRow}
    (h : (found.all fun r =>
      decide (StableBlocks lib (ResponseStore.mergedBlocks lib capture r))) = true) :
    ∀ r, found = some r → StableBlocks lib (ResponseStore.mergedBlocks lib capture r) := by
  intro r hr
  rw [hr] at h
  exact of_decide_eq_true h

/-- An answer that grows, with a block of its text. -/
theorem captures_monotone_grown :
    RowsKept plainLib (final (step plainLib) Store.empty acceptedChat).chats
      (final (step plainLib) Store.empty (acceptedChat ++
        [written ['h'] [] 30, written ['h', 'o'] [⟨.text, "text-0", ['h', 'o'], none, none⟩]
          40])).chats :=
  captures_monotone plainLib acceptedChat _ (by decide) (by decide)
    ⟨stable_of_all (by decide +kernel), stable_of_all (by decide +kernel), trivial⟩

def sharedOpening : Text := List.replicate 96 'a'

def firstParagraph : Text :=
  sharedOpening ++ "xzzzxzzyzzyyxxxzyzyzzyxzxzyzyxzxyxyxyzzyzyyyxyyyzyxzxzzzxxzzzyxyyz".toList

def secondParagraph : Text :=
  sharedOpening ++ "zxyxzzyzyzyyzzzxxzyyzyxxzzyzyzxxxxyxyxzzzxzyyxyzxyyzyxzzzzxzzxxyyz".toList

def draftParagraph : Text :=
  sharedOpening ++ "xzzzxzzyzzyyxxxzyzyzzyxzxzyzyxzxyxyxyzzyzyyyxyyyzyxzxzzzxxzzzyxzy".toList

/-- What `SequenceMatcher` finds for the three paragraphs. Two of one length are compared in
the order they are given in, and the ratio depends on it. -/
def paragraphRatio (a b : Text) : ℚ :=
  if a = b then 1
  else if a = firstParagraph ∧ b = secondParagraph then 62 / 81
  else if a = secondParagraph ∧ b = firstParagraph then 119 / 162
  else if a = draftParagraph ∧ b = firstParagraph then 320 / 323
  else if a = draftParagraph ∧ b = secondParagraph then 242 / 323
  else 0

def paragraphLib : Stdlib := { plainLib with sequenceRatio := paragraphRatio }

def paragraphBlock (id : String) (text : Text) : Block := { kind := .text, id := id, text := text }

/-- The answer as a stream has it, then an early version of its first paragraph as a block. -/
def draftedAnswer : List Call :=
  acceptedChat ++
    [written (firstParagraph ++ ['\n', '\n'] ++ secondParagraph) [] 30,
      written [] [paragraphBlock "text-0" draftParagraph] 40]

def swappedAnswer : List Call :=
  [written [] [paragraphBlock "text-0" secondParagraph, paragraphBlock "text-1" firstParagraph] 50]

/-- The stored blocks are the two paragraphs in their order, and the stored text is both. Read
back, the second one is a version of the first, and a reader sees only that. -/
theorem swapped_answer_shrinks :
    ¬∀ (lib : Stdlib) (history run : List Call), (∀ call ∈ history ++ run, 0 < call.now) →
      (∀ call ∈ run, captures call.action = true) →
        RowsKept lib (final (step lib) Store.empty history).chats
          (final (step lib) Store.empty (history ++ run)).chats := by
  intro h
  have hkept := h paragraphLib draftedAnswer swappedAnswer (by decide) (by decide)
  have hbefore : visibleLength paragraphLib
      (final (step paragraphLib) Store.empty draftedAnswer).chats
      "manual-1" = some 326 := by
    decide +kernel
  have hafter : visibleLength paragraphLib
      (final (step paragraphLib) Store.empty (draftedAnswer ++ swappedAnswer)).chats "manual-1" =
        some 162 := by
    decide +kernel
  have hmono := visibleLength_mono hkept hbefore hafter
  omega

end Examples

end Prompta.CapturedTexts
