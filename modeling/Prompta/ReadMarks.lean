import Mathlib.Data.List.AList
import Prompta.AttentionMarkers
import Prompta.SortedSelections

/-!
The read marks of the local chats. A run is unread while the revision of its last completed
answer is not the one that was seen last. Marking everything read computes the revisions of all
runs at once, and stores those that differ from what is there.
-/
namespace Prompta.ReadMarks

open Tables Texts DisplayBlocks Schema ResponseStore ReplyStore AttentionMarkers SortedSelections

section Marks

/-- A row of `local_chat_reads`. -/
structure ReadRow where
  sendId : String
  seenRevision : String
  readAt : Time
  deriving DecidableEq

abbrev Reads := Table ReadRow String ReadRow.sendId

structure ReadState where
  chats : Chats
  reads : Reads

abbrev Markers := AList fun _ : String => String

def completedOriginals (c : Chats) : List ResultRow :=
  c.results.rows.filter fun r => decide (r.status = .completed) && decide (r.assistantText ≠ [])

def completedReplies (c : Chats) : List ReplyRow :=
  (c.replies.rows.filter fun t =>
    decide (t.status = .completed) && decide (t.assistantText ≠ [])).insertionSort branchOrder

def markers (lib : Stdlib) (c : Chats) : Markers :=
  (completedReplies c).foldl
    (fun m t => m.insert t.sendId (answerRevision lib "manual" t.replyId t.assistantText))
    ((completedOriginals c).foldl
      (fun m r => m.insert r.sendId (answerRevision lib "initial" r.sendId r.assistantText)) ∅)

def changedMarks (lib : Stdlib) (s : ReadState) : List (Sigma fun _ : String => String) :=
  (markers lib s.chats).entries.filter fun e =>
    decide ((s.reads.lookup e.1).map ReadRow.seenRevision ≠ some e.2)

def seenRow (revision : String) (now : Time) (r : ReadRow) : ReadRow :=
  { r with seenRevision := revision, readAt := now }

def storeRead (now : Time) (reads : Reads) (e : Sigma fun _ : String => String) : Reads :=
  match reads.lookup e.1 with
  | some _ => reads.updateAt e.1 (fun _ => true) (seenRow e.2 now) (fun _ => id rfl)
  | none => reads.insertNew ⟨e.1, e.2, now⟩

def markAllLocalRead (lib : Stdlib) (s : ReadState) (now : Time) : ReadState × ℕ :=
  ({ s with reads := (changedMarks lib s).foldl (storeRead now) s.reads },
    (changedMarks lib s).length)

/-- What `annotate_local_reads` adds to a summary. -/
def lastReadRevision (s : ReadState) (sendId : String) : String :=
  ((s.reads.lookup sendId).map ReadRow.seenRevision).getD ""

/-- A run with an answer that was not seen. -/
def Unread (lib : Stdlib) (s : ReadState) (now : Time) (r : ResultRow) : Prop :=
  (responseMarker lib s.chats now r).lastReplyRevision ≠ "" ∧
    lastReadRevision s r.sendId ≠ (responseMarker lib s.chats now r).lastReplyRevision

def answeredTurns (c : Chats) (sendId : String) : List ReplyRow :=
  (branchRows c sendId).filter fun t =>
    decide (t.status = .completed) && decide (t.assistantText ≠ [])

def HasAnswer (c : Chats) (r : ResultRow) : Prop :=
  answeredTurns c r.sendId ≠ [] ∨ (r.status = .completed ∧ r.assistantText ≠ [])

end Marks

section Folds

variable {α : Type*}

/-- A key holds the value of the last element that sets it. -/
theorem lookup_foldl_insert (key value : α → String) (l : List α) (m : Markers) (k : String) :
    (l.foldl (fun m a => m.insert (key a) (value a)) m).lookup k =
      (((l.filter fun a => decide (key a = k)).getLast?).map value).or (m.lookup k) := by
  induction l using List.reverseRecOn with
  | nil => rfl
  | append_singleton rest a ih =>
    rw [List.foldl_append, List.foldl_cons, List.foldl_nil, List.filter_append]
    by_cases hk : key a = k
    · subst hk
      simp
    · rw [AList.lookup_insert_ne (Ne.symm hk), ih]
      simp [hk]

variable {now : Time} {reads : Reads} {k revision : String}

theorem storeRead_self (now : Time) (reads : Reads) (e : Sigma fun _ : String => String) :
    (storeRead now reads e).lookup e.1 = some ⟨e.1, e.2, now⟩ := by
  unfold storeRead
  cases hfound : reads.lookup e.1 with
  | none =>
    dsimp only
    exact Table.lookup_insertNew_self (r := (⟨e.1, e.2, now⟩ : ReadRow)) hfound
  | some r =>
    have hkey : r.sendId = e.1 := Table.lookup_key hfound
    dsimp only
    rw [Table.lookup_updateAt_self, hfound, Option.map_some, if_pos rfl, seenRow, hkey]

theorem storeRead_ne (now : Time) (reads : Reads) {e : Sigma fun _ : String => String}
    (h : k ≠ e.1) :
    (storeRead now reads e).lookup k = reads.lookup k := by
  unfold storeRead
  split
  · exact Table.lookup_updateAt_ne _ _ _ _ _ _ h
  · exact Table.lookup_insertNew_ne _ _ h

theorem stored_other {l : List (Sigma fun _ : String => String)} (h : ∀ e ∈ l, k ≠ e.1) :
    (l.foldl (storeRead now) reads).lookup k = reads.lookup k := by
  induction l generalizing reads with
  | nil => rfl
  | cons e rest ih =>
    rw [List.foldl_cons, ih fun e' he' => h e' (List.mem_cons_of_mem _ he')]
    exact storeRead_ne now reads (h e List.mem_cons_self)

theorem stored_mem {l : List (Sigma fun _ : String => String)} (hkeys : l.NodupKeys)
    (h : (⟨k, revision⟩ : Sigma fun _ : String => String) ∈ l) :
    (l.foldl (storeRead now) reads).lookup k = some ⟨k, revision, now⟩ := by
  induction l generalizing reads with
  | nil => exact absurd h List.not_mem_nil
  | cons e rest ih =>
    obtain ⟨hfresh, hrest⟩ := List.nodupKeys_cons.mp hkeys
    rw [List.foldl_cons]
    rcases List.mem_cons.mp h with rfl | h
    · rw [stored_other]
      · exact storeRead_self now reads ⟨k, revision⟩
      · intro e' he' hsame
        apply hfresh
        have hk : (⟨k, revision⟩ : Sigma fun _ : String => String).1 = e'.1 := hsame
        rw [hk]
        exact List.mem_keys_of_mem he'
    · exact ih hrest h

end Folds

section Orders

instance : Std.Total branchOrder where
  total a b := by
    unfold branchOrder
    rcases lt_trichotomy a.createdAt b.createdAt with h | h | h
    · exact Or.inl (Or.inl h)
    · rcases String.le_total a.replyId b.replyId with hid | hid
      · exact Or.inl (Or.inr ⟨h, hid⟩)
      · exact Or.inr (Or.inr ⟨h.symm, hid⟩)
    · exact Or.inr (Or.inl h)

instance : IsTrans ReplyRow branchOrder where
  trans a b d hab hbd := by
    unfold branchOrder at hab hbd ⊢
    rcases hab with hab | ⟨hab, hid⟩
    · rcases hbd with hbd | ⟨hbd, -⟩
      · exact Or.inl (lt_trans hab hbd)
      · exact Or.inl (hbd ▸ hab)
    · rcases hbd with hbd | ⟨hbd, hid'⟩
      · exact Or.inl (hab ▸ hbd)
      · exact Or.inr ⟨hab.trans hbd, String.le_trans hid hid'⟩

theorem branchOrder_replyId {a b : ReplyRow} (h : branchOrder a b) (h' : branchOrder b a) :
    a.replyId = b.replyId := by
  unfold branchOrder at h h'
  rcases h with h | ⟨h, hid⟩
  · rcases h' with h' | ⟨h', -⟩
    · exact absurd h' (lt_asymm h)
    · exact absurd h'.symm (ne_of_lt h)
  · rcases h' with h' | ⟨-, hid'⟩
    · exact absurd h.symm (ne_of_lt h')
    · exact String.le_antisymm hid hid'

theorem replies_separate (c : Chats) : Separates branchOrder c.replies.rows :=
  separates_of_nodup (fun _ _ => branchOrder_replyId) c.replies.nodup

/-- The completed replies of a chat stand in the order of its branch. -/
theorem completedReplies_chat (c : Chats) (sendId : String) :
    (completedReplies c).filter (fun t => decide (t.sendId = sendId)) = answeredTurns c sendId := by
  have hall := replies_separate c
  unfold completedReplies answeredTurns branchRows
  rw [← sort_filter (separates_subset hall fun _ ht => (List.mem_filter.mp ht).1) fun _ _ _
    _ => Iff.rfl,
    ← sort_filter (separates_subset hall fun _ ht => (List.mem_filter.mp ht).1) fun _ _ _
      _ => Iff.rfl,
    List.filter_filter, List.filter_filter]
  congr 2
  funext t
  exact Bool.and_comm _ _

end Orders

section Reading

variable (lib : Stdlib) (c : Chats)

/-- Of rows with different keys, one has a given row's key. -/
theorem filter_key_self {rows : List ResultRow} (hkeys : (rows.map ResultRow.sendId).Nodup)
    {r : ResultRow} (hr : r ∈ rows) :
    rows.filter (fun a => decide (a.sendId = r.sendId)) = [r] := by
  induction rows with
  | nil => exact absurd hr List.not_mem_nil
  | cons first rest ih =>
    obtain ⟨hfresh, hrest⟩ := List.nodup_cons.mp hkeys
    rcases List.mem_cons.mp hr with rfl | hr
    · rw [List.filter_cons_of_pos (by simp)]
      congr 1
      apply List.filter_eq_nil_iff.mpr
      intro a ha
      simp only [decide_eq_true_eq]
      intro hsame
      apply hfresh
      rw [← hsame]
      exact List.mem_map_of_mem ha
    · have hne : first.sendId ≠ r.sendId := by
        intro hsame
        apply hfresh
        rw [hsame]
        exact List.mem_map_of_mem hr
      rw [List.filter_cons_of_neg (by simpa using hne)]
      exact ih hrest hr

theorem completedOriginals_run {r : ResultRow} (hr : r ∈ c.results.rows) :
    (completedOriginals c).filter (fun a => decide (a.sendId = r.sendId)) =
      if r.status = .completed ∧ r.assistantText ≠ [] then [r] else [] := by
  unfold completedOriginals
  rw [List.filter_filter]
  have hcomm : c.results.rows.filter (fun a => decide (a.sendId = r.sendId) &&
      (decide (a.status = .completed) && decide (a.assistantText ≠ []))) =
        (c.results.rows.filter fun a => decide (a.sendId = r.sendId)).filter fun a =>
          decide (a.status = .completed) && decide (a.assistantText ≠ []) := by
    rw [List.filter_filter]
    apply List.filter_congr
    intro a _
    exact Bool.and_comm _ _
  rw [hcomm, filter_key_self c.results.nodup hr]
  by_cases hdone : r.status = .completed ∧ r.assistantText ≠ []
  · simp [hdone]
  · rw [if_neg hdone, List.filter_cons_of_neg (by simpa using hdone), List.filter_nil]

variable {c} {r : ResultRow}

theorem answerMarker_turn {t : ReplyRow} (h : (answeredTurns c r.sendId).getLast? = some t) :
    (answerMarker lib c r).1 = answerRevision lib "manual" t.replyId t.assistantText := by
  unfold answeredTurns at h
  unfold answerMarker
  rw [h]

theorem answerMarker_original (h : answeredTurns c r.sendId = []) :
    (answerMarker lib c r).1 = if r.status = .completed ∧ r.assistantText ≠ [] then
      answerRevision lib "initial" r.sendId r.assistantText else "" := by
  unfold answeredTurns at h
  unfold answerMarker
  rw [h]
  dsimp only [List.getLast?_nil]
  split <;> rfl

/-- The bulk computation finds the revision that the annotation shows. -/
theorem markers_answered (hr : r ∈ c.results.rows) (hanswer : HasAnswer c r) :
    (markers lib c).lookup r.sendId = some (answerMarker lib c r).1 := by
  unfold markers
  rw [lookup_foldl_insert ReplyRow.sendId, lookup_foldl_insert ResultRow.sendId,
    completedReplies_chat, completedOriginals_run c hr]
  cases hlast : (answeredTurns c r.sendId).getLast? with
  | some t =>
    rw [answerMarker_turn lib hlast]
    rfl
  | none =>
    have hnone : answeredTurns c r.sendId = [] := List.getLast?_eq_none_iff.mp hlast
    have hdone : r.status = .completed ∧ r.assistantText ≠ [] := by
      rcases hanswer with hturns | hdone
      · exact absurd hnone hturns
      · exact hdone
    rw [answerMarker_original lib hnone, if_pos hdone, if_pos hdone]
    rfl

theorem markers_unanswered (hr : r ∈ c.results.rows) (hanswer : ¬HasAnswer c r) :
    (markers lib c).lookup r.sendId = none ∧ (answerMarker lib c r).1 = "" := by
  obtain ⟨hturns, hdone⟩ := not_or.mp hanswer
  have hnone : answeredTurns c r.sendId = [] := not_not.mp hturns
  constructor
  · unfold markers
    rw [lookup_foldl_insert ReplyRow.sendId, lookup_foldl_insert ResultRow.sendId,
      completedReplies_chat, completedOriginals_run c hr, hnone, if_neg hdone]
    rfl
  · rw [answerMarker_original lib hnone, if_neg hdone]

end Reading

section Completeness

variable (lib : Stdlib) {s : ReadState} {k revision : String} (now : Time)

theorem mem_changedMarks : (⟨k, revision⟩ : Sigma fun _ : String => String) ∈ changedMarks lib s ↔
    (markers lib s.chats).lookup k = some revision ∧
      (s.reads.lookup k).map ReadRow.seenRevision ≠ some revision := by
  unfold changedMarks
  rw [List.mem_filter, ← AList.mem_lookup_iff, decide_eq_true_eq]
  rfl

theorem changed_keys : (changedMarks lib s).NodupKeys :=
  (markers lib s.chats).nodupKeys.sublist List.filter_sublist

/-- A chat whose revision differs from the one seen gets a new row. -/
theorem read_changed (h : (markers lib s.chats).lookup k = some revision)
    (hdiffers : (s.reads.lookup k).map ReadRow.seenRevision ≠ some revision) :
    (markAllLocalRead lib s now).1.reads.lookup k = some ⟨k, revision, now⟩ :=
  stored_mem (changed_keys lib) ((mem_changedMarks lib).mpr ⟨h, hdiffers⟩)

/-- All other rows stay. -/
theorem read_unchanged (h : ∀ revision, (markers lib s.chats).lookup k = some revision →
      (s.reads.lookup k).map ReadRow.seenRevision = some revision) :
    (markAllLocalRead lib s now).1.reads.lookup k = s.reads.lookup k := by
  apply stored_other
  intro e he hsame
  obtain ⟨hmarker, hdiffers⟩ := (mem_changedMarks lib).mp he
  rw [← hsame] at hmarker hdiffers
  exact hdiffers (h _ hmarker)

theorem read_stored (h : (markers lib s.chats).lookup k = some revision) :
    ((markAllLocalRead lib s now).1.reads.lookup k).map ReadRow.seenRevision = some revision := by
  by_cases hsame : (s.reads.lookup k).map ReadRow.seenRevision = some revision
  · rw [read_unchanged]
    · exact hsame
    · intro revision' h'
      rw [h] at h'
      obtain rfl := Option.some.inj h'
      exact hsame
  · rw [read_changed lib now h hsame]
    rfl

/-- Nothing is left to store. -/
theorem changed_after : changedMarks lib (markAllLocalRead lib s now).1 = [] := by
  apply List.eq_nil_iff_forall_not_mem.mpr
  intro e he
  obtain ⟨hmarker, hdiffers⟩ := (mem_changedMarks lib).mp he
  exact hdiffers (read_stored lib now hmarker)

theorem marker_revision (r : ResultRow) :
    (responseMarker lib s.chats now r).lastReplyRevision = (answerMarker lib s.chats r).1 := by
  unfold responseMarker
  dsimp only
  split <;> rfl

/-- What marking everything read does to a database. -/
structure ReadAll (lib : Stdlib) (s s' : ReadState) : Prop where
  chats : s'.chats = s.chats
  stored : ∀ r ∈ s.chats.results.rows, ∀ now,
    (responseMarker lib s.chats now r).lastReplyRevision ≠ "" →
      (s'.reads.lookup r.sendId).map ReadRow.seenRevision =
        some (responseMarker lib s.chats now r).lastReplyRevision
  none_unread : ∀ r ∈ s.chats.results.rows, ∀ now, ¬Unread lib s' now r
  up_to_date : ∀ r ∈ s.chats.results.rows, ∀ now,
    (s.reads.lookup r.sendId).map ReadRow.seenRevision =
    some (responseMarker lib s.chats now r).lastReplyRevision →
      s'.reads.lookup r.sendId = s.reads.lookup r.sendId
  unanswered : ∀ r ∈ s.chats.results.rows, ¬HasAnswer s.chats r →
    s'.reads.lookup r.sendId = s.reads.lookup r.sendId
  again : ∀ now, markAllLocalRead lib s' now = (s', 0)

/-- In every database, marking everything read leaves no run unread, and changes no more. -/
theorem mark_all_read (s : ReadState) : ReadAll lib s (markAllLocalRead lib s now).1 := by
  have hstored : ∀ r ∈ s.chats.results.rows, ∀ now',
      (responseMarker lib s.chats now' r).lastReplyRevision ≠ "" →
        ((markAllLocalRead lib s now).1.reads.lookup r.sendId).map ReadRow.seenRevision =
          some (responseMarker lib s.chats now' r).lastReplyRevision := by
    intro r hr now' hrevision
    rw [marker_revision] at hrevision ⊢
    apply read_stored
    by_cases hanswer : HasAnswer s.chats r
    · exact markers_answered lib hr hanswer
    · exact absurd (markers_unanswered lib hr hanswer).2 hrevision
  refine ⟨rfl, hstored, ?_, ?_, ?_, ?_⟩
  · intro r hr now' hunread
    obtain ⟨hrevision, hdiffers⟩ := hunread
    apply hdiffers
    unfold lastReadRevision
    rw [hstored r hr now' hrevision]
    rfl
  · intro r hr now' hseen
    apply read_unchanged
    intro revision hmarker
    rw [hseen, marker_revision]
    by_cases hanswer : HasAnswer s.chats r
    · rw [← hmarker]
      exact (markers_answered lib hr hanswer).symm
    · rw [(markers_unanswered lib hr hanswer).1] at hmarker
      cases hmarker
  · intro r hr hanswer
    apply read_unchanged
    intro revision hmarker
    rw [(markers_unanswered lib hr hanswer).1] at hmarker
    cases hmarker
  · intro now'
    unfold markAllLocalRead
    have hnone := @changed_after lib s now
    unfold markAllLocalRead at hnone
    rw [hnone]
    rfl

end Completeness

end Prompta.ReadMarks
