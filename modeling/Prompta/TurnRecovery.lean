import Mathlib.Algebra.Order.Ring.Rat
import Mathlib.Data.List.Nodup
import Mathlib.Data.Rat.Defs

/-!
Recovery of the visible turns of a chat. A second read of the turns may be older than the
one on the screen, or fail: the turns on the screen are merged with the stored ones by
their identifiers, and the first turn with the saved original.
-/
namespace Prompta.TurnRecovery

/-- The code units of a string of the browser. -/
abbrev Units := List UInt16

/-- An array of the browser. Two arrays are the same when they are one object. -/
structure Held (α : Type) where
  object : ℕ
  items : List α

inductive TurnStatus
  | queued
  | accepted
  | generating
  | stopped
  | completed
  | submitted
  | interrupted
  | unavailable
  | outcomeUnknown
  | cancelled
  | merged
  | prepared
  | preflightFailed
  | dispatching
  deriving DecidableEq, Repr

structure LocalTurn (τ β : Type) where
  replyId : String
  conversationId : Option String := none
  parentId : Option String := none
  messageId : Option String := none
  userText : Units
  assistantText : Units
  toolCalls : Option (Held τ) := none
  displayBlocks : Option (Held β) := none
  status : TurnStatus
  queuedByUser : Option Bool := none
  createdAt : ℚ
  acceptedAt : Option ℚ := none
  finishedAt : Option ℚ := none
  updatedAt : ℚ

variable {τ β : Type}

/-- A string that is there and not empty. -/
def given (value : Option String) : Bool := value.any fun v => decide (v ≠ "")

def heldLength {α : Type} (value : Option (Held α)) : ℕ :=
  (value.map fun v => v.items.length).getD 0

def sameObject {α : Type} (a b : Option (Held α)) : Bool :=
  decide (a.map Held.object = b.map Held.object)

/-- The later snapshot, with what only the earlier one knows. -/
def mergeConfirmedTurn (previous incoming : LocalTurn τ β) : LocalTurn τ β :=
  if given previous.messageId ∧ given incoming.messageId ∧
    previous.messageId ≠ incoming.messageId then
    previous
  else
    let newer := decide (previous.updatedAt ≤ incoming.updatedAt)
    let latest := if newer then incoming else previous
    let older := if newer then previous else incoming
    { latest with
      conversationId :=
        if given older.conversationId && !given latest.conversationId then older.conversationId
        else latest.conversationId
      parentId :=
        if given older.parentId && !given latest.parentId then older.parentId else latest.parentId
      messageId :=
        if given older.messageId && !given latest.messageId then older.messageId
          else latest.messageId
      assistantText :=
        if older.assistantText.length ≤ latest.assistantText.length then latest.assistantText
        else older.assistantText
      toolCalls :=
        if heldLength latest.toolCalls < heldLength older.toolCalls then older.toolCalls
        else latest.toolCalls
      displayBlocks :=
        if heldLength latest.displayBlocks < heldLength older.displayBlocks then older.displayBlocks
        else latest.displayBlocks
      status :=
        if latest.status = .completed ∨ older.status ≠ .completed then latest.status
          else .completed }

/-- The stored turn of an identifier: the last one, as in a map that is filled in order. -/
def storedTurn (stored : List (LocalTurn τ β)) (replyId : String) : Option (LocalTurn τ β) :=
  stored.reverse.find? fun t => decide (t.replyId = replyId)

def mergeConfirmedTurns (stored previous : List (LocalTurn τ β)) : List (LocalTurn τ β) :=
  previous.map (fun turn =>
    ((storedTurn stored turn.replyId).map (mergeConfirmedTurn turn)).getD turn) ++
    stored.filter fun turn => decide (turn.replyId ∉ previous.map LocalTurn.replyId)

/-- Merged follow-ups are receipts, not turns of their own. -/
def visibleTurns (turns : List (LocalTurn τ β)) : List (LocalTurn τ β) :=
  turns.filter fun turn => decide (turn.status ≠ .merged)

def confirmedTurns (stored : Option (List (LocalTurn τ β))) (previous : List (LocalTurn τ β))
    (original : LocalTurn τ β) (sameRun : Bool) : List (LocalTurn τ β) :=
  match stored with
  | some (first :: rest) =>
    if sameRun ∧ previous ≠ [] then mergeConfirmedTurns (first :: rest) previous else first :: rest
  | some [] => if sameRun ∧ previous ≠ [] ∧ 1 < previous.length then previous else [original]
  | none => if sameRun ∧ previous ≠ [] then previous else [original]

/-- Nothing that is shown of the first turn is different. -/
def sameView (current first : LocalTurn τ β) : Bool :=
  decide (current.updatedAt = first.updatedAt) && decide (current.status = first.status) &&
    decide (current.assistantText = first.assistantText) &&
    sameObject current.toolCalls first.toolCalls &&
    sameObject current.displayBlocks first.displayBlocks &&
    decide (current.userText = first.userText) && decide (current.messageId = first.messageId) &&
    decide (current.conversationId = first.conversationId)

/-- The saved original, which may be newer than the turns, in place of the first turn. -/
def refreshOriginal (confirmed : List (LocalTurn τ β)) (original : LocalTurn τ β) :
    List (LocalTurn τ β) :=
  match confirmed with
  | [] => []
  | first :: rest =>
    if first.replyId ≠ "" ∨ (first.status = .completed ∧ original.status ≠ .completed)
      then first :: rest
    else
      let current := mergeConfirmedTurn first original
      if sameView current first then first :: rest else current :: rest

def recoverVisibleTurns (stored : Option (List (LocalTurn τ β))) (previous : List (LocalTurn τ β))
    (original : LocalTurn τ β) (sameRun : Bool) : List (LocalTurn τ β) :=
  refreshOriginal (confirmedTurns (stored.map visibleTurns)
    (visibleTurns previous) original sameRun)
    original

/-- A turn that shows at least what another one with its identifier showed. -/
structure Retains (before after : LocalTurn τ β) : Prop where
  replyId : after.replyId = before.replyId
  text : before.assistantText.length ≤ after.assistantText.length
  completed : before.status = .completed → after.status = .completed

theorem retains_refl (turn : LocalTurn τ β) : Retains turn turn :=
  ⟨rfl, le_refl _, id⟩

theorem merge_retains {previous incoming : LocalTurn τ β}
    (h : incoming.replyId = previous.replyId) :
    Retains previous (mergeConfirmedTurn previous incoming) := by
  unfold mergeConfirmedTurn
  split
  · exact retains_refl previous
  · by_cases hnewer : previous.updatedAt ≤ incoming.updatedAt
    · refine ⟨?_, ?_, ?_⟩
      · simpa [hnewer] using h
      · simp only [hnewer, decide_true, if_true]
        split <;> omega
      · intro hcompleted
        simp only [hnewer, decide_true, if_true, hcompleted]
        split
        · next hlatest => exact hlatest.resolve_right (by simp)
        · rfl
    · refine ⟨?_, ?_, ?_⟩
      · simp [hnewer]
      · simp only [hnewer, decide_false, Bool.false_eq_true, if_false]
        split <;> omega
      · intro hcompleted
        simp [hnewer, hcompleted]

theorem storedTurn_replyId {stored : List (LocalTurn τ β)} {replyId : String} {turn : LocalTurn τ β}
    (h : storedTurn stored replyId = some turn) : turn.replyId = replyId :=
  of_decide_eq_true (List.find?_some (p := fun t : LocalTurn τ β => decide (t.replyId = replyId)) h)

/-- Every turn on the screen is merged into one that retains it, and the others are new. -/
theorem merged_forall₂ (stored previous : List (LocalTurn τ β)) :
    ∃ merged, mergeConfirmedTurns stored previous =
        merged ++ stored.filter
          (fun turn => decide (turn.replyId ∉ previous.map LocalTurn.replyId)) ∧
      List.Forall₂ Retains previous merged := by
  refine ⟨_, rfl, ?_⟩
  rw [List.forall₂_map_right_iff, List.forall₂_same]
  intro turn _
  cases hfound : storedTurn stored turn.replyId with
  | none => exact retains_refl turn
  | some incoming => exact merge_retains (storedTurn_replyId hfound)

theorem Retains.trans {a b c : LocalTurn τ β} (h : Retains a b) (h' : Retains b c) : Retains a c :=
  ⟨h'.replyId.trans h.replyId, h.text.trans h'.text, fun ha => h'.completed (h.completed ha)⟩

theorem retained_ids {before after : List (LocalTurn τ β)} (h : List.Forall₂ Retains before after) :
    after.map LocalTurn.replyId = before.map LocalTurn.replyId := by
  induction h with
  | nil => rfl
  | cons hturn _ ih => rw [List.map_cons, List.map_cons, hturn.replyId, ih]

theorem retained_mem {before after : List (LocalTurn τ β)} (h : List.Forall₂ Retains before after)
    {turn : LocalTurn τ β} (hturn : turn ∈ before) : ∃ kept ∈ after, Retains turn kept := by
  induction h with
  | nil => cases hturn
  | cons hfirst _ ih =>
    rcases List.mem_cons.mp hturn with rfl | hturn
    · exact ⟨_, List.mem_cons_self, hfirst⟩
    · obtain ⟨kept, hkept, hretains⟩ := ih hturn
      exact ⟨kept, List.mem_cons_of_mem _ hkept, hretains⟩

theorem visible_ids_nodup {turns : List (LocalTurn τ β)} (h : (turns.map LocalTurn.replyId).Nodup) :
    ((visibleTurns turns).map LocalTurn.replyId).Nodup :=
  h.sublist (List.filter_sublist.map LocalTurn.replyId)

section Merge

variable {stored previous : List (LocalTurn τ β)}

theorem merged_ids_nodup (hstored : (stored.map LocalTurn.replyId).Nodup)
    (hprevious : (previous.map LocalTurn.replyId).Nodup) :
    ((mergeConfirmedTurns stored previous).map LocalTurn.replyId).Nodup := by
  obtain ⟨merged, heq, hretained⟩ := merged_forall₂ stored previous
  rw [heq, List.map_append, retained_ids hretained, List.nodup_append]
  refine ⟨hprevious, hstored.sublist (List.filter_sublist.map LocalTurn.replyId), ?_⟩
  intro a ha b hb hab
  obtain ⟨turn, hturn, rfl⟩ := List.mem_map.mp hb
  exact of_decide_eq_true (List.mem_filter.mp hturn).2 (hab ▸ ha)

theorem merged_ids_stored {turn : LocalTurn τ β} (h : turn ∈ stored) :
    turn.replyId ∈ (mergeConfirmedTurns stored previous).map LocalTurn.replyId := by
  obtain ⟨merged, heq, hretained⟩ := merged_forall₂ stored previous
  rw [heq, List.map_append, retained_ids hretained, List.mem_append]
  by_cases hknown : turn.replyId ∈ previous.map LocalTurn.replyId
  · exact Or.inl hknown
  · exact Or.inr (List.mem_map_of_mem (List.mem_filter.mpr ⟨h, decide_eq_true hknown⟩))

end Merge

/-- The confirmed turns retain those on the screen, and have every stored one. -/
structure Confirms (stored previous confirmed : List (LocalTurn τ β)) : Prop where
  nodup : (confirmed.map LocalTurn.replyId).Nodup
  previous : ∀ turn ∈ previous, ∃ kept ∈ confirmed, Retains turn kept
  stored : ∀ turn ∈ stored, turn.replyId ∈ confirmed.map LocalTurn.replyId

/-- The confirmed turns keep those of both snapshots. -/
theorem confirmed_keeps {stored : Option (List (LocalTurn τ β))} {previous : List (LocalTurn τ β)}
    (original : LocalTurn τ β)
    (hstored : ∀ turns, stored = some turns → (turns.map LocalTurn.replyId).Nodup)
    (hprevious : (previous.map LocalTurn.replyId).Nodup)
    (hcase : stored ≠ some [] ∨ 1 < previous.length) :
    Confirms (stored.getD []) previous (confirmedTurns stored previous original true) := by
  have hsame : Confirms [] previous previous :=
    ⟨hprevious, fun turn hturn => ⟨turn, hturn, retains_refl turn⟩, fun turn hturn =>
      (by cases hturn)⟩
  match stored with
  | none =>
    by_cases hempty : previous = []
    · subst hempty
      exact ⟨List.nodup_singleton _, fun turn hturn => (by cases hturn), fun turn hturn =>
        (by cases hturn)⟩
    · simpa [confirmedTurns, hempty] using hsame
  | some [] =>
    have hlong : 1 < previous.length := hcase.resolve_left (by simp)
    have hnonempty : previous ≠ [] := by
      intro hempty
      simp [hempty] at hlong
    simpa [confirmedTurns, hnonempty, hlong] using hsame
  | some (first :: rest) =>
    have hnodup := hstored _ rfl
    by_cases hempty : previous = []
    · subst hempty
      refine ⟨by simpa [confirmedTurns] using hnodup, fun turn hturn => (by cases hturn), ?_⟩
      intro turn hturn
      simpa [confirmedTurns] using List.mem_map_of_mem (f := LocalTurn.replyId) hturn
    · have hmerge : confirmedTurns (some (first :: rest)) previous original true =
          mergeConfirmedTurns (first :: rest) previous := by
        simp [confirmedTurns, hempty]
      rw [hmerge]
      refine ⟨merged_ids_nodup hnodup hprevious, ?_, fun turn hturn => merged_ids_stored hturn⟩
      intro turn hturn
      obtain ⟨merged, heq, hretained⟩ := merged_forall₂ (first :: rest) previous
      obtain ⟨kept, hkept, hretains⟩ := retained_mem hretained hturn
      exact ⟨kept, by rw [heq]; exact List.mem_append_left _ hkept, hretains⟩

theorem refreshed_retains (confirmed : List (LocalTurn τ β)) {original : LocalTurn τ β}
    (horiginal : original.replyId = "") :
    List.Forall₂ Retains confirmed (refreshOriginal confirmed original) := by
  have hsame : ∀ turns : List (LocalTurn τ β), List.Forall₂ Retains turns turns := fun turns =>
    List.forall₂_same.mpr fun turn _ => retains_refl turn
  cases confirmed with
  | nil => exact List.Forall₂.nil
  | cons first rest =>
    simp only [refreshOriginal]
    split_ifs with hfirst hview
    · exact hsame _
    · exact hsame _
    · rw [not_or, not_not] at hfirst
      exact List.Forall₂.cons (merge_retains (horiginal.trans hfirst.1.symm)) (hsame rest)

/-- Every turn of either list that is not a receipt is there once, and no turn on the screen
loses text or its completion. -/
theorem visible_turns_kept (stored : Option (List (LocalTurn τ β)))
    (previous : List (LocalTurn τ β))
    (original : LocalTurn τ β)
    (hstored : ∀ turns, stored = some turns → (turns.map LocalTurn.replyId).Nodup)
    (hprevious : (previous.map LocalTurn.replyId).Nodup) (horiginal : original.replyId = "")
    (hcase : stored.map visibleTurns ≠ some [] ∨ 1 < (visibleTurns previous).length) :
    (∀ turn ∈ stored.getD [] ++ previous, turn.status ≠ .merged →
      ((recoverVisibleTurns stored previous original true).map LocalTurn.replyId).count
      turn.replyId = 1) ∧
    ∀ turn ∈ previous, turn.status ≠ .merged →
      ∀ shown ∈ recoverVisibleTurns stored previous original true, shown.replyId = turn.replyId →
        turn.assistantText.length ≤ shown.assistantText.length ∧
          (turn.status = .completed → shown.status = .completed) := by
  have hconfirms := @confirmed_keeps τ β (stored.map visibleTurns)
      (visibleTurns previous) original (by
      intro turns hturns
      obtain ⟨all, hall, rfl⟩ := Option.map_eq_some_iff.mp hturns
      exact visible_ids_nodup (hstored all hall)) (visible_ids_nodup hprevious) hcase
  have hrefreshed := refreshed_retains
    (confirmedTurns (stored.map visibleTurns) (visibleTurns previous) original true) horiginal
  have hids := retained_ids hrefreshed
  have hnodup : ((recoverVisibleTurns stored previous original true).map
      LocalTurn.replyId).Nodup := by
    rw [recoverVisibleTurns, hids]
    exact hconfirms.nodup
  refine ⟨?_, ?_⟩
  · intro turn hturn hstatus
    apply List.count_eq_one_of_mem hnodup
    rw [recoverVisibleTurns, hids]
    rcases List.mem_append.mp hturn with hturn | hturn
    · apply hconfirms.stored turn
      cases stored with
      | none => cases hturn
      | some turns => exact List.mem_filter.mpr ⟨hturn, decide_eq_true hstatus⟩
    · obtain ⟨kept, hkept, hretains⟩ :=
        hconfirms.previous turn (List.mem_filter.mpr ⟨hturn, decide_eq_true hstatus⟩)
      rw [← hretains.replyId]
      exact List.mem_map_of_mem hkept
  · intro turn hturn hstatus shown hshown hid
    obtain ⟨kept, hkept, hretains⟩ :=
      hconfirms.previous turn (List.mem_filter.mpr ⟨hturn, decide_eq_true hstatus⟩)
    obtain ⟨final, hfinal, hretains'⟩ := retained_mem hrefreshed hkept
    have htrans := hretains.trans hretains'
    have hsame : shown = final :=
      List.inj_on_of_nodup_map hnodup hshown hfinal (hid.trans htrans.replyId.symm)
    rw [hsame]
    exact ⟨htrans.text, htrans.completed⟩

def firstTurn (answer : Units) (status : TurnStatus) (updatedAt : ℚ) : LocalTurn Unit Unit where
  replyId := ""
  userText := [104, 105]
  assistantText := answer
  status := status
  createdAt := 1
  updatedAt := updatedAt

/-- An older read of the turns, and an older original, leave a completed answer on the screen. -/
theorem stale_read_keeps_answer :
    ∃ shown ∈ recoverVisibleTurns (some [firstTurn [] .queued 1])
      [firstTurn [111, 107] .completed 2]
      (firstTurn [] .generating 1) true,
      shown.replyId = "" ∧ 2 ≤ shown.assistantText.length ∧ shown.status = .completed := by
  obtain ⟨hcount, hkept⟩ := visible_turns_kept (some [firstTurn [] .queued 1])
    [firstTurn [111, 107] .completed 2] (firstTurn [] .generating 1) (by simp) (by simp) rfl
    (Or.inl (by simp [visibleTurns, firstTurn]))
  have hone := hcount (firstTurn [111, 107] .completed 2) (by simp) (by simp [firstTurn])
  obtain ⟨shown, hshown, hid⟩ :=
    List.mem_map.mp (List.count_pos_iff.mp (by rw [hone]; exact Nat.one_pos))
  obtain ⟨htext, hstatus⟩ := hkept (firstTurn [111, 107] .completed 2) List.mem_cons_self
    (by simp [firstTurn]) shown hshown hid
  exact ⟨shown, hshown, hid, htext, hstatus rfl⟩

end Prompta.TurnRecovery
