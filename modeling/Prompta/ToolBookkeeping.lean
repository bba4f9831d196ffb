import Mathlib.Data.List.Nodup
import Prompta.Runs
import Prompta.Service
import Prompta.ToolEvents

/-!
The books of a collector of tool calls. Every message changes at most one recorded call, and the
pending list holds the calls that run. A result that is seen again goes to the call it went to,
as long as its identifier has been written down; the collector writes down 128 of them.
-/
namespace Prompta.ToolBookkeeping

open Texts DisplayBlocks ToolCalls JsonValues ToolEvents Runs

section Dictionary

variable {calls : List ToolCall} {entry : ToolCall} {id : Text}

def callIds (calls : List ToolCall) : List Text := calls.map ToolCall.id

theorem findCall_id {call : ToolCall} (h : findCall calls id = some call) : call.id = id := by
  have := List.find?_some h
  exact of_decide_eq_true this

theorem findCall_isSome : (findCall calls id).isSome = true ↔ id ∈ callIds calls := by
  unfold findCall callIds
  rw [List.find?_isSome, List.mem_map]
  simp

/-- The entry is found under its identifier, and every other call as before. -/
theorem findCall_put :
    findCall (putCall calls entry) id = if id = entry.id then some entry
      else findCall calls id := by
  unfold putCall
  split
  · next hfound =>
    rw [findCall_isSome] at hfound
    induction calls with
    | nil => cases hfound
    | cons call rest ih =>
      by_cases hcall : call.id = entry.id
      · by_cases hid : id = entry.id
        · simp [findCall, hcall, hid]
        · rw [if_neg hid]
          have hhead : ¬entry.id = id := fun h => hid h.symm
          have hother : ¬call.id = id := fun h => hid (h.symm.trans hcall)
          have hrest : findCall
              (rest.map fun call => if call.id = entry.id then entry else call) id =
              findCall rest id := by
            by_cases hmem : entry.id ∈ callIds rest
            · rw [ih hmem, if_neg hid]
            · congr 1
              conv_rhs => rw [← List.map_id rest]
              apply List.map_congr_left
              intro old hold
              rw [if_neg]
              · rfl
              · intro h
                exact hmem (h ▸ List.mem_map_of_mem hold)
          simpa [findCall, hcall, hhead, hother] using hrest
      · have hrest : entry.id ∈ callIds rest := by
          rcases List.mem_cons.mp hfound with hhead | hrest
          · exact absurd hhead.symm hcall
          · exact hrest
        by_cases hid : call.id = id
        · have hne : ¬id = entry.id := fun h => hcall (hid.trans h)
          simp [findCall, hid, hne]
        · simpa [findCall, hcall, hid] using ih hrest
  · next hnew =>
    rw [findCall_isSome] at hnew
    by_cases hid : id = entry.id
    · have hnone : findCall calls id = none := by
        rw [← Option.not_isSome_iff_eq_none, findCall_isSome, hid]
        exact hnew
      unfold findCall at hnone
      rw [findCall, List.find?_append, hnone, if_pos hid]
      simp [hid]
    · have hother : ¬entry.id = id := fun h => hid h.symm
      rw [findCall, List.find?_append, if_neg hid]
      simp [findCall, hother]

theorem callIds_put : callIds (putCall calls entry) =
    if entry.id ∈ callIds calls then callIds calls else callIds calls ++ [entry.id] := by
  unfold putCall
  by_cases hfound : entry.id ∈ callIds calls
  · rw [if_pos (findCall_isSome.mpr hfound), if_pos hfound]
    unfold callIds
    rw [List.map_map]
    apply List.map_congr_left
    intro call _
    by_cases hcall : call.id = entry.id
    · simp [hcall]
    · simp [hcall]
  · rw [if_neg (fun h => hfound (findCall_isSome.mp h)), if_neg hfound]
    simp [callIds]

theorem lookup_assign_ne {α : Type*} {entries : List (Text × α)} {name other : Text} {value : α}
    (hne : other ≠ name) : lookup (assign entries name value) other = lookup entries other := by
  have hname : ¬name = other := fun h => hne h.symm
  unfold assign
  split
  · unfold lookup
    rw [List.find?_map, Option.map_map]
    have hsame : (fun entry : Text × α => decide (entry.1 = other)) ∘
        (fun entry => if entry.1 = name then (name, value) else entry) =
        fun entry => decide (entry.1 = other) := by
      funext entry
      by_cases hentry : entry.1 = name
      · simp [hentry]
      · simp [hentry]
    rw [hsame]
    cases hfound : entries.find? fun entry => decide (entry.1 = other) with
    | none => rfl
    | some entry =>
      have hfits := List.find?_some hfound
      have hentry : entry.1 = other := of_decide_eq_true hfits
      have hother : ¬entry.1 = name := fun h => hne (hentry.symm.trans h)
      simp [hother]
  · unfold lookup
    rw [List.find?_append]
    simp [hname]

end Dictionary

section Steps

variable {lib : Stdlib} {codec : Codec} {s s' : ToolEventCollector}

def running : Text := "running".toList

/-- A message that records one call. -/
structure Recorded (s s' : ToolEventCollector) (entry : ToolCall) : Prop where
  calls_eq : s'.calls = putCall s.calls entry
  room : entry.id ∈ callIds s.calls ∨ s.calls.length < maxTools
  pending_eq : s'.pending =
    if entry.status = running then
      if entry.id ∈ s.pending then s.pending else s.pending ++ [entry.id]
    else s.pending.erase entry.id

/-- The books of the collector. -/
structure Kept (s : ToolEventCollector) : Prop where
  ids : (callIds s.calls).Nodup
  room : s.calls.length ≤ maxTools
  nodup : s.pending.Nodup
  pending_iff : ∀ id, id ∈ s.pending ↔ (findCall s.calls id).map ToolCall.status = some running

theorem kept_empty : Kept {} where
  ids := List.nodup_nil
  room := Nat.zero_le _
  nodup := List.nodup_nil
  pending_iff id := by simp [findCall]

theorem Recorded.kept {entry : ToolCall} (h : Recorded s s' entry) (hs : Kept s) : Kept s' := by
  have hfind (id : Text) : findCall s'.calls id =
      if id = entry.id then some entry else findCall s.calls id := by
    rw [h.calls_eq, findCall_put]
  refine ⟨?_, ?_, ?_, ?_⟩
  · rw [h.calls_eq, callIds_put]
    split
    · exact hs.ids
    · next hnew =>
      rw [List.nodup_append]
      refine ⟨hs.ids, List.nodup_singleton _, ?_⟩
      intro a ha b hb hab
      exact hnew (List.mem_singleton.mp hb ▸ hab ▸ ha)
  · have hlength : s'.calls.length = (callIds (putCall s.calls entry)).length := by
      rw [h.calls_eq, callIds, List.length_map]
    have hbefore : (callIds s.calls).length = s.calls.length := List.length_map _
    have hroom := hs.room
    rw [hlength, callIds_put]
    split
    · omega
    · next hnew =>
      have hfree := h.room.resolve_left hnew
      rw [List.length_append, List.length_singleton]
      omega
  · rw [h.pending_eq]
    split
    · split
      · exact hs.nodup
      · next hnew =>
        rw [List.nodup_append]
        refine ⟨hs.nodup, List.nodup_singleton _, ?_⟩
        intro a ha b hb hab
        exact hnew (List.mem_singleton.mp hb ▸ hab ▸ ha)
    · exact hs.nodup.erase _
  · intro id
    rw [h.pending_eq, hfind]
    by_cases hid : id = entry.id
    · rw [if_pos hid, Option.map_some, Option.some.injEq, hid]
      by_cases hrun : entry.status = running
      · rw [if_pos hrun]
        refine ⟨fun _ => hrun, fun _ => ?_⟩
        split
        · assumption
        · exact List.mem_append_right _ (List.mem_singleton_self _)
      · rw [if_neg hrun]
        refine ⟨fun hmem => ?_, fun h => absurd h hrun⟩
        exact absurd rfl ((hs.nodup.mem_erase_iff).mp hmem).1
    · rw [if_neg hid, ← hs.pending_iff id]
      split
      · split
        · exact Iff.rfl
        · rw [List.mem_append, List.mem_singleton]
          exact ⟨fun h => h.resolve_right hid, Or.inl⟩
      · exact List.mem_erase_of_ne hid

theorem isRunStatus_ite {c : Prop} [Decidable c] {a b : Text} (ha : isRunStatus a = true)
    (hb : isRunStatus b = true) : isRunStatus (if c then a else b) = true := by
  split
  · exact ha
  · exact hb

theorem isRunStatus_finished {t : Text} (h : isFinished t = true) : isRunStatus t = true := by
  rcases of_decide_eq_true h with rfl | rfl
  · decide
  · decide

def writtenStatus (i : Invocation) : Text :=
  let written := orText (i.parsed.get "status").text running
  let known := if isRunStatus written then written else running
  if !(i.parsed.get "result").isNull && decide (known = running) then "completed".toList else known

theorem invocationStatus_some (i : Invocation) (call : ToolCall) :
    invocationStatus i (some call) =
      if isFinished call.status && decide (writtenStatus i = running) then call.status
      else writtenStatus i :=
  rfl

theorem writtenStatus_known (i : Invocation) : isRunStatus (writtenStatus i) = true := by
  unfold writtenStatus
  dsimp only
  apply isRunStatus_ite
  · decide
  · split
    · assumption
    · decide

theorem writtenStatus_observed {i : Invocation} (h : writtenStatus i = "observed".toList) :
    (i.parsed.get "status").text = "observed".toList := by
  have hpick {c : Prop} [Decidable c] {a b : Text} (ha : a ≠ "observed".toList)
      (hab : (if c then a else b) = "observed".toList) : b = "observed".toList := by
    split at hab
    · exact absurd hab ha
    · exact hab
  unfold writtenStatus at h
  have hknown := hpick (by decide) h
  split at hknown
  · exact hpick (by decide) hknown
  · exact absurd hknown (by decide)

theorem invocationStatus_known (i : Invocation) (existing : Option ToolCall) :
    isRunStatus (invocationStatus i existing) = true := by
  cases existing with
  | none => exact writtenStatus_known i
  | some call =>
    rw [invocationStatus_some]
    split
    · next hcond =>
      rw [Bool.and_eq_true] at hcond
      exact isRunStatus_finished hcond.1
    · exact writtenStatus_known i

theorem take_status {t : Text} (h : isRunStatus t = true) : t.take 30 = t := by
  have hmem := of_decide_eq_true h
  simp only [List.map_cons, List.map_nil, List.mem_cons, List.not_mem_nil, or_false] at hmem
  rcases hmem with rfl | rfl | rfl | rfl
  · decide
  · decide
  · decide
  · decide

/-- The call that an invocation is recorded under. -/
def identifierOf (s : ToolEventCollector) (message : Fields) : Text :=
  orText (message.get "id").text ("tool-".toList ++ (toString s.calls.length).toList)

/-- What is recorded of an invocation. -/
def recordedCall (lib : Stdlib) (codec : Codec) (now : Stamp) (s : ToolEventCollector)
    (message : Fields) (i : Invocation) : ToolCall :=
  let existing := findCall s.calls (identifierOf s message)
  let shown : ToolCall :=
    { observedAt := (existing.map ToolCall.observedAt).getD (some now)
      id := identifierOf s message
      connector := (invocationConnector lib message i).take 100
      action := i.action.take 120
      status := (invocationStatus i existing).take 30
      arguments := display codec 6000 (invocationArguments i)
      result := display codec 6000 (i.parsed.get "result")
      error := display codec 2000 (i.parsed.get "error") }
  match existing with
  | some call =>
    { shown with arguments := orText shown.arguments call.arguments
                 result := orText shown.result call.result
                 error := orText shown.error call.error }
  | none => shown

theorem recordedCall_id (now : Stamp) (message : Fields) (i : Invocation) :
    (recordedCall lib codec now s message i).id = identifierOf s message := by
  unfold recordedCall
  dsimp only
  split
  · rfl
  · rfl

theorem recordedCall_status (now : Stamp) (message : Fields) (i : Invocation) :
    (recordedCall lib codec now s message i).status =
      invocationStatus i (findCall s.calls (identifierOf s message)) := by
  rw [← take_status (invocationStatus_known i (findCall s.calls (identifierOf s message)))]
  unfold recordedCall
  dsimp only
  split
  · rfl
  · rfl

/-- An invocation is recorded unless the collector is full. -/
theorem observeCall_recorded (now : Stamp) (message : Fields) (i : Invocation) :
    observeCall lib codec now s message i = s ∨
      Recorded s (observeCall lib codec now s message i)
        (recordedCall lib codec now s message i) := by
  by_cases hroom : findCall s.calls (identifierOf s message) = none ∧ maxTools ≤ s.calls.length
  · exact Or.inl (if_pos hroom)
  · right
    have hfree : identifierOf s message ∈ callIds s.calls ∨ s.calls.length < maxTools := by
      rw [← findCall_isSome]
      by_cases hnone : findCall s.calls (identifierOf s message) = none
      · exact Or.inr (Nat.lt_of_not_le fun hfull => hroom ⟨hnone, hfull⟩)
      · exact Or.inl (Option.isSome_iff_ne_none.mpr hnone)
    have hafter : observeCall lib codec now s message i =
        { s with
          calls := putCall s.calls (recordedCall lib codec now s message i)
          recipients := assign s.recipients (identifierOf s message) i.recipient
          resources :=
            if resourceKey (i.parsed.get "path") = [] then s.resources
            else assign s.resources (identifierOf s message) (resourceKey (i.parsed.get "path"))
          pending :=
            if invocationStatus i (findCall s.calls (identifierOf s message)) = running then
              if identifierOf s message ∈ s.pending then s.pending
              else s.pending ++ [identifierOf s message]
            else s.pending.erase (identifierOf s message) } := if_neg hroom
    rw [hafter]
    refine ⟨rfl, ?_, ?_⟩
    · rw [recordedCall_id]
      exact hfree
    · rw [recordedCall_id, recordedCall_status]

theorem observeCall_results (now : Stamp) (message : Fields) (i : Invocation) :
    (observeCall lib codec now s message i).results = s.results := by
  unfold observeCall
  dsimp only
  split
  · rfl
  · rfl

/-- What is recorded of a result. -/
def finishedCall (lib : Stdlib) (codec : Codec) (s : ToolEventCollector) (message : Fields)
    (entry : ToolCall) : ToolCall :=
  { entry with
    connector := resultConnector lib message (resultAction s message) entry
    result := display codec 6000 (firstPart (message.get "content").record)
    status :=
      if ((message.get "metadata").record.get "is_error").isTrue then "error".toList
      else "completed".toList }

theorem finishedCall_status (message : Fields) (entry : ToolCall) :
    isFinished (finishedCall lib codec s message entry).status = true := by
  unfold finishedCall
  dsimp only
  split
  · decide
  · decide

/-- The results that are written down belong to recorded calls. -/
structure Books (s : ToolEventCollector) : Prop extends Kept s where
  known : ∀ id key, lookup s.results id = some key → key ∈ callIds s.calls

theorem Kept.pending_found (hs : Kept s) {key : Text} (h : key ∈ s.pending) :
    key ∈ callIds s.calls := by
  have hrun := (hs.pending_iff key).mp h
  cases hfound : findCall s.calls key with
  | none =>
    rw [hfound] at hrun
    cases hrun
  | some call =>
    rw [← findCall_isSome, hfound]
    rfl

/-- A result goes to a recorded call. -/
theorem Books.resultCall_found (hs : Books s) {message : Fields} {key : Text}
    (h : resultCall s message = some key) : key ∈ callIds s.calls := by
  unfold resultCall at h
  dsimp only at h
  split at h
  · next known hknown =>
    cases h
    split at hknown
    · cases hknown
    · exact hs.known _ _ hknown
  · split at h
    · next htargeted =>
      cases h
      exact findCall_isSome.mp htargeted
    · split at h
      · next found hsame =>
        cases h
        have hmem : key ∈ [key] := List.mem_singleton_self key
        rw [← hsame] at hmem
        exact hs.pending_found (List.mem_of_mem_filter hmem)
      · split at h
        · next found hmatching =>
          split at h
          · cases h
            have hmem : key ∈ [key] := List.mem_singleton_self key
            rw [← hmatching] at hmem
            exact hs.pending_found (List.mem_of_mem_filter hmem)
          · cases h
        · cases h

/-- A result that is written down goes where it went. -/
theorem resultCall_known {message : Fields} {key : Text} (hid : (message.get "id").text ≠ [])
    (h : lookup s.results (message.get "id").text = some key) :
    resultCall s message = some key := by
  unfold resultCall
  dsimp only
  rw [if_neg hid, h]

/-- A result is recorded with the call that it goes to. -/
theorem Books.observeResult_eq (hs : Books s) {message : Fields} {key : Text}
    (h : resultCall s message = some key) :
    ∃ entry, findCall s.calls key = some entry ∧ observeResult lib codec s message =
      { s with
        results :=
          if (message.get "id").text ≠ [] ∧ s.results.length < maxTools then
            assign s.results (message.get "id").text key
          else s.results
        calls := putCall s.calls (finishedCall lib codec s message entry)
        pending := s.pending.erase key } := by
  obtain ⟨entry, hentry⟩ :=
    Option.isSome_iff_exists.mp (findCall_isSome.mpr (hs.resultCall_found h))
  refine ⟨entry, hentry, ?_⟩
  unfold observeResult
  rw [h]
  dsimp only
  rw [hentry]
  rfl

theorem not_running_of_finished {t : Text} (h : isFinished t = true) : t ≠ running := by
  rcases of_decide_eq_true h with rfl | rfl
  · decide
  · decide

/-- A result is recorded under a call that is known, or nothing is. -/
theorem Books.observeResult_recorded (hs : Books s) (message : Fields) :
    observeResult lib codec s message = s ∨
      ∃ key entry, resultCall s message = some key ∧ findCall s.calls key = some entry ∧
        Recorded s (observeResult lib codec s message)
          (finishedCall lib codec s message entry) := by
  cases hkey : resultCall s message with
  | none =>
    left
    unfold observeResult
    rw [hkey]
  | some key =>
    right
    obtain ⟨entry, hentry, hafter⟩ := @Books.observeResult_eq lib codec s hs message key hkey
    refine ⟨key, entry, rfl, hentry, ?_⟩
    have hid : (finishedCall lib codec s message entry).id = key := by
      show entry.id = key
      exact findCall_id hentry
    rw [hafter]
    refine ⟨rfl, Or.inl ?_, ?_⟩
    · rw [hid]
      exact hs.resultCall_found hkey
    · rw [if_neg (not_running_of_finished (finishedCall_status message entry)), hid]

theorem Recorded.ids_mono {entry : ToolCall} (h : Recorded s s' entry) {id : Text}
    (hid : id ∈ callIds s.calls) : id ∈ callIds s'.calls := by
  rw [h.calls_eq, callIds_put]
  split
  · exact hid
  · exact List.mem_append_left _ hid

/-- The results that are written down after a result. -/
theorem lookup_results {results : List (Text × Text)} {id other key found : Text}
    {c : Prop} [Decidable c]
    (h : lookup (if c then assign results id key else results) other = some found) :
    lookup results other = some found ∨ (c ∧ other = id ∧ found = key) := by
  by_cases hc : c
  · rw [if_pos hc] at h
    by_cases hother : other = id
    · rw [hother, lookup_assign_self] at h
      cases h
      exact Or.inr ⟨hc, hother, rfl⟩
    · rw [lookup_assign_ne hother] at h
      exact Or.inl h
  · rw [if_neg hc] at h
    exact Or.inl h

theorem Books.observeResult (hs : Books s) (message : Fields) :
    Books (observeResult lib codec s message) := by
  rcases @Books.observeResult_recorded lib codec s hs message with hsame | ⟨key, entry, hkey,
      hentry, hrec⟩
  · rw [hsame]
    exact hs
  · refine ⟨hrec.kept hs.toKept, ?_⟩
    intro id found hfound
    apply hrec.ids_mono
    obtain ⟨entry', -, hafter⟩ := @Books.observeResult_eq lib codec s hs message key hkey
    rw [hafter] at hfound
    rcases lookup_results hfound with hbefore | ⟨-, -, hnew⟩
    · exact hs.known id found hbefore
    · rw [hnew]
      exact hs.resultCall_found hkey

theorem Books.observeCall (hs : Books s) (now : Stamp) (message : Fields) (i : Invocation) :
    Books (observeCall lib codec now s message i) := by
  rcases @observeCall_recorded lib codec s now message i with hsame | hrec
  · rw [hsame]
    exact hs
  · refine ⟨hrec.kept hs.toKept, ?_⟩
    intro id found hfound
    rw [observeCall_results] at hfound
    exact hrec.ids_mono (hs.known id found hfound)

end Steps

section Runs

variable (lib : Stdlib) (codec : Codec)

/-- One message, at the time it is observed. -/
def collect (s : ToolEventCollector) (seen : Stamp × Fields) : ToolEventCollector × Bool :=
  observe lib codec seen.1 s seen.2

/-- The message is a result that is looked at. -/
def isResult (message : Fields) : Bool :=
  !((message.get "metadata").record.get "is_visually_hidden_from_conversation").isTrue &&
    decide (((message.get "author").record.get "role").text = "tool".toList)

/-- The call that the message is a result of. -/
def attributed (s : ToolEventCollector) (message : Fields) : Option Text :=
  if isResult message then resultCall s message else none

variable {lib codec} {s : ToolEventCollector}

theorem collect_result (now : Stamp) {message : Fields} (h : isResult message = true) :
    (collect lib codec s (now, message)).1 = observeResult lib codec s message := by
  unfold isResult at h
  rw [Bool.and_eq_true, Bool.not_eq_true', decide_eq_true_iff] at h
  unfold collect observe
  dsimp only
  rw [h.1, if_neg Bool.false_ne_true, if_pos h.2]

/-- A message that is no result is ignored or recorded as an invocation. -/
theorem collect_other (now : Stamp) {message : Fields} (h : isResult message = false) :
    (collect lib codec s (now, message)).1 = s ∨
      (collect lib codec s (now, message)).1 =
        observeCall lib codec now s message (readInvocation codec message) := by
  unfold isResult at h
  unfold collect observe
  dsimp only
  split
  · exact Or.inl rfl
  · next hvisible =>
    rw [Bool.not_eq_true] at hvisible
    rw [hvisible, Bool.not_false, Bool.true_and, decide_eq_false_iff_not] at h
    rw [if_neg h]
    split
    · exact Or.inl rfl
    · split
      · exact Or.inl rfl
      · exact Or.inr rfl

theorem Books.collect (hs : Books s) (seen : Stamp × Fields) :
    Books (ToolBookkeeping.collect lib codec s seen).1 := by
  obtain ⟨now, message⟩ := seen
  cases hresult : isResult message with
  | true =>
    rw [collect_result now hresult]
    exact hs.observeResult message
  | false =>
    rcases @collect_other lib codec s now message hresult with hsame | hcall
    · rw [hsame]
      exact hs
    · rw [hcall]
      exact hs.observeCall now message _

theorem books_run (run : List (Stamp × Fields)) : Books (final (collect lib codec) {} run) := by
  have hstart : Books {} := by
    refine ⟨kept_empty, ?_⟩
    intro id key h
    cases h
  exact final_invariant (collect lib codec) (fun _ => True) Books
    (fun s seen _ hs => hs.collect seen) {} hstart run (fun _ _ => trivial)

/-- A result that is written down stays with its call. -/
theorem Books.collect_known (hs : Books s) {id key : Text} (hid : id ≠ [])
    (hknown : lookup s.results id = some key) (seen : Stamp × Fields) :
    lookup (ToolBookkeeping.collect lib codec s seen).1.results id = some key := by
  obtain ⟨now, message⟩ := seen
  cases hresult : isResult message with
  | true =>
    rw [collect_result now hresult]
    cases hkey : resultCall s message with
    | none =>
      unfold ToolEvents.observeResult
      rw [hkey]
      exact hknown
    | some found =>
      obtain ⟨entry, -, hafter⟩ := @Books.observeResult_eq lib codec s hs message found hkey
      rw [hafter]
      dsimp only
      split
      · by_cases hsame : id = (message.get "id").text
        · have hfound := resultCall_known (hsame ▸ hid) (hsame ▸ hknown)
          rw [hkey] at hfound
          rw [hsame, lookup_assign_self]
          exact hfound
        · rw [lookup_assign_ne hsame]
          exact hknown
      · exact hknown
  | false =>
    rcases @collect_other lib codec s now message hresult with hsame | hcall
    · rw [hsame]
      exact hknown
    · rw [hcall, observeCall_results]
      exact hknown

theorem known_run {id key : Text} (hid : id ≠ []) (run : List (Stamp × Fields)) (hs : Books s)
    (hknown : lookup s.results id = some key) :
    lookup (final (collect lib codec) s run).results id = some key := by
  induction run generalizing s with
  | nil => exact hknown
  | cons seen rest ih => exact ih (hs.collect seen) (hs.collect_known hid hknown seen)

/-- A result that goes to a call while there is room is written down for it. -/
theorem Books.attributed_known (hs : Books s) {now : Stamp} {message : Fields} {key : Text}
    (hid : (message.get "id").text ≠ []) (hkey : attributed s message = some key)
    (hroom : s.results.length < maxTools ∨
      (lookup s.results (message.get "id").text).isSome = true) :
    lookup (ToolBookkeeping.collect lib codec s (now, message)).1.results
      (message.get "id").text = some key := by
  unfold attributed at hkey
  split at hkey
  · next hresult =>
    rcases hroom with hroom | hknown
    · rw [collect_result now hresult]
      obtain ⟨entry, -, hafter⟩ := @Books.observeResult_eq lib codec s hs message key hkey
      rw [hafter]
      dsimp only
      rw [if_pos ⟨hid, hroom⟩, lookup_assign_self]
    · obtain ⟨found, hfound⟩ := Option.isSome_iff_exists.mp hknown
      have hsame := resultCall_known hid hfound
      rw [hkey] at hsame
      cases hsame
      exact hs.collect_known hid hfound (now, message)
  · cases hkey

/-- Only the call of a result is changed by it. -/
theorem Books.result_touches (hs : Books s) {now : Stamp} {message : Fields} {id : Text}
    (hresult : isResult message = true) (hother : attributed s message ≠ some id) :
    findCall (ToolBookkeeping.collect lib codec s (now, message)).1.calls id =
      findCall s.calls id := by
  unfold attributed at hother
  rw [if_pos hresult] at hother
  rw [collect_result now hresult]
  rcases @Books.observeResult_recorded lib codec s hs message with hsame | ⟨key, entry, hkey,
      hentry, hrec⟩
  · rw [hsame]
  · rw [hrec.calls_eq, findCall_put, if_neg]
    intro hid
    have hkeys : (finishedCall lib codec s message entry).id = key := by
      show entry.id = key
      exact findCall_id hentry
    exact hother (hkey.trans (congrArg some (hid.trans hkeys).symm))

theorem pending_running (hs : Books s) (id : Text) :
    id ∈ s.pending ↔ ∃ call ∈ s.calls, call.id = id ∧ call.status = running := by
  rw [hs.pending_iff]
  constructor
  · intro h
    cases hfound : findCall s.calls id with
    | none =>
      rw [hfound] at h
      cases h
    | some call =>
      rw [hfound] at h
      exact ⟨call, List.mem_of_find?_eq_some hfound, findCall_id hfound, Option.some.inj h⟩
  · rintro ⟨call, hcall, hid, hstatus⟩
    have hmem : id ∈ callIds s.calls := hid ▸ List.mem_map_of_mem hcall
    obtain ⟨found, hfound⟩ := Option.isSome_iff_exists.mp (findCall_isSome.mpr hmem)
    have hsame : found = call := List.inj_on_of_nodup_map hs.ids
      (List.mem_of_find?_eq_some hfound) hcall ((findCall_id hfound).trans hid.symm)
    rw [hfound, hsame, Option.map_some, hstatus]

variable (lib codec)

/-- The books of the collector over every run. The pending list holds the running calls, each
once; there are at most 128 calls; a result changes at most the one call it is attributed to; and
a result goes to the same call again if its identifier was written down, or could be, when it
went there. -/
theorem tool_bookkeeping (run : List (Stamp × Fields)) :
    (final (collect lib codec) {} run).pending.Nodup ∧
    (∀ id, id ∈ (final (collect lib codec) {} run).pending ↔
      ∃ call ∈ (final (collect lib codec) {} run).calls, call.id = id ∧ call.status = running) ∧
    (final (collect lib codec) {} run).calls.length ≤ maxTools ∧
    (∀ now message id, isResult message = true →
      attributed (final (collect lib codec) {} run) message ≠ some id →
      findCall (final (collect lib codec) {} (run ++ [(now, message)])).calls id =
        findCall (final (collect lib codec) {} run).calls id) ∧
    (∀ now message key between again,
      (message.get "id").text ≠ [] → again.get "id" = message.get "id" → isResult again = true →
      attributed (final (collect lib codec) {} run) message = some key →
      ((final (collect lib codec) {} run).results.length < maxTools ∨
        (lookup (final (collect lib codec) {} run).results (message.get "id").text).isSome = true) →
      attributed (final (collect lib codec) {} (run ++ (now, message) :: between)) again =
        some key) := by
  have hs := @books_run lib codec run
  refine ⟨hs.nodup, pending_running hs, hs.room, ?_, ?_⟩
  · intro now message id hresult hother
    rw [final_append]
    exact hs.result_touches hresult hother
  · intro now message key between again hid hagain hresult hkey hroom
    rw [final_append]
    have hknown := @Books.attributed_known lib codec _ hs now message key hid hkey hroom
    have hlater := @known_run lib codec _ _ _ hid between (hs.collect (now, message)) hknown
    unfold attributed
    rw [if_pos hresult]
    rw [← hagain] at hlater hid
    exact resultCall_known hid hlater

end Runs

section Example

def field (name : String) (value : Json) : Text × Json := (name.toList, value)

def invocation (id : String) : Stamp × Fields :=
  (⟨1, ['1']⟩,
    [field "id" (.str id.toList), field "author" (.obj [field "role" (.str "assistant".toList)]),
      field "recipient" (.str "python".toList),
      field "content" (.obj [field "content_type" (.str "code".toList),
        field "text" (.str ['x'])])])

def resultOf (id : Text) (target : String) : Stamp × Fields :=
  (⟨1, ['1']⟩,
    [field "id" (.str id),
      field "author" (.obj [field "role" (.str "tool".toList),
        field "name" (.str "python".toList)]),
      field "metadata" (.obj [field "tool_call_id" (.str target.toList)])])

/-- One call with 128 results, then a second call with its result, a third call, and the result
of the second one again. -/
def manyResults : List (Stamp × Fields) :=
  invocation "first" :: (List.range 128).map fun n => resultOf (List.replicate (n + 1) 'r') "first"

/-- A result that was not written down goes to another call when it is seen again. -/
theorem late_result_moves :
    attributed (final (collect Service.plainLib proseCodec) {}
      (manyResults ++ [invocation "second"]))
        (resultOf ['s'] "").2 = some "second".toList ∧
      attributed (final (collect Service.plainLib proseCodec) {}
        (manyResults ++ [invocation "second", resultOf ['s'] "", invocation "third"]))
        (resultOf ['s'] "").2 = some "third".toList := by
  decide +kernel

end Example

end Prompta.ToolBookkeeping
