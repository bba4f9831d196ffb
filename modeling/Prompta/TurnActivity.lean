import Mathlib.Data.List.Sort
import Prompta.DomMarkdown
import Prompta.Paragraphs

/-!
The activity of a turn: its text blocks, with the tool calls between them. Calls are placed by
their times or by the blocks that name them, and those that are left come in one group. An answer
that the blocks do not show is added, whole or without the paragraphs that are shown already. The
value of `Number` of a text, where it is finite, is the script engine's.
-/
namespace Prompta.TurnActivity

open Texts ConnectorApproval DomMarkdown Paragraphs

section Activities

structure CapturedToolCall where
  observedAt : Option ℚ := none
  id : Text
  connector : Text := []
  action : Text := []
  status : Text := []
  arguments : Text := []
  result : Text := []
  error : Text := []
  deriving DecidableEq

structure TextBlock where
  id : Text
  text : Text
  seenAt : Option Text := none
  deriving DecidableEq

inductive DisplayBlock
  | text (block : TextBlock)
  | tool (id : Text) (toolId : Option Text := none)
  deriving DecidableEq

structure LocalTurn where
  assistantText : Text
  toolCalls : Option (List CapturedToolCall) := none
  displayBlocks : Option (List DisplayBlock) := none

inductive Activity
  | text (id text : Text)
  | tools (id : Text) (calls : List CapturedToolCall)
  deriving DecidableEq

def textBlock : DisplayBlock → Option TextBlock
  | .text block => some block
  | .tool _ _ => none

def textItem : Activity → Option (Text × Text)
  | .text id text => some (id, text)
  | .tools _ _ => none

def callsOf : Activity → List CapturedToolCall
  | .text _ _ => []
  | .tools _ calls => calls

/-- A call joins the group at the end, or opens one. -/
def addCall (id : Text) (activity : List Activity) (call : CapturedToolCall) : List Activity :=
  match activity.getLast? with
  | some (.tools group calls) => activity.dropLast ++ [.tools group (calls ++ [call])]
  | _ => activity ++ [.tools id [call]]

/-- What the loops build: the activity, and the identifiers of the calls that are placed. -/
structure Placing where
  activity : List Activity := []
  claimed : List Text := []

def Placing.putCall (p : Placing) (id : Text) (call : CapturedToolCall) : Placing :=
  ⟨addCall id p.activity call, p.claimed ++ [call.id]⟩

def Placing.putText (p : Placing) (block : TextBlock) : Placing :=
  { p with activity := p.activity ++ [.text block.id block.text] }

variable (number : Text → Option ℚ)

/-- The order of the sort by time and then by index. -/
def Chronological (a b : CapturedToolCall × ℕ) : Prop :=
  let difference := a.1.observedAt.getD 0 - b.1.observedAt.getD 0
  if difference ≠ 0 then difference ≤ 0 else a.2 ≤ b.2

instance : DecidableRel Chronological := fun a b => by
  unfold Chronological
  infer_instance

def isTimedDom (captureSource : String) (calls : List CapturedToolCall) (blocks : List TextBlock) :
    Bool :=
  decide (captureSource = "dom") && decide (0 < blocks.length) &&
    (blocks.all fun block =>
      "text-".toList.isPrefixOf block.id &&
        block.seenAt.any fun t => decide (t ≠ []) && (number t).isSome) &&
    (calls.any fun call => !"dom-tool-".toList.isPrefixOf call.id) &&
    calls.all fun call => call.observedAt.any fun t => decide (0 < t)

def placeTimed (p : Placing) (call : CapturedToolCall) : Placing :=
  p.putCall ("tools-".toList ++ call.id) call

def isBefore (block : TextBlock) (call : CapturedToolCall) : Bool :=
  (block.seenAt.bind number).any fun t => decide (call.observedAt.getD 0 < t)

def timedFrom (p : Placing) (chronological : List CapturedToolCall) : List TextBlock → Placing
  | [] => chronological.foldl placeTimed p
  | block :: rest =>
    let due := (chronological.takeWhile (isBefore number block)).foldl placeTimed p
    timedFrom (due.putText block) (chronological.dropWhile (isBefore number block)) rest

def timed (calls : List CapturedToolCall) (blocks : List TextBlock) : Placing :=
  timedFrom number {} ((calls.zipIdx.insertionSort Chronological).map Prod.fst) blocks

/-- `calls[index]`, where the index is a number. -/
def callAt (calls : List CapturedToolCall) (index : Option ℚ) : Option CapturedToolCall :=
  index.bind fun q => if q.den = 1 ∧ 0 ≤ q.num then calls[q.num.toNat]? else none

def namedCall (calls : List CapturedToolCall) (id : Text) (toolId : Option Text) :
    Option CapturedToolCall :=
  let isDom := "dom-tool-".toList.isPrefixOf id
  let index := number (if isDom then id.drop "dom-tool-".length else id)
  (calls.find? fun candidate => decide (candidate.id = toolId.getD id)).or
    (if isDom then callAt calls index else none)

def placeBlock (calls : List CapturedToolCall) (p : Placing) : DisplayBlock → Placing
  | .text block => p.putText block
  | .tool id toolId =>
    match namedCall number calls id toolId with
    | none => p
    | some call => if call.id ∈ p.claimed then p else p.putCall id call

def findLastIndex (items : List Activity) : Option ℕ :=
  (items.reverse.findIdx? fun item => (textItem item).isSome).map fun k => items.length - 1 - k

/-- The calls that are not placed come in front of the last text, unless that is the first item. -/
def insertRemaining (activity : List Activity) (remaining : List CapturedToolCall) :
    List Activity :=
  if remaining = [] then activity
  else
    let insertAt :=
      match findLastIndex activity with
      | some (k + 1) => k + 1
      | _ => activity.length
    activity.take insertAt ++ [.tools "unplaced-tools".toList remaining] ++ activity.drop insertAt

def parts (value : Text) : List Text :=
  ((split '\n' isWhitespace value).map trim).filter fun part => decide (part ≠ [])

def sharedPrefix : List Text → List Text → ℕ
  | a :: left, b :: right => if a = b then sharedPrefix left right + 1 else 0
  | _, _ => 0

/-- The most paragraphs at the end of what is shown with which the answer starts. -/
def continuationOf (shown incoming : List Text) : ℕ :=
  let most := min shown.length incoming.length
  (((List.range most).map fun index => most - index).find? fun count =>
    decide (sharedPrefix (shown.drop (shown.length - count)) incoming = count)).getD 0

def joinParts (parts : List Text) : Text := List.intercalate "\n\n".toList parts

/-- The answer shares paragraphs with what is shown. -/
def addParts (activity : List Activity) (shown incoming : List Text) (answer : Text) :
    List Activity :=
  let opening := sharedPrefix shown incoming
  let continuation := continuationOf shown incoming
  let ending := sharedPrefix shown.reverse incoming.reverse
  if 0 < opening ∧ opening < incoming.length then
    activity ++ [.text "answer-tail".toList (joinParts (incoming.drop opening))]
  else if 0 < continuation ∧ continuation < incoming.length then
    activity ++ [.text "answer-tail".toList (joinParts (incoming.drop continuation))]
  else if 0 < ending ∧ ending < incoming.length then
    .text "answer-head".toList (joinParts (incoming.take (incoming.length - ending))) :: activity
  else activity ++ [.text "answer-fallback".toList answer]

def addAnswer (activity : List Activity) (rendered answer : Text) : List Activity :=
  if answer ≠ [] ∧ ¬answer <:+: rendered then
    if rendered <+: answer then
      let tail := trim (answer.drop rendered.length)
      if tail ≠ [] then activity ++ [.text "answer-tail".toList tail] else activity
    else if rendered ≠ [] ∧ rendered <:+ answer then
      let head := trim (answer.take (answer.length - rendered.length))
      if head ≠ [] then .text "answer-head".toList head :: activity else activity
    else addParts activity (parts rendered) (parts answer) answer
  else activity

def joinedText (blocks : List TextBlock) : Text := trim (joinParts (blocks.map TextBlock.text))

def LocalTurn.calls (turn : LocalTurn) : List CapturedToolCall := turn.toolCalls.getD []

def LocalTurn.textBlocks (turn : LocalTurn) : List TextBlock :=
  (turn.displayBlocks.getD []).filterMap textBlock

def placed (turn : LocalTurn) (captureSource : String) : Placing :=
  if isTimedDom number captureSource turn.calls turn.textBlocks then
    timed number turn.calls turn.textBlocks
  else (turn.displayBlocks.getD []).foldl (placeBlock number turn.calls) {}

def orderedActivity (turn : LocalTurn) (captureSource : String) : List Activity :=
  if turn.textBlocks = [] then
    (if turn.calls ≠ [] then [.tools "tools".toList turn.calls] else []) ++
      (if turn.assistantText ≠ [] then [.text "answer".toList turn.assistantText] else [])
  else
    let p := placed number turn captureSource
    let remaining := turn.calls.filter fun call => decide (call.id ∉ p.claimed)
    addAnswer (insertRemaining p.activity remaining) (joinedText turn.textBlocks)
      (trim turn.assistantText)

end Activities

section Coverage

/-- Behind a paragraph break, or at an end of the joined text of the blocks. -/
def CutAllowed (joined left right : Text) : Prop :=
  AfterBreak '\n' isWhitespace left ∨ left = joined ∨ right = joined

/-- The trimmed answer falls into pieces, each of which is to be seen, white space apart. -/
def Covered (joined answer : Text) (shown : List Text) : Prop :=
  ∃ pieces : List Text, pieces.flatten = trim answer ∧ CutAt (CutAllowed joined) pieces ∧
    ∀ piece ∈ pieces, ∃ host ∈ joined :: shown, trim piece <:+: host

/-- Each call is shown once, and the text blocks in their order with one more text at most. -/
structure ShownOnce (calls : List CapturedToolCall) (blocks : List TextBlock)
    (activity : List Activity) : Prop where
  calls_perm : (activity.flatMap callsOf).Perm calls
  texts_eq : ∃ front back, (front ++ back).length ≤ 1 ∧
    activity.filterMap textItem = front ++ blocks.map (fun b => (b.id, b.text)) ++ back

end Coverage

section Placings

variable {calls : List CapturedToolCall} {shown : List (Text × Text)} {p : Placing}

theorem addCall_calls (id : Text) (activity : List Activity) (call : CapturedToolCall) :
    (addCall id activity call).flatMap callsOf = activity.flatMap callsOf ++ [call] := by
  unfold addCall
  split
  · rename_i group members hlast
    obtain ⟨init, rfl⟩ := List.getLast?_eq_some_iff.mp hlast
    simp [callsOf]
  · simp [callsOf]

theorem addCall_texts (id : Text) (activity : List Activity) (call : CapturedToolCall) :
    (addCall id activity call).filterMap textItem = activity.filterMap textItem := by
  unfold addCall
  split
  · rename_i group members hlast
    obtain ⟨init, rfl⟩ := List.getLast?_eq_some_iff.mp hlast
    rw [List.dropLast_concat, List.filterMap_append, List.filterMap_append]
    rfl
  · simp [textItem]

/-- Each call that is claimed stands in the activity once, with the texts shown so far. -/
structure Placed (calls : List CapturedToolCall) (shown : List (Text × Text)) (p : Placing) :
    Prop where
  claimed_eq : p.claimed = (p.activity.flatMap callsOf).map CapturedToolCall.id
  nodup : p.claimed.Nodup
  subset : ∀ call ∈ p.activity.flatMap callsOf, call ∈ calls
  texts_eq : p.activity.filterMap textItem = shown

theorem Placed.putText (h : Placed calls shown p) (block : TextBlock) :
    Placed calls (shown ++ [(block.id, block.text)]) (p.putText block) := by
  have hcalls : (p.putText block).activity.flatMap callsOf = p.activity.flatMap callsOf := by
    simp [Placing.putText, callsOf]
  refine ⟨?_, h.nodup, ?_, ?_⟩
  · rw [hcalls]
    exact h.claimed_eq
  · rw [hcalls]
    exact h.subset
  · rw [← h.texts_eq]
    simp [Placing.putText, textItem]

theorem Placed.putCall (h : Placed calls shown p) (id : Text) {call : CapturedToolCall}
    (hcall : call ∈ calls) (hnew : call.id ∉ p.claimed) :
    Placed calls shown (p.putCall id call) := by
  have hcalls : (p.putCall id call).activity.flatMap callsOf =
      p.activity.flatMap callsOf ++ [call] :=
    addCall_calls id p.activity call
  refine ⟨?_, ?_, ?_, ?_⟩
  · rw [hcalls, List.map_append, ← h.claimed_eq]
    rfl
  · have hclaimed := h.nodup.concat hnew
    rwa [List.concat_eq_append] at hclaimed
  · rw [hcalls]
    intro c hc
    rcases List.mem_append.mp hc with hc | hc
    · exact h.subset c hc
    · rw [List.mem_singleton.mp hc]
      exact hcall
  · exact (addCall_texts id p.activity call).trans h.texts_eq

variable {number : Text → Option ℚ}

theorem callAt_mem {index : Option ℚ} {call : CapturedToolCall}
    (h : callAt calls index = some call) :
    call ∈ calls := by
  unfold callAt at h
  obtain ⟨q, -, h⟩ := Option.bind_eq_some_iff.mp h
  split at h
  · exact List.mem_of_getElem? h
  · cases h

theorem namedCall_mem {id : Text} {toolId : Option Text} {call : CapturedToolCall}
    (h : namedCall number calls id toolId = some call) : call ∈ calls := by
  unfold namedCall at h
  dsimp only at h
  rcases Option.or_eq_some_iff.mp h with h | ⟨-, h⟩
  · exact List.mem_of_find?_eq_some h
  · by_cases hdom : "dom-tool-".toList.isPrefixOf id = true
    · rw [if_pos hdom] at h
      exact callAt_mem h
    · rw [if_neg hdom] at h
      cases h

/-- One block: a text is shown where it comes, a tool block brings its call. -/
theorem Placed.placeBlock (number : Text → Option ℚ) (h : Placed calls shown p)
    (block : DisplayBlock) :
    Placed calls (shown ++ ((textBlock block).map fun b => (b.id, b.text)).toList)
      (placeBlock number calls p block) := by
  cases block with
  | text block => exact h.putText block
  | tool id toolId =>
    have hshown : shown ++ ((textBlock (.tool id toolId)).map fun b => (b.id, b.text)).toList =
        shown := List.append_nil shown
    rw [hshown]
    unfold TurnActivity.placeBlock
    dsimp only
    split
    · exact h
    · rename_i call hnamed
      split
      · exact h
      · rename_i hnew
        exact h.putCall id (namedCall_mem hnamed) hnew

/-- By induction on the blocks. -/
theorem Placed.placeBlocks (h : Placed calls shown p) (blocks : List DisplayBlock) :
    Placed calls (shown ++ (blocks.filterMap textBlock).map fun b => (b.id, b.text))
      (blocks.foldl (TurnActivity.placeBlock number calls) p) := by
  induction blocks generalizing p shown with
  | nil => simpa using h
  | cons block rest ih =>
    have hrest := ih (h.placeBlock number block)
    rw [List.append_assoc] at hrest
    have htexts : ((textBlock block).map fun b => (b.id, b.text)).toList ++
          (rest.filterMap textBlock).map (fun b => (b.id, b.text)) =
        ((block :: rest).filterMap textBlock).map fun b => (b.id, b.text) := by
      cases block with
      | text block => rfl
      | tool id toolId => rfl
    rw [htexts] at hrest
    exact hrest

/-- The calls that are due come in their order. -/
theorem placeTimed_run (due : List CapturedToolCall) (p : Placing) :
    (due.foldl placeTimed p).activity.flatMap callsOf = p.activity.flatMap callsOf ++ due ∧
      (due.foldl placeTimed p).claimed = p.claimed ++ due.map CapturedToolCall.id ∧
      (due.foldl placeTimed p).activity.filterMap textItem = p.activity.filterMap textItem := by
  induction due generalizing p with
  | nil => simp
  | cons call rest ih =>
    obtain ⟨hcalls, hclaimed, htexts⟩ := ih (placeTimed p call)
    have hplaced : (placeTimed p call).activity.flatMap callsOf =
        p.activity.flatMap callsOf ++ [call] :=
      addCall_calls _ p.activity call
    refine ⟨?_, ?_, ?_⟩
    · rw [List.foldl_cons, hcalls, hplaced, List.append_assoc, List.singleton_append]
    · rw [List.foldl_cons, hclaimed, List.map_cons]
      exact List.append_assoc _ _ _
    · rw [List.foldl_cons, htexts]
      exact addCall_texts _ p.activity call

/-- All calls are placed in the order of their times, between the texts in theirs. -/
theorem timedFrom_run (number : Text → Option ℚ) (blocks : List TextBlock)
    (chronological : List CapturedToolCall) (p : Placing) :
    (timedFrom number p chronological blocks).activity.flatMap callsOf =
        p.activity.flatMap callsOf ++ chronological ∧
      (timedFrom number p chronological blocks).claimed =
        p.claimed ++ chronological.map CapturedToolCall.id ∧
      (timedFrom number p chronological blocks).activity.filterMap textItem =
        p.activity.filterMap textItem ++ blocks.map fun b => (b.id, b.text) := by
  induction blocks generalizing chronological p with
  | nil =>
    obtain ⟨hcalls, hclaimed, htexts⟩ := placeTimed_run chronological p
    exact ⟨hcalls, hclaimed, htexts.trans (List.append_nil _).symm⟩
  | cons block rest ih =>
    obtain ⟨hdue, hdueClaimed, hdueTexts⟩ :=
      placeTimed_run (chronological.takeWhile (isBefore number block)) p
    obtain ⟨hcalls, hclaimed, htexts⟩ := ih (chronological.dropWhile (isBefore number block))
      (((chronological.takeWhile (isBefore number block)).foldl placeTimed p).putText block)
    unfold timedFrom
    dsimp only
    refine ⟨?_, ?_, ?_⟩
    · rw [hcalls]
      simp only [Placing.putText, List.flatMap_append, List.flatMap_singleton, hdue, callsOf,
        List.append_nil, List.append_assoc, List.takeWhile_append_dropWhile]
    · rw [hclaimed]
      simp only [Placing.putText, hdueClaimed, List.append_assoc, ← List.map_append,
        List.takeWhile_append_dropWhile]
    · rw [htexts]
      simp only [Placing.putText, List.filterMap_append, hdueTexts, List.append_assoc]
      rfl

theorem timed_placed (h : (calls.map CapturedToolCall.id).Nodup) (blocks : List TextBlock) :
    Placed calls (blocks.map fun b => (b.id, b.text)) (timed number calls blocks) := by
  have hperm : ((calls.zipIdx.insertionSort Chronological).map Prod.fst).Perm calls := by
    have hsorted := (List.perm_insertionSort Chronological calls.zipIdx).map Prod.fst
    rwa [List.zipIdx_map_fst] at hsorted
  obtain ⟨hcalls, hclaimed, htexts⟩ := timedFrom_run number blocks
    ((calls.zipIdx.insertionSort Chronological).map Prod.fst) {}
  unfold timed
  refine ⟨?_, ?_, ?_, htexts⟩
  · rw [hclaimed, hcalls]
    rfl
  · rw [hclaimed]
    exact (hperm.map CapturedToolCall.id).nodup_iff.mpr h
  · rw [hcalls]
    exact fun call hcall => hperm.subset hcall

end Placings

section Calls

variable {calls : List CapturedToolCall} {shown : List (Text × Text)} {p : Placing}

/-- Blocks and calls, each placed once. -/
theorem placed_placed (number : Text → Option ℚ) {turn : LocalTurn}
    (h : (turn.calls.map CapturedToolCall.id).Nodup) (captureSource : String) :
    Placed turn.calls (turn.textBlocks.map fun b => (b.id, b.text))
      (placed number turn captureSource) := by
  unfold placed
  split
  · exact timed_placed h turn.textBlocks
  · have hempty : Placed turn.calls [] {} :=
      ⟨rfl, List.nodup_nil, fun call hcall => absurd hcall List.not_mem_nil, rfl⟩
    exact hempty.placeBlocks _

/-- The placed calls and the others are all calls. -/
theorem Placed.calls_perm (h : Placed calls shown p)
    (hids : (calls.map CapturedToolCall.id).Nodup) :
    (p.activity.flatMap callsOf ++ calls.filter fun call => decide (call.id ∉ p.claimed)).Perm
      calls := by
  have hmem : ∀ call ∈ calls, (call.id ∈ p.claimed ↔ call ∈ p.activity.flatMap callsOf) := by
    intro call hcall
    rw [h.claimed_eq]
    constructor
    · intro hid
      obtain ⟨other, hother, hsame⟩ := List.mem_map.mp hid
      rw [← List.inj_on_of_nodup_map hids (h.subset other hother) hcall hsame]
      exact hother
    · exact List.mem_map_of_mem
  have hnodup : (p.activity.flatMap callsOf).Nodup := by
    have hclaimed := h.nodup
    rw [h.claimed_eq] at hclaimed
    exact List.Nodup.of_map _ hclaimed
  have hplaced : (p.activity.flatMap callsOf).Perm
      (calls.filter fun call => decide (call.id ∈ p.claimed)) := by
    apply (List.perm_ext_iff_of_nodup hnodup ((List.Nodup.of_map _ hids).filter _)).mpr
    intro call
    rw [List.mem_filter, decide_eq_true_iff]
    constructor
    · intro hcall
      have hin := h.subset call hcall
      exact ⟨hin, (hmem call hin).mpr hcall⟩
    · intro hcall
      exact (hmem call hcall.1).mp hcall.2
  have hrest : (calls.filter fun call => decide (call.id ∉ p.claimed)) =
      calls.filter fun call => !decide (call.id ∈ p.claimed) := by
    apply List.filter_congr
    intro call _
    exact decide_not
  rw [hrest]
  exact (hplaced.append_right _).trans (List.filter_append_perm _ calls)

theorem insertRemaining_calls (activity : List Activity) (remaining : List CapturedToolCall) :
    ((insertRemaining activity remaining).flatMap callsOf).Perm
      (activity.flatMap callsOf ++ remaining) := by
  unfold insertRemaining
  by_cases hnone : remaining = []
  · rw [if_pos hnone, hnone, List.append_nil]
  · rw [if_neg hnone]
    dsimp only
    generalize (match findLastIndex activity with
      | some (k + 1) => k + 1
      | _ => activity.length) = insertAt
    rw [List.flatMap_append, List.flatMap_append, List.flatMap_singleton, List.append_assoc]
    have hsplit : activity.flatMap callsOf =
        (activity.take insertAt).flatMap callsOf ++ (activity.drop insertAt).flatMap callsOf := by
      rw [← List.flatMap_append, List.take_append_drop]
    rw [hsplit, List.append_assoc]
    exact List.perm_append_comm.append_left _

theorem insertRemaining_texts (activity : List Activity) (remaining : List CapturedToolCall) :
    (insertRemaining activity remaining).filterMap textItem = activity.filterMap textItem := by
  unfold insertRemaining
  split
  · rfl
  · dsimp only
    rw [List.filterMap_append, List.filterMap_append, List.append_assoc]
    have hnone : [Activity.tools "unplaced-tools".toList remaining].filterMap textItem = [] := rfl
    rw [hnone, List.nil_append, ← List.filterMap_append, List.take_append_drop]

def textOf (item : Text × Text) : Activity := .text item.1 item.2

/-- The answer adds a text in front of the activity or behind it, or none. -/
theorem addParts_shape (activity : List Activity) (shown incoming : List Text) (answer : Text) :
    ∃ front back : List (Text × Text), (front ++ back).length ≤ 1 ∧
      addParts activity shown incoming answer =
        front.map textOf ++ activity ++ back.map textOf := by
  unfold addParts
  dsimp only
  split
  · exact ⟨[], [(_, _)], Nat.le_refl 1, rfl⟩
  · split
    · exact ⟨[], [(_, _)], Nat.le_refl 1, rfl⟩
    · split
      · exact ⟨[(_, _)], [], Nat.le_refl 1, (List.append_nil _).symm⟩
      · exact ⟨[], [(_, _)], Nat.le_refl 1, rfl⟩

/-- The answer adds one text at most, at an end. -/
theorem addAnswer_shape (activity : List Activity) (rendered answer : Text) :
    ∃ front back : List (Text × Text), (front ++ back).length ≤ 1 ∧
      addAnswer activity rendered answer = front.map textOf ++ activity ++ back.map textOf := by
  unfold addAnswer
  split
  · split
    · dsimp only
      split
      · exact ⟨[], [(_, _)], Nat.le_refl 1, rfl⟩
      · exact ⟨[], [], Nat.zero_le 1, (List.append_nil _).symm⟩
    · split
      · dsimp only
        split
        · exact ⟨[(_, _)], [], Nat.le_refl 1, (List.append_nil _).symm⟩
        · exact ⟨[], [], Nat.zero_le 1, (List.append_nil _).symm⟩
      · exact addParts_shape activity _ _ answer
  · exact ⟨[], [], Nat.zero_le 1, (List.append_nil _).symm⟩

theorem texts_calls (items : List (Text × Text)) : (items.map textOf).flatMap callsOf = [] := by
  rw [List.flatMap_map]
  exact List.flatMap_eq_nil_iff.mpr fun _ _ => rfl

theorem texts_texts (items : List (Text × Text)) :
    (items.map textOf).filterMap textItem = items := by
  rw [List.filterMap_map]
  exact List.filterMap_some

/-- The whole activity, the answer aside. -/
theorem ordered_shown_once (number : Text → Option ℚ) {turn : LocalTurn}
    (h : (turn.calls.map CapturedToolCall.id).Nodup) (captureSource : String) :
    ShownOnce turn.calls turn.textBlocks (orderedActivity number turn captureSource) := by
  unfold orderedActivity
  by_cases hblocks : turn.textBlocks = []
  · rw [if_pos hblocks, hblocks]
    have hcalls : (if turn.calls ≠ [] then [Activity.tools "tools".toList turn.calls]
        else []).flatMap
        callsOf = turn.calls := by
      split
      · exact List.append_nil _
      · rename_i hnone
        exact (not_not.mp hnone).symm
    have hnotext : (if turn.calls ≠ [] then [Activity.tools "tools".toList turn.calls] else
        []).filterMap textItem = [] := by
      split
      · rfl
      · rfl
    constructor
    · rw [List.flatMap_append, hcalls]
      split
      · rw [List.flatMap_singleton, callsOf, List.append_nil]
      · rw [List.flatMap_nil, List.append_nil]
    · rw [List.filterMap_append, hnotext]
      split
      · exact ⟨[], [("answer".toList, turn.assistantText)], Nat.le_refl 1, rfl⟩
      · exact ⟨[], [], Nat.zero_le 1, rfl⟩
  · rw [if_neg hblocks]
    dsimp only
    have hplaced := placed_placed number h captureSource
    obtain ⟨front, back, hlength, hshape⟩ := addAnswer_shape
      (insertRemaining (placed number turn captureSource).activity
        (turn.calls.filter fun call =>
          decide (call.id ∉ (placed number turn captureSource).claimed)))
      (joinedText turn.textBlocks) (trim turn.assistantText)
    rw [hshape]
    constructor
    · rw [List.flatMap_append, List.flatMap_append, texts_calls, texts_calls, List.nil_append,
        List.append_nil]
      exact (insertRemaining_calls _ _).trans (hplaced.calls_perm h)
    · refine ⟨front, back, hlength, ?_⟩
      rw [List.filterMap_append, List.filterMap_append, texts_texts, texts_texts,
        insertRemaining_texts, hplaced.texts_eq]

end Calls

section Answers

theorem sharedPrefix_mem (left right : List Text) :
    ∀ part ∈ right.take (sharedPrefix left right), part ∈ left := by
  induction left generalizing right with
  | nil => simp [sharedPrefix]
  | cons a left ih =>
    cases right with
    | nil => simp
    | cons b right =>
      unfold sharedPrefix
      split
      · rename_i hsame
        intro part hpart
        rw [List.take_succ_cons] at hpart
        rcases List.mem_cons.mp hpart with rfl | hpart
        · rw [hsame]
          exact List.mem_cons_self
        · exact List.mem_cons_of_mem a (ih right part hpart)
      · simp

theorem continuation_mem {shown incoming : List Text} (h : 0 < continuationOf shown incoming) :
    ∀ part ∈ incoming.take (continuationOf shown incoming), part ∈ shown := by
  unfold continuationOf at h ⊢
  dsimp only at h ⊢
  cases hfind : ((List.range (min shown.length incoming.length)).map fun index =>
      min shown.length incoming.length - index).find? fun count =>
        decide (sharedPrefix (shown.drop (shown.length - count)) incoming = count) with
  | none =>
    rw [hfind] at h
    exact absurd h (Nat.lt_irrefl 0)
  | some count =>
    have hcount : sharedPrefix (shown.drop (shown.length - count)) incoming = count := by
      simpa using List.find?_some hfind
    intro part hpart
    rw [Option.getD_some] at hpart
    rw [← hcount] at hpart
    exact List.mem_of_mem_drop (sharedPrefix_mem _ incoming part hpart)

theorem ending_mem (shown incoming : List Text) :
    ∀ part ∈ incoming.drop (incoming.length - sharedPrefix shown.reverse incoming.reverse),
      part ∈ shown := by
  intro part hpart
  have hshared := sharedPrefix_mem shown.reverse incoming.reverse part
  rw [List.take_reverse, List.mem_reverse, List.mem_reverse] at hshared
  exact hshared hpart

theorem trim_inside (t : Text) : trim t <:+: t :=
  (List.rdropWhile_prefix _ _).isInfix.trans (List.dropWhile_suffix _).isInfix

theorem trim_blanks {blanks : Text} (h : ∀ c ∈ blanks, isWhitespace c = true) (part : Text) :
    trim (part ++ blanks) = trim part := by
  induction blanks using List.reverseRecOn with
  | nil => rw [List.append_nil]
  | append_singleton blanks c ih =>
    rw [← List.append_assoc, trim_concat (h c (by simp))]
    exact ih fun d hd => h d (List.mem_append_left _ hd)

theorem parts_inside {value part : Text} (h : part ∈ parts value) : part <:+: value := by
  obtain ⟨raw, hraw, rfl⟩ := List.mem_map.mp (List.mem_filter.mp h).1
  exact (trim_inside raw).trans (split_inside hraw)

theorem joinParts_inside {texts : List Text} {part : Text} (h : part ∈ texts) :
    part <:+: joinParts texts := by
  unfold joinParts
  apply List.infix_of_mem_flatten
  obtain ⟨i, hi⟩ := List.mem_iff_getElem?.mp h
  apply List.mem_iff_getElem?.mpr
  exact ⟨2 * i, by rw [List.getElem?_intersperse_two_mul, hi]⟩

def shownTexts (activity : List Activity) : List Text := (activity.filterMap textItem).map Prod.snd

theorem shown_mem {activity : List Activity} {id text : Text}
    (h : Activity.text id text ∈ activity) :
    text ∈ shownTexts activity := by
  have hitem : (id, text) ∈ activity.filterMap textItem := List.mem_filterMap.mpr ⟨_, h, rfl⟩
  exact List.mem_map_of_mem hitem

theorem shown_last (activity : List Activity) (id text : Text) :
    text ∈ shownTexts (activity ++ [.text id text]) :=
  shown_mem (List.mem_append_right activity (List.mem_singleton_self _))

theorem shown_first (activity : List Activity) (id text : Text) :
    text ∈ shownTexts (.text id text :: activity) :=
  shown_mem List.mem_cons_self

variable {joined answer : Text} {shown : List Text}

theorem covered_whole (h : ∃ host ∈ joined :: shown, trim answer <:+: host) :
    Covered joined answer shown := by
  refine ⟨[trim answer], List.flatten_singleton, cutAt_single _, ?_⟩
  intro piece hpiece
  rw [List.mem_singleton.mp hpiece, trim_trim]
  exact h

/-- A text that is empty up to white space is contained in any. -/
theorem blank_hosted {piece : Text} (h : trim piece = []) :
    ∃ host ∈ joined :: shown, trim piece <:+: host := by
  rw [h]
  exact ⟨joined, List.mem_cons_self, List.nil_infix⟩

/-- An answer in two pieces, each of which is to be seen. -/
theorem covered_pair {left right : Text} (hsplit : trim answer = left ++ right)
    (hcut : left = joined ∨ right = joined)
    (hleft : ∃ host ∈ joined :: shown, trim left <:+: host)
    (hright : ∃ host ∈ joined :: shown, trim right <:+: host) : Covered joined answer shown := by
  refine ⟨[left, right], ?_, cutAt_pair (Or.inr hcut), ?_⟩
  · rw [hsplit]
    simp
  · intro piece hpiece
    rcases List.mem_cons.mp hpiece with rfl | hpiece
    · exact hleft
    · rw [List.mem_singleton.mp hpiece]
      exact hright

/-- An answer is covered when each of its paragraphs is. -/
theorem covered_parts (h : ∀ part ∈ parts (trim answer), ∃ host ∈ joined :: shown, part <:+: host) :
    Covered joined answer shown := by
  refine ⟨sections '\n' isWhitespace (trim answer), sections_flatten _,
    (sections_cut _).mono fun left right hbreak => Or.inl hbreak, ?_⟩
  intro piece hpiece
  obtain ⟨part, hpart, blanks, rfl, hblanks⟩ := sections_parts (by decide) hpiece
  rw [trim_blanks hblanks]
  by_cases hempty : trim part = []
  · exact blank_hosted hempty
  · apply h
    unfold parts
    rw [List.mem_filter]
    exact ⟨List.mem_map_of_mem hpart, decide_eq_true hempty⟩

/-- The paragraphs that are not shown yet are added. -/
theorem covered_added {known added : List Text} {text : Text}
    (hsplit : ∀ part ∈ parts (trim answer), part ∈ known ∨ part ∈ added)
    (hknown : ∀ part ∈ known, part ∈ parts joined) (hadded : ∀ part ∈ added, part <:+: text)
    (htext : text ∈ shown) : Covered joined answer shown := by
  apply covered_parts
  intro part hpart
  rcases hsplit part hpart with hpart | hpart
  · exact ⟨joined, List.mem_cons_self, parts_inside (hknown part hpart)⟩
  · exact ⟨text, List.mem_cons_of_mem joined htext, hadded part hpart⟩

theorem mem_take_or_drop {α : Type} {l : List α} {x : α} (n : ℕ) (h : x ∈ l) :
    x ∈ l.take n ∨ x ∈ l.drop n := by
  rw [← List.take_append_drop n l] at h
  exact List.mem_append.mp h

theorem addParts_covered (activity : List Activity) (joined answer : Text) :
    Covered joined answer (shownTexts
      (addParts activity (parts joined) (parts (trim answer)) (trim answer))) := by
  unfold addParts
  dsimp only
  split
  · exact covered_added (fun part hpart => mem_take_or_drop _ hpart)
      (sharedPrefix_mem (parts joined) (parts (trim answer)))
      (fun part hpart => joinParts_inside hpart)
      (shown_last _ _ _)
  · split
    · rename_i hcontinuation
      exact covered_added (fun part hpart => mem_take_or_drop _ hpart)
        (continuation_mem hcontinuation.1) (fun part hpart => joinParts_inside hpart)
        (shown_last _ _ _)
    · split
      · exact covered_added (fun part hpart => (mem_take_or_drop _ hpart).symm)
          (ending_mem (parts joined) (parts (trim answer)))
          (fun part hpart => joinParts_inside hpart)
          (shown_first _ _ _)
      · exact covered_whole ⟨_, List.mem_cons_of_mem joined (shown_last _ _ _), List.infix_rfl⟩

theorem addAnswer_covered (activity : List Activity) (joined answer : Text) :
    Covered joined answer (shownTexts (addAnswer activity joined (trim answer))) := by
  unfold addAnswer
  have hjoined : ∀ {shown : List Text}, ∃ host ∈ joined :: shown, trim joined <:+: host :=
    ⟨joined, List.mem_cons_self, trim_inside joined⟩
  split
  · split
    · rename_i hstarts
      obtain ⟨rest, hrest⟩ := hstarts
      have hdrop : (trim answer).drop joined.length = rest := by rw [← hrest, List.drop_left]
      rw [hdrop]
      refine covered_pair hrest.symm (Or.inl rfl) hjoined ?_
      dsimp only
      split
      · exact ⟨trim rest, List.mem_cons_of_mem joined (shown_last _ _ _), List.infix_rfl⟩
      · rename_i hblank
        exact blank_hosted (not_not.mp hblank)
    · split
      · rename_i hends
        obtain ⟨rest, hrest⟩ := hends.2
        have htake : (trim answer).take ((trim answer).length - joined.length) = rest := by
          rw [← hrest, List.length_append, Nat.add_sub_cancel, List.take_left]
        rw [htake]
        refine covered_pair hrest.symm (Or.inr rfl) ?_ hjoined
        dsimp only
        split
        · exact ⟨trim rest, List.mem_cons_of_mem joined (shown_first _ _ _),
            List.infix_rfl⟩
        · rename_i hblank
          exact blank_hosted (not_not.mp hblank)
      · exact addParts_covered activity joined answer
  · rename_i hin
    apply covered_whole
    by_cases hempty : trim answer = []
    · rw [hempty]
      exact ⟨joined, List.mem_cons_self, List.nil_infix⟩
    · have hshown : trim answer <:+: joined := not_not.mp fun hout => hin ⟨hempty, hout⟩
      exact ⟨joined, List.mem_cons_self, hshown⟩

theorem ordered_covered (number : Text → Option ℚ) (turn : LocalTurn) (captureSource : String) :
    Covered (joinedText turn.textBlocks) turn.assistantText
      (shownTexts (orderedActivity number turn captureSource)) := by
  unfold orderedActivity
  split
  · apply covered_whole
    by_cases hempty : turn.assistantText = []
    · rw [hempty]
      exact ⟨joinedText turn.textBlocks, List.mem_cons_self, List.nil_infix⟩
    · rw [if_pos hempty]
      exact ⟨turn.assistantText, List.mem_cons_of_mem _ (shown_last _ _ _),
        trim_inside turn.assistantText⟩
  · exact addAnswer_covered _ (joinedText turn.textBlocks) turn.assistantText

/-- The activity shows each call once, the text blocks in their order, and the whole answer. -/
theorem activity_complete (number : Text → Option ℚ) (turn : LocalTurn) (captureSource : String)
    (h : (turn.calls.map CapturedToolCall.id).Nodup) :
    ShownOnce turn.calls turn.textBlocks (orderedActivity number turn captureSource) ∧
      Covered (joinedText turn.textBlocks) turn.assistantText
        (shownTexts (orderedActivity number turn captureSource)) :=
  ⟨ordered_shown_once number h captureSource, ordered_covered number turn captureSource⟩

def smallNumber (t : Text) : Option ℚ :=
  if t = "0".toList then some 0 else if t = "2".toList then some 2 else none

/-- Commentary, a call, and an answer that the blocks show only in part. -/
def commentaryTurn : LocalTurn where
  assistantText := "First\n\nFinal".toList
  toolCalls := some [{ id := "dom-tool-0".toList }, { id := "call-1".toList }]
  displayBlocks := some
    [.text { id := "text-0".toList, text := "First".toList, seenAt := some "2".toList },
      .tool "dom-tool-0".toList]

theorem activity_complete_commentary :
    ShownOnce commentaryTurn.calls commentaryTurn.textBlocks
        (orderedActivity smallNumber commentaryTurn "dom") ∧
      Covered (joinedText commentaryTurn.textBlocks) commentaryTurn.assistantText
        (shownTexts (orderedActivity smallNumber commentaryTurn "dom")) :=
  activity_complete smallNumber commentaryTurn "dom" (by decide)

end Answers

end Prompta.TurnActivity
