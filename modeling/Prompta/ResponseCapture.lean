import Prompta.Schema
import Prompta.ToolEvents

/-!
The decoder of one response stream. The text arrives in chunks, is split into lines and
events, and every event changes the decoder; a snapshot reads the answer and the display
blocks off it. Patches carry no identifier: they belong to the current message.
-/
namespace Prompta.ResponseCapture

open Texts DisplayBlocks ToolCalls Schema JsonValues ToolEvents

def maxSseCharacters : ℕ := 4 * 1024 * 1024

def maxAnswerCharacters : ℕ := 2 * 1024 * 1024

def joinLines (lines : List Text) : Text := List.intercalate ['\n'] lines

def decimalValue (c : Char) : ℕ :=
  match digitZeros.find? fun first => first ≤ c.toNat && c.toNat < first + 10 with
  | some first => c.toNat - first
  | none => 0

/-- `_PART_PATH` and the number of the part. -/
def partIndex (path : Text) : Option ℕ :=
  let stem := "/message/content/parts/".toList
  let digits := path.drop stem.length
  if stem.isPrefixOf path && decide (digits ≠ []) && digits.all isDecimal then
    some (digits.foldl (fun n c => 10 * n + decimalValue c) 0)
  else none

def partText : Json → Text
  | .str t => t
  | value => ((value.record.get "text").string).getD []

def messageParts (message : Fields) : List Text :=
  let content := (message.get "content").record
  match content.get "parts" with
  | .arr parts => parts.map partText
  | _ =>
    match (content.get "text").string with
    | some t => [t]
    | none => []

def nullOr (value : Json) (texts : List String) : Bool := value.isNull || value.among texts

section Message

variable (message : Fields)

def metadata : Fields := (message.get "metadata").record

def contentType : Json := (message.get "content").record.get "content_type"

def isAssistant : Bool := ((message.get "author").record.get "role").among ["assistant"]

def isHidden : Bool := ((metadata message).get "is_visually_hidden_from_conversation").isTrue

/-- The message says that it is private. -/
def isPrivateType : Bool :=
  ((metadata message).get "message_type").among ["analysis", "thought", "reasoning_recap"]

def isFinalAssistant : Bool :=
  isAssistant message && nullOr (message.get "recipient") ["all"] &&
    nullOr (message.get "channel") ["final"] && nullOr ((metadata message).get "channel")
      ["final"] &&
    !isPrivateType message && !isHidden message && (contentType message).among ["text"]

/-- `_visible_assistant_text`: commentary and final prose, never private analysis. -/
def isVisibleAssistantText : Bool :=
  isAssistant message && nullOr (message.get "recipient") ["all"] && !isHidden message &&
    !isPrivateType message && nullOr (message.get "channel") ["commentary", "final"] &&
    nullOr ((metadata message).get "channel") ["commentary", "final"] &&
    (contentType message).among ["text"]

def messageComplete : Bool :=
  (message.get "status").among ["finished_successfully"] || (message.get "end_turn").isTrue ||
    ((metadata message).get "is_complete").isTrue

/-- Evidence of reasoning, of which no text is kept. -/
def isReasoning : Bool :=
  isAssistant message && ((contentType message).among ["thoughts", "reasoning_recap"] ||
    (message.get "channel").among ["analysis"])

end Message

def sseBlockId (lib : Stdlib) (kind : String) (messageId : Text) : String :=
  String.ofList ("sse-".toList ++ kind.toList ++ '-' :: (lib.sha256 messageId).toList.take 24)

def partsText (parts : List Text) : Text :=
  strip (joinLines (parts.filter fun part => decide (part ≠ [])))

structure Decoder where
  parts : List Text := []
  lastPart : ℕ := 0
  conversationId : Option Text := none
  messageId : Option Text := none
  parentId : Option Text := none
  tracking : Bool := false
  seenFinal : Bool := false
  sawReasoning : Bool := false
  complete : Bool := false
  ambiguous : Bool := false
  progressEvents : ℕ := 0
  streamError : Bool := false
  tools : ToolEventCollector := {}
  toolMessage : Option Fields := none
  visibleMessageId : Option Text := none
  visiblePartsById : List (Text × List Text) := []
  displayBlocks : List Block := []
  visibleIndices : List (Text × ℕ) := []

/-- An identity that differs from the bound one makes the stream ambiguous. -/
def bound (old : Option Text) (candidate : Json) : Option Text × Bool :=
  match candidate.string with
  | none => (old, false)
  | some id =>
    match old with
    | none => (some id, false)
    | some saved => (some saved, decide (saved ≠ id))

def bindIdentity (s : Decoder) (conversationId parentId : Json) : Decoder :=
  let conversation := bound s.conversationId conversationId
  let parent := bound s.parentId parentId
  { s with conversationId := conversation.1, parentId := parent.1
           ambiguous := s.ambiguous || conversation.2 || parent.2 }

def refreshVisibleText (s : Decoder) : Decoder :=
  match s.visibleMessageId with
  | none => s
  | some identifier =>
    let parts := (lookup s.visiblePartsById identifier).getD []
    match lookup s.visibleIndices identifier with
    | none => s
    | some index =>
      { s with displayBlocks := s.displayBlocks.modify index fun block =>
          { block with text := (partsText parts).take maxAnswerCharacters } }

section Visible

variable (lib : Stdlib)

/-- The display block of a tool message, once its call is known. -/
def rememberTool (s : Decoder) (message : Fields) : Decoder :=
  match (message.get "id").string with
  | none => s
  | some identifier =>
    let blockId := sseBlockId lib "tool" identifier
    if s.displayBlocks.length < maxBlocks ∧ (∃ call ∈ s.tools.calls, call.id = identifier) ∧
        ∀ block ∈ s.displayBlocks, block.id ≠ blockId then
      { s with displayBlocks := s.displayBlocks ++
          [{ kind := .tool, id := blockId, toolId := some (String.ofList identifier) }] }
    else s

/-- A shorter replay of a message does not replace its parts. -/
def keepLonger (saved parts : List Text) : List Text :=
  if (joinLines saved).length ≤ (joinLines parts).length then parts else saved

/-- The display block of a visible message becomes the current one. -/
def rememberText (s : Decoder) (message : Fields) : Decoder :=
  match (message.get "id").string with
  | none => s
  | some identifier =>
    let parts := messageParts message
    match lookup s.visibleIndices identifier with
    | none =>
      if maxBlocks ≤ s.displayBlocks.length then s
      else
        refreshVisibleText
          { s with
            visibleMessageId := some identifier
            visibleIndices := assign s.visibleIndices identifier s.displayBlocks.length
            displayBlocks := s.displayBlocks ++
              [{ kind := .text, id := sseBlockId lib "text" identifier }]
            visiblePartsById := assign s.visiblePartsById identifier parts }
    | some _ =>
      let saved := (lookup s.visiblePartsById identifier).getD []
      refreshVisibleText
        { s with
          visibleMessageId := some identifier
          visiblePartsById := assign s.visiblePartsById identifier (keepLonger saved parts) }

def rememberVisible (s : Decoder) (message : Fields) (isTool : Bool) : Decoder :=
  let cleared := { s with visibleMessageId := none }
  if isTool then rememberTool lib cleared message
  else if isVisibleAssistantText message then rememberText lib cleared message
  else cleared

end Visible

/-- The path of a patch for the visible text and for tools. -/
def defaultPath (path : Json) : Text :=
  match path.string with
  | none => "/message/content/parts/0".toList
  | some p => if p = "/message/content/text".toList then "/message/content/parts/0".toList else p

/-- At least `index + 1` parts. -/
def padParts (parts : List Text) (index : ℕ) : List Text :=
  parts ++ List.replicate (index + 1 - parts.length) []

/-- The text of a part after a patch, where the operation is known. -/
def patchedText (operation : Json) (old value : Text) : Option Text :=
  if nullOr operation ["append"] then some (old ++ value)
  else if operation.among ["replace", "add"] then some value
  else none

/-- The parts are padded before the operation is looked at. -/
def patchParts (parts : List Text) (index : ℕ) (operation : Json) (value : Text) :
    List Text × Bool :=
  let padded := padParts parts index
  match patchedText operation (padded.getD index []) value with
  | some t => (padded.set index t, true)
  | none => (padded, false)

def patchVisibleText (s : Decoder) (patch : Fields) : Decoder :=
  match s.visibleMessageId with
  | none => s
  | some identifier =>
    match partIndex (defaultPath (patch.get "p")), patch.get "v" with
    | some index, .str value =>
      if 16 < index then s
      else
        let saved := (lookup s.visiblePartsById identifier).getD []
        let patched := patchParts saved index (patch.get "o") value
        let s := { s with visiblePartsById := assign s.visiblePartsById identifier patched.1 }
        if patched.2 then refreshVisibleText s else s
    | _, _ => s

section Consume

variable (lib : Stdlib) (codec : Codec) (now : Stamp)

def consumeFinal (s : Decoder) (message : Fields) : Decoder :=
  let candidate := (message.get "id").string
  if s.seenFinal && decide (candidate ≠ s.messageId)
    then { s with ambiguous := true, tracking := false }
  else if s.ambiguous then s
  else
    let parts := messageParts message
    let longer := decide ((joinLines s.parts).length ≤ (joinLines parts).length)
    { s with
      seenFinal := true
      tracking := true
      messageId := candidate
      parts := if longer then parts else s.parts
      lastPart := if longer then parts.length - 1 else s.lastPart
      complete := s.complete || messageComplete message }

def consumeMessage (s : Decoder) (message : Fields) (conversationId parentId : Json) : Decoder :=
  let observed := observe lib codec now s.tools message
  let isTool := observed.2
  let remembered := rememberVisible lib
    { s with sawReasoning := s.sawReasoning || isReasoning message, tools := observed.1 }
    message isTool
  if isTool then
    { bindIdentity { remembered with toolMessage := some message } conversationId .null with
      tracking := false }
  else if isFinalAssistant message then
    consumeFinal (bindIdentity { remembered with toolMessage := none } conversationId
      parentId) message
  else { remembered with toolMessage := none, tracking := false }

/-- A patch of the current tool message, which is then observed again. -/
def patchTool (s : Decoder) (message patch : Fields) : Decoder :=
  match partIndex (defaultPath (patch.get "p")), patch.get "v" with
  | some index, .str value =>
    if 16 < index then s
    else
      let parts := padParts (messageParts message) index
      match patchedText (patch.get "o") (parts.getD index []) value with
      | none => s
      | some t =>
        let content := (message.get "content").record.set "parts"
          (.arr ((parts.set index (t.take 64000)).map Json.str))
        let message := message.set "content" (.obj content)
        { s with toolMessage := some message, tools := (observe lib codec now s.tools message).1 }
  | _, _ => s

/-- A patch of the tracked final message. A patch without a path goes to the last part. -/
def patchFinal (s : Decoder) (patch : Fields) : Decoder :=
  let value := patch.get "v"
  match (patch.get "p").string with
  | some path =>
    if path = "/message/status".toList then
      { s with complete := s.complete || value.among ["finished_successfully"] }
    else if path = "/message/end_turn".toList then { s with complete := s.complete || value.isTrue }
    else
      match partIndex path with
      | some index => patchPart s index value
      | none => s
  | none => patchPart s s.lastPart value
where
  patchPart (s : Decoder) (index : ℕ) (value : Json) : Decoder :=
    match value with
    | .str value =>
      if 16 < index then s
      else
        let patched := patchParts s.parts index (patch.get "o") value
        { s with parts := patched.1, lastPart := if patched.2 then index else s.lastPart }
    | _ => s

def patch (s : Decoder) (p : Fields) : Decoder :=
  match s.toolMessage with
  | some message => if s.ambiguous then patchText s else patchTool lib codec now s message p
  | none => patchText s
where
  patchText (s : Decoder) : Decoder :=
    let visible := patchVisibleText s p
    if visible.tracking && !visible.ambiguous then patchFinal visible p else visible

/-- The message that an event carries, with its identities. -/
def eventMessage (event : Fields) : Option (Fields × Json × Json) :=
  let message := (event.get "message").record
  let wrapped := (event.get "v").record
  let nested := (wrapped.get "message").record
  if !message.isEmpty then some (message, event.get "conversation_id", event.get "parent_id")
  else if !nested.isEmpty then
    some (nested, (wrapped.get "conversation_id").orElse (event.get "conversation_id"),
      (wrapped.get "parent_id").orElse (event.get "parent_id"))
  else if (event.get "o").among ["add", "replace"] && (event.get "p").among ["/message"] &&
      !wrapped.isEmpty then
    some (wrapped, event.get "conversation_id", event.get "parent_id")
  else none

def eventPatches (event : Fields) : List Fields :=
  match event.get "v" with
  | .arr items => if nullOr (event.get "o") ["patch"] then items.map Json.record else [event]
  | _ => [event]

def isErrorEvent (event : Fields) : Bool :=
  (event.get "type").among ["error", "message_stream_error"] || (event.get "error").truthy

def isCompleteEvent (event : Fields) : Bool := (event.get "type").among ["message_stream_complete"]

def consume (s : Decoder) (event : Fields) : Decoder :=
  if event.isEmpty then s
  else
    let s := { s with progressEvents := s.progressEvents + 1 }
    if isErrorEvent event then { s with streamError := true }
    else if isCompleteEvent event then
      { bindIdentity s (event.get "conversation_id") (event.get "parent_id") with complete := true }
    else
      match eventMessage event with
      | some (message, conversationId, parentId) =>
        consumeMessage lib codec now s message conversationId parentId
      | none => (eventPatches event).foldl (patch lib codec now) s

end Consume

/-- The text that is not decoded yet, and what has been decoded. -/
structure SseResponseAccumulator where
  lineBuffer : Text := []
  dataLines : List Text := []
  overflow : Bool := false
  received : ℕ := 0
  decoder : Decoder := {}

section Stream

variable (lib : Stdlib) (codec : Codec) (now : Stamp)

def flushEvent (s : SseResponseAccumulator) : SseResponseAccumulator :=
  if s.dataLines = [] then s
  else
    let payload := joinLines s.dataLines
    let cleared := { s with dataLines := [] }
    if payload = "[DONE]".toList then
      { cleared with decoder := { s.decoder with complete := true } }
    else
      match codec.loads payload with
      | some (.obj event) => { cleared with decoder := consume lib codec now s.decoder event }
      | _ => cleared

def handleLine (s : SseResponseAccumulator) (line : Text) : SseResponseAccumulator :=
  if line = [] then flushEvent lib codec now s
  else if "data:".toList.isPrefixOf line then
    { s with dataLines := s.dataLines ++ [removeStem " " (line.drop 5)] }
  else s

/-- `line.removesuffix("\r")` -/
def removeReturn (line : Text) : Text := if ['\r'].isSuffixOf line then line.dropLast else line

def takeLines (s : SseResponseAccumulator) (line : Text) : Text → SseResponseAccumulator
  | [] => { s with lineBuffer := line }
  | '\n' :: rest => takeLines (handleLine lib codec now s (removeReturn line)) [] rest
  | c :: rest => takeLines s (line ++ [c]) rest

def feed (s : SseResponseAccumulator) (chunk : Text) : SseResponseAccumulator :=
  if chunk = [] ∨ s.overflow = true then s
  else
    let remaining := maxSseCharacters - s.received
    takeLines lib codec now
      { s with received := s.received + chunk.length
               overflow := decide (remaining < chunk.length) }
      [] (s.lineBuffer ++ chunk.take remaining)

def finish (s : SseResponseAccumulator) : SseResponseAccumulator :=
  let s :=
    if s.lineBuffer = [] then s
    else { handleLine lib codec now s (removeReturn s.lineBuffer) with lineBuffer := [] }
  flushEvent lib codec now s

end Stream

inductive StopReason
  | timeout
  | approvalWait
  | rateLimited
  | interrupted
  | unknown
  deriving DecidableEq, Repr

def StopReason.status : StopReason → Option CaptureStatus
  | .timeout => some .timeout
  | .approvalWait => some .approvalWait
  | .rateLimited => some .rateLimited
  | .interrupted => some .interrupted
  | .unknown => none

structure StreamResult extends CaptureResult where
  endedWithoutAnswer : Bool := false
  streamError : Bool := false

/-- `snapshot`: the result, and whether an overflow is known after it. -/
def snapshot (lib : Stdlib) (s : SseResponseAccumulator) (stopReason : Option StopReason) :
    StreamResult × Bool :=
  let d := s.decoder
  if d.ambiguous then ({ source := .sse, status := .unknown, text := [] }, s.overflow)
  else
    let whole := partsText d.parts
    let text := whole.take maxAnswerCharacters
    let overflow := s.overflow || decide (maxAnswerCharacters < whole.length)
    let status : CaptureStatus :=
      if d.streamError then .interrupted
      else
        match stopReason.bind StopReason.status with
        | some status => status
        | none =>
          if d.complete && d.seenFinal && decide (text ≠ []) && !overflow then .complete
          else if text ≠ [] then .partialText
          else .unknown
    ({ source := .sse, status, text
       conversationId := d.conversationId.map String.ofList
       messageId := d.messageId.map String.ofList
       parentId := d.parentId.map String.ofList
       toolCalls := d.tools.calls
       displayBlocks := normalizeDisplayBlocks lib (d.displayBlocks.map Block.raw)
       endedWithoutAnswer := d.complete && d.sawReasoning && decide (text = []) && !d.seenFinal
       streamError := d.streamError }, overflow)

section Prose

theorem among_mono {value : Json} {first second : List String} (h : value.among first = true)
    (hsub : ∀ t ∈ first.map String.toList, t ∈ second.map String.toList) :
    value.among second = true := by
  cases value with
  | str t => exact decide_eq_true (hsub t (of_decide_eq_true h))
  | _ => exact Bool.noConfusion h

theorem nullOr_mono {value : Json} {first second : List String} (h : nullOr value first = true)
    (hsub : ∀ t ∈ first.map String.toList, t ∈ second.map String.toList) :
    nullOr value second = true := by
  rw [nullOr, Bool.or_eq_true] at h ⊢
  exact h.imp_right fun hamong => among_mono hamong hsub

/-- The final prose is part of what is visible. -/
theorem visible_of_final {message : Fields} (h : isFinalAssistant message = true) :
    isVisibleAssistantText message = true := by
  simp only [isFinalAssistant, Bool.and_eq_true] at h
  obtain ⟨⟨⟨⟨⟨⟨hrole, hrecipient⟩, hchannel⟩, hmeta⟩, htype⟩, hhidden⟩, hcontent⟩ := h
  simp only [isVisibleAssistantText, Bool.and_eq_true]
  exact ⟨⟨⟨⟨⟨⟨hrole, hrecipient⟩, hhidden⟩, htype⟩, nullOr_mono hchannel (by decide)⟩,
    nullOr_mono hmeta (by decide)⟩, hcontent⟩

variable (lib : Stdlib) (codec : Codec) (now : Stamp)

theorem text_of_among {value : Json} {t : String} (h : value.among [t] = true) :
    value.text = t.toList := by
  cases value with
  | str u => exact List.mem_singleton.mp (of_decide_eq_true h)
  | _ => exact Bool.noConfusion h

/-- The collector of tool calls ignores what the assistant addresses to all, unless the message
itself says that it is a call. -/
theorem observe_prose {message : Fields} (hrole : isAssistant message = true)
    (hrecipient : nullOr (message.get "recipient") ["all"] = true)
    (henvelope : (readInvocation codec message).isEnvelope = false) (tools : ToolEventCollector) :
    observe lib codec now tools message = (tools, false) := by
  have hall : (readInvocation codec message).toAll = true := by
    apply decide_eq_true
    change (message.get "recipient").text = [] ∨ (message.get "recipient").text = "all".toList
    rw [nullOr, Bool.or_eq_true] at hrecipient
    rcases hrecipient with hnull | hamong
    · left
      cases hvalue : message.get "recipient" with
      | null => rfl
      | _ => rw [hvalue] at hnull; exact Bool.noConfusion hnull
    · exact Or.inr (text_of_among hamong)
  unfold observe
  dsimp only
  rw [text_of_among hrole, hall, henvelope]
  split
  · rfl
  · rw [if_neg (by decide), if_neg (by decide), Bool.not_false, Bool.and_true, Bool.or_true]
    rfl

theorem isEmpty_of_message {event : Fields} {carried : Fields × Json × Json}
    (h : eventMessage event = some carried) : event.isEmpty = false := by
  cases event with
  | nil => exact nomatch h
  | cons _ _ => rfl

/-- An event that only carries a message. -/
theorem consume_message (s : Decoder) {event message : Fields} {conversationId parentId : Json}
    (hmessage : eventMessage event = some (message, conversationId, parentId))
    (herror : isErrorEvent event = false) (hcomplete : isCompleteEvent event = false) :
    consume lib codec now s event =
      consumeMessage lib codec now { s with progressEvents := s.progressEvents + 1 } message
        conversationId parentId := by
  unfold consume
  rw [isEmpty_of_message hmessage, herror, hcomplete, hmessage]
  rfl

end Prose

end Prompta.ResponseCapture
