import Prompta.ResponseCapture
import Prompta.Service

/-!
Private messages of a response stream. Two streams that differ in the text of private
messages only take the decoder through the same states: a private message leaves no current
message behind, so the patches of its text go nowhere.
-/
namespace Prompta.PrivateReasoning

open Texts DisplayBlocks ToolCalls JsonValues ToolEvents ResponseCapture

/-- The fields agree, up to the named ones. -/
def SameExcept (names : List String) (a b : Fields) : Prop :=
  ∀ name, name ∉ names → a.get name = b.get name

/-- An analysis, a thought or a hidden message of the assistant, addressed to all. -/
def isPrivate (message : Fields) : Bool :=
  isAssistant message && nullOr (message.get "recipient") ["all"] &&
    (isHidden message || isPrivateType message || (message.get "channel").among ["analysis"] ||
      ((metadata message).get "channel").among ["analysis"] ||
      (contentType message).among ["thoughts", "reasoning_recap"])

section Streams

variable (codec : Codec)

/-- A private message that no tool call hides in. -/
def isThought (message : Fields) : Bool :=
  isPrivate message && !(readInvocation codec message).isEnvelope

def currentPrivate (current : Bool) (event : Fields) : Bool :=
  if isErrorEvent event || isCompleteEvent event then current
  else
    match eventMessage event with
    | some (message, _, _) => isThought codec message
    | none => current

/-- Messages that differ in the parts or the text of their content. -/
def SameMessage (message message' : Fields) : Prop :=
  SameExcept ["content"] message message' ∧
    SameExcept ["parts", "text"] (message.get "content").record (message'.get "content").record

/-- Two events that carry private messages with different texts. -/
structure PrivatePair (event event' : Fields) : Prop where
  rest : SameExcept ["message", "v"] event event'
  carried : ∃ message message' conversationId parentId,
    eventMessage event = some (message, conversationId, parentId) ∧
      eventMessage event' = some (message', conversationId, parentId) ∧
      SameMessage message message' ∧ isThought codec message = true ∧
        isThought codec message' = true

def TextPair (patch patch' : Fields) : Prop :=
  SameExcept ["v"] patch patch' ∧ (patch.get "v").isStr = true ∧ (patch'.get "v").isStr = true

/-- Two events that patch the current message, with one patch or a list of them. -/
structure PatchPair (event event' : Fields) : Prop where
  rest : SameExcept ["v"] event event'
  noMessage : eventMessage event = none
  values : TextPair event event' ∨
    ∃ items items', event.get "v" = .arr items ∧ event'.get "v" = .arr items' ∧
      List.Forall₂ (fun item item' => item = item' ∨ TextPair item.record item'.record) items items'

/-- Two streams that differ only in the texts of private messages, and of the patches of these.
The flag tells whether the current message is private. -/
inductive SamePublic : Bool → List (Stamp × Fields) → List (Stamp × Fields) → Prop
  | nil {current} : SamePublic current [] []
  | same {current now event rest rest'}
      (h : SamePublic (currentPrivate codec current event) rest rest') :
      SamePublic current ((now, event) :: rest) ((now, event) :: rest')
  | thought {current now event event' rest rest'} (hpair : PrivatePair codec event event')
      (h : SamePublic (currentPrivate codec current event) rest rest') :
      SamePublic current ((now, event) :: rest) ((now, event') :: rest')
  | patched {now event event' rest rest'} (hpair : PatchPair event event')
      (h : SamePublic true rest rest') :
      SamePublic true ((now, event) :: rest) ((now, event') :: rest')

end Streams

/-- The decoder after a stream of events, each with the time of its arrival. -/
def decodeEvents (lib : Stdlib) (codec : Codec) (s : Decoder) (events : List (Stamp × Fields)) :
    Decoder :=
  events.foldl (fun s e => consume lib codec e.1 s e.2) s

/-- No message takes a patch. -/
structure Idle (s : Decoder) : Prop where
  toolMessage : s.toolMessage = none
  visible : s.visibleMessageId = none
  tracking : s.tracking = false

theorem SameExcept.nil (names : List String) : SameExcept names [] [] := fun _ _ => rfl

/-- A named field may differ, another may not. -/
theorem SameExcept.cons {names : List String} {a b : Fields} (h : SameExcept names a b)
    (name : String)
    {first second : Json} (hfield : name ∈ names ∨ first = second) :
    SameExcept names ((name.toList, first) :: a) ((name.toList, second) :: b) := by
  intro key hkey
  by_cases hsame : name = key
  · subst hsame
    have hvalue : first = second := hfield.resolve_left hkey
    rw [hvalue]
    simp [Fields.get, lookup]
  · have hother : name.toList ≠ key.toList := fun heq => hsame (String.toList_inj.mp heq)
    have hrest := h key hkey
    simp only [Fields.get, lookup] at hrest
    simp [Fields.get, lookup, hother, hrest]

section Steps

variable (lib : Stdlib) (codec : Codec) (now : Stamp)

theorem idle_patch {s : Decoder} (h : Idle s) (p : Fields) : patch lib codec now s p = s := by
  have hvisible : patchVisibleText s p = s := by
    unfold patchVisibleText
    rw [h.visible]
  unfold patch
  rw [h.toolMessage]
  dsimp only
  rw [patch.patchText, hvisible, h.tracking, Bool.false_and]
  rfl

theorem idle_patches {s : Decoder} (h : Idle s) (patches : List Fields) :
    patches.foldl (patch lib codec now) s = s := by
  induction patches with
  | nil => rfl
  | cons p rest ih => rw [List.foldl_cons, idle_patch lib codec now h, ih]

theorem Idle.bindIdentity {s : Decoder} (h : Idle s) (conversationId parentId : Json) :
    Idle (bindIdentity s conversationId parentId) := ⟨h.toolMessage, h.visible, h.tracking⟩

/-- A value among some texts is not among others. -/
theorem among_eq_false {value : Json} {first : List String} (second : List String)
    (h : value.among first = true) (hdisjoint : ∀ t ∈ first.map String.toList,
      t ∉ second.map String.toList) : value.among second = false := by
  cases value with
  | str t => exact decide_eq_false (hdisjoint t (of_decide_eq_true h))
  | _ => rfl

theorem nullOr_eq_false {value : Json} {first : List String} (second : List String)
    (h : value.among first = true) (hdisjoint : ∀ t ∈ first.map String.toList,
      t ∉ second.map String.toList) : nullOr value second = false := by
  rw [nullOr, among_eq_false second h hdisjoint, Bool.or_false]
  cases value with
  | null => exact Bool.noConfusion h
  | _ => rfl

/-- A private message is not visible. -/
theorem private_not_visible {message : Fields} (h : isPrivate message = true) :
    isVisibleAssistantText message = false := by
  simp only [isPrivate, Bool.and_eq_true, Bool.or_eq_true] at h
  obtain ⟨_, (((hhidden | htype) | hchannel) | hmeta) | hcontent⟩ := h
  · simp [isVisibleAssistantText, hhidden]
  · simp [isVisibleAssistantText, htype]
  · have hnot := nullOr_eq_false ["commentary", "final"] hchannel (by decide)
    simp [isVisibleAssistantText, hnot]
  · have hnot := nullOr_eq_false ["commentary", "final"] hmeta (by decide)
    simp [isVisibleAssistantText, hnot]
  · have hnot := among_eq_false ["text"] hcontent (by decide)
    simp [isVisibleAssistantText, hnot]

theorem private_not_final {message : Fields} (h : isPrivate message = true) :
    isFinalAssistant message = false := by
  rw [Bool.eq_false_iff]
  intro hfinal
  exact Bool.noConfusion ((private_not_visible h).symm.trans (visible_of_final hfinal))

theorem observe_thought {message : Fields} (h : isThought codec message = true)
    (tools : ToolEventCollector) : observe lib codec now tools message = (tools, false) := by
  rw [isThought, Bool.and_eq_true, Bool.not_eq_true'] at h
  obtain ⟨hprivate, henvelope⟩ := h
  simp only [isPrivate, Bool.and_eq_true] at hprivate
  exact observe_prose lib codec now hprivate.1.1 hprivate.1.2 henvelope tools

/-- A private message ends the current one and leaves a trace of its kind only. -/
theorem consume_thought {message : Fields} (h : isThought codec message = true) (s : Decoder)
    (conversationId parentId : Json) :
    consumeMessage lib codec now s message conversationId parentId =
      { s with sawReasoning := s.sawReasoning || isReasoning message, visibleMessageId := none,
               toolMessage := none, tracking := false } := by
  have hprivate : isPrivate message = true := by
    rw [isThought, Bool.and_eq_true] at h
    exact h.1
  unfold consumeMessage rememberVisible
  rw [observe_thought lib codec now h, private_not_visible hprivate, private_not_final hprivate]
  rfl

/-- An event of its own kind keeps the decoder idle, where it holds no message but a private one. -/
theorem idle_consume {s : Decoder} {current : Bool} (h : current = true → Idle s) (event : Fields)
    (hcurrent : currentPrivate codec current event = true) :
    Idle (consume lib codec now s event) := by
  unfold currentPrivate at hcurrent
  by_cases hcontrol : (isErrorEvent event || isCompleteEvent event) = true
  · rw [if_pos hcontrol] at hcurrent
    have hidle := h hcurrent
    unfold consume
    split
    · exact hidle
    · split
      · exact ⟨hidle.toolMessage, hidle.visible, hidle.tracking⟩
      · rw [if_pos (by simpa [*] using hcontrol)]
        exact ⟨hidle.toolMessage, hidle.visible, hidle.tracking⟩
  · rw [if_neg hcontrol] at hcurrent
    rw [Bool.not_eq_true, Bool.or_eq_false_iff] at hcontrol
    cases hmessage : eventMessage event with
    | none =>
      rw [hmessage] at hcurrent
      have hidle := h hcurrent
      unfold consume
      rw [hcontrol.1, hcontrol.2, hmessage]
      split
      · exact hidle
      · have hcounted : Idle { s with progressEvents := s.progressEvents + 1 } :=
          ⟨hidle.toolMessage, hidle.visible, hidle.tracking⟩
        dsimp only
        rw [if_neg Bool.false_ne_true, if_neg Bool.false_ne_true,
          idle_patches lib codec now hcounted]
        exact hcounted
    | some carried =>
      obtain ⟨message, conversationId, parentId⟩ := carried
      rw [hmessage] at hcurrent
      rw [consume_message lib codec now s hmessage hcontrol.1 hcontrol.2,
        consume_thought lib codec now hcurrent]
      exact ⟨rfl, rfl, rfl⟩

theorem isErrorEvent_congr {event event' : Fields} (htype : event.get "type" = event'.get "type")
    (herror : event.get "error" = event'.get "error") :
    isErrorEvent event = isErrorEvent event' := by
  rw [isErrorEvent, isErrorEvent, htype, herror]

theorem isReasoning_congr {message message' : Fields} (h : SameMessage message message') :
    isReasoning message = isReasoning message' := by
  have hauthor := h.1 "author" (by decide)
  have hchannel := h.1 "channel" (by decide)
  have htype := h.2 "content_type" (by decide)
  rw [isReasoning, isReasoning, isAssistant, isAssistant, contentType, contentType,
    hauthor, hchannel, htype]

/-- An error or the end of the stream reads none of the texts. -/
theorem consume_control {event event' : Fields} (hempty : event.isEmpty = event'.isEmpty)
    (hrest : SameExcept ["message", "v"] event event')
    (hcontrol : (isErrorEvent event || isCompleteEvent event) = true) (s : Decoder) :
    consume lib codec now s event = consume lib codec now s event' := by
  have herror := isErrorEvent_congr (hrest "type" (by decide)) (hrest "error" (by decide))
  have hcomplete : isCompleteEvent event = isCompleteEvent event' := by
    rw [isCompleteEvent, isCompleteEvent, hrest "type" (by decide)]
  have hconversation := hrest "conversation_id" (by decide)
  have hparent := hrest "parent_id" (by decide)
  unfold consume
  rw [hempty, herror, hcomplete, hconversation, hparent]
  rw [herror, hcomplete] at hcontrol
  dsimp only
  split
  · rfl
  · split
    · rfl
    · rw [if_pos (by simpa [*] using hcontrol), if_pos (by simpa [*] using hcontrol)]

theorem isEmpty_of_value {event : Fields} (h : (event.get "v").isNull = false) :
    event.isEmpty = false := by
  cases event with
  | nil => exact Bool.noConfusion h
  | cons _ _ => rfl

theorem consume_privatePair {event event' : Fields} (h : PrivatePair codec event event')
    (s : Decoder) :
    consume lib codec now s event = consume lib codec now s event' := by
  obtain ⟨message, message', conversationId, parentId, hmessage, hmessage', hsame, hthought,
    hthought'⟩ := h.carried
  have hempty : event.isEmpty = event'.isEmpty :=
    (isEmpty_of_message hmessage).trans (isEmpty_of_message hmessage').symm
  by_cases hcontrol : (isErrorEvent event || isCompleteEvent event) = true
  · exact consume_control lib codec now hempty h.rest hcontrol s
  · rw [Bool.not_eq_true, Bool.or_eq_false_iff] at hcontrol
    have herror := isErrorEvent_congr (h.rest "type" (by decide)) (h.rest "error" (by decide))
    have hcomplete : isCompleteEvent event = isCompleteEvent event' := by
      rw [isCompleteEvent, isCompleteEvent, h.rest "type" (by decide)]
    rw [consume_message lib codec now s hmessage hcontrol.1 hcontrol.2,
      consume_message lib codec now s hmessage' (herror ▸ hcontrol.1) (hcomplete ▸ hcontrol.2),
      consume_thought lib codec now hthought, consume_thought lib codec now hthought',
      isReasoning_congr hsame]

/-- The values of a patch pair are texts or lists, so neither event carries a message. -/
theorem PatchPair.bare {event event' : Fields} (h : PatchPair event event') :
    event.isEmpty = false ∧ event'.isEmpty = false ∧ eventMessage event' = none := by
  have hmessage := h.rest "message" (by decide)
  have hnone := h.noMessage
  have hvalue : ∀ e : Fields, (e.get "v").isStr = true ∨ (∃ items, e.get "v" = .arr items) →
      e.isEmpty = false ∧ (e.get "v").record = [] := by
    intro e he
    cases hv : e.get "v" with
    | str t => exact ⟨isEmpty_of_value (by rw [hv]; rfl), rfl⟩
    | arr items => exact ⟨isEmpty_of_value (by rw [hv]; rfl), rfl⟩
    | _ => rw [hv] at he; simp [Json.isStr] at he
  obtain ⟨hevent, hevent'⟩ : ((event.get "v").isStr = true ∨ ∃ items, event.get "v" = .arr items) ∧
      ((event'.get "v").isStr = true ∨ ∃ items, event'.get "v" = .arr items) := by
    rcases h.values with ⟨_, hstr, hstr'⟩ | ⟨items, items', hitems, hitems', _⟩
    · exact ⟨Or.inl hstr, Or.inl hstr'⟩
    · exact ⟨Or.inr ⟨items, hitems⟩, Or.inr ⟨items', hitems'⟩⟩
  refine ⟨(hvalue event hevent).1, (hvalue event' hevent').1, ?_⟩
  have hnested : ∀ e : Fields, (e.get "v").record = [] →
      (eventMessage e = none ↔ (e.get "message").record.isEmpty = true) := by
    intro e he
    constructor
    · intro hm
      by_contra hfull
      rw [Bool.not_eq_true] at hfull
      simp only [eventMessage, hfull, Bool.not_false, if_true] at hm
      exact nomatch hm
    · intro hm
      simp only [eventMessage, hm, he, Bool.not_true, if_neg Bool.false_ne_true]
      simp [Fields.get, lookup, Json.record]
  rw [hnested event' (hvalue event' hevent').2, ← hmessage]
  exact (hnested event (hvalue event hevent).2).mp hnone

theorem consume_patchPair {event event' : Fields} (h : PatchPair event event') {s : Decoder}
    (hidle : Idle s) : consume lib codec now s event = consume lib codec now s event' := by
  obtain ⟨hempty, hempty', hnone'⟩ := h.bare
  have hrest : SameExcept ["message", "v"] event event' := by
    intro name hname
    exact h.rest name fun hv => hname (List.mem_cons_of_mem _ hv)
  by_cases hcontrol : (isErrorEvent event || isCompleteEvent event) = true
  · exact consume_control lib codec now (hempty.trans hempty'.symm) hrest hcontrol s
  · rw [Bool.not_eq_true, Bool.or_eq_false_iff] at hcontrol
    have herror := isErrorEvent_congr (hrest "type" (by decide)) (hrest "error" (by decide))
    have hcomplete : isCompleteEvent event = isCompleteEvent event' := by
      rw [isCompleteEvent, isCompleteEvent, hrest "type" (by decide)]
    have hcounted : Idle { s with progressEvents := s.progressEvents + 1 } :=
      ⟨hidle.toolMessage, hidle.visible, hidle.tracking⟩
    unfold consume
    rw [hempty, hempty', ← herror, ← hcomplete, hcontrol.1, hcontrol.2, h.noMessage, hnone']
    dsimp only
    rw [idle_patches lib codec now hcounted, idle_patches lib codec now hcounted]
    rfl

end Steps

section Runs

variable (lib : Stdlib) (codec : Codec)

/-- Streams that differ in private texts only take the decoder through the same states. -/
theorem decode_samePublic {current : Bool} {events events' : List (Stamp × Fields)}
    (h : SamePublic codec current events events') (s : Decoder) (hidle : current = true → Idle s) :
    decodeEvents lib codec s events = decodeEvents lib codec s events' := by
  induction h generalizing s with
  | nil => rfl
  | @same current now event _ _ _ ih =>
    exact ih (consume lib codec now s event) (idle_consume lib codec now hidle event)
  | @thought current now event event' rest rest' hpair _ ih =>
    have hstep := consume_privatePair lib codec now hpair s
    have hrest := ih (consume lib codec now s event) (idle_consume lib codec now hidle event)
    change decodeEvents lib codec (consume lib codec now s event) rest =
      decodeEvents lib codec (consume lib codec now s event') rest'
    rw [← hstep]
    exact hrest
  | @patched now event event' rest rest' hpair _ ih =>
    have hstep := consume_patchPair lib codec now hpair (hidle rfl)
    have hcurrent : currentPrivate codec true event = true := by
      unfold currentPrivate
      rw [hpair.noMessage]
      split <;> rfl
    have hrest := ih (consume lib codec now s event)
      fun _ => idle_consume lib codec now hidle event hcurrent
    change decodeEvents lib codec (consume lib codec now s event) rest =
      decodeEvents lib codec (consume lib codec now s event') rest'
    rw [← hstep]
    exact hrest

/-- Nothing of a snapshot depends on the texts of private messages. -/
theorem private_text_unseen {events events' : List (Stamp × Fields)}
    (h : SamePublic codec false events events') (stopReason : Option StopReason) :
    snapshot lib { decoder := decodeEvents lib codec {} events } stopReason =
      snapshot lib { decoder := decodeEvents lib codec {} events' } stopReason := by
  rw [decode_samePublic lib codec h {} fun hcurrent => Bool.noConfusion hcurrent]

def thoughtEvent (thought : String) : Fields :=
  [("message".toList, .obj
    [("id".toList, .str "m-1".toList),
      ("author".toList, .obj [("role".toList, .str "assistant".toList)]),
      ("recipient".toList, .str "all".toList),
      ("channel".toList, .str "analysis".toList),
      ("content".toList, .obj
        [("content_type".toList, .str "text".toList),
          ("parts".toList, .arr [.str thought.toList])])])]

def deltaEvent (delta : String) : Fields := [("v".toList, .str delta.toList)]

def minute : Stamp := ⟨60, "60.0".toList⟩

def thoughtStream (thought rest : String) : List (Stamp × Fields) :=
  [(minute, thoughtEvent thought), (minute, deltaEvent rest)]

theorem thought_wordings :
    snapshot Service.plainLib
        { decoder := decodeEvents Service.plainLib proseCodec {} (thoughtStream "the key" " is k") }
        none =
      snapshot Service.plainLib
        { decoder := decodeEvents Service.plainLib proseCodec {} (thoughtStream "no" " key") }
        none := by
  apply private_text_unseen
  have hcontent : ∀ parts parts' : Json, SameExcept ["parts", "text"]
      [("content_type".toList, .str "text".toList), ("parts".toList, parts)]
      [("content_type".toList, .str "text".toList), ("parts".toList, parts')] := fun _ _ =>
    ((SameExcept.nil _).cons "parts" (Or.inl (by decide))).cons "content_type" (Or.inr rfl)
  have hpair : PrivatePair proseCodec (thoughtEvent "the key") (thoughtEvent "no") := by
    refine ⟨(SameExcept.nil _).cons "message" (Or.inl (by decide)), _, _, _, _, rfl, rfl,
      ⟨?_, hcontent _ _⟩, by decide +kernel, by decide +kernel⟩
    exact (((((SameExcept.nil _).cons "content" (Or.inl (by decide))).cons "channel"
      (Or.inr rfl)).cons "recipient" (Or.inr rfl)).cons "author" (Or.inr rfl)).cons "id"
      (Or.inr rfl)
  have hdelta : SameExcept ["v"] (deltaEvent " is k") (deltaEvent " key") :=
    (SameExcept.nil _).cons "v" (Or.inl (by decide))
  exact .thought hpair (.patched ⟨hdelta, rfl, Or.inl ⟨hdelta, rfl, rfl⟩⟩ .nil)

end Runs

end Prompta.PrivateReasoning
