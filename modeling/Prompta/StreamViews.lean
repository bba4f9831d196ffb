import Prompta.Runs
import Prompta.ResponseCapture

/-!
The two views of one answer. The display block and the saved text of a message are built from
the same patches by two interpreters, which send a patch without a path to different parts
once the last part is not the first.
-/
namespace Prompta.StreamViews

open Texts DisplayBlocks ToolCalls Schema JsonValues ToolEvents ResponseCapture Runs

section Stream

variable (codec : Codec) (identifier : Text)

/-- Every message that the event carries is the final one of this identifier. -/
def Addresses (event : Fields) : Prop :=
  ∀ message conversationId parentId, eventMessage event = some (message, conversationId, parentId) →
    isFinalAssistant message = true ∧ (readInvocation codec message).isEnvelope = false ∧
      (message.get "id").string = some identifier

end Stream

/-- Both views send the patch to the same part: it names a part, and not the text of the
content, or it names nothing while the last part is the first. -/
def Routed (s : Decoder) (p : Fields) : Prop :=
  s.tracking = true → s.ambiguous = false → (p.get "v").isStr = true →
    match (p.get "p").string with
    | some path => path ≠ "/message/content/text".toList
    | none => s.lastPart = 0

section Steps

variable (lib : Stdlib) (codec : Codec)

def patchStep (now : Stamp) (s : Decoder) (p : Fields) : Decoder × Unit :=
  (patch lib codec now s p, ())

/-- The patches of the event are routed, one after the other. -/
def RoutedEvent (s : Decoder) (event : Stamp × Fields) : Prop :=
  isErrorEvent event.2 = false → isCompleteEvent event.2 = false → eventMessage event.2 = none →
    Meets (patchStep lib codec event.1) Routed { s with progressEvents := s.progressEvents + 1 }
      (eventPatches event.2)

def eventStep (s : Decoder) (event : Stamp × Fields) : Decoder × Unit :=
  (consume lib codec event.1 s event.2, ())

def blockText (identifier : Text) (r : StreamResult) : Text :=
  match r.displayBlocks.find? fun block => decide (block.id = sseBlockId lib "text" identifier) with
  | some block => block.text
  | none => []

end Steps

/-- What is used of a digest. -/
structure HexDigest (lib : Stdlib) : Prop where
  length : ∀ t, (lib.sha256 t).toList.length = 64
  hexadecimal : ∀ t, (lib.sha256 t).toList.all isLowerHex = true

/-- Before the first message. -/
structure Unstarted (s : Decoder) : Prop where
  parts : s.parts = []
  lastPart : s.lastPart = 0
  tracking : s.tracking = false
  seenFinal : s.seenFinal = false
  toolMessage : s.toolMessage = none
  visible : s.visibleMessageId = none
  indices : s.visibleIndices = []
  partsById : s.visiblePartsById = []
  blocks : s.displayBlocks = []

/-- Both views hold the parts of the current message. -/
structure Followed (lib : Stdlib) (identifier : Text) (s : Decoder) : Prop where
  tracking : s.tracking = true
  seenFinal : s.seenFinal = true
  messageId : s.messageId = some identifier
  toolMessage : s.toolMessage = none
  visible : s.visibleMessageId = some identifier
  indices : s.visibleIndices = [(identifier, 0)]
  partsById : lookup s.visiblePartsById identifier = some s.parts
  blocks : s.displayBlocks = [{ kind := .text, id := sseBlockId lib "text" identifier,
                                text := (partsText s.parts).take maxAnswerCharacters }]

/-- An ambiguous stream shows nothing in either view. -/
def Agree (lib : Stdlib) (identifier : Text) (s : Decoder) : Prop :=
  s.ambiguous = true ∨ Unstarted s ∨ Followed lib identifier s

section Parts

theorem partsText_pad (parts : List Text) (index : ℕ) :
    partsText (padParts parts index) = partsText parts := by
  rw [partsText, partsText, padParts, List.filter_append]
  have hnil : (List.replicate (index + 1 - parts.length) ([] : Text)).filter
      (fun part => decide (part ≠ [])) = [] := by
    rw [List.filter_eq_nil_iff]
    intro part hpart
    rw [List.eq_of_mem_replicate hpart]
    exact of_decide_eq_true rfl
  rw [hnil, List.append_nil]

/-- A patch of unknown operation leaves the text. -/
theorem partsText_patched (parts : List Text) (index : ℕ) (operation : Json) (value : Text)
    (h : (patchParts parts index operation value).2 = false) :
    partsText (patchParts parts index operation value).1 = partsText parts := by
  unfold patchParts at h ⊢
  dsimp only at h ⊢
  split at h
  · exact Bool.noConfusion h
  · exact partsText_pad parts index

end Parts

section Ambiguous

/-- The visible text is kept apart from the saved one. -/
theorem refresh_frame (s : Decoder) : (refreshVisibleText s).ambiguous = s.ambiguous ∧
    (refreshVisibleText s).tracking = s.tracking ∧
    (refreshVisibleText s).lastPart = s.lastPart := by
  unfold refreshVisibleText
  split
  · exact ⟨rfl, rfl, rfl⟩
  · dsimp only
    split <;> exact ⟨rfl, rfl, rfl⟩

theorem patchVisible_frame (s : Decoder) (p : Fields) :
    (patchVisibleText s p).ambiguous = s.ambiguous ∧
      (patchVisibleText s p).tracking = s.tracking ∧
      (patchVisibleText s p).lastPart = s.lastPart := by
  unfold patchVisibleText
  split
  · exact ⟨rfl, rfl, rfl⟩
  · split
    · split
      · exact ⟨rfl, rfl, rfl⟩
      · dsimp only
        split
        · exact refresh_frame _
        · exact ⟨rfl, rfl, rfl⟩
    · exact ⟨rfl, rfl, rfl⟩

theorem patchPart_ambiguous (s : Decoder) (p : Fields) (index : ℕ) (value : Json) :
    (patchFinal.patchPart p s index value).ambiguous = s.ambiguous := by
  unfold patchFinal.patchPart
  split
  · split <;> rfl
  · rfl

theorem patchFinal_ambiguous (s : Decoder) (p : Fields) :
    (patchFinal s p).ambiguous = s.ambiguous := by
  unfold patchFinal
  dsimp only
  split
  · split
    · rfl
    · split
      · rfl
      · split
        · exact patchPart_ambiguous s p _ _
        · rfl
  · exact patchPart_ambiguous s p _ _

theorem rememberText_ambiguous (lib : Stdlib) (s : Decoder) (message : Fields) :
    (rememberText lib s message).ambiguous = s.ambiguous := by
  unfold rememberText
  split
  · rfl
  · dsimp only
    split
    · split
      · rfl
      · exact (refresh_frame _).1
    · exact (refresh_frame _).1

theorem rememberVisible_ambiguous (lib : Stdlib) (s : Decoder) (message : Fields) :
    (rememberVisible lib s message false).ambiguous = s.ambiguous := by
  unfold rememberVisible
  dsimp only
  rw [if_neg Bool.false_ne_true]
  split
  · exact rememberText_ambiguous lib _ message
  · rfl

theorem consumeFinal_ambiguous {s : Decoder} (h : s.ambiguous = true) (message : Fields) :
    (consumeFinal s message).ambiguous = true := by
  unfold consumeFinal
  dsimp only
  split
  · rfl
  · exact h

theorem patch_ambiguous (lib : Stdlib) (codec : Codec) (now : Stamp) {s : Decoder}
    (h : s.ambiguous = true) (p : Fields) : (patch lib codec now s p).ambiguous = true := by
  have htext : (patch.patchText p s).ambiguous = true := by
    have hframe := (patchVisible_frame s p).1.trans h
    unfold patch.patchText
    dsimp only
    split
    · rw [patchFinal_ambiguous]
      exact hframe
    · exact hframe
  unfold patch
  split
  · rw [if_pos h]
    exact htext
  · exact htext

end Ambiguous

section Followed

variable {lib : Stdlib} {codec : Codec} {identifier : Text} {s : Decoder} {p : Fields}

/-- The block of the current message shows its parts. -/
theorem refresh_single (h : Followed lib identifier s) (parts : List Text) :
    refreshVisibleText { s with visiblePartsById := assign s.visiblePartsById identifier parts } =
      { s with
        visiblePartsById := assign s.visiblePartsById identifier parts
        displayBlocks := [{ kind := .text, id := sseBlockId lib "text" identifier,
                            text := (partsText parts).take maxAnswerCharacters }] } := by
  have hindex : lookup [(identifier, 0)] identifier = some 0 := by simp [lookup]
  unfold refreshVisibleText
  dsimp only
  rw [h.visible]
  dsimp only
  rw [lookup_assign_self, h.indices, hindex, h.blocks]
  rfl

/-- The visible text of the current message takes the patch in its own parts. -/
theorem patchVisible_followed (h : Followed lib identifier s) {index : ℕ} {value : Text}
    (hindex : partIndex (defaultPath (p.get "p")) = some index) (hvalue : p.get "v" = .str value)
    (hle : index ≤ 16) :
    patchVisibleText s p =
      { s with
        visiblePartsById := assign s.visiblePartsById identifier
          (patchParts s.parts index (p.get "o") value).1
        displayBlocks := [{ kind := .text, id := sseBlockId lib "text" identifier,
                            text := (partsText (patchParts s.parts index (p.get "o") value).1).take
                              maxAnswerCharacters }] } := by
  unfold patchVisibleText
  split
  case h_1 hnone =>
    rw [h.visible] at hnone
    cases hnone
  case h_2 current hcurrent =>
  obtain rfl : identifier = current := Option.some.inj (h.visible.symm.trans hcurrent)
  rw [hindex, hvalue]
  dsimp only
  rw [if_neg (by omega), h.partsById, Option.getD_some]
  cases hknown : (patchParts s.parts index (p.get "o") value).2 with
  | true =>
    rw [if_pos rfl]
    exact refresh_single h _
  | false =>
    rw [if_neg Bool.false_ne_true, partsText_patched _ _ _ _ hknown, ← h.blocks]

theorem patchVisible_other
    (h : ∀ index value, partIndex (defaultPath (p.get "p")) = some index → p.get "v" = .str value →
      16 < index) : patchVisibleText s p = s := by
  unfold patchVisibleText
  split
  · rfl
  · split
    · rename_i index value hindex hvalue
      rw [if_pos (h index value hindex hvalue)]
    · rfl

/-- The part that a patch of the saved text goes to. -/
def finalIndex (s : Decoder) (p : Fields) : Option ℕ :=
  match (p.get "p").string with
  | some path => partIndex path
  | none => some s.lastPart

/-- A patch of the saved text changes one part, or no more than the completion. -/
theorem patchFinal_cases (s : Decoder) (p : Fields) :
    ((∀ index value, finalIndex s p = some index → p.get "v" = .str value → 16 < index) ∧
        ∃ complete, patchFinal s p = { s with complete := complete }) ∨
      ∃ index value, finalIndex s p = some index ∧ p.get "v" = .str value ∧ index ≤ 16 ∧
        ∃ lastPart, patchFinal s p =
          { s with parts := (patchParts s.parts index (p.get "o") value).1
                   lastPart := lastPart } := by
  have hpart : ∀ index, finalIndex s p = some index →
      patchFinal s p = patchFinal.patchPart p s index (p.get "v") →
      ((∀ index value, finalIndex s p = some index → p.get "v" = .str value → 16 < index) ∧
          ∃ complete, patchFinal s p = { s with complete := complete }) ∨
        ∃ index value, finalIndex s p = some index ∧ p.get "v" = .str value ∧ index ≤ 16 ∧
          ∃ lastPart, patchFinal s p =
            { s with parts := (patchParts s.parts index (p.get "o") value).1
                     lastPart := lastPart } := by
    intro index hindex hpatch
    rw [hpatch]
    unfold patchFinal.patchPart
    split
    · rename_i value hvalue
      split
      · rename_i hlarge
        refine Or.inl ⟨?_, s.complete, rfl⟩
        intro other _ hother _
        obtain rfl := Option.some.inj (hindex.symm.trans hother)
        exact hlarge
      · rename_i hsmall
        exact Or.inr ⟨index, value, hindex, hvalue, by omega, _, rfl⟩
    · rename_i hother
      refine Or.inl ⟨?_, s.complete, rfl⟩
      intro _ value _ hvalue
      exact absurd hvalue (hother value)
  cases hpath : (p.get "p").string with
  | none =>
    refine hpart s.lastPart (by rw [finalIndex, hpath]) ?_
    unfold patchFinal
    rw [hpath]
  | some path =>
    have hfinal : finalIndex s p = partIndex path := by rw [finalIndex, hpath]
    by_cases hstatus : path = "/message/status".toList
    · have hnone : partIndex path = none := by rw [hstatus]; decide
      refine Or.inl ⟨fun _ _ hsome _ => ?_,
        s.complete || (p.get "v").among ["finished_successfully"], ?_⟩
      · rw [hfinal, hnone] at hsome
        cases hsome
      · unfold patchFinal
        rw [hpath]
        exact if_pos hstatus
    · by_cases hend : path = "/message/end_turn".toList
      · have hnone : partIndex path = none := by rw [hend]; decide
        refine Or.inl ⟨fun _ _ hsome _ => ?_, s.complete || (p.get "v").isTrue, ?_⟩
        · rw [hfinal, hnone] at hsome
          cases hsome
        · unfold patchFinal
          rw [hpath]
          exact (if_neg hstatus).trans (if_pos hend)
      · cases hindex : partIndex path with
        | none =>
          refine Or.inl ⟨fun _ _ hsome _ => ?_, s.complete, ?_⟩
          · rw [hfinal, hindex] at hsome
            cases hsome
          · unfold patchFinal
            rw [hpath]
            dsimp only
            rw [if_neg hstatus, if_neg hend, hindex]
        | some index =>
          refine hpart index (hfinal.trans hindex) ?_
          unfold patchFinal
          rw [hpath]
          dsimp only
          rw [if_neg hstatus, if_neg hend, hindex]

theorem patch_followed (now : Stamp) (h : Followed lib identifier s)
    (hclear : s.ambiguous = false) :
    patch lib codec now s p = patchFinal (patchVisibleText s p) p := by
  have hframe := patchVisible_frame s p
  unfold patch
  rw [h.toolMessage]
  change patch.patchText p s = _
  unfold patch.patchText
  dsimp only
  rw [hframe.1, hframe.2.1, h.tracking, hclear]
  rfl

/-- A routed patch goes to the same part in both views. -/
theorem routed_index (hrouted : Routed s p) (htracking : s.tracking = true)
    (hclear : s.ambiguous = false) {value : Text} (hvalue : p.get "v" = .str value) :
    finalIndex s p = partIndex (defaultPath (p.get "p")) := by
  have hpath := hrouted htracking hclear (by rw [hvalue]; rfl)
  unfold finalIndex defaultPath
  cases hp : (p.get "p").string with
  | none =>
    rw [hp] at hpath
    dsimp only at hpath ⊢
    rw [hpath]
    decide
  | some path =>
    rw [hp] at hpath
    dsimp only at hpath ⊢
    rw [if_neg hpath]

theorem followed_patch (now : Stamp) (h : Followed lib identifier s) (hclear : s.ambiguous = false)
    (hrouted : Routed s p) : Followed lib identifier (patch lib codec now s p) := by
  have hframe := patchVisible_frame s p
  have hsame : finalIndex (patchVisibleText s p) p = finalIndex s p := by
    rw [finalIndex, hframe.2.2]
    rfl
  rw [patch_followed now h hclear]
  rcases patchFinal_cases (patchVisibleText s p) p with ⟨hnone, complete, hfinal⟩ |
    ⟨index, value, hindex, hvalue, hle, lastPart, hfinal⟩
  · rw [hfinal, patchVisible_other]
    · exact ⟨h.tracking, h.seenFinal, h.messageId, h.toolMessage, h.visible, h.indices, h.partsById,
        h.blocks⟩
    · intro index value hindex hvalue
      refine hnone index value ?_ hvalue
      rw [hsame, routed_index hrouted h.tracking hclear hvalue]
      exact hindex
  · rw [hsame, routed_index hrouted h.tracking hclear hvalue] at hindex
    rw [hfinal, patchVisible_followed h hindex hvalue hle]
    exact ⟨h.tracking, h.seenFinal, h.messageId, h.toolMessage, h.visible, h.indices,
      lookup_assign_self _ _ _, rfl⟩

theorem keepLonger_nil (parts : List Text) : keepLonger [] parts = parts :=
  if_pos (Nat.zero_le _)

/-- The block of the message holds the parts that the saved text keeps. -/
theorem remember_agree (h : Unstarted s ∨ Followed lib identifier s) {message : Fields}
    (hid : (message.get "id").string = some identifier)
    (hvisible : isVisibleAssistantText message = true) :
    ∃ byId, lookup byId identifier = some (keepLonger s.parts (messageParts message)) ∧
      rememberVisible lib s message false =
        { s with
          visibleMessageId := some identifier
          visibleIndices := [(identifier, 0)]
          visiblePartsById := byId
          displayBlocks := [{ kind := .text, id := sseBlockId lib "text" identifier,
                              text := (partsText (keepLonger s.parts (messageParts message))).take
                                maxAnswerCharacters }] } := by
  have hindex : lookup [(identifier, 0)] identifier = some 0 := by simp [lookup]
  unfold rememberVisible rememberText
  dsimp only
  rw [if_neg Bool.false_ne_true, if_pos hvisible, hid]
  dsimp only
  rcases h with h | h
  · rw [h.indices, h.blocks, h.parts, keepLonger_nil]
    refine ⟨assign s.visiblePartsById identifier (messageParts message),
      lookup_assign_self _ _ _, ?_⟩
    have hfresh : lookup ([] : List (Text × ℕ)) identifier = none := rfl
    have hassign : assign ([] : List (Text × ℕ)) identifier 0 = [(identifier, 0)] := rfl
    rw [hfresh, List.length_nil, hassign]
    dsimp only
    rw [if_neg (by decide)]
    unfold refreshVisibleText
    dsimp only
    rw [lookup_assign_self, hindex]
    rfl
  · rw [h.indices, hindex, h.partsById, Option.getD_some]
    refine ⟨assign s.visiblePartsById identifier (keepLonger s.parts (messageParts message)),
      lookup_assign_self _ _ _, ?_⟩
    unfold refreshVisibleText
    dsimp only
    rw [lookup_assign_self, hindex, h.blocks]
    rfl

/-- A final message is taken over by both views. -/
theorem agree_message (now : Stamp) (h : Agree lib identifier s) {message : Fields}
    (hfinal : isFinalAssistant message = true)
    (henvelope : (readInvocation codec message).isEnvelope = false)
    (hid : (message.get "id").string = some identifier) (conversationId parentId : Json) :
    Agree lib identifier (consumeMessage lib codec now s message conversationId parentId) := by
  have hobserve : observe lib codec now s.tools message = (s.tools, false) := by
    simp only [isFinalAssistant, Bool.and_eq_true] at hfinal
    exact observe_prose lib codec now hfinal.1.1.1.1.1.1 hfinal.1.1.1.1.1.2 henvelope s.tools
  let seen : Decoder := { s with sawReasoning := s.sawReasoning || isReasoning message }
  have hconsume : consumeMessage lib codec now s message conversationId parentId =
      consumeFinal (bindIdentity { rememberVisible lib seen message false with toolMessage := none }
        conversationId parentId) message := by
    unfold consumeMessage
    rw [hobserve, hfinal]
    rfl
  rw [hconsume]
  rcases h with hambiguous | h
  · left
    apply consumeFinal_ambiguous
    unfold bindIdentity
    dsimp only
    rw [rememberVisible_ambiguous]
    change (s.ambiguous || _ || _) = true
    rw [hambiguous]
    rfl
  · have hseen : Unstarted seen ∨ Followed lib identifier seen := by
      rcases h with h | h
      · exact Or.inl ⟨h.parts, h.lastPart, h.tracking, h.seenFinal, h.toolMessage, h.visible,
          h.indices, h.partsById, h.blocks⟩
      · exact Or.inr ⟨h.tracking, h.seenFinal, h.messageId, h.toolMessage, h.visible, h.indices,
          h.partsById, h.blocks⟩
    have hcandidate : (s.seenFinal && decide (some identifier ≠ s.messageId)) = false := by
      rcases h with h | h
      · rw [h.seenFinal, Bool.false_and]
      · rw [h.messageId, h.seenFinal]
        simp
    obtain ⟨byId, hlookup, hremember⟩ := remember_agree hseen hid (visible_of_final hfinal)
    rw [hremember]
    unfold consumeFinal bindIdentity
    dsimp only
    rw [hid, hcandidate, if_neg Bool.false_ne_true]
    split
    · rename_i hambiguous
      exact Or.inl hambiguous
    · right
      right
      have hkeep : (if decide
          ((joinLines s.parts).length ≤ (joinLines (messageParts message)).length) = true
          then messageParts message else s.parts) = keepLonger s.parts (messageParts message) := by
        rw [keepLonger]
        simp only [decide_eq_true_eq]
      refine ⟨rfl, rfl, rfl, rfl, rfl, rfl, ?_, ?_⟩
      · dsimp only
        rw [hkeep]
        exact hlookup
      · dsimp only
        rw [hkeep]

end Followed

section Runs

variable (lib : Stdlib) (codec : Codec) {identifier : Text}

theorem unstarted_patch (now : Stamp) {s : Decoder} (h : Unstarted s) (p : Fields) :
    patch lib codec now s p = s := by
  have hvisible : patchVisibleText s p = s := by
    unfold patchVisibleText
    rw [h.visible]
  unfold patch
  rw [h.toolMessage]
  dsimp only
  rw [patch.patchText, hvisible, h.tracking, Bool.false_and]
  rfl

theorem agree_patch (now : Stamp) {s : Decoder} (h : Agree lib identifier s) {p : Fields}
    (hrouted : Routed s p) : Agree lib identifier (patch lib codec now s p) := by
  rcases h with hambiguous | h | h
  · exact Or.inl (patch_ambiguous lib codec now hambiguous p)
  · rw [unstarted_patch lib codec now h]
    exact Or.inr (Or.inl h)
  · cases hclear : s.ambiguous with
    | true => exact Or.inl (patch_ambiguous lib codec now hclear p)
    | false => exact Or.inr (Or.inr (followed_patch now h hclear hrouted))

/-- A change of the other fields leaves both views as they are. -/
theorem Agree.congr {s t : Decoder} (h : Agree lib identifier s)
    (hambiguous : s.ambiguous = true → t.ambiguous = true)
    (hsame : t = { s with conversationId := t.conversationId, parentId := t.parentId,
                          complete := t.complete, ambiguous := t.ambiguous,
                          progressEvents := t.progressEvents, streamError := t.streamError }) :
    Agree lib identifier t := by
  rw [hsame]
  rcases h with h | h | h
  · exact Or.inl (hambiguous h)
  · exact Or.inr (Or.inl ⟨h.parts, h.lastPart, h.tracking, h.seenFinal, h.toolMessage, h.visible,
      h.indices, h.partsById, h.blocks⟩)
  · exact Or.inr (Or.inr ⟨h.tracking, h.seenFinal, h.messageId, h.toolMessage, h.visible, h.indices,
      h.partsById, h.blocks⟩)

/-- One event whose patches are routed. -/
theorem agree_event {s : Decoder} (h : Agree lib identifier s) (event : Stamp × Fields)
    (haddress : Addresses codec identifier event.2) (hrouted : RoutedEvent lib codec s event) :
    Agree lib identifier (consume lib codec event.1 s event.2) := by
  have hcounted : Agree lib identifier { s with progressEvents := s.progressEvents + 1 } :=
    h.congr lib (fun hambiguous => hambiguous) rfl
  unfold consume
  split
  · exact h
  · dsimp only
    split
    · exact hcounted.congr lib (fun hambiguous => hambiguous) rfl
    · rename_i herror
      split
      · refine hcounted.congr lib (fun hambiguous => ?_) rfl
        change (s.ambiguous || _ || _) = true
        change s.ambiguous = true at hambiguous
        rw [hambiguous]
        rfl
      · rename_i hcomplete
        rw [Bool.not_eq_true] at herror hcomplete
        split
        · rename_i message conversationId parentId hmessage
          obtain ⟨hfinal, henvelope, hid⟩ := haddress message conversationId parentId hmessage
          exact agree_message event.1 hcounted hfinal henvelope hid conversationId parentId
        · rename_i hmessage
          have hfinal : ∀ (patches : List Fields) (t : Decoder),
              patches.foldl (patch lib codec event.1) t =
                final (patchStep lib codec event.1) t patches := by
            intro patches
            induction patches with
            | nil => exact fun _ => rfl
            | cons p rest ih => exact fun t => ih _
          rw [hfinal]
          exact meets_invariant (patchStep lib codec event.1) Routed (Agree lib identifier)
            (fun t p hp ht => agree_patch lib codec event.1 ht hp) _ hcounted _
            (hrouted herror hcomplete hmessage)

/-- By induction on the events. -/
theorem agree_run {events : List (Stamp × Fields)}
    (haddress : ∀ event ∈ events, Addresses codec identifier event.2) {s : Decoder}
    (hrouted : Meets (eventStep lib codec) (RoutedEvent lib codec) s events)
    (h : Agree lib identifier s) : Agree lib identifier (final (eventStep lib codec) s events) := by
  induction events generalizing s with
  | nil => exact h
  | cons event rest ih =>
    exact ih (fun e he => haddress e (List.mem_cons_of_mem event he)) hrouted.2
      (agree_event lib codec h event (haddress event List.mem_cons_self) hrouted.1)

theorem startsWith_append (stem : String) (rest : Text) :
    startsWith (String.ofList (stem.toList ++ rest)) stem = true := by
  unfold startsWith
  rw [String.toList_ofList]
  exact List.isPrefixOf_iff_prefix.mpr (List.prefix_append _ _)

theorem afterStem_append (stem : String) (rest : Text) :
    afterStem stem (String.ofList (stem.toList ++ rest)) = some rest := by
  unfold afterStem
  rw [if_pos (startsWith_append stem rest), String.toList_ofList, List.drop_left]

theorem sseBlockId_valid (hdigest : HexDigest lib) (identifier : Text) :
    validId (sseBlockId lib "text" identifier) = true ∧
      startsWith (sseBlockId lib "text" identifier) "sse-text-" = true := by
  have hid : sseBlockId lib "text" identifier =
      String.ofList ("sse-text-".toList ++ (lib.sha256 identifier).toList.take 24) := rfl
  have hdigits : digestId ((lib.sha256 identifier).toList.take 24) = true := by
    rw [digestId, Bool.and_eq_true]
    constructor
    · rw [List.all_eq_true]
      intro c hc
      exact List.all_eq_true.mp (hdigest.hexadecimal identifier) c (List.mem_of_mem_take hc)
    · rw [List.length_take, hdigest.length]
      rfl
  rw [hid]
  constructor
  · have htail := afterStem_append "sse-text-" ((lib.sha256 identifier).toList.take 24)
    unfold validId
    rw [htail, Option.any_some, hdigits, Bool.or_true, Bool.true_or]
  · exact startsWith_append "sse-text-" _

/-- A single text block is normalized to its own text, where it has one. -/
theorem normalize_single {id : String} (hvalid : validId id = true)
    (hstem : startsWith id "sse-text-" = true) {t : Text} (hstrip : strip t = t)
    (hlength : t.length ≤ maxChars) :
    normalizeDisplayBlocks lib [({ kind := .text, id := id, text := t } : Block).raw] =
      if t = [] then [] else [{ kind := .text, id := id, text := t }] := by
  have hread : readBlock 0 ({ kind := .text, id := id, text := t } : Block).raw =
      if t = [] then none else some { kind := .text, id := id, text := t } := by
    have hfits : ¬ maxChars < 0 + t.length := by omega
    by_cases ht : t = []
    · subst ht
      simp [readBlock, Block.raw, hvalid, hstem, hstrip]
    · simp [readBlock, Block.raw, hvalid, hstem, hstrip, ht, hlength]
  have hone : ([({ kind := .text, id := id, text := t } : Block).raw] : List RawBlock).length ≤
      maxBlocks :=
    Nat.le_of_ble_eq_true rfl
  unfold normalizeDisplayBlocks
  rw [List.take_of_length_le hone, readBlocks, hread]
  by_cases ht : t = []
  · rw [if_pos ht, if_pos ht]
    rfl
  · rw [if_neg ht, if_neg ht]
    rfl

/-- Below the cap a snapshot shows the text of the view. -/
theorem snapshot_agree (hdigest : HexDigest lib) {d : Decoder} (h : Agree lib identifier d)
    (hcap : (partsText d.parts).length ≤ maxAnswerCharacters) (stopReason : Option StopReason) :
    blockText lib identifier (snapshot lib { decoder := d } stopReason).1 =
      (snapshot lib { decoder := d } stopReason).1.text := by
  unfold snapshot
  dsimp only
  cases hambiguous : d.ambiguous with
  | true => rfl
  | false =>
    rw [if_neg Bool.false_ne_true]
    rcases h with h | h | h
    · exact Bool.noConfusion (hambiguous.symm.trans h)
    · rw [h.blocks, h.parts]
      rfl
    · obtain ⟨hvalid, hstem⟩ := sseBlockId_valid lib hdigest identifier
      have htext : (partsText d.parts).take maxAnswerCharacters = partsText d.parts :=
        List.take_of_length_le hcap
      have hstrip : strip (partsText d.parts) = partsText d.parts := strip_strip _
      rw [h.blocks, htext, List.map_singleton, normalize_single lib hvalid hstem hstrip hcap]
      unfold blockText
      dsimp only
      by_cases hempty : partsText d.parts = []
      · rw [if_pos hempty, hempty]
        rfl
      · rw [if_neg hempty]
        simp

/-- The block of the message shows the saved text, where every patch is routed alike. -/
theorem views_agree (hdigest : HexDigest lib) (identifier : Text) (events : List (Stamp × Fields))
    (haddress : ∀ event ∈ events, Addresses codec identifier event.2)
    (hrouted : Meets (eventStep lib codec) (RoutedEvent lib codec) {} events)
    (hcap : (partsText (final (eventStep lib codec) {} events).parts).length ≤ maxAnswerCharacters)
    (stopReason : Option StopReason) :
    blockText lib identifier
        (snapshot lib { decoder := final (eventStep lib codec) {} events } stopReason).1 =
      (snapshot lib { decoder := final (eventStep lib codec) {} events } stopReason).1.text := by
  have hstart : Agree lib identifier {} :=
    Or.inr (Or.inl ⟨rfl, rfl, rfl, rfl, rfl, rfl, rfl, rfl, rfl⟩)
  exact snapshot_agree lib hdigest (agree_run lib codec haddress hrouted hstart) hcap stopReason

end Runs

def answerDigest : String := "a461b472cb41a9ec3dee5c90cf8e4a78252c9d82319adf75830031b8c309bfc6"

def streamLib : Stdlib where
  casefold := fun t => t.map Char.toLower
  sequenceRatio := fun a b => if a = b then 1 else 0
  sha256 := fun _ => answerDigest

theorem streamLib_digest : HexDigest streamLib := by
  have hlength : answerDigest.toList.length = 64 := by decide +kernel
  have hdigits : answerDigest.toList.all isLowerHex = true := by decide +kernel
  exact ⟨fun _ => hlength, fun _ => hdigits⟩

def answerMessage (parts : List String) : Fields :=
  [("id".toList, .str "m-1".toList),
    ("author".toList, .obj [("role".toList, .str "assistant".toList)]),
    ("content".toList, .obj
      [("content_type".toList, .str "text".toList),
        ("parts".toList, .arr (parts.map fun part => .str part.toList))])]

def answerStream (parts : List String) (delta : String) : List (Stamp × Fields) :=
  [(⟨60, "60.0".toList⟩, [("message".toList, .obj (answerMessage parts))]),
    (⟨61, "61.0".toList⟩, [("v".toList, .str delta.toList)])]

theorem answerStream_addresses {parts : List String} (delta : String)
    (h : isFinalAssistant (answerMessage parts) = true ∧
      (readInvocation proseCodec (answerMessage parts)).isEnvelope = false ∧
      ((answerMessage parts).get "id").string = some "m-1".toList) :
    ∀ event ∈ answerStream parts delta, Addresses proseCodec "m-1".toList event.2 := by
  intro event hevent message conversationId parentId hmessage
  rcases List.mem_cons.mp hevent with rfl | hevent
  · obtain ⟨rfl, _⟩ := Prod.mk.inj (Option.some.inj hmessage)
    exact h
  · obtain rfl := List.mem_singleton.mp hevent
    exact nomatch hmessage

theorem views_agree_one_part :
    blockText streamLib "m-1".toList (snapshot streamLib
        { decoder := final (eventStep streamLib proseCodec) {} (answerStream ["Hel"] "lo") }
        none).1 =
      (snapshot streamLib
        { decoder := final (eventStep streamLib proseCodec) {} (answerStream ["Hel"] "lo") }
        none).1.text := by
  refine views_agree streamLib proseCodec streamLib_digest "m-1".toList (answerStream ["Hel"] "lo")
    (answerStream_addresses "lo" (by decide +kernel)) ⟨?_, ?_, True.intro⟩ (by decide +kernel) none
  · intro _ _ hnone
    exact nomatch hnone
  · intro _ _ _
    have hlast : (consume streamLib proseCodec ⟨60, "60.0".toList⟩ {}
        [("message".toList, .obj (answerMessage ["Hel"]))]).lastPart = 0 := by decide +kernel
    exact ⟨fun _ _ _ => hlast, True.intro⟩

/-- The delta goes to the first part of the block, and to the last part of the saved text. -/
theorem delta_of_two_parts :
    (∀ event ∈ answerStream ["a", "b"] "c", Addresses proseCodec "m-1".toList event.2) ∧
      blockText streamLib "m-1".toList (snapshot streamLib
        { decoder := final (eventStep streamLib proseCodec) {} (answerStream ["a", "b"] "c")
          } none).1 =
          "ac\nb".toList ∧
      (snapshot streamLib
        { decoder := final (eventStep streamLib proseCodec) {} (answerStream ["a", "b"] "c") }
        none).1.text =
          "a\nbc".toList :=
  ⟨answerStream_addresses "c" (by decide +kernel), by decide +kernel, by decide +kernel⟩

end Prompta.StreamViews
