import Prompta.Texts

/-!
Display blocks: the user-visible prose of a turn and the markers of its tool
calls, in order. A snapshot's blocks are normalized, merged into the stored
ones by content, and normalized again. The measure of similarity and the case
folding come from the source language's library and stay parameters.
-/
namespace Prompta.DisplayBlocks

open Texts

/-- Library functions whose definition is not part of the repository: `str.casefold`,
`SequenceMatcher(None, .., .., autojunk=False).ratio()` and `sha256(..).hexdigest()`. -/
structure Stdlib where
  casefold : Text → Text
  sequenceRatio : Text → Text → ℚ
  sha256 : Text → String

def maxBlocks : ℕ := 256

def maxChars : ℕ := 2 * 1024 * 1024

inductive BlockKind
  | text
  | tool
  deriving DecidableEq, Repr

structure Block where
  kind : BlockKind
  id : String
  text : Text := []
  toolId : Option String := none
  seenAt : Option String := none
  deriving DecidableEq, Repr

/-- An entry before it is checked: a field is `none` where the entry lacks it or
holds something other than a text there. An entry that is no object has no field. -/
structure RawBlock where
  kind : Option String := none
  id : Option String := none
  text : Option Text := none
  toolId : Option String := none
  seenAt : Option String := none

def Block.raw (b : Block) : RawBlock where
  kind := some (if b.kind = .text then "text" else "tool")
  id := some b.id
  text := if b.kind = .text then some b.text else none
  toolId := b.toolId
  seenAt := b.seenAt

/-- The part of a text after a stem, where it has that stem. -/
def afterStem (stem s : String) : Option Text :=
  if startsWith s stem then some (s.toList.drop stem.toList.length) else none

def numberedId (tail : Text) : Bool :=
  tail.all isDigit && 1 ≤ tail.length && tail.length ≤ 3

def digestId (tail : Text) : Bool := tail.all isLowerHex && tail.length = 24

def validId (id : String) : Bool :=
  (afterStem "text-" id).any numberedId || (afterStem "dom-tool-" id).any numberedId ||
    (afterStem "sse-text-" id).any digestId || (afterStem "sse-tool-" id).any digestId

def callIdChar (c : Char) : Bool :=
  isDigit c || ('a' ≤ c && c ≤ 'z') || ('A' ≤ c && c ≤ 'Z') || c = '_' || c = '.' || c = ':' ||
    c = '-'

def validCallId (id : String) : Bool :=
  id.toList.all callIdChar && 1 ≤ id.toList.length && id.toList.length ≤ 100

def validSeenAt (s : String) : Bool :=
  let whole := s.toList.take 10
  whole.length = 10 && whole.all isDecimal &&
    match s.toList.drop 10 with
    | [] => true
    | '.' :: fraction => fraction.all isDecimal && 1 ≤ fraction.length && fraction.length ≤ 6
    | _ => false

/-- Two renderings of one growing block: a long common opening, then similar. -/
def progressiveVersions (lib : Stdlib) (first second : Text) : Bool :=
  let shorter := if second.length < first.length then second else first
  let longer := if second.length < first.length then first else second
  if shorter.length < 160 || shorter.take 96 ≠ longer.take 96 then false
  else
    let sample := shorter.take 512
    decide (3 / 4 ≤ lib.sequenceRatio sample (longer.take (sample.length + 64)))

def isVersion (lib : Stdlib) (block prior : Block) : Bool :=
  decide (prior.kind = .text) && progressiveVersions lib prior.text block.text

def longest (blocks : List Block) : ℕ := (blocks.map fun b => b.text.length).foldr max 0

/-- One block of `_collapse_progressive_versions`: a longer version takes the place of
the first block it is a version of, and the others go. -/
def collapseStep (lib : Stdlib) (visible : List Block) (block : Block) : List Block :=
  if block.kind ≠ .text then visible ++ [block]
  else
    match visible.filter (isVersion lib block) with
    | [] => visible ++ [block]
    | original :: others =>
      if block.text.length ≤ longest (original :: others) then visible
      else
        visible.takeWhile (fun b => !isVersion lib block b) ++
          { block with id := original.id, seenAt := original.seenAt.or block.seenAt } ::
            (visible.dropWhile fun b => !isVersion lib block b).filter fun b =>
              !isVersion lib block b

def collapseProgressiveVersions (lib : Stdlib) (items : List Block) : List Block :=
  items.foldl (collapseStep lib) []

/-- One entry of `normalize_display_blocks`, after texts of `length` code points. -/
def readBlock (length : ℕ) (candidate : RawBlock) : Option Block :=
  match candidate.kind, candidate.id with
  | some kind, some id =>
    if !validId id then none
    else if kind = "tool" then
      if startsWith id "dom-tool-" then some { kind := .tool, id := id }
      else if startsWith id "sse-tool-" then
        match candidate.toolId with
        | some toolId =>
          if validCallId toolId then some { kind := .tool, id := id, toolId := some toolId }
          else none
        | none => none
      else none
    else if kind = "text" then
      if startsWith id "text-" || startsWith id "sse-text-" then
        match candidate.text with
        | some rawText =>
          if strip rawText = [] || maxChars < length + (strip rawText).length then none
          else
            some { kind := .text, id := id, text := strip rawText,
                   seenAt := candidate.seenAt.filter validSeenAt }
        | none => none
      else none
    else none
  | _, _ => none

def readBlocks (length : ℕ) : List RawBlock → List Block
  | [] => []
  | candidate :: rest =>
    match readBlock length candidate with
    | some block => block :: readBlocks (length + block.text.length) rest
    | none => readBlocks length rest

def normalizeDisplayBlocks (lib : Stdlib) (value : List RawBlock) : List Block :=
  collapseProgressiveVersions lib (readBlocks 0 (value.take maxBlocks))

/-- The column holds the serialized blocks; reading it normalizes them again. -/
def deserializeDisplayBlocks (lib : Stdlib) (stored : List Block) : List Block :=
  normalizeDisplayBlocks lib (stored.map Block.raw)

def joinParagraphs (texts : List Text) : Text := List.intercalate ['\n', '\n'] texts

def textsOf (blocks : List Block) : List Text :=
  (blocks.filter fun b => decide (b.kind = .text)).map Block.text

def displayBlocksText (lib : Stdlib) (stored : List Block) : Text :=
  (joinParagraphs (textsOf (deserializeDisplayBlocks lib stored))).take maxChars

/-- The stored blocks' texts, joined as they stand in the column. -/
def unmergedText (stored : List Block) : Text := joinParagraphs ((textsOf stored).map strip)

/-- Only a saved text that is the blocks' own concatenation is replaced by the
shorter text of the cleaned blocks. -/
def visibleAssistantText (lib : Stdlib) (saved : Text) (stored : List Block) : Text :=
  let compact := displayBlocksText lib stored
  if compact.length < (unmergedText stored).length && strip saved = unmergedText stored then compact
  else saved

/-- The lexicographically greatest of a list of pairs. -/
def maxPair (pairs : List (ℕ × ℕ)) : Option (ℕ × ℕ) :=
  pairs.foldl (fun best p =>
    match best with
    | none => some p
    | some b => if b.1 < p.1 || (b.1 = p.1 && b.2 < p.2) then some p else some b) none

/-- The texts a text block may be matched with: not matched in this snapshot yet,
and for a stream block not the text of another stream block. -/
def mergeCandidates (merged : List Block) (matched : List ℕ) (stable : Bool) : List (ℕ × Text) :=
  (merged.zipIdx.filter fun p =>
    decide (p.2 ∉ matched) && decide (p.1.kind = .text) &&
      (!stable || !startsWith p.1.id "sse-")).map fun p => (p.2, p.1.text)

/-- The stored block that an incoming text block continues, if any. -/
def textIndex (merged : List Block) (matched : List ℕ) (block : Block) : Option ℕ :=
  let stable := startsWith block.id "sse-"
  let candidates := mergeCandidates merged matched stable
  let stableIndex :=
    if stable then merged.findIdx? fun b => decide (b.id = block.id) && decide (b.kind = .text)
    else none
  let exact := (candidates.find? fun p => decide (p.2 = block.text)).map Prod.fst
  let growing := (maxPair ((candidates.filter fun p => p.2.isPrefixOf block.text).map
    fun p => (p.2.length, p.1))).map Prod.snd
  let shrinking := (maxPair ((candidates.filter fun p => block.text.isPrefixOf p.2).map
    fun p => (block.text.length, p.1))).map Prod.snd
  stableIndex.or (exact.or (growing.or shrinking))

def blockIndex (merged : List Block) (matched : List ℕ) (block : Block) : Option ℕ :=
  match block.kind with
  | .tool => merged.findIdx? fun b => decide (b.id = block.id) && decide (b.kind = .tool)
  | .text => textIndex merged matched block

/-- The first unused positional identifier. Fewer than 256 blocks never use all. -/
def freshId (stem : String) (used : List String) : Option String :=
  ((List.range maxBlocks).map fun i => stem ++ toString i).find? fun id => decide (id ∉ used)

/-- The stored block that takes over an incoming text keeps its identifier and time. -/
def grow (old block : Block) : Block :=
  { block with id := old.id, seenAt := old.seenAt.or block.seenAt }

/-- One block of a snapshot: the merged blocks, and the indices matched so far. -/
def mergeStep (acc : List Block × List ℕ) (block : Block) : List Block × List ℕ :=
  let merged := acc.1
  let matched := acc.2
  match blockIndex merged matched block with
  | some index =>
    match block.kind, merged[index]? with
    | .text, some old =>
      if old.text.length ≤ block.text.length
        then (merged.set index (grow old block), index :: matched)
      else (merged, index :: matched)
    | _, _ => (merged, index :: matched)
  | none =>
    if maxBlocks ≤ merged.length then (merged, matched)
    else
      let used := merged.map Block.id
      let stem := if block.kind = .text then "text-" else "dom-tool-"
      let id := if block.id ∈ used then (freshId stem used).getD block.id else block.id
      (merged ++ [{ block with id := id }], merged.length :: matched)

/-- Keep the progress that disappeared from a later snapshot. -/
def mergeDisplayBlocks (lib : Stdlib) (previous : List Block) (incoming : List Block) :
    List Block :=
  if incoming = [] then previous
  else
    let merged := (normalizeDisplayBlocks lib (incoming.map Block.raw)).foldl mergeStep
      (deserializeDisplayBlocks lib previous, [])
    normalizeDisplayBlocks lib (merged.1.map Block.raw)

@[simp] theorem mergeDisplayBlocks_nil (lib : Stdlib) (previous : List Block) :
    mergeDisplayBlocks lib previous [] = previous := by simp [mergeDisplayBlocks]

@[simp] theorem displayBlocksText_nil (lib : Stdlib) : displayBlocksText lib [] = [] := rfl

@[simp] theorem visibleAssistantText_nil (lib : Stdlib) (saved : Text) :
    visibleAssistantText lib saved [] = saved := by
  simp [visibleAssistantText, unmergedText, textsOf, joinParagraphs, List.intercalate]

end Prompta.DisplayBlocks
