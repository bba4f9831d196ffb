import Mathlib.Data.List.Infix
import Mathlib.Logic.Function.Basic
import Prompta.RecentMaps

/-!
The composer of a browser tab and the drafts it keeps. A draft lives in three places: in the
composer on the page, in a map of the tab that holds 48 of them, and in the storage of the
browser, which may be blocked and whose writes may fail. A reply leaves all three when it is
sent, and comes back when the send fails, into the composer that has sent it.
-/
namespace Prompta.ComposerDrafts

open RecentMaps

/-- The code units of a string of the browser. -/
abbrev DraftText := List UInt16

/-- What `trim` removes. -/
def isBlank (u : UInt16) : Bool :=
  decide (9 ≤ u ∧ u ≤ 13) || decide (0x2000 ≤ u ∧ u ≤ 0x200a) ||
    [32, 0xa0, 0x1680, 0x2028, 0x2029, 0x202f, 0x205f, 0x3000, 0xfeff].contains u

def separator : DraftText := [10, 10]

/-- Under which drafts are kept: `prompta.new-chat-draft.v1`, or `prompta.reply-draft.v1.` with
the chat behind it, which are never the same text. -/
inductive DraftKey
  | newChat
  | reply (chatId : String)
  deriving DecidableEq, Repr

inductive Mode
  | fresh
  | reply
  deriving DecidableEq, Repr

/-- The props that the drafts depend on. -/
structure Props where
  mode : Mode
  chatId : Option String
  disabled : Bool := false
  sendDisabled : Bool := false
  restoreDraft : DraftText := []
  retryablePreflight : Bool := false
  offerFreshContinuation : Bool := false
  onFallbackSend : Bool := true
  deriving DecidableEq, Repr

/-- `none` stands for the empty key, under which nothing is kept. -/
def Props.draftStorageKey (p : Props) : Option DraftKey :=
  match p.mode with
  | .fresh => some .newChat
  | .reply => (p.chatId.filter fun chatId => decide (chatId ≠ "")).map .reply

/-- The signals of one composer. -/
structure Controller extends Props where
  draft : DraftText := []
  restoredDraft : DraftText := []
  restoredPreflight : Bool := false
  hydrated : Bool := false
  hydratedKey : Option DraftKey := none
  hasLocalDraft : Bool := false
  sending : Bool := false
  submissionGeneration : ℕ := 0
  fallbackAvailable : Bool := false
  deriving DecidableEq, Repr

def Controller.hasDraft (c : Controller) : Bool := c.draft.any fun u => !isBlank u

def Controller.canSend (c : Controller) : Bool :=
  !c.disabled && !c.sendDisabled && !c.sending && c.hasDraft

def Controller.canFallback (c : Controller) : Bool :=
  decide (c.mode = .reply) && !c.disabled && !c.sending && c.hasDraft &&
    (c.fallbackAvailable || c.offerFreshContinuation) && c.onFallbackSend

/-- A send that waits for its result. A reply has freed its composer. A fresh chat or a fallback
holds it, with the generation and the revision that it has begun with. -/
inductive Waiting
  | freed
  | held (generation revision : ℕ)
  deriving DecidableEq, Repr

structure Send where
  owner : ℕ
  key : Option DraftKey
  submitted : DraftText
  waiting : Waiting
  settled : Bool := false
  deriving DecidableEq, Repr

/-- What a tab and its browser remember. -/
structure Memory where
  drafts : RecentMap DraftKey DraftText
  editRevisions : DraftKey → ℕ
  localStorage : DraftKey → Option DraftText
  storageBlocked : Bool

/-- A composer that has left the page still gets the results of its sends. -/
structure Tab where
  memory : Memory
  controllers : ℕ → Controller
  created : ℕ
  mounted : Option ℕ
  sends : List Send

section Memory

def draftCapacity : ℕ := 48

def draftLimit : ℕ := 32000

def readComposerDraft (m : Memory) (key : Option DraftKey) : Option DraftText :=
  key.bind fun k => m.drafts.lookup k

def edited (m : Memory) (key : DraftKey) : Memory :=
  { m with editRevisions := Function.update m.editRevisions key (m.editRevisions key + 1) }

def rememberComposerDraft (m : Memory) (key : Option DraftKey) (value : DraftText) : Memory :=
  match key with
  | none => m
  | some k =>
    { edited m k with drafts := m.drafts.remember draftCapacity k (value.take draftLimit) }

def clearComposerDraft (m : Memory) (key : Option DraftKey) : Memory :=
  match key with
  | none => m
  | some k => { edited m k with drafts := m.drafts.erase k }

def stored (m : Memory) (key : DraftKey) : Option DraftText :=
  if m.storageBlocked then none else m.localStorage key

def setItem (m : Memory) (key : Option DraftKey) (value : DraftText) (writes : Bool) : Memory :=
  match key with
  | none => m
  | some k =>
    if m.storageBlocked || !writes then m
    else { m with localStorage := Function.update m.localStorage k (some value) }

def keepDraft (m : Memory) (key : Option DraftKey) (value : DraftText) (writes : Bool) : Memory :=
  setItem (rememberComposerDraft m key value) key value writes

/-- What was sent is removed, unless the storage has something else by now. -/
def clearSubmitted (m : Memory) (key : Option DraftKey) (submitted : DraftText) (writes : Bool) :
    Memory :=
  let m := clearComposerDraft m key
  match key with
  | none => m
  | some k =>
    if writes && decide (stored m k = some submitted) then
      { m with localStorage := Function.update m.localStorage k none }
    else m

/-- The draft that the tab has for a key, or else the browser. -/
def savedDraft (m : Memory) (key : DraftKey) : Option DraftText :=
  match m.drafts.lookup key with
  | some draft => some draft
  | none => (stored m key).map fun cached => cached.take draftLimit

/-- A draft that only the browser has is put into the map. -/
def cacheDraft (m : Memory) (key : DraftKey) : Memory :=
  match m.drafts.lookup key, stored m key with
  | none, some cached => rememberComposerDraft m (some key) (cached.take draftLimit)
  | _, _ => m

end Memory

section Composer

def Tab.setController (t : Tab) (i : ℕ) (c : Controller) : Tab :=
  { t with controllers := Function.update t.controllers i c }

def setDraft (t : Tab) (i : ℕ) (value : DraftText) (writes : Bool) : Tab :=
  let c := t.controllers i
  let t := t.setController i
    { c with draft := value, hasLocalDraft := true, fallbackAvailable := false }
  { t with memory := keepDraft t.memory c.draftStorageKey value writes }

def hydrate (t : Tab) (i : ℕ) : Tab :=
  let c := t.controllers i
  let key := c.draftStorageKey
  if key = c.hydratedKey then t
  else
    let saved := key.bind (savedDraft t.memory)
    let t := { t with memory := key.elim t.memory (cacheDraft t.memory) }
    t.setController i
      { c with
        hydratedKey := key
        submissionGeneration := c.submissionGeneration + 1
        draft := saved.getD []
        hasLocalDraft := saved.isSome
        fallbackAvailable := false
        restoredDraft := []
        restoredPreflight := false
        sending := false
        hydrated := true }

/-- The server has another intent for the composer than the one it was given last. -/
def Controller.intentChanged (c : Controller) : Bool :=
  decide (c.mode = .reply) && decide (c.restoreDraft ≠ []) && c.hydrated &&
    !(decide (c.restoredDraft = c.restoreDraft) &&
      decide (c.restoredPreflight = c.retryablePreflight))

def Controller.takesIntent (c : Controller) : Bool :=
  c.intentChanged && !c.sending && !c.hasLocalDraft

def applyIntent (t : Tab) (i : ℕ) (writes : Bool) : Tab :=
  let c := t.controllers i
  if c.intentChanged then
    let known :=
      { c with restoredDraft := c.restoreDraft, restoredPreflight := c.retryablePreflight }
    if c.takesIntent then
      let t := t.setController i { known with draft := c.restoreDraft, hasLocalDraft := true }
      { t with memory := keepDraft t.memory c.draftStorageKey c.restoreDraft writes }
    else t.setController i known
  else t

/-- Both effects follow a change of the props. Which of them is first depends on which signals
have changed, and the other one may follow again. -/
def runEffects (t : Tab) (i : ℕ) (intentFirst writes : Bool) : Tab :=
  let t := if intentFirst then applyIntent t i writes else t
  applyIntent (hydrate t i) i writes

def syncProps (t : Tab) (i : ℕ) (next : Props) (intentFirst writes : Bool) : Tab :=
  runEffects (t.setController i { t.controllers i with toProps := next }) i intentFirst writes

def Tab.addController (t : Tab) (props : Props) : Tab :=
  { t.setController t.created { toProps := props } with
    created := t.created + 1
    mounted := some t.created }

def mount (t : Tab) (props : Props) (writes : Bool) : Tab :=
  runEffects (t.addController props) t.created false writes

end Composer

section Sends

def Controller.accepts (c : Controller) (useFallback : Bool) : Bool :=
  if useFallback then c.canFallback else c.canSend

/-- A reply does not wait in the composer. -/
def Controller.frees (c : Controller) (useFallback : Bool) : Bool :=
  decide (c.mode = .reply) && !useFallback

def submit (t : Tab) (i : ℕ) (useFallback writes : Bool) : Tab :=
  let c := t.controllers i
  let key := c.draftStorageKey
  if c.accepts useFallback then
    if c.frees useFallback then
      let t := { t with memory := clearSubmitted t.memory key c.draft writes }
      let t := t.setController i
        { c with draft := [], hasLocalDraft := false, fallbackAvailable := false }
      { t with
        sends := t.sends ++
          [{ owner := i, key := key, submitted := c.draft, waiting := .freed }] }
    else
      let generation := c.submissionGeneration + 1
      let revision := key.elim 0 t.memory.editRevisions
      let t := t.setController i { c with submissionGeneration := generation, sending := true }
      { t with
        sends := t.sends ++
          [{ owner := i, key := key, submitted := c.draft, waiting := .held generation revision }] }
  else t

inductive Outcome
  | ok
  | refused (fallbackAvailable : Bool)
  | lost
  deriving DecidableEq, Repr

/-- The draft after a failed send: what was sent is put ahead of what the tab has by now. -/
def restored (m : Memory) (send : Send) : DraftText :=
  match (readComposerDraft m send.key).getD [] with
  | [] => send.submitted
  | current => send.submitted ++ separator ++ current

def restore (t : Tab) (send : Send) (fallback writes : Bool) : Tab :=
  let draft := restored t.memory send
  let t := { t with memory := keepDraft t.memory send.key draft writes }
  let c := t.controllers send.owner
  if c.draftStorageKey = send.key then
    t.setController send.owner
      { c with draft := draft, hasLocalDraft := true, fallbackAvailable := fallback }
  else t

/-- The composer is still the one that has begun the held send. -/
def Controller.current (c : Controller) (send : Send) (generation : ℕ) : Bool :=
  decide (generation = c.submissionGeneration) && decide (c.draftStorageKey = send.key)

/-- The result of a held send. `sameImages` tells whether the attachments are those sent, untouched
since. -/
def settleHeld (t : Tab) (send : Send) (generation revision : ℕ) (outcome : Outcome)
    (sameImages writes : Bool) : Tab :=
  let c := t.controllers send.owner
  let cleared := { t with memory := clearSubmitted t.memory send.key send.submitted writes }
  if c.current send generation then
    match outcome with
    | .ok =>
      if c.draft = send.submitted then
        cleared.setController send.owner
          { c with
            draft := []
            hasLocalDraft := false
            fallbackAvailable := false
            sending := false }
      else t.setController send.owner { c with sending := false }
    | .refused fallback =>
      t.setController send.owner { c with fallbackAvailable := fallback, sending := false }
    | .lost => t.setController send.owner { c with sending := false }
  else if outcome = .ok ∧ c.draftStorageKey ≠ send.key ∧
      readComposerDraft t.memory send.key = some send.submitted ∧
      send.key.elim 0 t.memory.editRevisions = revision ∧ sameImages = true then
    cleared
  else t

def settleSend (t : Tab) (send : Send) (outcome : Outcome) (sameImages writes : Bool) : Tab :=
  match send.waiting with
  | .held generation revision => settleHeld t send generation revision outcome sameImages writes
  | .freed =>
    match outcome with
    | .ok => t
    | .refused fallback => restore t send fallback writes
    | .lost => restore t send false writes

def settle (t : Tab) (n : ℕ) (outcome : Outcome) (sameImages writes : Bool) : Tab :=
  match t.sends[n]? with
  | some send =>
    if send.settled then t
    else
      let t := { t with sends := t.sends.set n { send with settled := true } }
      settleSend t send outcome sameImages writes
  | none => t

end Sends

/-- What can happen in a tab. `writes` tells whether the storage takes what is written. -/
inductive Happening
  | edit (value : DraftText) (writes : Bool)
  | submit (useFallback writes : Bool)
  | settle (n : ℕ) (outcome : Outcome) (sameImages writes : Bool)
  | props (next : Props) (intentFirst writes : Bool)
  | unmount
  | mount (props : Props) (writes : Bool)
  deriving DecidableEq, Repr

/-- What happens in the composer happens in the one on the page. -/
def happen (t : Tab) : Happening → Tab
  | .edit value writes => t.mounted.elim t fun i => setDraft t i value writes
  | .submit useFallback writes => t.mounted.elim t fun i => submit t i useFallback writes
  | .settle n outcome sameImages writes => settle t n outcome sameImages writes
  | .props next intentFirst writes =>
    t.mounted.elim t fun i => syncProps t i next intentFirst writes
  | .unmount => { t with mounted := none }
  | .mount props writes => mount t props writes

def opened (storageBlocked : Bool) (localStorage : DraftKey → Option DraftText) : Tab where
  memory := ⟨∅, fun _ => 0, localStorage, storageBlocked⟩
  controllers := fun _ => { mode := .fresh, chatId := none }
  created := 0
  mounted := none
  sends := []

end Prompta.ComposerDrafts
