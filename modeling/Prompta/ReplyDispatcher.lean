import Prompta.AttentionMarkers
import Prompta.ComposerMentions
import Prompta.HistoryRecovery
import Prompta.ReplyChanges

/-!
The processes that send follow-ups. Each has one main thread, which picks queued replies, and
a thread for each reply it dispatches and for each chat whose last message it verifies. A
thread moves between two operations on the stores at a time, in any order with the threads of
the same and of other processes. What the browser shows and what lies outside the stores is
an input of the move.
-/
namespace Prompta.ReplyDispatcher

open Tables Texts DisplayBlocks ToolCalls Schema ResponseStore ReplyStore ComposerMentions
  RecoveryAttempts HistoryRecovery

/-- What the dispatchers take from their surroundings. -/
structure Libraries where
  lib : Stdlib
  letters : Letters
  mentions : List Mention

def words (t : Text) : List Text := (t.splitOnP isSpace).filter fun word => decide (word ≠ [])

def startsLink (t : Text) : Bool :=
  "http://".toList.isPrefixOf t || "https://".toList.isPrefixOf t

/-- The substitution of `_normalise_composer_text`, on words with one space between them. -/
def closeLinks (opened : Bool) : Text → Text
  | [] => []
  | c :: rest =>
    if opened && isSpace c && startsLink rest then closeLinks false rest
    else c :: closeLinks (decide (c = '=' ∨ c = '(')) rest

def normaliseComposerText (t : Text) : Text :=
  closeLinks false (strip ([' '].intercalate (words t)))

def expectedNativeText (parts : List Part) : Text :=
  (parts.map fun part =>
    match part with
    | .prose text => text
    | .mention mention => mention.name ++ [' ']).flatten

def expectedComposerText (p : Libraries) (text : Text) : Except Text Text :=
  (splitNativeMentions p.letters p.mentions text).map fun parts =>
    normaliseComposerText (expectedNativeText parts)

def mentionNames (parts : List Part) : List Text :=
  parts.filterMap fun part =>
    match part with
    | .prose _ => none
    | .mention mention => some mention.name

/-- What `click_send` finds: whether the send control became ready, the composer, and whether
the call returned after the click. -/
structure ClickReading where
  ready : Bool := true
  composer : Text := []
  chips : List Text := []
  returns : Bool := true

/-- The composer shows the message, its mentions as chips. -/
def showsMessage (p : Libraries) (message : Text) (reading : ClickReading) : Bool :=
  match splitNativeMentions p.letters p.mentions message with
  | .error _ => false
  | .ok parts =>
    decide (normaliseComposerText reading.composer =
      normaliseComposerText (expectedNativeText parts)) &&
      (decide (mentionNames parts = []) || decide (reading.chips.map strip = mentionNames parts))

/-- `click_send`: whether the send control was used, and whether the call returned. -/
def clickSend (p : Libraries) (message : Text) (reading : ClickReading) : Bool × Bool :=
  let clicked := reading.ready && showsMessage p message reading
  (clicked, clicked && reading.returns)

/-- What the page shows of the sent message and its answer. -/
structure Proof where
  verified : Bool := false
  complete : Bool := false
  messageId : String := ""
  text : Text := []
  hasAssistant : Option Bool := none
  generating : Option Bool := none
  errorVisible : Bool := false

/-- An update of the page's observers. -/
structure Update where
  capture : CaptureResult
  streamError : Bool := false

/-- A capture that is complete. -/
structure Answer where
  capture : CaptureResult
  complete : capture.status = .complete

def finalAnswer (conversationId : String) (proof : Proof) : Answer where
  capture :=
    { source := .dom, status := .complete, text := proof.text,
      conversationId := some conversationId, messageId := some proof.messageId }
  complete := rfl

/-- The content that last renewed the lease. -/
structure Seen where
  text : Text := []
  toolCalls : List ToolCall := []
  displayBlocks : List Block := []

def hasNewCaptureActivity (update : Option Update) (seen : Seen) : Bool :=
  update.any fun u =>
    (decide (u.capture.source = .sse) && u.capture.verifiedGenerating) ||
      (decide (u.capture.text ≠ []) && decide (u.capture.text ≠ seen.text)) ||
      (decide (u.capture.toolCalls ≠ []) && decide (u.capture.toolCalls ≠ seen.toolCalls)) ||
      (decide (u.capture.displayBlocks ≠ []) &&
        decide (u.capture.displayBlocks ≠ seen.displayBlocks))

def seenAfter (update : Option Update) (seen : Seen) : Seen :=
  match update with
  | none => seen
  | some u =>
    { text := if u.capture.text = [] then seen.text else u.capture.text
      toolCalls := if u.capture.toolCalls = [] then seen.toolCalls else u.capture.toolCalls
      displayBlocks :=
        if u.capture.displayBlocks = [] then seen.displayBlocks else u.capture.displayBlocks }

/-- What one round of the capture loop has read. -/
structure Round where
  update : Option Update := none
  result : Option CaptureResult := none

/-- Where a thread goes on when its answer is not accepted. -/
inductive Otherwise
  | release
  | poll
  | missing (proof : Option Proof)

inductive Stage
  | admission
  | backoff
  | resources
  | slot
  | account
  | connect (again : Bool)
  | openTab
  | awaitParent
  | readComposer
  | prepareComposer (reuse : Bool)
  | reverifyParent
  | checkTyped
  | accountAgain
  | claim
  | click
  | abandon
  | confirm
  | acknowledge (proof : Option Proof)
  | accept (answer : Answer) (responseParentId : String) (otherwise : Otherwise)
  | observe (answer : Answer) (otherwise : Otherwise)
  | poll
  | renew (round : Round)
  | resultTools (round : Round)
  | updateTools (round : Round)
  | judge (round : Round)
  | probe
  | missing (proof : Option Proof)
  | release (raised : Bool)
  | failed
  | leaving

/-- The variables of a dispatch. -/
structure Progress where
  stage : Stage := .admission
  owner : String := ""
  claimed : Bool := false
  completed : Bool := false
  deferred : Bool := false
  seen : Seen := {}
  observedTools : List ToolCall := []
  missingAnswers : ℕ := 0

/-- A thread that dispatches one reply. -/
structure Thread extends Progress where
  pid : ℕ
  turn : ReplyRow

def Thread.replyId (t : Thread) : String := t.turn.replyId

abbrev Threads := Table Thread String Thread.replyId

/-- What a thread finds outside the stores when it moves, and whether its operation on the stores
raises. -/
structure Reading where
  now : Time
  paused : Bool := false
  readBackoff : Bool := false
  resourceBlocked : Bool := false
  fireAndForget : Bool := false
  maxActive : Option ℕ := none
  name : String := ""
  raises : Bool := false
  handled : Bool := true
  retryable : Bool := true
  rateLimited : Bool := false
  verified : Bool := false
  composer : Text := []
  sendInProgress : Bool := false
  click : ClickReading := {}
  confirmed : Bool := false
  proof : Option Proof := none
  elapsed : Bool := false
  round : Round := {}
  onRoute : Bool := true
  stillOnRoute : Bool := true
  activity : Bool := true
  ambiguous : Bool := false
  probeDue : Bool := false
  surfaceFailure : Bool := false
  candidate : Option String := none
  storeFails : Bool := false

/-- `f"{os.getpid()}:{uuid.uuid4().hex}"` -/
def leaseName (pid : ℕ) (name : String) : String := toString pid ++ ":" ++ name

/-- The exception of a browser call, unless it is an unsent reply's rate limit. -/
def raised (t : Thread) (r : Reading) : Stage :=
  .release (!(r.handled && !t.claimed && r.rateLimited))

/-- The page left its branch, and the update names no message. -/
def lostRoute (r : Reading) (u : Update) : Bool :=
  decide (u.capture.source = .dom) && decide (u.capture.status = .unknown) &&
    !present u.capture.messageId && !r.onRoute

def ownUpdate (t : Thread) (r : Reading) (u : Update) : Bool :=
  decide (u.capture.source = .sse) ||
    (decide (u.capture.source = .dom) &&
      decide (u.capture.conversationId = some t.turn.conversationId) &&
      (!present u.capture.messageId || decide (u.capture.messageId ≠ some t.turn.parentId)) &&
      (present u.capture.messageId || present u.capture.observerId) && r.stillOnRoute)

/-- A capture that ends another conversation. -/
def foreignResult (t : Thread) (c : CaptureResult) : Bool :=
  decide (c.status = .complete) &&
    !(decide (c.conversationId = none) || decide (c.conversationId = some t.turn.conversationId))

def namesAnswer (t : Thread) (c : CaptureResult) : Bool :=
  present c.messageId && decide (c.messageId ≠ some t.turn.parentId) && decide (c.text ≠ [])

/-- The tools of the intercepted answer belong to the thread's turn. -/
def ownTools (t : Thread) (r : Reading) (c : CaptureResult) : Bool :=
  decide (c.toolCalls ≠ []) &&
    (decide (c.conversationId = none) || decide (c.conversationId = some t.turn.conversationId)) &&
    !r.ambiguous

def ownProgress (t : Thread) (r : Reading) (u : Update) : Bool :=
  (decide (u.capture.toolCalls ≠ []) || decide (u.capture.displayBlocks ≠ [])) &&
    decide (u.capture.conversationId = some t.turn.conversationId) &&
    (present u.capture.messageId || present u.capture.observerId) && r.onRoute

/-- The intercepted answer of a stream that did not name its conversation. -/
def boundResult (conversationId : String) (c : CaptureResult) : CaptureResult :=
  match c.conversationId with
  | some _ => c
  | none =>
    { source := c.source, status := c.status, text := c.text,
      conversationId := some conversationId, messageId := c.messageId, parentId := c.parentId,
      observerId := c.observerId, toolCalls := c.toolCalls }

theorem boundResult_status (conversationId : String) (c : CaptureResult) :
    (boundResult conversationId c).status = c.status := by
  unfold boundResult
  split <;> rfl

/-- The page's own answer, with the tools that the stream has shown. -/
def withTools (tools : List ToolCall) (c : CaptureResult) : CaptureResult :=
  if tools = [] then c else { c with toolCalls := tools }

theorem withTools_status (tools : List ToolCall) (c : CaptureResult) :
    (withTools tools c).status = c.status := by
  unfold withTools
  split <;> rfl

/-- The end of a round that has read the answer. -/
def judged (t : Thread) (r : Reading) (round : Round) : Stage :=
  if round.result.any (foreignResult t) then .release false
  else
    match round.result.filter fun c => decide (c.status = .complete) && present c.parentId &&
        namesAnswer t c with
    | some c =>
      if decide (c.conversationId = none) && !r.onRoute then .release false
      else if h : c.status = .complete then
        .accept ⟨boundResult t.turn.conversationId c, by rw [boundResult_status, h]⟩
          (orElse c.parentId "") .release
      else .probe
    | none =>
      match round.update.filter fun u => decide (u.capture.source = .dom) &&
          decide (u.capture.status = .complete) &&
          decide (u.capture.conversationId = some t.turn.conversationId) &&
          namesAnswer t u.capture && r.stillOnRoute with
      | some u =>
        if h : u.capture.status = .complete then
          .accept ⟨withTools t.observedTools u.capture, by rw [withTools_status, h]⟩ "" .release
        else .probe
      | none => .probe

/-- The page shows a complete answer to the sent message. -/
def provesAnswer (proof : Proof) : Bool :=
  proof.complete && decide (proof.messageId ≠ "") && decide (proof.text ≠ [])

/-- The page shows the sent message, and that no answer is coming. -/
def showsNoAnswer (proof : Proof) : Bool :=
  proof.verified && decide (proof.hasAssistant = some false) &&
    decide (proof.generating = some false) && decide (proof.text = [])

def Otherwise.stage : Otherwise → Stage
  | .release => .release false
  | .poll => .poll
  | .missing proof => .missing proof

/-- The store operation of the thread's next move. -/
def action (t : Thread) (r : Reading) : Option Service.Action :=
  match t.stage with
  | .resources =>
    if !r.raises && r.resourceBlocked then some (.reply (.markPreflightFailed t.replyId)) else none
  | .claim =>
    if r.raises then none
    else
      some (.queue (.claimReply t.replyId t.owner (r.now + maxOwnedTabAgeSeconds) r.fireAndForget
        r.maxActive))
  | .abandon => some (.reply (.finish t.replyId t.owner true))
  | .acknowledge _ =>
    some (.reply (.acknowledgeSubmission t.replyId t.owner t.turn.conversationId t.turn.parentId))
  | .accept answer responseParentId _ =>
    some (.reply (.accepted t.replyId t.owner t.turn.conversationId t.turn.parentId
      (orElse answer.capture.messageId "") (some responseParentId)))
  | .observe answer _ => some (.reply (.observe t.replyId t.owner answer.capture))
  | .renew _ => some (.reply (.renew t.replyId t.owner (r.now + maxOwnedTabAgeSeconds)))
  | .resultTools round =>
    if !r.raises && r.onRoute then
      (round.result.filter (ownTools t r)).map fun c => .reply (.observeTools t.replyId t.owner
        { c with conversationId := some t.turn.conversationId })
    else none
  | .updateTools round =>
    if r.raises then none
    else
      (round.update.filter (ownProgress t r)).map fun u =>
        .reply (.observeTools t.replyId t.owner u.capture)
  | .release _ =>
    if !t.claimed then
      if t.deferred || r.rateLimited then none
      else some (.reply (.markPreflightFailed t.replyId))
    else if t.completed then none
    else some (.reply (.finish t.replyId t.owner true))
  | .failed => some (.reply (.markPreflightFailed t.replyId))
  | _ => none

/-- A draft in the composer is kept if it is the reply itself. -/
def composerRead (p : Libraries) (t : Thread) (r : Reading) : Stage :=
  match expectedComposerText p t.turn.userText with
  | .error _ => .release true
  | .ok requested =>
    let existing := normaliseComposerText r.composer
    if (decide (existing ≠ []) && decide (existing ≠ requested)) || r.sendInProgress then
      .release false
    else .prepareComposer (decide (existing = requested))

def showsDraft (p : Libraries) (t : Thread) (r : Reading) : Bool :=
  decide ((expectedComposerText p t.turn.userText).toOption =
    some (normaliseComposerText r.composer))

/-- One round of the capture loop up to its renewal. -/
def polled (t : Thread) (r : Reading) (stopped : Bool) : Progress :=
  if r.elapsed || stopped then { t.toProgress with stage := .release false }
  else if r.raises then { t.toProgress with stage := raised t r }
  else if r.round.update.any fun u => lostRoute r u || u.streamError then
    { t.toProgress with stage := .release false }
  else if hasNewCaptureActivity r.round.update t.seen &&
      r.round.update.any (ownUpdate t r) && r.activity then
    { t.toProgress with seen := seenAfter r.round.update t.seen, stage := .renew r.round }
  else { t.toProgress with stage := .resultTools r.round }

/-- How the thread moves on, once its operation succeeded or failed. It is gone after its
last move. -/
def resume (p : Libraries) (t : Thread) (r : Reading) (ok stopped : Bool) : Option Progress :=
  match t.stage with
  | .admission => some { t.toProgress with stage := if r.paused then .leaving else .backoff }
  | .backoff => some { t.toProgress with stage := if r.readBackoff then .leaving else .resources }
  | .resources =>
    some { t.toProgress with
      stage := if r.raises then .failed else if r.resourceBlocked then .leaving else .slot }
  | .slot =>
    if ok then some { t.toProgress with owner := leaseName t.pid r.name, stage := .account }
    else some { t.toProgress with stage := .leaving }
  | .account =>
    some { t.toProgress with
      stage :=
        if r.raises then raised t r
        else if r.resourceBlocked then .release false else .connect false }
  | .connect again =>
    some { t.toProgress with
      stage :=
        if r.raises then if !again && r.retryable then .connect true else raised t r
        else .openTab }
  | .openTab => some { t.toProgress with stage := if r.raises then raised t r else .awaitParent }
  | .awaitParent =>
    some { t.toProgress with
      stage :=
        if r.raises then raised t r else if r.verified then .readComposer else .release false }
  | .readComposer =>
    some { t.toProgress with stage := if r.raises then raised t r else composerRead p t r }
  | .prepareComposer _ =>
    some { t.toProgress with stage := if r.raises then raised t r else .reverifyParent }
  | .reverifyParent =>
    some { t.toProgress with
      stage :=
        if r.raises then raised t r else if r.verified then .checkTyped else .release false }
  | .checkTyped =>
    some { t.toProgress with
      stage :=
        if r.raises then raised t r
        else if showsDraft p t r && !r.sendInProgress then .accountAgain
        else .release false }
  | .accountAgain =>
    some { t.toProgress with
      stage :=
        if r.raises then raised t r else if r.resourceBlocked then .release false else .claim }
  | .claim =>
    if r.raises then some { t.toProgress with stage := raised t r }
    else if ok then some { t.toProgress with claimed := true, stage := .click }
    else some { t.toProgress with deferred := true, stage := .release false }
  | .click =>
    some { t.toProgress with
      stage := if (clickSend p t.turn.userText r.click).2 then .confirm else .abandon }
  | .abandon => some { t.toProgress with stage := .release false }
  | .confirm =>
    some { t.toProgress with
      stage :=
        if r.raises then raised t r
        else if r.confirmed then .acknowledge none
        else if r.proof.any Proof.verified then .acknowledge r.proof
        else .abandon }
  | .acknowledge proof =>
    some { t.toProgress with
      stage :=
        if !ok then .release false
        else
          match proof.filter provesAnswer with
          | some proof => .accept (finalAnswer t.turn.conversationId proof) "" .poll
          | none => .poll }
  | .accept answer _ otherwise =>
    some { t.toProgress with stage := if ok then .observe answer otherwise else otherwise.stage }
  | .observe _ otherwise =>
    if ok then some { t.toProgress with completed := true, stage := .release false }
    else some { t.toProgress with stage := otherwise.stage }
  | .poll => some (polled t r stopped)
  | .renew round => some { t.toProgress with stage := .resultTools round }
  | .resultTools round =>
    some { t.toProgress with
      observedTools :=
        ((round.result.filter (ownTools t r)).map CaptureResult.toolCalls).getD t.observedTools
      stage := if r.raises then raised t r else .updateTools round }
  | .updateTools round =>
    some { t.toProgress with stage := if r.raises then raised t r else .judge round }
  | .judge round =>
    some { t.toProgress with stage := if r.raises then raised t r else judged t r round }
  | .probe =>
    some { t.toProgress with
      stage :=
        if !r.probeDue then .poll
        else
          match r.proof.filter fun proof => proof.verified && provesAnswer proof with
          | some proof =>
            .accept (finalAnswer t.turn.conversationId proof) "" (.missing (some proof))
          | none => .missing r.proof }
  | .missing proof =>
    let missing := proof.any showsNoAnswer
    some { t.toProgress with
      missingAnswers := if missing then t.missingAnswers + 1 else 0
      stage :=
        if (missing && (1 ≤ t.missingAnswers || proof.any Proof.errorVisible)) ||
            r.surfaceFailure then
          .release false
        else .poll }
  | .release raising =>
    some { t.toProgress with stage := if raising || r.raises then .failed else .leaving }
  | .failed => some { t.toProgress with stage := .leaving }
  | .leaving => none

/-- Where a raising operation on the stores leaves a thread. The other stages make none, or
`raises` speaks of theirs. -/
def interrupted : Stage → Option Stage
  | .admission => some .leaving
  | .backoff => some .failed
  | .resources => some .failed
  | .slot => some .failed
  | .claim => some (.release true)
  | .abandon => some (.release true)
  | .acknowledge _ => some (.release true)
  | .accept _ _ _ => some (.release true)
  | .observe _ _ => some (.release true)
  | .renew _ => some (.release true)
  | .resultTools _ => some (.release true)
  | .updateTools _ => some (.release true)
  | .release _ => some .failed
  | .failed => some .leaving
  | _ => none

/-- The thread after its move, also when its operation on the stores raised. -/
def moveOn (p : Libraries) (t : Thread) (r : Reading) (ok stopped : Bool) : Option Progress :=
  match (interrupted t.stage).filter fun _ => r.storeFails with
  | some stage => some { t.toProgress with stage := stage }
  | none => resume p t r ok stopped

/-- Where the main thread is in `pump_queued`. -/
inductive Main
  | idle
  | scanning (left : ℕ) (selected : List String)
  | submitting (left : ℕ) (selected : List String) (sendId : String) (intent : ReplyIntent)
  | admitting (left : ℕ) (selected : List String) (turn : ReplyRow)
  | spawning (left : ℕ) (selected : List String) (turn : ReplyRow)
  | scheduling
  | spawningRecovery (sendId : String)

/-- A turn as `turns` shows it: an original turn has no reply identifier. -/
structure TurnView where
  replyId : String
  isQueued : Bool
  isTerminal : Bool
  conversationId : String
  messageId : String
  userText : Text
  assistantText : Text

def originalView (lib : Stdlib) (now : Time) (r : ResultRow) : TurnView :=
  let status := AttentionMarkers.visibleResultStatus r.status r.liveObservedAt now
  { replyId := "", isQueued := decide (status = .queued)
    isTerminal := isTerminalRun status || decide (status = .outcomeUnknown)
    conversationId := r.conversationId, messageId := r.messageId, userText := r.userText
    assistantText := visibleAssistantText lib r.assistantText r.displayBlocks }

def replyView (lib : Stdlib) (now : Time) (r : ReplyRow) : TurnView :=
  let status := visibleReplyStatus r.status r.liveObservedAt now
  { replyId := r.replyId, isQueued := decide (status = .queued)
    isTerminal := isSettled status || decide (status = .outcomeUnknown)
    conversationId := r.conversationId, messageId := r.messageId, userText := r.userText
    assistantText := visibleReplyText lib r }

def turnViews (lib : Stdlib) (c : Chats) (sendId : String) (now : Time) : List TurnView :=
  match c.results.lookup sendId with
  | none => []
  | some original =>
    originalView lib now original :: (branchRows c sendId).map (replyView lib now)

/-- The exact turn that a recovery verifies, with the message before it. -/
structure Verified where
  latest : TurnView
  previousParent : Option String

/-- The checks of `_recover_exact_parent` on the saved turns. -/
def unverifiedTip (turns : List TurnView) : Option Verified :=
  match (turns.filter fun turn => !turn.isQueued).reverse with
  | [] => none
  | latest :: earlier =>
    if latest.isTerminal && decide (latest.conversationId ≠ "") &&
        decide (latest.messageId = "") && earlier.head?.all fun turn =>
          decide (turn.messageId ≠ "") then
      some ⟨latest, earlier.head?.map TurnView.messageId⟩
    else none

inductive RecoveryStage
  | enter
  | admission
  | inspect
  | pace (verified : Verified)
  | reserve (verified : Verified)
  | browse (verified : Verified)
  | record (verified : Verified) (candidate : String)
  | exit
  | leave

/-- A thread that verifies the last message of a chat. -/
structure Recovery where
  sendId : String
  stage : RecoveryStage

abbrev Recoveries := Table Recovery String Recovery.sendId

/-- `ManualReplyDispatcher`, with the threads it has started: those that dispatch a reply, and
those that verify a chat's last message, on request or scheduled by the pump. -/
structure Dispatcher where
  active : List String := []
  recovering : List String := []
  recoveryScheduled : List String := []
  recoveryCursor : ℕ := 0
  main : Main := .idle
  threads : Threads := Table.empty
  requested : Recoveries := Table.empty
  scheduled : Recoveries := Table.empty

def maxQueuedReplyDispatches : ℕ := 2

def inflightCount (d : Dispatcher) : ℕ :=
  (d.active ++ d.recovering ++ d.recoveryScheduled).dedup.length

/-- `set.add` -/
def added (names : List String) (name : String) : List String :=
  if name ∈ names then names else names ++ [name]

/-- `set.discard` -/
def discarded (names : List String) (name : String) : List String :=
  names.filter fun other => decide (other ≠ name)

structure World where
  store : Store := Store.empty
  attempts : Attempts := Table.empty
  dispatchers : ℕ → Dispatcher := fun _ => {}

def perform (p : Libraries) (s : Store) : Option Service.Call → Store × Service.Output
  | none => (s, .unit)
  | some call => Service.step p.lib s call

def succeeded : Service.Output → Bool
  | .changed ok => ok
  | _ => false

def Stage.isSlot : Stage → Bool
  | .slot => true
  | _ => false

def Stage.isClick : Stage → Bool
  | .click => true
  | _ => false

def isStopped (s : Store) (replyId : String) : Bool :=
  (s.chats.replies.lookup replyId).any fun r => decide (r.status = .stopped)

/-- The thread after its move. Its last move takes the reply out of `_active`. -/
def Dispatcher.place (d : Dispatcher) (replyId : String) : Option Progress → Dispatcher
  | some progress =>
    { d with
      threads := d.threads.updateAt replyId (fun _ => true)
        (fun t => { t with toProgress := progress }) fun _ => id rfl }
  | none =>
    { d with
      active := discarded d.active replyId
      threads := d.threads.delete fun t => decide (t.replyId = replyId) }

/-- The end of the scan: only an empty one verifies a parent. -/
def scanned (selected : List String) : Main := if selected = [] then .scheduling else .idle

def mainAction (d : Dispatcher) (r : Reading) : Option Service.Action :=
  match d.main with
  | .scanning (_ + 1) selected =>
    if maxQueuedReplyDispatches ≤ d.active.length then none
    else some (.reply (.nextQueuedIntent selected))
  | .submitting _ _ sendId intent => some (.reply (.prepare sendId intent))
  | .admitting _ _ turn =>
    if decide (turn.replyId ∉ d.active) && decide (turn.status = .preflightFailed) then
      some (.reply (.retryPreflight turn.replyId))
    else none
  | .spawning _ _ turn =>
    if r.raises then some (.reply (.markPreflightFailed turn.replyId)) else none
  | _ => none

/-- The first candidate from the cursor on that no thread verifies. -/
def nextRecovery (d : Dispatcher) (candidates : List String) : Option (ℕ × String) :=
  (List.range candidates.length).findSome? fun offset =>
    let index := (d.recoveryCursor + offset) % candidates.length
    (candidates[index]?.filter fun sendId => decide (sendId ∉ d.recovering)).map fun sendId =>
      (index, sendId)

/-- The pace or a pause keeps the pump from verifying a parent. -/
def recoveryHeld (a : Attempts) (r : Reading) : Bool :=
  decide (0 < historyRecoveryGlobalPaceRemaining a r.now) ||
    decide (0 < historyRecoverySecurityPauseRemaining a r.now) || r.readBackoff

/-- While recoveries are requested, the pump takes one read in three. -/
def leavesToRequests (w : World) : Bool :=
  decide (pendingManualRecoveryRequests w.store.chats ≠ []) &&
    decide (historyRecoveryGlobalAttemptCount w.attempts % 3 ≠ 0)

def scheduleQueuedParentRecovery (w : World) (d : Dispatcher) (r : Reading) : Dispatcher :=
  let candidates := queuedRecoveryCandidates w.store.chats r.now
  if d.recoveryScheduled ≠ [] ∨ recoveryHeld w.attempts r = true ∨ candidates = [] ∨
      leavesToRequests w = true then
    { d with main := .idle }
  else
    match nextRecovery d candidates with
    | none => { d with main := .idle }
    | some (index, sendId) =>
      { d with
        recoveryScheduled := added d.recoveryScheduled sendId
        recoveryCursor := (index + 1) % candidates.length
        main := .spawningRecovery sendId }

/-- The turn to dispatch, if a failed one could be rearmed. -/
def rearmedTurn (turn : ReplyRow) (answer : Service.Output) : Option ReplyRow :=
  if turn.status = .preflightFailed then
    match answer with
    | .turn (.ok turn) => if turn.status = .prepared then some turn else none
    | _ => none
  else some turn

def resumeMain (w : World) (pid : ℕ) (d : Dispatcher) (r : Reading) (answer : Service.Output) :
    Dispatcher :=
  match d.main with
  | .idle =>
    if r.paused || r.readBackoff ||
        !DeliveryQueue.hasCapacity w.store r.fireAndForget r.maxActive r.now then d
    else { d with main := .scanning maxQueuedReplyDispatches [] }
  | .scanning 0 selected => { d with main := scanned selected }
  | .scanning (left + 1) selected =>
    if maxQueuedReplyDispatches ≤ d.active.length then { d with main := .idle }
    else
      match answer with
      | .intent (some (sendId, intent)) =>
        { d with main := .submitting left (selected ++ [intent.replyId]) sendId intent }
      | _ => { d with main := scanned selected }
  | .submitting left selected _ _ =>
    match answer with
    | .turn (.ok turn) =>
      if turn.status = .prepared ∨ turn.status = .preflightFailed then
        { d with main := .admitting left selected turn }
      else { d with main := .scanning left selected }
    | _ => { d with main := .scanning left selected }
  | .admitting left selected turn =>
    if turn.replyId ∈ d.active then { d with main := .scanning left selected }
    else
      match rearmedTurn turn answer with
      | some turn =>
        { d with
          active := added d.active turn.replyId
          main := .spawning left selected turn }
      | none => { d with main := .scanning left selected }
  | .spawning left selected turn =>
    if r.raises then
      { d with active := discarded d.active turn.replyId, main := .scanning left selected }
    else
      { d with
        threads := d.threads.insertNew { pid := pid, turn := turn }
        main := .scanning left selected }
  | .scheduling => scheduleQueuedParentRecovery w d r
  | .spawningRecovery sendId =>
    if r.raises then
      { d with recoveryScheduled := discarded d.recoveryScheduled sendId, main := .idle }
    else
      { d with scheduled := d.scheduled.insertNew ⟨sendId, .enter⟩, main := .idle }

/-- A raising operation on the stores ends the pump. -/
def interruptedMain (d : Dispatcher) (r : Reading) : Option Dispatcher :=
  match d.main with
  | .idle => some d
  | .scheduling => some { d with main := .idle }
  | .spawning _ _ turn =>
    if r.raises then some { d with active := discarded d.active turn.replyId, main := .idle }
    else none
  | _ => if (mainAction d r).isSome then some { d with main := .idle } else none

def moveMain (w : World) (pid : ℕ) (d : Dispatcher) (r : Reading) (answer : Service.Output) :
    Dispatcher :=
  match (interruptedMain d r).filter fun _ => r.storeFails with
  | some d => d
  | none => resumeMain w pid d r answer

def recoveryAction (v : Recovery) : Option Service.Action :=
  match v.stage with
  | .record verified candidate =>
    match verified.previousParent with
    | none =>
      some (.reply (.recoverOriginalParent v.sendId verified.latest.conversationId candidate
        verified.latest.assistantText))
    | some previousParent =>
      some (.reply (.recoverReplyParent v.sendId verified.latest.replyId
        verified.latest.conversationId previousParent verified.latest.userText
        verified.latest.assistantText candidate))
  | _ => none

def resumeRecovery (p : Libraries) (w : World) (d : Dispatcher) (v : Recovery) (r : Reading)
    (granted : Bool) : RecoveryStage :=
  match v.stage with
  | .enter => if v.sendId ∈ d.recovering then .leave else .admission
  | .admission => if r.paused then .exit else .inspect
  | .inspect =>
    match unverifiedTip (turnViews p.lib w.store.chats v.sendId r.now) with
    | none => .exit
    | some verified => .pace verified
  | .pace verified =>
    if 0 < historyRecoverySecurityPauseRemaining w.attempts r.now ∨ r.readBackoff = true then .exit
    else .reserve verified
  | .reserve verified => if granted then .browse verified else .exit
  | .browse verified =>
    if r.raises || r.rateLimited then .exit
    else
      match r.candidate with
      | none => .exit
      | some candidate => .record verified candidate
  | .record _ _ => .exit
  | .exit => .leave
  | .leave => .leave

/-- A raising operation on the stores ends a recovery's work. -/
def interruptedRecovery : RecoveryStage → Option RecoveryStage
  | .admission => some .exit
  | .inspect => some .exit
  | .pace _ => some .exit
  | .reserve _ => some .exit
  | .record _ _ => some .exit
  | _ => none

def moveRecovery (p : Libraries) (w : World) (d : Dispatcher) (v : Recovery) (r : Reading)
    (granted : Bool) : RecoveryStage :=
  match (interruptedRecovery v.stage).filter fun _ => r.storeFails with
  | some stage => stage
  | none => resumeRecovery p w d v r granted

/-- The recovery after its move: it leaves `_recovering` behind itself, and a scheduled one
`_recovery_scheduled` after that. -/
def Dispatcher.placeScheduled (d : Dispatcher) (v : Recovery) (next : RecoveryStage) :
    Dispatcher :=
  let moved := { d with
    scheduled := d.scheduled.updateAt v.sendId (fun _ => true)
      (fun v => { v with stage := next }) fun _ => id rfl }
  match v.stage with
  | .enter =>
    if v.sendId ∈ d.recovering then moved
    else { moved with recovering := added d.recovering v.sendId }
  | .exit => { moved with recovering := discarded d.recovering v.sendId }
  | .leave =>
    { d with
      recoveryScheduled := discarded d.recoveryScheduled v.sendId
      scheduled := d.scheduled.delete fun other => decide (other.sendId = v.sendId) }
  | _ => moved

def Dispatcher.placeRequested (d : Dispatcher) (v : Recovery) (next : RecoveryStage) :
    Dispatcher :=
  match v.stage with
  | .exit =>
    { d with
      recovering := discarded d.recovering v.sendId
      requested := d.requested.delete fun other => decide (other.sendId = v.sendId) }
  | _ =>
    { d with
      requested := d.requested.updateAt v.sendId (fun _ => true)
        (fun v => { v with stage := next }) fun _ => id rfl }

/-- `recover`, called for a request: a chat is verified by one thread at a time. -/
def Dispatcher.request (d : Dispatcher) (sendId : String) : Dispatcher :=
  if sendId ∈ d.recovering then d
  else
    { d with
      recovering := added d.recovering sendId
      requested := d.requested.insertNew ⟨sendId, .admission⟩ }

/-- A move of one thread of one process, of the rest of the service, or the death of a
process. -/
inductive Move
  | service (call : Service.Call)
  | reads (call : RecoveryAttempts.Call)
  | main (pid : ℕ) (r : Reading)
  | dispatch (pid : ℕ) (replyId : String) (r : Reading)
  | request (pid : ℕ) (sendId : String)
  | requested (pid : ℕ) (sendId : String) (r : Reading)
  | scheduled (pid : ℕ) (sendId : String) (r : Reading)
  | kill (pid : ℕ)

/-- The operation on the stores, unless it raises: then it leaves them as they are. -/
def attempted (r : Reading) (action : Option Service.Action) : Option Service.Call :=
  if r.storeFails then none else action.map fun action => ⟨action, r.now⟩

def storeCall (w : World) : Move → Option Service.Call
  | .service call => some call
  | .main pid r => attempted r (mainAction (w.dispatchers pid) r)
  | .dispatch pid replyId r =>
    ((w.dispatchers pid).threads.lookup replyId).bind fun t => attempted r (action t r)
  | .requested pid sendId r =>
    ((w.dispatchers pid).requested.lookup sendId).bind fun v => attempted r (recoveryAction v)
  | .scheduled pid sendId r =>
    ((w.dispatchers pid).scheduled.lookup sendId).bind fun v => attempted r (recoveryAction v)
  | _ => none

/-- The slot that a recovery takes before it opens the chat. -/
def recoverySlot (v : Recovery) (r : Reading) : Option RecoveryAttempts.Call :=
  match v.stage with
  | .reserve _ => if r.storeFails then none else some ⟨r.now, .reserve .manual⟩
  | _ => none

/-- The slot that a move takes, or another reader's write. -/
def slotCall (w : World) : Move → Option RecoveryAttempts.Call
  | .reads call => some call
  | .dispatch pid replyId r =>
    ((w.dispatchers pid).threads.lookup replyId).bind fun t =>
      if t.stage.isSlot && !r.storeFails then some ⟨r.now, .reserve .history⟩ else none
  | .requested pid sendId r =>
    ((w.dispatchers pid).requested.lookup sendId).bind fun v => recoverySlot v r
  | .scheduled pid sendId r =>
    ((w.dispatchers pid).scheduled.lookup sendId).bind fun v => recoverySlot v r
  | _ => none

def reserve (a : Attempts) : Option RecoveryAttempts.Call → Attempts × Bool
  | none => (a, false)
  | some call => RecoveryAttempts.step a call

/-- The process after its own move. -/
def moved (p : Libraries) (w : World) (answer : Service.Output) (granted : Bool) :
    Move → ℕ → Dispatcher
  | .main pid r =>
    Function.update w.dispatchers pid (moveMain w pid (w.dispatchers pid) r answer)
  | .dispatch pid replyId r =>
    match (w.dispatchers pid).threads.lookup replyId with
    | none => w.dispatchers
    | some t =>
      Function.update w.dispatchers pid ((w.dispatchers pid).place replyId
        (moveOn p t r (succeeded answer || granted) (isStopped w.store replyId)))
  | .request pid sendId =>
    Function.update w.dispatchers pid ((w.dispatchers pid).request sendId)
  | .requested pid sendId r =>
    match (w.dispatchers pid).requested.lookup sendId with
    | none => w.dispatchers
    | some v =>
      Function.update w.dispatchers pid ((w.dispatchers pid).placeRequested v
        (moveRecovery p w (w.dispatchers pid) v r granted))
  | .scheduled pid sendId r =>
    match (w.dispatchers pid).scheduled.lookup sendId with
    | none => w.dispatchers
    | some v =>
      Function.update w.dispatchers pid ((w.dispatchers pid).placeScheduled v
        (moveRecovery p w (w.dispatchers pid) v r granted))
  | .kill pid => Function.update w.dispatchers pid {}
  | _ => w.dispatchers

def clicked (p : Libraries) (w : World) : Move → Option Thread
  | .dispatch pid replyId r =>
    ((w.dispatchers pid).threads.lookup replyId).filter fun t =>
      t.stage.isClick && (clickSend p t.turn.userText r.click).1
  | _ => none

def step (p : Libraries) (w : World) (m : Move) : World × Option Thread :=
  let called := perform p w.store (storeCall w m)
  let slot := reserve w.attempts (slotCall w m)
  ({ store := called.1, attempts := slot.1, dispatchers := moved p w called.2 slot.2 m },
    clicked p w m)

end Prompta.ReplyDispatcher
