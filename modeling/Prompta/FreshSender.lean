import Prompta.DeadLetters
import Prompta.ReplyDispatcher
import Prompta.RetryDelays

/-!
The processes that send fresh chats. Each has one main thread, which claims one delivery at a
time, and a thread for each attempt, which opens a tab, clicks the send control once and
observes what comes of it. The main thread waits for that thread for a limited time, and turns
what it learned into a receipt of the queue. Threads move in any order with those of other
processes; what the browser shows and what lies outside the stores is an input of the move.
-/
namespace Prompta.FreshSender

open Tables Texts DisplayBlocks ToolCalls Schema ResponseStore DeliveryQueue DeadLetters
  ReplyDispatcher

/-- What the workers take from their surroundings. -/
structure Setup extends Libraries where
  classes : RetryDelays.CharClasses
  repr : String → String

def leaseSeconds : Time := 300

def leaseRenewSeconds : Time := 30

def leaseSweepIntervalSeconds : Time := 15

def rateLimitPhrases : List String :=
  ["too many requests", "rate limit", "try again in", "wait a few minutes",
    "you've reached the current usage cap", "you have reached the current usage cap"]

/-- A truth value in an f-string. -/
def shown (b : Bool) : String := if b then "True" else "False"

def occursIn (phrase : String) (t : Text) : Bool := decide (phrase.toList <:+: t)

def isRateLimitedText (p : Setup) (t : Text) : Bool :=
  let lowered := [' '].intercalate (words (t.flatMap p.classes.fold))
  rateLimitPhrases.any fun phrase => occursIn phrase lowered

def isConversationPath (path : String) : Bool := occursIn "/c/" path.toList

def isProvisionalConversationPath (path : String) : Bool :=
  occursIn "/c/local-chatgpt:" (lower path).toList ||
    occursIn "/c/local-chatgpt%3a" (lower path).toList

/-- The exceptions of a send. -/
inductive Failure
  | rateLimited (retryAfter : ℕ) (error : String)
  | notAccepted (error : String)
  | outcomeUnknown (error stage : String)
  | browserUnavailable (error : String)
  | timeout
  | other (error : String)
  deriving DecidableEq

/-- `RateLimitError.from_text` -/
def rateLimitOf (p : Setup) (t : Text) : Failure :=
  let message := if strip t = [] then "ChatGPT rate limit reached".toList else strip t
  .rateLimited (RetryDelays.parseRetryAfter p.classes message) (String.ofList message)

/-- The composer and the controls of the page. -/
structure PageState where
  composer : Text := []
  rateLimitText : Text := []
  sendInProgress : Bool := false

/-- What the driver has captured of the sent request so far. -/
structure SendCapture where
  status : ℕ := 0
  requestId : String := ""
  responseStarted : Bool := false
  fetchError : Bool := false
  ambiguousRequest : Bool := false
  retryAfter : ℕ := 0

/-- `captured_send_response` -/
def SendCapture.isConfirmed (c : SendCapture) : Bool :=
  decide (c.requestId ≠ "") && c.responseStarted && decide (200 ≤ c.status) &&
    decide (c.status < 400)

/-- The status of a request that the server refused. -/
def SendCapture.refusal (c : SendCapture) : Option Failure :=
  if c.status = 429 then
    some (.rateLimited (if c.retryAfter = 0 then RetryDelays.defaultRetryAfter else c.retryAfter)
      "prompta send rate limited")
  else if 400 ≤ c.status ∧ c.status < 500 then
    some (.notAccepted ("prompta send failed with HTTP " ++ toString c.status))
  else none

def transportFailure : Failure :=
  .outcomeUnknown "prompta send transport failed after dispatch" "send_transport"

/-- What one round of the confirmation reads: the capture at its start, the route, the page's
state, the capture again where the state could not be read, and an observed answer. -/
structure Confirmation where
  capture : SendCapture := {}
  path : Option String := none
  state : Option PageState := none
  captureAfter : SendCapture := {}
  observation : Option CaptureResult := none
  ambiguousAfter : Bool := false

/-- The variables of the confirmation. -/
structure Watch where
  dispatchError : Option String := none
  lastComposer : Text := []
  lastPath : String := ""
  lastTransport : Bool := false
  provisionalSeen : Bool := false

inductive Stage
  | start
  | connect
  | openTab
  | awaitComposer
  | freshRoute
  | effort
  | baseline
  | baselineRoute
  | clearDraft
  | verifyClear
  | observePage
  | insertPrompt
  | attachImages
  | verifyPrompt
  | predispatchRoute
  | click
  | confirm
  | markSubmitted
  | activity (observation : Option CaptureResult)
  | receipt (observation : Option CaptureResult)
  | route (observation : Option CaptureResult)
  | handOver (saved : Bool) (observation : Option CaptureResult)
  | capture
  | unavailable
  | ended

/-- The variables of an attempt. -/
structure Progress where
  stage : Stage := .start
  captureOwner : String := ""
  started : Bool := false
  confirmed : Bool := false
  handshake : Bool := false
  error : Option Failure := none
  tabOpenedAt : Time := 0
  page : PageState := {}
  baselinePath : String := ""
  watch : Watch := {}

/-- The thread of one attempt. `quiet` is the mode without any observation. -/
structure Sender extends Progress where
  attempt : ℕ
  sendId : String
  message : Text
  hasImages : Bool := false
  quiet : Bool := false

abbrev Senders := Table Sender ℕ Sender.attempt

/-- A step of the capture after an accepted send. -/
inductive CaptureMove
  | generating
  | write (capture : CaptureResult) (allowOwnedDomMessageUpdate : Bool)
  | route (path : String)
  | renew
  | finish (status : FinishStatus)

/-- What a thread finds outside the stores when it moves. -/
structure Reading where
  now : Time
  monotonic : Time := 0
  raises : Bool := false
  error : String := ""
  answers : Bool := true
  answersFor : String → Bool := fun _ => true
  readable : Bool := true
  admitted : Bool := true
  paused : Bool := false
  maxActive : Option ℕ := none
  jobKnown : Bool := true
  once : Bool := false
  instructions : Text := []
  elapsed : Bool := false
  expired : Bool := false
  path : String := ""
  page : PageState := {}
  slow : Bool := false
  click : ClickReading := {}
  confirmation : Confirmation := {}
  captureOwner : String := ""
  activity : Bool := true
  captureMove : CaptureMove := .finish .interrupted

def Sender.fail (t : Sender) (error : Failure) : Progress :=
  { t.toProgress with stage := .ended, handshake := true, error := some error }

def Sender.raise (t : Sender) (error : String) : Progress :=
  t.fail (if t.started then
      .outcomeUnknown "Prompta failed after dispatch and cannot prove send acceptance"
        "post_dispatch"
    else
      .browserUnavailable (if t.quiet then "Browser unavailable before the send action" else error))

def Sender.goTo (t : Sender) (r : Reading) (next : Stage) : Progress :=
  if r.raises then t.raise r.error else { t.toProgress with stage := next }

def landed : String := "ChatGPT fresh-chat navigation landed on an existing conversation"

def changed : String := "ChatGPT fresh-chat navigation changed to an existing conversation"

def Sender.checkRoute (t : Sender) (r : Reading) (error : String) (next : Progress) :
    Progress :=
  if r.raises then t.raise r.error
  else if isConversationPath r.path then t.raise error
  else next

/-- The last checks before the prompt is typed: the composer is empty, and no limit is
announced. -/
def Sender.ready (p : Setup) (t : Sender) (page : PageState) : Progress :=
  if isRateLimitedText p page.rateLimitText then t.fail (rateLimitOf p page.rateLimitText)
  else { t.toProgress with page := page, stage := .observePage }

def showsPrompt (p : Setup) (t : Sender) (page : PageState) : Bool :=
  decide ((expectedComposerText p.toLibraries t.message).toOption =
    some (normaliseComposerText page.composer))

/-- The click, and what is known when it returns, fails or takes too long. -/
def Sender.clicked (p : Setup) (t : Sender) (r : Reading) : Progress :=
  let attempted : Sender := { t with started := true }
  let click := clickSend p.toLibraries t.message r.click
  let watched (dispatchError : Option String) : Progress :=
    { attempted.toProgress with
      stage := .confirm
      watch := { dispatchError := dispatchError, lastPath := t.baselinePath } }
  if r.slow then watched (some "send_dispatch")
  else if click.2 then watched none
  else if click.1 then watched (some "send_mutation")
  else attempted.raise r.error

/-- The same in the mode without observation. -/
def Sender.clickedQuietly (p : Setup) (t : Sender) (r : Reading) : Progress :=
  let attempted : Sender := { t with started := true }
  let click := clickSend p.toLibraries t.message r.click
  if r.slow then
    attempted.fail (.outcomeUnknown
      "Prompt submission outcome is unknown; automatic resend disabled" "send_dispatch")
  else if click.2 then { attempted.toProgress with stage := .markSubmitted }
  else if click.1 then
    attempted.fail (.outcomeUnknown r.error "send_mutation")
  else
    attempted.fail (.outcomeUnknown
      "Prompt submission outcome is unknown; automatic resend disabled" "send_dispatch")

def Sender.accept (t : Sender) (observation : Option CaptureResult) : Progress :=
  { t.toProgress with stage := .activity observation }

/-- An answer in the tab itself proves the acceptance of a request that failed. -/
def provesAcceptance (path : String) (c : Confirmation) (observation : CaptureResult) : Bool :=
  decide (observation.source = .dom) &&
    (decide (observation.status = .partialText) || decide (observation.status = .complete)) &&
    decide (observation.text ≠ []) && present observation.observerId &&
    present observation.messageId &&
    decide (observation.conversationId = conversationIdFromPath path) && !c.ambiguousAfter

/-- The page generates, with an empty composer, what it did not generate before. -/
def generates (t : Sender) (c : Confirmation) (provisional : Bool) (path : String)
    (state : PageState) : Bool :=
  decide (c.capture.status < 500) && !t.page.sendInProgress && state.sendInProgress &&
    decide (normaliseComposerText state.composer = []) &&
    (!provisional || (conversationIdFromPath path).isSome)

def Sender.confirmRound (p : Setup) (t : Sender) (c : Confirmation) : Progress :=
  match c.capture.refusal with
  | some failure => t.fail failure
  | none =>
    if c.capture.status < 500 ∧ c.capture.fetchError = true then t.fail transportFailure
    else if c.capture.isConfirmed then t.accept none
    else
      let path := c.path.getD t.watch.lastPath
      let provisional := t.watch.provisionalSeen || c.path.any isProvisionalConversationPath
      let watch := { t.watch with lastTransport := false, provisionalSeen := provisional }
      match c.state with
      | none =>
        match c.captureAfter.refusal with
        | some failure => t.fail failure
        | none =>
          if c.captureAfter.isConfirmed then t.accept none
          else
            let moves := isConversationPath path && decide (path ≠ t.baselinePath)
            { t.toProgress with
              watch := { watch with lastPath := if moves then path else watch.lastPath } }
      | some state =>
        if c.capture.status < 500 ∧ isRateLimitedText p state.rateLimitText = true then
          t.fail (rateLimitOf p state.rateLimitText)
        else
          match c.observation.filter fun observation =>
              decide (500 ≤ c.capture.status) && provesAcceptance path c observation with
          | some observation => t.accept (some observation)
          | none =>
            if generates t c provisional path state then t.accept none
            else
              { t.toProgress with
                watch :=
                  { watch with
                    lastComposer := state.composer
                    lastPath := if path = "" then watch.lastPath else path } }

/-- The prompt is still in the composer of the page it was typed into. -/
def remains (p : Setup) (t : Sender) : Bool :=
  decide (t.watch.dispatchError = none) &&
    decide ((expectedComposerText p.toLibraries t.message).toOption =
      some (normaliseComposerText t.watch.lastComposer)) &&
    !t.watch.lastTransport && decide (t.watch.lastPath = t.baselinePath)

/-- The end of the confirmation, on a last look at the capture. -/
def Sender.confirmEnd (p : Setup) (t : Sender) (c : SendCapture) : Progress :=
  if c.status = 429 then
    t.fail (.rateLimited (if c.retryAfter = 0 then RetryDelays.defaultRetryAfter else c.retryAfter)
      "prompta send rate limited")
  else if 500 ≤ c.status then
    t.fail (.outcomeUnknown
      ("prompta send returned HTTP " ++ toString c.status ++ " after dispatch (provisional_chat=" ++
        shown t.watch.provisionalSeen ++ ", persistent_chat=" ++
        shown (conversationIdFromPath t.watch.lastPath).isSome ++
        "); acceptance unverified, no automatic resend") "send_response")
  else if 400 ≤ c.status then
    t.fail (.notAccepted ("prompta send failed with HTTP " ++ toString c.status))
  else if c.fetchError then t.fail transportFailure
  else if c.isConfirmed then t.accept none
  else if remains p t then
    t.fail (.notAccepted "ChatGPT did not accept the prompt; it remained in the composer")
  else
    t.fail (.outcomeUnknown
      ("prompta could not prove the fresh-chat prompt was accepted (composer_empty=" ++
        shown (decide (normaliseComposerText t.watch.lastComposer = [])) ++
        ", transport_confirmed=" ++ shown t.watch.lastTransport ++
        ", conversation_route=" ++ shown (isConversationPath t.watch.lastPath) ++ ")")
      (t.watch.dispatchError.getD "send_confirmation"))

def senderAction (t : Sender) (r : Reading) : Option Service.ResultCall :=
  if r.raises then none
  else
    match t.stage with
    | .markSubmitted => some (.markSubmitted t.sendId)
    | .receipt none =>
      some (.accept t.sendId t.captureOwner (t.tabOpenedAt + maxOwnedTabAgeSeconds))
    | .receipt (some observation) =>
      some (.acceptObserved t.sendId t.captureOwner observation
        (t.tabOpenedAt + maxOwnedTabAgeSeconds))
    | .route _ => some (.bindConversationRoute t.sendId t.captureOwner r.path)
    | .unavailable => some (.unavailable t.sendId)
    | .capture =>
      match r.captureMove with
      | .generating => some (.markGenerating t.sendId t.captureOwner)
      | .write capture allow => some (.write t.sendId t.captureOwner capture allow)
      | .route path => some (.bindConversationRoute t.sendId t.captureOwner path)
      | .renew =>
        some (.renewCaptureDeadline t.sendId t.captureOwner (r.now + maxOwnedTabAgeSeconds))
      | .finish status => some (.finish t.sendId t.captureOwner status)
    | _ => none

/-- The whole dispatch has a hard deadline, up to the end of the confirmation. -/
def Stage.hasDeadline : Stage → Bool
  | .start => false
  | .markSubmitted => false
  | .activity _ => false
  | .receipt _ => false
  | .route _ => false
  | .handOver _ _ => false
  | .capture => false
  | .unavailable => false
  | .ended => false
  | _ => true

def Stage.isClick : Stage → Bool
  | .click => true
  | _ => false

def Stage.isEnded : Stage → Bool
  | .ended => true
  | _ => false

/-- After the receipt: the capture goes on, unless it is complete or has no receipt. -/
def afterHandOver (saved : Bool) (observation : Option CaptureResult) : Stage :=
  if !saved then .unavailable
  else if observation.any fun capture => decide (capture.status = .complete) then .ended
  else .capture

def Sender.resume (p : Setup) (t : Sender) (r : Reading) (ok : Bool) : Progress :=
  if !t.quiet && t.stage.hasDeadline && r.expired then
    ({ t with started := t.started || t.stage.isClick } : Sender).fail .timeout
  else
    match t.stage with
    | .start =>
      if r.raises then t.fail (.other r.error)
      else { t.toProgress with captureOwner := r.captureOwner, stage := .connect }
    | .connect => t.goTo r .openTab
    | .openTab => ({ t with tabOpenedAt := r.now } : Sender).goTo r .awaitComposer
    | .awaitComposer => t.goTo r (if t.quiet then .effort else .freshRoute)
    | .freshRoute => t.checkRoute r landed { t.toProgress with stage := .effort }
    | .effort => t.goTo r (if t.quiet then .insertPrompt else .baseline)
    | .baseline => ({ t with page := r.page } : Sender).goTo r .baselineRoute
    | .baselineRoute =>
      t.checkRoute r changed
        (if normaliseComposerText t.page.composer = [] then
          ({ t with baselinePath := r.path } : Sender).ready p t.page
        else { t.toProgress with baselinePath := r.path, stage := .clearDraft })
    | .clearDraft => t.goTo r .verifyClear
    | .verifyClear =>
      if r.raises then t.raise r.error
      else if normaliseComposerText r.page.composer ≠ [] then
        t.raise "ChatGPT stale new-chat composer could not be cleared"
      else t.ready p r.page
    -- The page's observers are optional.
    | .observePage => { t.toProgress with stage := .insertPrompt }
    | .insertPrompt =>
      t.goTo r (if t.hasImages then .attachImages else if t.quiet then .click else .verifyPrompt)
    | .attachImages => t.goTo r (if t.quiet then .click else .verifyPrompt)
    | .verifyPrompt =>
      if r.raises then t.raise r.error
      else if showsPrompt p t r.page then { t.toProgress with stage := .predispatchRoute }
      else t.raise "ChatGPT composer did not contain the configured prompt"
    | .predispatchRoute =>
      t.checkRoute r (changed ++ " before dispatch") { t.toProgress with stage := .click }
    | .click => if t.quiet then t.clickedQuietly p r else t.clicked p r
    | .confirm =>
      if r.elapsed then t.confirmEnd p r.confirmation.capture else t.confirmRound p r.confirmation
    | .markSubmitted =>
      if r.raises then
        t.fail (.outcomeUnknown
          "Prompt submission outcome is unknown; automatic resend disabled" "send_dispatch")
      else if ok then { t.toProgress with stage := .ended }
      else
        t.fail (.outcomeUnknown "Prompt was submitted but its local receipt could not be saved"
          "receipt_persistence")
    | .activity observation =>
      if r.raises then t.fail (.other r.error)
      else if r.activity then
        { t.toProgress with tabOpenedAt := r.now, stage := .receipt observation }
      else { t.toProgress with stage := .receipt observation }
    | .receipt observation =>
      if !r.raises && ok then { t.toProgress with stage := .route observation }
      else if observation.isSome then
        t.fail (.outcomeUnknown "Accepted owned-tab evidence could not be persisted"
          "receipt_persistence")
      else { t.toProgress with stage := .handOver false observation }
    | .route observation => { t.toProgress with stage := .handOver true observation }
    | .handOver saved observation =>
      { t.toProgress with
        confirmed := true
        handshake := true
        stage := afterHandOver saved observation }
    | .capture =>
      match r.captureMove with
      | .finish _ => { t.toProgress with stage := .ended }
      | _ => t.toProgress
    | .unavailable => { t.toProgress with stage := .ended }
    | .ended => t.toProgress

/-- The exceptions that are a verdict on the send. -/
def Failure.isVerdict : Failure → Bool
  | .rateLimited _ _ => true
  | .notAccepted _ => true
  | .outcomeUnknown _ _ => true
  | _ => false

/-- How `_deliver_one` sees an exception. -/
def Failure.outcome : Failure → AttemptOutcome
  | .rateLimited retryAfter error => .rateLimited retryAfter error
  | .notAccepted error => .notAccepted error
  | .outcomeUnknown error _ => .outcomeUnknown error
  | .browserUnavailable error => .browserUnavailable error
  | .timeout => .unexpected ""
  | .other error => .unexpected error

/-- What the main thread learns from the thread of the attempt, once it no longer waits. -/
def Sender.handedOver (t : Sender) : AttemptOutcome :=
  if t.confirmed then .sent false
  else if !t.handshake then
    .outcomeUnknown "Prompta background dispatch did not return a durable receipt in time"
  else
    match t.error with
    | some .timeout =>
      if t.started then .outcomeUnknown "Prompta delivery deadline expired after dispatch"
      else .browserUnavailable "Prompta delivery deadline expired before dispatch"
    | some failure =>
      if t.started && !failure.isVerdict then
        .outcomeUnknown "Prompta background dispatch failed after send was attempted"
      else failure.outcome
    | none =>
      if t.started then
        .outcomeUnknown "Background delivery ended after dispatch without a receipt"
      else .browserUnavailable "Background delivery ended before dispatch without a receipt"

/-- The send without observation runs in the main thread itself. -/
def Sender.returned (t : Sender) : AttemptOutcome :=
  match t.error with
  | none => .sent false
  | some failure => failure.outcome

inductive RenewerStage
  | waiting
  | renewing
  | ended

structure RenewerProgress where
  stage : RenewerStage := .waiting
  failures : ℕ := 0
  waitSeconds : Time := leaseRenewSeconds
  safeDeadline : Time
  lost : Bool := false

/-- The thread of `_renew_lease_until_done`. -/
structure Renewer extends RenewerProgress where
  attempt : ℕ
  sendId : String
  stopped : Bool := false

abbrev Renewers := Table Renewer ℕ Renewer.attempt

def Renewer.action (t : Renewer) (owner : String) (r : Reading) : Option Service.QueueCall :=
  match t.stage with
  | .renewing => if r.raises then none else some (.renewLease t.sendId owner leaseSeconds)
  | _ => none

/-- How the renewal moves on. A failure is no loss before the safe deadline. -/
def Renewer.resume (t : Renewer) (r : Reading) (ok : Bool) : RenewerProgress :=
  match t.stage with
  | .waiting => { t.toRenewerProgress with stage := if t.stopped then .ended else .renewing }
  | .renewing =>
    if r.raises then
      if t.safeDeadline ≤ r.monotonic then
        { t.toRenewerProgress with failures := t.failures + 1, stage := .ended, lost := true }
      else
        { t.toRenewerProgress with
          failures := t.failures + 1
          waitSeconds := min 2 (t.safeDeadline - r.monotonic)
          stage := .waiting }
    else if ok then
      { t.toRenewerProgress with
        failures := 0
        waitSeconds := leaseRenewSeconds
        safeDeadline := r.monotonic + max 0 (leaseSeconds - leaseRenewSeconds)
        stage := .waiting }
    else { t.toRenewerProgress with stage := .ended, lost := true }
  | .ended => t.toRenewerProgress

inductive Main
  | stopped
  | sweep
  | admission
  | claim
  | check (record : Delivery)
  | cancel (record : Delivery)
  | prepare (record : Delivery) (attempt : ℕ)
  | submittedBefore (record : Delivery) (attempt : ℕ) (message : Text)
  | spawn (record : Delivery) (attempt : ℕ) (message : Text)
  | handoff (record : Delivery) (attempt : ℕ)
  | settle (record : Delivery) (attempt : ℕ) (outcome : AttemptOutcome)

/-- A delivery worker, with the threads it has started. -/
structure Worker where
  owner : String := ""
  fireAndForget : Bool := false
  main : Main := .stopped
  lastLeaseSweep : Option Time := none
  attempts : ℕ := 0
  senders : Senders := Table.empty
  renewers : Renewers := Table.empty

structure World where
  store : Store := Store.empty
  workers : ℕ → Worker := fun _ => {}

def removedError (p : Setup) (record : Delivery) : String :=
  "scheduled job " ++ p.repr (clientJobName record.clientId) ++ " was removed before delivery"

/-- A scheduled job that is no longer defined, and was not due only once. -/
def isRemoved (record : Delivery) (r : Reading) : Bool :=
  decide (clientJobName record.clientId ≠ "") && !r.jobKnown && !r.once

def prefixSystemPrompt (r : Reading) (message : Text) : Text :=
  if strip r.instructions = [] then message
  else message ++ ("\n\n".toList ++ strip r.instructions)

def Worker.sweepDue (w : Worker) (r : Reading) : Bool :=
  w.lastLeaseSweep.all fun last => decide (leaseSweepIntervalSeconds ≤ r.monotonic - last)

/-- The attempt's lease was lost on the way, as far as its renewal knows. -/
def Worker.leaseLost (w : Worker) (attempt : ℕ) : Bool :=
  (w.renewers.lookup attempt).any fun t => t.lost

/-- The outcome that is settled: a lost lease forbids the completion. -/
def Worker.settled (w : Worker) (attempt : ℕ) : AttemptOutcome → AttemptOutcome
  | .sent _ => .sent (w.leaseLost attempt)
  | outcome => outcome

/-- The store after the main thread's next move, with the answer of its operation. -/
def Worker.mainStore (p : Setup) (s : Store) (w : Worker) (r : Reading) :
    Store × Service.Output :=
  if r.raises then (s, .unit)
  else
    match w.main with
    | .sweep =>
      if w.sweepDue r then Service.queueStep s r.now (.expireLeases r.answersFor r.readable)
      else (s, .unit)
    | .claim =>
      Service.queueStep s r.now
        (.claimNext w.owner leaseSeconds w.fireAndForget r.maxActive r.answersFor)
    | .cancel record =>
      Service.queueStep s r.now
        (.failClaim record.sendId w.owner .cancelled (removedError p record) r.answers)
    | .prepare record _ =>
      if strip (prefixSystemPrompt r record.message) = [] then (s, .unit)
      else
        ({ s with
           chats :=
            ensureQueued s.chats record.sendId (prefixSystemPrompt r record.message)
              (clientJobName record.clientId) r.now }, .unit)
    | .settle record attempt outcome =>
      (deliverOne s w.owner record
        { outcome := w.settled attempt outcome, answers := r.answers, now := r.now }, .unit)
    | _ => (s, .unit)

/-- The result says that the prompt was submitted before. -/
def isSubmitted (s : Store) (sendId : String) : Bool :=
  (s.chats.results.lookup sendId).any fun row => decide (row.status = .submitted)

def Worker.release (w : Worker) (attempt : ℕ) : Worker :=
  { w with
    main := .sweep
    renewers := w.renewers.updateAt attempt (fun _ => true)
      (fun t => { t with stopped := true }) fun _ => id rfl }

def Worker.resumeMain (s : Store) (w : Worker) (r : Reading) (answer : Service.Output) : Worker :=
  match w.main with
  | .stopped => w
  | .sweep =>
    if r.raises then w
    else
      { w with
        main := .admission
        lastLeaseSweep := if w.sweepDue r then some r.monotonic else w.lastLeaseSweep }
  | .admission => { w with main := if r.admitted && !r.paused then .claim else .sweep }
  | .claim =>
    match answer with
    | .delivery (some record) => { w with main := .check record }
    | _ => { w with main := .sweep }
  | .check record =>
    if r.raises then { w with main := .sweep }
    else if isRemoved record r then { w with main := .cancel record }
    else
      { w with
        main := .prepare record w.attempts
        attempts := w.attempts + 1
        renewers := w.renewers.insertNew
          { attempt := w.attempts, sendId := record.sendId,
            safeDeadline := r.monotonic + max 0 (leaseSeconds - leaseRenewSeconds) } }
  | .cancel _ => { w with main := .sweep }
  | .prepare record attempt =>
    if r.raises then { w with main := .settle record attempt (.unexpected r.error) }
    else if strip (prefixSystemPrompt r record.message) = [] then
      { w with main := .settle record attempt (.unexpected "prompta prompt is empty") }
    else if w.fireAndForget then
      { w with
        main := .submittedBefore record attempt (prefixSystemPrompt r record.message) }
    else { w with main := .spawn record attempt (prefixSystemPrompt r record.message) }
  | .submittedBefore record attempt message =>
    if r.raises then { w with main := .settle record attempt (.unexpected r.error) }
    else if isSubmitted s record.sendId then
      { w with main := .settle record attempt (.sent false) }
    else { w with main := .spawn record attempt message }
  | .spawn record attempt message =>
    if r.raises && !w.fireAndForget then
      { w with
        main := .settle record attempt
          (.browserUnavailable "Passive capture thread unavailable") }
    else
      { w with
        main := .handoff record attempt
        senders := w.senders.insertNew
          { attempt := attempt, sendId := record.sendId, message := message,
            hasImages := decide (record.images ≠ []), quiet := w.fireAndForget } }
  | .handoff record attempt =>
    match w.senders.lookup attempt with
    | none => w
    | some t =>
      if t.quiet then
        if t.stage.isEnded then { w with main := .settle record attempt t.returned } else w
      else if t.handshake || r.elapsed then
        { w with main := .settle record attempt t.handedOver }
      else w
  | .settle _ attempt _ => w.release attempt

/-- A move of one thread of one worker, of the rest of the service, or the start or death of a
worker. -/
inductive Move
  | service (call : Service.Call) (hcall : isWorkerCall call = false)
  | start (pid : ℕ) (owner : String) (fireAndForget : Bool)
  | main (pid : ℕ) (r : Reading)
  | sender (pid attempt : ℕ) (r : Reading)
  | renewer (pid attempt : ℕ) (r : Reading)
  | kill (pid : ℕ)

def Worker.begin (w : Worker) (owner : String) (fireAndForget : Bool) : Worker :=
  match w.main with
  | .stopped => { owner := owner, fireAndForget := fireAndForget, main := .sweep }
  | _ => w

def Worker.placeSender (w : Worker) (attempt : ℕ) (progress : Progress) : Worker :=
  { w with
    senders := w.senders.updateAt attempt (fun _ => true)
      (fun t => { t with toProgress := progress }) fun _ => id rfl }

def Worker.placeRenewer (w : Worker) (attempt : ℕ) (progress : RenewerProgress) : Worker :=
  { w with
    renewers := w.renewers.updateAt attempt (fun _ => true)
      (fun t => { t with toRenewerProgress := progress }) fun _ => id rfl }

def World.sender (w : World) (pid attempt : ℕ) : Option Sender :=
  (w.workers pid).senders.lookup attempt

def stored (p : Setup) (w : World) : Move → Store × Service.Output
  | .service call _ => Service.step p.lib w.store call
  | .main pid r => (w.workers pid).mainStore p w.store r
  | .sender pid attempt r =>
    match (w.sender pid attempt).bind fun t => senderAction t r with
    | none => (w.store, .unit)
    | some call => Service.resultStep p.lib w.store r.now call
  | .renewer pid attempt r =>
    match ((w.workers pid).renewers.lookup attempt).bind fun t =>
        t.action (w.workers pid).owner r with
    | none => (w.store, .unit)
    | some call => Service.queueStep w.store r.now call
  | _ => (w.store, .unit)

def moved (p : Setup) (w : World) (answer : Service.Output) : Move → ℕ → Worker
  | .start pid owner fireAndForget =>
    Function.update w.workers pid ((w.workers pid).begin owner fireAndForget)
  | .main pid r =>
    Function.update w.workers pid ((w.workers pid).resumeMain w.store r answer)
  | .sender pid attempt r =>
    match w.sender pid attempt with
    | none => w.workers
    | some t =>
      Function.update w.workers pid
        ((w.workers pid).placeSender attempt (t.resume p r (succeeded answer)))
  | .renewer pid attempt r =>
    match (w.workers pid).renewers.lookup attempt with
    | none => w.workers
    | some t =>
      Function.update w.workers pid
        ((w.workers pid).placeRenewer attempt (t.resume r (succeeded answer)))
  | .kill pid => Function.update w.workers pid {}
  | .service _ _ => w.workers

/-- The thread whose move clicks the send control. -/
def clicking (p : Setup) (w : World) : Move → Option Sender
  | .sender pid attempt r =>
    (w.sender pid attempt).filter fun t =>
      t.stage.isClick && (clickSend p.toLibraries t.message r.click).1
  | _ => none

def step (p : Setup) (w : World) (m : Move) : World × Option Sender :=
  ({ store := (stored p w m).1, workers := moved p w (stored p w m).2 m }, clicking p w m)

end Prompta.FreshSender
