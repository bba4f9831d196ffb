import Mathlib.Data.List.MinMax
import Mathlib.Data.Prod.Lex
import Mathlib.Order.BooleanAlgebra.Basic
import Prompta.RecoveryAttempts
import Prompta.ReplyStore

/-!
One turn of history recovery: choose an unfinished turn, take the account's read slot, read
the page, and record what was seen. Requested turns go first in the background; the deployment
inventory and, for explicit calls, pinned and other unfinished turns follow. What the browser
shows is an input of the turn.
-/
namespace Prompta.HistoryRecovery

open Tables Texts Schema DisplayBlocks ResponseStore ReplyStore RecoveryAttempts

structure RecoveryState where
  chats : Chats
  attempts : Attempts

/-- What a turn reads: the first answer of a chat, or the answer to a reply. -/
inductive Branch
  | original (sendId : String)
  | reply (replyId parentId : String) (originalPrompt : Text)

def replyTarget (replyId : String) : String := "reply:" ++ replyId

def Branch.target : Branch → String
  | .original sendId => sendId
  | .reply replyId _ _ => replyTarget replyId

/-- A row of the two candidate queries. -/
structure Candidate where
  branch : Branch
  conversationId : String
  userText : Text
  activityAt : Time
  attemptCount : ℕ

def Candidate.target (c : Candidate) : String := c.branch.target

def replyIdOf (target : String) : Option String :=
  if startsWith target "reply:" then some (String.ofList (target.toList.drop 6)) else none

/-- `_ACTIVITY_AT`: a chat moves up with the replies its user queued. -/
def activityAt (c : Chats) (r : ResultRow) : Time :=
  max r.createdAt (((c.replies.rows.filter fun reply =>
    decide (reply.sendId = r.sendId) && reply.queuedByUser).map ReplyRow.createdAt).max?.getD
      r.createdAt)

/-- An unfinished, ownerless turn of a known conversation. -/
def unfinished (r : ResultRow) : Bool :=
  isRecoverable r.status && decide (r.conversationId ≠ "") && decide (r.captureOwner = "")

def wanted (priorityIds : Option (List String)) (k : String) : Bool :=
  priorityIds.all fun ids => decide (k ∈ ids)

def originalCandidate (s : RecoveryState) (r : ResultRow) : Candidate where
  branch := .original r.sendId
  conversationId := r.conversationId
  userText := r.userText
  activityAt := activityAt s.chats r
  attemptCount := attemptCount s.attempts r.sendId

/-- Fewest reads, then the latest activity among pinned chats, then the latest creation. -/
def originalKey (s : RecoveryState) (pinnedOnly : Bool) (r : ResultRow) : ℕ ×ₗ Time ×ₗ Time :=
  toLex (attemptCount s.attempts r.sendId,
    toLex (if pinnedOnly then -activityAt s.chats r else 0, -r.createdAt))

def nextHistoryRecovery (s : RecoveryState) (pinnedOnly : Bool)
    (priorityIds : Option (List String)) : Option Candidate :=
  ((s.chats.results.rows.filter fun r => unfinished r && wanted priorityIds r.sendId &&
    (!pinnedOnly || isPinned s.chats r.sendId)).argmin (originalKey s pinnedOnly)).map
      (originalCandidate s)

/-- A settled reply of the chat whose message, which it has, the reply continues. -/
def namedPredecessor (c : Chats) (r : ReplyRow) : Bool :=
  c.replies.rows.any fun prior =>
    decide (prior.sendId = r.sendId) && decide (prior.conversationId = r.conversationId) &&
      decide (prior.messageId = r.parentId) && decide (prior.replyId ≠ r.replyId) &&
      decide (prior.messageId ≠ "") && isSettled prior.status

/-- `_recovery_conditions`: an unanswered reply on a verified branch of its chat. -/
def verifiedReply (c : Chats) (r : ReplyRow) : Bool :=
  detachedReply r && decide (r.conversationId ≠ "") &&
    (c.results.lookup r.sendId).any fun original =>
      decide (r.conversationId = original.conversationId) && isTerminalRun original.status &&
        (decide (r.parentId = original.messageId) || namedPredecessor c r)

def originalPrompt (c : Chats) (r : ReplyRow) : Text :=
  (c.results.lookup r.sendId).elim [] ResultRow.userText

def replyCandidate (s : RecoveryState) (r : ReplyRow) : Candidate where
  branch := .reply r.replyId r.parentId (originalPrompt s.chats r)
  conversationId := r.conversationId
  userText := r.userText
  activityAt := r.createdAt
  attemptCount := attemptCount s.attempts (replyTarget r.replyId)

def replyKey (s : RecoveryState) (r : ReplyRow) : ℕ ×ₗ Time :=
  toLex (attemptCount s.attempts (replyTarget r.replyId), -r.createdAt)

def nextHistoryReplyRecovery (s : RecoveryState) (pinnedOnly : Bool)
    (priorityIds : Option (List String)) : Option Candidate :=
  ((s.chats.replies.rows.filter fun r => verifiedReply s.chats r && wanted priorityIds r.replyId &&
    (!pinnedOnly || isPinned s.chats r.sendId)).argmin (replyKey s)).map (replyCandidate s)

/-- `_newest_pinned_due`: the fewest reads, then the latest activity. -/
def newestPinnedDue (s : RecoveryState) : Option Candidate :=
  ((nextHistoryRecovery s true none).toList ++
    (nextHistoryReplyRecovery s true none).toList).argmin fun c =>
      (toLex (c.attemptCount, -c.activityAt) : ℕ ×ₗ Time)

/-- The deployment inventory of `deployment_recovery_priority`. -/
structure Inventory where
  sends : List String := []
  replies : List String := []

def automaticOptions (s : RecoveryState) (inventory : Inventory) (deploymentOnly : Bool) :
    List (Bool × Candidate) :=
  ((nextHistoryReplyRecovery s false (some inventory.replies)).toList.map fun c => (true, c)) ++
    ((nextHistoryRecovery s false (some inventory.sends)).toList.map fun c => (true, c)) ++
    if deploymentOnly then []
    else ((nextHistoryReplyRecovery s false none).toList.map fun c => (false, c)) ++
      (nextHistoryRecovery s false none).toList.map fun c => (false, c)

/-- `_next_automatic_candidate`: as among the pinned, and at last the deployment's own. -/
def nextAutomaticCandidate (s : RecoveryState) (inventory : Inventory) (deploymentOnly : Bool) :
    Option Candidate :=
  ((automaticOptions s inventory deploymentOnly).argmin fun item =>
    (toLex (item.2.attemptCount, toLex (-item.2.activityAt, !item.1)) :
      ℕ ×ₗ Time ×ₗ Bool)).map Prod.snd

/-- The turn of a request, when its row may be read now. -/
def requestedTurn (s : RecoveryState) (target : String) : Option Candidate :=
  match replyIdOf target with
  | some replyId => nextHistoryReplyRecovery s false (some [replyId])
  | none => nextHistoryRecovery s false (some [target])

def endedResult : ResultStatus → Bool
  | .completed => true
  | .stopped => true
  | _ => false

def endedReply : ReplyStatus → Bool
  | .completed => true
  | .stopped => true
  | .cancelled => true
  | _ => false

/-- A request of a turn that is gone or has ended. -/
def consumed (s : RecoveryState) (target : String) : Bool :=
  match replyIdOf target with
  | some replyId => (s.chats.replies.lookup replyId).all fun r => endedReply r.status
  | none => (s.chats.results.lookup target).all fun r => endedResult r.status

def clearManualRecoveryRequest (c : Chats) (target : String) : Chats :=
  { c with recoveryRequests := c.recoveryRequests.filter fun r => decide (r.targetId ≠ target) }

def deferManualRecoveryRequest (c : Chats) (target : String) (now : Time) : Chats :=
  { c with recoveryRequests := c.recoveryRequests.map fun r =>
      if r.targetId = target then { r with requestedAt := now } else r }

def requestOrder (a b : RecoveryRequest) : Prop :=
  a.requestedAt < b.requestedAt ∨ (a.requestedAt = b.requestedAt ∧ a.targetId ≤ b.targetId)

instance : DecidableRel requestOrder := fun a b =>
  inferInstanceAs (Decidable (a.requestedAt < b.requestedAt ∨
    (a.requestedAt = b.requestedAt ∧ a.targetId ≤ b.targetId)))

def pendingManualRecoveryRequests (c : Chats) : List String :=
  (c.recoveryRequests.insertionSort requestOrder).map RecoveryRequest.targetId

/-- `_next_requested_candidate`: the first of the requests read least often. Requests that
nothing is left of are dropped on the way. -/
def nextRequestedCandidate (s : RecoveryState) (requests : List String) :
    RecoveryState × Option Candidate :=
  let dropped := requests.filter fun target =>
    decide (requestedTurn s target = none) && consumed s target
  ({ s with chats := dropped.foldl clearManualRecoveryRequest s.chats },
    (requests.filterMap (requestedTurn s)).argmin Candidate.attemptCount)

def addRequest (sendId : String) (now : Time) (c : Chats) (target : String) : Chats :=
  if c.recoveryRequests.any fun r => decide (r.targetId = target) then c
  else { c with recoveryRequests := c.recoveryRequests ++ [⟨target, sendId, now⟩] }

def manualRecoveryPending (c : Chats) (sendId : String) : ℕ :=
  c.recoveryRequests.countP fun r => decide (r.sendId = sendId)

def queueManualRecovery (c : Chats) (sendId : String) (targets : List String) (now : Time) :
    Chats × ℕ :=
  let queued := targets.dedup.foldl (addRequest sendId now) c
  (queued, manualRecoveryPending queued sendId)

/-- What the probe of a page saw. -/
structure HistoryRead where
  capture : CaptureResult
  verifiedLoaded : Bool := false

inductive Probe
  | read (result : Option HistoryRead)
  | rateLimited
  | securityChallenge
  | failed

/-- What a turn tells the account's read gate. -/
inductive GateReport
  | readSuccess
  | readRateLimit
  deriving DecidableEq, Repr

/-- The arguments of `recover_once`, with the readings it makes outside the two tables. -/
structure TurnCall where
  now : Time
  preferredSendId : Option String := none
  ownedTabRecovery : Bool := false
  background : Bool := false
  readBackoff : Time := 0
  inventory : Inventory := {}
  probe : Candidate → Probe

structure TurnResult where
  state : RecoveryState
  recovered : Bool := false
  read : Option Candidate := none
  slot : Option ReadKind := none
  report : Option GateReport := none

/-- A turn waits while the account, a security challenge or the last slot holds it back. -/
def heldBack (t : Attempts) (call : TurnCall) : Bool :=
  (!call.ownedTabRecovery && decide (0 < call.readBackoff)) ||
    decide (0 < historyRecoverySecurityPauseRemaining t call.now) ||
    decide (0 < historyRecoveryGlobalPaceRemaining t call.now)

/-- Untried requests take the next free slot; retried ones have one slot in three. In the
background every slot is theirs. -/
def manualSlot (t : Attempts) (background : Bool) (requested : Candidate) : Bool :=
  let slotNumber := historyRecoveryGlobalAttemptCount t % 3
  background || decide (slotNumber = 0) ||
    (decide (slotNumber = 2) && decide (requested.attemptCount = 0))

def preferredCandidate (s : RecoveryState) (call : TurnCall) : Option Candidate :=
  match call.preferredSendId with
  | some sendId => requestedTurn s sendId
  | none => if call.background then none else newestPinnedDue s

/-- The turn to read and whether a request chose it. -/
def chosen (s : RecoveryState) (requests : List String) (requested : Option Candidate)
    (call : TurnCall) : Option (Candidate × Bool) :=
  match requested.filter (manualSlot s.attempts call.background) with
  | some c => some (c, true)
  | none =>
    match preferredCandidate s call with
    | some c => some (c, false)
    | none =>
      if call.preferredSendId ≠ none then none
      else
        match nextAutomaticCandidate s call.inventory call.background with
        | some c => some (c, false)
        | none => (nextRequestedCandidate s requests).2.map fun c => (c, true)

def slotKind (manual : Bool) : ReadKind := if manual then .manual else .history

/-- The verified page is noted on the row, without renewing anything. -/
def noteLoaded (c : Chats) (candidate : Candidate) (result : HistoryRead) (now : Time) : Chats :=
  let same := decide (result.capture.conversationId = some candidate.conversationId)
  match candidate.branch with
  | .reply replyId _ _ =>
    if result.verifiedLoaded && same then
      (observeHistoryLoaded c replyId candidate.conversationId result.capture.parentId now).1
    else c
  | .original sendId =>
    if (result.verifiedLoaded || result.capture.verifiedGenerating) && same then
      (observeHistoryGenerating c sendId candidate.conversationId now).1
    else c

def saveRead (lib : Stdlib) (c : Chats) (candidate : Candidate) (capture : CaptureResult)
    (now : Time) : Chats × Bool :=
  match candidate.branch with
  | .reply replyId _ _ => recoverHistoricalReply lib c replyId capture now
  | .original sendId => recoverHistoricalResponse lib c sendId capture now

def storedCompleted (c : Chats) (candidate : Candidate) : Bool :=
  match candidate.branch with
  | .reply replyId _ _ => (c.replies.lookup replyId).any fun r => decide (r.status = .completed)
  | .original sendId => (c.results.lookup sendId).any fun r => decide (r.status = .completed)

/-- The rows after a page was read, and whether the turn is over for good. -/
def recordRead (lib : Stdlib) (c : Chats) (candidate : Candidate) (now : Time) :
    Option HistoryRead → Chats × Bool
  | none => (c, false)
  | some result =>
    let saved := saveRead lib (noteLoaded c candidate result now) candidate result.capture now
    (saved.1, saved.2 && decide (result.capture.status = .complete) &&
      storedCompleted saved.1 candidate)

def clearTarget (c : Chats) : Option String → Chats
  | none => c
  | some target => clearManualRecoveryRequest c target

def deferTarget (c : Chats) (now : Time) : Option String → Chats
  | none => c
  | some target => deferManualRecoveryRequest c target now

/-- The end of a turn that has to be tried again. -/
def triedAgain (s : RecoveryState) (candidate : Candidate) (manualTarget : Option String)
    (now : Time) : RecoveryState where
  chats := deferTarget s.chats now manualTarget
  attempts := scheduleHistoryRecovery s.attempts candidate.target none now

def challenged (t : Attempts) (now : Time) : Attempts :=
  let failures := historyRecoverySecurityFailures t now
  pauseHistoryRecoverySecurity t (now + challengePause failures) now

/-- The read of a page whose slot was granted. -/
def probeTurn (lib : Stdlib) (s : RecoveryState) (candidate : Candidate)
    (manualTarget : Option String) (call : TurnCall) : TurnResult :=
  let again := fun (after : RecoveryState) (report : Option GateReport) =>
    { state := triedAgain after candidate manualTarget call.now, read := some candidate,
      report := report : TurnResult }
  if !isUuid candidate.conversationId then again s none
  else
    match call.probe candidate with
    | .failed => again s none
    | .rateLimited => again s (some .readRateLimit)
    | .securityChallenge => again { s with attempts := challenged s.attempts call.now } none
    | .read result =>
      let recorded := recordRead lib s.chats candidate call.now result
      if recorded.2 then
        { state := { s with chats := clearTarget recorded.1 manualTarget }, recovered := true,
          read := some candidate,
          report := if call.ownedTabRecovery then none else some .readSuccess }
      else again { s with chats := recorded.1 } none

/-- A read of a requested turn consumes its request, whoever chose it. -/
def manualTargetOf (c : Chats) (requests : List String) (candidate : Candidate) (manual : Bool)
    (call : TurnCall) : Option String :=
  if manual || decide (candidate.target ∈
    if call.preferredSendId = none then requests else pendingManualRecoveryRequests c) then
    some candidate.target
  else none

/-- A turn for a named chat looks at no request. -/
def turnRequests (s : RecoveryState) (call : TurnCall) : List String :=
  if call.preferredSendId = none then pendingManualRecoveryRequests s.chats else []

def recoverOnce (lib : Stdlib) (s : RecoveryState) (call : TurnCall) : TurnResult :=
  if heldBack s.attempts call then { state := s }
  else
    let requests := turnRequests s call
    let first := nextRequestedCandidate s requests
    match chosen first.1 requests first.2 call with
    | none => { state := first.1 }
    | some (candidate, manual) =>
      let slot := reserveHistoryRecoveryGlobalSlot first.1.attempts call.now
        (slotKind manual).interval
      if !slot.2 then { state := first.1 }
      else
        { probeTurn lib { first.1 with attempts := slot.1 } candidate
            (manualTargetOf first.1.chats requests candidate manual call) call with
          slot := some (slotKind manual) }

theorem replyTarget_of_replyIdOf {target replyId : String} (h : replyIdOf target = some replyId) :
    replyTarget replyId = target := by
  unfold replyIdOf at h
  split at h
  · rename_i hstart
    obtain ⟨rest, hrest⟩ := List.isPrefixOf_iff_prefix.mp hstart
    have hstem : "reply:".toList.length = 6 := rfl
    have hid : target.toList.drop 6 = rest := by rw [← hrest, ← hstem, List.drop_left]
    rw [hid] at h
    have hlist : (String.ofList rest).toList = rest := String.toList_ofList
    rw [← String.toList_inj, ← hrest, replyTarget, String.toList_append, ← Option.some.inj h, hlist]
  · cases h

theorem replyTarget_not_sentinel (replyId : String) : isSentinel (replyTarget replyId) = false := by
  have hstart : ∀ {k : String}, k.toList.head? = some '_' → replyTarget replyId ≠ k := by
    rintro _ hk rfl
    rw [replyTarget, String.toList_append] at hk
    simp at hk
  have hpace := hstart (k := globalPacing) (by decide)
  have hpause := hstart (k := securityPause) (by decide)
  simp [isSentinel, hpace, hpause]

/-- A candidate is read off the row of an unfinished turn. -/
inductive FromRow (s : RecoveryState) : Candidate → Prop
  | original (r : ResultRow) (hmem : r ∈ s.chats.results.rows) (hopen : unfinished r = true) :
      FromRow s (originalCandidate s r)
  | reply (r : ReplyRow) (hmem : r ∈ s.chats.replies.rows)
      (hopen : verifiedReply s.chats r = true) : FromRow s (replyCandidate s r)

/-- The chosen original turn is read off an unfinished row. -/
theorem nextHistoryRecovery_mem {s : RecoveryState} {pinnedOnly : Bool}
    {ids : Option (List String)} {c : Candidate}
    (h : nextHistoryRecovery s pinnedOnly ids = some c) :
    ∃ r ∈ s.chats.results.rows, unfinished r = true ∧ wanted ids r.sendId = true ∧
      originalCandidate s r = c := by
  obtain ⟨r, hr, hc⟩ := Option.map_eq_some_iff.mp h
  obtain ⟨hmem, hsel⟩ := List.mem_filter.mp (List.argmin_mem hr)
  simp only [Bool.and_eq_true] at hsel
  exact ⟨r, hmem, hsel.1.1, hsel.1.2, hc⟩

/-- The chosen reply is read off a verified row. -/
theorem nextHistoryReplyRecovery_mem {s : RecoveryState} {pinnedOnly : Bool}
    {ids : Option (List String)} {c : Candidate}
    (h : nextHistoryReplyRecovery s pinnedOnly ids = some c) :
    ∃ r ∈ s.chats.replies.rows, verifiedReply s.chats r = true ∧ wanted ids r.replyId = true ∧
      replyCandidate s r = c := by
  obtain ⟨r, hr, hc⟩ := Option.map_eq_some_iff.mp h
  obtain ⟨hmem, hsel⟩ := List.mem_filter.mp (List.argmin_mem hr)
  simp only [Bool.and_eq_true] at hsel
  exact ⟨r, hmem, hsel.1.1, hsel.1.2, hc⟩

theorem fromRow_original {s : RecoveryState} {pinnedOnly : Bool} {ids : Option (List String)}
    {c : Candidate} (h : nextHistoryRecovery s pinnedOnly ids = some c) : FromRow s c := by
  obtain ⟨r, hmem, hopen, _, rfl⟩ := nextHistoryRecovery_mem h
  exact FromRow.original r hmem hopen

theorem fromRow_reply {s : RecoveryState} {pinnedOnly : Bool} {ids : Option (List String)}
    {c : Candidate} (h : nextHistoryReplyRecovery s pinnedOnly ids = some c) : FromRow s c := by
  obtain ⟨r, hmem, hopen, _, rfl⟩ := nextHistoryReplyRecovery_mem h
  exact FromRow.reply r hmem hopen

theorem fromRow_requested {s : RecoveryState} {target : String} {c : Candidate}
    (h : requestedTurn s target = some c) : FromRow s c := by
  unfold requestedTurn at h
  split at h
  · exact fromRow_reply h
  · exact fromRow_original h

/-- The turn of a request carries the request's name and the count of its reads. -/
theorem requestedTurn_target {s : RecoveryState} {target : String} {c : Candidate}
    (h : requestedTurn s target = some c) :
    c.target = target ∧ c.attemptCount = attemptCount s.attempts target := by
  unfold requestedTurn at h
  split at h
  · rename_i replyId hid
    obtain ⟨r, _, _, hwanted, rfl⟩ := nextHistoryReplyRecovery_mem h
    have hname : r.replyId = replyId := by simpa [wanted] using hwanted
    have htarget : replyTarget r.replyId = target := hname ▸ replyTarget_of_replyIdOf hid
    exact ⟨htarget, congrArg (attemptCount s.attempts) htarget⟩
  · obtain ⟨r, _, _, hwanted, rfl⟩ := nextHistoryRecovery_mem h
    have hname : r.sendId = target := by simpa [wanted] using hwanted
    exact ⟨hname, congrArg (attemptCount s.attempts) hname⟩

theorem fromRow_pinned {s : RecoveryState} {c : Candidate} (h : newestPinnedDue s = some c) :
    FromRow s c := by
  rcases List.mem_append.mp (List.argmin_mem h) with hmem | hmem
  · exact fromRow_original (Option.mem_toList.mp hmem)
  · exact fromRow_reply (Option.mem_toList.mp hmem)

theorem fromRow_options {s : RecoveryState} {inventory : Inventory} {deploymentOnly : Bool}
    {item : Bool × Candidate} (h : item ∈ automaticOptions s inventory deploymentOnly) :
    FromRow s item.2 := by
  have hreply : ∀ {ids flag},
      item ∈ (nextHistoryReplyRecovery s false ids).toList.map (fun c => (flag, c)) →
        FromRow s item.2 := by
    intro ids flag hmem
    obtain ⟨c, hc, rfl⟩ := List.mem_map.mp hmem
    exact fromRow_reply (Option.mem_toList.mp hc)
  have horiginal : ∀ {ids flag},
      item ∈ (nextHistoryRecovery s false ids).toList.map (fun c => (flag, c)) →
        FromRow s item.2 := by
    intro ids flag hmem
    obtain ⟨c, hc, rfl⟩ := List.mem_map.mp hmem
    exact fromRow_original (Option.mem_toList.mp hc)
  unfold automaticOptions at h
  rcases List.mem_append.mp h with hdeployed | hrest
  · rcases List.mem_append.mp hdeployed with hmem | hmem
    · exact hreply hmem
    · exact horiginal hmem
  · split at hrest
    · cases hrest
    · rcases List.mem_append.mp hrest with hmem | hmem
      · exact hreply hmem
      · exact horiginal hmem

theorem fromRow_automatic {s : RecoveryState} {inventory : Inventory} {deploymentOnly : Bool}
    {c : Candidate} (h : nextAutomaticCandidate s inventory deploymentOnly = some c) :
    FromRow s c := by
  obtain ⟨item, hitem, rfl⟩ := Option.map_eq_some_iff.mp h
  exact fromRow_options (List.argmin_mem hitem)

theorem nextRequested_mem {s : RecoveryState} {requests : List String} {c : Candidate}
    (h : (nextRequestedCandidate s requests).2 = some c) :
    ∃ target ∈ requests, requestedTurn s target = some c :=
  List.mem_filterMap.mp (List.argmin_mem h)

/-- Of the requests that may be read, a least often read one is next. -/
theorem nextRequested_least {s : RecoveryState} {requests : List String} {c : Candidate}
    (h : (nextRequestedCandidate s requests).2 = some c) {target : String} {other : Candidate}
    (hmem : target ∈ requests) (hother : requestedTurn s target = some other) :
    c.attemptCount ≤ other.attemptCount :=
  List.le_of_mem_argmin (List.mem_filterMap.mpr ⟨target, hmem, hother⟩) h

/-- Where some request's turn can be read, one is chosen. -/
theorem nextRequested_isSome {s : RecoveryState} {requests : List String} {target : String}
    {other : Candidate} (hmem : target ∈ requests) (hother : requestedTurn s target = some other) :
    ∃ c, (nextRequestedCandidate s requests).2 = some c := by
  cases h : (nextRequestedCandidate s requests).2 with
  | some c => exact ⟨c, rfl⟩
  | none =>
    have hempty := List.argmin_eq_none.mp h
    have hin := List.mem_filterMap.mpr ⟨target, hmem, hother⟩
    rw [hempty] at hin
    cases hin

/-- Whoever chooses the turn reads it off a row. -/
theorem fromRow_chosen {s : RecoveryState} {requests : List String} {requested : Option Candidate}
    {call : TurnCall} (hrequested : ∀ c, requested = some c → FromRow s c) {c : Candidate}
    {manual : Bool} (h : chosen s requests requested call = some (c, manual)) : FromRow s c := by
  unfold chosen at h
  split at h
  · rename_i hslot
    obtain ⟨rfl, _⟩ := Prod.mk.inj (Option.some.inj h)
    exact hrequested _ (Option.filter_eq_some_iff.mp hslot).1
  split at h
  · rename_i hpreferred
    obtain ⟨rfl, _⟩ := Prod.mk.inj (Option.some.inj h)
    unfold preferredCandidate at hpreferred
    split at hpreferred
    · exact fromRow_requested hpreferred
    · split at hpreferred
      · cases hpreferred
      · exact fromRow_pinned hpreferred
  split at h
  · cases h
  split at h
  · rename_i hautomatic
    obtain ⟨rfl, _⟩ := Prod.mk.inj (Option.some.inj h)
    exact fromRow_automatic hautomatic
  · obtain ⟨d, hd, heq⟩ := Option.map_eq_some_iff.mp h
    obtain ⟨rfl, _⟩ := Prod.mk.inj heq
    obtain ⟨target, _, htarget⟩ := nextRequested_mem hd
    exact fromRow_requested htarget

end Prompta.HistoryRecovery
