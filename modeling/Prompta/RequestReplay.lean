import Prompta.JobDeliveries

/-!
Job actions under a request identifier. An action commits its writes one after the other,
so a crash leaves the state after one of them, and the request may then come again, even
after follow-ups went to the chat it made. The request identifier is the key of the
delivery alone: what an action writes into the jobs and their states has no key.
-/
namespace Prompta.RequestReplay

open Tables Texts DisplayBlocks Schema ResponseStore ReplyStore DeliveryQueue ManualQueue Jobs
  SchedulerPolicy Scheduler JobSteps Service FollowupMerges FreshChats

/-- `[0-9a-f]{32}` -/
abbrev RequestId := {text : String // isRequestId text = true}

/-- The command that sends a prompt once, at once or after a delay. -/
structure RunOnce where
  prompt : Text
  images : List String := []
  delayMinutes : ℚ := 0
  pinChat : Bool := false
  requestId : RequestId
  prompt_valid : strip prompt = prompt
  prompt_present : prompt ≠ []
  delay_valid : 0 ≤ delayMinutes

inductive JobAction
  | fireNow (name : String) (requestId : RequestId)
  | runOnce (command : RunOnce)

def JobAction.requestId : JobAction → RequestId
  | .fireNow _ requestId => requestId
  | .runOnce command => command.requestId

/-- What one execution reads of its surroundings: the clock and eight digits of a fresh
identifier. -/
structure Attempt where
  now : Time
  suffix : String
  now_positive : 0 < now
  suffix_valid : suffix.toList.length = 8 ∧ suffix.toList.all isLowerHex = true

def fireRequest (job : PromptJob) (requestId : RequestId) : ManualRequest :=
  ⟨requestId, job.prompt, job.images, job.pinChat, false⟩

def onceRequest (command : RunOnce) : ManualRequest :=
  ⟨command.requestId, command.prompt, command.images, command.pinChat, false⟩

section Actions

variable (lib : Stdlib) (label : Time → String) (available : String → Bool)

def onceRunAt (command : RunOnce) (attempt : Attempt) : Time :=
  attempt.now + command.delayMinutes * 60

/-- `label` shows a time on the local clock. -/
def onceName (command : RunOnce) (attempt : Attempt) : String :=
  "Once " ++ label (onceRunAt command attempt) ++ " " ++ attempt.suffix

def onceJob (command : RunOnce) (attempt : Attempt) : Except JobError PromptJob :=
  normaliseJobDefinition (onceName label command attempt) command.prompt 0 none false
    (some (onceRunAt command attempt)) "" command.images command.pinChat

/-- `available` says which attachments the host still has. -/
def holdsImages (command : RunOnce) : Bool :=
  match imageRefs command.images with
  | .error _ => false
  | .ok refs => refs.all available

def runOnce (s : SchedulerState) (command : RunOnce) (attempt : Attempt) : SchedulerState :=
  if !holdsImages available command then s
  else if command.delayMinutes = 0 then
    { s with store := (enqueueManual lib s.store (onceRequest command) true attempt.now).1 }
  else
    match onceJob label command attempt with
    | .error _ => s
    | .ok job =>
      { s with jobs := saveJob s.jobs job
               states := clearJobState s.states (onceName label command attempt) }

def perform (attempt : Attempt) (s : SchedulerState) : JobAction → SchedulerState
  | .fireNow name requestId => fireNow lib s name requestId attempt.now
  | .runOnce command => runOnce lib label available s command attempt

/-- The states after the insert of the delivery and after its row in the transcript. -/
def enqueueWrites (s : SchedulerState) (request : ManualRequest) (now : Time) :
    List SchedulerState :=
  [{ s with store := (enqueueManual lib s.store request false now).1 },
    { s with store := (enqueueManual lib s.store request true now).1 }]

/-- A manual fire restarts the countdown of an interval job only. -/
def restartsInterval (job : PromptJob) : Prop :=
  0 < job.intervalSeconds ∧ job.dailyAt = none ∧ job.runAtEpoch = none

instance (job : PromptJob) : Decidable (restartsInterval job) :=
  inferInstanceAs (Decidable (_ ∧ _))

/-- The states after the two writes that withdraw the scheduled delivery. -/
def cancelWrites (s : SchedulerState) (name : String) (now : Time) : List SchedulerState :=
  let sendId := (jobState s.states name).lastDeliverySendId
  if sendId = "" then []
  else
    [{ s with store := (cancelPending s.store sendId "superseded by manual fire" false now).1 },
      { s with store := (cancelPending s.store sendId "superseded by manual fire" true now).1 }]

def fireWrites (s : SchedulerState) (name : String) (requestId : RequestId) (now : Time) :
    List SchedulerState :=
  match s.jobs.lookup name with
  | none => []
  | some job =>
    match s.store.queue.lookup (manualSendId requestId) with
    | some _ => []
    | none =>
      enqueueWrites lib s (fireRequest job requestId) now ++
        match enqueueManual lib s.store (fireRequest job requestId) true now with
        | (_, .error _) => []
        | (store, .ok _) =>
          if restartsInterval job then
            cancelWrites { s with store := store } job.name now ++
              [fireJobNow lib s job requestId now]
          else []

def onceWrites (s : SchedulerState) (command : RunOnce) (attempt : Attempt) : List SchedulerState :=
  if !holdsImages available command then []
  else if command.delayMinutes = 0 then enqueueWrites lib s (onceRequest command) attempt.now
  else
    match onceJob label command attempt with
    | .error _ => []
    | .ok job =>
      [{ s with jobs := saveJob s.jobs job },
        { s with jobs := saveJob s.jobs job
                 states := clearJobState s.states (onceName label command attempt) }]

def writes (attempt : Attempt) (s : SchedulerState) : JobAction → List SchedulerState
  | .fireNow name requestId => fireWrites lib s name requestId attempt.now
  | .runOnce command => onceWrites lib label available s command attempt

end Actions

/-- A follow-up as it is queued to the chat of a request. -/
structure Followup where
  replyId : String
  text : Text
  withQueue : Bool := true
  now : Time

/-- The follow-ups are queued one after the other, and each is accepted. -/
def queueFollowups (lib : Stdlib) (s : SchedulerState) (sendId : String) :
    List Followup → Option SchedulerState
  | [] => some s
  | followup :: rest =>
    match queueFollowup lib s.store sendId followup.replyId followup.text followup.withQueue
      followup.now with
    | (store, .ok _) => queueFollowups lib { s with store := store } sendId rest
    | (_, .error _) => none

/-- Equal deliveries, jobs and job states. -/
structure SameJobs (a b : SchedulerState) : Prop where
  queue : a.store.queue = b.store.queue
  jobs : a.jobs = b.jobs
  states : a.states = b.states

section Idempotence

variable (lib : Stdlib) (label : Time → String) (available : String → Bool)

/-- Whatever state the first execution leaves, and whatever follow-ups its chat then takes,
the same request again leaves what one execution and these follow-ups leave. -/
def Idempotent (s : SchedulerState) (action : JobAction) : Prop :=
  ∀ first again : Attempt, first.now ≤ again.now →
    ∀ left ∈ perform lib label available first s action ::
      writes lib label available first s action,
    ∀ (followups : List Followup) (reached : SchedulerState),
      queueFollowups lib left (manualSendId action.requestId) followups = some reached →
      ∃ single, queueFollowups lib (perform lib label available first s action)
          (manualSendId action.requestId) followups = some single ∧
        SameJobs (perform lib label available again reached action) single

/-- The queue takes the request: its identifiers are free, or the delivery that is found
under its client identifier carries its payload. -/
def takesRequest (s : Store) (request : ManualRequest) : Prop :=
  ∀ d, existingDelivery s.queue (manualRecord request) = some d →
    Matches lib s d request.prompt ∧ d.images = request.images ∧
      d.clientId = manualClientId request.requestId request.pinChat

/-- No delivery of the request was made before, so it restarts the countdown of an
interval job. -/
def restartsCountdown (s : SchedulerState) (name : String) (requestId : RequestId) : Prop :=
  ∃ job, s.jobs.lookup name = some job ∧ restartsInterval job ∧
    s.store.queue.lookup (manualSendId requestId) = none ∧
    takesRequest lib s.store (fireRequest job requestId)

/-- The prompt waits as a job of its own, under a name that each execution draws. -/
def addsJob (command : RunOnce) : Prop :=
  holdsImages available command = true ∧ command.delayMinutes ≠ 0

def keyedByRequest (s : SchedulerState) : JobAction → Prop
  | .fireNow name requestId => ¬ restartsCountdown lib s name requestId
  | .runOnce command => ¬ addsJob available command

end Idempotence

/-- The crashed execution may lack the transcript row of the chat. Apart from that the
follow-ups cannot tell the two stores apart. -/
structure Alike (sendId : String) (left single : Store) : Prop where
  queue : left.queue = single.queue
  replies : left.chats.replies = single.chats.replies
  rows : ∀ r, left.chats.results.lookup sendId = some r →
    ∃ r', single.chats.results.lookup sendId = some r' ∧ r'.status = r.status

theorem Alike.refl (sendId : String) (s : Store) : Alike sendId s s :=
  ⟨rfl, rfl, fun r h => ⟨r, h, rfl⟩⟩

section Followups

variable (lib : Stdlib) {sendId : String} {left single : Store}

theorem initialHash_alike (h : Alike sendId left single) (message : Text) :
    initialHash lib left.chats sendId message = initialHash lib single.chats sendId message := by
  unfold initialHash mergedRows branchRows
  rw [h.replies]

/-- The merge looks at the delivery and at the status of the row. -/
theorem mergeTarget_alike (h : Alike sendId left single) (withQueue : Bool) {r r' : ResultRow}
    (hstatus : r'.status = r.status) (text : Text) :
    mergeTarget left sendId withQueue r text = mergeTarget single sendId withQueue r' text := by
  unfold mergeTarget
  rw [h.queue, h.replies, hstatus]

/-- The chat's row after an update of it. -/
theorem rows_alike (h : Alike sendId left single) (p : ResultStatus → Bool)
    (f : ResultRow → ResultRow) (hf : ∀ r, (f r).sendId = r.sendId)
    (hstatus : ∀ r, (f r).status = r.status) :
    ∀ r, (updateResult left.chats sendId (fun r => p r.status) f hf).1.results.lookup
      sendId = some r →
      ∃ r', (updateResult single.chats sendId (fun r => p r.status) f hf).1.results.lookup sendId =
        some r' ∧ r'.status = r.status := by
  intro r hr
  change (left.chats.results.updateAt sendId _ f hf).lookup sendId = some r at hr
  rw [Table.lookup_updateAt_self] at hr
  obtain ⟨before, hbefore, rfl⟩ := Option.map_eq_some_iff.mp hr
  obtain ⟨other, hother, hsame⟩ := h.rows before hbefore
  refine ⟨if p other.status then f other else other, ?_, ?_⟩
  · show (single.chats.results.updateAt sendId _ f hf).lookup sendId = _
    rw [Table.lookup_updateAt_self, hother]
    rfl
  · rw [hsame]
    split
    · rw [hstatus, hstatus, hsame]
    · exact hsame

/-- A follow-up that is accepted after the crash is accepted after the whole execution. -/
theorem followup_alike (h : Alike sendId left single) {followup : Followup} {left' : Store}
    {row : ReplyRow}
    (hqueued : queueFollowup lib left sendId followup.replyId followup.text followup.withQueue
      followup.now = (left', .ok row)) :
    ∃ single', queueFollowup lib single sendId followup.replyId followup.text followup.withQueue
      followup.now = (single', .ok row) ∧ Alike sendId left' single' := by
  unfold queueFollowup at hqueued ⊢
  split at hqueued
  · cases hqueued
  rename_i hid
  split at hqueued
  · cases hqueued
  rename_i htext
  rw [if_neg hid, if_neg htext, ← h.replies]
  split at hqueued
  · rename_i existing hexisting
    split at hqueued
    · rename_i hsame
      cases hqueued
      rw [if_pos hsame]
      exact ⟨single, rfl, h⟩
    · cases hqueued
  · split at hqueued
    · cases hqueued
    rename_i original horiginal
    obtain ⟨other, hother, hstatus⟩ := h.rows original horiginal
    rw [hother]
    split at hqueued
    · cases hqueued
    rename_i hfew
    dsimp only
    rw [if_neg hfew, ← mergeTarget_alike h followup.withQueue hstatus]
    split at hqueued
    · rename_i d combined htarget
      cases hqueued
      refine ⟨_, by rw [← initialHash_alike lib h], ?_, ?_, ?_⟩
      · dsimp only
        rw [h.queue]
      · rfl
      · exact rows_alike h (fun status => decide (status = .queued))
          (combinedRow combined followup.now) (fun _ => rfl) (fun _ => rfl)
    · cases hqueued
      exact ⟨_, rfl, h.queue, rfl, h.rows⟩

/-- Follow-ups change neither the jobs nor their states, and they keep two stores alike. -/
theorem followups_alike (followups : List Followup) {a b reached : SchedulerState}
    (hjobs : a.jobs = b.jobs) (hstates : a.states = b.states) (h : Alike sendId a.store b.store)
    (hreached : queueFollowups lib a sendId followups = some reached) :
    ∃ single, queueFollowups lib b sendId followups = some single ∧ SameJobs reached single := by
  induction followups generalizing a b with
  | nil =>
    obtain rfl := Option.some.inj hreached
    exact ⟨b, rfl, h.queue, hjobs, hstates⟩
  | cons followup rest ih =>
    rw [queueFollowups] at hreached ⊢
    cases hqueued : queueFollowup lib a.store sendId followup.replyId followup.text
      followup.withQueue followup.now with
    | mk store outcome =>
      rw [hqueued] at hreached
      cases outcome with
      | error e => cases hreached
      | ok row =>
        obtain ⟨store', hother, halike⟩ := followup_alike lib h hqueued
        rw [hother]
        exact ih (a := { a with store := store }) (b := { b with store := store' }) hjobs hstates
          halike hreached

end Followups

section Enqueue

variable (lib : Stdlib) (s : Store)

/-- The delivery is inserted by the first write and found by every later request. -/
theorem enqueue_queue (record : DeliveryRecord) (answers : Bool) (now : Time) :
    (enqueueIdempotent s record answers now).1.queue = s.queue ∨
      (existingDelivery s.queue record = none ∧
        (enqueueIdempotent s record answers now).1.queue =
          s.queue.insertNew (queuedDelivery s.queue record now)) := by
  unfold enqueueIdempotent
  split
  · exact Or.inl rfl
  split
  · exact Or.inl rfl
  split
  · exact Or.inl rfl
  split
  · exact Or.inl rfl
  · rename_i hnone
    exact Or.inr ⟨hnone, rfl⟩

/-- A manual request adds its row, unless the queue has it already. -/
theorem manual_queue (request : ManualRequest) (answers : Bool) (now : Time) :
    (enqueueManual lib s request answers now).1.queue = s.queue ∨
      (existingDelivery s.queue (manualRecord request) = none ∧
        (enqueueManual lib s request answers now).1.queue =
          s.queue.insertNew (queuedDelivery s.queue (manualRecord request) now)) := by
  rcases manual_sameRows lib s request answers now with hsame | hsame
  · exact Or.inl hsame.queue
  · rw [hsame.queue]
    exact enqueue_queue s (manualRecord request) answers now

theorem manual_queue_taken {request : ManualRequest} (answers : Bool) (now : Time)
    (h : existingDelivery s.queue (manualRecord request) ≠ none) :
    (enqueueManual lib s request answers now).1.queue = s.queue := by
  rcases manual_queue lib s request answers now with hsame | ⟨hnone, _⟩
  · exact hsame
  · exact absurd hnone h

/-- A well-formed request that finds no delivery inserts one. -/
theorem enqueue_free {request : ManualRequest} (answers : Bool) (now : Time)
    (hrequest : WellFormed request) (h : existingDelivery s.queue (manualRecord request) = none) :
    ∃ c, enqueueIdempotent s (manualRecord request) answers now =
      (⟨s.queue.insertNew (queuedDelivery s.queue (manualRecord request) now), c⟩,
        .ok (queuedDelivery s.queue (manualRecord request) now, true)) := by
  have hid : (manualRecord request).sendId ≠ "" := manualSendId_ne request.requestId
  have hmessage : (manualRecord request).message ≠ [] := strip_ne_nil hrequest.prompt
  have himages : imageRefs (manualRecord request).images = .ok request.images := hrequest.images
  unfold enqueueIdempotent
  rw [if_neg hid, if_neg hmessage, himages, h]
  exact ⟨_, rfl⟩

/-- A delivery that is found is returned, and the queue stays. -/
theorem enqueue_found {request : ManualRequest} {d : Delivery} (answers : Bool) (now : Time)
    (hrequest : WellFormed request) (h : existingDelivery s.queue (manualRecord request) = some d) :
    ∃ c, enqueueIdempotent s (manualRecord request) answers now =
      (⟨s.queue, c⟩, .ok (d, false)) := by
  have hid : (manualRecord request).sendId ≠ "" := manualSendId_ne request.requestId
  have hmessage : (manualRecord request).message ≠ [] := strip_ne_nil hrequest.prompt
  have himages : imageRefs (manualRecord request).images = .ok request.images := hrequest.images
  unfold enqueueIdempotent
  rw [if_neg hid, if_neg hmessage, himages, h]
  exact ⟨_, rfl⟩

/-- The delivery is in the queue whether or not the results database answers. -/
theorem manual_queue_free {request : ManualRequest} (answers : Bool) (now : Time)
    (hrequest : WellFormed request) (h : existingDelivery s.queue (manualRecord request) = none) :
    (enqueueManual lib s request answers now).1.queue =
      s.queue.insertNew (queuedDelivery s.queue (manualRecord request) now) := by
  obtain ⟨c, hqueued⟩ := enqueue_free s answers now hrequest h
  unfold enqueueManual
  rw [if_neg hrequest.prompt, hrequest.identifier, Bool.not_true,
    if_neg Bool.false_ne_true, hqueued]
  dsimp only
  split
  · rfl
  split
  · rfl
  split
  · rfl
  split
  · rfl
  split
  · split <;> rfl
  · rfl

/-- A rewriting that keeps the status keeps that of every row. -/
theorem updateResult_status (c : Chats) (sendId : String) (p : ResultRow → Bool)
    (f : ResultRow → ResultRow) (hf : ∀ r, (f r).sendId = r.sendId)
    (hstatus : ∀ r, (f r).status = r.status) {k : String} {r : ResultRow}
    (h : c.results.lookup k = some r) :
    ∃ r', (updateResult c sendId p f hf).1.results.lookup k = some r' ∧ r'.status = r.status := by
  by_cases hk : k = sendId
  · subst hk
    refine ⟨if p r then f r else r, ?_, ?_⟩
    · show (c.results.updateAt k p f hf).lookup k = _
      rw [Table.lookup_updateAt_self, h]
      rfl
    · split
      · exact hstatus r
      · rfl
  · refine ⟨r, ?_, rfl⟩
    show (c.results.updateAt sendId p f hf).lookup k = _
    rw [Table.lookup_updateAt_ne c.results sendId k p f hf hk, h]

/-- The transcript row that a chat has already keeps its status. -/
theorem ensureQueued_status (c : Chats) (sendId : String) (userText : Text) (jobName : String)
    (now : Time) {k : String} {r : ResultRow} (h : c.results.lookup k = some r) :
    ∃ r', (ensureQueued c sendId userText jobName now).results.lookup k = some r' ∧
      r'.status = r.status := by
  have hinserted : ∀ row : ResultRow, (c.results.insertNew row).lookup k = some r := by
    intro row
    by_cases hk : k = row.sendId
    · rw [Table.insertNew_eq_self (by rw [← hk, h]; exact Option.some_ne_none r), h]
    · rw [Table.lookup_insertNew_ne c.results row hk, h]
  unfold ensureQueued
  dsimp only
  split
  · exact ⟨r, hinserted _, rfl⟩
  · apply updateResult_status
    · intro _
      rfl
    · exact hinserted _

/-- An enqueue keeps the statuses of the transcript. -/
theorem enqueue_results (record : DeliveryRecord) (answers : Bool) (now : Time) {k : String}
    {r : ResultRow} (h : s.chats.results.lookup k = some r) :
    ∃ r', (enqueueIdempotent s record answers now).1.chats.results.lookup k = some r' ∧
      r'.status = r.status := by
  unfold enqueueIdempotent
  split
  · exact ⟨r, h, rfl⟩
  split
  · exact ⟨r, h, rfl⟩
  split
  · exact ⟨r, h, rfl⟩
  split
  · dsimp only
    split
    · exact ensureQueued_status s.chats _ _ _ _ h
    · exact ⟨r, h, rfl⟩
  · dsimp only
    split
    · exact ensureQueued_status s.chats _ _ _ _ h
    · exact ⟨r, h, rfl⟩

/-- Without an answer of the results database the transcripts stay as they are. -/
theorem enqueue_unanswered (record : DeliveryRecord) (now : Time) :
    (enqueueIdempotent s record false now).1.chats = s.chats := by
  unfold enqueueIdempotent
  split
  · rfl
  split
  · rfl
  split
  · rfl
  split
  · simp
  · rfl

/-- A crash before the transcript row is written loses nothing but this row. -/
theorem manual_alike {request : ManualRequest} (hrequest : WellFormed request) (now : Time) :
    Alike (manualSendId request.requestId) (enqueueManual lib s request false now).1
      (enqueueManual lib s request true now).1 := by
  have hreplies : ∀ answers, (enqueueManual lib s request answers now).1.chats.replies =
      s.chats.replies := by
    intro answers
    rcases manual_sameRows lib s request answers now with hsame | hsame
    · exact hsame.replies
    · rw [hsame.replies]
      exact enqueueIdempotent_replies now s (manualRecord request) answers
  refine ⟨?_, by rw [hreplies, hreplies], ?_⟩
  · by_cases hfree : existingDelivery s.queue (manualRecord request) = none
    · rw [manual_queue_free lib s false now hrequest hfree,
        manual_queue_free lib s true now hrequest hfree]
    · rw [manual_queue_taken lib s false now hfree, manual_queue_taken lib s true now hfree]
  · intro r hr
    have hbefore : s.chats.results.lookup (manualSendId request.requestId) = some r := by
      rcases manual_sameRows lib s request false now with hsame | hsame
      · rwa [hsame.results] at hr
      · rwa [hsame.results, enqueue_unanswered s (manualRecord request) now] at hr
    rcases manual_sameRows lib s request true now with hsame | hsame
    · exact ⟨r, by rw [hsame.results]; exact hbefore, rfl⟩
    · rw [hsame.results]
      exact enqueue_results s (manualRecord request) true now hbefore

/-- The request is answered with a receipt if and only if the queue takes it. -/
theorem manual_takes {request : ManualRequest} (hrequest : WellFormed request)
    (hpin : request.pinLocalDefault = false) (now : Time) :
    (∃ d, (enqueueManual lib s request true now).2 = .ok d) ↔ takesRequest lib s request := by
  have hreplies := enqueueIdempotent_replies now s (manualRecord request) true
  unfold enqueueManual
  rw [if_neg hrequest.prompt, hrequest.identifier, Bool.not_true, if_neg Bool.false_ne_true]
  cases hfound : existingDelivery s.queue (manualRecord request) with
  | none =>
    obtain ⟨c, hqueued⟩ := enqueue_free s true now hrequest hfound
    rw [hqueued]
    have hrefs : imageRefs (queuedDelivery s.queue (manualRecord request) now).images =
        .ok request.images := hrequest.images
    dsimp only
    rw [Bool.false_and, if_neg Bool.false_ne_true, if_neg (fun h => h.1 rfl), hrefs, hpin]
    dsimp only
    rw [if_neg (by rintro (h | h) <;> exact h rfl), Bool.and_false, if_neg Bool.false_ne_true]
    exact ⟨fun _ d hd => (nomatch hfound.symm.trans hd), fun _ => ⟨_, rfl⟩⟩
  | some d =>
    obtain ⟨c, hqueued⟩ := enqueue_found s true now hrequest hfound
    rw [hqueued] at hreplies ⊢
    have hhash : originalHash c d.sendId = originalHash s.chats d.sendId := by
      unfold originalHash mergedRows branchRows
      rw [show c.replies = s.chats.replies from hreplies]
    simp only [Bool.false_and, Bool.false_eq_true, if_false, hhash]
    have htakes : takesRequest lib s request ↔ Matches lib s d request.prompt ∧
        d.images = request.images ∧
          d.clientId = manualClientId request.requestId request.pinChat := by
      unfold takesRequest
      rw [hfound]
      simp
    rw [htakes]
    by_cases hmatches : Matches lib s d request.prompt
    · rw [if_neg (by rwa [← not_or, not_not])]
      cases hrefs : imageRefs d.images with
      | error e =>
        have hdiffer : d.images ≠ request.images := by
          intro h
          rw [h, hrequest.images] at hrefs
          cases hrefs
        simp [hdiffer]
      | ok refs =>
        obtain rfl := imageRefs_ok hrefs
        dsimp only
        split
        · rename_i hdiffer
          simp only [reduceCtorEq, exists_false, false_iff]
          rintro ⟨_, hsame, hclient⟩
          rcases hdiffer with h | h
          · exact h hsame
          · exact h hclient
        · rename_i hsame
          rw [not_or, not_not, not_not] at hsame
          exact ⟨fun _ => ⟨hmatches, hsame⟩, fun _ => ⟨d, rfl⟩⟩
    · rw [if_pos (by rwa [← not_or])]
      simp [hmatches]

end Enqueue

section Keys

variable {queue queue' : Deliveries}

def deliveryKey (d : Delivery) : String × String := (d.sendId, d.clientId)

theorem existing_none_iff {record : DeliveryRecord} :
    existingDelivery queue record = none ↔ ∀ key ∈ queue.rows.map deliveryKey,
      key.1 ≠ record.sendId ∧ (record.clientId = "" ∨ key.2 ≠ record.clientId) := by
  unfold existingDelivery
  rw [Option.or_eq_none_iff, Table.lookup_eq_none_iff, List.forall_mem_map]
  constructor
  · rintro ⟨hsend, hclient⟩ d hd
    refine ⟨hsend d hd, ?_⟩
    split at hclient
    · rename_i hempty
      exact Or.inl hempty
    · have hne := List.find?_eq_none.mp hclient d hd
      exact Or.inr fun heq => hne (decide_eq_true heq)
  · intro h
    refine ⟨fun d hd => (h d hd).1, ?_⟩
    split
    · rfl
    · rename_i hclient
      rw [List.find?_eq_none]
      intro d hd
      rcases (h d hd).2 with hempty | hne
      · exact absurd hempty hclient
      · exact fun htrue => hne (of_decide_eq_true htrue)

theorem lookup_none_iff {sendId : String} :
    queue.lookup sendId = none ↔ ∀ key ∈ queue.rows.map deliveryKey, key.1 ≠ sendId := by
  rw [Table.lookup_eq_none_iff, List.forall_mem_map]
  exact Iff.rfl

/-- A follow-up rewrites messages only. -/
theorem followup_keys {lib : Stdlib} {s s' : Store} {sendId : String} {followup : Followup}
    {row : ReplyRow} (h : queueFollowup lib s sendId followup.replyId followup.text
      followup.withQueue
      followup.now = (s', .ok row)) :
    s'.queue.rows.map deliveryKey = s.queue.rows.map deliveryKey := by
  have houtcome := followup_outcome lib s sendId followup.replyId followup.text followup.now
    followup.withQueue
  rw [h] at houtcome
  cases houtcome with
  | repeated => rfl
  | queued => rfl
  | merged _ d original combined =>
    show (List.map _ s.queue.rows).map deliveryKey = _
    rw [List.map_map]
    apply List.map_congr_left
    intro d _
    simp only [Function.comp_apply]
    split <;> rfl

end Keys

section Settled

variable (lib : Stdlib) (available : String → Bool)

/-- The action finds its delivery and leaves the jobs and the queue as they are. -/
def Settled (s : SchedulerState) : JobAction → Prop
  | .fireNow name requestId => ∀ job, s.jobs.lookup name = some job →
    s.store.queue.lookup (manualSendId requestId) = none →
      existingDelivery s.store.queue (manualRecord (fireRequest job requestId)) ≠ none ∧
        (restartsInterval job → ¬ takesRequest lib s.store (fireRequest job requestId))
  | .runOnce command => holdsImages available command = true →
    command.delayMinutes = 0 ∧
      existingDelivery s.store.queue (manualRecord (onceRequest command)) ≠ none

theorem fireRequest_wellFormed (job : PromptJob) (requestId : RequestId) :
    WellFormed (fireRequest job requestId) :=
  ⟨job.prompt_present, requestId.property, job.images_valid⟩

theorem onceRequest_wellFormed {command : RunOnce} (h : holdsImages available command = true) :
    WellFormed (onceRequest command) := by
  refine ⟨?_, command.requestId.property, ?_⟩
  · show strip command.prompt ≠ []
    rw [command.prompt_valid]
    exact command.prompt_present
  · show imageRefs command.images = .ok command.images
    unfold holdsImages at h
    cases hrefs : imageRefs command.images with
    | error e =>
      rw [hrefs] at h
      exact Bool.noConfusion h
    | ok refs => rw [imageRefs_ok hrefs]

/-- Without a countdown to restart a manual fire is an enqueue. -/
theorem fireJobNow_kept (s : SchedulerState) {job : PromptJob} {requestId : RequestId} (now : Time)
    (h : ¬ (restartsInterval job ∧ takesRequest lib s.store (fireRequest job requestId))) :
    fireJobNow lib s job requestId now =
      { s with store := (enqueueManual lib s.store (fireRequest job requestId) true now).1 } := by
  have htakes := manual_takes lib s.store (fireRequest_wellFormed job requestId) rfl now
  unfold fireJobNow
  change (match enqueueManual lib s.store (fireRequest job requestId) true now with
    | (store, .error _) => _
    | (store, .ok _) => _) = _
  cases hqueued : enqueueManual lib s.store (fireRequest job requestId) true now with
  | mk store outcome =>
    cases outcome with
    | error e => rfl
    | ok d =>
      have hinterval : ¬ restartsInterval job :=
        fun hinterval => h ⟨hinterval, htakes.mp ⟨d, by rw [hqueued]⟩⟩
      unfold restartsInterval at hinterval
      dsimp only
      rw [if_neg hinterval]

/-- A restarted countdown starts at the time of the fire. -/
theorem fireJobNow_restarted (s : SchedulerState) {job : PromptJob} {requestId : RequestId}
    (now : Time)
    (hinterval : restartsInterval job)
    (htakes : takesRequest lib s.store (fireRequest job requestId)) :
    (jobState (fireJobNow lib s job requestId now).states job.name).lastManualFireAtEpoch
    = now := by
  obtain ⟨d, hd⟩ :=
    (manual_takes lib s.store (fireRequest_wellFormed job requestId) rfl now).mpr htakes
  unfold restartsInterval at hinterval
  unfold fireJobNow
  change (jobState (SchedulerState.states
    (match enqueueManual lib s.store (fireRequest job requestId) true now with
      | (store, .error _) => _
      | (store, .ok _) => _)) job.name).lastManualFireAtEpoch = now
  cases hqueued : enqueueManual lib s.store (fireRequest job requestId) true now with
  | mk store outcome =>
    rw [hqueued] at hd
    dsimp only at hd
    subst hd
    dsimp only
    rw [if_pos hinterval]
    dsimp only
    rw [jobState_update, if_pos rfl, apply_ite JobState.lastManualFireAtEpoch]
    exact ite_self now

/-- Whether the queue takes a request depends on the queue and the digests of its chats. -/
theorem takesRequest_congr {s s' : Store} (hqueue : s'.queue = s.queue)
    (hhash : ∀ d ∈ s.queue.rows, originalHash s'.chats d.sendId = originalHash s.chats d.sendId)
    {request : ManualRequest} : takesRequest lib s' request ↔ takesRequest lib s request := by
  unfold takesRequest Matches
  rw [hqueue]
  constructor
  · intro h d hd
    rw [← hhash d (existing_mem hd)]
    exact h d hd
  · intro h d hd
    rw [hhash d (existing_mem hd)]
    exact h d hd

theorem originalHash_congr {c c' : Chats} (h : c'.replies = c.replies) (sendId : String) :
    originalHash c' sendId = originalHash c sendId := by
  unfold originalHash mergedRows branchRows
  rw [h]

/-- A reply of another chat does not change the digest of the first prompt. -/
theorem originalHash_insert (c c' : Chats) {row : ReplyRow}
    (h : c'.replies = c.replies.insertNew row) {sendId : String} (hother : row.sendId ≠ sendId) :
    originalHash c' sendId = originalHash c sendId := by
  unfold originalHash mergedRows branchRows
  rw [h]
  by_cases hfree : c.replies.lookup row.replyId = none
  · rw [Table.rows_insertNew hfree, List.filter_append]
    simp [hother]
  · rw [Table.insertNew_eq_self hfree]

/-- A settled action does nothing. -/
theorem settled_perform (label : Time → String) (attempt : Attempt) {s : SchedulerState}
    {action : JobAction} (h : Settled lib available s action) :
    SameJobs (perform lib label available attempt s action) s := by
  cases action with
  | fireNow name requestId =>
    show SameJobs (fireNow lib s name requestId attempt.now) s
    unfold fireNow
    cases hjob : s.jobs.lookup name with
    | none => exact ⟨rfl, rfl, rfl⟩
    | some job =>
      dsimp only
      cases hlookup : s.store.queue.lookup (manualSendId requestId) with
      | some d => exact ⟨rfl, rfl, rfl⟩
      | none =>
        obtain ⟨hfound, hrefused⟩ := h job hjob hlookup
        dsimp only
        rw [fireJobNow_kept lib s attempt.now fun h => hrefused h.1 h.2]
        exact ⟨manual_queue_taken lib s.store true attempt.now hfound, rfl, rfl⟩
  | runOnce command =>
    show SameJobs (runOnce lib label available s command attempt) s
    unfold runOnce
    split
    · exact ⟨rfl, rfl, rfl⟩
    · rename_i himages
      obtain ⟨hdelay, hfound⟩ := h (by simpa using himages)
      rw [if_pos hdelay]
      exact ⟨manual_queue_taken lib s.store true attempt.now hfound, rfl, rfl⟩

/-- Follow-ups to the chat of a settled action leave it settled. -/
theorem followups_settled {action : JobAction} (followups : List Followup)
    {s reached : SchedulerState}
    (h : Settled lib available s action)
    (hreached : queueFollowups lib s (manualSendId action.requestId) followups = some reached) :
    Settled lib available reached action := by
  induction followups generalizing s with
  | nil =>
    obtain rfl := Option.some.inj hreached
    exact h
  | cons followup rest ih =>
    rw [queueFollowups] at hreached
    cases hqueued : queueFollowup lib s.store (manualSendId action.requestId) followup.replyId
      followup.text followup.withQueue followup.now with
    | mk store outcome =>
      rw [hqueued] at hreached
      cases outcome with
      | error e => cases hreached
      | ok row =>
        refine ih ?_ hreached
        have hkeys := followup_keys hqueued
        cases action with
        | runOnce command =>
          intro himages
          obtain ⟨hdelay, hfound⟩ := h himages
          refine ⟨hdelay, ?_⟩
          rwa [ne_eq, existing_none_iff, hkeys, ← existing_none_iff]
        | fireNow name requestId =>
          intro job hjob hlookup
          have hfree : s.store.queue.lookup (manualSendId requestId) = none := by
            rwa [lookup_none_iff, ← hkeys, ← lookup_none_iff]
          obtain ⟨hfound, hrefused⟩ := h job hjob hfree
          refine ⟨by rwa [ne_eq, existing_none_iff, hkeys, ← existing_none_iff], ?_⟩
          intro hinterval
          have hother : ∀ d ∈ s.store.queue.rows, manualSendId requestId ≠ d.sendId :=
            fun d hd heq => Table.lookup_eq_none_iff.mp hfree d hd heq.symm
          -- No delivery of the chat is there to be merged into, so the queue is as before.
          have hsame : store.queue = s.store.queue ∧ ∀ d ∈ s.store.queue.rows,
              originalHash store.chats d.sendId = originalHash s.store.chats d.sendId := by
            have houtcome := followup_outcome lib s.store (manualSendId requestId) followup.replyId
              followup.text followup.now followup.withQueue
            change queueFollowup lib s.store (manualSendId requestId) _ _ _ _ = _ at hqueued
            rw [hqueued] at houtcome
            cases houtcome with
            | repeated => exact ⟨rfl, fun _ _ => rfl⟩
            | queued _ hrow _ =>
              refine ⟨rfl, fun d hd => originalHash_insert s.store.chats _ rfl ?_⟩
              rw [hrow]
              exact hother d hd
            | merged _ d _ _ _ _ hd => exact nomatch hd.symm.trans hfree
          have hkept : takesRequest lib store (fireRequest job requestId) ↔
              takesRequest lib s.store (fireRequest job requestId) :=
            takesRequest_congr lib hsame.1 hsame.2
          show ¬ takesRequest lib store (fireRequest job requestId)
          rw [hkept]
          exact hrefused hinterval

end Settled

section Executions

variable (lib : Stdlib) (label : Time → String) (available : String → Bool)

/-- What is known of a state that a keyed action leaves. -/
structure Left (single left : SchedulerState) (action : JobAction) : Prop where
  settled : Settled lib available left action
  jobs : left.jobs = single.jobs
  states : left.states = single.states
  alike : Alike (manualSendId action.requestId) left.store single.store

/-- After the first write of an enqueue the delivery is found. -/
theorem manual_found (s : Store) {request : ManualRequest} (hrequest : WellFormed request)
    (answers : Bool) (now : Time) :
    existingDelivery (enqueueManual lib s request answers now).1.queue
      (manualRecord request) ≠ none ∧
      (existingDelivery s.queue (manualRecord request) = none →
        (enqueueManual lib s request answers now).1.queue.lookup
          (manualSendId request.requestId) ≠ none) := by
  by_cases hfree : existingDelivery s.queue (manualRecord request) = none
  · have hlookup : (enqueueManual lib s request answers now).1.queue.lookup
        (manualSendId request.requestId) ≠ none := by
      have hnone : s.queue.lookup (manualRecord request).sendId = none :=
        (Option.or_eq_none_iff.mp hfree).1
      have hself := Table.lookup_insertNew_self
        (r := queuedDelivery s.queue (manualRecord request) now) hnone
      rw [manual_queue_free lib s answers now hrequest hfree]
      intro h
      exact nomatch hself.symm.trans h
    refine ⟨?_, fun _ => hlookup⟩
    intro h
    exact hlookup (Option.or_eq_none_iff.mp h).1
  · rw [manual_queue_taken lib s answers now hfree]
    exact ⟨hfree, fun h => absurd h hfree⟩

/-- The states an enqueue can leave: its row in the transcript was written, or not. -/
theorem mem_enqueueWrites {s left : SchedulerState} {request : ManualRequest} {now : Time} :
    left ∈ enqueueWrites lib s request now ↔ ∃ answers,
      left = { s with store := (enqueueManual lib s.store request answers now).1 } := by
  unfold enqueueWrites
  simp

/-- The results database makes no difference to what a repetition finds. -/
theorem enqueueWrites_alike (s : SchedulerState) {request : ManualRequest}
    (hrequest : WellFormed request)
    (now : Time) (answers : Bool) :
    Alike (manualSendId request.requestId) (enqueueManual lib s.store request answers now).1
      (enqueueManual lib s.store request true now).1 := by
  cases answers with
  | false => exact manual_alike lib s.store hrequest now
  | true => exact Alike.refl _ _

/-- A manual fire that restarts no countdown leaves nothing that a repetition would miss. -/
theorem fire_left (attempt : Attempt) (s : SchedulerState) (name : String) (requestId : RequestId)
    (hkeyed : ¬ restartsCountdown lib s name requestId) :
    ∀ left ∈ fireNow lib s name requestId attempt.now :: fireWrites lib s name requestId
      attempt.now, Left lib available (fireNow lib s name requestId attempt.now) left
        (.fireNow name requestId) := by
  unfold fireNow fireWrites
  cases hjob : s.jobs.lookup name with
  | none =>
    intro left hleft
    obtain rfl := List.mem_singleton.mp hleft
    exact ⟨fun job h => (nomatch hjob.symm.trans h), rfl, rfl, Alike.refl _ _⟩
  | some job =>
    dsimp only
    cases hlookup : s.store.queue.lookup (manualSendId requestId) with
    | some d =>
      intro left hleft
      obtain rfl := List.mem_singleton.mp hleft
      exact ⟨fun _ _ h => (nomatch hlookup.symm.trans h), rfl, rfl, Alike.refl _ _⟩
    | none =>
      dsimp only
      have hrefused : ¬ (restartsInterval job ∧
          takesRequest lib s.store (fireRequest job requestId)) :=
        fun h => hkeyed ⟨job, hjob, h.1, hlookup, h.2⟩
      have hrequest := fireRequest_wellFormed job requestId
      have htakes := manual_takes lib s.store hrequest rfl attempt.now
      have hwrites : (match enqueueManual lib s.store (fireRequest job requestId) true
          attempt.now with
          | (_, .error _) => []
          | (store, .ok _) =>
            if restartsInterval job then
              cancelWrites { s with store := store } job.name attempt.now ++
                [fireJobNow lib s job requestId attempt.now]
            else []) = [] := by
        cases hqueued : enqueueManual lib s.store (fireRequest job requestId) true attempt.now with
        | mk store outcome =>
          cases outcome with
          | error e => rfl
          | ok d =>
            have hinterval : ¬ restartsInterval job :=
              fun hinterval => hrefused ⟨hinterval, htakes.mp ⟨d, by rw [hqueued]⟩⟩
            dsimp only
            rw [if_neg hinterval]
      rw [hwrites, List.append_nil, fireJobNow_kept lib s attempt.now hrefused]
      intro left hleft
      have hform : ∃ answers, left =
          { s with store := (enqueueManual lib s.store (fireRequest job requestId) answers
            attempt.now).1 } := by
        rcases List.mem_cons.mp hleft with rfl | hmem
        · exact ⟨true, rfl⟩
        · exact (mem_enqueueWrites lib).mp hmem
      obtain ⟨answers, rfl⟩ := hform
      refine ⟨?_, rfl, rfl, enqueueWrites_alike lib s hrequest attempt.now answers⟩
      obtain ⟨hfound, hinserted⟩ := manual_found lib s.store hrequest answers attempt.now
      intro job' hjob' hfree
      obtain rfl : job = job' := Option.some.inj (hjob.symm.trans hjob')
      refine ⟨hfound, fun hinterval htaken => hrefused ⟨hinterval, ?_⟩⟩
      by_cases hexisting :
        existingDelivery s.store.queue (manualRecord (fireRequest job requestId)) = none
      · exact absurd hfree (hinserted hexisting)
      · have hqueue := manual_queue_taken lib s.store answers attempt.now hexisting
        have hreplies : (enqueueManual lib s.store (fireRequest job requestId) answers
            attempt.now).1.chats.replies = s.store.chats.replies := by
          rcases manual_sameRows lib s.store (fireRequest job requestId) answers attempt.now with
            hsame | hsame
          · exact hsame.replies
          · rw [hsame.replies]
            exact enqueueIdempotent_replies attempt.now s.store _ answers
        exact (takesRequest_congr lib hqueue
          fun d _ => originalHash_congr hreplies d.sendId).mp htaken

/-- A one-time prompt that is queued at once leaves nothing that a repetition would miss. -/
theorem once_left (attempt : Attempt) (s : SchedulerState) (command : RunOnce)
    (hkeyed : ¬ addsJob available command) :
    ∀ left ∈ runOnce lib label available s command attempt ::
        onceWrites lib label available s command attempt,
      Left lib available (runOnce lib label available s command attempt) left
        (.runOnce command) := by
  unfold runOnce onceWrites
  by_cases himages : holdsImages available command = true
  · have hdelay : command.delayMinutes = 0 := by
      by_contra hdelay
      exact hkeyed ⟨himages, hdelay⟩
    rw [himages, Bool.not_true, if_neg Bool.false_ne_true, if_neg Bool.false_ne_true, if_pos hdelay,
      if_pos hdelay]
    have hrequest := onceRequest_wellFormed available himages
    intro left hleft
    have hform : ∃ answers, left =
        { s with store := (enqueueManual lib s.store (onceRequest command) answers
          attempt.now).1 } := by
      rcases List.mem_cons.mp hleft with rfl | hmem
      · exact ⟨true, rfl⟩
      · exact (mem_enqueueWrites lib).mp hmem
    obtain ⟨answers, rfl⟩ := hform
    refine ⟨?_, rfl, rfl, enqueueWrites_alike lib s hrequest attempt.now answers⟩
    intro _
    exact ⟨hdelay, (manual_found lib s.store hrequest answers attempt.now).1⟩
  · have hmissing : (!holdsImages available command) = true := by simpa using himages
    rw [if_pos hmissing, if_pos hmissing]
    intro left hleft
    obtain rfl := List.mem_singleton.mp hleft
    exact ⟨fun h => absurd h himages, rfl, rfl, Alike.refl _ _⟩

/-- An action that writes under its request identifier only is idempotent. -/
theorem idempotent_of_keyed {s : SchedulerState} {action : JobAction}
    (h : keyedByRequest lib available s action) : Idempotent lib label available s action := by
  intro first again _ left hleft followups reached hreached
  have hknown : Left lib available (perform lib label available first s action) left action := by
    cases action with
    | fireNow name requestId => exact fire_left lib available first s name requestId h left hleft
    | runOnce command => exact once_left lib label available first s command h left hleft
  obtain ⟨single, hsingle, hsame⟩ :=
    followups_alike lib followups hknown.jobs hknown.states hknown.alike hreached
  have hagain := settled_perform lib available label again
    (followups_settled lib available followups hknown.settled hreached)
  exact ⟨single, hsingle, hagain.queue.trans hsame.queue, hagain.jobs.trans hsame.jobs,
    hagain.states.trans hsame.states⟩

end Executions

section Repeats

variable (lib : Stdlib) (label : Time → String) (available : String → Bool)

/-- An execution at a positive time. -/
def attemptAt (now : Time) (h : 0 < now) : Attempt :=
  ⟨now, "00000000", h, by decide⟩

/-- A countdown is restarted by the last write, which a crash before it loses for good or
leaves to the repeated request. -/
theorem countdown_repeats {s : SchedulerState} {name : String} {requestId : RequestId}
    (h : restartsCountdown lib s name requestId) :
    ¬ Idempotent lib label available s (.fireNow name requestId) := by
  obtain ⟨job, hjob, hinterval, hlookup, htakes⟩ := h
  obtain rfl : job.name = name := Table.lookup_key hjob
  intro hidempotent
  let old := (jobState s.states job.name).lastManualFireAtEpoch
  have hpos : 0 < |old| + 1 := add_pos_of_nonneg_of_pos (abs_nonneg old) one_pos
  have hold : old ≠ |old| + 1 := by
    have hle : old ≤ |old| := le_abs_self old
    intro heq
    linarith
  let first := attemptAt (|old| + 1) hpos
  let again := attemptAt (|old| + 2) (by linarith)
  let request := fireRequest job requestId
  let left : SchedulerState :=
    { s with store := (enqueueManual lib s.store request true first.now).1 }
  have hrequest : WellFormed request := fireRequest_wellFormed job requestId
  have hperform : perform lib label available first s (.fireNow job.name requestId) =
      fireJobNow lib s job requestId first.now := by
    show fireNow lib s job.name requestId first.now = _
    unfold fireNow
    rw [hjob]
    dsimp only
    rw [hlookup]
  have hleft : left ∈ writes lib label available first s (.fireNow job.name requestId) := by
    show left ∈ fireWrites lib s job.name requestId first.now
    unfold fireWrites
    rw [hjob]
    dsimp only
    rw [hlookup]
    dsimp only
    exact List.mem_append_left _ ((mem_enqueueWrites lib).mpr ⟨true, rfl⟩)
  obtain ⟨single, hsingle, hsame⟩ := hidempotent first again (by
    show |old| + 1 ≤ |old| + 2
    linarith) left (List.mem_cons_of_mem _ hleft) [] left rfl
  obtain rfl := Option.some.inj hsingle
  have hfirst : (jobState (perform lib label available first s
      (.fireNow job.name requestId)).states job.name).lastManualFireAtEpoch = |old| + 1 := by
    rw [hperform]
    exact fireJobNow_restarted lib s first.now hinterval htakes
  rw [← hsame.states] at hfirst
  by_cases hfree : existingDelivery s.store.queue (manualRecord request) = none
  · -- The delivery is found, so the countdown stays as it was.
    obtain ⟨d, hd⟩ := Option.ne_none_iff_exists'.mp
      ((manual_found lib s.store hrequest true first.now).2 hfree)
    have hagain : perform lib label available again left (.fireNow job.name requestId) = left := by
      show fireNow lib left job.name requestId again.now = left
      unfold fireNow
      rw [show left.jobs.lookup job.name = some job from hjob]
      dsimp only
      rw [show left.store.queue.lookup (manualSendId requestId) = some d from hd]
    rw [hagain] at hfirst
    exact hold hfirst
  · -- The delivery has another identifier, so the countdown is restarted once more.
    have hqueue : left.store.queue = s.store.queue :=
      manual_queue_taken lib s.store true first.now hfree
    have hreplies : left.store.chats.replies = s.store.chats.replies := by
      show (enqueueManual lib s.store request true first.now).1.chats.replies = _
      rcases manual_sameRows lib s.store request true first.now with hrows | hrows
      · exact hrows.replies
      · rw [hrows.replies]
        exact enqueueIdempotent_replies first.now s.store _ true
    have htaken : takesRequest lib left.store request :=
      (takesRequest_congr lib hqueue fun d _ => originalHash_congr hreplies d.sendId).mpr htakes
    have hagain : perform lib label available again left (.fireNow job.name requestId) =
        fireJobNow lib left job requestId again.now := by
      show fireNow lib left job.name requestId again.now = _
      unfold fireNow
      rw [show left.jobs.lookup job.name = some job from hjob]
      dsimp only
      rw [hqueue, hlookup]
    rw [hagain, fireJobNow_restarted lib left again.now hinterval htaken] at hfirst
    have hlate : |old| + 2 = |old| + 1 := hfirst
    linarith

theorem runAt_bounded (rows : List PromptJob) :
    ∃ bound : Time, ∀ job ∈ rows, ∀ t ∈ job.runAtEpoch, t < bound := by
  induction rows with
  | nil => exact ⟨0, fun _ h => (nomatch h)⟩
  | cons job rest ih =>
    obtain ⟨bound, hbound⟩ := ih
    refine ⟨max bound (job.runAtEpoch.getD 0 + 1), ?_⟩
    intro job' hjob' t ht
    rcases List.mem_cons.mp hjob' with rfl | hmem
    · have hrun : job'.runAtEpoch = some t := ht
      apply lt_max_of_lt_right
      rw [hrun]
      exact lt_add_one t
    · exact lt_max_of_lt_left (hbound job' hmem t ht)

/-- A delayed prompt is always accepted as a job. -/
theorem onceJob_accepted {command : RunOnce} (himages : holdsImages available command = true)
    (attempt : Attempt) :
    ∃ job, onceJob label command attempt = .ok job ∧
      job.runAtEpoch = some (onceRunAt command attempt) := by
  have hrequest := onceRequest_wellFormed available himages
  have hname : stripName (onceName label command attempt) ≠ "" := by
    intro h
    have htext : strip (onceName label command attempt).toList = [] := by
      have hlist := congrArg String.toList h
      rwa [stripName, String.toList_ofList] at hlist
    have hspace := (strip_eq_nil_iff _).mp htext 'O' (by
      unfold onceName
      simp only [String.toList_append]
      exact List.mem_append_left _ (List.mem_append_left _ (List.mem_append_left _ (by decide))))
    exact absurd hspace (by decide)
  have hrun : ∀ t ∈ some (onceRunAt command attempt), 0 < t := by
    intro t ht
    obtain rfl := Option.some.inj ht
    have hdelay := command.delay_valid
    have hnow := attempt.now_positive
    show 0 < attempt.now + command.delayMinutes * 60
    linarith
  have hprompt : strip command.prompt ≠ [] := hrequest.prompt
  have hrefs : imageRefs command.images = .ok command.images := hrequest.images
  unfold onceJob normaliseJobDefinition
  rw [dif_neg hname, dif_neg hprompt, dif_neg (not_not.mpr hrun)]
  split
  · rename_i e herror
    exact nomatch herror.symm.trans hrefs
  · exact ⟨_, rfl, rfl⟩

/-- A delayed prompt is added once more, under the name that the second execution draws. -/
theorem delayed_repeats (s : SchedulerState) {command : RunOnce} (h : addsJob available command) :
    ¬ Idempotent lib label available s (.runOnce command) := by
  obtain ⟨himages, hdelay⟩ := h
  intro hidempotent
  have hperform : ∀ (attempt : Attempt) (s : SchedulerState) (job : PromptJob),
      onceJob label command attempt = .ok job →
        (perform lib label available attempt s (.runOnce command)).jobs = saveJob s.jobs job := by
    intro attempt s job hjob
    show (runOnce lib label available s command attempt).jobs = _
    unfold runOnce
    rw [himages, Bool.not_true, if_neg Bool.false_ne_true, if_neg hdelay, hjob]
  let first := attemptAt 1 one_pos
  let left := perform lib label available first s (.runOnce command)
  obtain ⟨bound, hbound⟩ := runAt_bounded left.jobs.rows
  let again := attemptAt (max 1 bound) (lt_max_of_lt_left one_pos)
  obtain ⟨job, hjob, hrun⟩ := onceJob_accepted label available himages again
  obtain ⟨single, hsingle, hsame⟩ := hidempotent first again (le_max_left 1 bound) left
    List.mem_cons_self [] left rfl
  obtain rfl := Option.some.inj hsingle
  have hjobs : saveJob left.jobs job = left.jobs :=
    (hperform again left job hjob).symm.trans hsame.jobs
  have hsaved : left.jobs.lookup job.name = some job := by
    rw [← hjobs, lookup_saveJob, if_pos rfl]
  have hearly := hbound job (Table.lookup_mem hsaved) _ hrun
  have hlate : bound ≤ max 1 bound := le_max_right 1 bound
  have hwait := command.delay_valid
  change max 1 bound + command.delayMinutes * 60 < bound at hearly
  linarith

/-- The executions of an action add up to one if and only if the action writes under its
request identifier only. A manual fire that restarts the countdown of an interval job and a
delayed prompt do not. -/
theorem request_idempotent_iff (s : SchedulerState) (action : JobAction) :
    Idempotent lib label available s action ↔ keyedByRequest lib available s action := by
  constructor
  · intro hidempotent
    cases action with
    | fireNow name requestId => exact fun h => countdown_repeats lib label available h hidempotent
    | runOnce command => exact fun h => delayed_repeats lib label available s h hidempotent
  · exact idempotent_of_keyed lib label available

end Repeats

def summaryJob : PromptJob where
  name := "summary"
  prompt := "Summarise the open issues.".toList
  intervalSeconds := 600
  name_present := by decide
  prompt_present := by decide
  interval_nonneg := JobDeliveries.reviewJob.interval_nonneg
  run_positive := JobDeliveries.reviewJob.run_positive
  images_valid := JobDeliveries.reviewJob.images_valid

def summaryState : SchedulerState :=
  { SchedulerState.empty with jobs := saveJob Table.empty summaryJob }

def summaryRequest : RequestId := ⟨"0123456789abcdef0123456789abcdef", by decide⟩

/-- A crash after the delivery is queued, and the countdown of the job is never restarted. -/
theorem countdown_lost :
    ¬ Idempotent digestLib (fun _ => "27 Jul 09:00") (fun _ => true) summaryState
      (.fireNow "summary" summaryRequest) := by
  apply countdown_repeats
  refine ⟨summaryJob, by decide, ⟨by norm_num [summaryJob], rfl, rfl⟩, rfl, ?_⟩
  intro d hd
  cases hd

/-- Fired at 100, the job is due at 700; after a crash and a second request it has no due time. -/
example :
    let attempt := attemptAt 100 (by norm_num)
    let lib := digestLib
    let action := JobAction.fireNow "summary" summaryRequest
    let single := perform lib (fun _ => "") (fun _ => true) attempt summaryState action
    let crashed := (writes lib (fun _ => "") (fun _ => true) attempt summaryState action).headD
      summaryState
    (jobState single.states "summary").nextDueAtEpoch = 700 ∧
      (jobState (perform lib (fun _ => "") (fun _ => true) attempt crashed action).states
        "summary").nextDueAtEpoch = 0 := by
  decide +kernel

end Prompta.RequestReplay
